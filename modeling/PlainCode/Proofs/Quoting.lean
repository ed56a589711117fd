import PlainCode.Literal.Quoted
import PlainCode.Proofs.Characters
import PlainCode.Proofs.Spans

/-!
# Quoted literals and quoting anew

`Contents` is the grammar of what stands between two quotes: a backslash together with the
character behind it, or any one character that is neither a backslash nor the quote. `contents?`
reads exactly that (`Contents.read`, `contents_of_contents?`), so what the recogniser of quoted
literals finds is known without looking into it again (`quotedAt?_eq_some_iff`).

Quoting anew puts a backslash in front of a double quote only if there is none in front of it. That
is not enough where the backslashes in front of it already stand for themselves, two by two
(`LooseQuote`): in single quotes, `\\"` is a backslash and a double quote, and in double quotes it
would be a backslash and the end of the literal. Everywhere else the new literal has the
grammar of a literal in double quotes (`contents_guardQuotes`).
-/

namespace PlainCode.Literal

open PlainCode.Text (isBlank isQuote_cases isQuote_of_isBlank)

/-! ## The grammar of contents -/

/-- What can stand between two quotes of one sort. -/
inductive Contents (quote : Char) : List Char → Prop where
  | nil : Contents quote []
  | escape {d : Char} {cs : List Char} (hd : d ≠ '\n') (hcs : Contents quote cs) :
      Contents quote ('\\' :: d :: cs)
  | plain {c : Char} {cs : List Char} (hquote : c ≠ quote) (hslash : c ≠ '\\')
      (hcs : Contents quote cs) : Contents quote (c :: cs)

/-- Contents are read up to the quote that ends them, whatever follows. -/
theorem Contents.read {quote : Char} (hq : quote ≠ '\\') {text : List Char}
    (h : Contents quote text) (rest : List Char) :
    contents? quote (text ++ quote :: rest) = some text := by
  induction h with
  | nil =>
    rw [List.nil_append]
    unfold contents?
    rw [if_pos rfl]
  | escape hd _ ih =>
    rw [List.cons_append, List.cons_append]
    unfold contents?
    rw [if_neg hq.symm, if_pos rfl]
    simp only [if_neg hd, ih, Option.map_some]
  | plain hquote hslash _ ih =>
    rw [List.cons_append]
    unfold contents?
    rw [if_neg hquote, if_neg hslash, ih]
    rfl

/-- What is read as contents has the grammar of contents, and the quote is behind it. -/
theorem contents_of_contents? {quote : Char} {cs text : List Char}
    (h : contents? quote cs = some text) :
    Contents quote text ∧ ∃ rest, cs = text ++ quote :: rest := by
  fun_induction contents? quote cs generalizing text with
  | case1 => exact absurd h (by simp)
  | case2 cs =>
    rw [Option.some.injEq] at h
    subst h
    exact ⟨.nil, cs, rfl⟩
  | case3 => exact absurd h (by simp)
  | case4 => exact absurd h (by simp)
  | case5 d ds hd hc ih =>
    obtain ⟨inner, hinner, rfl⟩ := Option.map_eq_some_iff.mp h
    obtain ⟨hcont, rest, rfl⟩ := ih hinner
    exact ⟨.escape hd hcont, rest, rfl⟩
  | case6 c cs hquote hslash ih =>
    obtain ⟨inner, hinner, rfl⟩ := Option.map_eq_some_iff.mp h
    obtain ⟨hcont, rest, rfl⟩ := ih hinner
    exact ⟨.plain hquote hslash hcont, rest, rfl⟩

/-! ## Quoted literals -/

theorem ne_slash_of_isQuote {c : Char} (h : isQuote c = true) : c ≠ '\\' := by
  rcases isQuote_cases h with rfl | rfl
  · decide
  · decide

theorem quotedAt?_cons (before : Option Char) (c : Char) (cs : List Char) :
    quotedAt? before (c :: cs)
      = if isQuote c then (contents? c cs).map fun text => c :: text ++ [c] else none := rfl

/-- A quoted literal is contents between two quotes. -/
theorem quotedAt?_eq_some_iff {before : Option Char} {cs text : List Char} :
    quotedAt? before cs = some text ↔
      ∃ quote contents rest, isQuote quote = true ∧ Contents quote contents ∧
        text = quote :: contents ++ [quote] ∧ cs = text ++ rest := by
  constructor
  · intro h
    cases cs with
    | nil => exact absurd h (by simp [quotedAt?])
    | cons c cs =>
      rw [quotedAt?_cons] at h
      split at h
      next hq =>
        obtain ⟨contents, hcont, rfl⟩ := Option.map_eq_some_iff.mp h
        obtain ⟨hgrammar, rest, rfl⟩ := contents_of_contents? hcont
        exact ⟨c, contents, rest, hq, hgrammar, rfl, by simp⟩
      next => exact absurd h (by simp)
  · rintro ⟨quote, contents, rest, hq, hgrammar, rfl, rfl⟩
    have hread := hgrammar.read (ne_slash_of_isQuote hq) rest
    simp only [List.cons_append, List.append_assoc, List.nil_append, quotedAt?, hq, if_true, hread,
      Option.map_some]

theorem quotedAt?_of_not_isQuote {before : Option Char} {c : Char} {cs : List Char}
    (h : isQuote c = false) : quotedAt? before (c :: cs) = none := by
  rw [quotedAt?_cons, h]
  rfl

theorem quotedAt?_faithful : Recogniser.Faithful quotedAt? := by
  intro before cs text h
  obtain ⟨quote, contents, rest, _, _, rfl, hcs⟩ := quotedAt?_eq_some_iff.mp h
  exact ⟨by simp, rest, hcs⟩

/-- Looking for quoted literals does not go across a blank but from an open quote on. -/
theorem quotedAt?_stopsAt {sep : Char} (hsep : isBlank sep = true) (next : List Char) :
    Recogniser.StopsAt quotedAt? isQuote sep next where
  keeps := by
    intro before cs text h
    obtain ⟨quote, contents, rest, hq, hgrammar, rfl, rfl⟩ := quotedAt?_eq_some_iff.mp h
    exact quotedAt?_eq_some_iff.mpr
      ⟨quote, contents, rest ++ sep :: next, hq, hgrammar, rfl, List.append_assoc ..⟩
  misses := fun hc _ => quotedAt?_of_not_isQuote hc
  misses_sep := quotedAt?_of_not_isQuote (isQuote_of_isBlank hsep)
  begins := by cases next <;> rfl

/-- A blank at the end of a text changes no literal, also behind a quote that is open. -/
theorem quotedAt?_stopsAt_end {sep : Char} (hsep : isBlank sep = true) :
    Recogniser.StopsAt quotedAt? (fun _ => false) sep [] where
  keeps := (quotedAt?_stopsAt hsep []).keeps
  misses := by
    intro before c cs _ hmiss
    rw [Option.eq_none_iff_forall_ne_some]
    intro text hfind
    obtain ⟨quote, contents, rest, hq, hgrammar, rfl, hcs⟩ := quotedAt?_eq_some_iff.mp hfind
    rw [← List.cons_append] at hcs
    rcases List.eq_nil_or_concat rest with rfl | ⟨front, last, rfl⟩
    · -- the blank would be the quote that ends the literal
      rw [List.append_nil] at hcs
      have hlast : sep = quote := List.head_eq_of_cons_eq (List.append_inj' hcs rfl).2
      rw [← hlast, isQuote_of_isBlank hsep] at hq
      cases hq
    · rw [List.concat_eq_append, ← List.append_assoc] at hcs
      have hfront := (List.append_inj' hcs rfl).1
      rw [quotedAt?_eq_some_iff.mpr ⟨quote, contents, front, hq, hgrammar, rfl, hfront⟩] at hmiss
      cases hmiss
  misses_sep := (quotedAt?_stopsAt hsep []).misses_sep
  begins := (quotedAt?_stopsAt hsep []).begins

/-- A quoted literal is known by its quotes. -/
theorem quotedAt?_alone : Recogniser.Alone quotedAt? := by
  intro before text rest h before' rest'
  obtain ⟨quote, contents, _, hq, hgrammar, htext, _⟩ := quotedAt?_eq_some_iff.mp h
  exact quotedAt?_eq_some_iff.mpr ⟨quote, contents, rest', hq, hgrammar, htext, rfl⟩

/-- A text without quotes is one stretch of plain text. -/
theorem cut_quotedAt?_plain : ∀ {cs : List Char} (before : Option Char),
    (∀ c ∈ cs, isQuote c = false) → Cut quotedAt? before cs [⟨false, cs⟩]
  | [], _, _ => .nil
  | c :: _, _, h =>
    .plain (quotedAt?_of_not_isQuote (h c (List.mem_cons_self ..)))
      (cut_quotedAt?_plain (some c) fun d hd => h d (List.mem_cons_of_mem _ hd))

/-! ## Loose quotes -/

/-- The number of backslashes that a text ends with. -/
def slashesBehind (cs : List Char) : Nat := (cs.reverse.takeWhile (· == '\\')).length

/-- A double quote with an even number of backslashes in front of it, and not with none. -/
def LooseQuote (cs : List Char) : Prop :=
  ∃ front back, cs = front ++ '"' :: back ∧ 0 < slashesBehind front ∧ slashesBehind front % 2 = 0

/-- Whether there is a loose quote in a text with `slashes` backslashes in front of it. -/
def looseAfter (slashes : Nat) : List Char → Bool
  | [] => false
  | c :: cs =>
    (c == '"' && decide (0 < slashes) && slashes % 2 == 0) ||
      looseAfter (if c = '\\' then slashes + 1 else 0) cs

theorem slashesBehind_concat (cs : List Char) (c : Char) :
    slashesBehind (cs ++ [c]) = if c = '\\' then slashesBehind cs + 1 else 0 := by
  unfold slashesBehind
  rw [List.reverse_append, List.reverse_singleton, List.singleton_append, List.takeWhile_cons]
  by_cases hc : c = '\\'
  · rw [if_pos hc, if_pos (by simpa using hc), List.length_cons]
  · rw [if_neg hc, if_neg (by simpa using hc), List.length_nil]

private theorem looseAfter_iff (cs front : List Char) : looseAfter (slashesBehind front) cs = true ↔
    ∃ more back, cs = more ++ '"' :: back ∧ 0 < slashesBehind (front ++ more) ∧
      slashesBehind (front ++ more) % 2 = 0 := by
  induction cs generalizing front with
  | nil => simp [looseAfter]
  | cons c cs ih =>
    have hrest := ih (front ++ [c])
    rw [slashesBehind_concat] at hrest
    simp only [looseAfter, Bool.or_eq_true, Bool.and_eq_true, beq_iff_eq, decide_eq_true_eq, hrest]
    constructor
    -- the quote is the first character, or it comes later
    · rintro (⟨⟨rfl, hpos⟩, heven⟩ | ⟨more, back, rfl, hpos, heven⟩)
      · exact ⟨[], cs, rfl, by rwa [List.append_nil], by rwa [List.append_nil]⟩
      · rw [List.append_assoc] at hpos heven
        exact ⟨c :: more, back, rfl, hpos, heven⟩
    · rintro ⟨more, back, hcs, hpos, heven⟩
      cases more with
      | nil =>
        rw [List.nil_append, List.cons.injEq] at hcs
        rw [List.append_nil] at hpos heven
        exact Or.inl ⟨⟨hcs.1, hpos⟩, heven⟩
      | cons d more =>
        rw [List.cons_append, List.cons.injEq] at hcs
        obtain ⟨rfl, rfl⟩ := hcs
        exact Or.inr ⟨more, back, rfl, by rwa [List.append_assoc], by rwa [List.append_assoc]⟩

theorem looseQuote_iff (cs : List Char) : LooseQuote cs ↔ looseAfter 0 cs = true :=
  (looseAfter_iff cs []).symm

instance (cs : List Char) : Decidable (LooseQuote cs) := decidable_of_iff' _ (looseQuote_iff cs)

/-- A pair of a backslash and another character hides that character, and leaves the number of
backslashes in front even. -/
theorem looseAfter_escape {n : Nat} (hn : n % 2 = 0) (d : Char) (cs : List Char) :
    looseAfter n ('\\' :: d :: cs) = looseAfter (if d = '\\' then n + 2 else 0) cs := by
  have hodd : ((n + 1) % 2 == 0) = false := by rw [beq_eq_false_iff_ne]; omega
  rw [looseAfter, looseAfter, if_pos rfl, hodd, Bool.and_false, Bool.false_or]
  rfl

theorem looseAfter_of_ne {n : Nat} {c : Char} (hquote : c ≠ '"') (hslash : c ≠ '\\')
    (cs : List Char) : looseAfter n (c :: cs) = looseAfter 0 cs := by
  rw [looseAfter, if_neg hslash, beq_eq_false_iff_ne.mpr hquote]
  rfl

theorem looseAfter_quote (n : Nat) (cs : List Char) :
    looseAfter n ('"' :: cs) = (decide (0 < n) && n % 2 == 0 || looseAfter 0 cs) := rfl

/-- No quote is loose in a literal that was in double quotes. -/
theorem Contents.not_looseQuote {cs : List Char} (h : Contents '"' cs) : ¬ LooseQuote cs := by
  have hnone : ∀ n, n % 2 = 0 → looseAfter n cs = false := by
    induction h with
    | nil => intro n _; rfl
    | escape _ _ ih =>
      intro n hn
      rw [looseAfter_escape hn]
      split
      · exact ih _ (by omega)
      · exact ih _ rfl
    | plain hquote hslash _ ih =>
      intro n _
      rw [looseAfter_of_ne hquote hslash]
      exact ih 0 rfl
  rw [looseQuote_iff, hnone 0 rfl]
  exact Bool.false_ne_true

/-! ## Quoting anew -/

theorem guardFrom_escape (guarded : Bool) (d : Char) (cs : List Char) :
    guardFrom guarded ('\\' :: d :: cs) = '\\' :: d :: guardFrom (d == '\\') cs := by
  rw [guardFrom, guardFrom, if_neg fun h => absurd h.1 (by decide), if_neg (by simp)]
  rfl

theorem guardFrom_of_ne (guarded : Bool) {c : Char} (hc : c ≠ '"') (cs : List Char) :
    guardFrom guarded (c :: cs) = c :: guardFrom (c == '\\') cs := by
  rw [guardFrom, if_neg fun h => hc h.1]
  rfl

theorem guardFrom_quote (cs : List Char) :
    guardFrom false ('"' :: cs) = '\\' :: '"' :: guardFrom false cs := rfl

theorem guardFrom_quote_guarded (cs : List Char) :
    guardFrom true ('"' :: cs) = '"' :: guardFrom false cs := rfl

/-- Contents that were in double quotes stay as they are. -/
theorem Contents.guardFrom_eq_self {cs : List Char} (h : Contents '"' cs) (guarded : Bool) :
    guardFrom guarded cs = cs := by
  induction h generalizing guarded with
  | nil => rfl
  | escape _ _ ih => rw [guardFrom_escape, ih]
  | plain hquote _ _ ih => rw [guardFrom_of_ne guarded hquote, ih]

/-- Without loose quotes, contents quoted anew are contents in double quotes. The backslashes in
front are counted from the last pair on, so there is an even number of them: a double quote behind
none gets one, and there is none behind two or more. -/
private theorem contents_guardFrom {quote : Char} {cs : List Char} (h : Contents quote cs) :
    ∀ {n : Nat}, n % 2 = 0 → looseAfter n cs = false →
      Contents '"' (guardFrom (decide (0 < n)) cs) := by
  induction h with
  | nil => intro n _ _; exact .nil
  | @escape d cs hd _ ih =>
    intro n hn hloose
    rw [looseAfter_escape hn] at hloose
    rw [guardFrom_escape]
    refine .escape hd ?_
    -- one more pair of backslashes is in front of the rest, or none any more
    by_cases hslash : d = '\\'
    · rw [if_pos hslash] at hloose
      have hrest := ih (by omega) hloose
      rwa [decide_eq_true (by omega), ← beq_iff_eq.mpr hslash] at hrest
    · rw [if_neg hslash] at hloose
      rw [beq_eq_false_iff_ne.mpr hslash]
      exact ih rfl hloose
  | @plain c cs _ hslash _ ih =>
    intro n hn hloose
    by_cases hquote : c = '"'
    · subst hquote
      rw [looseAfter_quote, Bool.or_eq_false_iff] at hloose
      -- behind one or more pairs it would be loose
      have hzero : n = 0 := by
        simp only [hn, beq_self_eq_true, Bool.and_true, decide_eq_false_iff_not] at hloose
        omega
      subst hzero
      show Contents '"' (guardFrom false ('"' :: cs))
      rw [guardFrom_quote]
      exact .escape (by decide) (ih rfl hloose.2)
    · rw [looseAfter_of_ne hquote hslash] at hloose
      rw [guardFrom_of_ne _ hquote, beq_eq_false_iff_ne.mpr hslash]
      exact .plain hquote hslash (ih rfl hloose)

theorem contents_guardQuotes {quote : Char} {cs : List Char} (h : Contents quote cs)
    (hloose : ¬ LooseQuote cs) : Contents '"' (guardQuotes cs) := by
  rw [looseQuote_iff, Bool.not_eq_true] at hloose
  exact contents_guardFrom h rfl hloose

/-- A literal quoted anew is found as a literal, whatever follows. -/
theorem quotedAt?_requote {cs : List Char} (h : Contents '"' (guardQuotes cs))
    (before : Option Char) (rest : List Char) :
    quotedAt? before (requote cs ++ rest) = some (requote cs) :=
  quotedAt?_eq_some_iff.mpr ⟨'"', guardQuotes cs, rest, rfl, h, rfl, rfl⟩

end PlainCode.Literal
