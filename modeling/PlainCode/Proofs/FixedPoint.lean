import Mathlib.Algebra.GroupWithZero.Nat
import PlainCode.Proofs.Pieces

/-!
# When a canonical form is its own canonical form

Putting a canonical form into its canonical form should change nothing, and mostly does: the pieces
of a canonical form are those it was made of (`canonical_of_readable`). The exception is a literal
in single quotes with a loose quote in it, which ends the literal early once it stands in
double quotes. The main result, `canonical_fixed_iff`, is that there is no other exception, and that
this one never goes unnoticed: the canonical form of a phrase is a fixed point exactly if no
literal in single quotes has a loose quote.

The second half is the harder one, since a quote too many could be made up for by a later one. A
fixed point loses no quotes and no backslashes, so all of them lie in literals in double quotes
(`literals_of_fixed`, `plain_of_fixed`), and reading it with nothing but those two characters in
mind (`Side`) ends outside of a literal. A loose quote turns inside and outside round for the rest
of the text, where no other quote can turn them back, because it would have a backslash in front of
it that is outside (`joined_from_inside`). So the reading ends inside.
-/

namespace PlainCode.Literal

/-! ## Inside and outside of double quotes -/

/-- Where a character stands that is read with nothing but double quotes and backslashes in
mind. -/
inductive Side where
  | outside
  | inside
  | escaped
  deriving DecidableEq, Repr

namespace Side

/-- Where the next character stands. Outside of literals there are no single quotes and no
backslashes. -/
def next : Side → Char → Option Side
  | .outside, c =>
    if c = '"' then some .inside else if c = '\'' ∨ c = '\\' then none else some .outside
  | .inside, c =>
    if c = '"' then some .outside else if c = '\\' then some .escaped else some .inside
  | .escaped, _ => some .inside

/-- Where a text ends. -/
def run : Side → List Char → Option Side
  | s, [] => some s
  | s, c :: cs => (s.next c).bind fun t => t.run cs

theorem run_append (s : Side) : ∀ cs ds : List Char,
    s.run (cs ++ ds) = (s.run cs).bind fun t => t.run ds := by
  intro cs
  induction cs generalizing s with
  | nil => intro ds; rfl
  | cons c cs ih =>
    intro ds
    rw [List.cons_append, run, run]
    cases s.next c with
    | none => rfl
    | some t => exact ih t ds

/-- A text that ends somewhere has come to the end of its first part. -/
theorem run_append_some {s t : Side} {cs ds : List Char} (h : s.run (cs ++ ds) = some t) :
    ∃ u, s.run cs = some u ∧ u.run ds = some t := by
  rw [run_append] at h
  exact Option.bind_eq_some_iff.mp h

/-- Whether a character can change where the next one stands. -/
def isMark (c : Char) : Bool := isQuote c || c == '\\'

private theorem isMark_eq_false {c : Char} (h : isMark c = false) :
    c ≠ '"' ∧ c ≠ '\'' ∧ c ≠ '\\' := by
  simpa [isMark, isQuote, and_assoc] using h

private theorem next_of_not_isMark {s : Side} (hs : s ≠ .escaped) {c : Char}
    (h : isMark c = false) : s.next c = some s := by
  obtain ⟨hdouble, hsingle, hslash⟩ := isMark_eq_false h
  cases s with
  | outside => simp [next, hdouble, hsingle, hslash]
  | inside => simp [next, hdouble, hslash]
  | escaped => exact absurd rfl hs

/-- A text without marks ends where it begins. -/
theorem run_of_not_isMark {s : Side} (hs : s ≠ .escaped) : ∀ {cs : List Char},
    (∀ c ∈ cs, isMark c = false) → s.run cs = some s
  | [], _ => rfl
  | c :: cs, h => by
    rw [run, next_of_not_isMark hs (h c (List.mem_cons_self ..))]
    exact run_of_not_isMark hs fun d hd => h d (List.mem_cons_of_mem _ hd)

/-- Contents in double quotes end inside. -/
private theorem run_contents {cs : List Char} (h : Contents '"' cs) :
    inside.run cs = some .inside := by
  induction h with
  | nil => rfl
  | escape _ _ ih => exact ih
  | plain hquote hslash _ ih =>
    rw [run, next, if_neg hquote, if_neg hslash]
    exact ih

/-- A literal in double quotes is passed from outside to outside. -/
theorem run_literal {cs : List Char} (h : Contents '"' cs) :
    outside.run ('"' :: cs ++ ['"']) = some .outside := by
  rw [List.cons_append, run]
  show inside.run (cs ++ ['"']) = some .outside
  rw [run_append, run_contents h]
  rfl

/-- Contents quoted anew do not end outside-in: read from outside, the first mark in them is no
double quote. -/
theorem outside_of_run_guardFrom {t : Side} : ∀ {cs : List Char},
    outside.run (guardFrom false cs) = some t → t = .outside
  | [], h => (Option.some.inj h).symm
  | c :: cs, h => by
    by_cases hquote : c = '"'
    · -- it has got a backslash, and there is none outside
      subst hquote
      exact absurd h (by rw [guardFrom_quote, run]; simp [next])
    · rw [guardFrom_of_ne false hquote, run] at h
      by_cases hmark : c = '\'' ∨ c = '\\'
      · rw [next, if_neg hquote, if_pos hmark] at h
        exact absurd h (by simp)
      · rw [next, if_neg hquote, if_neg hmark,
          beq_eq_false_iff_ne.mpr fun he => hmark (Or.inr he)] at h
        exact outside_of_run_guardFrom h

/-- Contents with a loose quote, quoted anew, end outside. As for `contents_guardFrom`, the
backslashes in front are counted from the last pair on. -/
private theorem outside_of_run_loose {quote : Char} {cs : List Char} (h : Contents quote cs) :
    ∀ {n : Nat} {t : Side}, n % 2 = 0 → looseAfter n cs = true →
      inside.run (guardFrom (decide (0 < n)) cs) = some t → t = .outside := by
  induction h with
  | nil =>
    intro n t _ hloose _
    exact absurd hloose Bool.false_ne_true
  | @escape d cs _ _ ih =>
    intro n t hn hloose hrun
    rw [looseAfter_escape hn] at hloose
    rw [guardFrom_escape] at hrun
    have hrest : inside.run (guardFrom (d == '\\') cs) = some t := hrun
    by_cases hslash : d = '\\'
    · rw [if_pos hslash] at hloose
      refine ih (by omega) hloose ?_
      rwa [decide_eq_true (by omega), ← beq_iff_eq.mpr hslash]
    · rw [if_neg hslash] at hloose
      rw [beq_eq_false_iff_ne.mpr hslash] at hrest
      exact ih rfl hloose hrest
  | @plain c cs _ hslash _ ih =>
    intro n t hn hloose hrun
    by_cases hquote : c = '"'
    · subst hquote
      rw [looseAfter_quote, Bool.or_eq_true] at hloose
      by_cases hpos : 0 < n
      · -- the loose quote: the literal ends here, and the rest is read from outside
        rw [decide_eq_true hpos, guardFrom_quote_guarded] at hrun
        exact outside_of_run_guardFrom hrun
      · rw [decide_eq_false hpos] at hloose hrun
        rw [guardFrom_quote] at hrun
        exact ih rfl (hloose.resolve_left (by simp)) hrun
    · rw [looseAfter_of_ne hquote hslash] at hloose
      rw [guardFrom_of_ne _ hquote, beq_eq_false_iff_ne.mpr hslash, run, next, if_neg hquote,
        if_neg hslash] at hrun
      exact ih rfl hloose hrun

/-- A literal with a loose quote, quoted anew, ends inside. -/
private theorem inside_of_run_requote {quote : Char} {cs : List Char} (h : Contents quote cs)
    (hloose : LooseQuote cs) {t : Side} (hrun : outside.run (requote cs) = some t) :
    t = .inside := by
  rw [requote, List.cons_append, run] at hrun
  obtain ⟨u, hu, hlast⟩ := run_append_some (show inside.run (guardQuotes cs ++ ['"']) = some t
    from hrun)
  rw [outside_of_run_loose h rfl ((looseQuote_iff cs).mp hloose) hu] at hlast
  exact (Option.some.inj hlast).symm

/-- Read from inside, any literal quoted anew ends inside. -/
private theorem inside_of_run_requote_inside {cs : List Char} {t : Side}
    (hrun : inside.run (requote cs) = some t) : t = .inside := by
  rw [requote, List.cons_append, run] at hrun
  obtain ⟨u, hu, hlast⟩ := run_append_some (show outside.run (guardQuotes cs ++ ['"']) = some t
    from hrun)
  rw [outside_of_run_guardFrom hu] at hlast
  exact (Option.some.inj hlast).symm

end Side

end PlainCode.Literal

namespace PlainCode.Phrase

open PlainCode.Literal
open PlainCode.Literal.Side
open PlainCode.Text (WordText isQuote_cases isWord ne_of_isWord)

/-! ## Reading pieces in a row -/

theorem isMark_of_isWord {c : Char} (h : isWord c = true) : isMark c = false := by
  rw [isMark, Text.isQuote_of_isWord h,
    beq_eq_false_iff_ne.mpr (ne_of_isWord h (show isWord '\\' = false by decide))]
  rfl

theorem isMark_of_numeral {cs : List Char} (h : Numeral cs) : ∀ c ∈ cs, isMark c = false :=
  h.forall_mem (fun _ => isMark_of_isWord) rfl rfl

theorem isMark_of_wordText {cs : List Char} (h : WordText cs) : ∀ c ∈ cs, isMark c = false :=
  fun c hc => isMark_of_isWord (h.2 c hc).1

/-- A readable piece is passed from outside to outside. -/
private theorem run_text {p : Piece} (h : p.Readable) :
    outside.run p.text.toList = some .outside := by
  cases p with
  | quoted contents =>
    rw [Piece.text, String.toList_ofList]
    exact run_literal h.contents
  | numeral text => exact run_of_not_isMark (by decide) (isMark_of_numeral h.1)
  | word text => exact run_of_not_isMark (by decide) (isMark_of_wordText h.1.1)

/-- A piece that is not readable ends inside. -/
theorem inside_of_run_unreadable {p : Piece} (h : p.WellFormed) (hun : ¬ p.Readable) {t : Side}
    (hrun : outside.run p.text.toList = some t) : t = .inside := by
  cases p with
  | quoted contents =>
    obtain ⟨quote, _, hcont⟩ := h
    have hloose : LooseQuote contents.toList := by
      by_contra hnot
      refine hun ⟨⟨quote, ‹_›, hcont⟩, fun other hother => ?_⟩
      rw [Piece.quoted.injEq] at hother
      rwa [← hother]
    rw [Piece.text, String.toList_ofList] at hrun
    exact inside_of_run_requote hcont hloose hrun
  | numeral text => exact absurd ⟨h, by simp⟩ hun
  | word text => exact absurd ⟨h, by simp⟩ hun

/-- Once inside, a piece ends inside. -/
theorem inside_of_run_text {p : Piece} (h : p.WellFormed) {t : Side}
    (hrun : inside.run p.text.toList = some t) : t = .inside := by
  cases p with
  | quoted contents =>
    rw [Piece.text, String.toList_ofList] at hrun
    exact inside_of_run_requote_inside hrun
  | numeral text =>
    rw [Piece.text, run_of_not_isMark (by decide) (isMark_of_numeral h)] at hrun
    exact (Option.some.inj hrun).symm
  | word text =>
    rw [Piece.text, run_of_not_isMark (by decide) (isMark_of_wordText h.1)] at hrun
    exact (Option.some.inj hrun).symm

/-- Once inside, there is no way out. -/
theorem joined_from_inside : ∀ {ps : List Piece} {t : Side}, (∀ p ∈ ps, p.WellFormed) →
    inside.run (joined ps) = some t → t = .inside
  | [], _, _, hrun => (Option.some.inj hrun).symm
  | [p], _, h, hrun => by
    rw [joined_singleton] at hrun
    exact inside_of_run_text (h p (List.mem_cons_self ..)) hrun
  | p :: q :: ps, t, h, hrun => by
    rw [joined_cons_cons] at hrun
    obtain ⟨u, hu, hrest⟩ := run_append_some hrun
    rw [inside_of_run_text (h p (List.mem_cons_self ..)) hu] at hrest
    exact joined_from_inside (fun r hr => h r (List.mem_cons_of_mem _ hr))
      (show inside.run (joined (q :: ps)) = some t from hrest)

/-- Pieces in a row that end outside are all readable. -/
theorem readable_of_run : ∀ {ps : List Piece}, (∀ p ∈ ps, p.WellFormed) →
    outside.run (joined ps) = some .outside → ∀ p ∈ ps, p.Readable
  | [], _, _, p, hp => absurd hp List.not_mem_nil
  | [p], h, hrun, r, hr => by
    rw [List.mem_singleton.mp hr]
    by_contra hun
    rw [joined_singleton] at hrun
    exact absurd (inside_of_run_unreadable (h p (List.mem_cons_self ..)) hun hrun) (by decide)
  | p :: q :: ps, h, hrun, r, hr => by
    rw [joined_cons_cons] at hrun
    obtain ⟨u, hu, hrest⟩ := run_append_some hrun
    have hps : ∀ r ∈ q :: ps, r.WellFormed := fun r hr => h r (List.mem_cons_of_mem _ hr)
    -- if it were not, the rest would be read from inside, and there is no way out
    have hp : p.Readable := by
      by_contra hun
      rw [inside_of_run_unreadable (h p (List.mem_cons_self ..)) hun hu] at hrest
      exact absurd (joined_from_inside hps
        (show inside.run (joined (q :: ps)) = some .outside from hrest)) (by decide)
    rcases List.mem_cons.mp hr with rfl | hr
    · exact hp
    · rw [run_text hp, Option.some.injEq] at hu
      rw [← hu] at hrest
      exact readable_of_run hps
        (show outside.run (joined (q :: ps)) = some .outside from hrest) r hr

/-! ## A fixed point loses no marks -/

/-- What is left of a stretch in the canonical form, spaces aside. -/
def spanText (s : Span) : List Char :=
  (if s.literal then [Piece.quoted (String.ofList (s.text.drop 1).dropLast)]
    else plainPieces s.text).flatMap fun p => p.text.toList

theorem count_joined {c : Char} (hc : c ≠ ' ') : ∀ ps : List Piece,
    (joined ps).count c = (ps.flatMap fun p => p.text.toList).count c
  | [] => rfl
  | [p] => by rw [joined_singleton, List.flatMap_singleton]
  | p :: q :: ps => by
    rw [joined_cons_cons, List.flatMap_cons, List.count_append, List.count_append,
      List.count_cons_of_ne hc.symm, count_joined hc (q :: ps)]

private theorem count_canonical (phrase : String) {c : Char} (hc : c ≠ ' ') :
    (canonical phrase).toList.count c
      = ((spans quotedAt? phrase.toList).map fun s => (spanText s).count c).sum := by
  rw [toList_canonical, count_joined hc, pieces, piecesOf, List.flatMap_assoc, List.count_flatMap]
  rfl

private theorem count_phrase (phrase : String) (c : Char) :
    phrase.toList.count c
      = ((spans quotedAt? phrase.toList).map fun s => s.text.count c).sum := by
  have hcount := List.count_flatMap (l := spans quotedAt? phrase.toList) (f := Span.text) (x := c)
  rw [(cut_spans quotedAt?_faithful phrase.toList).flatMap_text] at hcount
  exact hcount

/-- Numbers none of which is greater than its partner have no greater sum, and if they have the
same sum, they are equal one by one. -/
theorem eq_of_sum_eq {α : Type} {f g : α → Nat} : ∀ {l : List α}, (∀ x ∈ l, f x ≤ g x) →
    (l.map f).sum ≤ (l.map g).sum ∧
      ((l.map f).sum = (l.map g).sum → ∀ x ∈ l, f x = g x)
  | [], _ => ⟨Nat.le_refl _, fun _ x hx => absurd hx List.not_mem_nil⟩
  | y :: l, hle => by
    obtain ⟨hrest, heach⟩ := eq_of_sum_eq fun z hz => hle z (List.mem_cons_of_mem y hz)
    have hy : f y ≤ g y := hle y (List.mem_cons_self ..)
    rw [List.map_cons, List.map_cons, List.sum_cons, List.sum_cons]
    refine ⟨by omega, fun hsum x hx => ?_⟩
    rcases List.mem_cons.mp hx with rfl | hx
    · omega
    · exact heach (by omega) x hx

/-- A character of which no stretch gains any is lost by none in a fixed point. -/
theorem count_span_of_fixed {phrase : String} (h : canonical phrase = phrase) {c : Char}
    (hc : c ≠ ' ')
    (hle : ∀ s ∈ spans quotedAt? phrase.toList, (spanText s).count c ≤ s.text.count c) :
    ∀ s ∈ spans quotedAt? phrase.toList, (spanText s).count c = s.text.count c := by
  apply (eq_of_sum_eq hle).2
  rw [← count_canonical phrase hc, ← count_phrase, h]

private theorem isMark_of_mem_spanText {s : Span} (hs : s.literal = false) {c : Char}
    (hc : c ∈ spanText s) : isMark c = false := by
  rw [spanText, hs] at hc
  obtain ⟨p, hp, hc⟩ := List.mem_flatMap.mp hc
  have hform := wellFormed_of_mem_plainPieces hp
  cases p with
  | quoted contents => exact absurd rfl (ne_quoted_of_mem_plainPieces hp contents)
  | numeral text => exact isMark_of_numeral hform c hc
  | word text => exact isMark_of_wordText hform.1 c hc

/-- Of marks, plain text leaves none. -/
theorem count_spanText_plain {s : Span} (hs : s.literal = false) {c : Char}
    (hc : isMark c = true) : (spanText s).count c = 0 := by
  rw [List.count_eq_zero]
  intro hmem
  rw [isMark_of_mem_spanText hs hmem] at hc
  exact Bool.false_ne_true hc

/-- Of a literal, its contents quoted anew are left. -/
theorem spanText_literal {cs : List Char} {s : Span} (hs : s ∈ spans quotedAt? cs)
    (hlit : s.literal = true) : ∃ quote contents, isQuote quote = true ∧ Contents quote contents ∧
      s.text = quote :: contents ++ [quote] ∧ spanText s = requote contents := by
  obtain ⟨quote, contents, hq, hcont, htext, hinner⟩ := literal_of_mem_spans hs hlit
  refine ⟨quote, contents, hq, hcont, htext, ?_⟩
  rw [spanText, if_pos hlit, hinner, List.flatMap_singleton, Piece.text, String.toList_ofList,
    String.toList_ofList]

theorem count_single_guardFrom : ∀ (cs : List Char) (guarded : Bool),
    (guardFrom guarded cs).count '\'' = cs.count '\''
  | [], _ => rfl
  | c :: cs, guarded => by
    rw [guardFrom, List.count_append, count_single_guardFrom cs]
    split
    next hc => rw [hc.1]; simp
    next => rw [List.count_singleton, List.count_cons]; omega

theorem count_single_requote (cs : List Char) : (requote cs).count '\'' = cs.count '\'' := by
  have hguard := count_single_guardFrom cs false
  rw [requote, guardQuotes, List.cons_append, List.count_cons_of_ne (by decide),
    List.count_append, hguard]
  rfl

/-- The single quotes around a literal are counted apart from those in it. -/
theorem count_single_literal (quote : Char) (contents : List Char) :
    (quote :: contents ++ [quote]).count '\''
      = contents.count '\'' + if quote = '\'' then 2 else 0 := by
  rw [List.cons_append, List.count_cons, List.count_append, List.count_singleton]
  by_cases hq : quote = '\''
  · simp [hq]
  · simp [hq]

/-- The literals of a fixed point are in double quotes: one in single quotes would lose two of
them, and no stretch gains any. -/
theorem literals_of_fixed {phrase : String} (h : canonical phrase = phrase) {s : Span}
    (hs : s ∈ spans quotedAt? phrase.toList) (hlit : s.literal = true) :
    ∃ contents, Contents '"' contents ∧ s.text = '"' :: contents ++ ['"'] ∧
      spanText s = requote contents := by
  have hle : ∀ s ∈ spans quotedAt? phrase.toList,
      (spanText s).count '\'' ≤ s.text.count '\'' := by
    intro s hs
    cases hlit : s.literal with
    | false => rw [count_spanText_plain hlit (by decide)]; exact Nat.zero_le _
    | true =>
      obtain ⟨quote, contents, _, _, htext, hspan⟩ := spanText_literal hs hlit
      rw [hspan, htext, count_single_requote, count_single_literal]
      omega
  have hcount := count_span_of_fixed h (by decide) hle s hs
  obtain ⟨quote, contents, hq, hcont, htext, hspan⟩ := spanText_literal hs hlit
  rcases isQuote_cases hq with rfl | rfl
  · exact ⟨contents, hcont, htext, hspan⟩
  · -- two single quotes fewer than before
    rw [hspan, htext, count_single_requote, count_single_literal, if_pos rfl] at hcount
    omega

/-- The plain text of a fixed point has no marks: the literals keep the marks that they have, so
plain text would lose its own. -/
theorem plain_of_fixed {phrase : String} (h : canonical phrase = phrase) {s : Span}
    (hs : s ∈ spans quotedAt? phrase.toList) (hlit : s.literal = false) :
    ∀ c ∈ s.text, isMark c = false := by
  intro c hc
  rw [Bool.eq_false_iff]
  intro hmark
  have hle : ∀ s ∈ spans quotedAt? phrase.toList, (spanText s).count c ≤ s.text.count c := by
    intro s hs
    cases hlit : s.literal with
    | false => rw [count_spanText_plain hlit hmark]; exact Nat.zero_le _
    | true =>
      obtain ⟨contents, hcont, htext, hspan⟩ := literals_of_fixed h hs hlit
      have hsame : spanText s = s.text := by
        rw [hspan, requote, guardQuotes, hcont.guardFrom_eq_self, htext]
      exact Nat.le_of_eq (congrArg (List.count c) hsame)
  have hcount := count_span_of_fixed h (by rintro rfl; exact absurd hmark (by decide)) hle s hs
  rw [count_spanText_plain hlit hmark] at hcount
  exact List.count_eq_zero.mp hcount.symm hc

/-- A fixed point ends outside. -/
private theorem run_of_fixed {phrase : String} (h : canonical phrase = phrase) :
    outside.run phrase.toList = some .outside := by
  have hspan : ∀ s ∈ spans quotedAt? phrase.toList, outside.run s.text = some .outside := by
    intro s hs
    cases hlit : s.literal with
    | true =>
      obtain ⟨contents, hcont, htext, _⟩ := literals_of_fixed h hs hlit
      rw [htext]
      exact run_literal hcont
    | false => exact run_of_not_isMark (by decide) (plain_of_fixed h hs hlit)
  -- the text is its stretches in a row, so outside of one is outside of all
  rw [← (cut_spans quotedAt?_faithful phrase.toList).flatMap_text]
  generalize spans quotedAt? phrase.toList = ss at hspan
  induction ss with
  | nil => rfl
  | cons s ss ih =>
    rw [List.flatMap_cons, run_append, hspan s (List.mem_cons_self ..)]
    exact ih fun r hr => hspan r (List.mem_cons_of_mem _ hr)

/-! ## Fixed points -/

/-- The canonical form of readable pieces is a fixed point. -/
theorem canonical_of_readable {phrase : String} (h : ∀ p ∈ pieces phrase, p.Readable) :
    canonical (canonical phrase) = canonical phrase := by
  have hpieces : pieces (canonical phrase)
      = (pieces phrase).flatMap fun p => piecesOf p.text.toList := by
    rw [pieces, toList_canonical]
    exact piecesOf_joined fun p hp => quotesClosed_text (h p hp)
  have htexts : (pieces (canonical phrase)).map Piece.text = (pieces phrase).map Piece.text := by
    rw [hpieces, List.map_flatMap, List.flatMap_congr fun p hp => pieceTexts_text (h p hp)]
    exact List.map_eq_flatMap.symm
  rw [canonical, htexts]
  rfl

/-- **When a canonical form is a fixed point.** Exactly if no literal in single quotes has a double
quote with an even number of backslashes in front of it, and not with none. -/
theorem canonical_fixed_iff (phrase : String) :
    canonical (canonical phrase) = canonical phrase ↔ Requotable phrase := by
  rw [requotable_iff]
  constructor
  · intro h
    have hrun := run_of_fixed h
    rw [toList_canonical] at hrun
    exact readable_of_run (fun p hp => wellFormed_of_mem_piecesOf hp) hrun
  · exact canonical_of_readable

/-- A pair of backslashes and a double quote in single quotes: quoted anew, the literal ends one
character early, and its last quote is left open. -/
theorem canonical_not_fixed :
    canonical "'\\\\\"'" = "\"\\\\\"\"" ∧
    canonical (canonical "'\\\\\"'") = "\"\\\\\"" ∧
    canonical (canonical "'\\\\\"'") ≠ canonical "'\\\\\"'" := by
  decide +kernel

end PlainCode.Phrase
