import Mathlib.Tactic.TFAE
import PlainCode.Proofs.Segmentation

/-!
# What can be quoted anew

Quoting anew looks one character back: a double quote with a backslash in front of it is taken for
one that is guarded already. Both readers of literals count in pairs, from the left. The two views
differ exactly at a loose quote, where pairs of backslashes stand in front: it gets no backslash, so
in double quotes it is free and ends the literal there (`hasFreeQuote_guardQuotes`). All of a
literal cannot be read then, and what is left of it is read as further tokens
(`not_looseQuote_of_token`). The other direction is `contents_guardQuotes`, and `requote_exact` puts
both together.
-/

namespace PlainCode.Literal

open PlainCode.Token (HasFreeQuote hasFreeQuote_cons_iff hasFreeQuote_pair_iff
  not_hasFreeQuote_nil)

/-! ## Backslashes in front of a quote -/

/-- Double quotes are guarded from the left, where only the last character so far matters. -/
theorem guardFrom_append (guarded : Bool) (cs ds : List Char) :
    guardFrom guarded (cs ++ ds)
      = guardFrom guarded cs ++ guardFrom (cs.getLast?.elim guarded (· == '\\')) ds := by
  induction cs generalizing guarded with
  | nil => rfl
  | cons c cs ih =>
    rw [List.cons_append, guardFrom, ih, guardFrom, List.append_assoc, List.getLast?_cons]
    cases cs.getLast? with
    | none => rfl
    | some d => rfl

/-- Guarding double quotes leaves the backslashes at the end of a text as they are. -/
private theorem slashesBehind_guardFrom (guarded : Bool) (cs : List Char) :
    slashesBehind (guardFrom guarded cs) = slashesBehind cs := by
  induction cs using List.reverseRecOn with
  | nil => rfl
  | append_singleton cs c ih =>
    rw [guardFrom_append, slashesBehind_concat]
    by_cases hquote : c = '"'
    · -- whether it gets a backslash or not, the text ends with the quote
      subst hquote
      cases cs.getLast?.elim guarded (· == '\\') with
      | false =>
        show slashesBehind (guardFrom guarded cs ++ (['\\'] ++ ['"'])) = 0
        rw [← List.append_assoc, slashesBehind_concat]
        rfl
      | true =>
        show slashesBehind (guardFrom guarded cs ++ ['"']) = 0
        rw [slashesBehind_concat]
        rfl
    · rw [guardFrom_of_ne _ hquote, guardFrom, slashesBehind_concat, ih]

private theorem getLast?_of_slashesBehind {cs : List Char} (h : 0 < slashesBehind cs) :
    cs.getLast? = some '\\' := by
  induction cs using List.reverseRecOn with
  | nil => exact absurd h (by decide)
  | append_singleton cs c _ =>
    rw [slashesBehind_concat] at h
    split at h
    next hslash => rw [List.getLast?_concat, hslash]
    next => exact absurd h (Nat.lt_irrefl 0)

/-- A loose quote is free once its text is quoted anew. -/
theorem hasFreeQuote_guardQuotes {cs : List Char} (h : LooseQuote cs) :
    HasFreeQuote '"' (guardQuotes cs) := by
  obtain ⟨front, back, rfl, hpos, heven⟩ := h
  refine ⟨guardFrom false front, guardFrom false back, ?_, by rwa [slashesBehind_guardFrom]⟩
  rw [guardQuotes, guardFrom_append, getLast?_of_slashesBehind hpos]
  rfl

/-- No quote of a sort is free in what stands between two of them. -/
private theorem Contents.not_hasFreeQuote {quote : Char} (hq : quote ≠ '\\') {cs : List Char}
    (h : Contents quote cs) : ¬ HasFreeQuote quote cs := by
  induction h with
  | nil => exact not_hasFreeQuote_nil
  | escape _ _ ih => rwa [hasFreeQuote_pair_iff hq]
  | plain hquote hslash _ ih => rwa [hasFreeQuote_cons_iff hquote hslash]

/-! ## Literals that are found as a whole -/

/-- A literal that is found with given contents has contents of that sort. -/
theorem contents_of_quotedAt? {before : Option Char} {quote : Char} {cs rest : List Char}
    (h : quotedAt? before (quote :: cs ++ quote :: rest) = some (quote :: cs ++ [quote])) :
    Contents quote cs := by
  obtain ⟨q, contents, _, _, hcontents, htext, _⟩ := quotedAt?_eq_some_iff.mp h
  obtain ⟨rfl, hbehind⟩ := List.cons.inj htext
  obtain ⟨rfl, _⟩ := List.append_inj' hbehind rfl
  exact hcontents

/-- A literal quoted anew that is found as a whole had no loose quote. -/
private theorem not_looseQuote_of_quotedAt? {before : Option Char} {cs : List Char}
    (h : quotedAt? before (requote cs) = some (requote cs)) : ¬ LooseQuote cs := by
  have hcontents : Contents '"' (guardQuotes cs) := contents_of_quotedAt? h
  exact fun hloose => hcontents.not_hasFreeQuote (by decide) (hasFreeQuote_guardQuotes hloose)

end PlainCode.Literal

namespace PlainCode.Token

open PlainCode.Literal
open PlainCode.Text (isBlank isBlank_of_isQuote)

/-! ## Literals that are read as one token -/

/-- A text that is not blank has segments. -/
private theorem segments_ne_nil {cs : List Char} {c : Char} (hc : c ∈ cs)
    (hblank : isBlank c = false) : segments cs ≠ [] := by
  obtain ⟨rows, rest, h⟩ := exists_segmentation cs
  intro hnil
  rw [h.segments_eq, List.map_eq_nil_iff] at hnil
  subst hnil
  have htext : rest = cs := h.text_eq
  rw [h.blank_rest c (htext ▸ hc)] at hblank
  cases hblank

/-- A literal with a free quote between its quotes is more than one segment. -/
private theorem segments_of_hasFreeQuote {quote : Char} (hquote : isQuote quote = true)
    {cs : List Char} (h : HasFreeQuote quote cs) :
    ∃ first rest, segments (quote :: cs ++ [quote]) = first :: rest ∧ rest ≠ [] := by
  have hq := ne_slash_of_isQuote hquote
  rcases throughQuote_cases hq (cs ++ [quote]) with ⟨body, more, htext, hthrough, _, hfree⟩ |
    ⟨_, hnone⟩
  · -- the segment ends at the first free quote, so the last quote of the literal is behind it
    refine ⟨quote :: (body ++ [quote]), segments more, ?_, ?_⟩
    · have hall : cs ++ [quote] = body ++ [quote] ++ more := by
        rw [htext, List.append_assoc, List.singleton_append]
      rw [List.cons_append, hall]
      apply segments_cons (isBlank_of_isQuote hquote)
      rw [if_pos hquote, ← hall, hthrough]
    · rcases List.eq_nil_or_concat' more with rfl | ⟨front, last, rfl⟩
      · obtain ⟨rfl, _⟩ := List.append_inj' htext rfl
        exact absurd h hfree
      · have hlast : quote = last := by
          have hends := congrArg List.getLast? htext
          rw [← List.cons_append, ← List.append_assoc, List.getLast?_concat,
            List.getLast?_concat] at hends
          exact Option.some.inj hends
        exact segments_ne_nil (List.mem_append_right front (List.mem_singleton.mpr hlast))
          (isBlank_of_isQuote hquote)
  · obtain ⟨front, back, rfl, heven⟩ := h
    exact absurd ⟨front, back ++ [quote], List.append_assoc .., heven⟩ hnone

/-- A literal quoted anew that is read as one token had no loose quote. -/
theorem not_looseQuote_of_token {cs : List Char} {t : Token}
    (h : ofText (String.ofList (requote cs)) = [t]) : ¬ LooseQuote cs := by
  intro hloose
  have hquote : isQuote '"' = true := rfl
  obtain ⟨first, rest, hsegments, hrest⟩ :=
    segments_of_hasFreeQuote hquote (hasFreeQuote_guardQuotes hloose)
  rw [ofText, String.toList_ofList, requote, hsegments, List.map_cons] at h
  exact hrest (List.map_eq_nil_iff.mp (List.cons.inj h).2)

/-- Contents that stay contents between double quotes are read as one string. -/
private theorem ofText_requote {cs : List Char} (h : Contents '"' (guardQuotes cs)) :
    ofText (String.ofList (requote cs)) = [⟨.string, String.ofList (guardQuotes cs)⟩] := by
  have hquote : isQuote '"' = true := rfl
  have hsegments : segments (requote cs) = [requote cs] := by
    have hone := segments_literal hquote h []
    rwa [List.append_nil] at hone
  rw [ofText, String.toList_ofList, hsegments, List.map_singleton, ofWord,
    if_pos (isQuoted_requote cs), requote, List.cons_append, List.drop_one, List.tail_cons,
    List.dropLast_concat]

/-- **Where quoting anew is right.** Contents of a literal in single quotes that are quoted anew are
found as one literal if and only if they are read as one string, and that is so if and only if they
have no loose quote: no double quote with an even number of backslashes, and not none, in front of
it. Contents of a literal in double quotes stay as they are, and are always found and read so. -/
theorem requote_exact (cs : List Char) :
    (∀ before rest, quotedAt? before ('\'' :: cs ++ '\'' :: rest) = some ('\'' :: cs ++ ['\'']) →
      [quotedAt? none (requote cs) = some (requote cs),
        ∃ value, ofText (String.ofList (requote cs)) = [⟨.string, value⟩],
        ¬ LooseQuote cs].TFAE) ∧
    ∀ before rest, quotedAt? before ('"' :: cs ++ '"' :: rest) = some ('"' :: cs ++ ['"']) →
      requote cs = '"' :: cs ++ ['"'] ∧ quotedAt? none (requote cs) = some (requote cs) ∧
        ofText (String.ofList (requote cs)) = [⟨.string, String.ofList cs⟩] := by
  have hfound : ∀ {quote}, Contents quote cs → ¬ LooseQuote cs →
      quotedAt? none (requote cs) = some (requote cs) ∧
        ofText (String.ofList (requote cs)) = [⟨.string, String.ofList (guardQuotes cs)⟩] := by
    intro quote hcontents hloose
    have hguarded := contents_guardQuotes hcontents hloose
    have hwhole := quotedAt?_requote hguarded none []
    rw [List.append_nil] at hwhole
    exact ⟨hwhole, ofText_requote hguarded⟩
  constructor
  · intro before rest hsingle
    have hcontents := contents_of_quotedAt? hsingle
    tfae_have 1 → 3 := not_looseQuote_of_quotedAt?
    tfae_have 2 → 3 := fun ⟨_, htoken⟩ => not_looseQuote_of_token htoken
    tfae_have 3 → 1 := fun hloose => (hfound hcontents hloose).1
    tfae_have 3 → 2 := fun hloose => ⟨_, (hfound hcontents hloose).2⟩
    tfae_finish
  · intro before rest hdouble
    have hcontents := contents_of_quotedAt? hdouble
    have hsame : guardQuotes cs = cs := hcontents.guardFrom_eq_self false
    obtain ⟨hwhole, htoken⟩ := hfound hcontents hcontents.not_looseQuote
    rw [hsame] at htoken
    exact ⟨by rw [requote, hsame], hwhole, htoken⟩

/-- In single quotes, a double quote behind two backslashes, and one behind three; in double quotes,
one behind three. -/
theorem requote_exact_slashes :
    (LooseQuote ['\\', '\\', '"'] ∧
      quotedAt? none (requote ['\\', '\\', '"']) ≠ some (requote ['\\', '\\', '"'])) ∧
    (¬ LooseQuote ['\\', '\\', '\\', '"', '"'] ∧
      ∃ value, ofText "\"\\\\\\\"\\\"\"" = [⟨.string, value⟩]) ∧
    ofText "\"\\\\\\\"'\"" = [⟨.string, "\\\\\\\"'"⟩] := by
  have htwo := (requote_exact ['\\', '\\', '"']).1 (some 'x') ['y'] (by decide)
  have hthree := (requote_exact ['\\', '\\', '\\', '"', '"']).1 none [] (by decide)
  have hdouble := (requote_exact ['\\', '\\', '\\', '"', '\'']).2 none ['"'] (by decide)
  have hloose : LooseQuote ['\\', '\\', '"'] := by decide
  have hguarded : ¬ LooseQuote ['\\', '\\', '\\', '"', '"'] := by decide
  have hmissed := (htwo.out 0 2).not.mpr (not_not_intro hloose)
  exact ⟨⟨hloose, hmissed⟩, ⟨hguarded, (hthree.out 2 1).mp hguarded⟩, hdouble.2.2⟩

end PlainCode.Token
