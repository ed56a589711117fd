import PlainCode.Proofs.Pieces
import PlainCode.Token.Segment

/-!
# The tokens of a canonical form

A canonical form is cut into pieces and joined with spaces on one side, and cut into segments on
the other, by rules that have nothing in common: pieces are found literal by literal, segments
character by character. `ofText_canonical` is that the two agree. Each piece comes back as the one
token that it stands for (`Piece.token`), and the tokens spell the canonical form again.

The argument is about one piece in front of a space (`segments_text`). A quoted piece must end at
its own last quote, which is so only if quoting it anew left no quote loose.
-/

namespace PlainCode.Token

open PlainCode.Literal
open PlainCode.Text (isBlank isBlank_of_isQuote takeWhile_append_of_stop)

/-! ## Segments -/

theorem segmentsFrom_skip : ∀ cs ds : List Char,
    segmentsFrom cs.length (cs ++ ds) = segmentsFrom 0 ds
  | [], _ => rfl
  | _ :: cs, ds => segmentsFrom_skip cs ds

/-- A segment begins at a character that is not blank, and reading goes on behind it. -/
theorem segments_cons {c : Char} (hc : isBlank c = false) {more rest : List Char}
    (h : (if isQuote c then throughQuote c (more ++ rest) else (more ++ rest).takeWhile isBare)
      = more) : segments (c :: more ++ rest) = (c :: more) :: segments rest := by
  rw [segments, List.cons_append, segmentsFrom, if_neg (by rw [hc]; exact Bool.false_ne_true)]
  dsimp only
  rw [h, segmentsFrom_skip]
  rfl

/-- The grammar of contents is what a quoted segment runs through. -/
private theorem throughQuote_contents {quote : Char} (hq : quote ≠ '\\') {contents : List Char}
    (h : Contents quote contents) (rest : List Char) :
    throughQuote quote (contents ++ quote :: rest) = contents ++ [quote] := by
  induction h with
  | nil =>
    rw [List.nil_append]
    unfold throughQuote
    rw [if_pos rfl]
    rfl
  | escape _ _ ih =>
    rw [List.cons_append, List.cons_append]
    unfold throughQuote
    rw [if_neg hq.symm, if_pos rfl]
    simp only [ih, List.cons_append]
  | plain hquote hslash _ ih =>
    rw [List.cons_append]
    unfold throughQuote
    rw [if_neg hquote, if_neg hslash, ih]
    rfl

/-- A quoted literal is one segment, whatever follows. -/
theorem segments_literal {quote : Char} (hq : isQuote quote = true) {contents : List Char}
    (h : Contents quote contents) (rest : List Char) :
    segments (quote :: (contents ++ [quote]) ++ rest)
      = (quote :: (contents ++ [quote])) :: segments rest := by
  apply segments_cons (isBlank_of_isQuote hq)
  rw [if_pos hq, List.append_assoc]
  exact throughQuote_contents (ne_slash_of_isQuote hq) h rest

/-- A run of bare characters is one segment, unless it goes on. -/
theorem segments_bare {cs rest : List Char} (hne : cs ≠ []) (hcs : ∀ c ∈ cs, isBare c = true)
    (hrest : rest.head?.any isBare = false) :
    segments (cs ++ rest) = cs :: segments rest := by
  obtain ⟨c, cs, rfl⟩ := List.exists_cons_of_ne_nil hne
  have hc := hcs c (List.mem_cons_self ..)
  rw [isBare, Bool.and_eq_true, Bool.not_eq_true', Bool.not_eq_true'] at hc
  apply segments_cons hc.1
  rw [hc.2, if_neg Bool.false_ne_true]
  exact takeWhile_append_of_stop (fun d hd => hcs d (List.mem_cons_of_mem _ hd)) hrest

end PlainCode.Token

namespace PlainCode.Literal

open PlainCode.Text (isDigit)

/-! ## Kinds of texts -/

private theorem dropNewline_of_not_mem {cs : List Char} (h : '\n' ∉ cs) : dropNewline cs = cs :=
  if_neg fun hlast => h (List.mem_of_getLast? hlast)

/-- A text in double quotes is quoted, whatever the text is. -/
theorem isQuoted_between (cs : List Char) : isQuoted ('"' :: cs ++ ['"']) = true := by
  rw [isQuoted, dropNewline, if_neg (by rw [List.getLast?_concat]; decide)]
  show (isQuote '"' && (cs ++ ['"']).getLast? == some '"') = true
  rw [List.getLast?_concat]
  rfl

theorem isQuoted_requote (cs : List Char) : isQuoted (requote cs) = true :=
  isQuoted_between (guardQuotes cs)

/-- A text that begins with no quote is not quoted. -/
theorem isQuoted_of_not_isQuote {cs : List Char} (h : ∀ c ∈ cs, isQuote c = false) :
    isQuoted cs = false := by
  have hsub : ∀ c ∈ dropNewline cs, c ∈ cs := by
    intro c hc
    rw [dropNewline] at hc
    split at hc
    · exact List.dropLast_subset cs hc
    · exact hc
  rw [isQuoted]
  split
  next => rfl
  next c rest hdrop =>
    rw [h c (hsub c (by rw [hdrop]; exact List.mem_cons_self ..))]
    rfl

theorem allDigits_of_digits {ds : List Char} (h : Digits ds) : allDigits ds = true := by
  rw [allDigits, Bool.and_eq_true]
  exact ⟨by simpa using h.1, List.all_eq_true.mpr h.2⟩

/-- What is written as a numeral is a number. -/
theorem isNumber_of_numeral {cs : List Char} (h : Numeral cs) : isNumber cs = true := by
  have hline : dropNewline cs = cs := by
    apply dropNewline_of_not_mem
    intro hmem
    exact absurd (h.mem hmem) (by decide)
  rw [isNumber, Bool.or_eq_true]
  cases h with
  | @whole minus ds hminus hds =>
    have hsign := sign_of_digits hminus hds []
    rw [List.append_nil, List.append_nil] at hsign
    left
    rw [isInteger, hline, hsign]
    exact allDigits_of_digits hds
  | @decimal minus ds es hminus hds hes =>
    right
    rw [isDecimal, hline, sign_of_digits hminus hds]
    simp only [hds.dropWhile_append ('.' :: es) rfl, hds.takeWhile_append ('.' :: es) rfl,
      allDigits_of_digits hes]
    simp [hds.1]

end PlainCode.Literal

namespace PlainCode.Phrase

open PlainCode.Literal
open PlainCode.Text (WordText isBlank isBlank_of_isWord isWord)
open PlainCode.Token (isBare ofWord segments)

/-! ## The token of a piece -/

/-- The token that a piece stands for. -/
def Piece.token : Piece → Token
  | .quoted contents => ⟨.string, String.ofList (guardQuotes contents.toList)⟩
  | .numeral text => ⟨.number, text⟩
  | .word text => ⟨(ofWord text.toList).kind, text⟩

theorem isBare_of_isWord {c : Char} (h : isWord c = true) : isBare c = true := by
  rw [isBare, isBlank_of_isWord h, Text.isQuote_of_isWord h]
  rfl

theorem isBare_of_numeral {cs : List Char} (h : Numeral cs) : ∀ c ∈ cs, isBare c = true :=
  h.forall_mem (fun _ => isBare_of_isWord) rfl rfl

theorem isBare_of_wordText {cs : List Char} (h : WordText cs) : ∀ c ∈ cs, isBare c = true :=
  fun c hc => isBare_of_isWord (h.2 c hc).1

/-- A readable piece is one segment, where nothing is stuck to it from behind. -/
theorem segments_text {p : Piece} (h : p.Readable) {rest : List Char}
    (hrest : rest.head?.any isBare = false) :
    segments (p.text.toList ++ rest) = p.text.toList :: segments rest := by
  cases p with
  | quoted contents =>
    rw [Piece.text, String.toList_ofList]
    exact Token.segments_literal rfl h.contents rest
  | numeral text =>
    exact Token.segments_bare (Numeral.ne_nil h.1) (isBare_of_numeral h.1) hrest
  | word text => exact Token.segments_bare h.1.1.1 (isBare_of_wordText h.1.1) hrest

/-- Pieces in a row are segments in a row. -/
theorem segments_joined : ∀ {ps : List Piece}, (∀ p ∈ ps, p.Readable) →
    segments (joined ps) = ps.map fun p => p.text.toList
  | [], _ => rfl
  | [p], h => by
    have hone : segments (p.text.toList ++ []) = p.text.toList :: segments [] :=
      segments_text (h p (List.mem_cons_self ..)) rfl
    rw [List.append_nil] at hone
    rw [joined_singleton, hone]
    rfl
  | p :: q :: ps, h => by
    -- the space ends the segment, and is passed over
    have hspace : segments (' ' :: joined (q :: ps)) = segments (joined (q :: ps)) := rfl
    rw [joined_cons_cons, segments_text (h p (List.mem_cons_self ..)) rfl, hspace,
      segments_joined fun r hr => h r (List.mem_cons_of_mem _ hr)]
    rfl

/-- Every piece begins with a character that is not blank. -/
private theorem text_begins {p : Piece} (h : p.WellFormed) :
    ∃ c cs, p.text.toList = c :: cs ∧ isBlank c = false := by
  have hbare : ∀ {cs : List Char}, cs ≠ [] → (∀ c ∈ cs, isBare c = true) →
      ∃ c rest, cs = c :: rest ∧ isBlank c = false := by
    intro cs hne hcs
    obtain ⟨c, rest, rfl⟩ := List.exists_cons_of_ne_nil hne
    have hc := hcs c (List.mem_cons_self ..)
    rw [isBare, Bool.and_eq_true, Bool.not_eq_true'] at hc
    exact ⟨c, rest, rfl, hc.1⟩
  cases p with
  | quoted contents =>
    rw [Piece.text, String.toList_ofList]
    exact ⟨'"', _, rfl, rfl⟩
  | numeral text => exact hbare (Numeral.ne_nil h) (isBare_of_numeral h)
  | word text => exact hbare h.1.1 (isBare_of_wordText h.1)

/-- A canonical form that is not empty has tokens, whether its pieces are readable or not. -/
theorem ofText_ne_nil {phrase : String} (h : canonical phrase ≠ "") :
    Token.ofText (canonical phrase) ≠ [] := by
  have hbegins : ∃ c cs, joined (pieces phrase) = c :: cs ∧ isBlank c = false := by
    have hform : ∀ p ∈ pieces phrase, p.WellFormed := fun p hp => wellFormed_of_mem_piecesOf hp
    cases hpieces : pieces phrase with
    | nil => exact absurd (by rw [canonical, hpieces]; rfl) h
    | cons p ps =>
      rw [hpieces] at hform
      obtain ⟨c, cs, htext, hc⟩ := text_begins (hform p (List.mem_cons_self ..))
      cases ps with
      | nil => exact ⟨c, cs, by rw [joined_singleton, htext], hc⟩
      | cons q ps => exact ⟨c, _, by rw [joined_cons_cons, htext, List.cons_append], hc⟩
  obtain ⟨c, cs, hjoined, hc⟩ := hbegins
  rw [Token.ofText, toList_canonical, hjoined, segments, Token.segmentsFrom,
    if_neg (by rw [hc]; exact Bool.false_ne_true)]
  exact List.cons_ne_nil _ _

/-- A word that is not quoted is the value of its token, which is no string. -/
theorem ofWord_of_not_isQuoted {cs : List Char} (h : isQuoted cs = false) :
    (ofWord cs).value = String.ofList cs ∧ (ofWord cs).kind ≠ .string := by
  rw [ofWord, if_neg (by rw [h]; exact Bool.false_ne_true)]
  split
  · exact ⟨rfl, by simp⟩
  split
  · exact ⟨rfl, by simp⟩
  split
  · exact ⟨rfl, by simp⟩
  split
  · exact ⟨rfl, by simp⟩
  · exact ⟨rfl, by simp⟩

/-- The segment of a readable piece is classified as its token. -/
private theorem ofWord_text {p : Piece} (h : p.Readable) : ofWord p.text.toList = p.token := by
  cases p with
  | quoted contents =>
    rw [Piece.text, String.toList_ofList, ofWord, if_pos (isQuoted_requote _), requote,
      List.cons_append, List.drop_one, List.tail_cons, List.dropLast_concat]
    rfl
  | numeral text =>
    have hnum : Numeral text.toList := h.1
    rw [Piece.text, ofWord, isQuoted_of_not_isQuote (isQuote_of_numeral hnum),
      if_neg Bool.false_ne_true, if_pos (isNumber_of_numeral hnum), String.ofList_toList]
    rfl
  | word text =>
    have hplain := isQuoted_of_not_isQuote (isQuote_of_wordText h.1.1)
    have hvalue := (ofWord_of_not_isQuoted hplain).1
    rw [String.ofList_toList] at hvalue
    exact congrArg (Token.mk (ofWord text.toList).kind) hvalue

/-- The token of a readable piece is spelled as the piece is. -/
private theorem spelling_token {p : Piece} (h : p.Readable) : p.token.spelling = p.text := by
  cases p with
  | quoted contents =>
    apply String.toList_inj.mp
    rw [Piece.token, Token.spelling, if_pos rfl, Piece.text, String.toList_append,
      String.toList_append]
    simp only [String.toList_ofList]
    rfl
  | numeral text => rfl
  | word text =>
    have hplain := isQuoted_of_not_isQuote (isQuote_of_wordText h.1.1)
    rw [Piece.token, Token.spelling, if_neg (ofWord_of_not_isQuoted hplain).2]
    rfl

/-- Readable pieces come back as their tokens. -/
theorem ofText_of_readable {phrase : String} (h : ∀ p ∈ pieces phrase, p.Readable) :
    Token.ofText (canonical phrase) = (pieces phrase).map Piece.token := by
  rw [Token.ofText, toList_canonical, segments_joined h, List.map_map]
  exact List.map_congr_left fun p hp => ofWord_text (h p hp)

/-- **The tokens of a canonical form are its pieces.** Unless a literal in single quotes has a
loose quote, each piece of a phrase comes back from the canonical form as one token, in order: a
quoted piece as a string with its double quotes guarded, a numeral as a number, and a word as a
token of that word, which is no string. The tokens spell the canonical form. -/
theorem ofText_canonical (phrase : String) (h : Requotable phrase) :
    Token.ofText (canonical phrase) = (pieces phrase).map Piece.token ∧
    (∀ word, .word word ∈ pieces phrase → (Piece.token (.word word)).kind ≠ .string) ∧
    Token.sentence (Token.ofText (canonical phrase)) = canonical phrase := by
  have hread := (requotable_iff phrase).mp h
  refine ⟨ofText_of_readable hread, fun word hword => ?_, ?_⟩
  · exact (ofWord_of_not_isQuoted (isQuoted_of_not_isQuote
      (isQuote_of_wordText (hread _ hword).1.1))).2
  · rw [ofText_of_readable hread, Token.sentence, canonical, List.map_map]
    congr 1
    exact List.map_congr_left fun p hp => spelling_token (hread p hp)

/-- Both sorts of quotes with backslashes and quotes between them, a literal stuck to a word and to
a numeral, a filler, a synonym, digits that are no numeral, and an open quote. -/
theorem ofText_canonical_mixed :
    Requotable "Say 'it\\'s \"5\" \\\\' the x1\"a \\\" b\"-2.50 plus 7_a 9.8.7 'Σ" ∧
    Token.ofText (canonical "Say 'it\\'s \"5\" \\\\' the x1\"a \\\" b\"-2.50 plus 7_a 9.8.7 'Σ")
      = [⟨.keyword, "print"⟩, ⟨.string, "it\\'s \\\"5\\\" \\\\"⟩, ⟨.identifier, "x1"⟩,
          ⟨.string, "a \\\" b"⟩, ⟨.number, "-2.50"⟩, ⟨.keyword, "add"⟩, ⟨.unknown, "7_a"⟩,
          ⟨.number, "9"⟩, ⟨.number, "8"⟩, ⟨.number, "7"⟩, ⟨.unknown, "σ"⟩] ∧
    Token.sentence (Token.ofText
        (canonical "Say 'it\\'s \"5\" \\\\' the x1\"a \\\" b\"-2.50 plus 7_a 9.8.7 'Σ"))
      = "print \"it\\'s \\\"5\\\" \\\\\" x1 \"a \\\" b\" -2.50 add 7_a 9 8 7 σ" := by
  have hquotes : Requotable
      "Say 'it\\'s \"5\" \\\\' the x1\"a \\\" b\"-2.50 plus 7_a 9.8.7 'Σ" := by decide +kernel
  obtain ⟨htokens, _, hsentence⟩ := ofText_canonical _ hquotes
  exact ⟨hquotes, htokens.trans (by decide +kernel), hsentence.trans (by decide +kernel)⟩

end PlainCode.Phrase
