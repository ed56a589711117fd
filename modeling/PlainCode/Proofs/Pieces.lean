import Mathlib.Data.List.Induction
import Mathlib.Data.List.TakeWhile
import PlainCode.Phrase
import PlainCode.Proofs.Numerals
import PlainCode.Proofs.Quoting

/-!
# The pieces of a phrase

Two facts about pieces carry everything that is said about canonical forms. The pieces of two texts
with a blank between them are the pieces of the one and then those of the other, unless a quote of
the first is still open (`piecesOf_append_blank`). And each piece of a phrase has the form of its
sort (`Piece.WellFormed`, `wellFormed_of_mem_piecesOf`), by which its text is read as that one
piece again (`pieceTexts_text`).

At the ends of a phrase an open quote does not matter, since a last blank cannot close it. So blanks
at the ends make no difference to any phrase (`canonical_trim`).
-/

namespace PlainCode.Text

/-! ## Words of a text -/

theorem splitWhere_ne_nil (cut : Char → Bool) : ∀ cs : List Char, splitWhere cut cs ≠ []
  | [] => List.cons_ne_nil _ _
  | c :: cs => by
    unfold splitWhere
    split
    · exact List.cons_ne_nil _ _
    · cases hrest : splitWhere cut cs with
      | nil => exact absurd hrest (splitWhere_ne_nil cut cs)
      | cons part parts => exact List.cons_ne_nil _ _

private theorem extendFirst_append (c : Char) {parts : List (List Char)} (h : parts ≠ [])
    (more : List (List Char)) :
    extendFirst c (parts ++ more) = extendFirst c parts ++ more := by
  cases parts with
  | nil => exact absurd rfl h
  | cons part parts => rfl

/-- A character that is cut at parts a text for good. -/
theorem splitWhere_append {cut : Char → Bool} {c : Char} (hc : cut c = true) (ds : List Char) :
    ∀ cs : List Char, splitWhere cut (cs ++ c :: ds) = splitWhere cut cs ++ splitWhere cut ds
  | [] => by
    rw [List.nil_append, splitWhere.eq_2, if_pos hc]
    rfl
  | d :: cs => by
    rw [List.cons_append, splitWhere, splitWhere, splitWhere_append hc ds cs]
    split
    · rfl
    · exact extendFirst_append d (splitWhere_ne_nil cut cs) _

private theorem words_append_blank {sep : Char} (hsep : isBlank sep = true) (cs ds : List Char) :
    words (cs ++ sep :: ds) = words cs ++ words ds := by
  unfold words
  rw [splitWhere_append (by rw [isWord_of_isBlank hsep]; rfl), List.filter_append]

/-- The parts of a text have none of the characters that are cut at. -/
theorem mem_splitWhere {cut : Char → Bool} : ∀ {cs part : List Char}, part ∈ splitWhere cut cs →
    ∀ c ∈ part, c ∈ cs ∧ cut c = false
  | [], part, hpart, c, hc => by
    rw [splitWhere, List.mem_singleton] at hpart
    rw [hpart] at hc
    exact absurd hc List.not_mem_nil
  | d :: cs, part, hpart, c, hc => by
    rw [splitWhere] at hpart
    split at hpart
    next =>
      rcases List.mem_cons.mp hpart with rfl | hrest
      · exact absurd hc List.not_mem_nil
      · obtain ⟨hmem, hcut⟩ := mem_splitWhere hrest c hc
        exact ⟨List.mem_cons_of_mem _ hmem, hcut⟩
    next hd =>
      cases hsplit : splitWhere cut cs with
      | nil => exact absurd hsplit (splitWhere_ne_nil cut cs)
      | cons first parts =>
        rw [hsplit, extendFirst] at hpart
        rcases List.mem_cons.mp hpart with rfl | hrest
        · rcases List.mem_cons.mp hc with rfl | hc
          · exact ⟨List.mem_cons_self .., Bool.eq_false_iff.mpr hd⟩
          · obtain ⟨hmem, hcut⟩ := mem_splitWhere (hsplit ▸ List.mem_cons_self ..) c hc
            exact ⟨List.mem_cons_of_mem _ hmem, hcut⟩
        · obtain ⟨hmem, hcut⟩ := mem_splitWhere (hsplit ▸ List.mem_cons_of_mem _ hrest) c hc
          exact ⟨List.mem_cons_of_mem _ hmem, hcut⟩

/-- A text with nothing to cut at is one part. -/
theorem splitWhere_of_none {cut : Char → Bool} : ∀ {cs : List Char}, (∀ c ∈ cs, cut c = false) →
    splitWhere cut cs = [cs]
  | [], _ => rfl
  | c :: cs, h => by
    rw [splitWhere, h c (List.mem_cons_self ..),
      splitWhere_of_none fun d hd => h d (List.mem_cons_of_mem _ hd)]
    rfl

/-- A word in small letters. -/
def WordText (cs : List Char) : Prop := cs ≠ [] ∧ ∀ c ∈ cs, isWord c = true ∧ IsSmall c

theorem wordText_of_mem_words {cs word : List Char} (h : word ∈ words (lowerChars cs)) :
    WordText word := by
  obtain ⟨hmem, hne⟩ := List.mem_filter.mp h
  refine ⟨by simpa using hne, fun c hc => ?_⟩
  obtain ⟨hlow, hcut⟩ := mem_splitWhere hmem c hc
  exact ⟨by simpa using hcut, isSmall_of_mem_lowerAfter cs false c hlow⟩

theorem words_of_wordText {cs : List Char} (h : WordText cs) : words (lowerChars cs) = [cs] := by
  have hlow : lowerChars cs = cs := lowerAfter_of_isSmall cs false fun c hc => (h.2 c hc).2
  rw [hlow, words, splitWhere_of_none fun c hc => by rw [(h.2 c hc).1]; rfl]
  rw [List.filter_cons, if_pos (by simpa using h.1)]
  rfl

end PlainCode.Text

namespace PlainCode.Vocabulary

open PlainCode.Text (IsSmall WordText isDigit isWord)

/-! ## Meanings -/

theorem mem_of_lookup {word meaning : String} (h : synonyms.lookup word = some meaning) :
    (word, meaning) ∈ synonyms := by
  obtain ⟨front, back, hsyn, _⟩ := List.lookup_eq_some_iff.mp h
  rw [hsyn]
  exact List.mem_append_right _ (List.mem_cons_self ..)

/-- Whether a word is written with small letters of the basic alphabet and low lines. -/
def isBasic (word : String) : Bool :=
  word.toList.all (fun c => Nat.ble 0x61 c.toNat && Nat.ble c.toNat 0x7A || Nat.beq c.toNat 0x5F)
    && !word.toList.isEmpty

/-- Basic small letters and the low line belong to words, are small and are no digits. -/
theorem basic_of_mem {word : String} (h : isBasic word = true) {c : Char} (hc : c ∈ word.toList) :
    isWord c = true ∧ IsSmall c ∧ isDigit c = false := by
  have hbasic : ∀ n ∈ List.range 0x7B, (0x61 ≤ n ∨ n = 0x5F) → isWord (Char.ofNat n) = true ∧
      IsSmall (Char.ofNat n) ∧ isDigit (Char.ofNat n) = false := by decide +kernel
  rw [isBasic, Bool.and_eq_true] at h
  have hrange := List.all_eq_true.mp h.1 c hc
  rw [Bool.or_eq_true, Bool.and_eq_true, Nat.ble_eq, Nat.ble_eq, Nat.beq_eq] at hrange
  have hchar := hbasic c.toNat (List.mem_range.mpr (by omega)) (by omega)
  rwa [Char.ofNat_toNat] at hchar

theorem ne_nil_of_isBasic {word : String} (h : isBasic word = true) : word.toList ≠ [] := by
  rw [isBasic, Bool.and_eq_true] at h
  simpa using h.2

theorem wordText_of_isBasic {word : String} (h : isBasic word = true) : WordText word.toList :=
  ⟨ne_nil_of_isBasic h, fun _ hc => ⟨(basic_of_mem h hc).1, (basic_of_mem h hc).2.1⟩⟩

theorem not_digits_of_isBasic {word : String} (h : isBasic word = true) :
    ¬ ∀ c ∈ word.toList, isDigit c = true := by
  intro hall
  obtain ⟨c, cs, hcs⟩ := List.exists_cons_of_ne_nil (ne_nil_of_isBasic h)
  have hc : c ∈ word.toList := by rw [hcs]; exact List.mem_cons_self ..
  have hdigit := hall c hc
  rw [(basic_of_mem h hc).2.2] at hdigit
  exact Bool.false_ne_true hdigit

/-- All words of the vocabulary are basic. -/
theorem isBasic_synonyms : ∀ p ∈ synonyms, isBasic p.1 = true ∧ isBasic p.2 = true := by
  decide +kernel

theorem isBasic_fillers : ∀ word ∈ fillers, isBasic word = true := by decide +kernel

private theorem meaning?_keyword : ∀ p ∈ synonyms, meaning? p.2 = some p.2 := by decide +kernel

/-- A word stands for what the table says, or for itself. -/
theorem meaning?_cases {word meaning : String} (h : meaning? word = some meaning) :
    (word, meaning) ∈ synonyms ∨ meaning = word := by
  cases hsyn : synonyms.lookup word with
  | some keyword =>
    rw [meaning?, hsyn, Option.some.injEq] at h
    subst h
    exact Or.inl (mem_of_lookup hsyn)
  | none =>
    rw [meaning?, hsyn] at h
    dsimp only at h
    split at h
    next => exact absurd h (by simp)
    next => exact Or.inr (Option.some.inj h).symm

/-- What a word stands for stands for itself. -/
theorem meaning?_idem {word meaning : String} (h : meaning? word = some meaning) :
    meaning? meaning = some meaning := by
  rcases meaning?_cases h with hmem | rfl
  · exact meaning?_keyword (word, meaning) hmem
  · exact h

/-- What a word stands for is a word. -/
private theorem wordText_of_meaning? {word meaning : String} (hword : WordText word.toList)
    (h : meaning? word = some meaning) : WordText meaning.toList := by
  rcases meaning?_cases h with hmem | rfl
  · exact wordText_of_isBasic (isBasic_synonyms _ hmem).2
  · exact hword

end PlainCode.Vocabulary

namespace PlainCode.Phrase

open PlainCode.Literal
open PlainCode.Text (isBlank WordText isDigit isQuote_of_isWord isWord words
  words_of_wordText wordText_of_mem_words)
open PlainCode.Vocabulary (meaning?)

/-! ## Two texts with a blank between them -/

private theorem wordPieces_append_blank {sep : Char} (hsep : isBlank sep = true)
    (cs ds : List Char) : wordPieces (cs ++ sep :: ds) = wordPieces cs ++ wordPieces ds := by
  unfold wordPieces Text.lowerChars
  rw [Text.lowerAfter_append_blank hsep, Text.words_append_blank hsep, List.filterMap_append]

theorem plainPieces_append_blank {sep : Char} (hsep : isBlank sep = true) (cs ds : List Char) :
    plainPieces (cs ++ sep :: ds) = plainPieces cs ++ plainPieces ds :=
  flatMap_spans_append_break numeralAt?_faithful (numeralAt?_stopsAt hsep ds)
    (fun _ _ _ _ _ => rfl) (wordPieces_append_blank hsep)

/-- A text whose quotes all lie in complete quoted literals of it. -/
def QuotesClosed (cs : List Char) : Prop :=
  ∀ s ∈ spans quotedAt? cs, s.literal = false → ∀ c ∈ s.text, isQuote c = false

-- by the stretches and their characters, and not by all characters that there are
instance (cs : List Char) : Decidable (QuotesClosed cs) :=
  decidable_of_iff (((spans quotedAt? cs).all fun s => s.literal || s.text.all fun c => !isQuote c)
    = true) (by simp [QuotesClosed, or_iff_not_imp_left])

/-- The pieces of two texts with a blank between them. -/
theorem piecesOf_append_blank {sep : Char} (hsep : isBlank sep = true) {cs : List Char}
    (h : QuotesClosed cs) (ds : List Char) :
    piecesOf (cs ++ sep :: ds) = piecesOf cs ++ piecesOf ds :=
  flatMap_spans_append_break quotedAt?_faithful (quotedAt?_stopsAt hsep ds) h
    (plainPieces_append_blank hsep)

/-! ## Blanks at the ends -/

private theorem piecesOf_cons_blank {sep : Char} (hsep : isBlank sep = true) (cs : List Char) :
    piecesOf (sep :: cs) = piecesOf cs := by
  have hclosed : QuotesClosed [] := by decide
  exact piecesOf_append_blank hsep hclosed cs

private theorem piecesOf_concat_blank {sep : Char} (hsep : isBlank sep = true) (cs : List Char) :
    piecesOf (cs ++ [sep]) = piecesOf cs := by
  have hparts : piecesOf (cs ++ [sep]) = piecesOf cs ++ piecesOf [] :=
    flatMap_spans_append_break quotedAt?_faithful (quotedAt?_stopsAt_end hsep)
      (fun _ _ _ _ _ => rfl) (plainPieces_append_blank hsep)
  exact hparts.trans (List.append_nil _)

theorem piecesOf_dropWhile (cs : List Char) : piecesOf (cs.dropWhile isBlank) = piecesOf cs := by
  induction cs with
  | nil => rfl
  | cons c cs ih =>
    rw [List.dropWhile_cons]
    split
    next hc => exact ih.trans (piecesOf_cons_blank hc cs).symm
    next => rfl

private theorem piecesOf_dropWhile_reverse (cs : List Char) :
    piecesOf (cs.reverse.dropWhile isBlank).reverse = piecesOf cs := by
  induction cs using List.reverseRecOn with
  | nil => rfl
  | append_singleton cs c ih =>
    rw [List.reverse_concat, List.dropWhile_cons]
    split
    next hc => exact ih.trans (piecesOf_concat_blank hc cs).symm
    next => rw [List.reverse_cons, List.reverse_reverse]

/-- Blanks at the ends of a phrase make no difference, also where a quote is open. -/
private theorem pieces_trim (phrase : String) : pieces (Text.trim phrase) = pieces phrase := by
  rw [pieces, Text.trim, String.toList_ofList, Text.trimChars, piecesOf_dropWhile_reverse,
    piecesOf_dropWhile]
  rfl

private theorem pieces_of_blank {phrase : String} (h : Text.blank phrase = true) :
    pieces phrase = [] := by
  have hnone : phrase.toList.dropWhile isBlank = [] :=
    List.dropWhile_eq_nil_iff.mpr (List.all_eq_true.mp h)
  rw [pieces, ← piecesOf_dropWhile, hnone]
  rfl

/-- **Phrases need no trimming.** What a phrase says does not depend on the blanks at its ends, and
nothing but blanks says nothing. -/
theorem canonical_trim (phrase : String) :
    canonical (Text.trim phrase) = canonical phrase ∧
    (Text.blank phrase = true → canonical phrase = "") := by
  constructor
  · rw [canonical, pieces_trim]
    rfl
  · intro h
    rw [canonical, pieces_of_blank h]
    rfl

/-! ## The form of a piece -/

/-- The form that a piece of each sort has. -/
def Piece.WellFormed : Piece → Prop
  | .quoted contents => ∃ quote, isQuote quote = true ∧ Contents quote contents.toList
  | .numeral text => Numeral text.toList
  | .word text => WordText text.toList ∧ meaning? text = some text

private theorem wellFormed_of_mem_wordPieces {cs : List Char} {p : Piece} (h : p ∈ wordPieces cs) :
    p.WellFormed := by
  obtain ⟨word, hword, hp⟩ := List.mem_filterMap.mp h
  obtain ⟨meaning, hmeaning, rfl⟩ := Option.map_eq_some_iff.mp hp
  have htext : WordText (String.ofList word).toList := by
    rw [String.toList_ofList]
    exact wordText_of_mem_words hword
  exact ⟨Vocabulary.wordText_of_meaning? htext hmeaning, Vocabulary.meaning?_idem hmeaning⟩

theorem wellFormed_of_mem_plainPieces {cs : List Char} {p : Piece} (h : p ∈ plainPieces cs) :
    p.WellFormed := by
  obtain ⟨s, hs, hp⟩ := List.mem_flatMap.mp h
  split at hp
  next hlit =>
    obtain ⟨_, _, hfind⟩ := (cut_spans numeralAt?_faithful cs).found hs hlit
    rw [List.mem_singleton] at hp
    subst hp
    show Numeral (String.ofList s.text).toList
    rw [String.toList_ofList]
    exact (numeral_of_numeralAt? hfind).1
  next => exact wellFormed_of_mem_wordPieces hp

/-- Plain text has no quoted pieces. -/
theorem ne_quoted_of_mem_plainPieces {cs : List Char} {p : Piece} (h : p ∈ plainPieces cs)
    (contents : String) : p ≠ .quoted contents := by
  rintro rfl
  obtain ⟨s, _, hp⟩ := List.mem_flatMap.mp h
  split at hp
  next => exact absurd (List.mem_singleton.mp hp) (by simp)
  next =>
    obtain ⟨word, _, hp⟩ := List.mem_filterMap.mp hp
    obtain ⟨meaning, _, hp⟩ := Option.map_eq_some_iff.mp hp
    exact absurd hp (by simp)

/-- A quoted literal of a text, and what stands between its quotes. -/
theorem literal_of_mem_spans {cs : List Char} {s : Span} (hs : s ∈ spans quotedAt? cs)
    (hlit : s.literal = true) : ∃ quote contents, isQuote quote = true ∧ Contents quote contents ∧
      s.text = quote :: contents ++ [quote] ∧ (s.text.drop 1).dropLast = contents := by
  obtain ⟨_, _, hfind⟩ := (cut_spans quotedAt?_faithful cs).found hs hlit
  obtain ⟨quote, contents, _, hq, hgrammar, htext, _⟩ := quotedAt?_eq_some_iff.mp hfind
  refine ⟨quote, contents, hq, hgrammar, htext, ?_⟩
  rw [htext, List.cons_append, List.drop_one, List.tail_cons, List.dropLast_concat]

/-- Every piece of a text has the form of its sort. -/
theorem wellFormed_of_mem_piecesOf {cs : List Char} {p : Piece} (h : p ∈ piecesOf cs) :
    p.WellFormed := by
  obtain ⟨s, hs, hp⟩ := List.mem_flatMap.mp h
  split at hp
  next hlit =>
    obtain ⟨quote, contents, hq, hcont, _, hinner⟩ := literal_of_mem_spans hs hlit
    rw [List.mem_singleton, hinner] at hp
    subst hp
    refine ⟨quote, hq, ?_⟩
    rw [String.toList_ofList]
    exact hcont
  next => exact wellFormed_of_mem_plainPieces hp

/-- A piece that its text stands for: quoting a literal anew must not leave a loose quote. -/
def Piece.Readable (p : Piece) : Prop :=
  p.WellFormed ∧ ∀ contents, p = .quoted contents → ¬ LooseQuote contents.toList

theorem Piece.Readable.contents {contents : String} (h : (Piece.quoted contents).Readable) :
    Contents '"' (guardQuotes contents.toList) := by
  obtain ⟨⟨quote, _, hcont⟩, hloose⟩ := h
  exact contents_guardQuotes hcont (hloose contents rfl)

/-- What stands between the quotes of the literals in single quotes. -/
def singleQuoted (cs : List Char) : List (List Char) :=
  ((spans quotedAt? cs).filter fun s => s.literal && s.text.head? == some '\'').map fun s =>
    (s.text.drop 1).dropLast

/-- A phrase whose literals in single quotes have no loose quotes. -/
def Requotable (phrase : String) : Prop :=
  ∀ contents ∈ singleQuoted phrase.toList, ¬ LooseQuote contents

instance (phrase : String) : Decidable (Requotable phrase) :=
  inferInstanceAs (Decidable (∀ contents ∈ singleQuoted phrase.toList, _))

/-- Only literals in single quotes can fail to be readable. -/
theorem requotable_iff (phrase : String) : Requotable phrase ↔ ∀ p ∈ pieces phrase, p.Readable := by
  constructor
  · intro h p hp
    refine ⟨wellFormed_of_mem_piecesOf hp, ?_⟩
    rintro contents rfl
    obtain ⟨s, hs, hp⟩ := List.mem_flatMap.mp hp
    split at hp
    next hlit =>
      obtain ⟨quote, inner, hq, hcont, htext, hinner⟩ := literal_of_mem_spans hs hlit
      rw [List.mem_singleton, Piece.quoted.injEq, hinner] at hp
      rw [hp, String.toList_ofList]
      rcases Text.isQuote_cases hq with rfl | rfl
      · -- in double quotes, a double quote always has an odd number of backslashes in front
        exact hcont.not_looseQuote
      · refine h inner (List.mem_map.mpr ⟨s, List.mem_filter.mpr ⟨hs, ?_⟩, hinner⟩)
        rw [hlit, htext]
        rfl
    next => exact absurd rfl (ne_quoted_of_mem_plainPieces hp contents)
  · intro h contents hcontents
    obtain ⟨s, hs, rfl⟩ := List.mem_map.mp hcontents
    obtain ⟨hs, hsingle⟩ := List.mem_filter.mp hs
    rw [Bool.and_eq_true] at hsingle
    have hp : Piece.quoted (String.ofList (s.text.drop 1).dropLast) ∈ pieces phrase := by
      refine List.mem_flatMap.mpr ⟨s, hs, ?_⟩
      rw [if_pos hsingle.1]
      exact List.mem_singleton.mpr rfl
    have hloose := (h _ hp).2 _ rfl
    rwa [String.toList_ofList] at hloose

/-! ## Reading the text of a piece -/

theorem piecesOf_of_plain {cs : List Char} (h : ∀ c ∈ cs, isQuote c = false) :
    piecesOf cs = plainPieces cs := by
  rw [piecesOf, (spans_eq_iff quotedAt?_faithful).mpr (cut_quotedAt?_plain none h)]
  exact List.append_nil _

theorem plainPieces_numeral {cs : List Char} (h : Numeral cs) :
    plainPieces cs = [.numeral (String.ofList cs)] := by
  rw [plainPieces, (spans_eq_iff numeralAt?_faithful).mpr h.cut]
  rfl

theorem plainPieces_word {cs : List Char} (h : WordText cs)
    (hother : ¬ ∀ c ∈ cs, isDigit c = true) :
    plainPieces cs = ((meaning? (String.ofList cs)).map Piece.word).toList := by
  have hcut := cut_numeralAt?_word (fun c hc => (h.2 c hc).1) hother
  rw [plainPieces, (spans_eq_iff numeralAt?_faithful).mpr hcut]
  show wordPieces cs ++ [] = _
  rw [List.append_nil, wordPieces, words_of_wordText h, List.filterMap_cons]
  cases meaning? (String.ofList cs) with
  | none => rfl
  | some meaning => rfl

theorem isQuote_of_numeral {cs : List Char} (h : Numeral cs) : ∀ c ∈ cs, isQuote c = false :=
  h.forall_mem (fun _ => isQuote_of_isWord) rfl rfl

theorem isQuote_of_wordText {cs : List Char} (h : WordText cs) : ∀ c ∈ cs, isQuote c = false :=
  fun c hc => isQuote_of_isWord (h.2 c hc).1

/-- A word of digits is read as a numeral, which has the same text. -/
private theorem pieceTexts_word {text : String} (h : WordText text.toList)
    (hmeaning : meaning? text = some text) :
    (plainPieces text.toList).map Piece.text = [text] := by
  by_cases hdigits : ∀ c ∈ text.toList, isDigit c = true
  · have hnum : Numeral text.toList := .whole (Or.inl rfl) ⟨h.1, hdigits⟩
    rw [plainPieces_numeral hnum, String.ofList_toList]
    rfl
  · rw [plainPieces_word h hdigits, String.ofList_toList, hmeaning]
    rfl

theorem cut_requote {cs : List Char} (h : Contents '"' (guardQuotes cs)) :
    Cut quotedAt? none (requote cs) [⟨false, []⟩, ⟨true, requote cs⟩, ⟨false, []⟩] := by
  have hcut := Cut.literal (List.cons_ne_nil _ _) (quotedAt?_requote h none []) .nil
  rwa [List.append_nil] at hcut

private theorem pieceTexts_requote {cs : List Char} (h : Contents '"' (guardQuotes cs)) :
    (piecesOf (requote cs)).map Piece.text = [String.ofList (requote cs)] := by
  rw [piecesOf, (spans_eq_iff quotedAt?_faithful).mpr (cut_requote h)]
  have hinner : ((requote cs).drop 1).dropLast = guardQuotes cs := by
    rw [requote, List.cons_append, List.drop_one, List.tail_cons, List.dropLast_concat]
  have hagain : requote (guardQuotes cs) = requote cs := by
    rw [requote, guardQuotes, h.guardFrom_eq_self]
    rfl
  show [String.ofList (requote (String.ofList ((requote cs).drop 1).dropLast).toList)] = _
  rw [String.toList_ofList, hinner, hagain]

/-- The text of a readable piece has one piece, with that text. -/
theorem pieceTexts_text {p : Piece} (h : p.Readable) :
    (piecesOf p.text.toList).map Piece.text = [p.text] := by
  cases p with
  | quoted contents =>
    rw [Piece.text, String.toList_ofList]
    exact pieceTexts_requote h.contents
  | numeral text =>
    have hnum : Numeral text.toList := h.1
    rw [Piece.text, piecesOf_of_plain (isQuote_of_numeral hnum), plainPieces_numeral hnum,
      String.ofList_toList]
    rfl
  | word text =>
    obtain ⟨hword, hmeaning⟩ := h.1
    rw [Piece.text, piecesOf_of_plain (isQuote_of_wordText hword)]
    exact pieceTexts_word hword hmeaning

theorem quotesClosed_of_plain {cs : List Char} (h : ∀ c ∈ cs, isQuote c = false) :
    QuotesClosed cs := by
  intro s hs _ c hc
  rw [(spans_eq_iff quotedAt?_faithful).mpr (cut_quotedAt?_plain none h), List.mem_singleton] at hs
  rw [hs] at hc
  exact h c hc

theorem quotesClosed_text {p : Piece} (h : p.Readable) : QuotesClosed p.text.toList := by
  cases p with
  | quoted contents =>
    rw [Piece.text, String.toList_ofList]
    intro s hs hplain c hc
    rw [(spans_eq_iff quotedAt?_faithful).mpr (cut_requote h.contents)] at hs
    simp only [List.mem_cons, List.not_mem_nil, or_false] at hs
    rcases hs with rfl | rfl | rfl
    · exact absurd hc List.not_mem_nil
    · exact absurd hplain (by simp)
    · exact absurd hc List.not_mem_nil
  | numeral text => exact quotesClosed_of_plain (isQuote_of_numeral h.1)
  | word text => exact quotesClosed_of_plain (isQuote_of_wordText h.1.1)

/-! ## Pieces in a row -/

/-- The text of pieces in a row. -/
def joined (ps : List Piece) : List Char := [' '].intercalate (ps.map fun p => p.text.toList)

theorem toList_canonical (phrase : String) :
    (canonical phrase).toList = joined (pieces phrase) := by
  rw [canonical, String.toList_intercalate, List.map_map]
  rfl

theorem joined_cons_cons (p q : Piece) (ps : List Piece) :
    joined (p :: q :: ps) = p.text.toList ++ ' ' :: joined (q :: ps) := by
  rw [joined, List.map_cons, List.map_cons, List.intercalate_cons_cons, List.append_assoc]
  rfl

theorem joined_singleton (p : Piece) : joined [p] = p.text.toList := List.intercalate_singleton

/-- Pieces in a row are read one by one. -/
theorem piecesOf_joined : ∀ {ps : List Piece}, (∀ p ∈ ps, QuotesClosed p.text.toList) →
    piecesOf (joined ps) = ps.flatMap fun p => piecesOf p.text.toList
  | [], _ => rfl
  | [p], _ => by rw [joined_singleton, List.flatMap_singleton]
  | p :: q :: ps, h => by
    rw [joined_cons_cons, piecesOf_append_blank (by decide) (h p (List.mem_cons_self ..)),
      piecesOf_joined fun r hr => h r (List.mem_cons_of_mem _ hr)]
    rfl

end PlainCode.Phrase
