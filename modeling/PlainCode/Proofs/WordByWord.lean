import PlainCode.Proofs.Pieces

/-!
# Canonical forms word by word

A phrase is put into its canonical form word by word: what stands to the left of a space does not
change what becomes of the text to the right of it, nor the other way round. So a word may be
replaced by another one with the same meaning, and a filler left out, whatever the phrase around
it says.

There is one exception: a quote that is still open at the space may be closed behind it. The left
part must have all its quotes in complete literals.
-/

namespace PlainCode.Phrase

open PlainCode.Literal
open PlainCode.Vocabulary (fillers isBasic isBasic_fillers isBasic_synonyms meaning? mem_of_lookup
  not_digits_of_isBasic synonyms wordText_of_isBasic)

/-- Two texts with a space between them; a text that is empty is left out together with it. -/
def beside (a b : String) : String := if a = "" then b else if b = "" then a else a ++ " " ++ b

/-- No piece is without text. -/
private theorem text_ne_empty {p : Piece} (h : p.WellFormed) : p.text ≠ "" := by
  intro he
  have hnil : p.text.toList = [] := by rw [he]; rfl
  cases p with
  | quoted contents =>
    rw [Piece.text, String.toList_ofList] at hnil
    exact absurd hnil (List.cons_ne_nil _ _)
  | numeral text => exact absurd hnil (Numeral.ne_nil h)
  | word text => exact absurd hnil h.1.1

private theorem intercalate_eq_empty : ∀ {texts : List String}, (∀ text ∈ texts, text ≠ "") →
    " ".intercalate texts = "" → texts = []
  | [], _, _ => rfl
  | [text], h, he => by
    rw [String.intercalate_singleton] at he
    exact absurd he (h text (List.mem_singleton.mpr rfl))
  | text :: next :: texts, _, he => by
    have hchars := congrArg String.toList he
    rw [String.intercalate_cons_cons] at hchars
    simp [String.toList_append] at hchars

/-- A canonical form is empty only where no piece is left. -/
theorem pieces_eq_nil {phrase : String} (h : canonical phrase = "") : pieces phrase = [] := by
  have htexts := intercalate_eq_empty (fun text htext => by
    obtain ⟨p, hp, rfl⟩ := List.mem_map.mp htext
    exact text_ne_empty (wellFormed_of_mem_piecesOf hp)) h
  exact List.map_eq_nil_iff.mp htexts

/-- The pieces of a canonical form determine it, half by half. -/
private theorem canonical_of_pieces {a b c : String} (h : pieces c = pieces a ++ pieces b) :
    canonical c = beside (canonical a) (canonical b) := by
  rw [beside]
  split
  next ha =>
    rw [canonical, h, pieces_eq_nil ha, List.nil_append]
    rfl
  next ha =>
    split
    next hb =>
      rw [canonical, h, pieces_eq_nil hb, List.append_nil]
      rfl
    next hb =>
      have hane : (pieces a).map Piece.text ≠ [] := by
        intro hnil
        exact ha (by rw [canonical, hnil]; rfl)
      have hbne : (pieces b).map Piece.text ≠ [] := by
        intro hnil
        exact hb (by rw [canonical, hnil]; rfl)
      rw [canonical, h, List.map_append, String.intercalate_append_of_ne_nil hane hbne]
      rfl

theorem toList_append_space (a b : String) :
    (a ++ " " ++ b).toList = a.toList ++ ' ' :: b.toList := by
  rw [String.toList_append, String.toList_append, List.append_assoc]
  rfl

theorem pieces_append_space {a : String} (ha : QuotesClosed a.toList) (b : String) :
    pieces (a ++ " " ++ b) = pieces a ++ pieces b := by
  rw [pieces, toList_append_space, piecesOf_append_blank (by decide) ha]
  rfl

/-- Text without quotes behind a space leaves no quote open. -/
private theorem quotesClosed_append_space {cs ds : List Char} (hcs : QuotesClosed cs)
    (hds : ∀ c ∈ ds, isQuote c = false) : QuotesClosed (cs ++ ' ' :: ds) := by
  have hnext := cut_quotedAt?_plain none hds
  have hspace : Text.isBlank ' ' = true := by decide
  obtain ⟨xs, t, hspans, hcut⟩ :=
    Cut.append_break (quotedAt?_stopsAt hspace ds) hnext (cut_spans quotedAt?_faithful cs) hcs
  intro s hs hplain c hc
  rw [(spans_eq_iff quotedAt?_faithful).mpr hcut] at hs
  -- the last stretch on the left has grown, and the others are as they were
  rcases List.mem_append.mp hs with hleft | hseam
  · exact hcs s (by rw [hspans]; exact List.mem_append_left _ hleft) hplain c hc
  · rw [List.mem_singleton] at hseam
    rw [hseam] at hc
    have ht : ∀ d ∈ t, isQuote d = false :=
      hcs ⟨false, t⟩ (by rw [hspans]; exact List.mem_append_right _ (List.mem_cons_self ..)) rfl
    rcases List.mem_append.mp hc with hct | hcd
    · exact ht c hct
    · rcases List.mem_cons.mp hcd with rfl | hcd
      · rfl
      · exact hds c hcd

/-- The pieces of a word of the vocabulary. -/
private theorem pieces_of_isBasic {word : String} (h : isBasic word = true) :
    pieces word = ((meaning? word).map Piece.word).toList := by
  have hword := wordText_of_isBasic h
  rw [pieces, piecesOf_of_plain (isQuote_of_wordText hword),
    plainPieces_word hword (not_digits_of_isBasic h), String.ofList_toList]

/-- The pieces around a word of the vocabulary. -/
theorem pieces_around {a word : String} (ha : QuotesClosed a.toList) (h : isBasic word = true)
    (b : String) : pieces (a ++ " " ++ word ++ " " ++ b)
      = pieces a ++ ((meaning? word).map Piece.word).toList ++ pieces b := by
  have hclosed : QuotesClosed (a ++ " " ++ word).toList := by
    rw [toList_append_space]
    exact quotesClosed_append_space ha (isQuote_of_wordText (wordText_of_isBasic h))
  rw [pieces_append_space hclosed, pieces_append_space ha, pieces_of_isBasic h]

/-- **Canonical forms are made word by word.** The canonical form of two texts with a space between
them is made of those of the two. So a word and what it stands for can take each other's place
anywhere, and a filler that stands for nothing can be left out anywhere. -/
theorem canonical_word_by_word (a b : String) (ha : QuotesClosed a.toList) :
    canonical (a ++ " " ++ b) = beside (canonical a) (canonical b) ∧
    (∀ word meaning, synonyms.lookup word = some meaning →
      canonical (a ++ " " ++ word ++ " " ++ b) = canonical (a ++ " " ++ meaning ++ " " ++ b)) ∧
    ∀ word ∈ fillers, synonyms.lookup word = none →
      canonical (a ++ " " ++ word ++ " " ++ b) = canonical (a ++ " " ++ b) := by
  refine ⟨canonical_of_pieces (pieces_append_space ha b), ?_, ?_⟩
  · intro word meaning hsyn
    obtain ⟨hword, hmeaning⟩ := isBasic_synonyms _ (mem_of_lookup hsyn)
    have hstands : meaning? word = some meaning := by rw [meaning?, hsyn]
    rw [canonical, canonical, pieces_around ha hword, pieces_around ha hmeaning, hstands,
      Vocabulary.meaning?_idem hstands]
  · intro word hfiller hsyn
    have hnothing : meaning? word = none := by
      rw [meaning?, hsyn]
      exact if_pos (List.contains_iff_mem.mpr hfiller)
    rw [canonical, canonical, pieces_around ha (isBasic_fillers word hfiller), hnothing,
      pieces_append_space ha]
    simp

/-- Both sorts of quotes in the left half, a capital sigma at the seam, and an open quote in the
right half, with a synonym and a filler between them. -/
theorem canonical_word_by_word_sigma :
    QuotesClosed "Say 'it\\'s \"5\"' ΑΣ".toList ∧
    canonical ("Say 'it\\'s \"5\"' ΑΣ" ++ " " ++ "-2.50 times 'Σ")
      = "print \"it\\'s \\\"5\\\"\" ας -2.50 multiply σ" ∧
    canonical ("Say 'it\\'s \"5\"' ΑΣ" ++ " " ++ "plus" ++ " " ++ "-2.50 times 'Σ")
      = canonical ("Say 'it\\'s \"5\"' ΑΣ" ++ " " ++ "add" ++ " " ++ "-2.50 times 'Σ") ∧
    canonical ("Say 'it\\'s \"5\"' ΑΣ" ++ " " ++ "the" ++ " " ++ "-2.50 times 'Σ")
      = canonical ("Say 'it\\'s \"5\"' ΑΣ" ++ " " ++ "-2.50 times 'Σ") := by
  have hclosed : QuotesClosed "Say 'it\\'s \"5\"' ΑΣ".toList := by decide +kernel
  obtain ⟨hjoin, hsynonym, hfiller⟩ := canonical_word_by_word _ "-2.50 times 'Σ" hclosed
  exact ⟨hclosed, hjoin.trans (by decide +kernel), hsynonym "plus" "add" (by decide +kernel),
    hfiller "the" (by decide +kernel) (by decide +kernel)⟩

end PlainCode.Phrase
