import Mathlib.Data.List.Chain
import Mathlib.Data.List.Induction
import Mathlib.Data.List.TakeWhile
import PlainCode.Proofs.Tokens

/-!
# Texts as gaps and segments

`segments` reads a text from the left and counts what it has to pass over. `Segmentation` says what
it comes to without reading: a text is gaps and segments in turn, each segment is a run of bare
characters or begins with a quote, and where a quoted segment ends depends only on how many
backslashes stand in front of its quotes.

The step is one quoted segment. Reading goes in pairs of a backslash and the character behind it, so
it stops at the first quote with an even number of backslashes in front, if there is one
(`throughQuote_cases`). Every text has a segmentation (`exists_segmentation`), and the segments of
any segmentation are those that are read (`Segmentation.segments_eq`), so `segments_segmentation`
leaves no other way to cut a text.
-/

namespace PlainCode.Token

open PlainCode.Literal
open PlainCode.Text (isBlank isBlank_of_isQuote)

/-! ## Free quotes -/

/-- A quote that no backslash takes along: the backslashes in front of it are even in number. -/
def HasFreeQuote (quote : Char) (cs : List Char) : Prop :=
  ∃ front back, cs = front ++ quote :: back ∧ slashesBehind front % 2 = 0

/-- A character that is no backslash does not count. -/
theorem slashesBehind_cons_of_ne {c : Char} (hc : c ≠ '\\') (cs : List Char) :
    slashesBehind (c :: cs) = slashesBehind cs := by
  induction cs using List.reverseRecOn with
  | nil => rw [← List.nil_append [c], slashesBehind_concat, if_neg hc]; rfl
  | append_singleton cs d ih =>
    rw [← List.cons_append, slashesBehind_concat, slashesBehind_concat, ih]

/-- A backslash and the character behind it do not count either, but for two backslashes more. -/
theorem slashesBehind_pair (d : Char) (cs : List Char) :
    slashesBehind ('\\' :: d :: cs) % 2 = slashesBehind cs % 2 := by
  induction cs using List.reverseRecOn with
  | nil =>
    have hpair : slashesBehind ['\\', d] = if d = '\\' then 2 else 0 :=
      slashesBehind_concat ['\\'] d
    rw [hpair]
    split <;> rfl
  | append_singleton cs e ih =>
    rw [← List.cons_append, ← List.cons_append, slashesBehind_concat, slashesBehind_concat]
    split
    next => omega
    next => rfl

section

variable {quote : Char}

theorem not_hasFreeQuote_nil : ¬ HasFreeQuote quote [] := by
  rintro ⟨front, back, h, _⟩
  exact absurd h.symm (List.append_ne_nil_of_right_ne_nil front (List.cons_ne_nil _ _))

theorem hasFreeQuote_cons_iff {c : Char} (hquote : c ≠ quote) (hslash : c ≠ '\\')
    {cs : List Char} : HasFreeQuote quote (c :: cs) ↔ HasFreeQuote quote cs := by
  constructor
  · rintro ⟨front, back, h, heven⟩
    cases front with
    | nil => exact absurd (List.head_eq_of_cons_eq h) hquote
    | cons d front =>
      obtain ⟨rfl, rfl⟩ := List.cons.inj h
      rw [slashesBehind_cons_of_ne hslash] at heven
      exact ⟨front, back, rfl, heven⟩
  · rintro ⟨front, back, rfl, heven⟩
    exact ⟨c :: front, back, rfl, by rwa [slashesBehind_cons_of_ne hslash]⟩

variable (hq : quote ≠ '\\')
include hq

private theorem not_hasFreeQuote_slash : ¬ HasFreeQuote quote ['\\'] := by
  rintro ⟨front, back, h, _⟩
  cases front with
  | nil => exact hq (List.head_eq_of_cons_eq h).symm
  | cons d front =>
    exact absurd (List.cons.inj h).2.symm
      (List.append_ne_nil_of_right_ne_nil front (List.cons_ne_nil _ _))

/-- What a backslash takes along is no free quote. -/
theorem hasFreeQuote_pair_iff {d : Char} {cs : List Char} :
    HasFreeQuote quote ('\\' :: d :: cs) ↔ HasFreeQuote quote cs := by
  constructor
  · rintro ⟨front, back, h, heven⟩
    match front with
    | [] => exact absurd (List.head_eq_of_cons_eq h).symm hq
    | [e] =>
      -- one backslash is in front of it
      rw [← (List.cons.inj h).1] at heven
      exact absurd heven (by decide)
    | e :: f :: front =>
      obtain ⟨he, h⟩ := List.cons.inj h
      obtain ⟨rfl, rfl⟩ := List.cons.inj h
      rw [← he, slashesBehind_pair] at heven
      exact ⟨front, back, rfl, heven⟩
  · rintro ⟨front, back, rfl, heven⟩
    exact ⟨'\\' :: d :: front, back, rfl, by rwa [slashesBehind_pair]⟩

/-- A quoted segment goes on through the first free quote, or to the end if there is none. -/
theorem throughQuote_cases (cs : List Char) :
    (∃ body more, cs = body ++ quote :: more ∧ throughQuote quote cs = body ++ [quote] ∧
      slashesBehind body % 2 = 0 ∧ ¬ HasFreeQuote quote body) ∨
    (throughQuote quote cs = cs ∧ ¬ HasFreeQuote quote cs) := by
  fun_induction throughQuote quote cs with
  | case1 => exact Or.inr ⟨rfl, not_hasFreeQuote_nil⟩
  | case2 cs => exact Or.inl ⟨[], cs, rfl, rfl, rfl, not_hasFreeQuote_nil⟩
  | case3 => exact Or.inr ⟨rfl, not_hasFreeQuote_slash hq⟩
  | case4 d ds _ ih =>
    rcases ih with ⟨body, more, rfl, hthrough, heven, hfree⟩ | ⟨hthrough, hfree⟩
    · refine Or.inl ⟨'\\' :: d :: body, more, rfl, ?_, ?_, ?_⟩
      · rw [hthrough]; rfl
      · rwa [slashesBehind_pair]
      · rwa [hasFreeQuote_pair_iff hq]
    · exact Or.inr ⟨by rw [hthrough], by rwa [hasFreeQuote_pair_iff hq]⟩
  | case5 c cs hquote hslash ih =>
    rcases ih with ⟨body, more, rfl, hthrough, heven, hfree⟩ | ⟨hthrough, hfree⟩
    · refine Or.inl ⟨c :: body, more, rfl, ?_, ?_, ?_⟩
      · rw [hthrough]; rfl
      · rwa [slashesBehind_cons_of_ne hslash]
      · rwa [hasFreeQuote_cons_iff hquote hslash]
    · exact Or.inr ⟨by rw [hthrough], by rwa [hasFreeQuote_cons_iff hquote hslash]⟩

private theorem throughQuote_of_not_hasFreeQuote {cs : List Char} (h : ¬ HasFreeQuote quote cs) :
    throughQuote quote cs = cs := by
  rcases throughQuote_cases hq cs with ⟨body, more, hcs, _, heven, _⟩ | ⟨hthrough, _⟩
  · exact absurd ⟨body, more, hcs, heven⟩ h
  · exact hthrough

/-- Where a text has a first free quote, a quoted segment ends there. -/
private theorem throughQuote_of_first {body : List Char} (heven : slashesBehind body % 2 = 0)
    (hfree : ¬ HasFreeQuote quote body) (more : List Char) :
    throughQuote quote (body ++ quote :: more) = body ++ [quote] := by
  rcases throughQuote_cases hq (body ++ quote :: more) with
    ⟨body', more', hcs, hthrough, heven', hfree'⟩ | ⟨_, hnone⟩
  · rw [hthrough]
    -- neither of the two quotes can be in front of the other
    rcases List.append_eq_append_iff.mp hcs with ⟨between, hbody', hmore⟩ | ⟨between, hbody, hmore⟩
    · cases between with
      | nil => rw [hbody', List.append_nil]
      | cons d between =>
        obtain ⟨rfl, -⟩ := List.cons.inj hmore
        exact absurd ⟨body, between, hbody', heven⟩ hfree'
    · cases between with
      | nil => rw [hbody, List.append_nil]
      | cons d between =>
        obtain ⟨rfl, -⟩ := List.cons.inj hmore
        exact absurd ⟨body', between, hbody, heven'⟩ hfree
  · exact absurd ⟨body, more, rfl, heven⟩ hnone

end

/-! ## Segmentations -/

/-- A segment with neither blanks nor quotes. -/
def Bare (segment : List Char) : Prop :=
  segment ≠ [] ∧ ∀ c ∈ segment, isBlank c = false ∧ isQuote c = false

/-- A segment from a quote through the next free quote of the same sort. -/
def Closed (segment : List Char) : Prop :=
  ∃ quote body, isQuote quote = true ∧ segment = quote :: (body ++ [quote]) ∧
    slashesBehind body % 2 = 0 ∧ ¬ HasFreeQuote quote body

/-- A segment that begins with a quote, with no free quote of the same sort behind it. -/
def Unclosed (segment : List Char) : Prop :=
  ∃ quote body, isQuote quote = true ∧ segment = quote :: body ∧ ¬ HasFreeQuote quote body

/-- A segment and the gap in front of it. -/
structure GappedSegment where
  gap : List Char
  segment : List Char

/-- The text of a segment and the gap in front of it. -/
def GappedSegment.text (row : GappedSegment) : List Char := row.gap ++ row.segment

/-- A text as segments in a row with gaps in front of them, and one more gap at the end. -/
structure Segmentation (text : List Char) (rows : List GappedSegment) (rest : List Char) :
    Prop where
  /-- Nothing of the text is lost, and nothing is added. -/
  text_eq : rows.flatMap GappedSegment.text ++ rest = text
  blank_gaps : ∀ row ∈ rows, ∀ c ∈ row.gap, isBlank c = true
  blank_rest : ∀ c ∈ rest, isBlank c = true
  forms : ∀ row ∈ rows, Bare row.segment ∨ Closed row.segment ∨ Unclosed row.segment
  /-- A segment that is not closed is the last one. -/
  closed : ∀ row ∈ rows.dropLast, ¬ Unclosed row.segment
  /-- If the last segment is not closed, nothing follows it. -/
  last : ∀ row ∈ rows.getLast?, Unclosed row.segment → rest = []
  /-- Bare segments do not touch. -/
  apart : rows.IsChain fun row next => Bare row.segment → Bare next.segment → next.gap ≠ []

theorem begins_with_quote {segment : List Char} (h : Closed segment ∨ Unclosed segment) :
    ∃ quote body, segment = quote :: body ∧ isQuote quote = true := by
  rcases h with ⟨quote, body, hq, rfl, _⟩ | ⟨quote, body, hq, rfl, _⟩
  · exact ⟨quote, _, rfl, hq⟩
  · exact ⟨quote, body, rfl, hq⟩

theorem Bare.not_quoted {segment : List Char} (h : Bare segment) :
    ¬ (Closed segment ∨ Unclosed segment) := by
  intro hquoted
  obtain ⟨quote, body, rfl, hq⟩ := begins_with_quote hquoted
  rw [(h.2 quote (List.mem_cons_self ..)).2] at hq
  exact Bool.false_ne_true hq

theorem Closed.not_unclosed {segment : List Char} (h : Closed segment) : ¬ Unclosed segment := by
  rintro ⟨quote, body, _, heq, hfree⟩
  obtain ⟨quote', body', _, rfl, heven, _⟩ := h
  obtain ⟨rfl, rfl⟩ := List.cons.inj heq
  exact hfree ⟨body', [], rfl, heven⟩

theorem isBare_eq_true_iff {c : Char} :
    isBare c = true ↔ isBlank c = false ∧ isQuote c = false := by
  rw [isBare, Bool.and_eq_true, Bool.not_eq_true', Bool.not_eq_true']

theorem isBare_of_isBlank {c : Char} (h : isBlank c = true) : isBare c = false := by
  rw [isBare, h]
  rfl

private theorem isBare_of_isQuote {c : Char} (h : isQuote c = true) : isBare c = false := by
  rw [isBare, h, Bool.not_true, Bool.and_false]

/-- Blanks are passed over. -/
theorem segments_gap {gap : List Char} (h : ∀ c ∈ gap, isBlank c = true) (cs : List Char) :
    segments (gap ++ cs) = segments cs := by
  induction gap with
  | nil => rfl
  | cons c gap ih =>
    rw [List.forall_mem_cons] at h
    rw [List.cons_append, segments, segmentsFrom, if_pos h.1]
    exact ih h.2

/-- A segment is read where it stands, if nothing is stuck to it and it goes on to the end if it is
not closed. -/
private theorem segments_segment {segment more : List Char}
    (h : Bare segment ∧ more.head?.any isBare = false ∨ Closed segment ∨
      Unclosed segment ∧ more = []) :
    segments (segment ++ more) = segment :: segments more := by
  rcases h with ⟨⟨hne, hbare⟩, hmore⟩ | ⟨quote, body, hq, rfl, heven, hfree⟩ |
    ⟨⟨quote, body, hq, rfl, hfree⟩, rfl⟩
  · exact segments_bare hne (fun c hc => isBare_eq_true_iff.mpr (hbare c hc)) hmore
  · apply segments_cons (isBlank_of_isQuote hq)
    rw [if_pos hq, List.append_assoc]
    exact throughQuote_of_first (ne_slash_of_isQuote hq) heven hfree more
  · apply segments_cons (isBlank_of_isQuote hq)
    rw [if_pos hq, List.append_nil]
    exact throughQuote_of_not_hasFreeQuote (ne_slash_of_isQuote hq) hfree

namespace Segmentation

variable {text rest : List Char} {row : GappedSegment} {rows : List GappedSegment}

/-- The segmentation of what is behind the first segment. -/
theorem tail (h : Segmentation text (row :: rows) rest) :
    Segmentation (rows.flatMap GappedSegment.text ++ rest) rows rest where
  text_eq := rfl
  blank_gaps := (List.forall_mem_cons.mp h.blank_gaps).2
  blank_rest := h.blank_rest
  forms := (List.forall_mem_cons.mp h.forms).2
  closed := by
    intro next hnext
    refine h.closed next ?_
    rw [List.dropLast_cons_of_ne_nil (List.ne_nil_of_mem (List.dropLast_subset _ hnext))]
    exact List.mem_cons_of_mem _ hnext
  last := by
    intro next hnext
    refine h.last next ?_
    rw [List.getLast?_cons, Option.mem_def.mp hnext]
    rfl
  apart := h.apart.of_cons

/-- Only a segment with nothing behind it is not closed. -/
private theorem eq_nil_of_unclosed (h : Segmentation text (row :: rows) rest)
    (hopen : Unclosed row.segment) : rows.flatMap GappedSegment.text ++ rest = [] := by
  cases rows with
  | nil => exact h.last row rfl hopen
  | cons next rows => exact absurd hopen (h.closed row (List.mem_cons_self ..))

/-- What follows a bare segment does not begin with a bare character. -/
private theorem head_of_bare (h : Segmentation text (row :: rows) rest) (hbare : Bare row.segment) :
    (rows.flatMap GappedSegment.text ++ rest).head?.any isBare = false := by
  cases rows with
  | nil =>
    cases rest with
    | nil => rfl
    | cons c rest => exact isBare_of_isBlank (h.blank_rest c (List.mem_cons_self ..))
  | cons next rows =>
    have hnext := List.mem_cons_of_mem row (List.mem_cons_self (a := next) (l := rows))
    obtain ⟨gap, segment⟩ := next
    cases gap with
    | cons c gap => exact isBare_of_isBlank (h.blank_gaps _ hnext c (List.mem_cons_self ..))
    | nil =>
      -- a segment that touches it is not bare
      rcases h.forms _ hnext with hsegment | hsegment
      · exact absurd rfl ((List.isChain_cons_cons.mp h.apart).1 hbare hsegment)
      · obtain ⟨quote, body, rfl, hq⟩ := begins_with_quote hsegment
        exact isBare_of_isQuote hq

/-- The segments of a segmentation are those that are read. -/
theorem segments_eq (h : Segmentation text rows rest) :
    segments text = rows.map GappedSegment.segment := by
  induction rows generalizing text with
  | nil =>
    rw [← h.text_eq, List.flatMap_nil, List.nil_append, ← List.append_nil rest,
      segments_gap h.blank_rest]
    rfl
  | cons row rows ih =>
    have hread :
        Bare row.segment ∧ (rows.flatMap GappedSegment.text ++ rest).head?.any isBare = false
        ∨ Closed row.segment
        ∨ Unclosed row.segment ∧ rows.flatMap GappedSegment.text ++ rest = [] := by
      rcases h.forms row (List.mem_cons_self ..) with hbare | hclosed | hopen
      · exact Or.inl ⟨hbare, h.head_of_bare hbare⟩
      · exact Or.inr (Or.inl hclosed)
      · exact Or.inr (Or.inr ⟨hopen, h.eq_nil_of_unclosed hopen⟩)
    rw [← h.text_eq, List.flatMap_cons, List.append_assoc, GappedSegment.text, List.append_assoc,
      segments_gap (h.blank_gaps row (List.mem_cons_self ..)), segments_segment hread, ih h.tail,
      List.map_cons]

end Segmentation

/-! ## Every text has one -/

/-- Blanks are a gap. -/
private theorem Segmentation.of_blank {rest : List Char} (h : ∀ c ∈ rest, isBlank c = true) :
    Segmentation rest [] rest where
  text_eq := rfl
  blank_gaps := nofun
  blank_rest := h
  forms := nofun
  closed := nofun
  last := nofun
  apart := .nil

/-- A segment that is not closed ends a text. -/
private theorem Segmentation.of_unclosed {gap segment : List Char}
    (hgap : ∀ c ∈ gap, isBlank c = true) (h : Unclosed segment) :
    Segmentation (gap ++ segment) [⟨gap, segment⟩] [] where
  text_eq := by rw [List.flatMap_singleton, List.append_nil]; rfl
  blank_gaps := List.forall_mem_singleton.mpr hgap
  blank_rest := nofun
  forms := List.forall_mem_singleton.mpr (Or.inr (Or.inr h))
  closed := nofun
  last := fun _ _ _ => rfl
  apart := .singleton _

/-- Any other segment goes in front of a segmentation, unless both are stuck together. -/
theorem Segmentation.cons {more rest : List Char} {rows : List GappedSegment}
    (h : Segmentation more rows rest) {gap segment : List Char}
    (hgap : ∀ c ∈ gap, isBlank c = true)
    (hsegment : Bare segment ∧ more.head?.any isBare = false ∨ Closed segment) :
    Segmentation (gap ++ segment ++ more) (⟨gap, segment⟩ :: rows) rest where
  text_eq := by rw [List.flatMap_cons, List.append_assoc, h.text_eq]; rfl
  blank_gaps := List.forall_mem_cons.mpr ⟨hgap, h.blank_gaps⟩
  blank_rest := h.blank_rest
  forms := List.forall_mem_cons.mpr ⟨hsegment.imp And.left Or.inl, h.forms⟩
  closed := by
    have hclosed : ¬ Unclosed segment := hsegment.elim
      (fun hbare hopen => hbare.1.not_quoted (Or.inr hopen)) Closed.not_unclosed
    cases rows with
    | nil => nofun
    | cons row rows =>
      rw [List.dropLast_cons_of_ne_nil (List.cons_ne_nil _ _)]
      exact List.forall_mem_cons.mpr ⟨hclosed, h.closed⟩
  last := by
    cases rows with
    | nil =>
      intro row hrow hopen
      obtain rfl := Option.mem_some.mp hrow
      exact absurd hopen (hsegment.elim
        (fun hbare hopen => hbare.1.not_quoted (Or.inr hopen)) Closed.not_unclosed)
    | cons row rows => rw [List.getLast?_cons_cons]; exact h.last
  apart := by
    refine h.apart.cons fun next hnext hbare hnextBare hgapNil => ?_
    rcases hsegment with ⟨_, hmore⟩ | hclosed
    · -- the text behind the segment would go on with a bare character
      obtain ⟨rows, rfl⟩ := List.head?_eq_some_iff.mp (Option.mem_def.mp hnext)
      obtain ⟨c, cs, hcs⟩ := List.exists_cons_of_ne_nil hnextBare.1
      rw [← h.text_eq, List.flatMap_cons, GappedSegment.text, hgapNil, hcs] at hmore
      have hc := hnextBare.2 c (hcs ▸ List.mem_cons_self ..)
      exact Bool.false_ne_true (hmore.symm.trans (isBare_eq_true_iff.mpr hc))
    · exact hbare.not_quoted (Or.inl hclosed)

theorem exists_segmentation (text : List Char) : ∃ rows rest, Segmentation text rows rest := by
  have hgap : ∀ c ∈ text.takeWhile isBlank, isBlank c = true :=
    fun c hc => List.mem_takeWhile_imp hc
  have htext : text.takeWhile isBlank ++ text.dropWhile isBlank = text :=
    List.takeWhile_append_dropWhile
  rw [← htext]
  cases hbehind : text.dropWhile isBlank with
  | nil =>
    rw [List.append_nil]
    exact ⟨[], _, .of_blank hgap⟩
  | cons c cs =>
    have hlength : cs.length < text.length := by
      have h := congrArg List.length htext
      rw [hbehind, List.length_append, List.length_cons] at h
      omega
    have hblank : isBlank c = false := by
      have h := List.head?_dropWhile_not isBlank text
      rw [hbehind] at h
      simpa using h
    cases hquote : isQuote c with
    | true =>
      rcases throughQuote_cases (ne_slash_of_isQuote hquote) cs with
        ⟨body, more, rfl, _, heven, hfree⟩ | ⟨_, hfree⟩
      · have hmore : more.length < text.length := by
          rw [List.length_append, List.length_cons] at hlength
          omega
        obtain ⟨rows, rest, h⟩ := exists_segmentation more
        have hcons := h.cons hgap (Or.inr ⟨c, body, hquote, rfl, heven, hfree⟩)
        rw [List.append_assoc, List.cons_append, List.append_assoc] at hcons
        exact ⟨_, rest, hcons⟩
      · exact ⟨_, [], .of_unclosed hgap ⟨c, cs, hquote, rfl, hfree⟩⟩
    | false =>
      have hrun : cs.takeWhile isBare ++ cs.dropWhile isBare = cs :=
        List.takeWhile_append_dropWhile
      have hmore : (cs.dropWhile isBare).length < text.length := by
        have h := congrArg List.length hrun
        rw [List.length_append] at h
        omega
      have hbare : Bare (c :: cs.takeWhile isBare) := by
        refine ⟨List.cons_ne_nil _ _, List.forall_mem_cons.mpr ⟨⟨hblank, hquote⟩, ?_⟩⟩
        exact fun d hd => isBare_eq_true_iff.mp (List.mem_takeWhile_imp hd)
      have hstop : (cs.dropWhile isBare).head?.any isBare = false := by
        have h := List.head?_dropWhile_not isBare cs
        cases hhead : (cs.dropWhile isBare).head? with
        | none => rfl
        | some d => rw [hhead] at h; simpa using h
      obtain ⟨rows, rest, h⟩ := exists_segmentation (cs.dropWhile isBare)
      have hcons := h.cons hgap (Or.inl ⟨hbare, hstop⟩)
      rw [List.append_assoc, List.cons_append, hrun] at hcons
      exact ⟨_, rest, hcons⟩
  termination_by text.length

/-- **Reading segments loses nothing and adds nothing.** The segments of a text are those of a
segmentation of it: in their order, with gaps of blanks between them, and with nothing of the text
left over. A segment has neither blanks nor quotes, or runs from a quote through the next free quote
of the same sort. Only the last one can be without the quote that ends it, and goes on to the end of
the text then. No other row of segments is like that, and each segment is one token. -/
theorem segments_segmentation (text : String) :
    (∀ segs, segments text.toList = segs ↔ ∃ rows rest,
      Segmentation text.toList rows rest ∧ rows.map GappedSegment.segment = segs) ∧
    ofText text = (segments text.toList).map ofWord := by
  refine ⟨fun segs => ⟨?_, ?_⟩, rfl⟩
  · rintro rfl
    obtain ⟨rows, rest, h⟩ := exists_segmentation text.toList
    exact ⟨rows, rest, h, h.segments_eq.symm⟩
  · rintro ⟨rows, rest, h, rfl⟩
    exact h.segments_eq

/-- A quote stuck to a word, a quote with a backslash, and one that is never closed. -/
example : segments "x\"a \\\" b\\\\\" y 'c\" d".toList
    = ["x".toList, "\"a \\\" b\\\\\"".toList, "y".toList, "'c\" d".toList] := by decide +kernel

end PlainCode.Token
