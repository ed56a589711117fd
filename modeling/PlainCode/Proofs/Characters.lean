import Mathlib.Data.List.Basic
import PlainCode.Literal.Quoted
import PlainCode.Text.Blank
import PlainCode.Text.Digit
import PlainCode.Text.Lowercase
import PlainCode.Text.Word

/-!
# What the tables of characters say about each other

The classes of characters are tables of ranges, and no table mentions another one. Everything that
cuts a text into words, numerals and literals relies on how they lie to each other all the same:
blanks and quotes are never part of a word, digits always are, and a small letter is its own small
form.

Each such fact is one comparison of two tables (`Ranges.apart`, `Ranges.within`,
`CaseRun.misses`), made once over the ranges and lifted to all characters by what
`Ranges.has` and `smallCode` can answer at all (`Ranges.has_elim`, `smallCode_cases`).
-/

namespace PlainCode.Text

/-! ## Ranges -/

/-- A code point that is found lies in one of the ranges. -/
theorem Ranges.has_elim : ∀ {rs : Ranges} {n : Nat}, rs.has n = true → ∃ r ∈ rs, r.1 ≤ n ∧ n ≤ r.2
  | [], _, h => by simp [Ranges.has] at h
  | (first, last) :: rest, n, h => by
    unfold Ranges.has at h
    split at h
    next => simp at h
    next hge =>
      rw [Bool.or_eq_true, decide_eq_true_eq] at h
      rcases h with hle | hrest
      · exact ⟨(first, last), List.mem_cons_self .., by omega, hle⟩
      · obtain ⟨r, hr, hlo, hhi⟩ := Ranges.has_elim hrest
        exact ⟨r, List.mem_cons_of_mem _ hr, hlo, hhi⟩

/-- In ascending ranges a code point of any range is found. -/
theorem Ranges.has_intro : ∀ {rs : Ranges}, rs.Pairwise (fun r s => r.1 ≤ s.1) →
    ∀ {r : Nat × Nat} {n : Nat}, r ∈ rs → r.1 ≤ n → n ≤ r.2 → rs.has n = true
  | [], _, _, _, hr, _, _ => by cases hr
  | (first, last) :: rest, hasc, r, n, hr, hlo, hhi => by
    obtain ⟨hfirst, hrest⟩ := List.pairwise_cons.mp hasc
    unfold Ranges.has
    rcases List.mem_cons.mp hr with rfl | hmem
    · simp only [show ¬ n < first by omega, if_false, Bool.or_eq_true, decide_eq_true_eq]
      exact Or.inl hhi
    · have hge : first ≤ r.1 := hfirst r hmem
      simp only [show ¬ n < first by omega, if_false, Bool.or_eq_true]
      exact Or.inr (Ranges.has_intro hrest hmem hlo hhi)

/-- Whether no code point lies in both sets. -/
def Ranges.apart (rs ss : Ranges) : Bool :=
  rs.all fun r => ss.all fun s => Nat.blt r.2 s.1 || Nat.blt s.2 r.1

/-- Whether each range of the first set lies in one of the second. -/
def Ranges.within (rs ss : Ranges) : Bool :=
  rs.all fun r => ss.any fun s => Nat.ble s.1 r.1 && Nat.ble r.2 s.2

theorem Ranges.has_eq_false_of_apart {rs ss : Ranges} (hap : rs.apart ss = true) {n : Nat}
    (h : rs.has n = true) : ss.has n = false := by
  rw [Bool.eq_false_iff]
  intro hs
  obtain ⟨r, hr, hrlo, hrhi⟩ := Ranges.has_elim h
  obtain ⟨s, hsm, hslo, hshi⟩ := Ranges.has_elim hs
  have hone := List.all_eq_true.mp (List.all_eq_true.mp hap r hr) s hsm
  rw [Bool.or_eq_true, Nat.blt_eq, Nat.blt_eq] at hone
  omega

theorem Ranges.has_of_within {rs ss : Ranges} (hin : rs.within ss = true)
    (hasc : (ss.map Prod.fst).IsChain (· ≤ ·)) {n : Nat} (h : rs.has n = true) :
    ss.has n = true := by
  obtain ⟨r, hr, hlo, hhi⟩ := Ranges.has_elim h
  obtain ⟨s, hs, hsr⟩ := List.any_eq_true.mp (List.all_eq_true.mp hin r hr)
  rw [Bool.and_eq_true, Nat.ble_eq, Nat.ble_eq] at hsr
  exact Ranges.has_intro (List.pairwise_map.mp hasc.pairwise) hs (by omega) (by omega)

/-! ## Words, blanks and digits -/

/-- No word has a blank in it. -/
theorem isBlank_of_isWord {c : Char} (h : isWord c = true) : isBlank c = false :=
  Ranges.has_eq_false_of_apart (show wordRanges.apart blankRanges = true by decide +kernel) h

/-- A digit can stand in a word. -/
theorem isWord_of_isDigit {c : Char} (h : isDigit c = true) : isWord c = true :=
  Ranges.has_of_within (show digits.within wordRanges = true by decide +kernel)
    (show (wordRanges.map Prod.fst).IsChain (· ≤ ·) by decide +kernel) h

/-- A character that is no word character is not one that is. -/
theorem ne_of_isWord {c d : Char} (h : isWord c = true) (hd : isWord d = false) : c ≠ d := by
  rintro rfl
  rw [hd] at h
  exact absurd h (by decide)

theorem isQuote_cases {c : Char} (h : Literal.isQuote c = true) : c = '"' ∨ c = '\'' := by
  simpa [Literal.isQuote] using h

/-- No word has a quote in it. -/
theorem isQuote_of_isWord {c : Char} (h : isWord c = true) : Literal.isQuote c = false := by
  rw [Bool.eq_false_iff]
  intro hq
  rcases isQuote_cases hq with rfl | rfl
  · exact absurd h (by decide)
  · exact absurd h (by decide)

/-- No quote is blank. -/
theorem isBlank_of_isQuote {c : Char} (h : Literal.isQuote c = true) : isBlank c = false := by
  rcases isQuote_cases h with rfl | rfl
  · decide
  · decide

/-- A run of one class ends where the class does. -/
theorem takeWhile_append_of_stop {α : Type} {p : α → Bool} {cs rest : List α}
    (hcs : ∀ c ∈ cs, p c = true) (hrest : rest.head?.any p = false) :
    (cs ++ rest).takeWhile p = cs := by
  rw [List.takeWhile_append_of_pos hcs]
  cases rest with
  | nil => exact List.append_nil cs
  | cons d ds =>
    have hd : p d = false := hrest
    rw [List.takeWhile_cons, hd]
    exact List.append_nil cs

/-! ## Small letters -/

/-- A character that lowering a text leaves alone, wherever it stands. -/
def IsSmall (c : Char) : Prop := c ≠ 'Σ' ∧ smallForm c = [c]

instance (c : Char) : Decidable (IsSmall c) := inferInstanceAs (Decidable (_ ∧ _))

/-- A code point has no small form, or it is one of those of a run, as far from its first. -/
theorem smallCode_cases : ∀ (runs : List CaseRun) (n : Nat), smallCode runs n = n ∨
    ∃ run ∈ runs, ∃ k ≤ run.last - run.first, k % run.step = 0 ∧ smallCode runs n = run.small + k
  | [], _ => Or.inl rfl
  | run :: runs, n => by
    unfold smallCode
    split
    next => exact Or.inl rfl
    next hge =>
      split
      next hin =>
        rw [Bool.and_eq_true, decide_eq_true_eq, beq_iff_eq] at hin
        exact Or.inr ⟨run, List.mem_cons_self .., n - run.first, by omega, hin.2, rfl⟩
      next =>
        rcases smallCode_cases runs n with hself | ⟨r, hr, hk⟩
        · exact Or.inl hself
        · exact Or.inr ⟨r, List.mem_cons_of_mem _ hr, hk⟩

/-- A code point that no run holds is its own small form. -/
theorem smallCode_eq_self : ∀ {runs : List CaseRun} {n : Nat},
    (∀ run ∈ runs, run.first ≤ n → n ≤ run.last → (n - run.first) % run.step ≠ 0) →
    smallCode runs n = n
  | [], _, _ => rfl
  | run :: runs, n, h => by
    unfold smallCode
    split
    next => rfl
    next hge =>
      rw [if_neg]
      · exact smallCode_eq_self fun r hr => h r (List.mem_cons_of_mem _ hr)
      · rw [Bool.and_eq_true, decide_eq_true_eq, beq_iff_eq]
        exact fun hin => h run (List.mem_cons_self ..) (by omega) hin.1 hin.2

/-- Whether no small form of a run has a small form in another run: the two stretches of code
points are apart, or they alternate. -/
def CaseRun.misses (run other : CaseRun) : Bool :=
  Nat.blt other.last run.small || Nat.blt (run.small + (run.last - run.first)) other.first ||
    ((Nat.beq run.step 2 || Nat.beq run.first run.last) && Nat.beq other.step 2 &&
      Nat.beq ((run.small + other.first) % 2) 1)

/-- Whether the small forms of a run are characters, and none of them is the dotted capital I or
the capital sigma, which have rules of their own. -/
def CaseRun.plain (run : CaseRun) : Bool :=
  Nat.blt (run.small + (run.last - run.first)) 0x130 ||
    (Nat.blt 0x130 run.small && Nat.blt (run.small + (run.last - run.first)) 0x3A3) ||
    (Nat.blt 0x3A3 run.small && Nat.blt (run.small + (run.last - run.first)) 0xD800) ||
    (Nat.blt 0xDFFF run.small && Nat.blt (run.small + (run.last - run.first)) 0x110000)

private theorem caseRuns_miss : (caseRuns.all fun run => caseRuns.all run.misses) = true := by
  decide +kernel

private theorem caseRuns_plain : caseRuns.all CaseRun.plain = true := by decide +kernel

private theorem CaseRun.not_hit {run other : CaseRun} (h : run.misses other = true) {k : Nat}
    (hk : k ≤ run.last - run.first) (hstep : k % run.step = 0) (hlo : other.first ≤ run.small + k)
    (hhi : run.small + k ≤ other.last) : (run.small + k - other.first) % other.step ≠ 0 := by
  simp only [CaseRun.misses, Bool.or_eq_true, Bool.and_eq_true, Nat.blt_eq, Nat.beq_eq] at h
  rcases h with (hbelow | habove) | ⟨⟨heven, htwo⟩, hodd⟩
  · omega
  · omega
  · -- both step by two, so the parity of the first ones decides
    rw [htwo]
    rcases heven with hrun | hone
    · rw [hrun] at hstep
      omega
    · omega

/-- The small forms of a run have no other small form. -/
private theorem smallCode_small {run : CaseRun} (hrun : run ∈ caseRuns) {k : Nat}
    (hk : k ≤ run.last - run.first) (hstep : k % run.step = 0) :
    smallCode caseRuns (run.small + k) = run.small + k := by
  apply smallCode_eq_self
  intro other hother hlo hhi
  exact CaseRun.not_hit (List.all_eq_true.mp (List.all_eq_true.mp caseRuns_miss run hrun) other
    hother) hk hstep hlo hhi

private theorem CaseRun.small_plain {run : CaseRun} (h : run.plain = true) {k : Nat}
    (hk : k ≤ run.last - run.first) : run.small + k ≠ 0x130 ∧ run.small + k ≠ 0x3A3 ∧
    (run.small + k).isValidChar := by
  simp only [CaseRun.plain, Bool.or_eq_true, Bool.and_eq_true, Nat.blt_eq] at h
  unfold Nat.isValidChar
  omega

private theorem toNat_ofNat {n : Nat} (h : n.isValidChar) : (Char.ofNat n).toNat = n := by
  rw [Char.ofNat, dif_pos h]
  rfl

theorem smallForm_of_ne {c : Char} (h : c ≠ 'İ') :
    smallForm c = [Char.ofNat (smallCode caseRuns c.toNat)] := by
  unfold smallForm
  rw [if_neg h]

/-- The small form of a character is made of small letters. -/
private theorem isSmall_of_mem_smallForm {c d : Char} (hc : c ≠ 'Σ') (hd : d ∈ smallForm c) :
    IsSmall d := by
  by_cases hi : c = 'İ'
  · subst hi
    simp only [smallForm, if_true, List.mem_cons, List.not_mem_nil, or_false] at hd
    rcases hd with rfl | rfl
    · decide
    · decide
  · rw [smallForm_of_ne hi, List.mem_singleton] at hd
    rcases smallCode_cases caseRuns c.toNat with hself | ⟨run, hrun, k, hk, hstep, hsmall⟩
    · rw [hself, Char.ofNat_toNat] at hd
      subst hd
      exact ⟨hc, by rw [smallForm_of_ne hi, hself, Char.ofNat_toNat]⟩
    · obtain ⟨hni, hns, hvalid⟩ :=
        CaseRun.small_plain (List.all_eq_true.mp caseRuns_plain run hrun) hk
      have hdn : d.toNat = run.small + k := by rw [hd, hsmall, toNat_ofNat hvalid]
      refine ⟨fun he => hns (by rw [← hdn, he]; rfl), ?_⟩
      rw [smallForm_of_ne (fun he => hni (by rw [← hdn, he]; rfl)), hdn,
        smallCode_small hrun hk hstep, ← hdn, Char.ofNat_toNat]

/-- Lowering leaves nothing but small letters. -/
theorem isSmall_of_mem_lowerAfter : ∀ (cs : List Char) (cased : Bool),
    ∀ d ∈ lowerAfter cased cs, IsSmall d
  | [], _, _, hd => by cases hd
  | c :: cs, cased, d, hd => by
    unfold lowerAfter at hd
    rcases List.mem_append.mp hd with hhead | htail
    · by_cases hs : c = 'Σ'
      · rw [if_pos hs, List.mem_singleton] at hhead
        split at hhead
        · subst hhead; decide
        · subst hhead; decide
      · rw [if_neg hs] at hhead
        exact isSmall_of_mem_smallForm hs hhead
    · exact isSmall_of_mem_lowerAfter cs _ d htail

/-- Lowering leaves small letters as they are. -/
theorem lowerAfter_of_isSmall : ∀ (cs : List Char) (cased : Bool), (∀ c ∈ cs, IsSmall c) →
    lowerAfter cased cs = cs
  | [], _, _ => rfl
  | c :: cs, cased, h => by
    obtain ⟨hs, hform⟩ := h c (List.mem_cons_self ..)
    unfold lowerAfter
    rw [if_neg hs, hform, lowerAfter_of_isSmall cs _ fun d hd => h d (List.mem_cons_of_mem _ hd)]
    rfl

/-! ## Blanks between words -/

section

variable {sep : Char} (hsep : isBlank sep = true)

include hsep

theorem isWord_of_isBlank : isWord sep = false := by
  rw [Bool.eq_false_iff]
  intro hword
  rw [isBlank_of_isWord hword] at hsep
  exact Bool.false_ne_true hsep

theorem isDigit_of_isBlank : isDigit sep = false := by
  rw [Bool.eq_false_iff]
  intro hdigit
  exact Bool.false_ne_true ((isWord_of_isBlank hsep).symm.trans (isWord_of_isDigit hdigit))

theorem isQuote_of_isBlank : Literal.isQuote sep = false := by
  rw [Bool.eq_false_iff]
  intro hquote
  rw [isBlank_of_isQuote hquote] at hsep
  exact Bool.false_ne_true hsep

/-- A blank is none of the characters that are not blank. -/
theorem ne_of_isBlank {c : Char} (hc : isBlank c = false) : sep ≠ c := by
  rintro rfl
  exact Bool.false_ne_true (hc.symm.trans hsep)

theorem isCased_of_isBlank : isCased sep = false :=
  Ranges.has_eq_false_of_apart (show blankRanges.apart casedRanges = true by decide +kernel) hsep

theorem isIgnorable_of_isBlank : isIgnorable sep = false :=
  Ranges.has_eq_false_of_apart (show blankRanges.apart ignorableRanges = true by decide +kernel)
    hsep

private theorem isSmall_of_isBlank : IsSmall sep := by
  -- no blank lies in a run of letters that have small forms
  have hruns : (caseRuns.all fun run => blankRanges.all fun r =>
      Nat.blt r.2 run.first || Nat.blt run.last r.1) = true := by decide +kernel
  obtain ⟨r, hr, hlo, hhi⟩ := Ranges.has_elim hsep
  have hself : smallCode caseRuns sep.toNat = sep.toNat := by
    refine smallCode_eq_self fun run hrun hfirst hlast => ?_
    have hone := List.all_eq_true.mp (List.all_eq_true.mp hruns run hrun) r hr
    rw [Bool.or_eq_true, Nat.blt_eq, Nat.blt_eq] at hone
    omega
  refine ⟨ne_of_isBlank hsep (by decide), ?_⟩
  rw [smallForm_of_ne (ne_of_isBlank hsep (by decide)), hself, Char.ofNat_toNat]

/-- A blank ends what a capital sigma looks at. -/
private theorem goesOnCased_append_blank (cs ds : List Char) :
    goesOnCased (cs ++ sep :: ds) = goesOnCased cs := by
  induction cs with
  | nil =>
    rw [List.nil_append, goesOnCased.eq_2, isIgnorable_of_isBlank hsep, isCased_of_isBlank hsep]
    rfl
  | cons c cs ih =>
    rw [List.cons_append, goesOnCased, goesOnCased, ih]

/-- Lowering does not look across a blank. -/
theorem lowerAfter_append_blank (ds : List Char) : ∀ (cs : List Char) (cased : Bool),
    lowerAfter cased (cs ++ sep :: ds) = lowerAfter cased cs ++ sep :: lowerAfter false ds
  | [], _ => by
    obtain ⟨hne, hform⟩ := isSmall_of_isBlank hsep
    rw [List.nil_append, lowerAfter.eq_2, if_neg hne, hform, isIgnorable_of_isBlank hsep,
      isCased_of_isBlank hsep]
    rfl
  | c :: cs, cased => by
    rw [List.cons_append, lowerAfter, lowerAfter, goesOnCased_append_blank hsep,
      lowerAfter_append_blank ds cs, List.append_assoc]

end

end PlainCode.Text
