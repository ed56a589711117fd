import PlainCode.Literal.Numeral
import PlainCode.Proofs.Characters
import PlainCode.Proofs.Spans

/-!
# Numerals

What the recogniser of numerals finds is written as a numeral (`numeral_of_numeralAt?`), and what
is written as a numeral is found again where it stands alone (`Numeral.read`). A blank ends a
numeral as the end of the text does (`numeralAt?_append_blank`), and no numeral begins inside a
word, so a word is either a numeral as a whole or has none in it (`cut_numeralAt?_word`).
-/

namespace PlainCode.Literal

open PlainCode.Text (isBlank isDigit isDigit_of_isBlank isWord isWord_of_isBlank isWord_of_isDigit
  ne_of_isBlank ne_of_isWord takeWhile_append_of_stop)

/-! ## How numerals are written -/

/-- Digits, one at least. -/
def Digits (cs : List Char) : Prop := cs ≠ [] ∧ ∀ c ∈ cs, isDigit c = true

/-- How a numeral is written: with a minus sign or without, and with a point or without. -/
inductive Numeral : List Char → Prop where
  | whole {minus ds : List Char} (hminus : minus = [] ∨ minus = ['-']) (hds : Digits ds) :
      Numeral (minus ++ ds)
  | decimal {minus ds es : List Char} (hminus : minus = [] ∨ minus = ['-']) (hds : Digits ds)
      (hes : Digits es) : Numeral (minus ++ ds ++ '.' :: es)

theorem Digits.head {cs : List Char} (h : Digits cs) :
    ∃ d ds, cs = d :: ds ∧ isDigit d = true := by
  obtain ⟨hne, hall⟩ := h
  cases cs with
  | nil => exact absurd rfl hne
  | cons d ds => exact ⟨d, ds, rfl, hall d (List.mem_cons_self ..)⟩

theorem digits_takeWhile {cs : List Char} (h : cs.takeWhile isDigit ≠ []) :
    Digits (cs.takeWhile isDigit) :=
  ⟨h, List.all_eq_true.mp List.all_takeWhile⟩

/-- Digits are taken up to what is no digit. -/
theorem Digits.takeWhile_append {ds : List Char} (h : Digits ds) (cs : List Char)
    (hcs : cs.head?.any isDigit = false) : (ds ++ cs).takeWhile isDigit = ds :=
  takeWhile_append_of_stop h.2 hcs

theorem Digits.dropWhile_append {ds : List Char} (h : Digits ds) (cs : List Char)
    (hcs : cs.head?.any isDigit = false) : (ds ++ cs).dropWhile isDigit = cs := by
  rw [List.dropWhile_append_of_pos h.2]
  cases cs with
  | nil => rfl
  | cons c cs =>
    have hc : isDigit c = false := hcs
    rw [List.dropWhile_cons, hc]
    rfl

/-! ## The parts of a numeral -/

private theorem sign_append (cs : List Char) : (sign cs).1 ++ (sign cs).2 = cs := by
  unfold sign
  split
  next => rfl
  next c cs => split <;> rfl

theorem sign_cases (cs : List Char) : (sign cs).1 = [] ∨ (sign cs).1 = ['-'] := by
  unfold sign
  split
  next => exact Or.inl rfl
  next c cs =>
    split
    next hc => rw [hc]; exact Or.inr rfl
    next => exact Or.inl rfl

private theorem fraction_append (cs : List Char) : (fraction cs).1 ++ (fraction cs).2 = cs := by
  unfold fraction
  split
  next => rfl
  next c cs =>
    split
    next => rw [List.cons_append, List.takeWhile_append_dropWhile]
    next => rfl

private theorem fraction_cases (cs : List Char) :
    (fraction cs).1 = [] ∨ ∃ es, (fraction cs).1 = '.' :: es ∧ Digits es := by
  unfold fraction
  split
  next => exact Or.inl rfl
  next c cs =>
    split
    next hc =>
      obtain ⟨rfl, hhead⟩ := hc
      refine Or.inr ⟨_, rfl, digits_takeWhile ?_⟩
      cases cs with
      | nil => exact absurd hhead (by decide)
      | cons d ds =>
        have hd : isDigit d = true := hhead
        rw [List.takeWhile_cons, if_pos hd]
        exact List.cons_ne_nil _ _
    next => exact Or.inl rfl

/-- The recogniser of numerals, part by part. -/
theorem numeralAt?_eq (before : Option Char) (cs : List Char) :
    numeralAt? before cs =
      if before.any tiesNumeral then none
      else if (sign cs).2.takeWhile isDigit = [] then none
      else if goesOn (fraction ((sign cs).2.dropWhile isDigit)).2 then none
      else some ((sign cs).1 ++ (sign cs).2.takeWhile isDigit ++
        (fraction ((sign cs).2.dropWhile isDigit)).1) := by
  unfold numeralAt?
  split
  next => rfl
  next =>
    obtain ⟨minus, rest⟩ := sign cs
    dsimp only
    cases rest.takeWhile isDigit with
    | nil => rfl
    | cons d ds => rfl

/-- What is found is a numeral, and the text begins with it. -/
theorem numeral_of_numeralAt? {before : Option Char} {cs text : List Char}
    (h : numeralAt? before cs = some text) : Numeral text ∧ ∃ rest, cs = text ++ rest := by
  rw [numeralAt?_eq] at h
  split at h
  next => exact absurd h (by simp)
  next =>
    split at h
    next => exact absurd h (by simp)
    next hdigits =>
      split at h
      next => exact absurd h (by simp)
      next =>
        rw [Option.some.injEq] at h
        subst h
        refine ⟨?_, (fraction ((sign cs).2.dropWhile isDigit)).2, ?_⟩
        · rcases fraction_cases ((sign cs).2.dropWhile isDigit) with hnone | ⟨es, hes, hdig⟩
          · rw [hnone, List.append_nil]
            exact .whole (sign_cases cs) (digits_takeWhile hdigits)
          · rw [hes]
            exact .decimal (sign_cases cs) (digits_takeWhile hdigits) hdig
        · rw [List.append_assoc, fraction_append, List.append_assoc,
            List.takeWhile_append_dropWhile, sign_append]

theorem Numeral.ne_nil {text : List Char} (h : Numeral text) : text ≠ [] := by
  cases h with
  | whole _ hds => simp [hds.1]
  | decimal _ _ _ => simp

theorem numeralAt?_faithful : Recogniser.Faithful numeralAt? := by
  intro before cs text h
  obtain ⟨hnum, hrest⟩ := numeral_of_numeralAt? h
  exact ⟨hnum.ne_nil, hrest⟩

/-! ## A blank ends a numeral -/

section

variable {sep : Char} (hsep : isBlank sep = true)

include hsep

theorem head?_append_blank (cs next : List Char) :
    (cs ++ sep :: next).head?.any isDigit = cs.head?.any isDigit := by
  cases cs with
  | nil => exact isDigit_of_isBlank hsep
  | cons c cs => rfl

private theorem sign_append_blank (cs next : List Char) :
    sign (cs ++ sep :: next) = ((sign cs).1, (sign cs).2 ++ sep :: next) := by
  cases cs with
  | nil => exact if_neg (ne_of_isBlank hsep (by decide))
  | cons c cs =>
    rw [List.cons_append, sign, sign]
    split <;> rfl

theorem takeWhile_append_blank (next : List Char) : ∀ cs : List Char,
    (cs ++ sep :: next).takeWhile isDigit = cs.takeWhile isDigit
  | [] => by
    rw [List.nil_append, List.takeWhile_cons, isDigit_of_isBlank hsep]
    rfl
  | c :: cs => by
    rw [List.cons_append, List.takeWhile_cons, List.takeWhile_cons, takeWhile_append_blank next cs]

theorem dropWhile_append_blank (next : List Char) : ∀ cs : List Char,
    (cs ++ sep :: next).dropWhile isDigit = cs.dropWhile isDigit ++ sep :: next
  | [] => by
    rw [List.nil_append, List.dropWhile_cons, isDigit_of_isBlank hsep]
    rfl
  | c :: cs => by
    rw [List.cons_append, List.dropWhile_cons, List.dropWhile_cons, dropWhile_append_blank next cs]
    split <;> rfl

private theorem fraction_append_blank (cs next : List Char) :
    fraction (cs ++ sep :: next) = ((fraction cs).1, (fraction cs).2 ++ sep :: next) := by
  cases cs with
  | nil => exact if_neg fun h => ne_of_isBlank hsep (by decide) h.1
  | cons c cs =>
    rw [List.cons_append, fraction, fraction, head?_append_blank hsep, takeWhile_append_blank hsep,
      dropWhile_append_blank hsep]
    split <;> rfl

private theorem goesOn_append_blank (cs next : List Char) :
    goesOn (cs ++ sep :: next) = goesOn cs := by
  cases cs with
  | nil =>
    have hpoint : (sep == '.') = false := beq_eq_false_iff_ne.mpr (ne_of_isBlank hsep (by decide))
    rw [List.nil_append, goesOn.eq_2, isWord_of_isBlank hsep, hpoint]
    rfl
  | cons c cs => rw [List.cons_append, goesOn, goesOn, head?_append_blank hsep]

/-- A numeral in front of a blank is one at the end of a text. -/
theorem numeralAt?_append_blank (before : Option Char) (cs next : List Char) :
    numeralAt? before (cs ++ sep :: next) = numeralAt? before cs := by
  rw [numeralAt?_eq, numeralAt?_eq, sign_append_blank hsep]
  simp only [takeWhile_append_blank hsep, dropWhile_append_blank hsep, fraction_append_blank hsep,
    goesOn_append_blank hsep]

private theorem tiesNumeral_of_isBlank : tiesNumeral sep = false := by
  rw [tiesNumeral, isWord_of_isBlank hsep]
  exact beq_eq_false_iff_ne.mpr (ne_of_isBlank hsep (by decide))

theorem numeralAt?_stopsAt (next : List Char) :
    Recogniser.StopsAt numeralAt? (fun _ => false) sep next where
  keeps := fun h => (numeralAt?_append_blank hsep ..).trans h
  misses := fun _ h => (numeralAt?_append_blank hsep _ (_ :: _) next).trans h
  misses_sep := by
    intro before
    rw [← List.nil_append (sep :: next), numeralAt?_append_blank hsep, numeralAt?_eq]
    split <;> rfl
  begins := by
    rw [numeralAt?_eq, numeralAt?_eq, Option.any_some, tiesNumeral_of_isBlank hsep]
    rfl

end

/-! ## Reading numerals again -/

theorem sign_of_digits {minus ds : List Char} (hminus : minus = [] ∨ minus = ['-'])
    (hds : Digits ds) (cs : List Char) : sign (minus ++ ds ++ cs) = (minus, ds ++ cs) := by
  obtain ⟨d, ds, rfl, hd⟩ := hds.head
  rcases hminus with rfl | rfl
  · have hne : d ≠ '-' := ne_of_isWord (isWord_of_isDigit hd) (by decide)
    show sign (d :: (ds ++ cs)) = _
    rw [sign, if_neg hne]
    rfl
  · rfl

/-- A numeral that stands alone is found as a whole. -/
theorem Numeral.read {text : List Char} (h : Numeral text) : numeralAt? none text = some text := by
  rw [numeralAt?_eq, if_neg (by decide)]
  cases h with
  | @whole minus ds hminus hds =>
    have hsign := sign_of_digits hminus hds []
    rw [List.append_nil, List.append_nil] at hsign
    have htake := hds.takeWhile_append [] rfl
    have hdrop := hds.dropWhile_append [] rfl
    rw [List.append_nil] at htake hdrop
    rw [hsign]
    simp only [htake, hdrop, if_neg hds.1]
    simp [fraction, goesOn]
  | @decimal minus ds es hminus hds hes =>
    have htake := hes.takeWhile_append [] rfl
    have hdrop := hes.dropWhile_append [] rfl
    rw [List.append_nil] at htake hdrop
    obtain ⟨e, es', hhead, he⟩ := hes.head
    have hfrac : fraction ('.' :: es) = ('.' :: es, []) := by
      rw [fraction, if_pos ⟨rfl, by rw [hhead]; exact he⟩, htake, hdrop]
    rw [sign_of_digits hminus hds ('.' :: es)]
    simp only [hds.takeWhile_append ('.' :: es) rfl,
      hds.dropWhile_append ('.' :: es) rfl, if_neg hds.1, hfrac]
    rfl

theorem Numeral.cut {text : List Char} (h : Numeral text) :
    Cut numeralAt? none text [⟨false, []⟩, ⟨true, text⟩, ⟨false, []⟩] := by
  have hfind := h.read
  rw [← List.append_nil text] at hfind
  have hcut := Cut.literal h.ne_nil (hfind.trans (by rw [List.append_nil])) .nil
  rwa [List.append_nil] at hcut

/-- The characters of a numeral. -/
theorem Numeral.mem {text : List Char} (h : Numeral text) {c : Char} (hc : c ∈ text) :
    isDigit c = true ∨ c = '-' ∨ c = '.' := by
  have hsign : ∀ {minus : List Char}, (minus = [] ∨ minus = ['-']) → c ∈ minus → c = '-' := by
    rintro minus (rfl | rfl) hm
    · exact absurd hm List.not_mem_nil
    · exact List.mem_singleton.mp hm
  cases h with
  | whole hminus hds =>
    rcases List.mem_append.mp hc with hm | hd
    · exact Or.inr (Or.inl (hsign hminus hm))
    · exact Or.inl (hds.2 c hd)
  | decimal hminus hds hes =>
    rcases List.mem_append.mp hc with hfront | hback
    · rcases List.mem_append.mp hfront with hm | hd
      · exact Or.inr (Or.inl (hsign hminus hm))
      · exact Or.inl (hds.2 c hd)
    · rcases List.mem_cons.mp hback with hpoint | he
      · exact Or.inr (Or.inr hpoint)
      · exact Or.inl (hes.2 c he)

/-- What holds of word characters, of the minus sign and of the point holds of all characters of a
numeral. -/
theorem Numeral.forall_mem {p : Char → Prop} {text : List Char} (h : Numeral text)
    (hword : ∀ c, isWord c = true → p c) (hminus : p '-') (hpoint : p '.') : ∀ c ∈ text, p c := by
  intro c hc
  rcases h.mem hc with hdigit | rfl | rfl
  · exact hword c (isWord_of_isDigit hdigit)
  · exact hminus
  · exact hpoint

/-! ## Words -/

private theorem numeralAt?_behind_word {c : Char} (hc : isWord c = true) (cs : List Char) :
    numeralAt? (some c) cs = none := by
  have hties : (some c).any tiesNumeral = true := by simp [tiesNumeral, hc]
  rw [numeralAt?_eq, if_pos hties]

theorem cut_numeralAt?_behind_word : ∀ {cs : List Char} {c : Char}, isWord c = true →
    (∀ d ∈ cs, isWord d = true) → Cut numeralAt? (some c) cs [⟨false, cs⟩]
  | [], _, _, _ => .nil
  | d :: _, _, hc, h =>
    .plain (numeralAt?_behind_word hc _) (cut_numeralAt?_behind_word (h d (List.mem_cons_self ..))
      fun e he => h e (List.mem_cons_of_mem _ he))

/-- A word goes on where its digits end. -/
private theorem goesOn_dropWhile {cs : List Char} (hword : ∀ c ∈ cs, isWord c = true)
    (hother : ¬ ∀ c ∈ cs, isDigit c = true) :
    goesOn (fraction (cs.dropWhile isDigit)).2 = true := by
  cases hdrop : cs.dropWhile isDigit with
  | nil =>
    have hall : cs.takeWhile isDigit = cs := by
      rw [← List.append_nil (cs.takeWhile isDigit), ← hdrop, List.takeWhile_append_dropWhile]
    exact absurd (hall ▸ List.all_eq_true.mp List.all_takeWhile) hother
  | cons d ds =>
    have hd : isWord d = true := by
      apply hword
      rw [← List.takeWhile_append_dropWhile (p := isDigit) (l := cs), hdrop]
      exact List.mem_append_right _ (List.mem_cons_self ..)
    have hne : d ≠ '.' := ne_of_isWord hd (by decide)
    rw [fraction, if_neg fun h => hne h.1, goesOn, hd]
    rfl

/-- A word with anything but digits in it has no numeral in it. -/
theorem cut_numeralAt?_word {cs : List Char} (hword : ∀ c ∈ cs, isWord c = true)
    (hother : ¬ ∀ c ∈ cs, isDigit c = true) : Cut numeralAt? none cs [⟨false, cs⟩] := by
  cases cs with
  | nil => exact .nil
  | cons c cs =>
    have hc : isWord c = true := hword c (List.mem_cons_self ..)
    have hsign : sign (c :: cs) = ([], c :: cs) := by
      rw [sign, if_neg (ne_of_isWord hc (by decide))]
    -- further on there is a word character in front; here the word goes on behind its digits
    refine .plain ?_ (cut_numeralAt?_behind_word hc fun d hd => hword d (List.mem_cons_of_mem _ hd))
    rw [numeralAt?_eq, hsign]
    dsimp only
    rw [goesOn_dropWhile hword hother, if_pos rfl, ite_self, ite_self]

end PlainCode.Literal
