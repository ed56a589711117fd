import PlainCode.Proofs.Hoisting

/-!
# Counting loops

Where the bounds and the step of a counting loop are whole numbers, its header can be run. In Python
it names a range, which is given by a formula. In Java and C++ it says where to begin, how long to
go on and how to change the counter, and which numbers come of that shows only when the loop is run.
`loop_counts_range` is that the counter goes through the same numbers, and that they come to an end.

Headers are read from the code that was written, with readers that know nothing of how they were
written (`Loop.read?`, `Range.read?`). That a loop goes through a range is an induction over its run
(`Loop.Takes.getElem?`), carried by the fact that the counter moves towards the end that it is
compared with (`Loop.Approaches`).
-/

namespace PlainCode

open PlainCode.Text (Ranges)

/-- The ten digits are digits. -/
private theorem Text.isDigit_of_ascii {c : Char} (h : c.isDigit = true) :
    Text.isDigit c = true := by
  have hten : Ranges.has [(48, 57)] c.toNat = true := by
    obtain ⟨hlo, hhi⟩ : 48 ≤ c.toNat ∧ c.toNat ≤ 57 := by
      simpa [Char.isDigit, UInt32.le_iff_toNat_le] using h
    exact Ranges.has_intro (List.pairwise_singleton ..) (List.mem_singleton.mpr rfl) hlo hhi
  exact Ranges.has_of_within (by decide +kernel) (by decide +kernel) hten

namespace Code

/-! ## Whole numbers -/

/-- Whether characters are digits of a number: no zero is in front of others. -/
def isWhole (ds : List Char) : Bool :=
  !ds.isEmpty && ds.all Char.isDigit && (ds == ['0'] || ds.head? != some '0')

/-- A whole number as it is written. -/
structure Whole where
  negative : Bool
  digits : List Char
  wf : isWhole digits = true

namespace Whole

/-- How far a number is from zero. -/
def size (n : Whole) : Nat := Nat.ofDigitChars 10 n.digits 0

/-- The number that is written. -/
def value (n : Whole) : Int := if n.negative then -n.size else n.size

/-- The minus sign of a number, if it has one. -/
def minus (n : Whole) : List Char := if n.negative then ['-'] else []

/-- A number as a text. -/
def text (n : Whole) : String := String.ofList (n.minus ++ n.digits)

/-- A number without its minus sign. -/
def abs (n : Whole) : Whole := { n with negative := false }

theorem digits_ascii (n : Whole) : ∀ c ∈ n.digits, c.isDigit = true := by
  have hwf := n.wf
  rw [isWhole, Bool.and_eq_true, Bool.and_eq_true, List.all_eq_true] at hwf
  exact hwf.1.2

theorem digits_digits (n : Whole) : Literal.Digits n.digits := by
  have hwf := n.wf
  rw [isWhole, Bool.and_eq_true, Bool.and_eq_true, Bool.not_eq_true', List.isEmpty_eq_false_iff]
    at hwf
  exact ⟨hwf.1.1, fun c hc => Text.isDigit_of_ascii (n.digits_ascii c hc)⟩

theorem toList_text (n : Whole) : n.text.toList = n.minus ++ n.digits := String.toList_ofList ..

theorem text_eq_iff {n : Whole} {s : String} : n.text = s ↔ n.minus ++ n.digits = s.toList := by
  rw [← toList_text, String.toList_inj]

theorem text_eq_one (n : Whole) : n.text = "1" ↔ n.negative = false ∧ n.digits = ['1'] := by
  rw [text_eq_iff, minus]
  cases n.negative with
  | false => exact ⟨fun h => ⟨rfl, h⟩, And.right⟩
  | true =>
    constructor
    · intro h
      cases h
    · exact fun h => absurd h.1.symm Bool.false_ne_true

/-- No digit is a minus sign. -/
theorem digits_ne_minus (n : Whole) (ds : List Char) : n.digits ≠ '-' :: ds := by
  intro h
  have hminus := n.digits_ascii '-' (h ▸ List.mem_cons_self ..)
  cases hminus

private theorem text_eq_minus_one (n : Whole) :
    n.text = "-1" ↔ n.negative = true ∧ n.digits = ['1'] := by
  rw [text_eq_iff, minus]
  cases n.negative with
  | false =>
    constructor
    · exact fun h => absurd h (n.digits_ne_minus _)
    · exact fun h => absurd h.1 Bool.false_ne_true
  | true => exact ⟨fun h => ⟨rfl, (List.cons.inj h).2⟩, fun h => by rw [h.2]; rfl⟩

private theorem head?_text (n : Whole) : n.text.toList.head? = some '-' ↔ n.negative = true := by
  rw [toList_text, minus]
  cases n.negative with
  | true => exact ⟨fun _ => rfl, fun _ => rfl⟩
  | false =>
    refine ⟨fun h => ?_, fun h => absurd h Bool.false_ne_true⟩
    obtain ⟨ds, hds⟩ := List.head?_eq_some_iff.mp h
    exact absurd hds (n.digits_ne_minus ds)

theorem minus_cases (n : Whole) : n.minus = [] ∨ n.minus = ['-'] := by
  unfold minus
  split
  next => exact Or.inr rfl
  next => exact Or.inl rfl

/-- The number that a text begins with, and the rest of the text. -/
def read? (cs : List Char) : Option (Whole × List Char) :=
  let (minus, rest) := Literal.sign cs
  let ds := rest.takeWhile Char.isDigit
  if h : isWhole ds then some (⟨!minus.isEmpty, ds, h⟩, rest.dropWhile Char.isDigit) else none

end Whole

/-! ## Headers -/

/-- What the counter of a loop is compared with the end for. -/
inductive Compare where
  | less
  | greater

/-- How the counter of a loop changes. -/
inductive Update where
  | up
  | down
  | add (n : Whole)
  | subtract (n : Whole)

/-- The header of a counting loop in a language with braces. -/
structure Loop where
  start : Whole
  compare : Compare
  stop : Whole
  update : Update

/-- The range that a Python loop goes through. -/
structure Range where
  start : Whole
  stop : Whole
  step : Option Whole

/-- The sign of a comparison. -/
def Compare.text : Compare → String
  | .less => "<"
  | .greater => ">"

/-- The change of a counter as it stands in the header of a loop. -/
def Update.text (counter : String) : Update → String
  | .up => counter ++ "++"
  | .down => counter ++ "--"
  | .add n => counter ++ " += " ++ n.text
  | .subtract n => counter ++ " -= " ++ n.text

/-- The header of a counting loop as a text. -/
def Loop.text (counter : String) (l : Loop) : String :=
  "for (int " ++ counter ++ " = " ++ l.start.text ++ "; " ++ counter ++ " " ++ l.compare.text ++
    " " ++ l.stop.text ++ "; " ++ l.update.text counter ++ ")"

/-- The header of a loop over a range. Without a step it says no third number. -/
def Range.text (counter : String) (r : Range) : String :=
  "for " ++ counter ++ " in range(" ++ r.start.text ++ ", " ++ r.stop.text ++
    (match r.step with
      | none => ""
      | some n => ", " ++ n.text) ++ ")"

/-- What is behind a text that another one begins with. -/
def behind? (text : String) (cs : List Char) : Option (List Char) := cs.dropPrefix? text.toList

/-- The comparison that a text begins with. -/
def Compare.read? : List Char → Option (Compare × List Char)
  | '<' :: cs => some (.less, cs)
  | '>' :: cs => some (.greater, cs)
  | _ => none

/-- The change of a counter that a text begins with. -/
def Update.read? (counter : String) (cs : List Char) : Option (Update × List Char) := do
  let cs ← behind? counter cs
  match cs with
  | '+' :: '+' :: cs => return (.up, cs)
  | '-' :: '-' :: cs => return (.down, cs)
  | ' ' :: '+' :: '=' :: ' ' :: cs =>
    let (n, cs) ← Whole.read? cs
    return (.add n, cs)
  | ' ' :: '-' :: '=' :: ' ' :: cs =>
    let (n, cs) ← Whole.read? cs
    return (.subtract n, cs)
  | _ => none

/-- The loop that a text begins with, up to the bracket that closes its header. -/
def Loop.read? (counter : String) (cs : List Char) : Option (Loop × List Char) := do
  let cs ← behind? "for (int " cs
  let cs ← behind? counter cs
  let (start, cs) ← Whole.read? (← behind? " = " cs)
  let cs ← behind? counter (← behind? "; " cs)
  let (compare, cs) ← Compare.read? (← behind? " " cs)
  let (stop, cs) ← Whole.read? (← behind? " " cs)
  let (update, cs) ← Update.read? counter (← behind? "; " cs)
  return (⟨start, compare, stop, update⟩, ← behind? ")" cs)

/-- The range that a text begins with, up to the bracket that closes its header. -/
def Range.read? (counter : String) (cs : List Char) : Option (Range × List Char) := do
  let cs ← behind? "for " cs
  let cs ← behind? counter cs
  let (start, cs) ← Whole.read? (← behind? " in range(" cs)
  let (stop, cs) ← Whole.read? (← behind? ", " cs)
  match behind? ", " cs with
  | none => return (⟨start, stop, none⟩, ← behind? ")" cs)
  | some cs =>
    let (step, cs) ← Whole.read? cs
    return (⟨start, stop, some step⟩, ← behind? ")" cs)

/-! ## What is written is read -/

theorem behind?_append (text : String) (cs : List Char) :
    behind? text (text.toList ++ cs) = some cs :=
  List.dropPrefix?_eq_some_iff.mpr ⟨text.toList, rfl, BEq.rfl⟩

/-- Whether a text begins with something that is no digit. -/
def endsNumber (text : String) : Bool := text.toList.head?.any fun c => !c.isDigit

section

variable {between : String} (h : endsNumber between = true) (cs : List Char)
include h

/-- A number is read up to what is no digit. -/
theorem Whole.read?_append (n : Whole) :
    Whole.read? (n.text.toList ++ (between.toList ++ cs)) = some (n, between.toList ++ cs) := by
  obtain ⟨d, ds, hcs, hd⟩ : ∃ d ds, between.toList ++ cs = d :: ds ∧ d.isDigit = false := by
    unfold endsNumber at h
    cases hbetween : between.toList with
    | nil => rw [hbetween] at h; exact absurd h Bool.false_ne_true
    | cons d ds =>
      rw [hbetween, List.head?_cons, Option.any_some, Bool.not_eq_true'] at h
      exact ⟨d, ds ++ cs, rfl, h⟩
  have hsign : Literal.sign (n.text.toList ++ d :: ds) = (n.minus, n.digits ++ d :: ds) := by
    rw [n.toList_text]
    exact Literal.sign_of_digits n.minus_cases n.digits_digits _
  have htake : (n.digits ++ d :: ds).takeWhile Char.isDigit = n.digits := by
    rw [List.takeWhile_append_of_pos n.digits_ascii, List.takeWhile_cons, hd]
    exact List.append_nil _
  have hdrop : (n.digits ++ d :: ds).dropWhile Char.isDigit = d :: ds := by
    rw [List.dropWhile_append_of_pos n.digits_ascii, List.dropWhile_cons, hd]
    rfl
  rw [hcs, Whole.read?, hsign]
  simp only [htake, hdrop, n.wf, dif_pos]
  cases n with
  | mk negative digits wf => cases negative <;> rfl

theorem Update.read?_append (counter : String) (u : Update) :
    Update.read? counter ((u.text counter).toList ++ (between.toList ++ cs))
      = some (u, between.toList ++ cs) := by
  cases u with
  | up | down => simp [Update.read?, Update.text, behind?_append]
  | add n | subtract n => simp [Update.read?, Update.text, behind?_append, n.read?_append h]

end

theorem Compare.read?_append (c : Compare) (cs : List Char) :
    Compare.read? (c.text.toList ++ cs) = some (c, cs) := by
  cases c <;> rfl

/-- A loop is read as it is written, whatever follows. -/
theorem Loop.read?_append (counter : String) (l : Loop) (cs : List Char) :
    Loop.read? counter ((l.text counter).toList ++ cs) = some (l, cs) := by
  have hstart := l.start.read?_append (show endsNumber "; " from rfl)
  have hstop := l.stop.read?_append (show endsNumber "; " from rfl)
  have hupdate := (l.update.read?_append (show endsNumber ")" from rfl) · counter)
  unfold Loop.text Loop.read?
  simp only [String.toList_append, List.append_assoc, behind?_append, Option.bind_eq_bind,
    Option.bind_some, Option.pure_def, Compare.read?_append, hstart, hstop, hupdate]

/-- A range is read as it is written, whatever follows. -/
theorem Range.read?_append (counter : String) (r : Range) (cs : List Char) :
    Range.read? counter ((r.text counter).toList ++ cs) = some (r, cs) := by
  obtain ⟨start, stop, step⟩ := r
  have hstart := start.read?_append (show endsNumber ", " from rfl)
  unfold Range.text Range.read?
  cases step with
  | none =>
    have hstop := stop.read?_append (show endsNumber ")" from rfl)
    have hend : behind? ", " (")".toList ++ cs) = none := rfl
    simp only [String.append_empty, String.toList_append, List.append_assoc, behind?_append,
      Option.bind_eq_bind, Option.bind_some, Option.pure_def, hstart, hstop, hend]
  | some n =>
    have hstop := stop.read?_append (show endsNumber ", " from rfl)
    have hstep := n.read?_append (show endsNumber ")" from rfl)
    simp only [String.toList_append, List.append_assoc, behind?_append, Option.bind_eq_bind,
      Option.bind_some, Option.pure_def, hstart, hstop, hstep]

/-! ## How loops run -/

/-- The counter after a change. -/
def Update.apply (x : Int) : Update → Int
  | .up => x + 1
  | .down => x - 1
  | .add n => x + n.value
  | .subtract n => x - n.value

/-- The comparison of a number with another one. -/
def Compare.Holds (x y : Int) : Compare → Prop
  | .less => x < y
  | .greater => x > y

/-- Whether a loop goes on when its counter is `x`. -/
def Loop.GoesOn (l : Loop) (x : Int) : Prop := l.compare.Holds x l.stop.value

/-- The numbers that the counter of a loop goes through from one on, up to where the loop ends. -/
inductive Loop.Takes (l : Loop) : Int → List Int → Prop where
  | done {x : Int} (hend : ¬ l.GoesOn x) : l.Takes x []
  | next {x : Int} {xs : List Int} (hgo : l.GoesOn x) (hnext : l.Takes (l.update.apply x) xs) :
      l.Takes x (x :: xs)

/-- The numbers that a loop goes through. -/
def Loop.Runs (l : Loop) (xs : List Int) : Prop := l.Takes l.start.value xs

/-- How much one number of a range differs from the one before. -/
def Range.change (r : Range) : Int := (r.step.map Whole.value).getD 1

/-- The numbers of a range: the `i`th of them is `i` steps from the start, and all those are there
that lie in front of the end, in the direction of the step. -/
def Range.Lists (r : Range) (xs : List Int) : Prop :=
  ∀ (i : Nat) (x : Int), xs[i]? = some x ↔ x = r.start.value + r.change * i ∧
    if 0 < r.change then x < r.stop.value else x > r.stop.value

/-- A loop goes through one row of numbers at most. -/
theorem Loop.Takes.unique {l : Loop} {x : Int} {xs ys : List Int} (hxs : l.Takes x xs)
    (hys : l.Takes x ys) : xs = ys := by
  induction hxs generalizing ys with
  | done hend =>
    cases hys with
    | done => rfl
    | next hgo => exact absurd hgo hend
  | next hgo _ ih =>
    cases hys with
    | done hend => exact absurd hgo hend
    | next _ hnext => rw [ih hnext]

/-- There is one row of numbers in a range at most. -/
theorem Range.Lists.unique {r : Range} {xs ys : List Int} (hxs : r.Lists xs) (hys : r.Lists ys) :
    xs = ys :=
  List.ext_getElem? fun i => Option.ext fun x => (hxs i x).trans (hys i x).symm

/-- How much a change adds to the counter. -/
def Update.amount : Update → Int
  | .up => 1
  | .down => -1
  | .add n => n.value
  | .subtract n => -n.value

theorem Update.apply_eq (x : Int) (u : Update) : u.apply x = x + u.amount := by
  cases u with
  | up | down | add n | subtract n => rfl

/-- A loop whose counter moves towards the end that it is compared with. -/
def Loop.Approaches (l : Loop) : Prop :=
  match l.compare with
  | .less => 0 < l.update.amount
  | .greater => l.update.amount < 0

/-- How far a counter is in front of the end. -/
def Loop.left (l : Loop) (x : Int) : Int :=
  match l.compare with
  | .less => l.stop.value - x
  | .greater => x - l.stop.value

theorem Loop.goesOn_iff {l : Loop} {x : Int} : l.GoesOn x ↔ 0 < l.left x := by
  unfold GoesOn left
  cases l.compare with
  | less => exact Int.sub_pos.symm
  | greater => exact Int.sub_pos.symm

section

variable {l : Loop} (h : l.Approaches)
include h

/-- Each change brings the counter nearer to the end. -/
theorem Loop.left_apply_lt (x : Int) : l.left (l.update.apply x) < l.left x := by
  unfold Approaches at h
  unfold left
  rw [Update.apply_eq]
  cases hcompare : l.compare with
  | less | greater =>
    rw [hcompare] at h
    dsimp only at h ⊢
    omega

private theorem Loop.left_le (x : Int) (i : Nat) : l.left (x + l.update.amount * i) ≤ l.left x := by
  induction i with
  | zero =>
    have hsame : x + l.update.amount * (0 : Nat) = x := by
      rw [Int.natCast_zero, Int.mul_zero, Int.add_zero]
    exact Int.le_of_eq (congrArg l.left hsame)
  | succ i ih =>
    have hstep : x + l.update.amount * (i + 1 : Nat)
        = l.update.apply (x + l.update.amount * i) := by
      rw [Update.apply_eq, Int.natCast_succ, Int.mul_add, Int.mul_one, Int.add_assoc]
    rw [hstep]
    exact Int.le_trans (Int.le_of_lt (left_apply_lt h _)) ih

/-- The loop comes to an end. -/
private theorem Loop.exists_takes (x : Int) : ∃ xs, l.Takes x xs := by
  -- while the loop goes on, what is left is positive and gets less
  induction hleft : (l.left x).toNat using Nat.strongRecOn generalizing x with
  | _ n ih =>
    by_cases hgo : l.GoesOn x
    · have hless : (l.left (l.update.apply x)).toNat < n := by
        have hpos := goesOn_iff.mp hgo
        have hlt := left_apply_lt h x
        omega
      obtain ⟨xs, hxs⟩ := ih _ hless _ rfl
      exact ⟨x :: xs, .next hgo hxs⟩
    · exact ⟨[], .done hgo⟩

/-- Where a number stands in a run, and that no number with which the loop goes on is left out. -/
theorem Loop.Takes.getElem? {x : Int} {xs : List Int} (hxs : l.Takes x xs) (i : Nat) (y : Int) :
    xs[i]? = some y ↔ y = x + l.update.amount * i ∧ l.GoesOn y := by
  induction hxs generalizing i with
  | @done x hend =>
    rw [List.getElem?_nil]
    constructor
    · intro hnone
      cases hnone
    · -- where the loop has ended, it would not go on any further away either
      rintro ⟨rfl, hgo⟩
      exact absurd (goesOn_iff.mpr (Int.lt_of_lt_of_le (goesOn_iff.mp hgo) (left_le h x i))) hend
  | @next x xs hgo _ ih =>
    cases i with
    | zero =>
      rw [List.getElem?_cons_zero, Option.some_inj, Int.natCast_zero, Int.mul_zero, Int.add_zero]
      constructor
      · rintro rfl
        exact ⟨rfl, hgo⟩
      · exact fun hy => hy.1.symm
    | succ i =>
      rw [List.getElem?_cons_succ, ih, Update.apply_eq, Int.natCast_succ, Int.mul_add, Int.mul_one,
        Int.add_assoc, Int.add_comm l.update.amount]

end

/-! ## The headers of a command -/

/-- The comparison of a loop with a given step: it counts down if there is a minus sign. -/
def Compare.of (step : Whole) : Compare := if step.negative then .greater else .less

/-- The change of a loop with a given step. -/
def Update.of (step : Whole) : Update :=
  if step.digits = ['1'] then if step.negative then .down else .up
  else if step.negative then .subtract step.abs else .add step

/-- The loop with the given bounds and step. -/
def Loop.of (start stop step : Whole) : Loop := ⟨start, .of step, stop, .of step⟩

/-- The range with the given bounds and step. -/
def Range.of (start stop step : Whole) : Range :=
  ⟨start, stop, if step.text = "1" then none else some step⟩

theorem Whole.value_of_one {n : Whole} (h : n.digits = ['1']) :
    n.value = if n.negative then -1 else 1 := by
  rw [value, size, h]
  rfl

theorem Update.amount_of (step : Whole) : (Update.of step).amount = step.value := by
  unfold Update.of
  split
  next hone =>
    rw [Whole.value_of_one hone]
    split
    next => rfl
    next => rfl
  next =>
    rw [Whole.value]
    split
    next => rfl
    next hneg => exact if_neg hneg

theorem Range.change_of (start stop step : Whole) :
    (Range.of start stop step).change = step.value := by
  rw [Range.of, change]
  split
  next hone =>
    obtain ⟨hneg, hdigits⟩ := step.text_eq_one.mp hone
    rw [Whole.value_of_one hdigits, hneg]
    rfl
  next => rfl

section

variable {start stop step : Whole} (h : step.value ≠ 0)
include h

/-- A step that is not zero is up or down, as its sign says. -/
theorem Whole.value_sign : if step.negative then step.value < 0 else 0 < step.value := by
  rw [value] at h ⊢
  split at h
  next hneg => rw [if_pos hneg, if_pos hneg]; omega
  next hneg => rw [if_neg hneg, if_neg hneg]; omega

theorem Loop.approaches_of : (Loop.of start stop step).Approaches := by
  have hsign := Whole.value_sign h
  unfold Approaches Loop.of
  rw [Update.amount_of, Compare.of]
  split at hsign
  next hneg => rw [if_pos hneg]; exact hsign
  next hneg => rw [if_neg hneg]; exact hsign

/-- A loop goes on as long as the range has more numbers. -/
private theorem Loop.goesOn_of (x : Int) : (Loop.of start stop step).GoesOn x ↔
    if 0 < (Range.of start stop step).change then x < stop.value else x > stop.value := by
  have hsign := Whole.value_sign h
  rw [Range.change_of]
  unfold GoesOn Loop.of
  rw [Compare.of]
  split at hsign
  next hneg => rw [if_pos hneg, if_neg (Int.not_lt.mpr (Int.le_of_lt hsign))]; rfl
  next hneg => rw [if_neg hneg, if_pos hsign]; rfl

/-- The numbers that a loop goes through are those of the range. -/
private theorem Loop.Runs.lists {xs : List Int} (hxs : (Loop.of start stop step).Runs xs) :
    (Range.of start stop step).Lists xs := by
  intro i x
  rw [Takes.getElem? (Loop.approaches_of h) hxs i x, Loop.goesOn_of h]
  show x = start.value + (Update.of step).amount * i ∧ _ ↔ _
  rw [Update.amount_of, ← Range.change_of start stop step]
  rfl

end

namespace Whole

variable (n : Whole)

theorem isNumber_text : Literal.isNumber n.text.toList = true := by
  rw [n.toList_text]
  exact Literal.isNumber_of_numeral (.whole n.minus_cases n.digits_digits)

/-- A number is written as it is. -/
theorem value_text (t : Target) : t.value (some n.text) = n.text := by
  have hne : ∀ {s : String}, Literal.isNumber s.toList = false → n.text ≠ s := by
    rintro s hs rfl
    rw [n.isNumber_text] at hs
    cases hs
  rw [Target.value, if_neg (hne (by decide)), if_neg (hne (by decide))]

end Whole

/-- The comparison and the change that are written are those of the loop. -/
private theorem loopStep_text (t : Target) (counter : String) (step : Whole) :
    loopStep t counter (some step.text)
      = ((Compare.of step).text, (Update.of step).text counter) := by
  have hshown : Leaf.shown (some step.text) = step.text := rfl
  simp only [loopStep, Option.some_inj, hshown, step.text_eq_one, step.text_eq_minus_one,
    step.head?_text, step.isNumber_text, step.value_text, and_true]
  unfold Compare.of Update.of
  by_cases hone : step.digits = ['1']
  · cases hneg : step.negative with
    | false => simp [hone, Compare.text, Update.text]
    | true => simp [hone, Compare.text, Update.text]
  · cases hneg : step.negative with
    | false => simp [hone, Compare.text, Update.text]
    | true =>
      have habs : String.ofList (step.text.toList.drop 1) = step.abs.text := by
        rw [step.toList_text, Whole.minus, hneg]
        rfl
      simp [hone, Compare.text, Update.text, ← habs]

section

variable (counter : Leaf) (start stop step : Whole)

private theorem rangeHeader_text : loopHeader .python counter (some start.text) (some stop.text)
    (some step.text) = (Range.of start stop step).text counter.shown := by
  simp only [loopHeader, Whole.value_text, Option.some_inj]
  unfold Range.of Range.text
  split
  next => rfl
  next => rfl

private theorem loopHeader_text {t : Target} (ht : t ≠ .python) :
    loopHeader t counter (some start.text) (some stop.text) (some step.text)
      = (Loop.of start stop step).text counter.shown := by
  cases t with
  | python => exact absurd rfl ht
  | java | cpp =>
    simp only [loopHeader, Whole.value_text, loopStep_text]
    rfl

end

/-- A text with more lines behind it is written as it is. -/
private theorem render_ofText_append (text : String) {ls : List Line} (h : ls ≠ []) :
    render (ofText text ++ ls) = text ++ "\n" ++ render ls := by
  rw [render, List.map_append, map_render_ofText]
  calc Text.unlines (Text.lines text ++ ls.map Line.render)
      = Text.unlines (Text.lines text) ++ "\n" ++ Text.unlines (ls.map Line.render) :=
        String.intercalate_append_of_ne_nil (Text.lines_ne_nil text) (mt List.map_eq_nil_iff.mp h)
    _ = text ++ "\n" ++ render ls := by rw [Text.unlines_lines]; rfl

private theorem inner_ne_nil (t : Target) (body : List Line) : inner t body ≠ [] := by
  rw [inner, deepen, ne_eq, List.map_eq_nil_iff]
  split
  next => exact List.cons_ne_nil _ _
  next hbody => exact fun hnil => hbody (List.isEmpty_iff.mpr hnil)

/-- If the code of a loop can be written, it begins with its header. -/
private theorem write_repeatFor (t : Target) (counter start stop step : Leaf) (body : Command) :
    ∃ rest, write t (.repeatFor counter start stop step body) =
      match unknownOperator? body with
      | some operator => .error (.unknownOperator operator)
      | none => .ok (loopHeader t counter start stop step ++ rest) := by
  have hinner : inner t (linesOf t body) ++ closing t ≠ [] :=
    List.append_ne_nil_of_left_ne_nil (inner_ne_nil t _) _
  refine ⟨opening t ++ "\n" ++ render (inner t (linesOf t body) ++ closing t), ?_⟩
  unfold write
  rewrite [unknownOperator?]
  cases unknownOperator? body with
  | some operator => rfl
  | none =>
    dsimp only
    rw [linesOf, block, List.append_assoc, render_ofText_append _ hinner]
    simp only [String.append_assoc]

/-- A text begins with what a reader takes for `a`. -/
def BeginsWith {α : Type} (read : List Char → Option (α × List Char)) (code : String) (a : α) :
    Prop :=
  ∃ rest, read code.toList = some (a, rest)

/-- What is written for a loop begins with its header, and there is such code if all operators are
known. -/
theorem beginsWith_header {α : Type} {read : List Char → Option (α × List Char)} {t : Target}
    {counter start stop step : Leaf} {a : α}
    (h : ∀ cs, read ((loopHeader t counter start stop step).toList ++ cs) = some (a, cs))
    (body : Command) :
    let command := Command.repeatFor counter start stop step body
    (∀ code, write t command = .ok code → BeginsWith read code a) ∧
      ((∀ n ∈ body.preorder, n.hasKnownOperator = true) → ∃ code, write t command = .ok code) := by
  obtain ⟨rest, hwrite⟩ := write_repeatFor t counter start stop step body
  dsimp only
  rw [hwrite]
  constructor
  · intro code hcode
    split at hcode
    next => cases hcode
    next =>
      cases hcode
      refine ⟨rest.toList, ?_⟩
      rw [String.toList_append]
      exact h rest.toList
  · intro hknown
    rw [unknownOperator?_of_known hknown]
    exact ⟨_, rfl⟩

/-- **Loops count through ranges.** Where bounds and step are whole numbers and the step is not
zero, the code of a loop begins with a range in Python and with a loop in Java and C++, and both are
written for every body whose operators are known. The range is the one with these bounds and this
step. There is exactly one row of numbers that it has, and it is the one that the counter goes
through when the loop is run. -/
theorem loop_counts_range {t : Target} (ht : t ≠ .python) (counter : Leaf)
    (start stop step : Whole) (hstep : step.value ≠ 0) (body : Command) :
    let command :=
      Command.repeatFor counter (some start.text) (some stop.text) (some step.text) body
    ∃ range loop,
      (∀ code, write .python command = .ok code →
        BeginsWith (Range.read? counter.shown) code range) ∧
      (∀ code, write t command = .ok code → BeginsWith (Loop.read? counter.shown) code loop) ∧
      ((∀ n ∈ body.preorder, n.hasKnownOperator = true) →
        (∃ code, write .python command = .ok code) ∧ ∃ code, write t command = .ok code) ∧
      range = ⟨start, stop, if step.text = "1" then none else some step⟩ ∧
      ∃ xs, (∀ ys, range.Lists ys ↔ ys = xs) ∧ ∀ ys, loop.Runs ys ↔ ys = xs := by
  intro command
  have hrange : ∀ cs, Range.read? counter.shown ((loopHeader .python counter (some start.text)
      (some stop.text) (some step.text)).toList ++ cs) = some (Range.of start stop step, cs) := by
    rw [rangeHeader_text]
    exact Range.read?_append _ _
  have hloop : ∀ cs, Loop.read? counter.shown ((loopHeader t counter (some start.text)
      (some stop.text) (some step.text)).toList ++ cs) = some (Loop.of start stop step, cs) := by
    rw [loopHeader_text counter start stop step ht]
    exact Loop.read?_append _ _
  obtain ⟨hrangeBegins, hrangeWritten⟩ := beginsWith_header hrange body
  obtain ⟨hloopBegins, hloopWritten⟩ := beginsWith_header hloop body
  obtain ⟨xs, hxs⟩ := Loop.exists_takes (Loop.approaches_of hstep) start.value
  have hlists : (Range.of start stop step).Lists xs := Loop.Runs.lists hstep hxs
  refine ⟨_, _, hrangeBegins, hloopBegins,
    fun hknown => ⟨hrangeWritten hknown, hloopWritten hknown⟩, rfl, xs, ?_, ?_⟩
  · exact fun ys => ⟨fun hys => hys.unique hlists, fun hys => hys ▸ hlists⟩
  · exact fun ys => ⟨fun hys => Loop.Takes.unique hys hxs, fun hys => hys ▸ hxs⟩

/-- A loop from ten down to a number that its steps jump over. -/
theorem loop_counts_range_down :
    let start : Whole := ⟨false, ['1', '0'], rfl⟩
    let stop : Whole := ⟨true, ['4'], rfl⟩
    let step : Whole := ⟨true, ['3'], rfl⟩
    let command := Command.repeatFor (some "i") (some "10") (some "-4") (some "-3")
      (.print (some [some "i"]))
    step.value ≠ 0 ∧ ∃ (rangeCode loopCode : String) (loop : Loop),
      let range : Range := ⟨start, stop, some step⟩
      write .python command = .ok rangeCode ∧ BeginsWith (Range.read? "i") rangeCode range ∧
      write .java command = .ok loopCode ∧ BeginsWith (Loop.read? "i") loopCode loop ∧
      ∃ xs, (∀ ys, range.Lists ys ↔ ys = xs) ∧ ∀ ys, loop.Runs ys ↔ ys = xs := by
  have hstep : Whole.value ⟨true, ['3'], rfl⟩ ≠ 0 := by decide
  obtain ⟨range, loop, hrange, hloop, hwritten, rfl, hxs⟩ := loop_counts_range (t := .java)
    (by decide) (some "i") ⟨false, ['1', '0'], rfl⟩ ⟨true, ['4'], rfl⟩ ⟨true, ['3'], rfl⟩ hstep
    (.print (some [some "i"]))
  obtain ⟨⟨rangeCode, hrangeCode⟩, loopCode, hloopCode⟩ := hwritten (by decide)
  exact ⟨hstep, rangeCode, loopCode, loop, hrangeCode, hrange _ hrangeCode, hloopCode,
    hloop _ hloopCode, hxs⟩

end Code

end PlainCode
