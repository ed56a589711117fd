import PlainCode.Service.Body
import PlainCode.Service.Order

/-!
# Values that were read

A whole number of more than 4300 digits is kept out on both sides. No value with such a number in it
can be written, and no text with such a number in it is JSON. So whatever was read can be written
again, and what a refused request is told about one of its values is the text of that value.

Reading goes down into lists and objects with a bound on its steps, so what its three functions give
is shown together, by induction on that bound (`Readable`). The main statement is
`display?_of_payload`.
-/

namespace PlainCode

/-! ## Numbers -/

private theorem Double.tenTo_le_tenTo {m n : Nat} (h : m ≤ n) : tenTo m ≤ tenTo n :=
  Nat.pow_le_pow_right (by decide) h

namespace Json

/-- Digits in front multiply by ten for each digit behind them. -/
private theorem foldl_digits_lt {ds : List Char} (h : ∀ d ∈ ds, d.isDigit = true) (n : Nat) :
    ds.foldl (fun n d => 10 * n + (d.toNat - '0'.toNat)) n
      < (n + 1) * Double.tenTo ds.length := by
  induction ds generalizing n with
  | nil =>
    show n < (n + 1) * 1
    omega
  | cons d ds ih =>
    obtain ⟨hd, hds⟩ := List.forall_mem_cons.mp h
    have hrange : 48 ≤ d.toNat ∧ d.toNat ≤ 57 := Char.isDigit_iff_toNat.mp hd
    have hstep : 10 * n + (d.toNat - '0'.toNat) + 1 ≤ (n + 1) * 10 := by
      rw [show '0'.toNat = 48 from rfl]
      omega
    have hpower : Double.tenTo (ds.length + 1) = 10 * Double.tenTo ds.length := Nat.pow_succ'
    refine Nat.lt_of_lt_of_le (ih hds _) ?_
    rw [List.length_cons, hpower, ← Nat.mul_assoc]
    exact Nat.mul_le_mul_right _ hstep

private theorem ofDigits_lt {ds : List Char} (h : ∀ d ∈ ds, d.isDigit = true) :
    ofDigits ds < Double.tenTo ds.length := by
  have hlt := foldl_digits_lt h 0
  rwa [Nat.zero_add, Nat.one_mul] at hlt

private theorem isDigit_of_readWhole {cs ds rest : List Char} (h : readWhole cs = some (ds, rest)) :
    ∀ d ∈ ds, d.isDigit = true := by
  unfold readWhole at h
  split at h
  next =>
    cases h
    exact List.forall_mem_singleton.mpr rfl
  next =>
    split at h
    next => cases h
    next =>
      cases h
      exact List.all_eq_true.mp List.all_takeWhile

theorem isWritable_of_readNumber {negative : Bool} {cs rest : List Char} {value : Json}
    (h : readNumber negative cs = some (value, rest)) : value.isWritable = true := by
  rw [readNumber, Option.bind_eq_bind, Option.bind_eq_some_iff] at h
  obtain ⟨⟨whole, behind⟩, hwhole, h⟩ := h
  dsimp only at h
  split at h
  next =>
    split at h
    next => cases h
    next hshort =>
      cases h
      have hlt := Nat.lt_of_lt_of_le (ofDigits_lt (isDigit_of_readWhole hwhole))
        (Double.tenTo_le_tenTo (Nat.le_of_not_lt hshort))
      have habs : (if negative then -(ofDigits whole : Int) else ofDigits whole).natAbs
          = ofDigits whole := by
        cases negative with
        | false => exact Int.natAbs_natCast _
        | true => exact (Int.natAbs_neg _).trans (Int.natAbs_natCast _)
      rw [isWritable, decide_eq_true_iff, habs]
      exact hlt
  next =>
    cases h
    rfl

/-- What is made of no other values is written as it was read. -/
private theorem isWritable_of_readSimple {cs rest : List Char} {value : Json}
    (h : readSimple cs = some (value, rest)) : value.isWritable = true := by
  have hname : ∀ {word : String} {j : Json}, j.isWritable = true →
      (afterWord? word.toList cs).map (fun rest => (j, rest)) = some (value, rest) →
      value.isWritable = true := by
    intro word j hj hmap
    obtain ⟨_, _, hpair⟩ := Option.map_eq_some_iff.mp hmap
    cases hpair
    exact hj
  unfold readSimple at h
  dsimp only at h
  split at h
  case h_7 => exact isWritable_of_readNumber h
  case h_8 => exact isWritable_of_readNumber h
  all_goals exact hname rfl h

/-! ## Lists and objects -/

private theorem fieldsAreWritable_setField (key : String) {value : Json}
    (hvalue : value.isWritable = true) {fields : List (String × Json)}
    (h : fieldsAreWritable fields = true) :
    fieldsAreWritable (setField key value fields) = true := by
  induction fields with
  | nil =>
    rw [setField, fieldsAreWritable, hvalue]
    rfl
  | cons field fields ih =>
    rw [fieldsAreWritable, Bool.and_eq_true] at h
    rw [setField]
    split
    next =>
      rw [fieldsAreWritable, hvalue, h.2]
      rfl
    next =>
      rw [fieldsAreWritable, h.1, ih h.2]
      rfl

/-- What is read in `n` steps can be written: a value, the items of a list, and the fields of an
object, if those before them can be. -/
private structure Readable (n : Nat) : Prop where
  value : ∀ {cs value rest}, readValue n cs = some (value, rest) → value.isWritable = true
  items : ∀ {cs items rest}, readItems n cs = some (items, rest) → areWritable items = true
  fields : ∀ {before cs fields rest}, fieldsAreWritable before = true →
    readFields n before cs = some (fields, rest) → fieldsAreWritable fields = true

section

variable {n : Nat} (ih : Readable n)

include ih

private theorem Readable.value_succ {cs rest : List Char} {value : Json}
    (h : readValue (n + 1) cs = some (value, rest)) : value.isWritable = true := by
  unfold readValue at h
  split at h
  next =>
    obtain ⟨_, _, hpair⟩ := Option.map_eq_some_iff.mp h
    cases hpair
    rfl
  next =>
    split at h
    next =>
      cases h
      rfl
    next =>
      obtain ⟨_, hitems, hpair⟩ := Option.map_eq_some_iff.mp h
      cases hpair
      exact ih.items hitems
  next =>
    split at h
    next =>
      cases h
      rfl
    next =>
      obtain ⟨_, hfields, hpair⟩ := Option.map_eq_some_iff.mp h
      cases hpair
      exact ih.fields rfl hfields
  next => exact isWritable_of_readSimple h

private theorem Readable.items_succ {cs rest : List Char} {items : List Json}
    (h : readItems (n + 1) cs = some (items, rest)) : areWritable items = true := by
  unfold readItems at h
  split at h
  next => cases h
  next item _ hitem =>
    split at h
    next =>
      cases h
      rw [areWritable, ih.value hitem]
      rfl
    next =>
      obtain ⟨_, hitems, hpair⟩ := Option.map_eq_some_iff.mp h
      cases hpair
      rw [areWritable, ih.value hitem, ih.items hitems]
      rfl
    next => cases h

private theorem Readable.fields_succ {before fields : List (String × Json)} {cs rest : List Char}
    (hbefore : fieldsAreWritable before = true)
    (h : readFields (n + 1) before cs = some (fields, rest)) :
    fieldsAreWritable fields = true := by
  unfold readFields at h
  split at h
  next =>
    split at h
    next => cases h
    next key _ _ =>
      split at h
      next =>
        split at h
        next => cases h
        next hvalue =>
          -- the value is set among the fields before, whichever way the text goes on
          have hfields := fieldsAreWritable_setField key (ih.value hvalue) hbefore
          dsimp only at h
          split at h
          next =>
            cases h
            exact hfields
          next => exact ih.fields hfields h
          next => cases h
      next => cases h
  next => cases h

end

private theorem readable (n : Nat) : Readable n := by
  induction n with
  | zero =>
    constructor
    · intro cs value rest h
      cases h
    · intro cs items rest h
      cases h
    · intro before cs fields rest hbefore h
      cases h
  | succ n ih => exact ⟨ih.value_succ, ih.items_succ, ih.fields_succ⟩

/-- **What was read can be written.** -/
theorem isWritable_of_read? {text : String} {value : Json} (h : read? text = some value) :
    value.isWritable = true := by
  unfold read? at h
  dsimp only at h
  split at h
  next hread =>
    split at h
    next =>
      cases h
      exact (readable _).value hread
    next => cases h
  next => cases h

private theorem isWritable_of_lookup {key : String} {value : Json} {fields : List (String × Json)}
    (h : fieldsAreWritable fields = true) (hvalue : fields.lookup key = some value) :
    value.isWritable = true := by
  induction fields with
  | nil => cases hvalue
  | cons field fields ih =>
    obtain ⟨name, first⟩ := field
    rw [fieldsAreWritable, Bool.and_eq_true] at h
    rw [List.lookup_cons] at hvalue
    split at hvalue
    next =>
      cases hvalue
      exact h.1
    next => exact ih h.2 hvalue

/-- The value of a field can be written if the whole value and what stands in place of a missing
field can be. -/
private theorem isWritable_fieldD {value default : Json} (h : value.isWritable = true)
    (hdefault : default.isWritable = true) (key : String) :
    (value.fieldD key default).isWritable = true := by
  rw [fieldD]
  cases hfield : value.field? key with
  | none => exact hdefault
  | some found =>
    cases value with
    | obj fields => exact isWritable_of_lookup h hfield
    | _ => cases hfield

end Json

namespace Service

/-! ## Requests -/

private theorem isWritable_payload (contentType : Option String) (body : String) :
    (payload contentType body).isWritable = true := by
  rw [payload]
  split
  next =>
    cases hread : (Text.redecoded body).bind Json.read? with
    | none => rfl
    | some value =>
      obtain ⟨text, _, hvalue⟩ := Option.bind_eq_some_iff.mp hread
      exact Json.isWritable_of_read? hvalue
  next => rfl

/-- **What a request says can be shown.** The value that it gives for a field, or the text that
stands in place of a missing one, has a text. -/
theorem display?_of_payload (contentType : Option String) (body : String) (key default : String) :
    let value := (payload contentType body).fieldD key (.str default)
    value.display? = some value.display :=
  if_pos (Json.isWritable_fieldD (isWritable_payload contentType body) rfl key)

end Service

end PlainCode
