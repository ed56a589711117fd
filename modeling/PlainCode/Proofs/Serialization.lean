import Mathlib.Data.List.Perm.Basic
import PlainCode.Command.Json

/-!
# Commands read back from JSON

Nothing of a command is lost when it is written as JSON. What is written is read back as the same
command, with all that is in its slots at every depth (`ofJson?_toJson`), so no two commands are
written alike. The order of fields does not carry any of it: values that differ in the order of
their fields only (`Json.Alike`) are read as the same (`ofJson?_congr`).

The one thing that cannot be told apart is a form that is known by its name only, from a form that
is known and has this name. `Command.Distinct` leaves such names out, and nothing else.
-/

namespace PlainCode

/-! ## Looking up a name -/

section

variable {κ α : Type} [BEq κ] [LawfulBEq κ]

theorem lookup_cons [DecidableEq κ] (key : κ) (field : κ × α) (fields : List (κ × α)) :
    (field :: fields).lookup key = if key = field.1 then some field.2 else fields.lookup key := by
  obtain ⟨k, value⟩ := field
  rw [List.lookup_cons]
  by_cases hkey : key = k
  · rw [if_pos hkey, beq_iff_eq.mpr hkey]
  · rw [if_neg hkey, beq_false_of_ne hkey]

/-- Where no name occurs twice, a field is found exactly if it is there. -/
theorem lookup_eq_some_iff_mem {fields : List (κ × α)} {key : κ} {value : α}
    (hnodup : (fields.map Prod.fst).Nodup) :
    fields.lookup key = some value ↔ (key, value) ∈ fields := by
  classical
  induction fields with
  | nil => exact ⟨nofun, nofun⟩
  | cons field fields ih =>
    rw [List.map_cons, List.nodup_cons] at hnodup
    rw [lookup_cons, List.mem_cons, Prod.ext_iff]
    by_cases hkey : key = field.1
    · have hnot : (key, value) ∉ fields := fun hmem =>
        hnodup.1 (List.mem_map.mpr ⟨(key, value), hmem, hkey⟩)
      rw [if_pos hkey, Option.some.injEq, eq_comm, or_iff_left hnot, and_iff_right hkey]
    · rw [if_neg hkey, or_iff_right fun h => hkey h.1]
      exact ih hnodup.2

end

/-! ## Values that differ in the order of fields only -/

namespace Json

/-- Values that are the same but for the order of fields, at every depth. Where an object has
several fields of one name, the first of them counts. -/
inductive Alike : Json → Json → Prop
  | refl (j : Json) : Alike j j
  | arr {items others : List Json} (hlength : items.length = others.length)
      (h : ∀ (i : Nat) v w, items[i]? = some v → others[i]? = some w → Alike v w) :
      Alike (.arr items) (.arr others)
  | obj {fields others : List (String × Json)}
      (hkeys : ∀ key, (fields.lookup key).isSome = (others.lookup key).isSome)
      (h : ∀ key v w, fields.lookup key = some v → others.lookup key = some w → Alike v w) :
      Alike (.obj fields) (.obj others)

/-- Fields with different names may stand in any order. -/
private theorem alike_of_perm {fields others : List (String × Json)} (h : fields.Perm others)
    (hnodup : (fields.map Prod.fst).Nodup) : Alike (.obj fields) (.obj others) := by
  have hlookup : ∀ key, fields.lookup key = others.lookup key := by
    intro key
    have hothers := (h.map Prod.fst).nodup hnodup
    refine Option.ext fun value => ?_
    exact (lookup_eq_some_iff_mem hnodup).trans
      (h.mem_iff.trans (lookup_eq_some_iff_mem hothers).symm)
  refine .obj (fun key => congrArg Option.isSome (hlookup key)) fun key v w hv hw => ?_
  rw [← hlookup key, hv, Option.some.injEq] at hw
  exact hw ▸ .refl v

end Json

/-- The name of the field for a slot. -/
def Slot.key : Slot → String
  | .body => "body"
  | .thenBody => "thenBody"
  | .elseBody => "elseBody"

namespace Command

/-! ## Reading does not depend on the order of fields -/

private theorem lookup_childrenOf (fields : List (String × Json)) (key : String) :
    (childrenOf fields).lookup key = (fields.lookup key).map ofJson? := by
  induction fields with
  | nil => rfl
  | cons field fields ih =>
    obtain ⟨k, v⟩ := field
    rw [childrenOf, List.lookup_cons, List.lookup_cons, ih]
    cases key == k <;> rfl

/-- What is read from a slot, from the field for it. -/
theorem slot?_childrenOf (fields : List (String × Json)) (key : String) :
    slot? (childrenOf fields) key = ((fields.lookup key).map ofJson?).getD (some .hole) := by
  rw [slot?, lookup_childrenOf]

/-- The name of the form is a leaf among the fields. -/
theorem form?_eq_join (fields : List (String × Json)) :
    form? fields = (leaf? fields "type").join := by
  rw [form?, leaf?]
  cases fields.lookup "type" with
  | none => rfl
  | some value => cases value <;> rfl

theorem leaves?_of_lookup {fields : List (String × Json)} {key : String} {value : Json}
    (h : fields.lookup key = some value) : leaves? fields key = leaves? [(key, value)] key := by
  have hself : [(key, value)].lookup key = some value := by
    rw [List.lookup_cons, beq_self_eq_true]
  rw [leaves?, leaves?, h, hself]

theorem conditionField?_of_lookup {fields : List (String × Json)} {value : Json}
    (h : fields.lookup "condition" = some value) :
    conditionField? fields = conditionField? [("condition", value)] := by
  have hself : [("condition", value)].lookup "condition" = some value := by
    rw [List.lookup_cons, beq_self_eq_true]
  rw [conditionField?, conditionField?, h, hself]

/-- Values that are read as the same, whatever they are read as. -/
structure SameReading (v w : Json) : Prop where
  leaf : leafOf? v = leafOf? w
  leaves : ∀ key, leaves? [(key, v)] key = leaves? [(key, w)] key
  condition : conditionField? [("condition", v)] = conditionField? [("condition", w)]
  command : ofJson? v = ofJson? w

theorem SameReading.rfl {v : Json} : SameReading v v :=
  ⟨.refl _, fun _ => .refl _, .refl _, .refl _⟩

private theorem leavesOf?_congr {items others : List Json}
    (h : items.map leafOf? = others.map leafOf?) : leavesOf? items = leavesOf? others := by
  induction items generalizing others with
  | nil => rw [List.map_eq_nil_iff.mp h.symm]
  | cons item items ih =>
    obtain ⟨other, others, rfl, hitem, hitems⟩ := List.map_eq_cons_iff.mp h.symm
    rw [leavesOf?, leavesOf?, hitem, ih hitems.symm]

/-- Lists are read as the same when their items are. -/
theorem SameReading.arr {items others : List Json} (hlength : items.length = others.length)
    (h : ∀ (i : Nat) v w, items[i]? = some v → others[i]? = some w → SameReading v w) :
    SameReading (.arr items) (.arr others) := by
  have hleaves : leavesOf? items = leavesOf? others := by
    refine leavesOf?_congr (List.ext_getElem (by simpa using hlength) fun i hi hi' => ?_)
    rw [List.length_map] at hi hi'
    rw [List.getElem_map, List.getElem_map]
    exact (h i _ _ (List.getElem?_eq_getElem hi) (List.getElem?_eq_getElem hi')).leaf
  refine ⟨.refl _, fun key => ?_, .refl _, .refl _⟩
  rw [leaves?, leaves?, List.lookup_cons, List.lookup_cons, beq_self_eq_true]
  exact congrArg (Option.map some) hleaves

/-- Objects are read as the same when the values of their fields are, in any order. -/
theorem SameReading.obj {fields others : List (String × Json)}
    (hkeys : ∀ key, (fields.lookup key).isSome = (others.lookup key).isSome)
    (h : ∀ key v w, fields.lookup key = some v → others.lookup key = some w → SameReading v w) :
    SameReading (.obj fields) (.obj others) := by
  have hcases : ∀ key, (fields.lookup key = none ∧ others.lookup key = none) ∨
      ∃ v w, fields.lookup key = some v ∧ others.lookup key = some w ∧ SameReading v w := by
    intro key
    have hkey := hkeys key
    cases hv : fields.lookup key with
    | none =>
      rw [hv] at hkey
      exact .inl ⟨.refl _, Option.not_isSome_iff_eq_none.mp (ne_true_of_eq_false hkey.symm)⟩
    | some v =>
      rw [hv] at hkey
      obtain ⟨w, hw⟩ := Option.isSome_iff_exists.mp hkey.symm
      exact .inr ⟨v, w, .refl _, hw, h key v w hv hw⟩
  have hleaf : leaf? fields = leaf? others := by
    funext key
    rw [leaf?, leaf?]
    rcases hcases key with ⟨hv, hw⟩ | ⟨v, w, hv, hw, hread⟩ <;> rw [hv, hw]
    exact hread.leaf
  have hleafD : leafD? fields = leafD? others := by
    funext key default
    rw [leafD?, leafD?]
    rcases hcases key with ⟨hv, hw⟩ | ⟨v, w, hv, hw, hread⟩ <;> rw [hv, hw]
    exact hread.leaf
  have hleaves : leaves? fields = leaves? others := by
    funext key
    rcases hcases key with ⟨hv, hw⟩ | ⟨v, w, hv, hw, hread⟩
    · rw [leaves?, leaves?, hv, hw]
    · rw [leaves?_of_lookup hv, leaves?_of_lookup hw]
      exact hread.leaves key
  have hcondition : conditionField? fields = conditionField? others := by
    rcases hcases "condition" with ⟨hv, hw⟩ | ⟨v, w, hv, hw, hread⟩
    · rw [conditionField?, conditionField?, hv, hw]
    · rw [conditionField?_of_lookup hv, conditionField?_of_lookup hw]
      exact hread.condition
  have hslot : slot? (childrenOf fields) = slot? (childrenOf others) := by
    funext key
    rw [slot?_childrenOf, slot?_childrenOf]
    rcases hcases key with ⟨hv, hw⟩ | ⟨v, w, hv, hw, hread⟩ <;> rw [hv, hw]
    exact hread.command
  have hinner : condition? fields = condition? others := by
    rw [condition?, condition?, hleaf]
  refine ⟨.refl _, fun key => ?_, ?_, ?_⟩
  · rw [leaves?, leaves?, List.lookup_cons, List.lookup_cons, beq_self_eq_true]
  · exact congrArg (Option.map some) hinner
  · have hbuild : ∀ form, build? form fields (childrenOf fields)
        = build? form others (childrenOf others) := by
      intro form
      simp only [build?, hleaf, hleafD, hleaves, hcondition, hslot, hinner]
    rw [ofJson?, ofJson?, form?_eq_join, form?_eq_join, hleaf]
    exact congrArg _ (funext hbuild)

private theorem sameReading_of_alike {v w : Json} (h : v.Alike w) : SameReading v w := by
  induction h with
  | refl => exact .rfl
  | arr hlength _ ih => exact .arr hlength ih
  | obj hkeys _ ih => exact .obj hkeys ih

/-- The order of fields makes no difference to what is read. -/
theorem ofJson?_congr {v w : Json} (h : v.Alike w) : ofJson? v = ofJson? w :=
  (sameReading_of_alike h).command

/-! ## Reading what was written -/

/-- The names of the forms that are known. -/
def formNames : List String :=
  ["variable_creation", "assignment", "print", "input", "arithmetic", "increment", "decrement",
    "if_statement", "while_loop", "for_loop", "function_def", "function_call", "return",
    "list_creation", "append", "comment", "Condition"]

/-- Whether a command is of a form that is known by its name only, and this is the name of a form
that is known. -/
def isNamesake : Command → Bool
  | .foreign form => formNames.contains form
  | _ => false

/-- A tree without such a command. -/
def Distinct (c : Command) : Prop := ∀ n ∈ c.preorder, n.isNamesake = false

@[simp]
theorem leafOf?_ofString? (leaf : Leaf) : leafOf? (Json.ofString? leaf) = some leaf := by
  cases leaf <;> rfl

@[simp]
theorem leavesOf?_map_ofString? (leaves : List Leaf) :
    leavesOf? (leaves.map Json.ofString?) = some leaves := by
  induction leaves with
  | nil => rfl
  | cons leaf leaves ih => rw [List.map_cons, leavesOf?, leafOf?_ofString?, ih]

@[simp]
theorem leafField_fst (key : String) (leaf : Leaf) : (leafField key leaf).1 = key := rfl

@[simp]
theorem leafOf?_leafField (key : String) (leaf : Leaf) :
    leafOf? (leafField key leaf).2 = some leaf :=
  leafOf?_ofString? leaf

@[simp]
theorem leavesField_fst (key : String) (leaves : Leaves) : (leavesField key leaves).1 = key := by
  cases leaves <;> rfl

@[simp]
theorem conditionField_fst (c : Option Condition) : (conditionField c).1 = "condition" := by
  cases c <;> rfl

@[simp]
theorem condition?_fields (c : Condition) : condition? c.fields = some c := by
  simp [condition?, leaf?, Condition.fields, lookup_cons]

/-- Leaves are read from the first field of their name. -/
theorem leaves?_leavesField {fields : List (String × Json)} {key : String} {leaves : Leaves}
    (h : fields.lookup key = some (leavesField key leaves).2) :
    leaves? fields key = some leaves := by
  rw [leaves?, h]
  cases leaves with
  | none => rfl
  | some leaves => exact congrArg (Option.map some) (leavesOf?_map_ofString? leaves)

/-- A condition is read from the first field of its name. -/
theorem conditionField?_conditionField {fields : List (String × Json)} {c : Option Condition}
    (h : fields.lookup "condition" = some (conditionField c).2) :
    conditionField? fields = some c := by
  rw [conditionField?, h]
  cases c with
  | none => rfl
  | some c => exact congrArg (Option.map some) (condition?_fields c)

theorem lookup_slotField_of_ne {key other : String} (h : other ≠ key) (body : Command)
    (json : Json) : (slotField key body json).lookup other = none := by
  rw [slotField]
  split
  next => rfl
  next => rw [lookup_cons, if_neg h, List.lookup_nil]

/-- A slot is read as what its own field is read as, and as a hole where it has none. -/
theorem slot?_slotField {fields : List (String × Json)} {key : String} {body : Command}
    (h : fields.lookup key
      = (slotField key body (.obj (("type", .str body.form) :: body.fields))).lookup key) :
    slot? (childrenOf fields) key = ofJson? body.toJson := by
  rw [slot?_childrenOf, h, slotField, toJson]
  split
  next => rfl
  next => rw [List.lookup_cons_self]; rfl

/-- A form that has none of the names that are known is read as one that is known by its name
only. -/
private theorem build?_of_notMem {form : String} (h : form ∉ formNames)
    (fields : List (String × Json)) (children : List (String × Option Command)) :
    build? form fields children = some (.foreign form) := by
  unfold build?
  split
  case h_18 => rfl
  all_goals exact absurd (by simp [formNames]) h

/-- Induction on trees, over the commands in the slots of each command. -/
theorem induction_slots {motive : Command → Prop}
    (step : ∀ c, (∀ s ∈ c.slots, motive s.2) → motive c) (c : Command) : motive c := by
  induction c with
  | branch _ _ _ ihThen ihElse =>
    exact step _ (List.forall_mem_cons.mpr ⟨ihThen, List.forall_mem_singleton.mpr ihElse⟩)
  | repeatWhile _ _ ih | repeatFor _ _ _ _ _ ih | define _ _ _ ih =>
    exact step _ (List.forall_mem_singleton.mpr ih)
  | _ => exact step _ (fun _ hs => nomatch hs)

/-- A tree is a command and the trees in its slots. -/
theorem preorder_eq_cons {c : Command} (h : c ≠ .hole) :
    c.preorder = c :: c.slots.flatMap fun s => s.2.preorder := by
  cases c with
  | hole => exact absurd rfl h
  | branch _ _ elseBody => rw [preorder, slots, List.flatMap_cons, List.flatMap_singleton]
  | repeatWhile | repeatFor | define => rw [preorder, slots, List.flatMap_singleton]
  | _ => rfl

private theorem Distinct.of_slot {c : Command} (h : c.Distinct) {s : Slot × Command}
    (hs : s ∈ c.slots) : s.2.Distinct := by
  intro n hn
  refine h n ?_
  rw [preorder_eq_cons (by rintro rfl; cases hs)]
  exact List.mem_cons_of_mem _ (List.mem_flatMap_of_mem hs hn)

/-- All fields of a command, the name of its form among them. -/
def record (c : Command) : List (String × Json) := ("type", .str c.form) :: c.fields

/-- No two fields of a command have the same name. -/
private theorem nodup_record (c : Command) : (c.record.map Prod.fst).Nodup := by
  cases c with
  | branch =>
    simp only [record, fields, slotField]
    split <;> split <;> simp
  | repeatWhile | repeatFor | define =>
    simp only [record, fields, slotField]
    split <;> simp
  | comparison => simp [record, fields, Condition.fields]
  | _ => simp [record, fields]

theorem toJson_of_ne_hole {c : Command} (h : c ≠ .hole) : c.toJson = .obj c.record := by
  cases c with
  | hole => exact absurd rfl h
  | _ => rfl

private theorem ofJson?_record (c : Command) :
    ofJson? (.obj c.record) = build? c.form c.record (childrenOf c.record) := by
  have hform : form? c.record = some c.form := by
    rw [form?, record, List.lookup_cons_self]
  rw [ofJson?, hform]
  rfl

/-- What is in a slot of a command is read from the field for this slot. -/
private theorem slot?_record {c : Command} {s : Slot × Command} (h : s ∈ c.slots) :
    slot? (childrenOf c.record) s.1.key = ofJson? s.2.toJson := by
  cases c with
  | branch =>
    rw [slots, List.mem_cons, List.mem_singleton] at h
    rcases h with rfl | rfl
    · refine slot?_slotField ?_
      simp [record, fields, Slot.key, lookup_cons, List.lookup_append, lookup_slotField_of_ne]
    · refine slot?_slotField ?_
      simp [record, fields, Slot.key, lookup_cons, List.lookup_append, lookup_slotField_of_ne]
  | repeatWhile | repeatFor | define =>
    cases List.mem_singleton.mp h
    refine slot?_slotField ?_
    simp [record, fields, Slot.key, lookup_cons]
  | _ => cases h

/-- A command is built from its own fields, once what is in its slots is read back. -/
private theorem build?_record {c : Command} (h : c.Distinct)
    (hslots : ∀ s ∈ c.slots, ofJson? s.2.toJson = some s.2) (hhole : c ≠ .hole) :
    build? c.form c.record (childrenOf c.record) = some c := by
  have hread : ∀ s ∈ c.slots, slot? (childrenOf c.record) s.1.key = some s.2 := fun s hs =>
    (slot?_record hs).trans (hslots s hs)
  cases c with
  | hole => exact absurd rfl hhole
  | branch c thenBody elseBody =>
    have hcondition : conditionField? (branch c thenBody elseBody).record = some c :=
      conditionField?_conditionField (by simp [record, fields, lookup_cons])
    rw [slots, List.forall_mem_cons, List.forall_mem_singleton] at hread
    simp only [Slot.key] at hread
    simp only [form, build?]
    rw [hcondition, hread.1, hread.2]
    rfl
  | repeatWhile c body =>
    have hcondition : conditionField? (repeatWhile c body).record = some c :=
      conditionField?_conditionField (by simp [record, fields, lookup_cons])
    rw [slots, List.forall_mem_singleton] at hread
    simp only [Slot.key] at hread
    simp only [form, build?]
    rw [hcondition, hread]
    rfl
  | repeatFor counter start stop step body =>
    rw [slots, List.forall_mem_singleton] at hread
    simp only [Slot.key] at hread
    simp only [form, build?]
    rw [hread]
    simp [leaf?, leafD?, record, fields, lookup_cons]
  | define name params body =>
    have hparams : leaves? (define name params body).record "params" = some params :=
      leaves?_leavesField (by simp [record, fields, lookup_cons])
    rw [slots, List.forall_mem_singleton] at hread
    simp only [Slot.key] at hread
    simp only [form, build?]
    rw [hparams, hread]
    simp [leaf?, record, fields, lookup_cons]
  | print values =>
    have hvalues : leaves? (print values).record "values" = some values :=
      leaves?_leavesField (by simp [record, fields, lookup_cons])
    simp only [form, build?]
    rw [hvalues]
    rfl
  | call name args =>
    have hargs : leaves? (call name args).record "args" = some args :=
      leaves?_leavesField (by simp [record, fields, lookup_cons])
    simp only [form, build?]
    rw [hargs]
    simp [leaf?, record, fields, lookup_cons]
  | createList name values =>
    have hvalues : leaves? (createList name values).record "values" = some values :=
      leaves?_leavesField (by simp [record, fields, lookup_cons])
    simp only [form, build?]
    rw [hvalues]
    simp [leaf?, record, fields, lookup_cons]
  | foreign form =>
    have hform : form ∉ formNames := by
      simpa [isNamesake] using h _ (List.mem_singleton_self _)
    exact build?_of_notMem hform _ _
  | comparison c =>
    simp [build?, record, form, fields, condition?, leaf?, Condition.fields, lookup_cons]
  | _ =>
    simp [build?, record, form, fields, leaf?, leafD?, lookup_cons]

/-- What was written is read back as the same command. -/
theorem ofJson?_toJson {c : Command} (h : c.Distinct) : ofJson? c.toJson = some c := by
  induction c using induction_slots with
  | step c ih =>
    by_cases hhole : c = .hole
    · rw [hhole]
      rfl
    · have hslots : ∀ s ∈ c.slots, ofJson? s.2.toJson = some s.2 := fun s hs =>
        ih s hs (h.of_slot hs)
      rw [toJson_of_ne_hole hhole, ofJson?_record]
      exact build?_record h hslots hhole

/-! ## What is read is distinct -/

/-- What is built is no namesake of a known form, and in its slots is what was read for them. -/
private theorem of_build? {form : String} {fields : List (String × Json)}
    {children : List (String × Option Command)} {c : Command}
    (h : build? form fields children = some c) :
    c.isNamesake = false ∧ ∀ s ∈ c.slots, ∃ key, slot? children key = some s.2 := by
  unfold build? at h
  split at h
  all_goals
    simp only [Option.bind_eq_bind, Option.bind_eq_some_iff, Option.pure_def,
      Option.some.injEq] at h
  -- the four forms with slots, and then the ones that are known by their names only
  case h_8 =>
    obtain ⟨c, -, thenBody, hthen, elseBody, helse, rfl⟩ := h
    exact ⟨rfl, List.forall_mem_cons.mpr ⟨⟨_, hthen⟩, List.forall_mem_singleton.mpr ⟨_, helse⟩⟩⟩
  case h_9 =>
    obtain ⟨c, -, body, hbody, rfl⟩ := h
    exact ⟨rfl, List.forall_mem_singleton.mpr ⟨_, hbody⟩⟩
  case h_10 =>
    obtain ⟨counter, -, start, -, stop, -, step, -, body, hbody, rfl⟩ := h
    exact ⟨rfl, List.forall_mem_singleton.mpr ⟨_, hbody⟩⟩
  case h_11 =>
    obtain ⟨name, -, params, -, body, hbody, rfl⟩ := h
    exact ⟨rfl, List.forall_mem_singleton.mpr ⟨_, hbody⟩⟩
  case h_18 =>
    subst h
    have hform : form ∉ formNames := by
      intro hmem
      simp only [formNames, List.mem_cons, List.not_mem_nil, or_false] at hmem
      grind
    exact ⟨by simpa [isNamesake] using hform, nofun⟩
  all_goals
    cases c with
    | branch | repeatWhile | repeatFor | define | foreign => simp at h
    | _ => exact ⟨rfl, nofun⟩

private theorem Distinct.of_slots {c : Command} (hself : c.isNamesake = false)
    (hslots : ∀ s ∈ c.slots, s.2.Distinct) : c.Distinct := by
  by_cases hhole : c = .hole
  · subst hhole
    exact nofun
  · intro n hn
    rw [preorder_eq_cons hhole, List.mem_cons, List.mem_flatMap] at hn
    rcases hn with rfl | ⟨s, hs, hn⟩
    · exact hself
    · exact hslots s hs n hn

mutual

/-- What is read has no namesakes of known forms in it. -/
theorem distinct_of_ofJson? : ∀ {j : Json} {c : Command}, ofJson? j = some c → c.Distinct
  | .null, _, h => by
    cases h
    exact nofun
  | .obj fields, c, h => by
    rw [ofJson?] at h
    obtain ⟨form, -, hbuild⟩ := Option.bind_eq_some_iff.mp h
    obtain ⟨hself, hslots⟩ := of_build? hbuild
    refine .of_slots hself fun s hs => ?_
    obtain ⟨key, hkey⟩ := hslots s hs
    exact distinct_of_slot? hkey
  | .bool _, _, h | .int _, _, h | .double _, _, h | .str _, _, h | .arr _, _, h => nomatch h

/-- Nor has what is read from a slot. -/
theorem distinct_of_slot? : ∀ {fields : List (String × Json)} {key : String} {c : Command},
    slot? (childrenOf fields) key = some c → c.Distinct
  | [], _, _, h => by
    cases h
    exact nofun
  | (k, value) :: fields, key, c, h => by
    rw [slot?_childrenOf, lookup_cons] at h
    split at h
    next =>
      have hvalue : ofJson? value = some c := h
      exact distinct_of_ofJson? hvalue
    next =>
      have hrest : slot? (childrenOf fields) key = some c := (slot?_childrenOf fields key).trans h
      exact distinct_of_slot? hrest

end

/-! ## Nothing is lost -/

/-- Trees of known forms and of comparisons are distinct. -/
theorem distinct_of_not_foreign {c : Command} (h : ∀ n ∈ c.preorder, ∀ form, n ≠ .foreign form) :
    c.Distinct := by
  intro n hn
  cases n with
  | foreign form => exact absurd rfl (h _ hn form)
  | _ => rfl

/-- Writing commands as JSON loses nothing. A tree of the sixteen forms and of comparisons, whatever
its leaves and its depth, is read back from what was written, in whatever order the fields of each
object have come to be; so two such trees are never written as objects that are the same up to that
order. A tree with other forms in it is read back exactly if none of them has the name of one of
these seventeen. -/
theorem toJson_faithful :
    (∀ c, (∀ n ∈ c.preorder, ∀ form, n ≠ .foreign form) →
      (∀ j, c.toJson.Alike j → ofJson? j = some c) ∧
        ∀ d, (∀ n ∈ d.preorder, ∀ form, n ≠ .foreign form) → c.toJson.Alike d.toJson → c = d) ∧
      ∀ c, ofJson? c.toJson = some c ↔ c.Distinct := by
  refine ⟨fun c hc => ?_, fun c => ⟨distinct_of_ofJson?, ofJson?_toJson⟩⟩
  have hread : ∀ j, c.toJson.Alike j → ofJson? j = some c := fun j hj =>
    (ofJson?_congr hj).symm.trans (ofJson?_toJson (distinct_of_not_foreign hc))
  refine ⟨hread, fun d hd hcd => ?_⟩
  have hsame : some c = some d :=
    (hread d.toJson hcd).symm.trans (ofJson?_toJson (distinct_of_not_foreign hd))
  exact Option.some.inj hsame

/-- A function with an `if` in it that has only an else branch, and in this a comparison. Its fields
are read in another order as well, and it is the same when its body is filled in later. -/
theorem toJson_faithful_nested :
    let body : Command :=
      .branch (some ⟨some "x", some "less", none⟩) .hole (.comparison ⟨none, none, some "y"⟩)
    let c : Command := .define (some "f") (some [some "x", none]) body
    let d : Command := (define (some "f") (some [some "x", none]) .hole).fill .body body
    (∀ n ∈ c.preorder, ∀ form, n ≠ .foreign form) ∧
      c.toJson.Alike (.obj c.record.reverse) ∧ ofJson? (.obj c.record.reverse) = some c ∧
      c.toJson.Alike d.toJson ∧ c = d := by
  intro body c d
  have hforms : ∀ n ∈ c.preorder, ∀ form, n ≠ .foreign form := by
    intro n hn form hform
    subst hform
    simp [c, body, preorder] at hn
  have hreversed : c.toJson.Alike (.obj c.record.reverse) :=
    Json.alike_of_perm (List.reverse_perm _).symm (nodup_record c)
  have hfilled : c.toJson.Alike d.toJson := .refl _
  obtain ⟨hread, hinjective⟩ := toJson_faithful.1 c hforms
  exact ⟨hforms, hreversed, hread _ hreversed, hfilled, hinjective d hforms hfilled⟩

-- a form with a known name that is not the known form
example : ofJson? (toJson (.foreign "print")) = some (.print (some [])) := by decide +kernel

end Command

end PlainCode
