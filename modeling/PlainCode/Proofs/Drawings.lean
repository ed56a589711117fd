import Mathlib.Data.List.Nodup
import PlainCode.Command.Tree
import PlainCode.Proofs.Layout
import PlainCode.Proofs.Serialization
import PlainCode.Proofs.UnreadBodies

/-!
# Drawn trees

Three walks go over a tree: the drawing has a line for each command, the list of all commands has
them in the same order, and so have the objects in its JSON form that have a type. The walks agree
because each of them is told what it does with one command and then goes through its slots
(`preorder_eq_cons`, `placed_eq_cons`, `draw_eq_cons`).

What the line of a command looks like depends on the command and on its address, the slots that lead
to it from the root: on the length of the address, on its last slot, and on whether the command
around it has another one behind this slot (`Command.IsLine`). A line in the drawing of a command in
a slot is such a line in the drawing of the whole tree (`IsLine.inside`), and the main statement
follows from this by induction.
-/

namespace PlainCode

/-! ## Texts of lines -/

namespace Text

/-- Printed entries are joined by newlines, with an empty line behind the last. -/
private theorem printed_eq_unlines (entries : List String) :
    printed entries = unlines (entries ++ [""]) := by
  induction entries with
  | nil =>
    rw [unlines, List.nil_append, String.intercalate_singleton]
    rfl
  | cons e entries ih =>
    obtain ⟨next, rest, hrest⟩ := List.exists_cons_of_ne_nil
      (List.append_ne_nil_of_right_ne_nil entries (List.cons_ne_nil "" []))
    rw [hrest] at ih
    rw [printed, List.map_cons, String.join_cons, List.cons_append, hrest, unlines,
      String.intercalate_cons_cons]
    exact congrArg (e ++ "\n" ++ ·) ih

/-- Entries on one line each are the lines of what is printed. -/
private theorem lines_printed {entries : List String} (h : ∀ e ∈ entries, OneLine e) :
    lines (printed entries) = entries ++ [""] := by
  have hne : entries ++ [""] ≠ [] :=
    List.append_ne_nil_of_right_ne_nil _ (List.cons_ne_nil _ _)
  rw [printed_eq_unlines, lines_unlines hne]
  exact List.forall_mem_append.mpr ⟨h, List.forall_mem_singleton.mpr (by decide)⟩

end Text

/-! ## Objects with a type -/

/-- All slots, in the order in which they are walked over. -/
def Slot.all : List Slot := [.body, .thenBody, .elseBody]

namespace Json

mutual

/-- The objects with a type in a value, each before those inside it: first those in the fields for
slots, in the order of the slots, and then those in any other field. -/
def typed : Json → List Json
  | .obj fields =>
    (if (fields.lookup "type").isSome then [.obj fields] else []) ++
      (Slot.all.flatMap fun slot => ((typedFields fields).lookup slot.key).getD []) ++
      ((typedFields fields).filter fun field => (Slot.all.map Slot.key).all (· != field.1)).flatMap
        Prod.snd
  | .arr items => typedItems items
  | _ => []

/-- The objects with a type in each of the fields. -/
def typedFields : List (String × Json) → List (String × List Json)
  | [] => []
  | (key, value) :: fields => (key, typed value) :: typedFields fields

/-- The objects with a type in the items of a list. -/
def typedItems : List Json → List Json
  | [] => []
  | item :: items => typed item ++ typedItems items

end

end Json

namespace Command

open PlainCode.Text (oneLine_append oneLine_intercalate oneLine_ofList)

/-! ## Commands and their addresses -/

/-- All commands of a tree with their addresses, the slots that lead to them from the root. -/
def placed : Command → List (List Slot × Command)
  | .hole => []
  | .branch c thenBody elseBody =>
    ([], .branch c thenBody elseBody) ::
      ((placed thenBody).map (Prod.map (Slot.thenBody :: ·) id) ++
        (placed elseBody).map (Prod.map (Slot.elseBody :: ·) id))
  | .repeatWhile c body =>
    ([], .repeatWhile c body) :: (placed body).map (Prod.map (Slot.body :: ·) id)
  | .repeatFor counter start stop step body =>
    ([], .repeatFor counter start stop step body) ::
      (placed body).map (Prod.map (Slot.body :: ·) id)
  | .define name params body =>
    ([], .define name params body) :: (placed body).map (Prod.map (Slot.body :: ·) id)
  | command => [([], command)]

/-- The last slot of a command that holds another one. -/
def lastSlot? (c : Command) : Option Slot :=
  ((c.slots.filter fun s => !s.2.isHole).getLast?).map Prod.fst

theorem placed_eq_cons {c : Command} (h : c ≠ .hole) :
    c.placed = ([], c) :: c.slots.flatMap fun s => s.2.placed.map (Prod.map (s.1 :: ·) id) := by
  cases c with
  | hole => exact absurd rfl h
  | branch _ _ elseBody => rw [placed, slots, List.flatMap_cons, List.flatMap_singleton]
  | repeatWhile | repeatFor | define => rw [placed, slots, List.flatMap_singleton]
  | _ => rfl

/-- The commands with addresses are those of the list of all commands, in the same order. -/
private theorem map_snd_placed (c : Command) : c.placed.map Prod.snd = c.preorder := by
  induction c using induction_slots with
  | step c ih =>
    by_cases hhole : c = .hole
    · rw [hhole]
      rfl
    · rw [placed_eq_cons hhole, preorder_eq_cons hhole, List.map_cons, List.map_flatMap]
      refine congrArg (c :: ·) (List.flatMap_congr fun s hs => ?_)
      rw [List.map_map, ← ih s hs]
      rfl

/-- A slot occurs once in a command. -/
theorem nodup_slots (c : Command) : (c.slots.map Prod.fst).Nodup := by
  cases c <;> simp [slots]

theorem at?_cons_of_mem_slots {c : Command} {s : Slot × Command} (h : s ∈ c.slots)
    (path : List Slot) : c.at? (s.1 :: path) = s.2.at? path := by
  rw [at?, (lookup_eq_some_iff_mem (nodup_slots c)).mpr h]
  rfl

theorem mem_inside_iff {placed : List (List Slot × Command)} {slot : Slot} {path : List Slot}
    {n : Command} : (path, n) ∈ placed.map (Prod.map (slot :: ·) id) ↔
      ∃ inner, path = slot :: inner ∧ (inner, n) ∈ placed := by
  rw [List.mem_map]
  constructor
  · intro h
    obtain ⟨⟨inner, m⟩, hmem, heq⟩ := h
    cases heq
    exact ⟨inner, rfl, hmem⟩
  · intro h
    obtain ⟨inner, rfl, hmem⟩ := h
    exact ⟨(inner, n), hmem, rfl⟩

/-- The addresses that are listed are those at which there is a command. -/
private theorem mem_placed_iff {c n : Command} {path : List Slot} :
    (path, n) ∈ c.placed ↔ n ≠ .hole ∧ c.at? path = some n := by
  induction c using induction_slots generalizing path with
  | step c ih =>
    by_cases hhole : c = .hole
    · subst hhole
      cases path with
      | nil => exact ⟨nofun, fun h => absurd (Option.some.inj h.2).symm h.1⟩
      | cons => exact ⟨nofun, fun h => nomatch h.2⟩
    · rw [placed_eq_cons hhole, List.mem_cons, List.mem_flatMap]
      cases path with
      | nil =>
        constructor
        · intro h
          rcases h with h | ⟨s, -, h⟩
          · cases h
            exact ⟨hhole, rfl⟩
          · obtain ⟨inner, hinner, -⟩ := mem_inside_iff.mp h
            cases hinner
        · intro h
          cases h.2
          exact .inl rfl
      | cons slot path =>
        constructor
        · intro h
          rcases h with h | ⟨s, hs, h⟩
          · cases h
          · obtain ⟨inner, hinner, hmem⟩ := mem_inside_iff.mp h
            cases hinner
            rw [at?_cons_of_mem_slots hs]
            exact (ih s hs).mp hmem
        · intro h
          obtain ⟨child, hchild, hat⟩ := Option.bind_eq_some_iff.mp h.2
          have hs := (lookup_eq_some_iff_mem (nodup_slots c)).mp hchild
          exact .inr ⟨_, hs, mem_inside_iff.mpr ⟨path, rfl, (ih _ hs).mpr ⟨h.1, hat⟩⟩⟩

/-- No address is listed twice. -/
private theorem nodup_placed (c : Command) : (c.placed.map Prod.fst).Nodup := by
  induction c using induction_slots with
  | step c ih =>
    by_cases hhole : c = .hole
    · rw [hhole]
      exact .nil
    · have hinside : ∀ s : Slot × Command,
          (s.2.placed.map (Prod.map (s.1 :: ·) id)).map Prod.fst
            = (s.2.placed.map Prod.fst).map (s.1 :: ·) := fun s => by
        rw [List.map_map, List.map_map]
        rfl
      rw [placed_eq_cons hhole, List.map_cons, List.map_flatMap, List.nodup_cons,
        List.nodup_flatMap]
      simp only [hinside]
      refine ⟨?_, fun s hs => (ih s hs).map (List.cons_injective), ?_⟩
      · intro hmem
        obtain ⟨s, -, hmem⟩ := List.mem_flatMap.mp hmem
        obtain ⟨inner, -, hinner⟩ := List.mem_map.mp hmem
        cases hinner
      · refine (List.pairwise_map.mp (nodup_slots c)).imp fun {s u} hne => ?_
        intro path hs hu
        obtain ⟨_, -, rfl⟩ := List.mem_map.mp hs
        obtain ⟨_, -, heq⟩ := List.mem_map.mp hu
        exact hne (List.cons.inj heq).1.symm

/-! ## Lines -/

/-- For a hole it makes no difference whether it is the last one: nothing is drawn. -/
theorem draw_congr {c : Command} {last other : Bool} (h : c.isHole = false → last = other)
    (margin label : String) : c.draw margin last label = c.draw margin other label := by
  cases c with
  | hole => rfl
  | _ => rw [h rfl]

/-- In the only slot of a command stands the last one. -/
private theorem lastSlot?_of_slots {c body : Command} {slot : Slot} (h : c.slots = [(slot, body)])
    (hbody : body.isHole = false) : c.lastSlot? = some slot := by
  rw [lastSlot?, h, List.filter_singleton, hbody]
  rfl

private theorem lastSlot?_branch (c : Option Condition) (thenBody elseBody : Command) :
    (branch c thenBody elseBody).lastSlot? = if elseBody.isHole then
      (if thenBody.isHole then none else some .thenBody) else some .elseBody := by
  rw [lastSlot?, slots, List.filter_cons, List.filter_singleton]
  cases thenBody.isHole <;> cases elseBody.isHole <;> rfl

/-- A drawing is the line of a command and the drawings of those in its slots, further in. -/
theorem draw_eq_cons {c : Command} (h : c ≠ .hole) (margin : String) (last : Bool)
    (label : String) :
    c.draw margin last label = entry margin last label c :: c.slots.flatMap fun s =>
      s.2.draw (margin ++ continuation last) (c.lastSlot? == some s.1) s.1.name := by
  cases c with
  | hole => exact absurd rfl h
  | branch c thenBody elseBody =>
    rw [draw, slots, List.flatMap_cons, List.flatMap_singleton, lastSlot?_branch]
    refine congrArg (_ :: ·) (congrArg₂ (· ++ ·) (draw_congr ?_ ..) (draw_congr ?_ ..))
    · intro hthen
      rw [hthen]
      cases elseBody.isHole <;> rfl
    · intro helse
      rw [helse]
      rfl
  | repeatWhile _ body | repeatFor _ _ _ _ body | define _ _ body =>
    rw [draw, slots, List.flatMap_singleton]
    refine congrArg (_ :: ·) (draw_congr (fun hbody => ?_) ..)
    rw [lastSlot?_of_slots rfl hbody, beq_self_eq_true]
  | _ => rfl

/-- The name in front of a command: that of its slot, or a label that is given for the root. -/
def tag (label : String) (address : List Slot) : String :=
  match address.getLast? with
  | none => if label = "" then "" else label ++ ": "
  | some slot => slot.name ++ ": "

/-- Whether the command at an address is the last one in its parent. For the root, which has none,
this is given. -/
def IsLast (root : Command) (last : Bool) (address : List Slot) : Prop :=
  match address.getLast? with
  | none => last = true
  | some slot => (root.at? address.dropLast).bind lastSlot? = some slot

/-- A line of the drawing of a tree: the one of the command at an address. Behind the margin there
are four columns for each command around this one, and four for the lines that lead to it. Then come
the tag and the form of the command, and nothing else but what is in parentheses. -/
def IsLine (root : Command) (margin : String) (last : Bool) (label : String)
    (address : List Slot) (command : Command) (line : String) : Prop :=
  ∃ rails final rest,
    line = margin ++ rails ++ connector final ++ tag label address ++ command.heading ++ rest ∧
      (margin ++ rails ++ connector final).length = margin.length + 4 * address.length + 4 ∧
      (final = true ↔ root.IsLast last address) ∧
      (rest = "" ∨ ∃ details, rest = " (" ++ details ++ ")")

section

variable {root : Command} {margin label line : String} {last : Bool}

/-- A command is shown with its form in front. -/
private theorem exists_caption (c : Command) : ∃ rest, c.caption = c.heading ++ rest ∧
    (rest = "" ∨ ∃ details, rest = " (" ++ details ++ ")") := by
  rw [caption]
  cases c.details with
  | nil => exact ⟨"", String.append_empty.symm, .inl rfl⟩
  | cons d ds =>
    refine ⟨" (" ++ cutOff (", ".intercalate (d :: ds)) ++ ")", ?_, .inr ⟨_, rfl⟩⟩
    simp only [String.append_assoc]

private theorem tag_cons (label : String) (slot : Slot) (address : List Slot) :
    tag label (slot :: address) = tag slot.name address := by
  cases address with
  | nil => cases slot <;> rfl
  | cons next address =>
    rw [tag, tag, List.getLast?_cons_cons]
    cases hlast : (next :: address).getLast? with
    | none => exact absurd (List.getLast?_eq_none_iff.mp hlast) (List.cons_ne_nil _ _)
    | some _ => rfl

/-- Inside a slot the last ones are those inside its command, which itself is the last one in its
parent or not. -/
private theorem isLast_cons {s : Slot × Command} (h : s ∈ root.slots) (last : Bool)
    (address : List Slot) :
    root.IsLast last (s.1 :: address) ↔ s.2.IsLast (root.lastSlot? == some s.1) address := by
  cases address with
  | nil =>
    show root.lastSlot? = some s.1 ↔ (root.lastSlot? == some s.1) = true
    exact beq_iff_eq.symm
  | cons next address =>
    rw [IsLast, IsLast, List.getLast?_cons_cons, List.dropLast_cons_cons,
      at?_cons_of_mem_slots h]
    cases hlast : (next :: address).getLast? with
    | none => exact absurd (List.getLast?_eq_none_iff.mp hlast) (List.cons_ne_nil _ _)
    | some _ => rfl

/-- The line of a command in a slot is its line in the whole tree. -/
theorem IsLine.inside {s : Slot × Command} (hs : s ∈ root.slots) {address : List Slot}
    {n : Command}
    (h : s.2.IsLine (margin ++ continuation last) (root.lastSlot? == some s.1) s.1.name address n
      line) : root.IsLine margin last label (s.1 :: address) n line := by
  obtain ⟨rails, final, rest, hline, hlength, hfinal, hrest⟩ := h
  refine ⟨continuation last ++ rails, final, rest, ?_, ?_, ?_, hrest⟩
  · rw [hline, tag_cons]
    simp only [String.append_assoc]
  · have hstep : (continuation last).length = 4 := by cases last <;> decide
    simp only [String.length_append, List.length_cons] at hlength ⊢
    omega
  · rw [hfinal, isLast_cons hs]

/-- The line of the root. -/
private theorem isLine_root (c : Command) :
    c.IsLine margin last label [] c (entry margin last label c) := by
  obtain ⟨rest, hcaption, hrest⟩ := exists_caption c
  refine ⟨"", last, rest, ?_, ?_, Iff.rfl, hrest⟩
  · rw [entry, hcaption, String.append_empty, ← String.append_assoc]
    rfl
  · have hconnector : (connector last).length = 4 := by cases last <;> decide
    rw [String.length_append, String.append_empty, hconnector]
    rfl

/-- The lines of a drawing are those of the commands at all addresses, in order. -/
private theorem forall₂_draw (c : Command) : ∀ (margin : String) (last : Bool) (label : String),
    List.Forall₂ (fun p line => c.IsLine margin last label p.1 p.2 line) c.placed
      (c.draw margin last label) := by
  induction c using induction_slots with
  | step c ih =>
    intro margin last label
    by_cases hhole : c = .hole
    · rw [hhole]
      exact .nil
    · rw [placed_eq_cons hhole, draw_eq_cons hhole]
      refine .cons (isLine_root c) ?_
      have hslots : List.Forall₂ (fun s u => s = u ∧ s ∈ c.slots) c.slots c.slots :=
        List.forall₂_same.mpr fun s hs => ⟨rfl, hs⟩
      refine List.rel_flatMap hslots ?_
      intro s u hsu
      obtain ⟨rfl, hs⟩ := hsu
      rw [List.forall₂_map_left_iff]
      exact (ih s hs _ _ _).imp fun p line hline => hline.inside hs

end

/-! ## One line each -/

private theorem oneLine_shown {name : String} (hname : Text.OneLine name) {leaf : Leaf}
    (h : leaf.OneLine) : ∀ d ∈ shown name leaf, Text.OneLine d := by
  cases leaf with
  | none => exact nofun
  | some value =>
    refine List.forall_mem_singleton.mpr ?_
    rw [oneLine_append, oneLine_append]
    exact ⟨⟨hname, by decide⟩, h value rfl⟩

theorem oneLine_shownList {name : String} (hname : Text.OneLine name) {values : Leaves}
    (h : ∀ leaf ∈ values.items, leaf.OneLine) : ∀ d ∈ shownList name values, Text.OneLine d := by
  cases values with
  | none => exact nofun
  | some values =>
    refine List.forall_mem_singleton.mpr ?_
    have hvalues : Text.OneLine (", ".intercalate (values.map Leaf.shown)) :=
      oneLine_intercalate (by decide)
        (List.forall_mem_map.mpr fun leaf hleaf => (h leaf hleaf).shown)
    simp only [oneLine_append]
    exact ⟨⟨⟨hname, by decide⟩, hvalues⟩, by decide⟩

private theorem oneLine_shownCondition {c : Option Condition}
    (h : ∀ leaf ∈ c.toList.flatMap Condition.leaves, leaf.OneLine) :
    ∀ d ∈ shownCondition c, Text.OneLine d := by
  cases c with
  | none => exact nofun
  | some c =>
    refine List.forall_mem_singleton.mpr ?_
    have hleaves : ∀ leaf ∈ c.leaves, Text.OneLine leaf.shown := fun leaf hleaf =>
      (h leaf (by simpa using hleaf)).shown
    simp only [Condition.leaves, List.forall_mem_cons] at hleaves
    simp only [oneLine_append]
    exact ⟨⟨⟨⟨⟨by decide, hleaves.1⟩, by decide⟩, hleaves.2.1⟩, by decide⟩, hleaves.2.2.1⟩

/-- The fields of a command are shown on one line each. -/
private theorem oneLine_details {c : Command} (h : c.OneLine) :
    ∀ d ∈ c.details, Text.OneLine d := by
  have hshown : ∀ {name : String} {leaf : Leaf}, Text.OneLine name → leaf ∈ c.leaves →
      ∀ d ∈ shown name leaf, Text.OneLine d := fun hname hleaf => oneLine_shown hname (h _ hleaf)
  cases c with
  | hole | foreign => exact nofun
  | print values => exact oneLine_shownList (by decide) h
  | branch c | repeatWhile c => exact oneLine_shownCondition h
  | define name params | call name params | createList name params =>
    exact List.forall_mem_append.mpr ⟨hshown (by decide) (by simp [leaves]),
      oneLine_shownList (by decide) (List.forall_mem_cons.mp h).2⟩
  | _ =>
    simp only [details, List.forall_mem_append]
    and_intros <;> exact hshown (by decide) (by simp [leaves, Condition.leaves])

private theorem oneLine_cutOff {text : String} (h : Text.OneLine text) :
    Text.OneLine (cutOff text) := by
  rw [cutOff]
  split
  next =>
    rw [oneLine_append, oneLine_ofList]
    exact ⟨fun hmem => h (List.mem_of_mem_take hmem), by decide⟩
  next => exact h

theorem oneLine_heading {c : Command} (h : c.OneLine) : Text.OneLine c.heading := by
  have hforms : ∀ form ∈ formNames, Text.OneLine form ∧ Text.OneLine form.toUpper := by
    decide +kernel
  cases c with
  | hole => decide
  | foreign form => exact h (some form) (List.mem_singleton_self _) form rfl
  | comparison =>
    rw [heading, if_neg (by rw [isKnown]; decide)]
    exact (hforms _ (by simp [form, formNames])).1
  | _ =>
    rw [heading, if_pos (by rfl)]
    exact (hforms _ (by simp [form, formNames])).2

private theorem oneLine_caption {c : Command} (h : c.OneLine) : Text.OneLine c.caption := by
  have hdetails := oneLine_intercalate (show Text.OneLine ", " by decide) (oneLine_details h)
  rw [caption]
  split
  next => exact oneLine_heading h
  next =>
    simp only [oneLine_append]
    exact ⟨⟨⟨oneLine_heading h, by decide⟩, oneLine_cutOff hdetails⟩, by decide⟩

/-- Nothing but the texts in a tree and around it brings a newline into its drawing. -/
private theorem oneLine_draw {c : Command} (h : ∀ n ∈ c.preorder, n.OneLine) {margin label : String}
    (last : Bool) (hmargin : Text.OneLine margin) (hlabel : Text.OneLine label) :
    ∀ line ∈ c.draw margin last label, Text.OneLine line := by
  induction c using induction_slots generalizing margin last label with
  | step c ih =>
    by_cases hhole : c = .hole
    · rw [hhole]
      exact nofun
    · rw [preorder_eq_cons hhole, List.forall_mem_cons] at h
      rw [draw_eq_cons hhole, List.forall_mem_cons]
      refine ⟨?_, fun line hline => ?_⟩
      · have hconnector : Text.OneLine (connector last) := by cases last <;> decide
        have htag : Text.OneLine (if label = "" then "" else label ++ ": ") := by
          split
          next => decide
          next => exact oneLine_append.mpr ⟨hlabel, by decide⟩
        simp only [entry, oneLine_append]
        exact ⟨⟨⟨hmargin, hconnector⟩, htag⟩, oneLine_caption h.1⟩
      · obtain ⟨s, hs, hline⟩ := List.mem_flatMap.mp hline
        have hcontinuation : Text.OneLine (continuation last) := by cases last <;> decide
        have hname : Text.OneLine s.1.name := by cases s.1 <;> decide
        exact ih s hs (fun n hn => h.2 n (List.mem_flatMap_of_mem hs hn)) _
          (oneLine_append.mpr ⟨hmargin, hcontinuation⟩) hname line hline

/-! ## Objects in the order of the drawing -/

private theorem typed_str (s : String) : (Json.str s).typed = [] := rfl

theorem typed_ofString? (leaf : Leaf) : (Json.ofString? leaf).typed = [] := by
  cases leaf <;> rfl

private theorem typedItems_map_ofString? (leaves : List Leaf) :
    Json.typedItems (leaves.map Json.ofString?) = [] := by
  induction leaves with
  | nil => rfl
  | cons leaf leaves ih => rw [List.map_cons, Json.typedItems, typed_ofString?, ih]; rfl

theorem typedFields_cons (field : String × Json) (fields : List (String × Json)) :
    Json.typedFields (field :: fields) = (field.1, field.2.typed) :: Json.typedFields fields := rfl

theorem typed_leafField (key : String) (leaf : Leaf) : (leafField key leaf).2.typed = [] :=
  typed_ofString? leaf

theorem typed_leavesField (key : String) (leaves : Leaves) :
    (leavesField key leaves).2.typed = [] := by
  cases leaves with
  | none => rfl
  | some leaves => exact typedItems_map_ofString? leaves

theorem typed_conditionField (c : Option Condition) : (conditionField c).2.typed = [] := by
  cases c with
  | none => rfl
  | some c =>
    simp [conditionField, Condition.fields, Json.typed, Json.typedFields, typed_ofString?,
      Slot.all, Slot.key, lookup_cons]

/-- The objects with a type among the fields of a command are those in its slots, in order. -/
private theorem typed_record {c : Command} (h : c ≠ .hole) :
    (Json.obj c.record).typed = .obj c.record :: c.slots.flatMap fun s => s.2.toJson.typed := by
  have htype : (c.record.lookup "type").isSome = true := by
    rw [record, List.lookup_cons_self]
    rfl
  rw [Json.typed, if_pos htype, List.append_assoc, List.singleton_append]
  refine congrArg (_ :: ·) ?_
  cases c with
  | hole => exact absurd rfl h
  | branch c thenBody elseBody =>
    cases hthen : thenBody.isHole <;> cases helse : elseBody.isHole <;>
      simp [record, fields, slots, slotField, toJson, hthen, helse, typedFields_cons,
        typed_conditionField, Json.typedFields, Json.typed, Slot.all, Slot.key, lookup_cons]
  | repeatWhile _ body | repeatFor _ _ _ _ body | define _ _ body =>
    cases hbody : body.isHole <;>
      simp [record, fields, slots, slotField, toJson, hbody, typedFields_cons,
        typed_conditionField, typed_leafField, typed_leavesField, Json.typedFields, Json.typed,
        Slot.all, Slot.key, lookup_cons]
  | _ =>
    simp [record, fields, Condition.fields, slots, typedFields_cons, typed_str, typed_ofString?,
      typed_leafField, typed_leavesField, Json.typedFields, Slot.all, Slot.key, lookup_cons]

private theorem typed_toJson (c : Command) : c.toJson.typed = c.preorder.map toJson := by
  induction c using induction_slots with
  | step c ih =>
    by_cases hhole : c = .hole
    · rw [hhole]
      rfl
    · rw [toJson_of_ne_hole hhole, typed_record hhole, preorder_eq_cons hhole, List.map_cons,
        toJson_of_ne_hole hhole, List.map_flatMap]
      exact congrArg (_ :: ·) (List.flatMap_congr ih)

/-! ## The three walks -/

/-- **The three walks agree.** The drawing of a tree without newlines in its texts has one line for
each command: the lines are those of all commands in order, and these are also what the objects with
a type in its JSON form stand for, in the same order. Each line shows the form of its command,
behind its tag, as far from the margin as the command is deep in the tree; and the lines that lead
to it say whether it is the last one in its parent (`IsLine`). -/
theorem walks_agree {c : Command} (h : ∀ n ∈ c.preorder, n.OneLine) (margin label : String)
    (last : Bool) (hmargin : Text.OneLine margin) (hlabel : Text.OneLine label) :
    Text.lines (printed (c.draw margin last label)) = c.draw margin last label ++ [""] ∧
      List.Forall₂ (fun p line => c.IsLine margin last label p.1 p.2 line) c.placed
        (c.draw margin last label) ∧
      (∀ path n, (path, n) ∈ c.placed ↔ n ≠ .hole ∧ c.at? path = some n) ∧
      (c.placed.map Prod.fst).Nodup ∧ c.placed.map Prod.snd = c.preorder ∧
      c.toJson.typed = c.preorder.map toJson :=
  ⟨Text.lines_printed (oneLine_draw h last hmargin hlabel), forall₂_draw c margin last label,
    fun _ _ => mem_placed_iff, nodup_placed c, map_snd_placed c, typed_toJson c⟩

/-- A function with an `if` in it that has only an else branch, and in this a comparison. -/
theorem walks_agree_nested :
    let c : Command := .define (some "f") (some [some "x"])
      (.branch (some ⟨some "x", some "less", some "0"⟩) .hole
        (.comparison ⟨some "x", some "equal", none⟩))
    (∀ n ∈ c.preorder, n.OneLine) ∧ Text.OneLine "| " ∧ Text.OneLine "main" ∧
      Text.lines (printed (c.draw "| " false "main"))
        = ["| ├── main: FUNCTION_DEF (name=f, params=[x])",
          "| │   └── body: IF_STATEMENT (condition=x less 0)",
          "| │       └── else_body: Condition (left=x, operator=equal)", ""] := by
  intro c
  have htexts : ∀ n ∈ c.preorder, n.OneLine := by decide +kernel
  have hlines := walks_agree htexts "| " "main" false (by decide) (by decide)
  exact ⟨htexts, by decide, by decide, hlines.1.trans (by decide +kernel)⟩

end Command

end PlainCode
