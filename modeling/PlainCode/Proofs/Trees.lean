import PlainCode.Code.Program
import PlainCode.Proofs.Reading

/-!
# Commands at every depth

What is said of a command is often meant of every command in its tree. `Command.preorder` lists
those, and the statements here are about `∀ n ∈ c.preorder, …`: how it is kept when a slot is
filled (`forall_preorder_fill`), and that it holds of everything that is read as soon as it holds of
what each rule leaves (`forall_preorder_of_parse`).

The first use of it is `Command.Proper`: every command that is read is of a form that the targets
know, at every depth, and has an operator that they know where its form has one
(`proper_of_parse`). So code can be written for every command that was read (`write_of_parse`).
-/

namespace PlainCode

theorem Code.unknownComparison?_eq_none_iff {c : Option Condition} :
    unknownComparison? c = none ↔
      (c.any fun c => (Condition.sign? c.operator).isSome) = true := by
  cases c with
  | none => exact ⟨nofun, nofun⟩
  | some c =>
    show (if (Condition.sign? c.operator).isSome then none else some c.operator) = none ↔
      (Condition.sign? c.operator).isSome = true
    cases Condition.sign? c.operator with
    | none => exact ⟨nofun, nofun⟩
    | some sign => exact ⟨fun _ => rfl, fun _ => rfl⟩

namespace Command

/-- Whether the operator of a command, if it has one, is one of those that there are. -/
def hasKnownOperator : Command → Bool
  | .compute operator _ _ _ => (Command.sign? operator).isSome
  | .branch c _ _ | .repeatWhile c _ => c.any fun c => (Condition.sign? c.operator).isSome
  | _ => true

/-- A command of a form that the targets know, with an operator that they know if it has one. What
is of no such form would be written as a comment that says so, and what has no such operator not at
all. -/
def Proper (c : Command) : Prop := c.isKnown = true ∧ c.hasKnownOperator = true

instance : DecidablePred Proper := fun _ => inferInstanceAs (Decidable (_ ∧ _))

/-- Filling a slot leaves the command around it as it is. -/
private theorem proper_fill {c : Command} (h : c.Proper) (slot : Slot) (child : Command) :
    (c.fill slot child).Proper := by
  cases c <;> cases slot <;> exact h

private theorem proper_of_fresh {c : Command} (h : c.Fresh) : c.Proper := by
  cases c with
  | hole | comparison | foreign => cases h
  | compute => exact ⟨rfl, h⟩
  | branch => exact ⟨rfl, Code.unknownComparison?_eq_none_iff.mp h.1⟩
  | repeatWhile => exact ⟨rfl, Code.unknownComparison?_eq_none_iff.mp h.1⟩
  | _ => exact ⟨rfl, rfl⟩

/-- What holds of all commands of two trees holds of all commands of the one with the other in a
slot. -/
theorem forall_preorder_fill {P : Command → Prop}
    (hfill : ∀ c slot child, P c → P (c.fill slot child)) {c child : Command} {slot : Slot}
    (hc : ∀ n ∈ c.preorder, P n) (hchild : ∀ n ∈ child.preorder, P n) :
    ∀ n ∈ (c.fill slot child).preorder, P n := by
  have hself : ∀ {n}, n ∈ c.preorder → P (n.fill slot child) := fun hn => hfill _ _ _ (hc _ hn)
  unfold fill at hself ⊢
  split
  next thenBody elseBody _ =>
    rw [preorder, List.forall_mem_cons, List.forall_mem_append] at hc ⊢
    exact ⟨hself (List.mem_cons_self ..), hchild, hc.2.2⟩
  next thenBody elseBody _ =>
    rw [preorder, List.forall_mem_cons, List.forall_mem_append] at hc ⊢
    exact ⟨hself (List.mem_cons_self ..), hc.2.1, hchild⟩
  next =>
    rw [preorder, List.forall_mem_cons]
    exact ⟨hself (List.mem_cons_self ..), hchild⟩
  next =>
    rw [preorder, List.forall_mem_cons]
    exact ⟨hself (List.mem_cons_self ..), hchild⟩
  next =>
    rw [preorder, List.forall_mem_cons]
    exact ⟨hself (List.mem_cons_self ..), hchild⟩
  next => exact hc

end Command

/-- What rules make of tokens of a kind holds of everything that is read from them, at every
depth. -/
theorem forall_preorder_of_parse {T : Token → Prop} {P : Command → Prop} {rules : List Rule}
    (hrule : ∀ (rule : Rule) ts m, rule.Reads ts m → (∀ t ∈ ts, T t) → P m.command)
    (hfill : ∀ c slot child, P c → P (c.fill slot child)) {ts : List Token} {p : Parsed}
    (h : parse rules ts = .ok p) (hts : ∀ t ∈ ts, T t) : ∀ n ∈ p.command.preorder, P n := by
  refine parse_rec (motive := fun ts p => (∀ t ∈ ts, T t) → ∀ n ∈ p.command.preorder, P n)
    ?_ h hts
  intro ts rule m _ hread ih hts
  refine Parsed.fillSlots_induction (P := fun c => ∀ n ∈ c.preorder, P n)
    (fun c slot child => Command.forall_preorder_fill hfill) m.spans m.command ?_ ?_
  · -- the tokens for a slot are some of those of the command
    intro s hs p hp
    exact ih s hs p hp fun t ht => hts t ((hread.span_lt hs).2.subset ht)
  · rw [Command.preorder_of_fresh hread.fresh, List.forall_mem_singleton]
    exact hrule rule ts m hread hts

/-- Whatever is read is proper at every depth. -/
theorem proper_of_parse {rules : List Rule} {ts : List Token} {p : Parsed}
    (h : parse rules ts = .ok p) : ∀ n ∈ p.command.preorder, n.Proper :=
  forall_preorder_of_parse (T := fun _ => True)
    (fun _ _ _ hread _ => Command.proper_of_fresh hread.fresh)
    (fun _ slot child hc => Command.proper_fill hc slot child) h fun _ _ => trivial

/-- What is read is a command. -/
theorem ne_hole_of_parse {rules : List Rule} {ts : List Token} {p : Parsed}
    (h : parse rules ts = .ok p) : p.command ≠ .hole := by
  refine parse_induction (P := (· ≠ .hole)) ?_ ?_ h
  · intro rule _ ts m hread hhole
    have hfresh := hread.fresh
    rw [hhole] at hfresh
    exact hfresh
  · intro c slot child hc _ hhole
    cases c with
    | hole => exact hc rfl
    | _ => cases slot <;> cases hhole

namespace Code

/-- A tree in which every command has an operator that there is has no unknown one. -/
theorem unknownOperator?_of_known {c : Command}
    (h : ∀ n ∈ c.preorder, n.hasKnownOperator = true) : unknownOperator? c = none := by
  induction c with
  | compute operator => exact if_pos (h _ (List.mem_singleton.mpr rfl))
  | branch c thenBody elseBody ihThen ihElse =>
    rw [Command.preorder, List.forall_mem_cons, List.forall_mem_append] at h
    rw [unknownOperator?, unknownComparison?_eq_none_iff.mpr h.1, ihThen h.2.1, ihElse h.2.2]
    rfl
  | repeatWhile c body ih =>
    rw [Command.preorder, List.forall_mem_cons] at h
    rw [unknownOperator?, unknownComparison?_eq_none_iff.mpr h.1, ih h.2]
    rfl
  | repeatFor _ _ _ _ body ih | define _ _ body ih =>
    rw [Command.preorder, List.forall_mem_cons] at h
    exact ih h.2
  | _ => rfl

/-- The operators of a tree of proper commands are all known. -/
theorem unknownOperator?_of_proper {c : Command} (h : ∀ n ∈ c.preorder, n.Proper) :
    unknownOperator? c = none :=
  unknownOperator?_of_known fun n hn => (h n hn).2

/-- No command that was read has an operator that the target languages lack. -/
theorem unknownOperator?_of_parse {rules : List Rule} {ts : List Token} {p : Parsed}
    (h : parse rules ts = .ok p) : unknownOperator? p.command = none :=
  unknownOperator?_of_proper (proper_of_parse h)

/-- Code is written for every command that was read. -/
theorem write_of_parse {rules : List Rule} {ts : List Token} {p : Parsed}
    (h : parse rules ts = .ok p) (t : Target) :
    write t p.command = .ok (render (linesOf t p.command)) := by
  rw [write, unknownOperator?_of_parse h]

/-- Code is written for every program of commands with operators that the target languages have. -/
theorem writeProgram_of_known {commands : List Command}
    (h : ∀ c ∈ commands, unknownOperator? c = none) (t : Target) :
    writeProgram t commands = .ok (render (programLines t commands)) := by
  have hnone :
      (functionsOf commands ++ statementsOf commands).findSome? unknownOperator? = none := by
    rw [List.findSome?_eq_none_iff]
    intro c hc
    rcases List.mem_append.mp hc with hc | hc
    · exact h c (List.mem_filter.mp hc).1
    · exact h c (List.mem_filter.mp hc).1
  rw [writeProgram, hnone]

end Code

end PlainCode
