import PlainCode.Code.Statement
import PlainCode.Proofs.Matches

/-!
# What is read as a command

A command is read in two ways that take turns: a rule reads it with its slots empty, and the slots
are filled with commands that were read before. The number of tokens bounds how often that happens,
but it does not show in what is read (`parse_cons`). So whatever holds of a command as a rule leaves
it (`Command.Fresh`), and stays when a slot is filled, holds of every command that is read, however
deep (`parse_rec`, `parse_induction`).
-/

namespace PlainCode

/-! ## Commands as rules leave them -/

/-- A command with an operator that there is, if its form has one, and with nothing in its slots.
Its form is one of those that the rules know. -/
def Command.Fresh : Command → Prop
  | .hole | .comparison _ | .foreign _ => False
  | .compute operator _ _ _ => (Command.sign? operator).isSome
  | .branch c thenBody elseBody =>
    Code.unknownComparison? c = none ∧ thenBody = .hole ∧ elseBody = .hole
  | .repeatWhile c body => Code.unknownComparison? c = none ∧ body = .hole
  | .repeatFor _ _ _ _ body => body = .hole
  | .define _ _ body => body = .hole
  | _ => True

/-- A command with empty slots is the only one in its tree. -/
theorem Command.preorder_of_fresh {c : Command} (h : c.Fresh) : c.preorder = [c] := by
  cases c with
  | hole => cases h
  | branch => obtain ⟨_, rfl, rfl⟩ := h; rfl
  | repeatWhile => obtain ⟨_, rfl⟩ := h; rfl
  | repeatFor | define => cases h; rfl
  | _ => rfl

/-- What a comparison of the grammar means is an operator that there is. -/
theorem Comparison.known (c : Comparison) : Code.unknownComparison? (some c.condition) = none := by
  obtain ⟨left, k, right⟩ := c
  cases k <;> rfl

private theorem Rule.sign?_of_arithmeticWords {operator : String}
    (h : operator ∈ Vocabulary.arithmeticWords) : (Command.sign? (some operator)).isSome := by
  have hall : ∀ word ∈ Vocabulary.arithmeticWords, (Command.sign? (some word)).isSome := by decide
  exact hall operator h

/-- What a rule reads is fresh. -/
theorem Rule.Reads.fresh {rule : Rule} {ts : List Token} {m : Match} (h : rule.Reads ts m) :
    m.command.Fresh := by
  cases h with
  -- the rules that read an operator
  | repeatWhile c => exact ⟨c.known, rfl⟩
  | branch c => exact ⟨c.known, rfl, rfl⟩
  | compute _ hword => exact sign?_of_arithmeticWords hword
  -- the other rules, whose commands are fresh whatever they read
  | define | repeatFor => rfl
  | _ => trivial

/-! ## Reading calls itself -/

namespace Parsed

/-- What filling one slot preserves, filling all slots preserves. `Q` is what is known of the
commands that come into the slots. -/
theorem fillSlots_induction {P Q : Command → Prop} {parse : List Token → Except ParseError Parsed}
    (hfill : ∀ c slot child, P c → Q child → P (c.fill slot child)) :
    ∀ (spans : List (Slot × List Token)) (c : Command),
      (∀ s ∈ spans, ∀ p, parse s.2 = .ok p → Q p.command) → P c → P (fillSlots parse spans c).1
  | [], _, _, hc => hc
  | (slot, span) :: rest, c, hparse, hc => by
    have hrest : ∀ s ∈ rest, ∀ p, parse s.2 = .ok p → Q p.command :=
      fun s hs => hparse s (List.mem_cons_of_mem _ hs)
    unfold fillSlots
    split
    next => exact fillSlots_induction hfill rest c hrest hc
    next =>
      split
      next child hchild =>
        exact fillSlots_induction hfill rest _ hrest
          (hfill c slot child.command hc (hparse _ (List.mem_cons_self ..) child hchild))
      next => exact fillSlots_induction hfill rest c hrest hc

/-- Slots are filled by reading their tokens, and nothing else. -/
theorem fillSlots_congr {f g : List Token → Except ParseError Parsed} :
    ∀ (spans : List (Slot × List Token)) (c : Command), (∀ s ∈ spans, f s.2 = g s.2) →
      fillSlots f spans c = fillSlots g spans c
  | [], _, _ => rfl
  | (slot, span) :: rest, c, h => by
    have hspan : f span = g span := h _ (List.mem_cons_self ..)
    have hrest : ∀ c, fillSlots f rest c = fillSlots g rest c := fun c =>
      fillSlots_congr rest c fun s hs => h s (List.mem_cons_of_mem _ hs)
    simp only [fillSlots, hspan, hrest]

/-- Reading gives the same for every depth that the tokens can need. -/
theorem parseWithin_eq {rules : List Rule} : ∀ {depth other : Nat} {ts : List Token},
    ts.length ≤ depth → ts.length ≤ other →
      parseWithin rules depth ts = parseWithin rules other ts
  | depth, other, [], _, _ => by cases depth <;> cases other <;> rfl
  | depth + 1, other + 1, t :: ts, hdepth, hother => by
    rw [List.length_cons] at hdepth hother
    rw [parseWithin, parseWithin]
    cases hfirst : firstMatch? rules (t :: ts) with
    | none => rfl
    | some found =>
      obtain ⟨rule, m⟩ := found
      have hread := Rule.reads_of_accept? (accept?_of_firstMatch? hfirst).2
      -- the tokens of a slot are fewer, so one depth less is still enough for them
      have hspans : ∀ s ∈ m.spans, parseWithin rules depth s.2 = parseWithin rules other s.2 := by
        intro s hs
        have hlt := (hread.span_lt hs).1
        rw [List.length_cons] at hlt
        exact parseWithin_eq (by omega) (by omega)
      dsimp only
      rw [fillSlots_congr m.spans m.command hspans]

end Parsed

/-- Tokens are read by the first rule that reads them, and those for its slots are read in the same
way. -/
theorem parse_cons (rules : List Rule) (t : Token) (ts : List Token) :
    parse rules (t :: ts) =
      match Parsed.firstMatch? rules (t :: ts) with
      | none => .error (.unrecognized (t :: ts))
      | some (rule, m) =>
        .ok ⟨rule, (Parsed.fillSlots (parse rules) m.spans m.command).1,
          (Parsed.fillSlots (parse rules) m.spans m.command).2⟩ := by
  rw [parse, List.length_cons, Parsed.parseWithin]
  cases hfirst : Parsed.firstMatch? rules (t :: ts) with
  | none => rfl
  | some found =>
    obtain ⟨rule, m⟩ := found
    have hread := Rule.reads_of_accept? (Parsed.accept?_of_firstMatch? hfirst).2
    have hspans : ∀ s ∈ m.spans, Parsed.parseWithin rules ts.length s.2 = parse rules s.2 := by
      intro s hs
      have hlt := (hread.span_lt hs).1
      rw [List.length_cons] at hlt
      exact Parsed.parseWithin_eq (by omega) (Nat.le_refl _)
    dsimp only
    rw [Parsed.fillSlots_congr m.spans m.command hspans]

/-- Tokens that a rule of the grammar reads are read by it. -/
theorem parse_of_reads {rule : Rule} (hrule : rule ∈ grammar) {ts : List Token} {m : Match}
    (h : rule.Reads ts m) :
    parse grammar ts = .ok ⟨rule, (Parsed.fillSlots (parse grammar) m.spans m.command).1,
      (Parsed.fillSlots (parse grammar) m.spans m.command).2⟩ := by
  cases ts with
  | nil => cases h.leading? (Rule.mem_grammar_iff.mp hrule)
  | cons t ts =>
    rw [parse_cons, (Parsed.firstMatch?_eq_some_iff fun _ hr => hr).mpr ⟨hrule, h.accept?⟩]

/-- What holds of a command if it holds of those in its slots holds of every command that is
read. -/
theorem parse_rec {motive : List Token → Parsed → Prop} {rules : List Rule}
    (hstep : ∀ (ts : List Token) (rule : Rule) (m : Match), rule ∈ rules → rule.Reads ts m →
      (∀ s ∈ m.spans, ∀ p, parse rules s.2 = .ok p → motive s.2 p) →
      motive ts ⟨rule, (Parsed.fillSlots (parse rules) m.spans m.command).1,
        (Parsed.fillSlots (parse rules) m.spans m.command).2⟩)
    {ts : List Token} {p : Parsed} (h : parse rules ts = .ok p) : motive ts p := by
  induction hlength : ts.length using Nat.strongRecOn generalizing ts p with
  | ind n ih =>
    cases ts with
    | nil => cases h
    | cons t ts =>
      rw [parse_cons] at h
      split at h
      next => cases h
      next rule m hfirst =>
        obtain ⟨hmem, haccept⟩ := Parsed.accept?_of_firstMatch? hfirst
        have hread := Rule.reads_of_accept? haccept
        cases h
        exact hstep _ rule m hmem hread fun s hs p hp =>
          ih s.2.length (hlength ▸ (hread.span_lt hs).1) hp rfl

/-- What holds of commands as the rules leave them, and stays when a slot is filled, holds of every
command that is read. -/
theorem parse_induction {P : Command → Prop} {rules : List Rule}
    (hrule : ∀ rule ∈ rules, ∀ ts m, rule.Reads ts m → P m.command)
    (hfill : ∀ c slot child, P c → P child → P (c.fill slot child)) {ts : List Token} {p : Parsed}
    (h : parse rules ts = .ok p) : P p.command :=
  parse_rec (motive := fun _ p => P p.command)
    (fun ts rule m hmem hread ih =>
      Parsed.fillSlots_induction hfill m.spans m.command ih (hrule rule hmem ts m hread)) h

/-- Tokens that are no command are not recognised, unless there are none. -/
theorem parse_eq_error {rules : List Rule} {ts : List Token} (hts : ts ≠ []) {e : ParseError}
    (h : parse rules ts = .error e) : e = .unrecognized ts := by
  obtain ⟨t, ts, rfl⟩ := List.exists_cons_of_ne_nil hts
  rw [parse, List.length_cons, Parsed.parseWithin] at h
  split at h
  next => exact (Except.error.inj h).symm
  next => cases h

end PlainCode
