import PlainCode.Proofs.Reading

/-!
# Fewer rules, in another order

The rules of the grammar are tried one after the other, but their order decides nothing: no tokens
are read by two of them. So a reader that knows only some rules, in any order and some of them
twice, reads just what the whole grammar reads by one of its rules, and by the same rule. The bodies
that the whole grammar reads by other rules are missing in its commands, and nothing else is
(`Command.prune`, `grammar_unambiguous`).

The form of a command tells by which rule it was read (`Command.rule?`). The argument goes down the
commands as reading does: where one reader leaves a slot empty, pruning has emptied it too
(`prune_fillSlots`).
-/

namespace PlainCode

namespace Command

/-! ## Forms and rules -/

/-- The rule that reads commands of a form. -/
def rule? : Command → Option Rule
  | .hole | .comparison _ | .foreign _ => none
  | .create .. => some .create
  | .assign .. => some .assign
  | .print .. => some .print
  | .read .. => some .read
  | .compute .. => some .compute
  | .increment .. => some .increment
  | .decrement .. => some .decrement
  | .branch .. => some .branch
  | .repeatWhile .. => some .repeatWhile
  | .repeatFor .. => some .repeatFor
  | .define .. => some .define
  | .call .. => some .call
  | .giveBack .. => some .giveBack
  | .createList .. => some .createList
  | .append .. => some .append
  | .remark .. => some .remark

/-- Whether a command is of a form that one of the rules reads. -/
def isReadBy (rules : List Rule) (c : Command) : Bool := c.rule?.any rules.contains

/-- A command without the bodies, at any depth, that none of the rules reads. -/
def prune (rules : List Rule) : Command → Command
  | .branch c thenBody elseBody =>
    .branch c (if thenBody.isReadBy rules then prune rules thenBody else .hole)
      (if elseBody.isReadBy rules then prune rules elseBody else .hole)
  | .repeatWhile c body => .repeatWhile c (if body.isReadBy rules then prune rules body else .hole)
  | .repeatFor counter start stop step body =>
    .repeatFor counter start stop step (if body.isReadBy rules then prune rules body else .hole)
  | .define name params body =>
    .define name params (if body.isReadBy rules then prune rules body else .hole)
  | command => command

/-- What pruning leaves of a body. -/
def kept (rules : List Rule) (body : Command) : Command :=
  if body.isReadBy rules then body.prune rules else .hole

/-! ## Filling slots -/

private theorem rule?_fill (c child : Command) (slot : Slot) :
    (c.fill slot child).rule? = c.rule? := by
  unfold fill
  split <;> rfl

/-- Slots are filled apart from each other. -/
theorem fill_comm (c a b : Command) {s s' : Slot} (h : s ≠ s') :
    (c.fill s a).fill s' b = (c.fill s' b).fill s a := by
  cases c <;> cases s <;> cases s' <;> simp [fill] at h ⊢

theorem fill_hole_of_fresh {c : Command} (h : c.Fresh) (slot : Slot) : c.fill slot .hole = c := by
  cases c with
  | branch => obtain ⟨_, rfl, rfl⟩ := h; cases slot <;> rfl
  | repeatWhile => obtain ⟨_, rfl⟩ := h; cases slot <;> rfl
  | repeatFor | define => cases h; cases slot <;> rfl
  | _ => cases slot <;> rfl

/-- A body is pruned where it is filled in. -/
theorem prune_fill (rules : List Rule) (c child : Command) (slot : Slot) :
    (c.fill slot child).prune rules = (c.prune rules).fill slot (child.kept rules) := by
  cases c <;> cases slot <;> rfl

private theorem prune_of_fresh (rules : List Rule) {c : Command} (h : c.Fresh) :
    c.prune rules = c := by
  cases c with
  | branch => obtain ⟨_, rfl, rfl⟩ := h; rfl
  | repeatWhile => obtain ⟨_, rfl⟩ := h; rfl
  | repeatFor | define => cases h; rfl
  | _ => rfl

/-- An empty slot that is filled with what pruning takes away is as good as empty. -/
private theorem prune_fill_of_not_isReadBy {rules : List Rule} {c child : Command} {slot : Slot}
    (hslot : c.fill slot .hole = c) (h : child.isReadBy rules = false) :
    (c.fill slot child).prune rules = c.prune rules := by
  have hkept : child.kept rules = .hole := by rw [kept, h]; rfl
  have hhole : Command.hole.kept rules = .hole := rfl
  calc (c.fill slot child).prune rules
      = (c.prune rules).fill slot .hole := by rw [prune_fill, hkept]
    _ = (c.fill slot .hole).prune rules := by rw [prune_fill, hhole]
    _ = c.prune rules := by rw [hslot]

/-- The commands inside a command with a slot filled were there before, or came with the body. -/
private theorem mem_tail_preorder_fill {c child n : Command} {slot : Slot}
    (h : n ∈ (c.fill slot child).preorder.tail) : n ∈ c.preorder.tail ∨ n ∈ child.preorder := by
  unfold fill at h
  split at h
  next =>
    rcases List.mem_append.mp h with hchild | helse
    · exact Or.inr hchild
    · exact Or.inl (List.mem_append_right _ helse)
  next =>
    rcases List.mem_append.mp h with hthen | hchild
    · exact Or.inl (List.mem_append_left _ hthen)
    · exact Or.inr hchild
  next => exact Or.inr h
  next => exact Or.inr h
  next => exact Or.inr h
  next => exact Or.inl h

end Command

/-! ## The rule of a command that was read -/

theorem Rule.Reads.rule? {rule : Rule} {ts : List Token} {m : Match} (h : rule.Reads ts m)
    (hrule : rule ∈ grammar) : m.command.rule? = some rule := by
  cases h with
  | catchAll => exact absurd rfl (Rule.mem_grammar_iff.mp hrule)
  | _ => rfl

/-- The form of a command that was read tells by which rule. -/
theorem rule?_of_parse {rules : List Rule} (hrules : ∀ r ∈ rules, r ∈ grammar) {ts : List Token}
    {p : Parsed} (h : parse rules ts = .ok p) : p.command.rule? = some p.rule := by
  refine parse_rec (motive := fun _ p => p.command.rule? = some p.rule) ?_ h
  intro ts rule m hmem hread _
  exact Parsed.fillSlots_induction (P := fun c => c.rule? = some rule) (Q := fun _ => True)
    (fun c slot child hc _ => (Command.rule?_fill c child slot).trans hc) m.spans m.command
    (fun _ _ _ _ => trivial) (hread.rule? (hrules rule hmem))

/-- A command that was read by the grammar from some of the tokens, by the rule of its form. -/
def ReadAmong (ts : List Token) (c : Command) : Prop :=
  ∃ span p, span <:+: ts ∧ parse grammar span = .ok p ∧ p.command = c ∧ c.rule? = some p.rule

theorem ReadAmong.mono {span ts : List Token} {c : Command} (h : ReadAmong span c)
    (hspan : span <:+: ts) : ReadAmong ts c := by
  obtain ⟨inner, p, hinner, hp⟩ := h
  exact ⟨inner, p, hinner.trans hspan, hp⟩

theorem mem_preorder {c n : Command} (h : n ∈ c.preorder) : n = c ∨ n ∈ c.preorder.tail := by
  cases c with
  | hole => cases h
  | _ => exact List.mem_cons.mp h

/-- Every command inside a command that was read was read itself, from some of the tokens. -/
private theorem readAmong_of_parse {ts : List Token} {p : Parsed} (h : parse grammar ts = .ok p) :
    ∀ n ∈ p.command.preorder, ReadAmong ts n := by
  have hinside : ∀ n ∈ p.command.preorder.tail, ReadAmong ts n := by
    refine parse_rec (motive := fun ts p => ∀ n ∈ p.command.preorder.tail, ReadAmong ts n) ?_ h
    intro ts rule m hmem hread ih
    refine Parsed.fillSlots_induction (P := fun c => ∀ n ∈ c.preorder.tail, ReadAmong ts n)
      (Q := fun c => ∀ n ∈ c.preorder, ReadAmong ts n) ?_ m.spans m.command ?_ ?_
    · intro c slot child hc hchild n hn
      rcases Command.mem_tail_preorder_fill hn with hold | hnew
      · exact hc n hold
      · exact hchild n hnew
    · intro s hs p hp n hn
      have hspan : s.2 <:+: ts := (hread.span_lt hs).2
      rcases mem_preorder hn with rfl | htail
      · exact ⟨s.2, p, hspan, hp, rfl, rule?_of_parse (fun _ hr => hr) hp⟩
      · exact (ih s hs p hp n htail).mono hspan
    · rw [Command.preorder_of_fresh hread.fresh]
      exact fun n hn => absurd hn List.not_mem_nil
  intro n hn
  rcases mem_preorder hn with rfl | htail
  · exact ⟨ts, p, List.infix_refl ts, h, rfl, rule?_of_parse (fun _ hr => hr) h⟩
  · exact hinside n htail

/-! ## Two readers side by side -/

/-- What a reader with fewer rules makes of tokens, beside what the whole grammar makes of them. -/
structure Prunes (rules : List Rule) (whole part : Except ParseError Parsed) : Prop where
  kept : ∀ p, whole = .ok p → p.rule ∈ rules →
    ∃ warnings, part = .ok ⟨p.rule, p.command.prune rules, warnings⟩
  only : ∀ p, part = .ok p → ∃ q, whole = .ok q ∧ q.rule ∈ rules

namespace Parsed

/-- Slots that are filled by the two readers: what the one lacks is pruned from the other. -/
theorem prune_fillSlots {rules : List Rule} {whole part : List Token → Except ParseError Parsed} :
    ∀ (spans : List (Slot × List Token)) (c : Command), (spans.map (·.1)).Nodup →
      (∀ s ∈ spans, c.fill s.1 .hole = c) →
      (∀ s ∈ spans, ∀ p, whole s.2 = .ok p → p.command.rule? = some p.rule) →
      (∀ s ∈ spans, Prunes rules (whole s.2) (part s.2)) →
      (fillSlots part spans (c.prune rules)).1 = (fillSlots whole spans c).1.prune rules
  | [], _, _, _, _, _ => rfl
  | (slot, span) :: rest, c, hnodup, hempty, hrule, hprunes => by
    rw [List.map_cons, List.nodup_cons] at hnodup
    have hslot : c.fill slot .hole = c := hempty _ (List.mem_cons_self ..)
    have hspan : Prunes rules (whole span) (part span) := hprunes _ (List.mem_cons_self ..)
    -- the slots of the rest are still empty when this one is filled
    have hrest : ∀ child, (fillSlots part rest ((c.fill slot child).prune rules)).1
        = (fillSlots whole rest (c.fill slot child)).1.prune rules := by
      intro child
      refine prune_fillSlots rest _ hnodup.2 ?_ (fun s hs => hrule s (List.mem_cons_of_mem _ hs))
        (fun s hs => hprunes s (List.mem_cons_of_mem _ hs))
      intro s hs
      have hne : slot ≠ s.1 := fun heq => hnodup.1 (List.mem_map.mpr ⟨s, hs, heq.symm⟩)
      rw [Command.fill_comm _ _ _ hne, hempty s (List.mem_cons_of_mem _ hs)]
    have hskip : (fillSlots part rest (c.prune rules)).1
        = (fillSlots whole rest c).1.prune rules := by
      have hhole := hrest .hole
      rwa [hslot] at hhole
    unfold fillSlots
    split
    next => exact hskip
    next =>
      cases hwhole : whole span with
      | error e =>
        cases hpart : part span with
        | error e' => exact hskip
        | ok p =>
          obtain ⟨q, hq, _⟩ := hspan.only p hpart
          rw [hwhole] at hq
          cases hq
      | ok q =>
        have hform : q.command.rule? = some q.rule := hrule _ (List.mem_cons_self ..) q hwhole
        by_cases hmem : q.rule ∈ rules
        · obtain ⟨warnings, hpart⟩ := hspan.kept q hwhole hmem
          have hread : q.command.isReadBy rules = true := by
            rw [Command.isReadBy, hform, Option.any_some, List.contains_iff_mem]
            exact hmem
          have hfill := hrest q.command
          rw [Command.prune_fill, Command.kept, if_pos hread] at hfill
          rw [hpart]
          exact hfill
        · have hread : q.command.isReadBy rules = false := by
            rw [Command.isReadBy, hform, Option.any_some, Bool.eq_false_iff, ne_eq,
              List.contains_iff_mem]
            exact hmem
          have hfill := hrest q.command
          rw [Command.prune_fill_of_not_isReadBy hslot hread] at hfill
          cases hpart : part span with
          | error e => exact hfill
          | ok p =>
            obtain ⟨q', hq', hmem'⟩ := hspan.only p hpart
            rw [hwhole] at hq'
            cases hq'
            exact absurd hmem' hmem

end Parsed

theorem Rule.Reads.nodup_slots {rule : Rule} {ts : List Token} {m : Match} (h : rule.Reads ts m) :
    (m.spans.map (·.1)).Nodup := by
  rcases h.spans_cases with hnone | ⟨_, _, _, _, hone⟩ | ⟨_, _, _, _, _, _, htwo⟩
  · rw [hnone]
    exact List.nodup_nil
  · rw [hone]
    simp
  · rw [htwo]
    simp

/-- A reader with some of the rules reads what the whole grammar reads by them, with the other
bodies pruned. -/
private theorem prunes_parse {rules : List Rule} (hrules : ∀ r ∈ rules, r ∈ grammar)
    (ts : List Token) : Prunes rules (parse grammar ts) (parse rules ts) := by
  induction hlength : ts.length using Nat.strongRecOn generalizing ts with
  | ind n ih =>
    cases ts with
    | nil =>
      constructor
      · intro p hp
        cases hp
      · intro p hp
        cases hp
    | cons t ts =>
      rw [parse_cons, parse_cons]
      constructor
      · intro p hp hmem
        split at hp
        next => cases hp
        next rule m hfirst =>
          cases hp
          obtain ⟨_, haccept⟩ := Parsed.accept?_of_firstMatch? hfirst
          rw [(Parsed.firstMatch?_eq_some_iff hrules).mpr ⟨hmem, haccept⟩]
          have hread := Rule.reads_of_accept? haccept
          have hspans : ∀ s ∈ m.spans, Prunes rules (parse grammar s.2) (parse rules s.2) :=
            fun s hs => ih s.2.length (hlength ▸ (hread.span_lt hs).1) s.2 rfl
          have hslots := Parsed.prune_fillSlots m.spans m.command hread.nodup_slots
            (fun s _ => Command.fill_hole_of_fresh hread.fresh s.1)
            (fun s _ p hp => rule?_of_parse (fun _ hr => hr) hp) hspans
          rw [Command.prune_of_fresh rules hread.fresh] at hslots
          rw [← hslots]
          exact ⟨_, rfl⟩
      · intro p hp
        split at hp
        next => cases hp
        next rule m hfirst =>
          obtain ⟨hmem, haccept⟩ := Parsed.accept?_of_firstMatch? hfirst
          rw [(Parsed.firstMatch?_eq_some_iff (fun _ hr => hr)).mpr ⟨hrules rule hmem, haccept⟩]
          exact ⟨_, rfl, hmem⟩

/-! ## All rules in another order -/

/-- Readers that find the same rules read the same. -/
private theorem parse_congr {rules others : List Rule}
    (h : ∀ ts, Parsed.firstMatch? rules ts = Parsed.firstMatch? others ts) (ts : List Token) :
    parse rules ts = parse others ts := by
  have hwithin : ∀ (depth : Nat) (ts : List Token),
      Parsed.parseWithin rules depth ts = Parsed.parseWithin others depth ts := by
    intro depth
    induction depth with
    | zero => exact fun _ => rfl
    | succ depth ih =>
      intro ts
      cases ts with
      | nil => rfl
      | cons t ts => rw [Parsed.parseWithin, Parsed.parseWithin, h, funext ih]
  exact hwithin ts.length ts

private theorem firstMatch?_perm {rules : List Rule} (h : rules.Perm grammar) (ts : List Token) :
    Parsed.firstMatch? rules ts = Parsed.firstMatch? grammar ts := by
  apply Option.ext
  rintro ⟨rule, m⟩
  rw [Parsed.firstMatch?_eq_some_iff fun r hr => h.mem_iff.mp hr,
    Parsed.firstMatch?_eq_some_iff fun r hr => hr, h.mem_iff]

/-- At most one rule of the grammar reads given tokens. -/
private theorem length_filter_accept? (ts : List Token) :
    (grammar.filter fun rule => (rule.accept? ts).isSome).length ≤ 1 := by
  have hcount : grammar.countP (fun rule => (rule.accept? ts).isSome)
      ≤ grammar.countP (fun rule => Rule.leading? ts == some rule) := by
    apply List.countP_mono_left
    intro rule hmem hsome
    obtain ⟨m, hm⟩ := Option.isSome_iff_exists.mp hsome
    rw [(Rule.reads_of_accept? hm).leading? (Rule.mem_grammar_iff.mp hmem)]
    exact beq_self_eq_true _
  have hone : ∀ lead : Option Rule, grammar.countP (fun rule => lead == some rule) ≤ 1 := by
    intro lead
    cases lead with
    | none => decide
    | some rule => cases rule <;> decide
  rw [← List.countP_eq_length_filter]
  exact Nat.le_trans hcount (hone _)

/-- **The rules of the grammar do not overlap.** At most one of them reads given tokens, and it is
the one of the form that is read, at any depth. So a reader with rules taken from the grammar, in
any order, reads what the whole grammar reads by one of them, by the same rule, and without the
bodies that the whole grammar reads by another one. With all rules, their order shows nowhere. -/
theorem grammar_unambiguous :
    (∀ ts : List Token, (grammar.filter fun rule => (rule.accept? ts).isSome).length ≤ 1) ∧
    (∀ ts p, parse grammar ts = .ok p → ∀ n ∈ p.command.preorder, ReadAmong ts n) ∧
    ∀ rules : List Rule, (∀ r ∈ rules, r ∈ grammar) → ∀ ts : List Token,
      ((∃ p, parse rules ts = .ok p) ↔ ∃ q, parse grammar ts = .ok q ∧ q.rule ∈ rules) ∧
      (∀ p q, parse rules ts = .ok p → parse grammar ts = .ok q →
        p.rule = q.rule ∧ p.command = q.command.prune rules) ∧
      (rules.Perm grammar → parse rules ts = parse grammar ts) := by
  refine ⟨length_filter_accept?, fun ts p => readAmong_of_parse, ?_⟩
  intro rules hrules ts
  have hprunes := prunes_parse hrules ts
  refine ⟨⟨fun ⟨p, hp⟩ => hprunes.only p hp, ?_⟩, ?_, fun hperm => ?_⟩
  · rintro ⟨q, hq, hmem⟩
    obtain ⟨warnings, hp⟩ := hprunes.kept q hq hmem
    exact ⟨_, hp⟩
  · intro p q hp hq
    obtain ⟨q', hq', hmem⟩ := hprunes.only p hp
    rw [hq] at hq'
    cases hq'
    obtain ⟨warnings, hkept⟩ := hprunes.kept q hq hmem
    rw [hp] at hkept
    cases hkept
    exact ⟨rfl, rfl⟩
  · exact parse_congr (firstMatch?_perm hperm) ts

/-- A choice with a loop that a reader without loops leaves out, and the grammar from its end. -/
theorem grammar_unambiguous_without_loops :
    ∃ ts p q, (∀ r ∈ [Rule.print, .branch, .print], r ∈ grammar) ∧
      parse [.print, .branch, .print] ts = .ok p ∧ parse grammar ts = .ok q ∧ p.rule = q.rule ∧
      q.command = .branch (some ⟨some "x", some "greater", some "1"⟩)
        (.repeatWhile (some ⟨some "y", some "equal", some "2"⟩) (.print (some [some "y"])))
        (.print (some [some "x"])) ∧
      p.command = .branch (some ⟨some "x", some "greater", some "1"⟩) .hole
        (.print (some [some "x"])) ∧
      (∀ n ∈ q.command.preorder, ReadAmong ts n) ∧
      grammar.reverse.Perm grammar ∧ parse grammar.reverse ts = parse grammar ts := by
  obtain ⟨_, hread, hrules⟩ := grammar_unambiguous
  have hsome : ∀ r ∈ [Rule.print, .branch, .print], r ∈ grammar := by decide
  have hperm : grammar.reverse.Perm grammar := List.reverse_perm grammar
  have hwhole : parse grammar [⟨.keyword, "if"⟩, ⟨.identifier, "x"⟩, ⟨.keyword, "greater"⟩,
      ⟨.number, "1"⟩, ⟨.keyword, "while"⟩, ⟨.identifier, "y"⟩, ⟨.keyword, "value"⟩,
      ⟨.number, "2"⟩, ⟨.keyword, "do"⟩, ⟨.keyword, "print"⟩, ⟨.identifier, "y"⟩,
      ⟨.keyword, "else"⟩, ⟨.keyword, "print"⟩, ⟨.identifier, "x"⟩]
      = .ok ⟨.branch, .branch (some ⟨some "x", some "greater", some "1"⟩)
        (.repeatWhile (some ⟨some "y", some "equal", some "2"⟩) (.print (some [some "y"])))
        (.print (some [some "x"])), []⟩ := rfl
  obtain ⟨p, hp⟩ := (hrules _ hsome _).1.mpr ⟨_, hwhole, by decide⟩
  obtain ⟨hrule, hcommand⟩ := (hrules _ hsome _).2.1 p _ hp hwhole
  exact ⟨_, p, _, hsome, hp, hwhole, hrule, rfl, hcommand, hread _ _ hwhole, hperm,
    (hrules _ (fun r hr => hperm.mem_iff.mp hr) _).2.2 hperm⟩

end PlainCode
