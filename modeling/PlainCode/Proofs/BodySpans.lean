import Mathlib.Algebra.BigOperators.Group.List.Basic
import Mathlib.Algebra.GroupWithZero.Nat
import Mathlib.Algebra.Order.BigOperators.Group.List
import Mathlib.Algebra.Order.Group.Nat
import PlainCode.Proofs.Serialization
import PlainCode.Proofs.Trees
import PlainCode.Proofs.UnreadBodies

/-!
# How many tokens bodies take

A rule leaves stretches of its tokens for bodies, one behind the other and none with the first token
in it (`Rule.Reads.laid`). So all bodies of a command together have fewer tokens than the command
(`Laid.sum_length_lt`), and what follows from that is counted here in two ways.

Reading has an end: `Comes` is reading without a bound on its depth, and it comes to exactly what is
read within the bound (`comes_iff`). And what is read is no larger than the tokens: the first token
of a command pays for the command, and the tokens of a body for what is in it, or for the warning
that it was not read (`Parsed.size_le`).
-/

namespace PlainCode

/-! ## Stretches of tokens -/

/-- A stretch of a row of tokens: from one position up to another. -/
structure Stretch where
  start : Nat
  stop : Nat

namespace Stretch

/-- The tokens of a stretch. -/
def of (s : Stretch) (ts : List Token) : List Token := (ts.take s.stop).drop s.start

/-- The stretch of the tokens `span` that have the tokens `front` in front of them. -/
def behind (front span : List Token) : Stretch := ⟨front.length, front.length + span.length⟩

theorem of_behind (front span rest : List Token) :
    (behind front span).of (front ++ (span ++ rest)) = span := by
  rw [of, behind, List.take_length_add_append, List.take_left, List.drop_left]

end Stretch

/-- Stretches of a row of tokens that are behind the first token, and one behind the other. -/
structure Laid (ts : List Token) (stretches : List Stretch) : Prop where
  inside : ∀ s ∈ stretches, 0 < s.start ∧ s.start ≤ s.stop ∧ s.stop ≤ ts.length
  apart : stretches.Pairwise fun s t => s.stop ≤ t.start

namespace Laid

variable {ts : List Token} {stretches : List Stretch}

private theorem length_of (h : Laid ts stretches) {s : Stretch} (hs : s ∈ stretches) :
    (s.of ts).length + s.start = s.stop := by
  obtain ⟨_, horder, hstop⟩ := h.inside s hs
  rw [Stretch.of, List.length_drop, List.length_take]
  omega

/-- Stretches from a position on have no more tokens than there are from there on. -/
private theorem sum_length_add_le (h : Laid ts stretches) {start : Nat} (hts : start ≤ ts.length)
    (hstart : ∀ s ∈ stretches, start ≤ s.start) :
    (stretches.map fun s => (s.of ts).length).sum + start ≤ ts.length := by
  induction stretches generalizing start with
  | nil => simpa using hts
  | cons s stretches ih =>
    obtain ⟨hbehind, hrest⟩ := List.pairwise_cons.mp h.apart
    obtain ⟨hinside, hinner⟩ := List.forall_mem_cons.mp h.inside
    have hlength := h.length_of (List.mem_cons_self ..)
    -- the others begin where the first one stops, or later
    have hsum := ih ⟨hinner, hrest⟩ hinside.2.2 hbehind
    have hfirst := hstart s (List.mem_cons_self ..)
    rw [List.map_cons, List.sum_cons]
    omega

/-- All of them together are shorter than the row. -/
theorem sum_length_lt (h : Laid ts stretches) (hts : ts ≠ []) :
    (stretches.map fun s => (s.of ts).length).sum < ts.length := by
  have hpos : 1 ≤ ts.length := List.length_pos_iff.mpr hts
  exact h.sum_length_add_le hpos fun s hs => (h.inside s hs).1

end Laid

namespace Rule

/-- The tokens that a rule leaves for the bodies of a command are stretches of its tokens. -/
theorem Reads.laid {rule : Rule} {ts : List Token} {m : Match} (h : rule.Reads ts m) :
    ∃ stretches, Laid ts stretches ∧ m.spans.map Prod.snd = stretches.map (·.of ts) := by
  rcases h.spans_cases with hnone | ⟨front, body, hne, rfl, hone⟩ |
    ⟨front, before, between, behind, hne, rfl, htwo⟩
  · exact ⟨[], ⟨nofun, .nil⟩, by rw [hnone]; rfl⟩
  · have hpos := List.length_pos_iff.mpr hne
    have hbody := Stretch.of_behind front body []
    rw [List.append_nil] at hbody
    refine ⟨[.behind front body], ⟨List.forall_mem_singleton.mpr ?_,
      List.pairwise_singleton _ _⟩, ?_⟩
    · rw [Stretch.behind, List.length_append]
      exact ⟨hpos, Nat.le_add_right .., Nat.le_refl _⟩
    · rw [hone, List.map_singleton, List.map_singleton, hbody]
  · have hpos := List.length_pos_iff.mpr hne
    have hbefore := Stretch.of_behind front before (between ++ behind)
    have hbehind := Stretch.of_behind (front ++ (before ++ between)) behind []
    simp only [List.append_assoc, List.append_nil] at hbehind
    refine ⟨[.behind front before, .behind (front ++ (before ++ between)) behind], ⟨?_, ?_⟩, ?_⟩
    · simp only [List.forall_mem_cons, Stretch.behind, List.length_append]
      exact ⟨by omega, by omega, nofun⟩
    · refine List.pairwise_pair.mpr ?_
      simp only [Stretch.behind, List.length_append]
      omega
    · rw [htwo, List.map_cons, List.map_singleton, List.map_cons, List.map_singleton, hbefore,
        hbehind]

/-- The bodies of a command have fewer tokens than the command. -/
theorem Reads.sum_length_lt {rule : Rule} {ts : List Token} {m : Match} (h : rule.Reads ts m)
    (hrule : rule ∈ grammar) : (m.spans.map fun s => s.2.length).sum < ts.length := by
  have hts : ts ≠ [] := by
    rintro rfl
    cases h.leading? (mem_grammar_iff.mp hrule)
  obtain ⟨stretches, hlaid, hspans⟩ := h.laid
  calc (m.spans.map fun s => s.2.length).sum
    _ = ((m.spans.map Prod.snd).map List.length).sum := by rw [List.map_map]; rfl
    _ = (stretches.map fun s => (s.of ts).length).sum := by rw [hspans, List.map_map]; rfl
    _ < ts.length := hlaid.sum_length_lt hts

end Rule

/-! ## Reading without a bound -/

/-- `Comes rules ts result`: reading tokens by rules, without a bound on how deep that goes, comes
to an end, and this is the result. -/
inductive Comes (rules : List Rule) : List Token → Except ParseError Parsed → Prop where
  | empty : Comes rules [] (.error .empty)
  | unread {ts : List Token} (hts : ts ≠ []) (h : ∀ rule ∈ rules, rule.accept? ts = none) :
      Comes rules ts (.error (.unrecognized ts))
  | read {ts : List Token} {rule : Rule} {m : Match}
      {results : List Token → Except ParseError Parsed} (hts : ts ≠ [])
      (h : Parsed.firstMatch? rules ts = some (rule, m))
      (hbodies : ∀ s ∈ m.spans, Comes rules s.2 (results s.2)) :
      Comes rules ts (.ok ⟨rule, (Parsed.fillSlots results m.spans m.command).1,
        (Parsed.fillSlots results m.spans m.command).2⟩)

private theorem Comes.parse_eq {rules : List Rule} {ts : List Token}
    {result : Except ParseError Parsed} (h : Comes rules ts result) : parse rules ts = result := by
  induction h with
  | empty => rfl
  | unread hts h =>
    obtain ⟨t, ts, rfl⟩ := List.exists_cons_of_ne_nil hts
    rw [parse_cons, Parsed.firstMatch?_eq_none_iff.mpr h]
  | @read ts rule m results hts h _ ih =>
    obtain ⟨t, ts, rfl⟩ := List.exists_cons_of_ne_nil hts
    rw [parse_cons, h]
    dsimp only
    rw [Parsed.fillSlots_congr m.spans m.command ih]

/-- Reading comes to an end, because bodies get shorter. -/
theorem comes_parse (rules : List Rule) (ts : List Token) : Comes rules ts (parse rules ts) := by
  induction hlength : ts.length using Nat.strongRecOn generalizing ts with
  | ind n ih =>
    cases ts with
    | nil => exact .empty
    | cons t ts =>
      have hts := List.cons_ne_nil t ts
      rw [parse_cons]
      cases hfirst : Parsed.firstMatch? rules (t :: ts) with
      | none => exact .unread hts (Parsed.firstMatch?_eq_none_iff.mp hfirst)
      | some found =>
        obtain ⟨rule, m⟩ := found
        have hread := Rule.reads_of_accept? (Parsed.accept?_of_firstMatch? hfirst).2
        exact .read hts hfirst fun s hs => ih s.2.length (hlength ▸ (hread.span_lt hs).1) s.2 rfl

/-- Reading without a bound comes to exactly one result, which is what is read. -/
theorem comes_iff {rules : List Rule} {ts : List Token} {result : Except ParseError Parsed} :
    Comes rules ts result ↔ parse rules ts = result :=
  ⟨Comes.parse_eq, fun h => h ▸ comes_parse rules ts⟩

/-! ## The size of what is read -/

namespace Parsed

/-- The number of commands in the tree that was read, and of warnings about it. -/
def size (p : Parsed) : Nat := p.command.preorder.length + p.warnings.length

/-- A body is no larger than its tokens, if what is read from them is not. -/
private theorem body_size_le {s : Slot × List Token}
    (h : ∀ p, parse grammar s.2 = .ok p → p.size ≤ s.2.length) :
    (bodyOf s.2).preorder.length + (bodyWarnings s).length ≤ s.2.length := by
  rw [bodyOf, bodyWarnings]
  cases hparse : parse grammar s.2 with
  | ok p =>
    have hsize := h p hparse
    rw [size] at hsize
    dsimp only
    split
    next => exact (Nat.add_le_add_left (Nat.zero_le _) _).trans hsize
    next => exact hsize
  | error e =>
    -- nothing is in the tree, and there is one warning if there are tokens
    have hnodes : Command.hole.preorder.length = 0 := rfl
    dsimp only
    rw [hnodes, Nat.zero_add]
    split
    next => exact Nat.zero_le _
    next hne => exact List.length_pos_iff.mpr fun hnil => hne (List.isEmpty_iff.mpr hnil)

/-- A command is one larger than its bodies. -/
private theorem size_of_reads {rule : Rule} (hrule : rule ∈ grammar) {ts : List Token} {m : Match}
    (h : rule.Reads ts m) :
    size ⟨rule, (fillSlots (parse grammar) m.spans m.command).1,
        (fillSlots (parse grammar) m.spans m.command).2⟩
      = (m.spans.map fun s => (bodyOf s.2).preorder.length + (bodyWarnings s).length).sum + 1 := by
  have hne := ne_hole_of_parse (parse_of_reads hrule h)
  rw [size, Command.preorder_eq_cons hne, slots_fillSlots h, warnings_fillSlots, List.length_cons,
    List.length_flatMap, List.length_flatMap, List.map_map, List.sum_map_add]
  exact Nat.add_right_comm ..

/-- What is read from tokens has no more commands and warnings than there are tokens. -/
theorem size_le {ts : List Token} {p : Parsed} (h : parse grammar ts = .ok p) :
    p.size ≤ ts.length := by
  refine parse_rec (motive := fun ts p => p.size ≤ ts.length) ?_ h
  intro ts rule m hrule hread ih
  rw [size_of_reads hrule hread]
  calc (m.spans.map fun s => (bodyOf s.2).preorder.length + (bodyWarnings s).length).sum + 1
    _ ≤ (m.spans.map fun s => s.2.length).sum + 1 :=
      Nat.succ_le_succ (List.sum_le_sum fun s hs => body_size_le (ih s hs))
    _ ≤ ts.length := hread.sum_length_lt hrule

end Parsed

/-- **Bodies shrink and do not overlap.** The tokens that a rule leaves for bodies are stretches of
its tokens, one behind the other, without the first token, and all together shorter than the tokens
of the command. So reading comes to an end whatever the tokens are, by any rules, without a bound on
its depth. What is read has no more commands and warnings than there are tokens. -/
theorem bodies_shrink (ts : List Token) :
    (∀ rule ∈ grammar, ∀ m, rule.accept? ts = some m →
      (∃ stretches, Laid ts stretches ∧ m.spans.map Prod.snd = stretches.map (·.of ts)) ∧
      (m.spans.map fun s => s.2.length).sum < ts.length) ∧
    (∀ rules, ∃ result, Comes rules ts result) ∧
    (∀ rules result, Comes rules ts result ↔ parse rules ts = result) ∧
    ∀ p, parse grammar ts = .ok p → p.command.preorder.length + p.warnings.length ≤ ts.length := by
  refine ⟨fun rule hrule m haccept => ?_, fun rules => ⟨_, comes_parse rules ts⟩,
    fun rules result => comes_iff, fun p hp => Parsed.size_le hp⟩
  have hread := Rule.reads_of_accept? haccept
  exact ⟨hread.laid, hread.sum_length_lt hrule⟩

/-- A choice between a loop with a body that is not read and another command: three commands and a
warning for eleven tokens. -/
theorem bodies_shrink_nested :
    let ts : List Token := [⟨.keyword, "if"⟩, ⟨.identifier, "x"⟩, ⟨.keyword, "greater"⟩,
      ⟨.number, "1"⟩, ⟨.keyword, "while"⟩, ⟨.identifier, "y"⟩, ⟨.keyword, "value"⟩, ⟨.number, "2"⟩,
      ⟨.identifier, "oops"⟩, ⟨.keyword, "else"⟩, ⟨.keyword, "return"⟩]
    (∃ m stretches, Rule.accept? .branch ts = some m ∧ Laid ts stretches ∧
      m.spans.map Prod.snd = stretches.map (·.of ts) ∧
      (m.spans.map fun s => s.2.length).sum < ts.length) ∧
    ∃ p, parse grammar ts = .ok p ∧ Comes grammar ts (.ok p) ∧ p.command.preorder.length = 3 ∧
      p.warnings.length = 1 ∧ p.command.preorder.length + p.warnings.length ≤ ts.length := by
  intro ts
  obtain ⟨hrules, _, hcomes, hsize⟩ := bodies_shrink ts
  obtain ⟨m, hm⟩ : ∃ m, Rule.accept? .branch ts = some m := ⟨_, rfl⟩
  obtain ⟨p, hp⟩ : ∃ p, parse grammar ts = .ok p := ⟨_, rfl⟩
  obtain ⟨⟨stretches, hlaid, hspans⟩, hsum⟩ := hrules .branch (by decide) m hm
  refine ⟨⟨m, stretches, hm, hlaid, hspans, hsum⟩, p, hp, (hcomes grammar _).mpr hp, ?_, ?_,
    hsize p hp⟩
  · cases hp
    decide
  · cases hp
    decide

end PlainCode
