import PlainCode.Proofs.Sources

/-!
# Bodies that are not read

A rule leaves tokens for the bodies of a command, and a body that no rule reads stays empty. Nothing
of that is silent: `bodies` lists all bodies that reading comes to, at any depth and from left to
right, and the warnings about a command are one for each of them that has tokens which are no
command, in that order. Every body is in the command that was read just where its rule put it, as
what its own tokens are read as.

Both follow from what one command does with its bodies: it gathers the warnings about each of them
in turn (`warnings_fillSlots`), and holds each of them in its slot (`slots_fillSlots`). The main
statement is `unread_bodies_warned`.
-/

namespace PlainCode

namespace Command

/-- The command that is reached from a command through one slot after the other. -/
def at? (c : Command) : List Slot → Option Command
  | [] => some c
  | slot :: path => (c.slots.lookup slot).bind fun child => child.at? path

end Command

/-! ## Tokens that are no command -/

namespace Parsed

theorem firstMatch?_eq_none_iff {rules : List Rule} {ts : List Token} :
    firstMatch? rules ts = none ↔ ∀ rule ∈ rules, rule.accept? ts = none := by
  rw [firstMatch?, List.findSome?_eq_none_iff]
  exact forall₂_congr fun _ _ => Option.map_eq_none_iff

end Parsed

/-- Reading fails exactly if no rule reads the tokens, and all that is known then is the tokens. -/
theorem parse_eq_error_iff {ts : List Token} {e : ParseError} :
    parse grammar ts = .error e ↔ (∀ rule ∈ grammar, rule.accept? ts = none) ∧
      e = if ts = [] then .empty else .unrecognized ts := by
  rw [← Parsed.firstMatch?_eq_none_iff]
  cases ts with
  | nil =>
    have hnone : Parsed.firstMatch? grammar [] = none := rfl
    show Except.error ParseError.empty = Except.error e ↔ _
    rw [Except.error.injEq, eq_comm]
    exact (and_iff_right hnone).symm
  | cons t ts =>
    rw [parse_cons]
    split
    next hnone =>
      rw [Except.error.injEq, and_iff_right hnone, eq_comm]
      rfl
    next hsome =>
      rw [hsome]
      exact ⟨nofun, nofun⟩

/-! ## The bodies that reading comes to -/

/-- A body in a command that is being read: the slots that lead to the command around it, its own
slot, and its tokens. -/
structure Body where
  outer : List Slot
  slot : Slot
  tokens : List Token
  deriving DecidableEq, Repr

namespace Body

/-- The way to a body. -/
def path (b : Body) : List Slot := b.outer ++ [b.slot]

/-- A body seen from one command further out. -/
def inside (slot : Slot) (b : Body) : Body := { b with outer := slot :: b.outer }

/-- Whether a body has tokens, and no rule reads them. -/
def isUnread (b : Body) : Bool :=
  !b.tokens.isEmpty && grammar.all fun rule => (rule.accept? b.tokens).isNone

/-- The warning about a body. -/
def warning (b : Body) : Diagnostic := Parsed.unreadBody b.slot b.tokens

theorem isUnread_iff {b : Body} :
    b.isUnread = true ↔ b.tokens ≠ [] ∧ ∀ rule ∈ grammar, rule.accept? b.tokens = none := by
  simp only [isUnread, Bool.and_eq_true, Bool.not_eq_true', List.isEmpty_eq_false_iff,
    List.all_eq_true, Option.isNone_iff_eq_none]

end Body

/-- All bodies that reading tokens comes to, from left to right, each before those inside it. -/
def bodies (ts : List Token) : List Body :=
  match _h : Parsed.firstMatch? grammar ts with
  | none => []
  | some (_, m) =>
    m.spans.attach.flatMap fun s =>
      ⟨[], s.1.1, s.1.2⟩ :: (bodies s.1.2).map (Body.inside s.1.1)
  termination_by ts.length
  decreasing_by
    exact ((Rule.reads_of_accept? (Parsed.accept?_of_firstMatch? _h).2).span_lt s.2).1

theorem bodies_of_none {ts : List Token} (h : Parsed.firstMatch? grammar ts = none) :
    bodies ts = [] := by
  rw [bodies]
  split
  next => rfl
  next hsome =>
    rw [h] at hsome
    cases hsome

/-- The bodies in what a rule reads: those it leaves tokens for, each with the bodies inside it. -/
private theorem bodies_of_reads {rule : Rule} (hrule : rule ∈ grammar) {ts : List Token} {m : Match}
    (h : rule.Reads ts m) : bodies ts
      = m.spans.flatMap fun s => ⟨[], s.1, s.2⟩ :: (bodies s.2).map (Body.inside s.1) := by
  have hfirst := (Parsed.firstMatch?_eq_some_iff fun _ hr => hr).mpr ⟨hrule, h.accept?⟩
  rw [bodies]
  split
  next hnone =>
    rw [hfirst] at hnone
    cases hnone
  next hsome =>
    rw [hfirst] at hsome
    cases hsome
    conv_rhs => rw [← List.attach_map_subtype_val m.spans, List.flatMap_map]

/-! ## One command and its bodies -/

namespace Parsed

/-- The warnings about one body of a command. -/
def bodyWarnings (s : Slot × List Token) : List Diagnostic :=
  if s.2.isEmpty then []
  else
    match parse grammar s.2 with
    | .ok child => child.warnings
    | .error _ => [unreadBody s.1 s.2]

/-- A command gathers the warnings about its bodies, one body after the other. -/
theorem warnings_fillSlots : ∀ (spans : List (Slot × List Token)) (c : Command),
    (fillSlots (parse grammar) spans c).2 = spans.flatMap bodyWarnings
  | [], _ => rfl
  | (slot, span) :: rest, c => by
    rw [fillSlots, List.flatMap_cons, bodyWarnings]
    split
    next => exact warnings_fillSlots rest c
    next =>
      cases parse grammar span with
      | ok child => exact congrArg (child.warnings ++ ·) (warnings_fillSlots rest _)
      | error e => exact congrArg (unreadBody slot span :: ·) (warnings_fillSlots rest c)

/-- A command holds each of its bodies in its slot. -/
theorem slots_fillSlots {rule : Rule} {ts : List Token} {m : Match} (h : rule.Reads ts m) :
    (fillSlots (parse grammar) m.spans m.command).1.slots
      = m.spans.map fun s => (s.1, bodyOf s.2) := by
  cases h with
  | define | repeatFor | repeatWhile =>
    rw [fillSlots_cons rfl]
    rfl
  | branch =>
    rw [fillSlots_cons rfl, fillSlots_cons rfl]
    rfl
  | _ => rfl

private theorem lookup_fillSlots {rule : Rule} {ts : List Token} {m : Match} (h : rule.Reads ts m)
    {s : Slot × List Token} (hs : s ∈ m.spans) :
    (fillSlots (parse grammar) m.spans m.command).1.slots.lookup s.1 = some (bodyOf s.2) := by
  rw [slots_fillSlots h]
  rcases h.spans_cases with hnone | ⟨_, _, _, _, hone⟩ | ⟨_, _, _, _, _, _, htwo⟩
  · rw [hnone] at hs
    cases hs
  · rw [hone] at hs ⊢
    rw [List.mem_singleton.mp hs]
    rfl
  · rw [htwo] at hs ⊢
    rcases List.mem_cons.mp hs with rfl | hs
    · rfl
    · rw [List.mem_singleton.mp hs]
      rfl

end Parsed

/-- The bodies of tokens that have tokens which are no command. -/
def unreadBodies (ts : List Token) : List Body := (bodies ts).filter Body.isUnread

/-- A body that was read is not one of those that were not. -/
private theorem Body.isUnread_of_parse {b : Body} {p : Parsed}
    (h : parse grammar b.tokens = .ok p) : b.isUnread = false := by
  rw [Bool.eq_false_iff, ne_eq, isUnread_iff]
  rintro ⟨_, hnone⟩
  rw [parse_eq_error_iff.mpr ⟨hnone, rfl⟩] at h
  cases h

/-- Seen from further out, the same bodies are not read. -/
private theorem filter_inside (slot : Slot) (ts : List Token) :
    (((bodies ts).map (Body.inside slot)).filter Body.isUnread).map Body.warning
      = (unreadBodies ts).map Body.warning := by
  rw [List.filter_map, List.map_map]
  rfl

/-- The warnings about a body are about itself, or about the bodies inside it. -/
private theorem bodyWarnings_eq {s : Slot × List Token}
    (h : ∀ p, parse grammar s.2 = .ok p → p.warnings = (unreadBodies s.2).map Body.warning) :
    Parsed.bodyWarnings s = ((⟨[], s.1, s.2⟩ :: (bodies s.2).map (Body.inside s.1)).filter
      Body.isUnread).map Body.warning := by
  obtain ⟨slot, span⟩ := s
  cases hparse : parse grammar span with
  | ok p =>
    have hne : ¬ span.isEmpty = true := by
      intro hempty
      rw [List.isEmpty_iff.mp hempty] at hparse
      cases hparse
    have hread : Body.isUnread ⟨[], slot, span⟩ = false := Body.isUnread_of_parse hparse
    rw [Parsed.bodyWarnings, if_neg hne, hparse,
      List.filter_cons_of_neg (by rw [hread]; exact Bool.false_ne_true), filter_inside]
    exact h p hparse
  | error e =>
    obtain ⟨hnone, _⟩ := parse_eq_error_iff.mp hparse
    have hbodies : bodies span = [] := bodies_of_none (Parsed.firstMatch?_eq_none_iff.mpr hnone)
    rw [hbodies, Parsed.bodyWarnings]
    split
    next hempty =>
      rw [List.isEmpty_iff.mp hempty]
      rfl
    next hne =>
      have hunread : Body.isUnread ⟨[], slot, span⟩ = true :=
        Body.isUnread_iff.mpr ⟨fun hnil => hne (List.isEmpty_iff.mpr hnil), hnone⟩
      rw [hparse, List.map_nil, List.filter_cons_of_pos hunread]
      rfl

/-! ## All bodies -/

/-- What is read from tokens warns of the bodies that were not read, and has all bodies in their
places. -/
structure Settled (ts : List Token) (p : Parsed) : Prop where
  warnings : p.warnings = (unreadBodies ts).map Body.warning
  places : ∀ b ∈ bodies ts, p.command.at? b.path = some (bodyOf b.tokens)

private theorem settled_of_parse {ts : List Token} {p : Parsed} (h : parse grammar ts = .ok p) :
    Settled ts p := by
  refine parse_rec (motive := Settled) ?_ h
  intro ts rule m hrule hread ih
  have hbodies := bodies_of_reads hrule hread
  constructor
  · rw [Parsed.warnings_fillSlots, unreadBodies, hbodies, List.filter_flatMap, List.map_flatMap]
    exact List.flatMap_congr fun s hs => bodyWarnings_eq fun p hp => (ih s hs p hp).warnings
  · intro b hb
    rw [hbodies] at hb
    obtain ⟨s, hs, hb⟩ := List.mem_flatMap.mp hb
    have hslot := Parsed.lookup_fillSlots hread hs
    rcases List.mem_cons.mp hb with rfl | hb
    · -- the body is in a slot of the command itself
      show ((Command.slots _).lookup s.1).bind _ = _
      rw [hslot]
      rfl
    · -- the body is further in, in a body that was read
      obtain ⟨inner, hinner, rfl⟩ := List.mem_map.mp hb
      show ((Command.slots _).lookup s.1).bind _ = _
      rw [hslot, Option.bind_some]
      cases hparse : parse grammar s.2 with
      | ok p =>
        have hbody : bodyOf s.2 = p.command := by rw [bodyOf, hparse]
        rw [hbody]
        exact (ih s hs p hparse).places inner hinner
      | error e =>
        rw [bodies_of_none (Parsed.firstMatch?_eq_none_iff.mpr (parse_eq_error_iff.mp hparse).1)]
          at hinner
        cases hinner

/-- **No body is lost silently.** What is read from tokens comes with one warning for each body that
has tokens which no rule reads, from left to right and at any depth, with the tokens as its context.
Such a body is empty in the command, as is a body without tokens, and every other body is in it as
what its own tokens are read as. So where nothing is warned of, all tokens of bodies were read.
Reading fails exactly if no rule reads the tokens, and gives nothing but the tokens then. -/
theorem unread_bodies_warned (ts : List Token) :
    (∀ p, parse grammar ts = .ok p →
      p.warnings = (unreadBodies ts).map Body.warning ∧
      p.warnings.map (fun w => (w.code, w.context))
        = (unreadBodies ts).map (fun b => (some "SYN010", some (Token.sentence b.tokens))) ∧
      (∀ b ∈ bodies ts,
        (b.tokens = [] → p.command.at? b.path = some .hole) ∧
        (b.isUnread = true → p.command.at? b.path = some .hole) ∧
        (b.tokens ≠ [] → b.isUnread = false →
          ∃ q, parse grammar b.tokens = .ok q ∧ p.command.at? b.path = some q.command)) ∧
      (p.warnings = [] → ∀ b ∈ bodies ts, b.tokens ≠ [] →
        ∃ q, parse grammar b.tokens = .ok q ∧ p.command.at? b.path = some q.command)) ∧
    ∀ e, parse grammar ts = .error e ↔ (∀ rule ∈ grammar, rule.accept? ts = none) ∧
      e = if ts = [] then .empty else .unrecognized ts := by
  refine ⟨fun p hp => ?_, fun e => parse_eq_error_iff⟩
  obtain ⟨hwarnings, hplaces⟩ := settled_of_parse hp
  have hread : ∀ b ∈ bodies ts, b.tokens ≠ [] → b.isUnread = false →
      ∃ q, parse grammar b.tokens = .ok q ∧ p.command.at? b.path = some q.command := by
    intro b hb hne hfalse
    cases hparse : parse grammar b.tokens with
    | ok q => exact ⟨q, rfl, by rw [hplaces b hb, bodyOf, hparse]⟩
    | error e =>
      rw [Body.isUnread_iff.mpr ⟨hne, (parse_eq_error_iff.mp hparse).1⟩] at hfalse
      cases hfalse
  refine ⟨hwarnings, ?_, fun b hb => ⟨fun hnil => ?_, fun hunread => ?_, hread b hb⟩, ?_⟩
  · rw [hwarnings, List.map_map]
    rfl
  · rw [hplaces b hb, hnil]
    rfl
  · obtain ⟨_, hnone⟩ := Body.isUnread_iff.mp hunread
    rw [hplaces b hb, bodyOf, parse_eq_error_iff.mpr ⟨hnone, rfl⟩]
  · intro hnil b hb hne
    rw [hwarnings, List.map_eq_nil_iff] at hnil
    exact hread b hb hne (Bool.eq_false_iff.mpr (List.filter_eq_nil_iff.mp hnil b hb))

/-- A choice with a body that is not read inside each of its bodies. -/
theorem unread_bodies_warned_nested :
    let ts : List Token := [⟨.keyword, "if"⟩, ⟨.identifier, "x"⟩, ⟨.keyword, "greater"⟩,
      ⟨.number, "1"⟩, ⟨.keyword, "while"⟩, ⟨.identifier, "y"⟩, ⟨.keyword, "value"⟩, ⟨.number, "2"⟩,
      ⟨.identifier, "oops"⟩, ⟨.keyword, "else"⟩, ⟨.keyword, "if"⟩, ⟨.identifier, "z"⟩,
      ⟨.keyword, "less"⟩, ⟨.number, "3"⟩, ⟨.identifier, "bad"⟩, ⟨.keyword, "else"⟩,
      ⟨.keyword, "print"⟩, ⟨.identifier, "z"⟩]
    ∃ p q, parse grammar ts = .ok p ∧
      unreadBodies ts = [⟨[.thenBody], .body, [⟨.identifier, "oops"⟩]⟩,
        ⟨[.elseBody], .thenBody, [⟨.identifier, "bad"⟩]⟩] ∧
      p.warnings.map (fun w => (w.code, w.context))
        = [(some "SYN010", some "oops"), (some "SYN010", some "bad")] ∧
      parse grammar [⟨.keyword, "print"⟩, ⟨.identifier, "z"⟩] = .ok q ∧
      p.command.at? [.elseBody, .elseBody] = some q.command := by
  intro ts
  have hbodies : bodies ts = [⟨[], .thenBody, (ts.take 9).drop 4⟩,
      ⟨[.thenBody], .body, [⟨.identifier, "oops"⟩]⟩, ⟨[], .elseBody, ts.drop 10⟩,
      ⟨[.elseBody], .thenBody, [⟨.identifier, "bad"⟩]⟩,
      ⟨[.elseBody], .elseBody, [⟨.keyword, "print"⟩, ⟨.identifier, "z"⟩]⟩] := by decide +kernel
  have hunread : unreadBodies ts = [⟨[.thenBody], .body, [⟨.identifier, "oops"⟩]⟩,
      ⟨[.elseBody], .thenBody, [⟨.identifier, "bad"⟩]⟩] := by
    rw [unreadBodies, hbodies]
    decide
  have hmem : (⟨[.elseBody], .elseBody, [⟨.keyword, "print"⟩, ⟨.identifier, "z"⟩]⟩ : Body)
      ∈ bodies ts := by
    rw [hbodies]
    decide
  obtain ⟨p, hp⟩ : ∃ p, parse grammar ts = .ok p := ⟨_, rfl⟩
  obtain ⟨_, hcontexts, hplaces, _⟩ := (unread_bodies_warned ts).1 p hp
  obtain ⟨q, hq, hplace⟩ := (hplaces _ hmem).2.2 (List.cons_ne_nil _ _) (by decide)
  refine ⟨p, q, hp, hunread, ?_, hq, hplace⟩
  rw [hcontexts, hunread]
  rfl

end PlainCode
