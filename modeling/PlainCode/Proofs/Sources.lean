import PlainCode.Proofs.Fields
import PlainCode.Proofs.Pruning

/-!
# Where the fields of commands come from

Every name and value in a command that was read is the text of a token, and no token is used
twice, whatever the depth of the commands (`fields_from_tokens`). The parts that may be left out are
the only exception: they hold what stands for nothing there, and only where the tokens do leave
them out. The text of a comment is all that stands behind its first word, up to the end of the
tokens of that comment.

A rule takes its fields from the front of a row of tokens, and what it leaves for its slots lies
behind that (`Rule.Reads.cutBy`). So what a command takes and what the commands in its slots take
are different parts of one row (`traced_of_reads`), and that goes on down the tree
(`traced_of_parse`). Nothing is said of positions until the end: those in a row are all different.
-/

namespace PlainCode

open PlainCode.Token (skipWord skipOneOf)

/-! ## Origins -/

/-- The tokens of a command up to where a slot ends: the first body of a choice ends at the first
`else`, and every other body where the command does. -/
def Slot.reach : Slot → List Occurrence → List Occurrence
  | .thenBody, row => row.takeWhile fun x => !x.1.isWord "else"
  | .body, row | .elseBody, row => row

/-- The tokens of a command in a row: all of the row, or what a rule leaves for a slot of a command
around it. -/
inductive IsSpan (row : List Occurrence) : List Occurrence → Prop
  | whole : IsSpan row row
  | slot {span front inner : List Occurrence} {rule : Rule} {m : Match} {slot : Slot}
      (outer : IsSpan row span) (hrule : rule ∈ grammar)
      (haccept : rule.accept? (span.map Prod.fst) = some m)
      (hslot : (slot, inner.map Prod.fst) ∈ m.spans) (hreach : slot.reach span = front ++ inner) :
    IsSpan row inner

/-- Where a command comes from: its tokens, and for each of its fields those that it holds. -/
structure Origin where
  span : List Occurrence
  sources : List (List Occurrence)

/-- All tokens that the fields of a command hold. -/
def Origin.taken (o : Origin) : List Occurrence := o.sources.flatten

/-- `o.Of row c`: the command `c` in a row of tokens comes from `o`. -/
structure Origin.Of (row : List Occurrence) (c : Command) (o : Origin) : Prop where
  isSpan : IsSpan row o.span
  read : ∃ p, parse grammar (o.span.map Prod.fst) = .ok p ∧ p.command = c
  supplied : List.Forall₂ (Supplies c o.span) c.ownFields o.sources

/-- Tokens inside a span of a row are inside the row. -/
theorem IsSpan.trans {row span inner : List Occurrence} (hspan : IsSpan row span)
    (hinner : IsSpan span inner) : IsSpan row inner := by
  induction hinner with
  | whole => exact hspan
  | slot _ hrule haccept hslot hreach ih => exact .slot ih hrule haccept hslot hreach

theorem Origin.Of.lift {row span : List Occurrence} {c : Command} {o : Origin}
    (h : Origin.Of span c o) (hspan : IsSpan row span) : Origin.Of row c o :=
  ⟨hspan.trans h.isSpan, h.read, h.supplied⟩

/-! ## What a rule takes from a row -/

namespace Rule

/-- How a row of tokens is cut for what a rule reads: behind the front there is nothing for slots,
or the tokens of one body, or those of two bodies with the word between them. -/
inductive Cut (m : Match) (row front rest : List Occurrence) : Prop
  | simple (hspans : m.spans = [])
  | body (hspans : m.spans = [(.body, rest.map Prod.fst)])
      (hpreorder : ∀ child, (m.command.fill .body child).preorder
        = m.command.fill .body child :: child.preorder)
  | bodies (before between behind : List Occurrence)
      (hrest : rest = before ++ (between ++ behind))
      (hspans : m.spans = [(.thenBody, before.map Prod.fst), (.elseBody, behind.map Prod.fst)])
      (hreach : Slot.thenBody.reach row = front ++ before)
      (hpreorder : ∀ a b, ((m.command.fill .thenBody a).fill .elseBody b).preorder
        = (m.command.fill .thenBody a).fill .elseBody b :: (a.preorder ++ b.preorder))

/-- `CutBy m row`: what was read as `m` takes its fields from the front of the row. -/
def CutBy (m : Match) (row : List Occurrence) : Prop :=
  ∃ front rest, row = front ++ rest ∧ Draws m.command row m.command.ownFields front ∧
    Cut m row front rest

theorem cutBy_of_draws {c : Command} {row : List Occurrence} (h : Draws c row c.ownFields row) :
    CutBy ⟨c, []⟩ row :=
  ⟨row, [], (List.append_nil row).symm, h, .simple rfl⟩

private theorem not_else_of_mem_tokens {k : Comparison} {t : Token} (h : t ∈ k.tokens) :
    t.isWord "else" = false := by
  obtain ⟨left, comparator, right⟩ := k
  rw [Comparison.tokens, List.mem_cons, List.mem_append, List.mem_singleton] at h
  rcases h with rfl | h | rfl
  · exact Token.isWord_of_isValue left.2 _
  · have hwords : ∀ t ∈ comparator.tokens, t.isWord "else" = false := by
      cases comparator with
      | notEqualTo | equalTo => decide
      | notValue said | notEqual said | value said | greater said | less said =>
        cases said <;> decide
    exact hwords t h
  · exact Token.isWord_of_isValue right.2 _

private theorem cutBy_define {word function : Token} {name : String} {i j k : Nat}
    (row : List Occurrence) :
    CutBy ⟨.define (some name) (some ((params (row.map Prod.fst)).1.map some)) .hole,
        [(.body, skipWord "do" (params (row.map Prod.fst)).2)]⟩
      ((word, i) :: (function, j) :: (⟨.identifier, name⟩, k) :: row) := by
  have hmem : ∀ x ∈ row, x ∈ (word, i) :: (function, j) :: (⟨.identifier, name⟩, k) :: row :=
    fun x hx => by simp [hx]
  obtain ⟨names, back, hrow, hback, hparams⟩ := draws_params
    (c := .define (some name) (some ((params (row.map Prod.fst)).1.map some)) .hole) hmem
  obtain ⟨words, body, rfl, hbody⟩ := exists_behind (skipWord_suffix "do" (back.map Prod.fst))
  refine ⟨(word, i) :: (function, j) :: (⟨.identifier, name⟩, k) :: (names ++ words), body, ?_,
    .skip (.skip (.token (by simp) rfl (.before hparams _)) _) _, .body ?_ fun _ => rfl⟩
  · simp [hrow]
  · rw [hbody, hback]

private theorem cutBy_repeatFor {counter start stop : String} {step : Option String}
    {i j : Nat} {row : List Occurrence} {body : List Token}
    (h : clauses? {} (row.map Prod.fst) = some (⟨some start, some stop, step⟩, body)) :
    CutBy ⟨.repeatFor (some counter) (some start) (some stop) (some (step.getD "1")) .hole,
        [(.body, body)]⟩
      ((⟨.keyword, "for"⟩, i) :: (⟨.identifier, counter⟩, j) :: row) := by
  obtain ⟨front, back, rfl, rfl, first, last, stride, hfirst, hlast, hstride, htaken⟩ :=
    exists_clauses h
  cases first with
  | none => cases hfirst
  | some x =>
  cases last with
  | none => cases hlast
  | some y =>
    -- both bounds were set, since there was none to begin with
    obtain ⟨hx, hstart⟩ := hfirst
    obtain ⟨hy, hstop⟩ := hlast
    cases hstart
    cases hstop
    have hmem : ∀ z ∈ x :: y :: stride.toList,
        z ∈ (⟨.keyword, "for"⟩, i) :: (⟨.identifier, counter⟩, j) :: (front ++ back) :=
      fun z hz => by simp [htaken.subset hz]
    refine ⟨(⟨.keyword, "for"⟩, i) :: (⟨.identifier, counter⟩, j) :: front, back, by simp,
      .skip (.token (by simp) rfl (.mono (.token (hmem _ (by simp)) (text?_value ⟨x.1, hx⟩)
        (.token (hmem _ (by simp)) (text?_value ⟨y.1, hy⟩) ?_)) htaken)) _,
      .body rfl fun _ => rfl⟩
    cases stride with
    | none =>
      cases hstride
      have hnone := (not_by_of_clauses h rfl).2
      refine .omitted (List.all_eq_true.mpr ?_) .nil
      rw [List.map_cons, List.map_cons, List.takeWhile_cons_of_pos rfl,
        List.takeWhile_cons_of_pos rfl, List.forall_mem_cons, List.forall_mem_cons]
      exact ⟨rfl, rfl, fun t ht => congrArg not (hnone t ht)⟩
    | some z =>
      cases hstride.2
      exact .token (hmem _ (by simp)) (text?_value ⟨z.1, hstride.1⟩) .nil

private theorem cutBy_branch {k : Comparison} {i : Nat} {sides : List Occurrence}
    (hsides : sides.map Prod.fst = k.tokens) (row : List Occurrence) :
    CutBy ⟨.branch (some k.condition) .hole .hole,
        [(.thenBody, (skipWord "then" (row.map Prod.fst)).takeWhile fun t => !t.isWord "else"),
          (.elseBody,
            ((skipWord "then" (row.map Prod.fst)).dropWhile fun t => !t.isWord "else").drop 1)]⟩
      ((⟨.keyword, "if"⟩, i) :: (sides ++ row)) := by
  obtain ⟨said, hthen⟩ := Token.exists_optional "then" (row.map Prod.fst)
  obtain ⟨front, back, rfl, hfront, hback⟩ := List.map_eq_append_iff.mp hthen
  -- no `else` stands in front of the bodies, so the first one is where they part
  have hnot : ∀ x ∈ (⟨.keyword, "if"⟩, i) :: (sides ++ front), (!x.1.isWord "else") = true := by
    rw [List.forall_mem_cons, List.forall_mem_append]
    refine ⟨rfl, fun x hx => ?_, fun x hx => ?_⟩
    · have htoken : x.1 ∈ k.tokens := hsides ▸ List.mem_map_of_mem hx
      exact congrArg not (not_else_of_mem_tokens htoken)
    · have htoken : x.1 ∈ Token.optional "then" said := hfront ▸ List.mem_map_of_mem hx
      cases said with
      | false => cases htoken
      | true => rw [List.mem_singleton.mp htoken]; rfl
  refine ⟨(⟨.keyword, "if"⟩, i) :: (sides ++ front), back, by simp,
    .skip (.before (draws_sides hsides fun x hx => by simp [hx]) _) _,
    .bodies (back.takeWhile fun x => !x.1.isWord "else")
      ((back.dropWhile fun x => !x.1.isWord "else").take 1)
      ((back.dropWhile fun x => !x.1.isWord "else").drop 1) ?_ ?_ ?_ fun _ _ => rfl⟩
  · rw [List.take_append_drop, List.takeWhile_append_dropWhile]
  · rw [← hback, List.takeWhile_map, List.dropWhile_map, ← List.map_drop]
    rfl
  · rw [← List.append_assoc, ← List.cons_append, Slot.reach, List.takeWhile_append_of_pos hnot]

/-- Every rule of the grammar takes its fields from the front, and leaves what is behind to its
slots. -/
theorem Reads.cutBy {rule : Rule} {row : List Occurrence} {m : Match}
    (h : rule.Reads (row.map Prod.fst) m) (hrule : rule ≠ .catchAll) : CutBy m row := by
  generalize hts : row.map Prod.fst = ts at h
  cases h with
  | remark t ts =>
    obtain ⟨i, row, rfl, hrow⟩ := exists_occurrence hts
    rw [← hrow]
    exact cutBy_of_draws (draws_words _ i row)
  | createList name ts =>
    obtain ⟨i, row, rfl, hlist⟩ := exists_occurrence hts
    obtain ⟨j, row, rfl, hname⟩ := exists_occurrence hlist
    obtain ⟨k, row, rfl, rfl⟩ := exists_occurrence hname
    obtain ⟨front, back, rfl, hback⟩ := exists_behind (skipWord_suffix "value" (row.map Prod.fst))
    rw [← hback]
    refine cutBy_of_draws (.skip (.skip (.token (by simp) rfl (.behind (draws_leaves ?_) _)) _) _)
    exact fun x hx => by simp [hx]
  | append v htarget =>
    obtain ⟨i, row, rfl, hvalue⟩ := exists_occurrence hts
    obtain ⟨j, row, rfl, rfl⟩ := exists_occurrence hvalue
    obtain ⟨x, hx, hlist⟩ := exists_target htarget
    have htaken : ([x, (v.1, j)] : List Occurrence).Subperm ((v.1, j) :: row) :=
      (List.Perm.swap _ _ _).subperm.trans
        ((List.singleton_sublist.mpr hx).cons_cons _).subperm
    refine cutBy_of_draws (.skip (.mono (.token ?_ hlist (.token ?_ (text?_value v) .nil))
      htaken) _)
    · simp [hx]
    · simp
  | define hword name ts =>
    obtain ⟨i, row, rfl, hfunction⟩ := exists_occurrence hts
    obtain ⟨j, row, rfl, hname⟩ := exists_occurrence hfunction
    obtain ⟨k, row, rfl, rfl⟩ := exists_occurrence hname
    exact cutBy_define row
  | call name ts =>
    obtain ⟨i, row, rfl, hname⟩ := exists_occurrence hts
    obtain ⟨j, row, rfl, rfl⟩ := exists_occurrence hname
    obtain ⟨front, back, rfl, hback⟩ := exists_behind (skipWord_suffix "value" (row.map Prod.fst))
    rw [← hback]
    refine cutBy_of_draws (.skip (.token (by simp) rfl (.behind (draws_leaves ?_) _)) _)
    exact fun x hx => by simp [hx]
  | increment name ts | decrement name ts =>
    obtain ⟨i, row, rfl, hname⟩ := exists_occurrence hts
    obtain ⟨j, row, rfl, rfl⟩ := exists_occurrence hname
    exact cutBy_of_draws (.skip (.token (by simp) rfl (draws_amount (by rfl) _ _ row)) _)
  | read name ts =>
    obtain ⟨i, row, rfl, hname⟩ := exists_occurrence hts
    obtain ⟨j, row, rfl, rfl⟩ := exists_occurrence hname
    exact cutBy_of_draws (.skip (.token (by simp) rfl .nil) _)
  | print hleaves =>
    obtain ⟨i, row, rfl, rfl⟩ := exists_occurrence hts
    exact cutBy_of_draws (.skip (draws_leaves fun x hx => List.mem_cons_of_mem _ hx) _)
  | giveBack ts =>
    obtain ⟨i, row, rfl, rfl⟩ := exists_occurrence hts
    exact cutBy_of_draws (.skip (draws_value row) _)
  | repeatFor counter hclauses =>
    obtain ⟨i, row, rfl, hcounter⟩ := exists_occurrence hts
    obtain ⟨j, row, rfl, rfl⟩ := exists_occurrence hcounter
    exact cutBy_repeatFor hclauses
  | repeatWhile k ts =>
    obtain ⟨i, row, rfl, hrow⟩ := exists_occurrence hts
    obtain ⟨sides, row, rfl, hsides, rfl⟩ := List.map_eq_append_iff.mp hrow
    obtain ⟨front, back, rfl, hback⟩ := exists_behind (skipWord_suffix "do" (row.map Prod.fst))
    refine ⟨(⟨.keyword, "while"⟩, i) :: (sides ++ front), back, by simp,
      .skip (.before (draws_sides hsides ?_) _) _, .body (by rw [hback]) fun _ => rfl⟩
    exact fun x hx => by simp [hx]
  | branch k ts =>
    obtain ⟨i, row, rfl, hrow⟩ := exists_occurrence hts
    obtain ⟨sides, row, rfl, hsides, rfl⟩ := List.map_eq_append_iff.mp hrow
    exact cutBy_branch hsides row
  | compute v hword hoperands =>
    obtain ⟨i, row, rfl, hvalue⟩ := exists_occurrence hts
    obtain ⟨j, row, rfl, rfl⟩ := exists_occurrence hvalue
    exact cutBy_of_draws (draws_compute hword hoperands)
  | @createEmpty ts rest name hname hend =>
    have homits : (Command.create (some name) none).omits (row.map Prod.fst) = true := by
      rw [hts, Command.omits, values_createEmpty hname hend]
      rfl
    obtain ⟨i, row, rfl, rfl⟩ := exists_occurrence hts
    obtain ⟨front, back, rfl, hback⟩ :=
      exists_behind (skipWord_suffix "variable" (row.map Prod.fst))
    obtain ⟨j, row, rfl, rfl⟩ := exists_occurrence (hback.trans hname)
    refine cutBy_of_draws (.skip (.behind (.token (by simp) rfl (.omitted ?_ .nil)) _) _)
    exact homits
  | create v hname hvalue =>
    obtain ⟨i, row, rfl, rfl⟩ := exists_occurrence hts
    obtain ⟨front, back, rfl, hback⟩ :=
      exists_behind (skipWord_suffix "variable" (row.map Prod.fst))
    obtain ⟨j, row, rfl, rfl⟩ := exists_occurrence (hback.trans hname)
    obtain ⟨words, rest, rfl, hrest⟩ := exists_behind
      ((skipWord_suffix "to" _).trans (skipWord_suffix "value" (row.map Prod.fst)))
    obtain ⟨k, rest, rfl, _⟩ := exists_occurrence (hrest.trans hvalue)
    exact cutBy_of_draws (.skip (.behind (.token (by simp) rfl
      (.behind (.token (by simp) (text?_value v) .nil) _)) _) _)
  | assign name v hvalue =>
    obtain ⟨i, row, rfl, hname⟩ := exists_occurrence hts
    obtain ⟨j, row, rfl, rfl⟩ := exists_occurrence hname
    obtain ⟨words, rest, rfl, hrest⟩ := exists_behind
      ((skipWord_suffix "to" _).trans (skipOneOf_suffix ["to", "value"] (row.map Prod.fst)))
    obtain ⟨k, rest, rfl, _⟩ := exists_occurrence (hrest.trans hvalue)
    exact cutBy_of_draws (.skip (.token (by simp) rfl
      (.behind (.token (by simp) (text?_value v) .nil) _)) _)
  | catchAll => exact absurd rfl hrule

end Rule

/-! ## Bodies -/

/-- The command that the tokens for a slot are. Tokens that are no command leave it empty. -/
def bodyOf (ts : List Token) : Command :=
  match parse grammar ts with
  | .ok p => p.command
  | .error _ => .hole

/-- An empty slot is filled with what its tokens are. -/
theorem fillSlots_cons {c : Command} {slot : Slot} (h : c.fill slot .hole = c) (ts : List Token)
    (rest : List (Slot × List Token)) :
    (Parsed.fillSlots (parse grammar) ((slot, ts) :: rest) c).1
      = (Parsed.fillSlots (parse grammar) rest (c.fill slot (bodyOf ts))).1 := by
  cases ts with
  | nil =>
    have hbody : bodyOf [] = .hole := rfl
    rw [hbody, h]
    rfl
  | cons t ts =>
    rw [Parsed.fillSlots, bodyOf]
    cases parse grammar (t :: ts) with
    | ok p => rfl
    | error e => rw [h]; rfl

/-- Commands in a row of tokens have origins there, and what their fields hold are different tokens
of `supply`. -/
def Traced (row : List Occurrence) (commands : List Command) (supply : List Occurrence) : Prop :=
  ∃ origins : List Origin, List.Forall₂ (Origin.Of row) commands origins ∧
    (origins.flatMap Origin.taken).Subperm supply

namespace Traced

variable {row span supply more : List Occurrence} {commands others : List Command}

theorem nil : Traced row [] supply := ⟨[], .nil, List.nil_subperm⟩

theorem cons {c : Command} {o : Origin} (ho : Origin.Of row c o) (htaken : o.taken.Subperm supply)
    (h : Traced row commands more) : Traced row (c :: commands) (supply ++ more) := by
  obtain ⟨origins, horigins, hmore⟩ := h
  exact ⟨o :: origins, .cons ho horigins, htaken.append hmore⟩

theorem append (h : Traced row commands supply) (hothers : Traced row others more) :
    Traced row (commands ++ others) (supply ++ more) := by
  obtain ⟨origins, horigins, htaken⟩ := h
  obtain ⟨origins', horigins', htaken'⟩ := hothers
  refine ⟨origins ++ origins', List.rel_append horigins horigins', ?_⟩
  rw [List.flatMap_append]
  exact htaken.append htaken'

theorem behind (h : Traced row commands supply) (front : List Occurrence) :
    Traced row commands (front ++ supply) := by
  obtain ⟨origins, horigins, htaken⟩ := h
  exact ⟨origins, horigins, htaken.trans (List.sublist_append_right front supply).subperm⟩

theorem lift (h : Traced span commands supply) (hspan : IsSpan row span) :
    Traced row commands supply := by
  obtain ⟨origins, horigins, htaken⟩ := h
  exact ⟨origins, horigins.imp fun _ _ ho => ho.lift hspan, htaken⟩

end Traced

/-- A command that a rule read comes from all tokens of the rule, whatever is in its slots. -/
private theorem origin_of_reads {rule : Rule} {row : List Occurrence} {m : Match}
    (hrule : rule ∈ grammar) (h : rule.Reads (row.map Prod.fst) m)
    {sources : List (List Occurrence)}
    (hsources : List.Forall₂ (Supplies m.command row) m.command.ownFields sources) :
    Origin.Of row (Parsed.fillSlots (parse grammar) m.spans m.command).1 ⟨row, sources⟩ := by
  obtain ⟨hfields, homits⟩ := Parsed.fillSlots_induction
    (P := fun c => c.ownFields = m.command.ownFields ∧ c.omits = m.command.omits)
    (Q := fun _ => True)
    (fun c slot child hc _ => ⟨(c.ownFields_fill child slot).trans hc.1,
      (c.omits_fill child slot).trans hc.2⟩)
    m.spans m.command (fun _ _ _ _ => trivial) ⟨rfl, rfl⟩
  refine ⟨.whole, ⟨_, parse_of_reads hrule h, rfl⟩, ?_⟩
  rw [hfields]
  exact hsources.imp fun _ _ hfield => hfield.congr homits

/-- A command that a rule read is traced if the commands in its slots are. -/
theorem traced_of_reads {rule : Rule} {row : List Occurrence} {m : Match} (hrule : rule ∈ grammar)
    (h : rule.Reads (row.map Prod.fst) m)
    (ih : ∀ slot inner, (slot, inner.map Prod.fst) ∈ m.spans →
      Traced inner (bodyOf (inner.map Prod.fst)).preorder inner) :
    Traced row (Parsed.fillSlots (parse grammar) m.spans m.command).1.preorder row := by
  obtain ⟨front, rest, hrow, ⟨sources, hsources, htaken⟩, hcut⟩ :=
    h.cutBy (Rule.mem_grammar_iff.mp hrule)
  have hown := origin_of_reads hrule h hsources
  have hinner : ∀ {slot front inner}, (slot, inner.map Prod.fst) ∈ m.spans →
      slot.reach row = front ++ inner → IsSpan row inner := fun hslot hreach =>
    .slot .whole hrule h.accept? hslot hreach
  have hempty : ∀ slot, m.command.fill slot .hole = m.command :=
    Command.fill_hole_of_fresh h.fresh
  cases hcut with
  | simple hspans =>
    have hc : (Parsed.fillSlots (parse grammar) m.spans m.command).1 = m.command := by
      rw [hspans]
      rfl
    rw [hc] at hown ⊢
    have hall := Traced.cons hown htaken (Traced.nil : Traced row [] rest)
    rw [Command.preorder_of_fresh h.fresh]
    rwa [← hrow] at hall
  | body hspans hpreorder =>
    have hc : (Parsed.fillSlots (parse grammar) m.spans m.command).1
        = m.command.fill .body (bodyOf (rest.map Prod.fst)) := by
      rw [hspans, fillSlots_cons (hempty .body)]
      rfl
    have hbody : (Slot.body, rest.map Prod.fst) ∈ m.spans := by simp [hspans]
    have hchild := (ih _ rest hbody).lift (hinner hbody hrow)
    rw [hc] at hown ⊢
    have hall := Traced.cons hown htaken hchild
    rw [hpreorder]
    rwa [← hrow] at hall
  | bodies before between behind hrest hspans hreach hpreorder =>
    have hc : (Parsed.fillSlots (parse grammar) m.spans m.command).1
        = (m.command.fill .thenBody (bodyOf (before.map Prod.fst))).fill .elseBody
          (bodyOf (behind.map Prod.fst)) := by
      rw [hspans, fillSlots_cons (hempty .thenBody), fillSlots_cons ?_]
      · rfl
      · rw [Command.fill_comm _ _ _ (by decide), hempty .elseBody]
    have hthen : (Slot.thenBody, before.map Prod.fst) ∈ m.spans := by simp [hspans]
    have helse : (Slot.elseBody, behind.map Prod.fst) ∈ m.spans := by simp [hspans]
    have hend : Slot.elseBody.reach row = (front ++ (before ++ between)) ++ behind := by
      simp [Slot.reach, hrow, hrest]
    have hbodies := ((ih _ before hthen).lift (hinner hthen hreach)).append
      (((ih _ behind helse).lift (hinner helse hend)).behind between)
    rw [hc] at hown ⊢
    have hall := Traced.cons hown htaken hbodies
    rw [hpreorder]
    rwa [← hrest, ← hrow] at hall

/-- Whatever is read is traced to the tokens it is read from. -/
theorem traced_of_parse {ts : List Token} {p : Parsed} (h : parse grammar ts = .ok p) :
    ∀ row : List Occurrence, row.map Prod.fst = ts → Traced row p.command.preorder row := by
  refine parse_rec (motive := fun ts p => ∀ row : List Occurrence, row.map Prod.fst = ts →
    Traced row p.command.preorder row) ?_ h
  rintro _ rule m hrule hread ih row rfl
  refine traced_of_reads hrule hread fun slot inner hslot => ?_
  unfold bodyOf
  cases hbody : parse grammar (inner.map Prod.fst) with
  | ok child => exact ih _ hslot child hbody inner rfl
  | error e => exact .nil

/-- Every field of a command that was read, at every depth, holds a token of its own. -/
theorem fields_from_tokens {ts : List Token} {p : Parsed} (h : parse grammar ts = .ok p) :
    ∃ origins : List Origin,
      List.Forall₂ (Origin.Of ts.zipIdx) p.command.preorder origins ∧
      (∀ x ∈ origins.flatMap Origin.taken, ts[x.2]? = some x.1) ∧
      ((origins.flatMap Origin.taken).map Prod.snd).Nodup := by
  obtain ⟨origins, horigins, htaken⟩ := traced_of_parse h ts.zipIdx (List.zipIdx_map_fst 0 ts)
  refine ⟨origins, horigins, ?_, ?_⟩
  · intro x hx
    exact List.mem_zipIdx_iff_getElem?.mp (htaken.subset hx)
  · obtain ⟨taken, hperm, hsub⟩ := htaken
    have hnodup : (ts.zipIdx.map Prod.snd).Nodup := by
      rw [List.zipIdx_map_snd]
      exact List.nodup_range'
    exact (hperm.map Prod.snd).nodup_iff.mp (hnodup.sublist (hsub.map Prod.snd))

/-- A choice between a loop and a comment: the same name in six places, two steps of which the last
counts, an amount that is left out, and a comment that goes on to the end. -/
theorem fields_from_tokens_nested :
    let ts : List Token := [⟨.keyword, "if"⟩, ⟨.identifier, "x"⟩, ⟨.keyword, "greater"⟩,
      ⟨.identifier, "x"⟩, ⟨.keyword, "then"⟩, ⟨.keyword, "for"⟩, ⟨.identifier, "x"⟩,
      ⟨.keyword, "by"⟩, ⟨.identifier, "x"⟩, ⟨.keyword, "to"⟩, ⟨.identifier, "x"⟩,
      ⟨.keyword, "from"⟩, ⟨.number, "1"⟩, ⟨.keyword, "by"⟩, ⟨.number, "2"⟩, ⟨.keyword, "do"⟩,
      ⟨.keyword, "increment"⟩, ⟨.identifier, "x"⟩, ⟨.keyword, "else"⟩, ⟨.keyword, "comment"⟩,
      ⟨.string, "a"⟩, ⟨.keyword, "else"⟩, ⟨.identifier, "x"⟩]
    ∃ p, parse grammar ts = .ok p ∧
      p.command = .branch (some ⟨some "x", some "greater", some "x"⟩)
        (.repeatFor (some "x") (some "1") (some "x") (some "2")
          (.increment (some "x") (some "1")))
        (.remark (some "a else x")) ∧
      ∃ origins : List Origin,
        List.Forall₂ (Origin.Of ts.zipIdx) p.command.preorder origins ∧
        (∀ x ∈ origins.flatMap Origin.taken, ts[x.2]? = some x.1) ∧
        ((origins.flatMap Origin.taken).map Prod.snd).Nodup :=
  ⟨_, rfl, rfl, fields_from_tokens rfl⟩

end PlainCode
