import Mathlib.Data.List.Perm.Subperm
import Mathlib.Data.List.TakeWhile
import PlainCode.Proofs.Reading

/-!
# The fields of commands

The names and values that a command holds are its fields (`Command.ownFields`). Each of them is the
text of a token, or what stands for a part that the tokens leave out (`Supplies`). To tell equal
tokens apart, the tokens of a row carry their positions along (`Occurrence`).

A rule finds its fields by scans over tokens, and some of the scans look ahead, pass words over or
set again what they have set. Here each scan gets its own statement: which tokens of a row supply
what it finds, all of them different (`Draws`), and that it finds a part that may be left out
wherever the tokens have it (`not_by_of_clauses`, `not_name_of_operands`).
-/

namespace PlainCode

open PlainCode.Token (skipWord skipOneOf value?)

/-! ## Fields -/

/-- What a field holds: a name, a value in the form it has in code, or words. -/
inductive FieldKind where
  | name
  | value
  | words
  deriving DecidableEq, Repr

/-- The text of a token in a field, if the token can stand there. Words are no single token. -/
def FieldKind.text? : FieldKind → Token → Option String
  | .name, t => if t.isName then some t.value else none
  | .value, t => if t.isValue then some t.spelling else none
  | .words, _ => none

/-- A leaf of a command with what it is there for. A field that may be left out has a default. -/
structure Field where
  kind : FieldKind
  content : Leaf
  default? : Option Leaf := none
  deriving DecidableEq, Repr

namespace Field

/-- The fields of a row of leaves. A row that is missing counts as a leaf that is. -/
def row (kind : FieldKind) : Leaves → List Field
  | none => [{ kind := kind, content := none }]
  | some items => items.map fun item => { kind := kind, content := item }

/-- The fields of a comparison, its two sides. -/
def sides (c : Option Condition) : List Field :=
  [{ kind := .value, content := (c.getD .missing).left },
    { kind := .value, content := (c.getD .missing).right }]

end Field

namespace Command

/-- The fields of a command, without those of the commands in its slots. -/
def ownFields : Command → List Field
  | .hole | .foreign _ => []
  | .create name value => [⟨.name, name, none⟩, ⟨.value, value, some none⟩]
  | .assign name value => [⟨.name, name, none⟩, ⟨.value, value, none⟩]
  | .print values => Field.row .value values
  | .read name => [⟨.name, name, none⟩]
  | .compute _ left right result =>
    [⟨.value, left, none⟩, ⟨.value, right, none⟩, ⟨.name, result, some none⟩]
  | .increment name amount | .decrement name amount =>
    [⟨.name, name, none⟩, ⟨.value, amount, some (some "1")⟩]
  | .branch c _ _ | .repeatWhile c _ => Field.sides c
  | .repeatFor counter start stop step _ =>
    [⟨.name, counter, none⟩, ⟨.value, start, none⟩, ⟨.value, stop, none⟩,
      ⟨.value, step, some (some "1")⟩]
  | .define name params _ => ⟨.name, name, none⟩ :: Field.row .name params
  | .call name args => ⟨.name, name, none⟩ :: Field.row .value args
  | .giveBack value => [⟨.value, value, some none⟩]
  | .createList name values => ⟨.name, name, none⟩ :: Field.row .value values
  | .append list value => [⟨.name, list, none⟩, ⟨.value, value, none⟩]
  | .remark text => [⟨.words, text, none⟩]
  | .comparison c => Field.sides (some c)

/-- Whether the tokens of a command leave out the one part of it that may be left out: a first
value, if there is none but the name; a result, if there is no name behind `store` or `in`; an
amount, if there is no value behind a `by` in its place; a step, if there is no `by` in front of
`do`; a value to give back, if the second token is none. -/
def omits : Command → List Token → Bool
  | .create .., ts => (Token.values ts).length == 1
  | .compute .., ts => (ts.dropWhile fun t => !t.isOneOf ["store", "in"]).all fun t => !t.isName
  | .increment .., ts | .decrement .., ts =>
    !((ts[2]?.any fun t => t.isWord "by") && ts[3]?.any Token.isValue)
  | .repeatFor .., ts => (ts.takeWhile fun t => !t.isWord "do").all fun t => !t.isWord "by"
  | .giveBack _, ts => !ts[1]?.any Token.isValue
  | _, _ => false

theorem ownFields_fill (c child : Command) (slot : Slot) :
    (c.fill slot child).ownFields = c.ownFields := by
  unfold fill
  split <;> rfl

theorem omits_fill (c child : Command) (slot : Slot) : (c.fill slot child).omits = c.omits := by
  unfold fill
  split <;> rfl

end Command

/-! ## Tokens in their places -/

/-- A token and its position. -/
abbrev Occurrence := Token × Nat

/-- `Supplies c span field source`: among the tokens `span` of the command `c`, those of `source`
are what a field of it holds. -/
inductive Supplies (c : Command) (span : List Occurrence) : Field → List Occurrence → Prop
  | token {kind : FieldKind} {x : Occurrence} {text : String} {default? : Option Leaf}
      (hmem : x ∈ span) (htext : kind.text? x.1 = some text) :
    Supplies c span ⟨kind, some text, default?⟩ [x]
  | omitted {kind : FieldKind} {default : Leaf} (h : c.omits (span.map Prod.fst) = true) :
    Supplies c span ⟨kind, default, some default⟩ []
  | words {i : Nat} {words : List Occurrence} (h : span = (⟨.keyword, "comment"⟩, i) :: words) :
    Supplies c span ⟨.words, some (Rule.remarkText (words.map Prod.fst)), none⟩ words

/-! ## Rows of tokens that are taken apart -/

theorem exists_occurrence {row : List Occurrence} {t : Token} {ts : List Token}
    (h : row.map Prod.fst = t :: ts) :
    ∃ i rest, row = (t, i) :: rest ∧ rest.map Prod.fst = ts := by
  obtain ⟨⟨_, i⟩, rest, rfl, rfl, hrest⟩ := List.map_eq_cons_iff.mp h
  exact ⟨i, rest, rfl, hrest⟩

/-- Tokens at the end of a row have their places there. -/
theorem exists_behind {row : List Occurrence} {ts : List Token} (h : ts <:+ row.map Prod.fst) :
    ∃ front back, row = front ++ back ∧ back.map Prod.fst = ts := by
  obtain ⟨before, hbefore⟩ := h
  obtain ⟨front, back, rfl, _, hback⟩ := List.map_eq_append_iff.mp hbefore.symm
  exact ⟨front, back, rfl, hback⟩

/-! ## What fields are drawn from -/

theorem Supplies.congr {c d : Command} {span : List Occurrence} {field : Field}
    {source : List Occurrence} (hd : d.omits = c.omits) (h : Supplies c span field source) :
    Supplies d span field source := by
  cases h with
  | token hmem htext => exact .token hmem htext
  | omitted homits => exact .omitted (hd ▸ homits)
  | words hspan => exact .words hspan

/-- The fields of a command that has the tokens `span` are supplied by different ones of
`supply`. -/
def Draws (c : Command) (span : List Occurrence) (fields : List Field)
    (supply : List Occurrence) : Prop :=
  ∃ sources, List.Forall₂ (Supplies c span) fields sources ∧ sources.flatten.Subperm supply

namespace Draws

variable {c : Command} {span supply more : List Occurrence} {fields : List Field}

theorem nil : Draws c span [] supply := ⟨[], .nil, List.nil_subperm⟩

theorem mono (h : Draws c span fields supply) (hmore : supply.Subperm more) :
    Draws c span fields more := by
  obtain ⟨sources, hsources, htaken⟩ := h
  exact ⟨sources, hsources, htaken.trans hmore⟩

theorem skip (h : Draws c span fields supply) (x : Occurrence) :
    Draws c span fields (x :: supply) :=
  h.mono List.Subperm.cons_self

theorem behind (h : Draws c span fields supply) (front : List Occurrence) :
    Draws c span fields (front ++ supply) :=
  h.mono (List.sublist_append_right front supply).subperm

theorem before (h : Draws c span fields supply) (back : List Occurrence) :
    Draws c span fields (supply ++ back) :=
  h.mono (List.sublist_append_left supply back).subperm

theorem cons {field : Field} {source : List Occurrence} (hfield : Supplies c span field source)
    (h : Draws c span fields supply) : Draws c span (field :: fields) (source ++ supply) := by
  obtain ⟨sources, hsources, htaken⟩ := h
  exact ⟨source :: sources, .cons hfield hsources, List.Subperm.append (List.Subperm.refl _) htaken⟩

theorem token {kind : FieldKind} {x : Occurrence} {text : String} {default? : Option Leaf}
    (hmem : x ∈ span) (htext : kind.text? x.1 = some text) (h : Draws c span fields supply) :
    Draws c span (⟨kind, some text, default?⟩ :: fields) (x :: supply) :=
  cons (.token hmem htext) h

theorem omitted {kind : FieldKind} {default : Leaf} (homits : c.omits (span.map Prod.fst) = true)
    (h : Draws c span fields supply) :
    Draws c span (⟨kind, default, some default⟩ :: fields) supply :=
  cons (.omitted homits) h

/-- A row of fields is drawn from as many tokens, one by one. -/
theorem row {kind : FieldKind} {picked : List Occurrence} {text : Token → String}
    (hmem : ∀ x ∈ picked, x ∈ span) (htext : ∀ x ∈ picked, kind.text? x.1 = some (text x.1)) :
    Draws c span (Field.row kind (some (picked.map fun x => some (text x.1)))) picked := by
  induction picked with
  | nil => exact nil
  | cons x xs ih =>
    rw [List.forall_mem_cons] at hmem htext
    exact token hmem.1 htext.1 (ih hmem.2 htext.2)

end Draws

namespace Rule

/-! ## The scans of the rules -/

theorem skipOneOf_suffix (words : List String) (ts : List Token) : skipOneOf words ts <:+ ts := by
  cases ts with
  | nil => exact List.suffix_refl []
  | cons t ts =>
    rw [skipOneOf]
    split
    next => exact List.suffix_cons t ts
    next => exact List.suffix_refl _

/-- The values among tokens are drawn from them. -/
theorem draws_leaves {c : Command} {span row : List Occurrence} (h : ∀ x ∈ row, x ∈ span) :
    Draws c span (Field.row .value (some (leaves (row.map Prod.fst)))) row := by
  have hleaves : leaves (row.map Prod.fst)
      = (row.filter fun x => x.1.isValue).map fun x => some x.1.spelling := by
    rw [leaves, Token.values, List.filter_map, List.map_map, List.map_map]
    rfl
  rw [hleaves]
  refine Draws.mono (Draws.row ?_ ?_) List.filter_sublist.subperm
  · exact fun x hx => h x (List.mem_filter.mp hx).1
  · exact fun x hx => if_pos (List.mem_filter.mp hx).2

/-- The list that a value is put into is a name among the tokens. -/
theorem exists_target {list : String} : ∀ {row : List Occurrence},
    target? (row.map Prod.fst) = some list → ∃ x ∈ row, FieldKind.name.text? x.1 = some list
  | [], h => by cases h
  | [_], h => by cases h
  | x :: y :: row, h => by
    rw [List.map_cons, List.map_cons, target?] at h
    split at h
    next =>
      split at h
      next hname =>
        cases h
        exact ⟨y, List.mem_cons_of_mem _ (List.mem_cons_self ..), if_pos hname⟩
      next => cases h
    next =>
      have hrest : ∃ z ∈ y :: row, FieldKind.name.text? z.1 = some list := exists_target h
      obtain ⟨z, hz, htext⟩ := hrest
      exact ⟨z, List.mem_cons_of_mem _ hz, htext⟩

/-- The names of parameters are drawn from the tokens in front of the rest. -/
theorem draws_params {c : Command} {span row : List Occurrence} (h : ∀ x ∈ row, x ∈ span) :
    ∃ front back, row = front ++ back ∧ back.map Prod.fst = (params (row.map Prod.fst)).2 ∧
      Draws c span (Field.row .name (some ((params (row.map Prod.fst)).1.map some))) front := by
  cases row with
  | nil => exact ⟨[], [], rfl, rfl, Draws.nil⟩
  | cons x row =>
    rw [List.map_cons, params]
    split
    next =>
      refine ⟨x :: row.takeWhile fun y => y.1.isName, row.dropWhile fun y => y.1.isName, ?_, ?_, ?_⟩
      · rw [List.cons_append, List.takeWhile_append_dropWhile]
      · rw [List.dropWhile_map]
        rfl
      · rw [List.takeWhile_map, List.map_map, List.map_map]
        refine Draws.mono (Draws.row ?_ ?_) (List.sublist_cons_self x _).subperm
        · intro y hy
          exact h y (List.mem_cons_of_mem _ ((List.takeWhile_sublist _).subset hy))
        · intro y hy
          exact if_pos (List.mem_takeWhile_imp hy)
    next => exact ⟨[], x :: row, rfl, rfl, Draws.nil⟩

/-- What a scan that may set a value anew leaves of it: the old one, or the text of the token that
was found. -/
def Updates (old new : Option String) : Option Occurrence → Prop
  | none => new = old
  | some x => x.1.isValue = true ∧ new = some x.1.spelling

/-- A value that is found first counts only if none is found later. -/
theorem Updates.or {old new : Option String} {v : Occurrence} {found : Option Occurrence}
    (hv : v.1.isValue = true) (h : Updates (some v.1.spelling) new found) :
    Updates old new (found.or (some v)) := by
  cases found with
  | none => exact ⟨hv, h⟩
  | some x => exact h

/-- Of two tokens for one place, only one is taken. -/
theorem subperm_or {α : Type} (before after : List α) (v : α) (found : Option α) :
    (before ++ ((found.or (some v)).toList ++ after)).Subperm
      (v :: (before ++ (found.toList ++ after))) := by
  cases found with
  | none => exact List.perm_middle.subperm
  | some x => exact List.Subperm.cons_self

private theorem Bounds.set_cases (b : Bounds) (word value : String) :
    b.set word value = { b with start := some value } ∨
      b.set word value = { b with stop := some value } ∨
        b.set word value = { b with step := some value } := by
  unfold Bounds.set
  split
  next => exact Or.inl rfl
  next =>
    split
    next => exact Or.inr (Or.inl rfl)
    next => exact Or.inr (Or.inr rfl)

/-- The bounds of a loop are values in front of its body, each from another token. -/
theorem exists_clauses {b bounds : Bounds} {row : List Occurrence} {body : List Token}
    (h : clauses? b (row.map Prod.fst) = some (bounds, body)) :
    ∃ front back, row = front ++ back ∧ back.map Prod.fst = body ∧
      ∃ start stop step, Updates b.start bounds.start start ∧ Updates b.stop bounds.stop stop ∧
        Updates b.step bounds.step step ∧
        (start.toList ++ (stop.toList ++ step.toList)).Subperm front := by
  generalize hts : row.map Prod.fst = ts at h
  fun_induction clauses? b ts generalizing row with
  | case1 b =>
    cases h
    exact ⟨row, [], (List.append_nil row).symm, rfl, none, none, none, rfl, rfl, rfl,
      List.nil_subperm⟩
  | case2 => cases h
  | case3 b t ht v vs hv ih =>
    obtain ⟨i, row, rfl, hrow⟩ := exists_occurrence hts
    obtain ⟨j, row, rfl, hvs⟩ := exists_occurrence hrow
    obtain ⟨front, back, rfl, hback, start, stop, step, hstart, hstop, hstep, htaken⟩ := ih hvs h
    refine ⟨(t, i) :: (v, j) :: front, back, rfl, hback, ?_⟩
    have hmore : ∀ {l : List Occurrence},
        l.Subperm ((v, j) :: (start.toList ++ (stop.toList ++ step.toList))) →
          l.Subperm ((t, i) :: (v, j) :: front) := fun hl =>
      (hl.trans ((List.subperm_cons (v, j)).mpr htaken)).cons_right (t, i)
    -- the value is taken unless a later clause of the same word takes its place
    rcases b.set_cases t.value v.spelling with hset | hset | hset
    · rw [hset] at hstart hstop hstep
      exact ⟨start.or (some (v, j)), stop, step, .or hv hstart, hstop, hstep,
        hmore (subperm_or [] _ _ start)⟩
    · rw [hset] at hstart hstop hstep
      exact ⟨start, stop.or (some (v, j)), step, hstart, .or hv hstop, hstep,
        hmore (subperm_or start.toList _ _ stop)⟩
    · rw [hset] at hstart hstop hstep
      refine ⟨start, stop, step.or (some (v, j)), hstart, hstop, .or hv hstep, hmore ?_⟩
      simpa using subperm_or (start.toList ++ stop.toList) [] (v, j) step
  | case4 => cases h
  | case5 b t ts _ hdo =>
    obtain ⟨i, row, rfl, hrow⟩ := exists_occurrence hts
    cases h
    exact ⟨[(t, i)], row, rfl, hrow, none, none, none, rfl, rfl, rfl, List.nil_subperm⟩
  | case6 b t ts _ _ ih =>
    obtain ⟨i, row, rfl, hrow⟩ := exists_occurrence hts
    obtain ⟨front, back, rfl, hback, start, stop, step, hstart, hstop, hstep, htaken⟩ := ih hrow h
    exact ⟨(t, i) :: front, back, rfl, hback, start, stop, step, hstart, hstop, hstep,
      htaken.cons_right _⟩

/-- A loop without a step has no word for one in front of its body. -/
theorem not_by_of_clauses {b bounds : Bounds} {ts body : List Token}
    (h : clauses? b ts = some (bounds, body)) (hstep : bounds.step = none) :
    b.step = none ∧ ∀ t ∈ ts.takeWhile fun t => !t.isWord "do", t.isWord "by" = false := by
  obtain ⟨hcomplete, rfl, -⟩ := clauses?_eq_some_iff.mp h
  obtain ⟨hlast, hb⟩ := Option.or_eq_none_iff.mp hstep
  refine ⟨hb, fun t ht => ?_⟩
  rw [Bool.eq_false_iff]
  intro hby
  -- a `by` would have a value behind it, and that would be the step
  obtain ⟨value, hvalue⟩ := (exists_getLast?_iff hcomplete rfl).mpr ⟨t, ht, hby⟩
  rw [hlast] at hvalue
  cases hvalue

private theorem firstName?_map (row : List Occurrence) :
    firstName? (row.map Prod.fst) = (row.find? fun x => x.1.isName).map fun x => x.1.value := by
  rw [firstName?, List.find?_map, Option.map_map]
  rfl

/-- The right side of a calculation is a value of it, and its result a name behind that. -/
private theorem exists_operands {right value result : Option String} {row : List Occurrence}
    (h : operands right (row.map Prod.fst) = (value, result)) :
    ∃ side target : Option Occurrence, Updates right value side ∧
      result = target.map (fun x => x.1.value) ∧ (∀ x ∈ target, x.1.isName = true) ∧
      (side.toList ++ target.toList).Sublist row := by
  generalize hts : row.map Prod.fst = ts at h
  fun_induction operands right ts generalizing row with
  | case1 right =>
    cases h
    refine ⟨none, none, rfl, rfl, fun x hx => ?_, List.nil_sublist _⟩
    cases hx
  | case2 right t hand => cases hand.2
  | case3 right t v vs hand ih =>
    obtain ⟨i, row, rfl, hrow⟩ := exists_occurrence hts
    obtain ⟨j, row, rfl, hvs⟩ := exists_occurrence hrow
    obtain ⟨side, target, hside, hresult, hname, htaken⟩ := ih hvs h
    refine ⟨side.or (some (v, j)), target, hside.or hand.2, hresult, hname, .cons _ ?_⟩
    cases side with
    | none => exact htaken.cons_cons _
    | some x => exact htaken.cons _
  | case4 right t ts =>
    obtain ⟨i, row, rfl, rfl⟩ := exists_occurrence hts
    rw [firstName?_map] at h
    cases h
    refine ⟨none, row.find? fun x => x.1.isName, rfl, rfl, ?_, .cons _ ?_⟩
    · exact fun x hx => List.find?_some (p := fun x : Occurrence => x.1.isName) hx
    · cases hfind : row.find? fun x => x.1.isName with
      | none => exact List.nil_sublist _
      | some x => exact List.singleton_sublist.mpr (List.mem_of_find?_eq_some hfind)
  | case5 right t ts _ _ hvalue ih =>
    obtain ⟨i, row, rfl, hrow⟩ := exists_occurrence hts
    obtain ⟨side, target, hside, hresult, hname, htaken⟩ := ih hrow h
    refine ⟨side.or (some (t, i)), target, hside.or (Bool.and_eq_true_iff.mp hvalue).2, hresult,
      hname, ?_⟩
    cases side with
    | none => exact htaken.cons_cons _
    | some x => exact htaken.cons _
  | case6 right t ts _ _ _ ih =>
    obtain ⟨i, row, rfl, hrow⟩ := exists_occurrence hts
    obtain ⟨side, target, hside, hresult, hname, htaken⟩ := ih hrow h
    exact ⟨side, target, hside, hresult, hname, htaken.cons _⟩

/-- A calculation without a result has no name behind the word for one. -/
theorem not_name_of_operands {right value : Option String} {ts : List Token}
    (h : operands right ts = (value, none)) :
    ∀ t ∈ ts.dropWhile fun t => !t.isOneOf ["store", "in"], t.isName = false := by
  rw [operands_eq, Prod.mk.injEq] at h
  have hfind := Option.map_eq_none_iff.mp h.2
  intro t ht
  rcases Token.mem_onward ht with hstore | ht
  · exact Token.isName_of_isOneOf hstore
  · simpa using List.find?_eq_none.mp hfind t ht

/-! ## Fields of one command -/

theorem text?_value (v : Value) : FieldKind.value.text? v.1 = some v.1.spelling := if_pos v.2

theorem draws_words (c : Command) (i : Nat) (words : List Occurrence) :
    Draws c ((⟨.keyword, "comment"⟩, i) :: words)
      [⟨.words, some (remarkText (words.map Prod.fst)), none⟩]
      ((⟨.keyword, "comment"⟩, i) :: words) := by
  have hwords : Draws c ((⟨.keyword, "comment"⟩, i) :: words)
      [⟨.words, some (remarkText (words.map Prod.fst)), none⟩] (words ++ []) :=
    .cons (.words rfl) .nil
  rw [List.append_nil] at hwords
  exact hwords.skip _

private theorem amount_singleton (t : Token) : amount [t] = "1" := by
  unfold amount
  split
  next heq => cases heq
  next => rfl

private theorem amount_cons_cons (t u : Token) (ts : List Token) :
    amount (t :: u :: ts) = if t.isWord "by" && u.isValue then u.spelling else "1" := by
  unfold amount
  split
  next heq =>
    cases heq
    rfl
  next hby =>
    rw [if_neg]
    intro hboth
    rw [Bool.and_eq_true] at hboth
    exact hby u ts (by rw [Token.eq_keyword_of_isWord hboth.1])

/-- The amount of a change is a value behind a `by`, unless that is left out. -/
theorem draws_amount {c : Command} (hc : c.omits = (Command.increment none none).omits)
    (x y : Occurrence) (row : List Occurrence) :
    Draws c (x :: y :: row) [⟨.value, some (amount (row.map Prod.fst)), some (some "1")⟩] row := by
  match row with
  | [] => exact .omitted (by rw [hc]; rfl) .nil
  | [z] =>
    rw [List.map_cons, List.map_nil, amount_singleton]
    refine .omitted ?_ .nil
    rw [hc]
    exact congrArg not (Bool.and_false _)
  | z :: v :: row =>
    rw [List.map_cons, List.map_cons, amount_cons_cons]
    split
    next hboth =>
      have hv : v.1.isValue = true := (Bool.and_eq_true_iff.mp hboth).2
      exact .skip (.token (by simp) (text?_value ⟨v.1, hv⟩) .nil) z
    next hneither =>
      refine .omitted ?_ .nil
      rw [hc]
      exact congrArg not (Bool.eq_false_iff.mpr hneither)

/-- The sides of a comparison are the values at its ends. -/
theorem draws_sides {c : Command} {span front : List Occurrence} {k : Comparison}
    (hfront : front.map Prod.fst = k.tokens) (h : ∀ x ∈ front, x ∈ span) :
    Draws c span (Field.sides (some k.condition)) front := by
  obtain ⟨i, front, rfl, hwords⟩ := exists_occurrence hfront
  obtain ⟨words, last, rfl, _, hright⟩ := List.map_eq_append_iff.mp hwords
  obtain ⟨j, last, rfl, _⟩ := exists_occurrence hright
  exact .token (h _ (by simp)) (text?_value k.left)
    (.behind (.token (h _ (by simp)) (text?_value k.right) .nil) words)

/-- A value that stands in front is drawn from there, unless it is left out. -/
theorem draws_value {x : Occurrence} (row : List Occurrence) :
    Draws (.giveBack ((value? (row.map Prod.fst)).map (·.1))) (x :: row)
      [⟨.value, (value? (row.map Prod.fst)).map (·.1), some none⟩] row := by
  cases row with
  | nil => exact .omitted rfl .nil
  | cons y row =>
    rw [List.map_cons, value?]
    split
    next hy =>
      have hmem : y ∈ x :: y :: row := List.mem_cons_of_mem _ (List.mem_cons_self ..)
      exact .token hmem (text?_value ⟨y.1, hy⟩) .nil
    next hy => exact .omitted (congrArg not (Bool.eq_false_iff.mpr hy)) .nil

theorem draws_compute {operator right : String} {result : Option String} {v : Value} {i j : Nat}
    {row : List Occurrence} (hword : operator ∈ Vocabulary.arithmeticWords)
    (h : operands none (row.map Prod.fst) = (some right, result)) :
    Draws (.compute (some operator) (some v.1.spelling) (some right) result)
      ((⟨.keyword, operator⟩, i) :: (v.1, j) :: row)
      (Command.compute (some operator) (some v.1.spelling) (some right) result).ownFields
      ((⟨.keyword, operator⟩, i) :: (v.1, j) :: row) := by
  obtain ⟨side, target, hside, rfl, hname, htaken⟩ := exists_operands h
  cases side with
  | none => cases hside
  | some x =>
    cases hside.2
    have hmem : ∀ y ∈ x :: target.toList, y ∈ (⟨.keyword, operator⟩, i) :: (v.1, j) :: row :=
      fun y hy => by simp [htaken.subset hy]
    refine .skip (.token (by simp) (text?_value v) (.mono (.token (hmem _ (by simp))
      (text?_value ⟨x.1, hside.1⟩) ?_) htaken.subperm)) _
    cases target with
    | none =>
      have hoperator : (⟨.keyword, operator⟩ : Token).isOneOf ["store", "in"] = false := by
        have hall : ∀ word ∈ Vocabulary.arithmeticWords,
            (⟨.keyword, word⟩ : Token).isOneOf ["store", "in"] = false := by decide
        exact hall operator hword
      refine .omitted (List.all_eq_true.mpr ?_) .nil
      rw [List.map_cons, List.map_cons, List.dropWhile_cons_of_pos (by rw [hoperator]; rfl),
        List.dropWhile_cons_of_pos (by rw [Token.isOneOf_of_isValue v.2]; rfl)]
      exact fun t ht => congrArg not (not_name_of_operands h t ht)
    | some y => exact .token (hmem _ (by simp)) (if_pos (hname y rfl)) .nil

/-- Keywords are no values, so passing one over leaves the values as they are. -/
theorem filter_isValue_skipWord (word : String) (ts : List Token) :
    (skipWord word ts).filter Token.isValue = ts.filter Token.isValue := by
  cases ts with
  | nil => rfl
  | cons t ts =>
    rw [skipWord]
    split
    next ht =>
      rw [Token.eq_keyword_of_isWord ht]
      rfl
    next => rfl

/-- A variable that is made without a value has no value beside its name. -/
theorem values_createEmpty {ts rest : List Token} {name : String}
    (h : skipWord "variable" ts = ⟨.identifier, name⟩ :: rest)
    (hend : skipWord "to" (skipWord "value" rest) = []) :
    Token.values (⟨.keyword, "create"⟩ :: ts) = [name] := by
  have hrest : rest.filter Token.isValue = [] := by
    rw [← filter_isValue_skipWord "value", ← filter_isValue_skipWord "to", hend]
    rfl
  show (ts.filter Token.isValue).map Token.spelling = [name]
  rw [← filter_isValue_skipWord "variable", h, List.filter_cons_of_pos rfl, hrest]
  rfl

end Rule

end PlainCode
