import PlainCode.Proofs.Answers

/-!
# Texts on one line

A program is taken line by line, and no newline gets into a line after that. Small letters, words
and numerals are never newlines, and what is quoted stays as it was. Each token has part of its
line, and each leaf of a command is made of tokens. So no command of a program has a newline in any
of its texts, at any depth (`tidy_of_program`).
-/

namespace PlainCode

/-- A text without a newline. -/
def Text.OneLine (s : String) : Prop := '\n' ∉ s.toList

instance : DecidablePred Text.OneLine := fun _ => inferInstanceAs (Decidable (¬ _))

namespace Text

@[simp] theorem oneLine_append {a b : String} : OneLine (a ++ b) ↔ OneLine a ∧ OneLine b := by
  simp [OneLine]

theorem oneLine_ofList {cs : List Char} : OneLine (String.ofList cs) ↔ '\n' ∉ cs := by
  rw [OneLine, String.toList_ofList]

/-- Texts on one line are on one line together, if what is put between them is. -/
theorem oneLine_intercalate {between : String} (hbetween : OneLine between) :
    ∀ {ss : List String}, (∀ s ∈ ss, OneLine s) → OneLine (between.intercalate ss)
  | [], _ => by rw [String.intercalate_nil]; decide
  | [s], h => by simpa using h s (List.mem_singleton.mpr rfl)
  | s :: u :: ss, h => by
    rw [List.forall_mem_cons] at h
    have hrest := oneLine_intercalate hbetween h.2
    rw [String.intercalate_cons_cons, oneLine_append, oneLine_append]
    exact ⟨⟨h.1, hbetween⟩, hrest⟩

/-- The lines of a text are on one line each. -/
theorem oneLine_of_mem_lines {raw line : String} (h : line ∈ lines raw) : OneLine line := by
  obtain ⟨part, hpart, rfl⟩ := List.mem_map.mp h
  rw [oneLine_ofList]
  intro hmem
  exact absurd (mem_splitWhere hpart _ hmem).2 (by decide)

end Text

open PlainCode.Text (OneLine oneLine_append oneLine_intercalate oneLine_ofList)

/-! ## Canonical forms -/

namespace Phrase

open PlainCode.Literal

theorem ne_newline_of_isWord {c : Char} (h : Text.isWord c = true) : c ≠ '\n' :=
  Text.ne_of_isWord h (by decide)

/-- Guarding double quotes adds nothing but backslashes. -/
theorem mem_guardFrom {c : Char} : ∀ {cs : List Char} {guarded : Bool}, c ∈ guardFrom guarded cs →
    c = '\\' ∨ c ∈ cs
  | [], _, h => by cases h
  | d :: cs, guarded, h => by
    rw [guardFrom, List.mem_append] at h
    rcases h with h | h
    · split at h
      next hd =>
        rw [List.mem_cons, List.mem_singleton] at h
        rw [hd.1]
        exact h.imp_right fun hc => List.mem_cons.mpr (Or.inl hc)
      next => exact Or.inr (List.mem_cons.mpr (Or.inl (List.mem_singleton.mp h)))
    · exact (mem_guardFrom h).imp_right (List.mem_cons_of_mem d)

/-- What stands in a quoted piece is from the text. -/
private theorem mem_of_mem_quoted {cs : List Char} {contents : String} {c : Char}
    (h : .quoted contents ∈ piecesOf cs) (hc : c ∈ contents.toList) : c ∈ cs := by
  obtain ⟨s, hs, hp⟩ := List.mem_flatMap.mp h
  split at hp
  next =>
    rw [List.mem_singleton, Piece.quoted.injEq] at hp
    rw [hp, String.toList_ofList] at hc
    rw [← (cut_spans quotedAt?_faithful cs).flatMap_text]
    exact List.mem_flatMap.mpr ⟨s, hs, List.mem_of_mem_drop (List.dropLast_subset _ hc)⟩
  next => exact absurd rfl (ne_quoted_of_mem_plainPieces hp contents)

/-- Words and numerals have no newline by their form. -/
theorem oneLine_pieceText {p : Piece} (hform : p.WellFormed)
    (hquoted : ∀ contents, p = .quoted contents → OneLine contents) : OneLine p.text := by
  cases p with
  | quoted contents =>
    rw [Piece.text, oneLine_ofList, requote, guardQuotes]
    intro hmem
    simp only [List.cons_append, List.mem_cons, List.mem_append, List.not_mem_nil, or_false] at hmem
    rcases hmem with h | h | h
    · exact absurd h (by decide)
    · rcases mem_guardFrom h with h | h
      · exact absurd h (by decide)
      · exact hquoted contents rfl h
    · exact absurd h (by decide)
  | numeral text =>
    intro hmem
    exact hform.forall_mem (p := (· ≠ '\n')) (fun _ => ne_newline_of_isWord) (by decide)
      (by decide) _ hmem rfl
  | word text =>
    intro hmem
    exact ne_newline_of_isWord (hform.1.2 _ hmem).1 rfl

/-- The canonical form of a phrase is on one line if its quoted literals are. -/
theorem oneLine_canonical_of_quoted {phrase : String}
    (h : ∀ contents, .quoted contents ∈ pieces phrase → OneLine contents) :
    OneLine (canonical phrase) := by
  refine oneLine_intercalate (by decide) fun text htext => ?_
  obtain ⟨p, hp, rfl⟩ := List.mem_map.mp htext
  refine oneLine_pieceText (wellFormed_of_mem_piecesOf hp) ?_
  rintro contents rfl
  exact h contents hp

/-- The canonical form of a phrase on one line is on one line. -/
theorem oneLine_canonical {phrase : String} (h : OneLine phrase) : OneLine (canonical phrase) :=
  oneLine_canonical_of_quoted fun _ hp hmem => h (mem_of_mem_quoted hp hmem)

end Phrase

/-! ## Tokens -/

namespace Token

private theorem throughQuote_subset (quote : Char) (cs : List Char) :
    throughQuote quote cs ⊆ cs := by
  fun_induction throughQuote quote cs with
  | case1 => exact List.Subset.refl _
  | case2 cs => exact List.cons_subset_cons _ (List.nil_subset _)
  | case3 => exact List.Subset.refl _
  | case4 _ d ds ih => exact List.cons_subset_cons _ (List.cons_subset_cons _ ih)
  | case5 c cs _ _ ih => exact List.cons_subset_cons _ ih

/-- The characters of a segment are from the text. -/
theorem subset_of_mem_segmentsFrom {segment : List Char} : ∀ {skip : Nat} {cs : List Char},
    segment ∈ segmentsFrom skip cs → segment ⊆ cs
  | _, [], h => by cases h
  | skip + 1, c :: cs, h => by
    rw [segmentsFrom] at h
    exact List.subset_cons_of_subset c (subset_of_mem_segmentsFrom h)
  | 0, c :: cs, h => by
    -- a segment goes on with what follows it in the text, whichever way it ends
    have hmore : (if Literal.isQuote c then throughQuote c cs else cs.takeWhile isBare) ⊆ cs := by
      split
      next => exact throughQuote_subset c cs
      next => exact (List.takeWhile_sublist _).subset
    rw [segmentsFrom] at h
    split at h
    next => exact List.subset_cons_of_subset c (subset_of_mem_segmentsFrom h)
    next =>
      rcases List.mem_cons.mp h with rfl | h
      · exact List.cons_subset_cons _ hmore
      · exact List.subset_cons_of_subset c (subset_of_mem_segmentsFrom h)

private theorem oneLine_ofWord {word : List Char} (h : '\n' ∉ word) :
    OneLine (ofWord word).value := by
  cases hquoted : Literal.isQuoted word with
  | true =>
    rw [ofWord, if_pos hquoted, oneLine_ofList]
    exact fun hmem => h (List.mem_of_mem_drop (List.dropLast_subset _ hmem))
  | false =>
    rw [(Phrase.ofWord_of_not_isQuoted hquoted).1, oneLine_ofList]
    exact h

/-- The tokens of a text on one line are on one line each. -/
theorem oneLine_of_mem_ofText {text : String} (h : OneLine text) {t : Token}
    (ht : t ∈ ofText text) : OneLine t.value := by
  obtain ⟨segment, hsegment, rfl⟩ := List.mem_map.mp ht
  exact oneLine_ofWord fun hmem => h (subset_of_mem_segmentsFrom hsegment hmem)

theorem oneLine_spelling {t : Token} (h : OneLine t.value) : OneLine t.spelling := by
  rw [spelling]
  split
  next =>
    rw [oneLine_append, oneLine_append]
    exact ⟨⟨by decide, h⟩, by decide⟩
  next => exact h

end Token

/-! ## Commands -/

/-- A leaf without a newline. A leaf that is missing has none. -/
def Leaf.OneLine (leaf : Leaf) : Prop := ∀ s ∈ leaf, Text.OneLine s

instance (leaf : Leaf) : Decidable leaf.OneLine := inferInstanceAs (Decidable (∀ s ∈ leaf, _))

@[simp] theorem Leaf.oneLine_some {s : String} : Leaf.OneLine (some s) ↔ Text.OneLine s :=
  ⟨fun h => h s rfl, fun h _ hs => Option.some.inj hs ▸ h⟩

@[simp] theorem Leaf.oneLine_none : Leaf.OneLine none := nofun

theorem Leaf.OneLine.getD {leaf : Leaf} (h : leaf.OneLine) {other : String}
    (hother : Text.OneLine other) : Text.OneLine (Option.getD leaf other) := by
  cases leaf with
  | none => exact hother
  | some s => exact h s rfl

/-- The leaves of a comparison. -/
def Condition.leaves (c : Condition) : List Leaf := [c.left, c.operator, c.right]

namespace Command

/-- The leaves of a command itself, without those of the commands in its slots. -/
def leaves : Command → List Leaf
  | .hole => []
  | .create name value | .assign name value => [name, value]
  | .print values => values.items
  | .read name => [name]
  | .compute operator left right result => [operator, left, right, result]
  | .increment name amount | .decrement name amount => [name, amount]
  | .branch c _ _ | .repeatWhile c _ => c.toList.flatMap Condition.leaves
  | .repeatFor counter start stop step _ => [counter, start, stop, step]
  | .define name params _ => name :: params.items
  | .call name args => name :: args.items
  | .giveBack value => [value]
  | .createList name values => name :: values.items
  | .append list value => [list, value]
  | .remark text => [text]
  | .comparison c => c.leaves
  | .foreign form => [some form]

/-- A command whose own texts have no newline. -/
def OneLine (c : Command) : Prop := ∀ leaf ∈ c.leaves, leaf.OneLine

instance : DecidablePred OneLine := fun c => inferInstanceAs (Decidable (∀ leaf ∈ c.leaves, _))

/-- A tree of commands that the targets know, none of which has a newline in a text. -/
def Tidy (c : Command) : Prop := c ≠ .hole ∧ ∀ n ∈ c.preorder, n.Proper ∧ n.OneLine

instance : DecidablePred Tidy := fun c =>
  inferInstanceAs (Decidable (c ≠ .hole ∧ ∀ n ∈ c.preorder, n.Proper ∧ n.OneLine))

private theorem leaves_fill (c : Command) (slot : Slot) (child : Command) :
    (c.fill slot child).leaves = c.leaves := by
  cases c <;> cases slot <;> rfl

end Command

namespace Rule

open PlainCode.Token (skipWord oneLine_spelling)

section

variable {ts : List Token} (hts : ∀ t ∈ ts, OneLine t.value)
include hts

theorem oneLine_of_mem_leaves : ∀ leaf ∈ leaves ts, leaf.OneLine := by
  intro leaf hleaf
  obtain ⟨text, htext, rfl⟩ := List.mem_map.mp hleaf
  obtain ⟨t, ht, rfl⟩ := List.mem_map.mp htext
  exact Leaf.oneLine_some.mpr (oneLine_spelling (hts t (List.mem_filter.mp ht).1))

theorem oneLine_remarkText : OneLine (remarkText ts) := by
  refine oneLine_intercalate (by decide) fun text htext => ?_
  obtain ⟨t, ht, rfl⟩ := List.mem_map.mp htext
  exact hts t ht

theorem oneLine_skipWord (word : String) : ∀ t ∈ skipWord word ts, OneLine t.value :=
  fun t ht => hts t ((skipWord_suffix word ts).subset ht)

private theorem oneLine_skipOneOf (words : List String) :
    ∀ t ∈ Token.skipOneOf words ts, OneLine t.value := by
  intro t ht
  unfold Token.skipOneOf at ht
  split at ht
  next => cases ht
  next =>
    split at ht
    next => exact hts t (List.mem_cons_of_mem _ ht)
    next => exact hts t ht

private theorem oneLine_params : ∀ name ∈ (params ts).1, OneLine name := by
  intro name hname
  unfold params at hname
  split at hname
  next => cases hname
  next t ts =>
    split at hname
    next =>
      obtain ⟨u, hu, rfl⟩ := List.mem_map.mp hname
      exact hts u (List.mem_cons_of_mem _ ((List.takeWhile_sublist _).subset hu))
    next => cases hname

private theorem oneLine_amount : OneLine (amount ts) := by
  unfold amount
  split
  next t ts =>
    split
    next => exact oneLine_spelling (hts t (List.mem_cons_of_mem _ (List.mem_cons_self ..)))
    next => decide
  next => decide

private theorem oneLine_firstName? : Leaf.OneLine (firstName? ts) := by
  intro name hname
  obtain ⟨t, ht, rfl⟩ := Option.map_eq_some_iff.mp hname
  exact hts t (List.mem_of_find?_eq_some ht)

end

private theorem oneLine_target? {ts : List Token} (hts : ∀ t ∈ ts, OneLine t.value) :
    Leaf.OneLine (target? ts) := by
  fun_induction target? ts with
  | case1 t u ts _ _ =>
    exact Leaf.oneLine_some.mpr (hts u (List.mem_cons_of_mem _ (List.mem_cons_self ..)))
  | case2 => exact Leaf.oneLine_none
  | case3 t u ts _ ih => exact ih fun v hv => hts v (List.mem_cons_of_mem _ hv)
  | case4 => exact Leaf.oneLine_none

/-- Bounds without a newline. -/
def Bounds.OneLine (b : Bounds) : Prop := ∀ leaf ∈ [b.start, b.stop, b.step], Leaf.OneLine leaf

private theorem Bounds.oneLine_empty : Bounds.OneLine {} := by
  simp [Bounds.OneLine]

private theorem Bounds.oneLine_set {b : Bounds} (hb : b.OneLine) (word : String) {value : String}
    (hvalue : Text.OneLine value) : (b.set word value).OneLine := by
  simp only [Bounds.OneLine, List.forall_mem_cons] at hb ⊢
  unfold Bounds.set
  split
  next => exact ⟨Leaf.oneLine_some.mpr hvalue, hb.2⟩
  next =>
    split
    next => exact ⟨hb.1, Leaf.oneLine_some.mpr hvalue, hb.2.2⟩
    next => exact ⟨hb.1, hb.2.1, Leaf.oneLine_some.mpr hvalue, hb.2.2.2⟩

private theorem oneLine_of_clauses? {b bounds : Bounds} {ts body : List Token} (hb : b.OneLine)
    (hts : ∀ t ∈ ts, Text.OneLine t.value) (h : clauses? b ts = some (bounds, body)) :
    bounds.OneLine := by
  fun_induction clauses? b ts with
  | case1 b => cases h; exact hb
  | case2 => cases h
  | case3 b t v vs _ _ ih =>
    simp only [List.forall_mem_cons] at hts
    exact ih (Bounds.oneLine_set hb _ (oneLine_spelling hts.2.1)) hts.2.2 h
  | case4 => cases h
  | case5 b t => cases h; exact hb
  | case6 b t ts _ _ ih => exact ih hb (fun u hu => hts u (List.mem_cons_of_mem _ hu)) h

private theorem oneLine_operands {right : Option String} {ts : List Token}
    (hright : Leaf.OneLine right) (hts : ∀ t ∈ ts, OneLine t.value) :
    Leaf.OneLine (operands right ts).1 ∧ Leaf.OneLine (operands right ts).2 := by
  fun_induction operands right ts with
  | case1 right => exact ⟨hright, Leaf.oneLine_none⟩
  | case2 => exact ⟨hright, Leaf.oneLine_none⟩
  | case3 right t v vs _ ih =>
    simp only [List.forall_mem_cons] at hts
    exact ih (Leaf.oneLine_some.mpr (oneLine_spelling hts.2.1)) hts.2.2
  | case4 right t ts _ _ =>
    exact ⟨hright, oneLine_firstName? fun u hu => hts u (List.mem_cons_of_mem _ hu)⟩
  | case5 right t ts _ _ _ ih =>
    rw [List.forall_mem_cons] at hts
    exact ih (Leaf.oneLine_some.mpr (oneLine_spelling hts.1)) hts.2
  | case6 right t ts _ _ _ ih => exact ih hright fun u hu => hts u (List.mem_cons_of_mem _ hu)

/-- A comparison of tokens without newlines has none. -/
theorem oneLine_condition {c : Comparison} (h : ∀ t ∈ c.tokens, OneLine t.value) :
    ∀ leaf ∈ c.condition.leaves, leaf.OneLine := by
  have hoperator : OneLine c.comparator.operator := by
    unfold Comparator.operator
    split <;> decide
  rw [← List.append_nil c.tokens, Comparison.tokens_append] at h
  simp only [List.forall_mem_cons, List.forall_mem_append] at h
  simp only [Condition.leaves, Comparison.condition, List.forall_mem_cons, Leaf.oneLine_some]
  exact ⟨oneLine_spelling h.1, hoperator, oneLine_spelling h.2.2.1, nofun⟩

/-- What a rule reads from tokens without newlines has none. -/
private theorem Reads.oneLine {rule : Rule} {ts : List Token} {m : Match} (h : rule.Reads ts m)
    (hts : ∀ t ∈ ts, OneLine t.value) : m.command.OneLine := by
  cases h with
  | remark t ts =>
    rw [List.forall_mem_cons] at hts
    exact List.forall_mem_singleton.mpr (Leaf.oneLine_some.mpr (oneLine_remarkText hts.2))
  | createList name ts =>
    simp only [List.forall_mem_cons] at hts
    exact List.forall_mem_cons.mpr ⟨Leaf.oneLine_some.mpr hts.2.2.1,
      oneLine_of_mem_leaves (oneLine_skipWord hts.2.2.2 "value")⟩
  | append v hlist =>
    simp only [List.forall_mem_cons] at hts
    exact List.forall_mem_cons.mpr ⟨hlist ▸ oneLine_target? hts.2.2,
      List.forall_mem_singleton.mpr (Leaf.oneLine_some.mpr (oneLine_spelling hts.2.1))⟩
  | define hword name ts =>
    simp only [List.forall_mem_cons] at hts
    refine List.forall_mem_cons.mpr ⟨Leaf.oneLine_some.mpr hts.2.2.1, fun leaf hleaf => ?_⟩
    obtain ⟨param, hparam, rfl⟩ := List.mem_map.mp hleaf
    exact Leaf.oneLine_some.mpr (oneLine_params hts.2.2.2 param hparam)
  | call name ts =>
    simp only [List.forall_mem_cons] at hts
    exact List.forall_mem_cons.mpr ⟨Leaf.oneLine_some.mpr hts.2.1,
      oneLine_of_mem_leaves (oneLine_skipWord hts.2.2 "value")⟩
  | giveBack ts =>
    rw [List.forall_mem_cons] at hts
    refine List.forall_mem_singleton.mpr fun text htext => ?_
    obtain ⟨⟨value, rest⟩, hvalue, rfl⟩ := Option.map_eq_some_iff.mp htext
    obtain ⟨v, rfl, rfl⟩ := Condition.value?_eq_some_iff.mp hvalue
    exact oneLine_spelling (hts.2 v.1 (List.mem_cons_self ..))
  | repeatFor counter hclauses =>
    simp only [List.forall_mem_cons] at hts
    have hbounds := oneLine_of_clauses? Bounds.oneLine_empty hts.2.2 hclauses
    simp only [Bounds.OneLine, List.forall_mem_cons, Leaf.oneLine_some] at hbounds
    simp only [Command.OneLine, Command.leaves, List.forall_mem_cons, Leaf.oneLine_some]
    refine ⟨hts.2.1, hbounds.1, hbounds.2.1, ?_, nofun⟩
    -- without a step of its own the loop goes up by one
    exact Leaf.OneLine.getD hbounds.2.2.1 (by decide)
  | repeatWhile c ts =>
    rw [List.forall_mem_cons, List.forall_mem_append] at hts
    simpa [Command.OneLine, Command.leaves] using oneLine_condition hts.2.1
  | branch c ts =>
    rw [List.forall_mem_cons, List.forall_mem_append] at hts
    simpa [Command.OneLine, Command.leaves] using oneLine_condition hts.2.1
  | compute v hword hoperands =>
    simp only [List.forall_mem_cons] at hts
    have hsides := oneLine_operands Leaf.oneLine_none hts.2.2
    rw [hoperands] at hsides
    simp only [Command.OneLine, Command.leaves, List.forall_mem_cons, Leaf.oneLine_some]
    exact ⟨hts.1, oneLine_spelling hts.2.1, Leaf.oneLine_some.mp hsides.1, hsides.2, nofun⟩
  | increment name ts | decrement name ts =>
    simp only [List.forall_mem_cons] at hts
    exact List.forall_mem_cons.mpr ⟨Leaf.oneLine_some.mpr hts.2.1,
      List.forall_mem_singleton.mpr (Leaf.oneLine_some.mpr (oneLine_amount hts.2.2))⟩
  | read name ts =>
    simp only [List.forall_mem_cons] at hts
    exact List.forall_mem_singleton.mpr (Leaf.oneLine_some.mpr hts.2.1)
  | createEmpty hname _ =>
    rw [List.forall_mem_cons] at hts
    have hnamed := oneLine_skipWord hts.2 "variable"
    rw [hname, List.forall_mem_cons] at hnamed
    exact List.forall_mem_cons.mpr ⟨Leaf.oneLine_some.mpr hnamed.1,
      List.forall_mem_singleton.mpr Leaf.oneLine_none⟩
  | create v hname hvalue =>
    rw [List.forall_mem_cons] at hts
    have hnamed := oneLine_skipWord hts.2 "variable"
    rw [hname, List.forall_mem_cons] at hnamed
    have hvalued := oneLine_skipWord (oneLine_skipWord hnamed.2 "value") "to"
    rw [hvalue, List.forall_mem_cons] at hvalued
    exact List.forall_mem_cons.mpr ⟨Leaf.oneLine_some.mpr hnamed.1,
      List.forall_mem_singleton.mpr (Leaf.oneLine_some.mpr (oneLine_spelling hvalued.1))⟩
  | assign name v hvalue =>
    simp only [List.forall_mem_cons] at hts
    have hvalued := oneLine_skipWord (oneLine_skipOneOf hts.2.2 ["to", "value"]) "to"
    rw [hvalue, List.forall_mem_cons] at hvalued
    exact List.forall_mem_cons.mpr ⟨Leaf.oneLine_some.mpr hts.2.1,
      List.forall_mem_singleton.mpr (Leaf.oneLine_some.mpr (oneLine_spelling hvalued.1))⟩
  | print _ =>
    rw [List.forall_mem_cons] at hts
    exact oneLine_of_mem_leaves hts.2
  | catchAll ts =>
    exact List.forall_mem_singleton.mpr (Leaf.oneLine_some.mpr (oneLine_remarkText hts))

end Rule

/-! ## Programs -/

/-- What is read from tokens without newlines has none, at any depth. -/
private theorem oneLine_of_parse {rules : List Rule} {ts : List Token} {p : Parsed}
    (h : parse rules ts = .ok p) (hts : ∀ t ∈ ts, OneLine t.value) :
    ∀ n ∈ p.command.preorder, n.OneLine := by
  refine forall_preorder_of_parse (fun _ _ _ hread => hread.oneLine) ?_ h hts
  intro c slot child hc
  rw [Command.OneLine, Command.leaves_fill]
  exact hc

namespace Convert

/-- The command of a line is tidy. -/
private theorem tidy_of_outcomeOf {target : Target} {text : String} (htext : OneLine text)
    {r : LineResult} (h : outcomeOf target text = .ok r) : r.command.Tidy := by
  rcases read?_cases target (text, 1) with ⟨_, hout⟩ | ⟨parsed, _, hparse, hout⟩ | ⟨ts, _, hout⟩
  · cases hout.symm.trans h
  · cases hout.symm.trans h
    have htokens : ∀ t ∈ Token.ofText (Phrase.canonical text), OneLine t.value :=
      fun t => Token.oneLine_of_mem_ofText (Phrase.oneLine_canonical htext)
    exact ⟨ne_hole_of_parse hparse,
      fun n hn => ⟨proper_of_parse hparse n hn, oneLine_of_parse hparse htokens n hn⟩⟩
  · cases hout.symm.trans h

/-- Every command of a program is tidy. -/
theorem tidy_of_program (raw : String) (language : Json) :
    ∃ o, program (.str raw) language = .ok o ∧ ∀ p ∈ o.result, ∀ c ∈ p.commands, c.Tidy := by
  obtain ⟨o, ho, ⟨d, rfl, _⟩ | ⟨target, hsummary⟩⟩ := program_cases raw language
  · -- nothing was read of a text that is refused
    exact ⟨_, ho, nofun⟩
  · refine ⟨o, ho, fun p hp c hc => ?_⟩
    rw [hsummary.commands p hp, List.mem_filterMap] at hc
    obtain ⟨l, hl, hc⟩ := hc
    have hline := Text.oneLine_of_mem_lines (List.fst_mem_of_mem_zipIdx hl)
    cases hout : outcomeOf target l.1 with
    | error e => rw [hout] at hc; cases hc
    | ok r =>
      rw [hout] at hc
      cases hc
      exact tidy_of_outcomeOf hline hout

end Convert

end PlainCode
