import PlainCode.Grammar.Parse
import PlainCode.Proofs.Scans

/-!
# What the rules read

Each rule is a function that looks for its words one after the other. `Rule.Reads` says once, rule
by rule, which tokens it can read and what it makes of them, and `accept?_eq_some_iff` is that the
functions do exactly that. Everything else about rules is read off this relation.

The first words decide (`Reads.leading?`): no tokens are read by two rules of the grammar
(`eq_of_accept?`), so the first rule that reads them is the only one (`firstMatch?_eq_some_iff`).
What a rule leaves for its slots lies behind the first token, in the order of the slots
(`Reads.spans_cases`).
-/

namespace PlainCode

namespace Rule

open PlainCode.Token (skipWord skipOneOf value?)

/-! ## The relation -/

/-- `rule.Reads ts m`: the rule reads the tokens `ts` as `m`. -/
inductive Reads : Rule → List Token → Match → Prop
  | remark (t : Token) (ts : List Token) :
    Reads .remark (⟨.keyword, "comment"⟩ :: t :: ts) ⟨.remark (some (remarkText (t :: ts))), []⟩
  | createList (name : String) (ts : List Token) :
    Reads .createList (⟨.keyword, "create"⟩ :: ⟨.keyword, "list"⟩ :: ⟨.identifier, name⟩ :: ts)
      ⟨.createList (some name) (some (leaves (skipWord "value" ts))), []⟩
  | append {ts : List Token} {list : String} (v : Value) (h : target? ts = some list) :
    Reads .append (⟨.keyword, "append"⟩ :: v.1 :: ts)
      ⟨.append (some list) (some v.1.spelling), []⟩
  | define {word : String} (h : word = "define" ∨ word = "create") (name : String)
      (ts : List Token) :
    Reads .define (⟨.keyword, word⟩ :: ⟨.keyword, "function"⟩ :: ⟨.identifier, name⟩ :: ts)
      ⟨.define (some name) (some ((params ts).1.map some)) .hole,
        [(.body, skipWord "do" (params ts).2)]⟩
  | call (name : String) (ts : List Token) :
    Reads .call (⟨.keyword, "call"⟩ :: ⟨.identifier, name⟩ :: ts)
      ⟨.call (some name) (some (leaves (skipWord "value" ts))), []⟩
  | giveBack (ts : List Token) :
    Reads .giveBack (⟨.keyword, "return"⟩ :: ts) ⟨.giveBack ((value? ts).map (·.1)), []⟩
  | repeatFor {ts body : List Token} {start stop : String} {step : Option String}
      (counter : String) (h : clauses? {} ts = some (⟨some start, some stop, step⟩, body)) :
    Reads .repeatFor (⟨.keyword, "for"⟩ :: ⟨.identifier, counter⟩ :: ts)
      ⟨.repeatFor (some counter) (some start) (some stop) (some (step.getD "1")) .hole,
        [(.body, body)]⟩
  | repeatWhile (c : Comparison) (ts : List Token) :
    Reads .repeatWhile (⟨.keyword, "while"⟩ :: (c.tokens ++ ts))
      ⟨.repeatWhile (some c.condition) .hole, [(.body, skipWord "do" ts)]⟩
  | branch (c : Comparison) (ts : List Token) :
    Reads .branch (⟨.keyword, "if"⟩ :: (c.tokens ++ ts))
      ⟨.branch (some c.condition) .hole .hole,
        [(.thenBody, (skipWord "then" ts).takeWhile fun t => !t.isWord "else"),
          (.elseBody, ((skipWord "then" ts).dropWhile fun t => !t.isWord "else").drop 1)]⟩
  | compute {operator right : String} {ts : List Token} {result : Option String} (v : Value)
      (h : operator ∈ Vocabulary.arithmeticWords) (hts : operands none ts = (some right, result)) :
    Reads .compute (⟨.keyword, operator⟩ :: v.1 :: ts)
      ⟨.compute (some operator) (some v.1.spelling) (some right) result, []⟩
  | increment (name : String) (ts : List Token) :
    Reads .increment (⟨.keyword, "increment"⟩ :: ⟨.identifier, name⟩ :: ts)
      ⟨.increment (some name) (some (amount ts)), []⟩
  | decrement (name : String) (ts : List Token) :
    Reads .decrement (⟨.keyword, "decrement"⟩ :: ⟨.identifier, name⟩ :: ts)
      ⟨.decrement (some name) (some (amount ts)), []⟩
  | read (name : String) (ts : List Token) :
    Reads .read (⟨.keyword, "input"⟩ :: ⟨.identifier, name⟩ :: ts) ⟨.read (some name), []⟩
  | createEmpty {ts rest : List Token} {name : String}
      (h : skipWord "variable" ts = ⟨.identifier, name⟩ :: rest)
      (hend : skipWord "to" (skipWord "value" rest) = []) :
    Reads .create (⟨.keyword, "create"⟩ :: ts) ⟨.create (some name) none, []⟩
  | create {ts rest after : List Token} {name : String} (v : Value)
      (h : skipWord "variable" ts = ⟨.identifier, name⟩ :: rest)
      (hv : skipWord "to" (skipWord "value" rest) = v.1 :: after) :
    Reads .create (⟨.keyword, "create"⟩ :: ts) ⟨.create (some name) (some v.1.spelling), []⟩
  | assign {ts after : List Token} (name : String) (v : Value)
      (h : skipWord "to" (skipOneOf ["to", "value"] ts) = v.1 :: after) :
    Reads .assign (⟨.keyword, "set"⟩ :: ⟨.identifier, name⟩ :: ts)
      ⟨.assign (some name) (some v.1.spelling), []⟩
  | print {ts : List Token} (h : leaves ts ≠ []) :
    Reads .print (⟨.keyword, "print"⟩ :: ts) ⟨.print (some (leaves ts)), []⟩
  | catchAll (ts : List Token) : Reads .catchAll ts ⟨.remark (some (remarkText ts)), []⟩

/-- What a rule reads, it reads as the relation says. -/
theorem reads_of_accept? {rule : Rule} {ts : List Token} {m : Match}
    (h : rule.accept? ts = some m) : rule.Reads ts m := by
  cases rule with
  | remark =>
    change remark? ts = some m at h
    unfold remark? at h
    split at h
    next => cases h; exact .remark _ _
    next => cases h
  | createList =>
    change createList? ts = some m at h
    unfold createList? at h
    split at h
    next => cases h; exact .createList _ _
    next => cases h
  | append =>
    change append? ts = some m at h
    unfold append? at h
    split at h
    next t ts =>
      split at h
      next ht =>
        obtain ⟨list, hlist, rfl⟩ := Option.map_eq_some_iff.mp h
        exact .append ⟨t, ht⟩ hlist
      next => cases h
    next => cases h
  | define =>
    change define? ts = some m at h
    unfold define? at h
    split at h
    next =>
      split at h
      next hword => cases h; exact .define hword _ _
      next => cases h
    next => cases h
  | call =>
    change call? ts = some m at h
    unfold call? at h
    split at h
    next => cases h; exact .call _ _
    next => cases h
  | giveBack =>
    change giveBack? ts = some m at h
    unfold giveBack? at h
    split at h
    next => cases h; exact .giveBack _
    next => cases h
  | repeatFor =>
    change repeatFor? ts = some m at h
    unfold repeatFor? at h
    split at h
    next =>
      split at h
      next hclauses => cases h; exact .repeatFor _ hclauses
      next => cases h
    next => cases h
  | repeatWhile =>
    change repeatWhile? ts = some m at h
    unfold repeatWhile? at h
    split at h
    next =>
      obtain ⟨⟨c, rest⟩, hread, rfl⟩ := Option.map_eq_some_iff.mp h
      obtain ⟨k, rfl, rfl⟩ := Condition.read?_eq_some_iff.mp hread
      exact .repeatWhile k rest
    next => cases h
  | branch =>
    change branch? ts = some m at h
    unfold branch? at h
    split at h
    next =>
      obtain ⟨⟨c, rest⟩, hread, rfl⟩ := Option.map_eq_some_iff.mp h
      obtain ⟨k, rfl, rfl⟩ := Condition.read?_eq_some_iff.mp hread
      exact .branch k rest
    next => cases h
  | compute =>
    change compute? ts = some m at h
    unfold compute? at h
    split at h
    next operator t ts =>
      split at h
      next hword =>
        rw [Bool.and_eq_true, List.contains_iff_mem] at hword
        split at h
        next hoperands => cases h; exact .compute ⟨t, hword.2⟩ hword.1 hoperands
        next => cases h
      next => cases h
    next => cases h
  | increment =>
    change increment? ts = some m at h
    unfold increment? at h
    split at h
    next => cases h; exact .increment _ _
    next => cases h
  | decrement =>
    change decrement? ts = some m at h
    unfold decrement? at h
    split at h
    next => cases h; exact .decrement _ _
    next => cases h
  | read =>
    change read? ts = some m at h
    unfold read? at h
    split at h
    next => cases h; exact .read _ _
    next => cases h
  | create =>
    change create? ts = some m at h
    unfold create? at h
    split at h
    next =>
      split at h
      next hname =>
        split at h
        next hend => cases h; exact .createEmpty hname hend
        next t _ hvalue =>
          split at h
          next ht => cases h; exact .create ⟨t, ht⟩ hname hvalue
          next => cases h
      next => cases h
    next => cases h
  | assign =>
    change assign? ts = some m at h
    unfold assign? at h
    split at h
    next =>
      obtain ⟨⟨text, after⟩, hvalue, rfl⟩ := Option.map_eq_some_iff.mp h
      obtain ⟨v, hv, rfl⟩ := Condition.value?_eq_some_iff.mp hvalue
      exact .assign _ v hv
    next => cases h
  | print =>
    change print? ts = some m at h
    unfold print? at h
    split at h
    next =>
      split at h
      next => cases h
      next v vs hleaves =>
        cases h
        rw [← hleaves]
        exact .print (by rw [hleaves]; exact List.cons_ne_nil v vs)
    next => cases h
  | catchAll => cases h; exact .catchAll ts

/-- A rule reads whatever the relation says it reads. -/
theorem Reads.accept? {rule : Rule} {ts : List Token} {m : Match} (h : rule.Reads ts m) :
    rule.accept? ts = some m := by
  cases h with
  | append v hlist =>
    rw [Rule.accept?, append?, if_pos v.2, hlist]
    rfl
  | define hword => exact if_pos hword
  | repeatFor counter hclauses =>
    rw [Rule.accept?, repeatFor?, hclauses]
  | repeatWhile c ts =>
    rw [Rule.accept?, repeatWhile?, Condition.read?_eq_some_iff.mpr ⟨c, rfl, rfl⟩]
    rfl
  | branch c ts =>
    rw [Rule.accept?, branch?, Condition.read?_eq_some_iff.mpr ⟨c, rfl, rfl⟩]
    rfl
  | compute v hword hoperands =>
    have hboth := Bool.and_eq_true_iff.mpr ⟨List.contains_iff_mem.mpr hword, v.2⟩
    rw [Rule.accept?, compute?, if_pos hboth, hoperands]
  | createEmpty hname hend =>
    rw [Rule.accept?, create?, hname]
    dsimp only
    rw [hend]
  | create v hname hvalue =>
    rw [Rule.accept?, create?, hname]
    dsimp only
    rw [hvalue]
    exact if_pos v.2
  | assign name v hvalue =>
    rw [Rule.accept?, assign?, Condition.value?_eq_some_iff.mpr ⟨v, hvalue, rfl⟩]
    rfl
  | @print ts hleaves =>
    obtain ⟨v, vs, hcons⟩ := List.exists_cons_of_ne_nil hleaves
    rw [Rule.accept?, print?, hcons]
  | _ => rfl

/-- The rules read exactly what the relation says. -/
theorem accept?_eq_some_iff {rule : Rule} {ts : List Token} {m : Match} :
    rule.accept? ts = some m ↔ rule.Reads ts m :=
  ⟨reads_of_accept?, Reads.accept?⟩

/-! ## The first words -/

/-- The rule that the first words of tokens call for. -/
def leading? : List Token → Option Rule
  | ⟨.keyword, "comment"⟩ :: _ => some .remark
  | ⟨.keyword, "create"⟩ :: ⟨.keyword, "list"⟩ :: _ => some .createList
  | ⟨.keyword, "create"⟩ :: ⟨.keyword, "function"⟩ :: _ => some .define
  | ⟨.keyword, "create"⟩ :: _ => some .create
  | ⟨.keyword, "define"⟩ :: _ => some .define
  | ⟨.keyword, "append"⟩ :: _ => some .append
  | ⟨.keyword, "call"⟩ :: _ => some .call
  | ⟨.keyword, "return"⟩ :: _ => some .giveBack
  | ⟨.keyword, "for"⟩ :: _ => some .repeatFor
  | ⟨.keyword, "while"⟩ :: _ => some .repeatWhile
  | ⟨.keyword, "if"⟩ :: _ => some .branch
  | ⟨.keyword, "increment"⟩ :: _ => some .increment
  | ⟨.keyword, "decrement"⟩ :: _ => some .decrement
  | ⟨.keyword, "input"⟩ :: _ => some .read
  | ⟨.keyword, "set"⟩ :: _ => some .assign
  | ⟨.keyword, "print"⟩ :: _ => some .print
  | ⟨.keyword, word⟩ :: _ =>
    if Vocabulary.arithmeticWords.contains word then some .compute else none
  | _ => none

private theorem leading?_create {ts rest : List Token} {name : String}
    (h : skipWord "variable" ts = ⟨.identifier, name⟩ :: rest) :
    leading? (⟨.keyword, "create"⟩ :: ts) = some .create := by
  obtain ⟨said, hts⟩ := Token.exists_optional "variable" ts
  rw [h] at hts
  subst hts
  cases said with
  | false => rfl
  | true => rfl

private theorem leading?_arithmetic {word : String} (h : word ∈ Vocabulary.arithmeticWords)
    (ts : List Token) : leading? (⟨.keyword, word⟩ :: ts) = some .compute := by
  simp only [Vocabulary.arithmeticWords, List.mem_cons, List.not_mem_nil, or_false] at h
  rcases h with rfl | rfl | rfl | rfl | rfl <;> rfl

/-- A rule of the grammar is the one that the first words call for. -/
theorem Reads.leading? {rule : Rule} {ts : List Token} {m : Match} (h : rule.Reads ts m)
    (hrule : rule ≠ .catchAll) : leading? ts = some rule := by
  cases h with
  | createEmpty hname | create _ hname => exact leading?_create hname
  | compute _ hword => exact leading?_arithmetic hword _
  | define hword =>
    rcases hword with rfl | rfl
    · rfl
    · rfl
  | catchAll => exact absurd rfl hrule
  | _ => rfl

theorem mem_grammar_iff {rule : Rule} : rule ∈ grammar ↔ rule ≠ .catchAll := by
  cases rule <;> decide

/-- No tokens are read by two rules of the grammar. -/
theorem eq_of_accept? {r s : Rule} {ts : List Token} {m n : Match} (hr : r ∈ grammar)
    (hs : s ∈ grammar) (hm : r.accept? ts = some m) (hn : s.accept? ts = some n) : r = s := by
  have hfirst := (reads_of_accept? hm).leading? (mem_grammar_iff.mp hr)
  rw [(reads_of_accept? hn).leading? (mem_grammar_iff.mp hs)] at hfirst
  exact (Option.some.inj hfirst).symm

/-! ## What is left for the slots -/

theorem skipWord_suffix (word : String) (ts : List Token) : skipWord word ts <:+ ts := by
  obtain ⟨said, hts⟩ := Token.exists_optional word ts
  exact ⟨_, hts.symm⟩

private theorem params_suffix (ts : List Token) : (params ts).2 <:+ ts := by
  cases ts with
  | nil => exact List.suffix_refl []
  | cons t ts =>
    rw [params]
    split
    next => exact (List.dropWhile_suffix _).trans (List.suffix_cons t ts)
    next => exact List.suffix_refl _

/-- What stands behind the clauses of a loop is the end of its tokens. -/
private theorem suffix_of_clauses? {b bounds : Bounds} {ts body : List Token}
    (h : clauses? b ts = some (bounds, body)) : body <:+ ts := by
  obtain ⟨_, _, rfl⟩ := clauses?_eq_some_iff.mp h
  exact (List.drop_suffix 1 _).trans (List.dropWhile_suffix _)

/-- The slots of what a rule reads: there are none, or there is a body at the end of the tokens, or
there are two bodies, one behind the other. The first token is in none of them. -/
theorem Reads.spans_cases {rule : Rule} {ts : List Token} {m : Match} (h : rule.Reads ts m) :
    m.spans = [] ∨
    (∃ front body, front ≠ [] ∧ ts = front ++ body ∧ m.spans = [(.body, body)]) ∨
    (∃ front before between behind, front ≠ [] ∧ ts = front ++ (before ++ (between ++ behind)) ∧
      m.spans = [(.thenBody, before), (.elseBody, behind)]) := by
  cases h with
  | @define word hword name ts =>
    obtain ⟨front, hfront⟩ := (skipWord_suffix "do" (params ts).2).trans (params_suffix ts)
    refine Or.inr (Or.inl ⟨⟨.keyword, word⟩ :: ⟨.keyword, "function"⟩ :: ⟨.identifier, name⟩ ::
      front, _, List.cons_ne_nil _ _, ?_, rfl⟩)
    simp only [List.cons_append, hfront]
  | @repeatFor ts body _ _ _ counter hclauses =>
    obtain ⟨front, hfront⟩ := suffix_of_clauses? hclauses
    refine Or.inr (Or.inl ⟨⟨.keyword, "for"⟩ :: ⟨.identifier, counter⟩ :: front, _,
      List.cons_ne_nil _ _, ?_, rfl⟩)
    simp only [List.cons_append, hfront]
  | repeatWhile c ts =>
    obtain ⟨front, hfront⟩ := skipWord_suffix "do" ts
    refine Or.inr (Or.inl ⟨⟨.keyword, "while"⟩ :: (c.tokens ++ front), _, List.cons_ne_nil _ _, ?_,
      rfl⟩)
    simp only [List.cons_append, List.append_assoc, hfront]
  | branch c ts =>
    obtain ⟨front, hfront⟩ := skipWord_suffix "then" ts
    refine Or.inr (Or.inr ⟨⟨.keyword, "if"⟩ :: (c.tokens ++ front), _,
      ((skipWord "then" ts).dropWhile fun t => !t.isWord "else").take 1, _, List.cons_ne_nil _ _,
      ?_, rfl⟩)
    rw [List.take_append_drop, List.takeWhile_append_dropWhile]
    simp only [List.cons_append, List.append_assoc, hfront]
  | _ => exact Or.inl rfl

/-- The tokens of a slot stand together among those of the command, and are fewer. -/
theorem Reads.span_lt {rule : Rule} {ts : List Token} {m : Match} (h : rule.Reads ts m)
    {slot : Slot} {span : List Token} (hspan : (slot, span) ∈ m.spans) :
    span.length < ts.length ∧ span <:+: ts := by
  have hfront : ∀ {front rest : List Token}, front ≠ [] → span.length ≤ rest.length →
      span.length < (front ++ rest).length := by
    intro front rest hne hle
    have hpos := List.length_pos_iff.mpr hne
    rw [List.length_append]
    omega
  rcases h.spans_cases with hnone | ⟨front, body, hne, rfl, hone⟩ |
    ⟨front, before, between, behind, hne, rfl, htwo⟩
  · rw [hnone] at hspan
    cases hspan
  · rw [hone, List.mem_singleton, Prod.mk.injEq] at hspan
    obtain ⟨_, rfl⟩ := hspan
    exact ⟨hfront hne (Nat.le_refl _), (List.suffix_append front _).isInfix⟩
  · rw [htwo, List.mem_cons, List.mem_singleton, Prod.mk.injEq, Prod.mk.injEq] at hspan
    rcases hspan with ⟨_, rfl⟩ | ⟨_, rfl⟩
    · refine ⟨hfront hne ?_, front, between ++ behind, List.append_assoc ..⟩
      rw [List.length_append]
      omega
    · refine ⟨hfront hne ?_, front ++ (before ++ between), [], ?_⟩
      · rw [List.length_append, List.length_append]
        omega
      · simp only [List.append_assoc, List.append_nil]

end Rule

namespace Parsed

/-! ## The first rule is the only one -/

/-- What a rule that is found reads. -/
theorem accept?_of_firstMatch? {rules : List Rule} {ts : List Token} {rule : Rule} {m : Match}
    (h : firstMatch? rules ts = some (rule, m)) : rule ∈ rules ∧ rule.accept? ts = some m := by
  obtain ⟨other, hmem, hother⟩ := List.exists_of_findSome?_eq_some h
  obtain ⟨n, hn, hpair⟩ := Option.map_eq_some_iff.mp hother
  rw [Prod.mk.injEq] at hpair
  obtain ⟨rfl, rfl⟩ := hpair
  exact ⟨hmem, hn⟩

/-- Among rules of the grammar, the one that is found is whichever reads the tokens. -/
theorem firstMatch?_eq_some_iff {rules : List Rule} (hrules : ∀ r ∈ rules, r ∈ grammar)
    {ts : List Token} {rule : Rule} {m : Match} :
    firstMatch? rules ts = some (rule, m) ↔ rule ∈ rules ∧ rule.accept? ts = some m := by
  constructor
  · exact accept?_of_firstMatch?
  · rintro ⟨hmem, hread⟩
    cases hfirst : firstMatch? rules ts with
    | none =>
      have hnone := List.findSome?_eq_none_iff.mp hfirst rule hmem
      rw [hread] at hnone
      cases hnone
    | some found =>
      obtain ⟨other, n⟩ := found
      obtain ⟨hother, hn⟩ := accept?_of_firstMatch? hfirst
      obtain rfl := Rule.eq_of_accept? (hrules other hother) (hrules rule hmem) hn hread
      rw [hread, Option.some.injEq] at hn
      rw [hn]

end Parsed

end PlainCode
