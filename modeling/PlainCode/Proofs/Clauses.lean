import Mathlib.Data.List.Forall2
import PlainCode.Proofs.Sentences

/-!
# Clauses and operands

What the two rules with scans read, said without the scans. A counting loop is read exactly if every
`from`, `to` and `by` in front of its `do` has a value behind it, and a `from` and a `to` are among
them (`repeatFor_eq_some_iff`). So if what stands there is taken apart into clauses and other tokens
(`LoopPart.partsOf`), clauses of different words may change places (`loop_clauses`). A calculation
is read exactly if another value stands in front of its `store` or `in`, and the last `and` with a
value behind it decides which one is taken (`last_operand`).
-/

namespace PlainCode

namespace Rule

open PlainCode.Token (before behind valuesBehind valuesBehind_cons_of_not valuesBehind_pair)

/-! ## Loops -/

/-- The counting loops that are read. -/
theorem repeatFor_eq_some_iff {counter : String} {ts : List Token} {m : Match} :
    Rule.repeatFor.accept? (⟨.keyword, "for"⟩ :: ⟨.identifier, counter⟩ :: ts) = some m ↔
      Complete (before (Token.isWord "do") ts) ∧ ∃ start stop,
        (valuesBehind "from" (before (Token.isWord "do") ts)).getLast? = some start ∧
        (valuesBehind "to" (before (Token.isWord "do") ts)).getLast? = some stop ∧
        m = ⟨.repeatFor (some counter) (some start) (some stop) (some
            ((valuesBehind "by" (before (Token.isWord "do") ts)).getLast?.getD "1")) .hole,
          [(.body, behind (Token.isWord "do") ts)]⟩ := by
  rw [accept?_eq_some_iff]
  constructor
  · intro h
    cases h with
    | repeatFor _ hclauses =>
      obtain ⟨hcomplete, hbounds, rfl⟩ := clauses?_eq_some_iff.mp hclauses
      rw [lastBounds, Option.or_none, Option.or_none, Option.or_none, Bounds.mk.injEq] at hbounds
      obtain ⟨hstart, hstop, rfl⟩ := hbounds
      exact ⟨hcomplete, _, _, hstart.symm, hstop.symm, rfl⟩
  · rintro ⟨hcomplete, start, stop, hstart, hstop, rfl⟩
    refine .repeatFor counter (clauses?_eq_some_iff.mpr ⟨hcomplete, ?_, rfl⟩)
    rw [lastBounds, Option.or_none, Option.or_none, Option.or_none, hstart, hstop]

/-- A part of the tokens in front of the `do` of a loop: a clause, or a token of none. -/
inductive LoopPart where
  | clause (c : Clause)
  | other (t : Token)

namespace LoopPart

/-- The tokens of a part. -/
def tokens : LoopPart → List Token
  | .clause c => Sentence.clauseTokens c
  | .other t => [t]

/-- The value of a part, if it is a clause of a word. -/
def value? (word : String) : LoopPart → Option String
  | .clause c => if c.word.word = word then some c.value.1.spelling else none
  | .other _ => none

/-- The values of the clauses of a word, in order. -/
def values (word : String) (parts : List LoopPart) : List String := parts.filterMap (value? word)

/-- Whether no word that begins clauses stands outside of them. -/
def Apart (parts : List LoopPart) : Prop :=
  ∀ t, .other t ∈ parts → t.isOneOf clauseWords = false

theorem apart_clause {c : Clause} {parts : List LoopPart} :
    Apart (.clause c :: parts) ↔ Apart parts := by
  constructor
  · exact fun h t ht => h t (List.mem_cons_of_mem _ ht)
  · intro h t ht
    rcases List.mem_cons.mp ht with heq | ht
    · cases heq
    · exact h t ht

theorem apart_other {t : Token} {parts : List LoopPart} :
    Apart (.other t :: parts) ↔ t.isOneOf clauseWords = false ∧ Apart parts := by
  constructor
  · exact fun h => ⟨h t (List.mem_cons_self ..), fun u hu => h u (List.mem_cons_of_mem _ hu)⟩
  · rintro ⟨ht, h⟩ u hu
    rcases List.mem_cons.mp hu with heq | hu
    · cases heq
      exact ht
    · exact h u hu

/-- The parts of tokens, from the left. A word that begins clauses is part of one exactly if a value
stands right behind it. -/
def partsOf : List Token → List LoopPart
  | [] => []
  | [t] => [.other t]
  | t :: v :: ts =>
    if ht : t.isOneOf clauseWords = true then
      if hv : v.isValue = true then
        .clause ⟨⟨t.value, (Token.isOneOf_iff.mp ht).2⟩, ⟨v, hv⟩⟩ :: partsOf ts
      else .other t :: partsOf (v :: ts)
    else .other t :: partsOf (v :: ts)

/-- Nothing is lost in parts. -/
theorem flatMap_partsOf (ts : List Token) : (partsOf ts).flatMap tokens = ts := by
  fun_induction partsOf ts with
  | case1 => rfl
  | case2 t => rfl
  | case3 t v ts ht hv ih =>
    have hkeyword : (⟨.keyword, t.value⟩ : Token) = t := by rw [← (Token.isOneOf_iff.mp ht).1]
    rw [List.flatMap_cons, ih]
    show ⟨.keyword, t.value⟩ :: v :: ts = t :: v :: ts
    rw [hkeyword]
  | case4 t v ts _ _ ih | case5 t v ts _ ih =>
    rw [List.flatMap_cons, ih]
    rfl

/-- In complete tokens no word that begins clauses is left over. -/
theorem apart_partsOf {ts : List Token} (h : Complete ts) : Apart (partsOf ts) := by
  fun_induction partsOf ts with
  | case1 => exact nofun
  | case2 t =>
    obtain ⟨hhead, -⟩ := complete_cons.mp h
    refine apart_other.mpr ⟨Bool.eq_false_iff.mpr fun ht => ?_, nofun⟩
    cases hhead ht
  | case3 t v ts ht hv ih => exact apart_clause.mpr (ih ((complete_pair t hv).mp h))
  | case4 t v ts ht hv ih => exact absurd ((complete_cons.mp h).1 ht) hv
  | case5 t v ts ht ih =>
    obtain ⟨-, hrest⟩ := complete_cons.mp h
    exact apart_other.mpr ⟨Bool.eq_false_iff.mpr ht, ih hrest⟩

private theorem complete_flatMap {parts : List LoopPart} (h : Apart parts) :
    Complete (parts.flatMap tokens) := by
  induction parts with
  | nil => exact complete_nil
  | cons part parts ih =>
    cases part with
    | clause c => exact (complete_pair c.word.token c.value.2).mpr (ih (apart_clause.mp h))
    | other t =>
      obtain ⟨ht, hparts⟩ := apart_other.mp h
      have hnot : ¬ t.isOneOf clauseWords = true := Bool.eq_false_iff.mp ht
      exact complete_cons.mpr ⟨fun hword => absurd hword hnot, ih hparts⟩

theorem valuesBehind_flatMap {word : String} (hword : clauseWords.contains word = true)
    {parts : List LoopPart} (h : Apart parts) :
    valuesBehind word (parts.flatMap tokens) = values word parts := by
  induction parts with
  | nil => rfl
  | cons part parts ih =>
    cases part with
    | clause c =>
      have hiff : c.word.token.isWord word = true ↔ c.word.word = word := by
        simp [Token.isWord, Keyword.token]
      have hstep := valuesBehind_pair word c.word.token c.value.2 (parts.flatMap tokens)
      rw [ih (apart_clause.mp h)] at hstep
      refine hstep.trans ?_
      rw [values, values, List.filterMap_cons, value?]
      by_cases hc : c.word.word = word
      · rw [if_pos (hiff.mpr hc), if_pos hc]
        rfl
      · rw [if_neg (mt hiff.mp hc), if_neg hc]
        rfl
    | other t =>
      obtain ⟨ht, hparts⟩ := apart_other.mp h
      have hnot : t.isWord word = true →
          (parts.flatMap tokens).head?.any Token.isValue = false := by
        intro htrue
        rw [Token.eq_keyword_of_isWord htrue, Token.isOneOf, hword] at ht
        cases ht
      exact (valuesBehind_cons_of_not hnot).trans (ih hparts)

/-- Whether a part is a clause. -/
def isClause : LoopPart → Bool
  | .clause _ => true
  | .other _ => false

/-- Whether parts differ only in clauses that stand where others stood. -/
def InPlace (parts others : List LoopPart) : Prop :=
  List.Forall₂ (fun p q => p = q ∨ p.isClause = true ∧ q.isClause = true) parts others

theorem InPlace.symm {parts others : List LoopPart} (h : InPlace parts others) :
    InPlace others parts :=
  List.Forall₂.flip (h.imp fun _ _ hpart => hpart.imp Eq.symm And.symm)

/-- A value stands first exactly if it does with other clauses in the places of clauses. -/
private theorem InPlace.head?_any {parts others : List LoopPart} (h : InPlace parts others) :
    (parts.flatMap tokens).head?.any Token.isValue
      = (others.flatMap tokens).head?.any Token.isValue := by
  cases h with
  | nil => rfl
  | @cons p q _ _ hpart _ =>
    rcases hpart with rfl | ⟨hp, hq⟩
    · cases p with
      | clause c => rfl
      | other t => rfl
    · cases p with
      | other t => cases hp
      | clause c =>
        cases q with
        | other t => cases hq
        | clause d => rfl

/-- Tokens stay complete if clauses in them stand where others stood. -/
private theorem InPlace.complete {parts others : List LoopPart} (h : InPlace parts others)
    (hcomplete : Complete (parts.flatMap tokens)) : Complete (others.flatMap tokens) := by
  induction h with
  | nil => exact hcomplete
  | @cons p q ps qs hpart hrest ih =>
    cases p with
    | clause c =>
      have hq : q.isClause = true := hpart.elim (fun heq => heq ▸ rfl) And.right
      cases q with
      | other t => cases hq
      | clause d =>
        exact (complete_pair d.word.token d.value.2).mpr
          (ih ((complete_pair c.word.token c.value.2).mp hcomplete))
    | other t =>
      obtain rfl : LoopPart.other t = q := hpart.resolve_right fun hp => nomatch hp.1
      obtain ⟨hhead, hps⟩ := complete_cons.mp hcomplete
      exact complete_cons.mpr ⟨fun ht => (InPlace.head?_any hrest) ▸ hhead ht, ih hps⟩

/-- Where parts change places, a word that has one clause at most keeps its value. -/
private theorem values_eq_of_perm {word : String} {parts others : List LoopPart}
    (hperm : parts.Perm others) (h : (values word parts).length ≤ 1) :
    values word parts = values word others := by
  have hvalues : (values word parts).Perm (values word others) := hperm.filterMap _
  match hv : values word parts, h with
  | [], _ =>
    rw [hv] at hvalues
    exact hvalues.nil_eq
  | [value], _ =>
    rw [hv] at hvalues
    exact (List.perm_singleton.mp hvalues.symm).symm

/-- Tokens stay complete or incomplete when parts of them change places, if only clauses do, or if
they were complete. -/
private theorem complete_of_perm {ts : List Token} {others : List LoopPart}
    (hperm : (partsOf ts).Perm others) (hplaces : InPlace (partsOf ts) others ∨ Complete ts) :
    Complete (others.flatMap tokens) ↔ Complete ts := by
  constructor
  · intro h
    rcases hplaces with hplaces | hcomplete
    · exact flatMap_partsOf ts ▸ hplaces.symm.complete h
    · exact hcomplete
  · intro h
    exact complete_flatMap fun t ht => apart_partsOf h t (hperm.mem_iff.mpr ht)

/-- In complete tokens the values behind a word stay the same when parts change places, unless two
clauses of the word do. -/
theorem valuesBehind_of_perm {ts : List Token} (hcomplete : Complete ts) {others : List LoopPart}
    (hperm : (partsOf ts).Perm others) {word : String} (hword : clauseWords.contains word = true)
    (hvalues : (values word (partsOf ts)).length ≤ 1 ∨
      values word (partsOf ts) = values word others) :
    valuesBehind word (others.flatMap tokens) = valuesBehind word ts := by
  have hparts : Apart (partsOf ts) := apart_partsOf hcomplete
  have hothers : Apart others := fun t ht => hparts t (hperm.mem_iff.mpr ht)
  have hsame : values word (partsOf ts) = values word others :=
    hvalues.elim (values_eq_of_perm hperm) id
  calc valuesBehind word (others.flatMap tokens)
      = values word others := valuesBehind_flatMap hword hothers
    _ = values word (partsOf ts) := hsame.symm
    _ = valuesBehind word ((partsOf ts).flatMap tokens) := (valuesBehind_flatMap hword hparts).symm
    _ = valuesBehind word ts := by rw [flatMap_partsOf]

end LoopPart

/-- **Clauses of a loop may stand in any order.** A counting loop is read exactly if every `from`,
`to` and `by` in front of its `do` has a value right behind it, and a `from` and a `to` are among
them. The values behind the last of each word are its bounds, and what stands behind `do` is its
body. So clauses may change places, unless two of one word do, and nothing changes in what is read.
Where every `from`, `to` and `by` has its value, they may also change places with what stands
between them. -/
theorem loop_clauses (counter : String) (ts : List Token) :
    let head := before (Token.isWord "do") ts
    let read (ts : List Token) :=
      Rule.repeatFor.accept? (⟨.keyword, "for"⟩ :: ⟨.identifier, counter⟩ :: ts)
    ((read ts).isSome = true ↔ Complete head ∧ (∃ t ∈ head, t.isWord "from" = true) ∧
      (∃ t ∈ head, t.isWord "to" = true)) ∧
    (∀ m, read ts = some m → ∃ start stop,
      (valuesBehind "from" head).getLast? = some start ∧
      (valuesBehind "to" head).getLast? = some stop ∧
      m = ⟨.repeatFor (some counter) (some start) (some stop)
        (some ((valuesBehind "by" head).getLast?.getD "1")) .hole,
        [(.body, behind (Token.isWord "do") ts)]⟩) ∧
    (LoopPart.partsOf head).flatMap LoopPart.tokens = head ∧
    ∀ others : List LoopPart, (LoopPart.partsOf head).Perm others →
      (LoopPart.InPlace (LoopPart.partsOf head) others ∨ Complete head) →
      (∀ word ∈ clauseWords, (LoopPart.values word (LoopPart.partsOf head)).length ≤ 1 ∨
        LoopPart.values word (LoopPart.partsOf head) = LoopPart.values word others) →
      read (others.flatMap LoopPart.tokens ++ Token.onward (Token.isWord "do") ts) = read ts := by
  intro head read
  refine ⟨?_, ?_, LoopPart.flatMap_partsOf head, ?_⟩
  · rw [Option.isSome_iff_exists]
    constructor
    · rintro ⟨m, hm⟩
      obtain ⟨hcomplete, start, stop, hstart, hstop, -⟩ := repeatFor_eq_some_iff.mp hm
      exact ⟨hcomplete, (exists_getLast?_iff hcomplete rfl).mp ⟨start, hstart⟩,
        (exists_getLast?_iff hcomplete rfl).mp ⟨stop, hstop⟩⟩
    · rintro ⟨hcomplete, hfrom, hto⟩
      obtain ⟨start, hstart⟩ := (exists_getLast?_iff hcomplete rfl).mpr hfrom
      obtain ⟨stop, hstop⟩ := (exists_getLast?_iff hcomplete rfl).mpr hto
      exact ⟨_, repeatFor_eq_some_iff.mpr ⟨hcomplete, start, stop, hstart, hstop, rfl⟩⟩
  · exact fun m hm => (repeatFor_eq_some_iff.mp hm).2
  · intro others hperm hplaces hvalues
    have hnot : ∀ t ∈ others.flatMap LoopPart.tokens, t.isWord "do" = false := by
      intro t ht
      have hmem := (hperm.flatMap_right LoopPart.tokens).mem_iff.mpr ht
      rw [LoopPart.flatMap_partsOf] at hmem
      exact Token.not_of_mem_before hmem
    apply Option.ext
    intro m
    rw [repeatFor_eq_some_iff, repeatFor_eq_some_iff, Token.before_append_onward hnot,
      Token.behind_append_onward hnot, LoopPart.complete_of_perm hperm hplaces]
    refine and_congr_right fun hcomplete => ?_
    rw [LoopPart.valuesBehind_of_perm hcomplete hperm rfl (hvalues "from" (by decide)),
      LoopPart.valuesBehind_of_perm hcomplete hperm rfl (hvalues "to" (by decide)),
      LoopPart.valuesBehind_of_perm hcomplete hperm rfl (hvalues "by" (by decide))]

/-- `from 1 x to 10 by 2`, and the same the other way round. -/
theorem loop_clauses_reversed :
    let parts : List LoopPart := [.clause ⟨⟨"from", by decide⟩, ⟨⟨.number, "1"⟩, rfl⟩⟩,
      .other ⟨.identifier, "x"⟩, .clause ⟨⟨"to", by decide⟩, ⟨⟨.number, "10"⟩, rfl⟩⟩,
      .clause ⟨⟨"by", by decide⟩, ⟨⟨.number, "2"⟩, rfl⟩⟩]
    let rest : List Token := [⟨.keyword, "do"⟩, ⟨.keyword, "print"⟩, ⟨.identifier, "i"⟩]
    ∀ order ∈ [parts, parts.reverse],
      Rule.repeatFor.accept? (⟨.keyword, "for"⟩ :: ⟨.identifier, "i"⟩ ::
          (order.flatMap LoopPart.tokens ++ rest)) =
        some ⟨.repeatFor (some "i") (some "1") (some "10") (some "2") .hole,
          [(.body, [⟨.keyword, "print"⟩, ⟨.identifier, "i"⟩])]⟩ := by
  intro parts rest
  have hloop := loop_clauses "i" (parts.flatMap LoopPart.tokens ++ rest)
  have hread : Rule.repeatFor.accept? (⟨.keyword, "for"⟩ :: ⟨.identifier, "i"⟩ ::
      (parts.flatMap LoopPart.tokens ++ rest)) = some ⟨.repeatFor (some "i") (some "1")
        (some "10") (some "2") .hole, [(.body, [⟨.keyword, "print"⟩, ⟨.identifier, "i"⟩])]⟩ := by
    decide
  have hcomplete := (hloop.1.mp (Option.isSome_of_eq_some hread)).1
  have hturned := hloop.2.2.2 parts.reverse (List.reverse_perm parts).symm (Or.inr hcomplete)
    (by decide)
  rw [List.forall_mem_cons, List.forall_mem_singleton]
  exact ⟨hread, hturned.trans hread⟩

/-! ## Calculations -/

/-- The right side of a calculation, among the tokens in front of `store` and `in`: the value behind
the last `and` that has one, or else the first value. -/
def rightSide (head : List Token) : Option String :=
  (valuesBehind "and" head).getLast?.or ((head.find? Token.isValue).map Token.spelling)

private theorem exists_rightSide {head : List Token} :
    (∃ right, rightSide head = some right) ↔ ∃ t ∈ head, t.isValue = true := by
  constructor
  · rintro ⟨right, h⟩
    rcases Option.or_eq_some_iff.mp h with h | ⟨-, h⟩
    · exact Token.exists_value_of_mem (List.mem_of_getLast? h)
    · obtain ⟨t, ht, -⟩ := Option.map_eq_some_iff.mp h
      exact ⟨t, List.mem_of_find?_eq_some ht, List.find?_some ht⟩
  · intro h
    obtain ⟨t, ht⟩ := Option.isSome_iff_exists.mp (List.find?_isSome.mpr h)
    rw [rightSide, ht]
    cases (valuesBehind "and" head).getLast? with
    | none => exact ⟨_, rfl⟩
    | some value => exact ⟨value, rfl⟩

/-- The calculations that are read. -/
theorem compute_eq_some_iff {operator : String} (h : operator ∈ Vocabulary.arithmeticWords)
    (left : Value) {ts : List Token} {m : Match} :
    Rule.compute.accept? (⟨.keyword, operator⟩ :: left.1 :: ts) = some m ↔ ∃ right,
      rightSide (before (Token.isOneOf ["store", "in"]) ts) = some right ∧
      m = ⟨.compute (some operator) (some left.1.spelling) (some right)
        (firstName? (behind (Token.isOneOf ["store", "in"]) ts)), []⟩ := by
  have hoperands := operands_eq none ts
  rw [Option.none_or] at hoperands
  rw [accept?_eq_some_iff]
  constructor
  · intro hreads
    generalize hfront : (⟨.keyword, operator⟩ :: left.1 :: ts : List Token) = front at hreads
    cases hreads with
    | compute v hword hts =>
      obtain ⟨hkey, hrest⟩ := List.cons.inj hfront
      obtain ⟨hleft, rfl⟩ := List.cons.inj hrest
      cases hkey
      cases Subtype.ext hleft
      rw [hoperands, Prod.mk.injEq] at hts
      exact ⟨_, hts.1, by rw [hts.2]⟩
  · rintro ⟨right, hright, rfl⟩
    exact .compute left h (hoperands.trans (congrArg (·, _) hright))

/-- **The last operand counts.** A calculation with a first value is read exactly if another value
stands in front of its `store` or `in`. Its right side is the value behind the last `and` that has
one, or else the first value, and the name for its result is the first one behind `store` or
`in`. -/
theorem last_operand {operator : String} (h : operator ∈ Vocabulary.arithmeticWords) (left : Value)
    (ts : List Token) :
    let head := before (Token.isOneOf ["store", "in"]) ts
    let tail := behind (Token.isOneOf ["store", "in"]) ts
    let read := Rule.compute.accept? (⟨.keyword, operator⟩ :: left.1 :: ts)
    (read.isSome = true ↔ ∃ t ∈ head, t.isValue = true) ∧
    ∀ m, read = some m → ∃ right, rightSide head = some right ∧
      m = ⟨.compute (some operator) (some left.1.spelling) (some right)
        ((tail.find? Token.isName).map Token.value), []⟩ := by
  intro head tail read
  constructor
  · rw [Option.isSome_iff_exists, ← exists_rightSide]
    constructor
    · rintro ⟨m, hm⟩
      obtain ⟨right, hright, -⟩ := (compute_eq_some_iff h left).mp hm
      exact ⟨right, hright⟩
    · rintro ⟨right, hright⟩
      exact ⟨_, (compute_eq_some_iff h left).mpr ⟨right, hright, rfl⟩⟩
  · exact fun m hm => (compute_eq_some_iff h left).mp hm

/-- In `add 1 2 and 3 and 4 and store in x` the second value is passed over. -/
theorem last_operand_of_several :
    "add" ∈ Vocabulary.arithmeticWords ∧
      Rule.compute.accept? [⟨.keyword, "add"⟩, ⟨.number, "1"⟩, ⟨.number, "2"⟩, ⟨.keyword, "and"⟩,
        ⟨.number, "3"⟩, ⟨.keyword, "and"⟩, ⟨.number, "4"⟩, ⟨.keyword, "and"⟩, ⟨.keyword, "store"⟩,
        ⟨.keyword, "in"⟩, ⟨.identifier, "x"⟩] =
      some ⟨.compute (some "add") (some "1") (some "4") (some "x"), []⟩ := by
  have hword : "add" ∈ Vocabulary.arithmeticWords := by decide
  obtain ⟨hsome, hright⟩ := last_operand hword ⟨⟨.number, "1"⟩, rfl⟩ [⟨.number, "2"⟩,
    ⟨.keyword, "and"⟩, ⟨.number, "3"⟩, ⟨.keyword, "and"⟩, ⟨.number, "4"⟩, ⟨.keyword, "and"⟩,
    ⟨.keyword, "store"⟩, ⟨.keyword, "in"⟩, ⟨.identifier, "x"⟩]
  obtain ⟨m, hm⟩ := Option.isSome_iff_exists.mp (hsome.mpr (by decide))
  obtain ⟨right, hand, rfl⟩ := hright m hm
  cases hand
  exact ⟨hword, hm⟩

end Rule

end PlainCode
