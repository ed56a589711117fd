import PlainCode.Grammar.Condition

/-!
# The grammar of comparisons

A comparison is read token by token, and words that may be left out are passed over where they
stand. Beside that reading stands the grammar: a `Comparison` is two values and the words of an
operator between them, with a choice for each word that may be left out. `read?_eq_some_iff` is
that the two agree: what is read in front of the rest is a comparison of the grammar, and every
such comparison is read, whatever the rest is. So no comparison is the beginning of a longer one
(`rest_eq_of_tokens_append`), and one that begins at a position ends at only one other
(`comparison_at_position`).
-/

namespace PlainCode

namespace Token

/-! ## Words that may be left out -/

/-- A keyword that was said, or left out. -/
def optional (word : String) (said : Bool) : List Token :=
  if said then [⟨.keyword, word⟩] else []

/-- Tokens that begin with something else than a keyword are left as they are. -/
private theorem skipWord_of_head {word : String} {ts : List Token}
    (h : ∀ t ∈ ts.head?, t.isWord word = false) : skipWord word ts = ts := by
  cases ts with
  | nil => rfl
  | cons t ts =>
    have ht : t.isWord word = false := h t rfl
    rw [skipWord, ht]
    rfl

theorem isWord_keyword (word : String) : (⟨.keyword, word⟩ : Token).isWord word = true := by
  simp [isWord]

/-- A keyword in front is passed over, whether it is said or not. -/
theorem skipWord_optional {word : String} (said : Bool) {rest : List Token}
    (h : ∀ t ∈ rest.head?, t.isWord word = false) :
    skipWord word (optional word said ++ rest) = rest := by
  cases said with
  | false => exact skipWord_of_head h
  | true =>
    show skipWord word (⟨.keyword, word⟩ :: rest) = rest
    rw [skipWord, if_pos (isWord_keyword word)]

theorem eq_keyword_of_isWord {word : String} {t : Token} (h : t.isWord word = true) :
    t = ⟨.keyword, word⟩ := by
  rw [isWord, Bool.and_eq_true, beq_iff_eq, beq_iff_eq] at h
  obtain ⟨kind, value⟩ := t
  obtain ⟨rfl, rfl⟩ := h
  rfl

/-- What is passed over is the keyword. -/
theorem exists_optional (word : String) (ts : List Token) :
    ∃ said, ts = optional word said ++ skipWord word ts := by
  cases ts with
  | nil => exact ⟨false, rfl⟩
  | cons t ts =>
    by_cases ht : t.isWord word = true
    · refine ⟨true, ?_⟩
      rw [skipWord, if_pos ht, eq_keyword_of_isWord ht]
      rfl
    · refine ⟨false, ?_⟩
      rw [skipWord, if_neg ht]
      rfl

/-- A value is no keyword. -/
theorem isWord_of_isValue {t : Token} (h : t.isValue = true) (word : String) :
    t.isWord word = false := by
  obtain ⟨kind, value⟩ := t
  cases kind with
  | keyword => cases h
  | _ => rfl

theorem isOneOf_of_isValue {t : Token} (h : t.isValue = true) (words : List String) :
    t.isOneOf words = false := by
  have hkind := isWord_of_isValue h t.value
  rw [isWord, beq_self_eq_true, Bool.and_true] at hkind
  rw [isOneOf, hkind]
  rfl

end Token

/-! ## Comparisons -/

/-- A token that can stand where a value is asked for. -/
abbrev Value := { t : Token // t.isValue = true }

/-- The words of an operator. A flag says of a word that may be left out whether it is said. -/
inductive Comparator where
  | notEqualTo
  | notValue (saysTo : Bool)
  | notEqual (saysTo : Bool)
  | equalTo
  | value (saysTo : Bool)
  | greater (saysThan : Bool)
  | less (saysThan : Bool)

namespace Comparator

/-- The tokens of an operator. -/
def tokens : Comparator → List Token
  | .notEqualTo => [⟨.keyword, "not"⟩, ⟨.keyword, "equal_to"⟩]
  | .notValue saysTo => ⟨.keyword, "not"⟩ :: ⟨.keyword, "value"⟩ :: Token.optional "to" saysTo
  | .notEqual saysTo => ⟨.keyword, "not_equal"⟩ :: Token.optional "to" saysTo
  | .equalTo => [⟨.keyword, "equal_to"⟩]
  | .value saysTo => ⟨.keyword, "value"⟩ :: Token.optional "to" saysTo
  | .greater saysThan => ⟨.keyword, "greater"⟩ :: Token.optional "than" saysThan
  | .less saysThan => ⟨.keyword, "less"⟩ :: Token.optional "than" saysThan

/-- What an operator means. -/
def operator : Comparator → String
  | .notEqualTo | .notValue _ | .notEqual _ => "not_equal"
  | .equalTo | .value _ => "equal"
  | .greater _ => "greater"
  | .less _ => "less"

/-- The words that begin operators, each with what its operator means. -/
def leadWords : List (String × String) :=
  [("not", "not_equal"), ("not_equal", "not_equal"), ("equal_to", "equal"), ("value", "equal"),
    ("greater", "greater"), ("less", "less")]

/-- An operator has one to three words, and the first of them tells what it means. -/
theorem exists_tokens_eq (k : Comparator) : ∃ word more,
    k.tokens = ⟨.keyword, word⟩ :: more ∧ more.length ≤ 2 ∧ (word, k.operator) ∈ leadWords := by
  have hoptional : ∀ word said, (Token.optional word said).length ≤ 1 := by
    intro word said
    cases said with
    | false => exact Nat.zero_le 1
    | true => exact Nat.le_refl 1
  cases k with
  | notEqualTo | equalTo => exact ⟨_, _, rfl, by decide, by simp [leadWords, operator]⟩
  | notValue saysTo =>
    exact ⟨_, _, rfl, Nat.succ_le_succ (hoptional "to" saysTo), by simp [leadWords, operator]⟩
  | notEqual said | value said | greater said | less said =>
    exact ⟨_, _, rfl, Nat.le_succ_of_le (hoptional _ said), by simp [leadWords, operator]⟩

end Comparator

/-- A comparison as it is said: two values, and the words of an operator between them. -/
structure Comparison where
  left : Value
  comparator : Comparator
  right : Value

namespace Comparison

/-- The tokens of a comparison. -/
def tokens (c : Comparison) : List Token := c.left.1 :: (c.comparator.tokens ++ [c.right.1])

theorem tokens_append (c : Comparison) (rest : List Token) :
    c.tokens ++ rest = c.left.1 :: (c.comparator.tokens ++ c.right.1 :: rest) := by
  rw [tokens, List.cons_append, List.append_assoc]
  rfl

/-- What a comparison compares. -/
def condition (c : Comparison) : Condition :=
  ⟨some c.left.1.spelling, some c.comparator.operator, some c.right.1.spelling⟩

theorem length_tokens (c : Comparison) : 3 ≤ c.tokens.length ∧ c.tokens.length ≤ 5 := by
  obtain ⟨word, more, htokens, hmore, _⟩ := c.comparator.exists_tokens_eq
  rw [tokens, htokens, List.length_cons, List.length_append, List.length_cons,
    List.length_singleton]
  omega

end Comparison

namespace Condition

open PlainCode.Token (skipWord skipWord_optional exists_optional value?)

/-- The words of an operator are read up to the value behind them. -/
private theorem operator?_tokens (k : Comparator) {rest : List Token}
    (h : ∀ t ∈ rest.head?, t.isValue = true) :
    operator? (k.tokens ++ rest) = some (k.operator, rest) := by
  have hskip : ∀ (word : String) (said : Bool),
      skipWord word (Token.optional word said ++ rest) = rest := fun word said =>
    skipWord_optional said fun t ht => Token.isWord_of_isValue (h t ht) word
  cases k with
  | notEqualTo | equalTo => rfl
  | notValue saysTo | notEqual saysTo | value saysTo =>
    exact congrArg (fun ts => some (_, ts)) (hskip "to" saysTo)
  | greater saysThan | less saysThan =>
    exact congrArg (fun ts => some (_, ts)) (hskip "than" saysThan)

/-- What is read as an operator are the words of one. -/
private theorem exists_comparator {ts rest : List Token} {operator : String}
    (h : operator? ts = some (operator, rest)) :
    ∃ k : Comparator, ts = k.tokens ++ rest ∧ operator = k.operator := by
  unfold operator? at h
  split at h
  next => cases h; exact ⟨.notEqualTo, rfl, rfl⟩
  next ts =>
    obtain ⟨saysTo, hto⟩ := exists_optional "to" ts
    cases h
    exact ⟨.notValue saysTo, congrArg (⟨.keyword, "not"⟩ :: ⟨.keyword, "value"⟩ :: ·) hto, rfl⟩
  next ts =>
    obtain ⟨saysTo, hto⟩ := exists_optional "to" ts
    cases h
    exact ⟨.notEqual saysTo, congrArg _ hto, rfl⟩
  next => cases h; exact ⟨.equalTo, rfl, rfl⟩
  next ts =>
    obtain ⟨saysTo, hto⟩ := exists_optional "to" ts
    cases h
    exact ⟨.value saysTo, congrArg _ hto, rfl⟩
  next ts =>
    obtain ⟨saysThan, hthan⟩ := exists_optional "than" ts
    cases h
    exact ⟨.greater saysThan, congrArg _ hthan, rfl⟩
  next ts =>
    obtain ⟨saysThan, hthan⟩ := exists_optional "than" ts
    cases h
    exact ⟨.less saysThan, congrArg _ hthan, rfl⟩
  next => cases h

theorem value?_eq_some_iff {ts rest : List Token} {text : String} :
    value? ts = some (text, rest) ↔ ∃ v : Value, ts = v.1 :: rest ∧ text = v.1.spelling := by
  constructor
  · intro h
    cases ts with
    | nil => cases h
    | cons t ts =>
      rw [value?] at h
      split at h
      next ht => cases h; exact ⟨⟨t, ht⟩, rfl, rfl⟩
      next => cases h
  · rintro ⟨v, rfl, rfl⟩
    rw [value?, if_pos v.2]

/-- Reading finds the comparisons of the grammar, each up to its own end. -/
theorem read?_eq_some_iff {ts rest : List Token} {c : Condition} :
    read? ts = some (c, rest) ↔ ∃ k : Comparison, ts = k.tokens ++ rest ∧ c = k.condition := by
  constructor
  · intro h
    unfold read? at h
    split at h
    next => cases h
    next left ts hleft =>
      split at h
      next => cases h
      next operator ts hoperator =>
        split at h
        next => cases h
        next right ts hright =>
          cases h
          obtain ⟨l, rfl, rfl⟩ := value?_eq_some_iff.mp hleft
          obtain ⟨k, rfl, rfl⟩ := exists_comparator hoperator
          obtain ⟨r, rfl, rfl⟩ := value?_eq_some_iff.mp hright
          exact ⟨⟨l, k, r⟩, (Comparison.tokens_append ⟨l, k, r⟩ _).symm, rfl⟩
  · rintro ⟨⟨l, k, r⟩, rfl, rfl⟩
    have hright : ∀ t ∈ (r.1 :: rest).head?, t.isValue = true := by
      intro t ht
      cases ht
      exact r.2
    rw [Comparison.tokens_append, read?, value?_eq_some_iff.mpr ⟨l, rfl, rfl⟩]
    dsimp only
    rw [operator?_tokens k hright]
    dsimp only
    rw [value?_eq_some_iff.mpr ⟨r, rfl, rfl⟩]
    rfl

/-- No comparison is the beginning of a longer one. -/
theorem rest_eq_of_tokens_append {k l : Comparison} {rest more : List Token}
    (h : k.tokens ++ rest = l.tokens ++ more) : rest = more := by
  have hk : read? (k.tokens ++ rest) = some (k.condition, rest) :=
    read?_eq_some_iff.mpr ⟨k, rfl, rfl⟩
  have hl : read? (l.tokens ++ more) = some (l.condition, more) :=
    read?_eq_some_iff.mpr ⟨l, rfl, rfl⟩
  rw [h, hl, Option.some.injEq, Prod.mk.injEq] at hk
  exact hk.2.symm

/-! ## Comparisons at a position -/

/-- The tokens from one position up to another. -/
def stretch (ts : List Token) (start : Int) (stop : Nat) : List Token :=
  (ts.take stop).drop start.toNat

/-- Tokens between two positions are a comparison exactly if it stands in front of the rest, and
the rest begins at the second position. -/
theorem stretch_eq_tokens_iff {ts : List Token} {start : Int} {j : Nat} {k : Comparison} :
    (j ≤ ts.length ∧ stretch ts start j = k.tokens) ↔
      ∃ rest, ts.drop start.toNat = k.tokens ++ rest ∧ j + rest.length = ts.length := by
  have hk := k.length_tokens.1
  rw [stretch, List.drop_take]
  constructor
  · rintro ⟨hj, hwords⟩
    have hwidth := congrArg List.length hwords
    rw [List.length_take, List.length_drop] at hwidth
    refine ⟨(ts.drop start.toNat).drop (j - start.toNat), ?_, ?_⟩
    · rw [← hwords, List.take_append_drop]
    · rw [List.length_drop, List.length_drop]
      omega
  · rintro ⟨rest, hdrop, hrest⟩
    have hwidth := congrArg List.length hdrop
    rw [List.length_drop, List.length_append] at hwidth
    have hstop : j - start.toNat = k.tokens.length := by omega
    exact ⟨by omega, by rw [hdrop, hstop, List.take_left]⟩

/-- Reading at a position finds the comparison that begins there, and the position behind it. -/
theorem at?_eq_some_iff {ts : List Token} {start : Int} {c : Condition} {j : Nat} :
    at? ts start = some (c, j) ↔ 0 ≤ start ∧ j ≤ ts.length ∧
      ∃ k : Comparison, stretch ts start j = k.tokens ∧ c = k.condition := by
  unfold at?
  split
  next hneg => exact ⟨nofun, fun h => absurd h.1 (by omega)⟩
  next hstart =>
    rw [Option.map_eq_some_iff]
    constructor
    · rintro ⟨⟨d, rest⟩, hread, hpair⟩
      cases hpair
      obtain ⟨k, hdrop, rfl⟩ := read?_eq_some_iff.mp hread
      have hwidth := congrArg List.length hdrop
      rw [List.length_drop, List.length_append] at hwidth
      have hk := k.length_tokens.1
      obtain ⟨hj, hwords⟩ := stretch_eq_tokens_iff.mpr
        ⟨rest, hdrop, show ts.length - rest.length + rest.length = ts.length by omega⟩
      exact ⟨by omega, hj, k, hwords, rfl⟩
    · rintro ⟨_, hj, k, hwords, rfl⟩
      obtain ⟨rest, hdrop, hrest⟩ := stretch_eq_tokens_iff.mp ⟨hj, hwords⟩
      refine ⟨(k.condition, rest), read?_eq_some_iff.mpr ⟨k, hdrop, rfl⟩, ?_⟩
      exact congrArg (k.condition, ·) (show ts.length - rest.length = j by omega)

/-- **Comparisons are found where they stand.** At a position of any tokens a comparison is found
exactly if the tokens from there up to a second position are a sentence of the grammar, and what is
found is what that sentence says, with the second position. There is at most one such position, and
it is three to five tokens away. The sides are what the first and the last token of the sentence
spell, and the operator goes by the word behind the first. -/
theorem comparison_at_position (ts : List Token) (start : Int) :
    (∀ c j, at? ts start = some (c, j) ↔ 0 ≤ start ∧ j ≤ ts.length ∧
      ∃ k : Comparison, stretch ts start j = k.tokens ∧ c = k.condition) ∧
    (∀ i j, i ≤ ts.length → j ≤ ts.length → (∃ k : Comparison, stretch ts start i = k.tokens) →
      (∃ k : Comparison, stretch ts start j = k.tokens) → i = j) ∧
    (∀ c j, at? ts start = some (c, j) → start + 3 ≤ j ∧ j ≤ start + 5 ∧
      c.left = (stretch ts start j).head?.map Token.spelling ∧
      c.right = (stretch ts start j).getLast?.map Token.spelling ∧
      ∃ word operator, (stretch ts start j)[1]? = some ⟨.keyword, word⟩ ∧
        (word, operator) ∈ Comparator.leadWords ∧ c.operator = some operator) := by
  refine ⟨fun c j => at?_eq_some_iff, ?_, ?_⟩
  · rintro i j hi hj ⟨k, hk⟩ ⟨l, hl⟩
    obtain ⟨rest, hdrop, hrest⟩ := stretch_eq_tokens_iff.mp ⟨hi, hk⟩
    obtain ⟨more, hdrop', hmore⟩ := stretch_eq_tokens_iff.mp ⟨hj, hl⟩
    rw [hdrop] at hdrop'
    rw [rest_eq_of_tokens_append hdrop'] at hrest
    omega
  · intro c j h
    obtain ⟨hstart, hj, k, hk, rfl⟩ := at?_eq_some_iff.mp h
    obtain ⟨rest, hdrop, hrest⟩ := stretch_eq_tokens_iff.mp ⟨hj, hk⟩
    have hwidth := congrArg List.length hdrop
    rw [List.length_drop, List.length_append] at hwidth
    have hlength := k.length_tokens
    obtain ⟨word, more, hwords, _, hlead⟩ := k.comparator.exists_tokens_eq
    refine ⟨by omega, by omega, ?_, ?_, word, k.comparator.operator, ?_, hlead, rfl⟩
    · rw [hk]
      rfl
    · rw [hk, Comparison.tokens, ← List.cons_append, List.getLast?_concat]
      rfl
    · rw [hk, Comparison.tokens, hwords]
      rfl

/-- A negated comparison with both of its words that may be left out, in the middle of a loop: it
ends in front of `do` and nowhere else. -/
theorem comparison_at_position_negated :
    let ts : List Token := [⟨.keyword, "while"⟩, ⟨.identifier, "x"⟩, ⟨.keyword, "not"⟩,
      ⟨.keyword, "value"⟩, ⟨.keyword, "to"⟩, ⟨.string, "a b"⟩, ⟨.keyword, "do"⟩]
    at? ts 1 = some (⟨some "x", some "not_equal", some "\"a b\""⟩, 6) ∧
      ∀ j ≤ ts.length, (∃ k : Comparison, stretch ts 1 j = k.tokens) → j = 6 := by
  intro ts
  obtain ⟨hfound, hunique, _⟩ := comparison_at_position ts 1
  have hread : at? ts 1 = some (⟨some "x", some "not_equal", some "\"a b\""⟩, 6) := by decide
  obtain ⟨_, hsix, k, hk, _⟩ := (hfound _ _).mp hread
  exact ⟨hread, fun j hj hwords => hunique j 6 hj hsix hwords ⟨k, hk⟩⟩

end Condition

end PlainCode
