import PlainCode.Command.Basic
import PlainCode.Token.Reading

/-!
# Comparisons in commands

A comparison is a value, the words of an operator, and a value. Each operator has its own words,
and some of them may be left out:

    not equal_to, not value [to], not_equal [to]    the two differ
    equal_to, value [to]                            the two are equal
    greater [than], less [than]                     the first is greater, or less
-/

namespace PlainCode.Condition

open PlainCode.Token (skipWord value?)

/-- The operator whose words stand in front, and the tokens behind them. -/
def operator? : List Token → Option (String × List Token)
  | ⟨.keyword, "not"⟩ :: ⟨.keyword, "equal_to"⟩ :: ts => some ("not_equal", ts)
  | ⟨.keyword, "not"⟩ :: ⟨.keyword, "value"⟩ :: ts => some ("not_equal", skipWord "to" ts)
  | ⟨.keyword, "not_equal"⟩ :: ts => some ("not_equal", skipWord "to" ts)
  | ⟨.keyword, "equal_to"⟩ :: ts => some ("equal", ts)
  | ⟨.keyword, "value"⟩ :: ts => some ("equal", skipWord "to" ts)
  | ⟨.keyword, "greater"⟩ :: ts => some ("greater", skipWord "than" ts)
  | ⟨.keyword, "less"⟩ :: ts => some ("less", skipWord "than" ts)
  | _ => none

/-- The comparison in front, and the tokens behind it. -/
def read? (ts : List Token) : Option (Condition × List Token) :=
  match value? ts with
  | none => none
  | some (left, ts) =>
    match operator? ts with
    | none => none
    | some (operator, ts) =>
      match value? ts with
      | none => none
      | some (right, ts) => some (⟨some left, some operator, some right⟩, ts)

/-- The comparison that begins at a position among tokens, and the position behind it. There is
none at a position before the first token. -/
def at? (ts : List Token) (start : Int) : Option (Condition × Nat) :=
  if start < 0 then none
  else (read? (ts.drop start.toNat)).map fun (c, rest) => (c, ts.length - rest.length)

end PlainCode.Condition
