import Mathlib.Data.List.DropRight
import Mathlib.Data.List.TakeWhile
import PlainCode.Grammar.Rule
import PlainCode.Proofs.Comparisons

/-!
# Scans

Two rules scan their tokens up to a word, pass over whatever they do not know, and set again what
they have set before. What such a scan finds can be said without it, from the tokens in front of the
word (`Token.before`) and behind it (`Token.behind`). A scan over the clauses of a loop succeeds
exactly if every `from`, `to` and `by` has a value behind it, and then the last of each word counts
(`clauses?_eq_some_iff`). A scan over the operands of a calculation finds the value behind the last
`and` that has one, or else the first value (`operands_eq`).

Both are equations for the recursion of the scan, in which what was set before the scan is a
variable.
-/

namespace PlainCode

namespace Token

/-! ## Keywords -/

theorem isOneOf_iff {words : List String} {t : Token} :
    t.isOneOf words = true ↔ t.kind = .keyword ∧ t.value ∈ words := by
  rw [isOneOf, Bool.and_eq_true, beq_iff_eq, List.contains_iff_mem]

theorem isWord_of_isOneOf {words : List String} {word : String} {t : Token}
    (h : t.isOneOf words = true) (hword : words.contains word = false) :
    t.isWord word = false := by
  rw [Bool.eq_false_iff]
  intro ht
  rw [eq_keyword_of_isWord ht, isOneOf] at h
  exact absurd h (by simpa using hword)

private theorem isOneOf_of_isWord {words : List String} {word : String} {t : Token}
    (h : t.isWord word = true) (hword : words.contains word = false) :
    t.isOneOf words = false := by
  rw [Bool.eq_false_iff]
  intro ht
  exact absurd h (by rw [isWord_of_isOneOf ht hword]; decide)

theorem isName_of_isOneOf {words : List String} {t : Token} (h : t.isOneOf words = true) :
    t.isName = false := by
  obtain ⟨kind, value⟩ := t
  cases kind with
  | identifier => cases h
  | _ => rfl

/-! ## Tokens around a word -/

section

variable {stop : Token → Bool} {t : Token}

/-- The tokens in front of the first one of a kind. -/
def before (stop : Token → Bool) (ts : List Token) : List Token := ts.takeWhile fun t => !stop t

/-- The tokens from the first one of a kind on. -/
def onward (stop : Token → Bool) (ts : List Token) : List Token := ts.dropWhile fun t => !stop t

/-- The tokens behind the first one of a kind. -/
def behind (stop : Token → Bool) (ts : List Token) : List Token := (onward stop ts).drop 1

theorem before_stop (h : stop t = true) (ts : List Token) : before stop (t :: ts) = [] :=
  List.takeWhile_cons_of_neg (by rw [h]; decide)

theorem onward_stop (h : stop t = true) (ts : List Token) : onward stop (t :: ts) = t :: ts :=
  List.dropWhile_cons_of_neg (by rw [h]; decide)

theorem behind_stop (h : stop t = true) (ts : List Token) : behind stop (t :: ts) = ts := by
  rw [behind, onward_stop h]
  rfl

theorem before_cons (h : stop t = false) (ts : List Token) :
    before stop (t :: ts) = t :: before stop ts :=
  List.takeWhile_cons_of_pos (by rw [h]; rfl)

theorem onward_cons (h : stop t = false) (ts : List Token) :
    onward stop (t :: ts) = onward stop ts :=
  List.dropWhile_cons_of_pos (by rw [h]; rfl)

theorem behind_cons (h : stop t = false) (ts : List Token) :
    behind stop (t :: ts) = behind stop ts :=
  congrArg (List.drop 1) (onward_cons h ts)

theorem not_of_mem_before {ts : List Token} (h : t ∈ before stop ts) : stop t = false := by
  rw [before] at h
  simpa using List.mem_takeWhile_imp h

/-- The tokens from the first one of a kind on are that token and those behind it. -/
theorem mem_onward {ts : List Token} (h : t ∈ onward stop ts) :
    stop t = true ∨ t ∈ behind stop ts := by
  induction ts with
  | nil => cases h
  | cons u ts ih =>
    cases hu : stop u with
    | true =>
      rw [onward_stop hu, List.mem_cons] at h
      rw [behind_stop hu]
      rcases h with rfl | h
      · exact Or.inl hu
      · exact Or.inr h
    | false =>
      rw [onward_cons hu] at h
      rw [behind_cons hu]
      exact ih h

/-- From the first token of a kind on, none stands in front of it. -/
private theorem before_onward (ts : List Token) : before stop (onward stop ts) = [] := by
  induction ts with
  | nil => rfl
  | cons t ts ih =>
    cases ht : stop t with
    | true => rw [onward_stop ht, before_stop ht]
    | false => rw [onward_cons ht, ih]

/-- What stands in front of the first token of a kind may be put in another's place. -/
theorem before_append_onward {front : List Token} (h : ∀ t ∈ front, stop t = false)
    (ts : List Token) : before stop (front ++ onward stop ts) = front := by
  induction front with
  | nil => exact before_onward ts
  | cons t front ih =>
    rw [List.forall_mem_cons] at h
    rw [List.cons_append, before_cons h.1, ih h.2]

theorem behind_append_onward {front : List Token} (h : ∀ t ∈ front, stop t = false)
    (ts : List Token) : behind stop (front ++ onward stop ts) = behind stop ts := by
  induction front with
  | nil => exact congrArg (List.drop 1) (List.dropWhile_idempotent _ ts)
  | cons t front ih =>
    rw [List.forall_mem_cons] at h
    rw [List.cons_append, behind_cons h.1, ih h.2]

/-- What stands first in front of the word stands first. -/
theorem any_head?_before {p : Token → Bool} {ts : List Token}
    (h : (before stop ts).head?.any p = true) : ts.head?.any p = true := by
  cases ts with
  | nil => exact h
  | cons t ts =>
    cases ht : stop t with
    | true =>
      rw [before_stop ht] at h
      cases h
    | false => rwa [before_cons ht] at h

end

/-! ## Values behind a word -/

/-- The values that stand right behind a keyword, in order. -/
def valuesBehind (word : String) : List Token → List String
  | [] => []
  | t :: ts =>
    (if t.isWord word then ((value? ts).map (·.1)).toList else []) ++ valuesBehind word ts

theorem valuesBehind_cons_of_not {word : String} {t : Token} {ts : List Token}
    (h : t.isWord word = true → ts.head?.any isValue = false) :
    valuesBehind word (t :: ts) = valuesBehind word ts := by
  rw [valuesBehind]
  split
  next hword =>
    cases ts with
    | nil => rfl
    | cons u ts =>
      have hu : u.isValue = false := h hword
      rw [value?, hu]
      rfl
  next => rfl

/-- A value is passed over together with the token in front of it. -/
theorem valuesBehind_pair (word : String) (t : Token) {v : Token} (hv : v.isValue = true)
    (ts : List Token) : valuesBehind word (t :: v :: ts)
      = (if t.isWord word then [v.spelling] else []) ++ valuesBehind word ts := by
  have hrest : valuesBehind word (v :: ts) = valuesBehind word ts := by
    apply valuesBehind_cons_of_not
    intro hword
    rw [isWord_of_isValue hv] at hword
    cases hword
  rw [valuesBehind, hrest, value?, if_pos hv]
  rfl

/-- What stands behind a keyword stands among the tokens. -/
theorem exists_value_of_mem {word : String} {ts : List Token} {value : String}
    (h : value ∈ valuesBehind word ts) : ∃ t ∈ ts, t.isValue = true := by
  induction ts with
  | nil => cases h
  | cons t ts ih =>
    rw [valuesBehind, List.mem_append] at h
    rcases h with h | h
    · cases ts with
      | nil => split at h <;> cases h
      | cons v ts =>
        cases hv : v.isValue with
        | true => exact ⟨v, by simp, hv⟩
        | false =>
          rw [value?, hv] at h
          split at h <;> cases h
    · obtain ⟨u, hu, hvalue⟩ := ih h
      exact ⟨u, List.mem_cons_of_mem t hu, hvalue⟩

end Token

namespace Rule

open PlainCode.Token (before before_cons before_stop behind behind_cons behind_stop valuesBehind
  valuesBehind_cons_of_not valuesBehind_pair)

/-! ## Clauses of a loop -/

/-- Every word that begins a clause has a value right behind it. -/
def Complete (ts : List Token) : Prop :=
  ∀ i : Nat, ts[i]?.any (Token.isOneOf clauseWords) = true → ts[i + 1]?.any Token.isValue = true

theorem complete_nil : Complete [] := fun _ h => h

theorem complete_cons {t : Token} {ts : List Token} : Complete (t :: ts) ↔
    (t.isOneOf clauseWords = true → ts.head?.any Token.isValue = true) ∧ Complete ts := by
  rw [List.head?_eq_getElem?]
  constructor
  · exact fun h => ⟨h 0, fun i => h (i + 1)⟩
  · rintro ⟨hhead, hrest⟩ i
    cases i with
    | zero => exact hhead
    | succ i => exact hrest i

theorem complete_pair (t : Token) {v : Token} (hv : v.isValue = true) {ts : List Token} :
    Complete (t :: v :: ts) ↔ Complete ts := by
  rw [complete_cons, complete_cons, Token.isOneOf_of_isValue hv]
  exact ⟨fun h => h.2.2, fun h => ⟨fun _ => hv, nofun, h⟩⟩

/-- The bounds of a loop after its clauses: of each word the last one counts, and what was set
before stays if there is none. -/
def lastBounds (b : Bounds) (ts : List Token) : Bounds where
  start := (valuesBehind "from" ts).getLast?.or b.start
  stop := (valuesBehind "to" ts).getLast?.or b.stop
  step := (valuesBehind "by" ts).getLast?.or b.step

private theorem lastBounds_pair (b : Bounds) {t v : Token} (ht : t.isOneOf clauseWords = true)
    (hv : v.isValue = true) (ts : List Token) :
    lastBounds b (t :: v :: ts) = lastBounds (b.set t.value v.spelling) ts := by
  obtain ⟨kind, word⟩ := t
  obtain ⟨rfl, hword⟩ := Token.isOneOf_iff.mp ht
  simp only [clauseWords, List.mem_cons, List.not_mem_nil, or_false] at hword
  simp only [lastBounds, valuesBehind_pair _ _ hv, List.getLast?_append, Option.or_assoc]
  -- each word sets its own bound and leaves the other two
  rcases hword with rfl | rfl | rfl
  · rfl
  · rfl
  · rfl

private theorem lastBounds_cons (b : Bounds) {t : Token} (ht : t.isOneOf clauseWords = false)
    (ts : List Token) : lastBounds b (t :: ts) = lastBounds b ts := by
  have hnot : ∀ word, clauseWords.contains word = true →
      valuesBehind word (t :: ts) = valuesBehind word ts := by
    intro word hword
    apply valuesBehind_cons_of_not
    intro ht'
    rw [Token.eq_keyword_of_isWord ht', Token.isOneOf, hword] at ht
    cases ht
  rw [lastBounds, hnot "from" rfl, hnot "to" rfl, hnot "by" rfl]
  rfl

/-- Clauses are read exactly if they are complete, and then the last of each word counts. -/
theorem clauses?_eq_some_iff {b bounds : Bounds} {ts body : List Token} :
    clauses? b ts = some (bounds, body) ↔ Complete (before (Token.isWord "do") ts) ∧
      bounds = lastBounds b (before (Token.isWord "do") ts) ∧
      body = behind (Token.isWord "do") ts := by
  have hend : ∀ {c : Bounds} {rest : List Token}, some (c, rest) = some (bounds, body) ↔
      Complete [] ∧ bounds = lastBounds c [] ∧ body = rest := by
    intro c rest
    rw [Option.some.injEq, Prod.mk.injEq, and_iff_right complete_nil]
    exact and_congr eq_comm eq_comm
  fun_induction clauses? b ts with
  | case1 b => exact hend
  | case2 b t ht =>
    -- nothing stands behind the word
    rw [before_cons (Token.isWord_of_isOneOf ht rfl), complete_cons]
    exact ⟨nofun, fun h => absurd (h.1.1 ht) Bool.false_ne_true⟩
  | case3 b t ht v vs hv ih =>
    have hdo : t.isWord "do" = false := Token.isWord_of_isOneOf ht rfl
    have hdo' : v.isWord "do" = false := Token.isWord_of_isValue hv "do"
    rw [before_cons hdo, before_cons hdo', behind_cons hdo, behind_cons hdo', complete_pair t hv,
      lastBounds_pair b ht hv]
    exact ih
  | case4 b t ht v vs hv =>
    -- no value stands behind the word
    rw [before_cons (Token.isWord_of_isOneOf ht rfl), complete_cons]
    exact ⟨nofun, fun h => absurd (Token.any_head?_before (h.1.1 ht)) hv⟩
  | case5 b t ts _ hdo =>
    rw [before_stop hdo, behind_stop hdo]
    exact hend
  | case6 b t ts ht hdo ih =>
    rw [Bool.not_eq_true] at ht hdo
    rw [before_cons hdo, behind_cons hdo, complete_cons, lastBounds_cons b ht, ht]
    exact ih.trans (and_congr_left fun _ => (and_iff_right nofun).symm)

/-- In complete tokens a keyword that begins clauses has a value behind it exactly if it occurs. -/
theorem exists_getLast?_iff {ts : List Token} (h : Complete ts) {word : String}
    (hword : clauseWords.contains word = true) :
    (∃ value, (valuesBehind word ts).getLast? = some value) ↔ ∃ t ∈ ts, t.isWord word = true := by
  rw [← Option.isSome_iff_exists, List.getLast?_isSome]
  induction ts with
  | nil => exact ⟨fun hne => absurd rfl hne, fun ⟨_, hmem, _⟩ => nomatch hmem⟩
  | cons t ts ih =>
    obtain ⟨hhead, hrest⟩ := complete_cons.mp h
    rw [List.exists_mem_cons_iff]
    cases ht : t.isWord word with
    | true =>
      have hvalue : ts.head?.any Token.isValue = true := by
        apply hhead
        rw [Token.eq_keyword_of_isWord ht, Token.isOneOf, hword]
        rfl
      cases ts with
      | nil => cases hvalue
      | cons v ts =>
        rw [valuesBehind_pair word t hvalue, if_pos ht]
        exact ⟨fun _ => Or.inl rfl, fun _ => List.cons_ne_nil _ _⟩
    | false =>
      rw [valuesBehind_cons_of_not fun h => absurd (ht.symm.trans h) Bool.false_ne_true, ih hrest]
      exact ⟨Or.inr, fun h => h.resolve_left Bool.false_ne_true⟩

/-! ## Operands of a calculation -/

/-- The last value behind an `and` counts, then what was set before, then the first value. -/
theorem operands_eq (right : Option String) (ts : List Token) :
    operands right ts =
      ((valuesBehind "and" (before (Token.isOneOf ["store", "in"]) ts)).getLast?.or (right.or
          (((before (Token.isOneOf ["store", "in"]) ts).find? Token.isValue).map Token.spelling)),
        firstName? (behind (Token.isOneOf ["store", "in"]) ts)) := by
  fun_induction operands right ts with
  | case1 right => exact congrArg (·, none) (Option.or_none).symm
  | case2 right t hand => cases hand.2
  | case3 right t v vs hand ih =>
    obtain ⟨ht, hv⟩ := hand
    have hv : v.isValue = true := hv
    have hstop : t.isOneOf ["store", "in"] = false := Token.isOneOf_of_isWord ht rfl
    have hstop' := Token.isOneOf_of_isValue hv ["store", "in"]
    rw [ih, before_cons hstop, before_cons hstop', behind_cons hstop, behind_cons hstop',
      valuesBehind_pair "and" t hv, if_pos ht, List.getLast?_append, Option.or_assoc]
    rfl
  | case4 right t ts _ hstop =>
    rw [before_stop hstop, behind_stop hstop]
    exact congrArg (·, firstName? ts) (Option.or_none).symm
  | case5 right t ts hand hstop hvalue ih =>
    obtain ⟨hright, hv⟩ := Bool.and_eq_true_iff.mp hvalue
    have hnot : t.isWord "and" = true →
        (before (Token.isOneOf ["store", "in"]) ts).head?.any Token.isValue = false := by
      rw [Token.isWord_of_isValue hv "and"]
      exact nofun
    rw [Bool.not_eq_true] at hstop
    rw [ih, before_cons hstop, behind_cons hstop, valuesBehind_cons_of_not hnot,
      List.find?_cons_of_pos hv, Option.isNone_iff_eq_none.mp hright]
    rfl
  | case6 right t ts hand hstop hvalue ih =>
    rw [Bool.not_eq_true] at hstop
    have hnone : t.isWord "and" = true →
        (before (Token.isOneOf ["store", "in"]) ts).head?.any Token.isValue = false := by
      intro ht
      rw [Bool.eq_false_iff]
      exact fun hhead => hand ⟨ht, Token.any_head?_before hhead⟩
    rw [ih, before_cons hstop, behind_cons hstop, valuesBehind_cons_of_not hnone]
    cases right with
    | some value => rfl
    | none =>
      have hv : ¬ t.isValue = true := hvalue
      rw [List.find?_cons_of_neg hv]

end Rule

end PlainCode
