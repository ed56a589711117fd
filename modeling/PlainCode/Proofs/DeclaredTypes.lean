import PlainCode.Proofs.Fields
import PlainCode.Proofs.Hoisting
import PlainCode.Proofs.Tokens
import PlainCode.Proofs.Trees

/-!
# Declared types

The languages with declarations want the type of a new variable and of the elements of a new list.
By the time code is written there are no tokens any more, only the texts that commands hold, and the
type is told from those. It is the type that the token has: `kindOf_spelling` is that a word which
was put into a class, and spelled in the form it has in commands, is found to be of that class
again, whatever stands between its quotes.

That carries over to everything that is read, because a command without slots holds what its rule
read from tokens that stand together (`exists_reads_of_parse`), and the values of such a command are
the values among those tokens (`value_of_create`, `values_of_createList`). What the types are called
is said token by token in `VariableTypes`, and for lists in `ElementTypes`. The main statement is
`declared_types`.
-/

namespace PlainCode

namespace Literal

/-! ## Kinds of texts -/

theorem mem_dropNewline {c : Char} (hc : c ≠ '\n') {cs : List Char} :
    c ∈ dropNewline cs ↔ c ∈ cs := by
  rw [dropNewline]
  split
  next hlast =>
    obtain ⟨front, rfl⟩ := List.getLast?_eq_some_iff.mp hlast
    rw [List.dropLast_concat, List.mem_append, List.mem_singleton]
    exact ⟨Or.inl, fun h => h.resolve_right hc⟩
  next => rfl

theorem mem_sign {c : Char} (hc : c ≠ '-') {cs : List Char} : c ∈ (sign cs).2 ↔ c ∈ cs := by
  cases cs with
  | nil => rfl
  | cons d cs =>
    rw [sign]
    split
    next hd =>
      rw [List.mem_cons]
      exact ⟨Or.inr, fun h => h.resolve_left (hd ▸ hc)⟩
    next => rfl

/-- A whole number has no point. -/
private theorem point_not_mem_of_isInteger {cs : List Char} (h : isInteger cs = true) :
    '.' ∉ cs := by
  rw [isInteger, allDigits, Bool.and_eq_true, List.all_eq_true] at h
  intro hmem
  have hpoint := h.2 '.' ((mem_sign (by decide)).mpr ((mem_dropNewline (by decide)).mpr hmem))
  exact absurd hpoint (by decide)

private theorem point_mem_of_isDecimal {cs : List Char} (h : isDecimal cs = true) : '.' ∈ cs := by
  rw [isDecimal] at h
  split at h
  next => cases h
  next c part hdrop =>
    rw [Bool.and_eq_true, Bool.and_eq_true, beq_iff_eq] at h
    have hmem : c ∈ (sign (dropNewline cs)).2 :=
      (List.dropWhile_suffix _).subset (hdrop ▸ List.mem_cons_self ..)
    rw [h.1.1] at hmem
    exact (mem_dropNewline (by decide)).mp ((mem_sign (by decide)).mp hmem)

/-- A text of some sort that the truth values are not of is no truth value. -/
theorem isTruth_eq_false {p : List Char → Bool} (hwords : p "true".toList = false ∧
    p "false".toList = false) {s : String} (h : p s.toList = true) : isTruth s = false := by
  rw [isTruth, Bool.or_eq_false_iff, beq_eq_false_iff_ne, beq_eq_false_iff_ne]
  constructor
  · rintro rfl
    exact absurd (hwords.1.symm.trans h) Bool.false_ne_true
  · rintro rfl
    exact absurd (hwords.2.symm.trans h) Bool.false_ne_true

/-- A text in double quotes is a text, whatever stands between them. -/
private theorem kindOf_inQuotes (text : String) :
    kindOf (some ("\"" ++ text ++ "\"")) = .string := by
  have hquoted : isQuoted ("\"" ++ text ++ "\"").toList = true := by
    rw [String.toList_append, String.toList_append]
    exact isQuoted_between text.toList
  rw [kindOf, isTruth_eq_false (by decide) hquoted, hquoted]
  rfl

private theorem kindOf_of_isNumber {s : String} (hquoted : isQuoted s.toList = false)
    (h : isNumber s.toList = true) :
    kindOf (some s) = if '.' ∈ s.toList then .double else .int := by
  rw [kindOf, isTruth_eq_false (by decide) h, hquoted]
  cases hinteger : isInteger s.toList with
  | true =>
    rw [if_neg (point_not_mem_of_isInteger hinteger)]
    rfl
  | false =>
    rw [isNumber, hinteger, Bool.false_or] at h
    rw [h, if_pos (point_mem_of_isDecimal h)]
    rfl

private theorem kindOf_of_plain {s : String} (hquoted : isQuoted s.toList = false)
    (hnumber : isNumber s.toList = false) :
    kindOf (some s) = if isTruth s then .bool else .auto := by
  rw [isNumber, Bool.or_eq_false_iff] at hnumber
  rw [kindOf, hquoted, hnumber.1, hnumber.2]
  rfl

/-- Only truth values are written in another form than commands hold them in. -/
private theorem isTruth_of_value_ne {t : Target} {s : String} (h : t.value (some s) ≠ s) :
    isTruth s = true := by
  rw [Target.value] at h
  split at h
  next htrue => rw [htrue]; rfl
  next =>
    split at h
    next hfalse => rw [hfalse]; rfl
    next => exact absurd rfl h

end Literal

namespace Token

open PlainCode.Literal (Kind kindOf isQuoted isNumber isTruth)

/-! ## Classes of tokens -/

/-- The kind of value that a token is by its class. A name is of no kind. -/
def literalKind (t : Token) : Kind :=
  match t.kind with
  | .string => .string
  | .number => if '.' ∈ t.value.toList then .double else .int
  | .boolean => .bool
  | .identifier | .keyword | .unknown => .auto

/-- A word that is not quoted is classified as it stands. -/
private theorem ofWord_plain {s : String} (hquoted : isQuoted s.toList = false) :
    ofWord s.toList = if isNumber s.toList then ⟨.number, s⟩ else if isTruth s then ⟨.boolean, s⟩
      else if Vocabulary.isKeyword s then ⟨.keyword, s⟩
      else if isNameText s.toList then ⟨.identifier, s⟩ else ⟨.unknown, s⟩ := by
  rw [ofWord, String.ofList_toList, if_neg (by rw [hquoted]; exact Bool.false_ne_true)]

/-- The class that a word was put into is told from its spelling again. -/
theorem kindOf_spelling (word : List Char) (h : (ofWord word).isValue = true) :
    kindOf (some (ofWord word).spelling) = (ofWord word).literalKind := by
  obtain ⟨s, rfl⟩ : ∃ s : String, s.toList = word := ⟨String.ofList word, String.toList_ofList⟩
  by_cases hquoted : isQuoted s.toList = true
  · rw [ofWord, if_pos hquoted]
    exact Literal.kindOf_inQuotes _
  rw [Bool.not_eq_true] at hquoted
  rw [ofWord_plain hquoted] at h ⊢
  by_cases hnumber : isNumber s.toList = true
  · rw [if_pos hnumber]
    exact Literal.kindOf_of_isNumber hquoted hnumber
  have hkind := Literal.kindOf_of_plain hquoted (Bool.eq_false_iff.mpr hnumber)
  rw [if_neg hnumber] at h ⊢
  by_cases htruth : isTruth s = true
  · rw [if_pos htruth] at hkind ⊢
    exact hkind
  rw [if_neg htruth] at hkind h ⊢
  -- a keyword and a word of no class are no values, so the word is a name
  by_cases hword : Vocabulary.isKeyword s = true
  · rw [if_pos hword] at h
    cases h
  rw [if_neg hword] at h ⊢
  by_cases hname : isNameText s.toList = true
  · rw [if_pos hname]
    exact hkind
  · rw [if_neg hname] at h
    cases h

/-- Only a truth value is written in another form than its spelling. -/
private theorem kind_of_value_ne (word : List Char) (h : (ofWord word).isValue = true) {t : Target}
    (hne : t.value (some (ofWord word).spelling) ≠ (ofWord word).spelling) :
    (ofWord word).kind = .boolean := by
  have hkind := kindOf_spelling word h
  rw [kindOf, if_pos (Literal.isTruth_of_value_ne hne), literalKind] at hkind
  split at hkind
  next => cases hkind
  next =>
    split at hkind
    next => cases hkind
    next => cases hkind
  next hboolean => exact hboolean
  all_goals cases hkind

/-! ## Values behind a name -/

/-- The values among the tokens of a new variable or list, but the first one, which is its name. -/
def behindName (ts : List Token) : List Token := (ts.filter isValue).drop 1

theorem mem_of_mem_behindName {ts : List Token} {t : Token} (h : t ∈ behindName ts) :
    t ∈ ts ∧ t.isValue = true := List.mem_filter.mp (List.mem_of_mem_drop h)

end Token

/-! ## Commands and their tokens -/

namespace Command

/-- Only what has slots can be filled. -/
private theorem fill_of_slots_eq_nil {c child : Command} {slot : Slot}
    (h : (c.fill slot child).slots = []) : c.fill slot child = c := by
  unfold fill at h ⊢
  split
  all_goals first | rfl | cases h

end Command

private theorem Rule.Reads.spans_eq_nil {rule : Rule} {ts : List Token} {m : Match}
    (h : rule.Reads ts m) (hslots : m.command.slots = []) : m.spans = [] := by
  cases h with
  | define | repeatFor | repeatWhile | branch => cases hslots
  | _ => rfl

/-- A command without slots, at every depth, is what a rule reads from tokens that stand
together. -/
theorem exists_reads_of_parse {rules : List Rule} {ts : List Token} {p : Parsed}
    (h : parse rules ts = .ok p) : ∀ c ∈ p.command.preorder, c.slots = [] →
      ∃ span, span <:+: ts ∧ ∃ rule ∈ rules, rule.Reads span ⟨c, []⟩ := by
  refine parse_rec (motive := fun ts p => ∀ c ∈ p.command.preorder, c.slots = [] →
    ∃ span, span <:+: ts ∧ ∃ rule ∈ rules, rule.Reads span ⟨c, []⟩) ?_ h
  intro ts rule m hrule hread ih
  refine Parsed.fillSlots_induction (P := fun c => ∀ n ∈ c.preorder, n.slots = [] →
    ∃ span, span <:+: ts ∧ ∃ rule ∈ rules, rule.Reads span ⟨n, []⟩)
    (fun c slot child => Command.forall_preorder_fill ?_) m.spans m.command ?_ ?_
  · intro c slot child hc hslots
    have hfill := Command.fill_of_slots_eq_nil hslots
    rw [hfill] at hslots ⊢
    exact hc hslots
  · -- the tokens for a slot stand together among those of the command
    intro s hs q hq n hn hslots
    obtain ⟨span, hspan, hreads⟩ := ih s hs q hq n hn hslots
    exact ⟨span, hspan.trans (hread.span_lt hs).2, hreads⟩
  · rw [Command.preorder_of_fresh hread.fresh, List.forall_mem_singleton]
    intro hslots
    have hspans := hread.spans_eq_nil hslots
    obtain ⟨command, spans⟩ := m
    cases hspans
    exact ⟨ts, List.infix_refl ts, rule, hrule, hread⟩

namespace Rule

open PlainCode.Token (behindName skipWord)

/-- The first value of a variable is the first one behind its name. -/
theorem value_of_create {ts : List Token} {name value : Leaf} {rule : Rule}
    (h : rule.Reads ts ⟨.create name value, []⟩) :
    rule = .create ∧ value = (behindName ts).head?.map Token.spelling := by
  have hbehind : ∀ {ts rest name}, skipWord "variable" ts = ⟨.identifier, name⟩ :: rest →
      behindName (⟨.keyword, "create"⟩ :: ts)
        = (skipWord "to" (skipWord "value" rest)).filter Token.isValue := by
    intro ts rest name hts
    rw [filter_isValue_skipWord, filter_isValue_skipWord]
    show (ts.filter Token.isValue).drop 1 = rest.filter Token.isValue
    rw [← filter_isValue_skipWord "variable" ts, hts]
    rfl
  cases h with
  | createEmpty hts hend =>
    rw [hbehind hts, hend]
    exact ⟨rfl, rfl⟩
  | create v hts hv =>
    rw [hbehind hts, hv, List.filter_cons_of_pos v.2]
    exact ⟨rfl, rfl⟩

/-- The values of a list are all those behind its name. -/
theorem values_of_createList {ts : List Token} {name : Leaf} {values : Leaves} {rule : Rule}
    (h : rule.Reads ts ⟨.createList name values, []⟩) :
    rule = .createList ∧ values = some ((behindName ts).map fun t => some t.spelling) := by
  cases h with
  | createList name ts =>
    refine ⟨rfl, ?_⟩
    rw [leaves, Token.values, filter_isValue_skipWord, List.map_map]
    rfl

end Rule

namespace Code

open PlainCode.Literal (Kind kindOf)
open PlainCode.Token (behindName)

/-! ## Declarations -/

/-- The elements of a list have a kind in common exactly if all of them are of it. -/
private theorem elementKind_eq_iff {vs : List Leaf} (hne : vs ≠ []) {kind : Kind}
    (hkind : kind ≠ .auto) : elementKind vs = kind ↔ ∀ v ∈ vs, kindOf v = kind := by
  obtain ⟨v, vs, rfl⟩ := List.exists_cons_of_ne_nil hne
  rw [elementKind, List.forall_mem_cons]
  split
  next hall =>
    rw [List.all_eq_true] at hall
    constructor
    · rintro rfl
      exact ⟨rfl, fun w hw => beq_iff_eq.mp (hall w hw)⟩
    · exact fun h => h.1
  next hnot =>
    refine ⟨fun h => absurd h.symm hkind, fun h => absurd (List.all_eq_true.mpr ?_) hnot⟩
    intro w hw
    rw [h.1, h.2 w hw, beq_self_eq_true]

theorem write_create (t : Target) (name value : Leaf) :
    write t (.create name value) = .ok (creation t name value) :=
  congrArg Except.ok (render_ofText _)

theorem write_createList (t : Target) (name : Leaf) (values : Leaves) :
    write t (.createList name values) = .ok (listCreation t name values.items) :=
  congrArg Except.ok (render_ofText _)

private theorem listCreation_java (name : Leaf) {vs : List Leaf} (hne : vs ≠ []) :
    listCreation .java name vs = "ArrayList<" ++ Target.javaElement (elementKind vs) ++ "> " ++
      name.shown ++ " = new ArrayList<>(" ++
      ("Arrays.asList(" ++ Target.java.values ", " vs ++ ")") ++ ");" := by
  have hempty : vs.isEmpty = false := Bool.eq_false_iff.mpr (mt List.isEmpty_iff.mp hne)
  unfold listCreation
  dsimp only
  rw [hempty, if_neg Bool.false_ne_true]

private theorem listCreation_cpp (name : Leaf) {vs : List Leaf} (hne : vs ≠ []) :
    listCreation .cpp name vs = "std::vector" ++
      (if elementKind vs = .auto then "" else "<" ++ Target.cppType (elementKind vs) ++ ">") ++
      " " ++ name.shown ++ " = \x7b" ++ Target.cpp.values ", " vs ++ "\x7d;" := by
  have hempty : vs.isEmpty = false := Bool.eq_false_iff.mpr (mt List.isEmpty_iff.mp hne)
  unfold listCreation
  dsimp only
  rw [hempty, if_neg Bool.false_ne_true]
  split
  next => rfl
  next =>
    simp only [String.append_assoc]
    rfl

end Code

open PlainCode.Literal (Kind kindOf)
open PlainCode.Token (behindName)

/-! ## The names of types -/

/-- `VariableTypes t? java cpp`: a variable whose value is the token `t?`, if it has one, is of the
type `java` in Java and of the type `cpp` in C++. -/
inductive VariableTypes : Option Token → String → String → Prop where
  | absent : VariableTypes none "var" "auto"
  | name (text : String) : VariableTypes (some ⟨.identifier, text⟩) "var" "auto"
  | string (text : String) : VariableTypes (some ⟨.string, text⟩) "String" "std::string"
  | whole (text : String) (h : '.' ∉ text.toList) :
      VariableTypes (some ⟨.number, text⟩) "int" "int"
  | decimal (text : String) (h : '.' ∈ text.toList) :
      VariableTypes (some ⟨.number, text⟩) "double" "double"
  | truth (text : String) : VariableTypes (some ⟨.boolean, text⟩) "boolean" "bool"

/-- `ElementTypes kind java cpp`: the values in a list that is not empty are of the type `java` in
Java if they are all of a kind, and C++ is told their type by `cpp`. -/
inductive ElementTypes : Kind → String → String → Prop where
  | string : ElementTypes .string "String" "<std::string>"
  | whole : ElementTypes .int "Integer" "<int>"
  | decimal : ElementTypes .double "Double" "<double>"
  | truth : ElementTypes .bool "Boolean" "<bool>"
  | mixed : ElementTypes .auto "Object" ""

private theorem variableTypes {t? : Option Token} (h : ∀ t ∈ t?, t.isValue = true) :
    VariableTypes t? (Target.javaType ((t?.map Token.literalKind).getD .auto))
      (Target.cppType ((t?.map Token.literalKind).getD .auto)) := by
  cases t? with
  | none => exact .absent
  | some t =>
    obtain ⟨kind, text⟩ := t
    cases kind with
    | identifier => exact .name text
    | string => exact .string text
    | boolean => exact .truth text
    | number =>
      rw [Option.map_some, Option.getD_some, Token.literalKind]
      dsimp only
      split
      next hpoint => exact .decimal text hpoint
      next hpoint => exact .whole text hpoint
    | keyword => cases h _ rfl
    | unknown => cases h _ rfl

private theorem elementTypes (kind : Kind) : ElementTypes kind (Target.javaElement kind)
    (if kind = .auto then "" else "<" ++ Target.cppType kind ++ ">") := by
  cases kind with
  | string => exact .string
  | int => exact .whole
  | double => exact .decimal
  | bool => exact .truth
  | auto => exact .mixed

/-- Every token of a text is the token of a word. -/
theorem Token.exists_ofWord {text : String} {t : Token} (h : t ∈ Token.ofText text) :
    ∃ word, Token.ofWord word = t := by
  obtain ⟨word, _, hword⟩ := List.mem_map.mp h
  exact ⟨word, hword⟩

/-- **A type is that of the token.** The kind of a value that was read is that of the class of its
token, and only a truth value is written in another form than it has there. So a new variable is
declared with the type of the first value behind its name, or left to the language if that is a name
or there is none. A list that is not empty has elements of a type that all values behind its name
are of. If there is no such type, its elements are objects in Java, and in C++ no type is said. -/
theorem declared_types (text : String) :
    (∀ t ∈ Token.ofText text, t.isValue = true →
      kindOf (some t.spelling) = t.literalKind ∧
      ∀ target : Target, target.value (some t.spelling) ≠ t.spelling → t.kind = .boolean) ∧
    ∀ p, parse grammar (Token.ofText text) = .ok p →
      (∀ name value, .create name value ∈ p.command.preorder → ∃ span java cpp,
        span <:+: Token.ofText text ∧
        Rule.create.accept? span = some ⟨.create name value, []⟩ ∧
        value = (behindName span).head?.map Token.spelling ∧
        VariableTypes (behindName span).head? java cpp ∧
        Code.write .java (.create name value)
          = .ok (java ++ " " ++ (name.shown ++ " = " ++ Target.java.value value) ++ ";") ∧
        Code.write .cpp (.create name value)
          = .ok (cpp ++ " " ++ (name.shown ++ " = " ++ Target.cpp.value value) ++ ";")) ∧
      ∀ name values, .createList name values ∈ p.command.preorder → ∃ span,
        span <:+: Token.ofText text ∧
        Rule.createList.accept? span = some ⟨.createList name values, []⟩ ∧
        values = some ((behindName span).map fun t => some t.spelling) ∧
        (behindName span ≠ [] → ∃ (kind : Kind) (java cpp : String),
          (∀ k, k ≠ .auto → (kind = k ↔ ∀ t ∈ behindName span, t.literalKind = k)) ∧
          ElementTypes kind java cpp ∧
          Code.write .java (.createList name values) = .ok ("ArrayList<" ++ java ++ "> " ++
            name.shown ++ " = new ArrayList<>(" ++
            ("Arrays.asList(" ++ Target.java.values ", " values.items ++ ")") ++ ");") ∧
          Code.write .cpp (.createList name values) = .ok ("std::vector" ++ cpp ++ " " ++
            name.shown ++ " = \x7b" ++ Target.cpp.values ", " values.items ++ "\x7d;")) := by
  have hkind : ∀ t ∈ Token.ofText text, t.isValue = true →
      kindOf (some t.spelling) = t.literalKind := by
    intro t ht hvalue
    obtain ⟨word, rfl⟩ := Token.exists_ofWord ht
    exact Token.kindOf_spelling word hvalue
  have hitems : ∀ {span : List Token}, span <:+: Token.ofText text → ∀ t ∈ behindName span,
      kindOf (some t.spelling) = t.literalKind := by
    intro span hspan t ht
    obtain ⟨hmem, hvalue⟩ := Token.mem_of_mem_behindName ht
    exact hkind t (hspan.subset hmem) hvalue
  refine ⟨fun t ht hvalue => ⟨hkind t ht hvalue, fun target hne => ?_⟩, fun p hp => ⟨?_, ?_⟩⟩
  · obtain ⟨word, rfl⟩ := Token.exists_ofWord ht
    exact Token.kind_of_value_ne word hvalue hne
  · intro name value hmem
    obtain ⟨span, hspan, rule, _, hreads⟩ := exists_reads_of_parse hp _ hmem rfl
    obtain ⟨rfl, rfl⟩ := Rule.value_of_create hreads
    have hfirst : kindOf ((behindName span).head?.map Token.spelling)
        = ((behindName span).head?.map Token.literalKind).getD .auto := by
      cases hhead : (behindName span).head? with
      | none => rfl
      | some t => exact hitems hspan t (List.mem_of_head? hhead)
    have hvalue : ∀ t ∈ (behindName span).head?, t.isValue = true :=
      fun t ht => (Token.mem_of_mem_behindName (List.mem_of_head? ht)).2
    have htypes := variableTypes hvalue
    refine ⟨span, _, _, hspan, hreads.accept?, rfl, htypes, ?_⟩
    rw [Code.write_create, Code.write_create, Code.creation, Code.creation, hfirst]
    exact ⟨rfl, rfl⟩
  · intro name values hmem
    obtain ⟨span, hspan, rule, _, hreads⟩ := exists_reads_of_parse hp _ hmem rfl
    obtain ⟨rfl, rfl⟩ := Rule.values_of_createList hreads
    refine ⟨span, hspan, hreads.accept?, rfl, fun hne => ?_⟩
    have hleaves : (behindName span).map (fun t => some t.spelling) ≠ [] :=
      mt List.map_eq_nil_iff.mp hne
    refine ⟨Code.elementKind ((behindName span).map fun t => some t.spelling), _, _, ?_,
      elementTypes _, ?_, ?_⟩
    · intro k hk
      rw [Code.elementKind_eq_iff hleaves hk, List.forall_mem_map]
      exact forall₂_congr fun t ht => by rw [hitems hspan t ht]
    · rw [Code.write_createList]
      exact congrArg Except.ok (Code.listCreation_java name hleaves)
    · rw [Code.write_createList]
      exact congrArg Except.ok (Code.listCreation_cpp name hleaves)

/-- A list of texts, of which one is a number in quotes, and a variable with that number. -/
theorem declared_types_nested :
    let text := "if x greater 1 then create list names \"a\" \"2.5\" else create y value 2.5"
    let list : Command := .createList (some "names") (some [some "\"a\"", some "\"2.5\""])
    let number : Command := .create (some "y") (some "2.5")
    kindOf (some "\"2.5\"") = .string ∧
    ∃ p, parse grammar (Token.ofText text) = .ok p ∧
      p.command = .branch (some ⟨some "x", some "greater", some "1"⟩) list number ∧
      Code.write .java list
        = .ok "ArrayList<String> names = new ArrayList<>(Arrays.asList(\"a\", \"2.5\"));" ∧
      Code.write .cpp list = .ok "std::vector<std::string> names = \x7b\"a\", \"2.5\"\x7d;" ∧
      Code.write .java number = .ok "double y = 2.5;" ∧
      Code.write .cpp number = .ok "double y = 2.5;" := by
  intro text list number
  have htokens : Token.ofText text = [⟨.keyword, "if"⟩, ⟨.identifier, "x"⟩, ⟨.keyword, "greater"⟩,
      ⟨.number, "1"⟩, ⟨.keyword, "then"⟩, ⟨.keyword, "create"⟩, ⟨.keyword, "list"⟩,
      ⟨.identifier, "names"⟩, ⟨.string, "a"⟩, ⟨.string, "2.5"⟩, ⟨.keyword, "else"⟩,
      ⟨.keyword, "create"⟩, ⟨.identifier, "y"⟩, ⟨.keyword, "value"⟩, ⟨.number, "2.5"⟩] := by
    decide +kernel
  have hparse : parse grammar (Token.ofText text) = .ok ⟨.branch,
      .branch (some ⟨some "x", some "greater", some "1"⟩) list number, []⟩ := by
    rw [htokens]
    rfl
  -- tokens of the text are told by their spellings
  have htexts : ∀ t ∈ Token.ofText text, t.spelling = "\"a\"" ∨ t.spelling = "\"2.5\"" →
      t.literalKind = .string := by
    rw [htokens]
    decide
  have hnumbers : ∀ t ∈ Token.ofText text, t.spelling = "2.5" → t = ⟨.number, "2.5"⟩ := by
    rw [htokens]
    decide
  obtain ⟨hkinds, htypes⟩ := declared_types text
  obtain ⟨hcreate, hlist⟩ := htypes _ hparse
  have hquoted : (⟨.string, "2.5"⟩ : Token) ∈ Token.ofText text := by
    rw [htokens]
    decide
  obtain ⟨span, hspan, _, hvalues, hfilled⟩ :=
    hlist (some "names") _ (List.mem_cons_of_mem _ (List.mem_cons_self ..))
  obtain ⟨front, javaType, cppType, hfront, _, hvalue, htype, hjava, hcpp⟩ :=
    hcreate (some "y") (some "2.5")
      (List.mem_cons_of_mem _ (List.mem_cons_of_mem _ (List.mem_cons_self ..)))
  have helements : behindName span ≠ [] := by
    intro hnil
    rw [hnil] at hvalues
    cases hvalues
  obtain ⟨kind, javaElement, cppElement, hkind, helement, hjavaList, hcppList⟩ :=
    hfilled helements
  refine ⟨(hkinds _ hquoted rfl).1, _, hparse, rfl, ?_⟩
  -- both values of the list are texts
  have hstring : kind = .string := by
    refine (hkind .string (by decide)).mpr fun t ht => ?_
    have hmem : some t.spelling ∈ [some "\"a\"", some "\"2.5\""] :=
      Option.some.inj hvalues ▸ List.mem_map_of_mem ht
    refine htexts t (hspan.subset (Token.mem_of_mem_behindName ht).1) ?_
    simpa using hmem
  -- the value of the variable is the number without quotes
  obtain ⟨t, hhead, hspelling⟩ := Option.map_eq_some_iff.mp hvalue.symm
  have hvariable : t = ⟨.number, "2.5"⟩ :=
    hnumbers t (hfront.subset (Token.mem_of_mem_behindName (List.mem_of_head? hhead)).1) hspelling
  subst hstring
  rw [hhead, hvariable] at htype
  cases helement
  cases htype with
  | whole _ hwhole => exact absurd hwhole (by decide)
  | decimal => exact ⟨hjavaList, hcppList, hjava, hcpp⟩

end PlainCode
