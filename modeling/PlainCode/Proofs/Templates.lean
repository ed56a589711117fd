import PlainCode.Proofs.Layout

/-!
# Templates

The line that a command begins with is put together from texts that its form fixes and texts that
were given: names, values, signs and remarks. Written code does not tell the two apart any more.
`template` does: it is the list of the parts of that line, each marked as fixed or given, and
`textOf_template` is that together they are the line that is written.
-/

namespace PlainCode.Code

/-! ## Parts -/

/-- A part of a line of code: one that the form of the command fixes, or one that was given. -/
inductive Part where
  | fixed (text : String)
  | given (text : String)

/-- The text of a part. -/
def Part.text : Part → String
  | .fixed text => text
  | .given text => text

/-- The text of parts in a row. -/
def textOf (ps : List Part) : String := String.join (ps.map Part.text)

section

variable (t : Target)

/-- Lists of parts with a fixed text between one and the next. -/
def partsBetween (between : String) : List (List Part) → List Part
  | [] => []
  | [ps] => ps
  | ps :: rest => ps ++ .fixed between :: partsBetween between rest

/-- Values with a fixed text between them. -/
def valueParts (between : String) (vs : List Leaf) : List Part :=
  partsBetween between (vs.map fun v => [.given (t.value v)])

/-- Two values with a sign between them. -/
def signParts (left right : Leaf) (sign : String) : List Part :=
  [.given (t.value left), .fixed " ", .given sign, .fixed " ", .given (t.value right)]

/-- A comparison, with the sign of its operator between its sides. An operator without a sign is
given. -/
def conditionParts (c : Condition) : List Part :=
  signParts t c.left c.right ((Condition.sign? c.operator).getD c.operator.shown)

/-- A calculation, with the sign of its operator between the numbers. -/
def calculationParts (operator left right : Leaf) : List Part :=
  signParts t left right ((Command.sign? operator).getD operator.shown)

/-- The header of a block that a comparison decides about, without what opens the block. -/
def guardParts (word : String) (c : Option Condition) : List Part :=
  match t with
  | .python => .fixed (word ++ " ") :: conditionParts t (comparisonOf c)
  | _ => .fixed (word ++ " (") :: conditionParts t (comparisonOf c) ++ [.fixed ")"]

/-- A step of a variable up or down, where only the short form has no amount. -/
def countingParts (name amount : Leaf) (sign : String) : List Part :=
  if amount = some "1" ∧ t ≠ .python then [.given name.shown, .fixed (sign ++ sign ++ ";")]
  else [.given name.shown, .fixed (" " ++ sign ++ "= "), .given (t.value amount),
    .fixed t.terminator]

/-- A new list. The type of its elements is fixed by their kinds, and the values are given. -/
def listParts (list : Leaf) (vs : List Leaf) : List Part :=
  let name := Part.given list.shown
  let items := valueParts t ", " vs
  match t with
  | .python => [name, .fixed " = ["] ++ items ++ [.fixed "]"]
  | .java =>
    [.fixed ("ArrayList<" ++ Target.javaElement (elementKind vs) ++ "> "), name,
      .fixed " = new ArrayList<>("] ++
      (if vs.isEmpty then [] else .fixed "Arrays.asList(" :: items ++ [.fixed ")"]) ++ [.fixed ");"]
  | .cpp =>
    if elementKind vs = .auto then
      if vs.isEmpty then [.fixed "std::vector<int> ", name, .fixed ";"]
      else [.fixed "std::vector ", name, .fixed " = \x7b"] ++ items ++ [.fixed "\x7d;"]
    else
      [.fixed ("std::vector<" ++ Target.cppType (elementKind vs) ++ "> "), name,
        .fixed " = \x7b"] ++ items ++ [.fixed "\x7d;"]

/-- How a counting loop goes on: the comparison with its end, and the step. -/
def stepParts (counter : String) (step : Leaf) : String × List Part :=
  let digits := step.shown.toList
  if step = some "1" then ("<", [.given counter, .fixed "++"])
  else if step = some "-1" then (">", [.given counter, .fixed "--"])
  else if digits.head? = some '-' ∧ Literal.isNumber digits then
    (">", [.given counter, .fixed " -= ", .given (String.ofList (digits.drop 1))])
  else ("<", [.given counter, .fixed " += ", .given (t.value step)])

/-- The header of a counting loop. In the languages with braces the counter is given three times. -/
def loopParts (counter start stop step : Leaf) : List Part :=
  let name := Part.given counter.shown
  match t with
  | .python =>
    [.fixed "for ", name, .fixed " in range(", .given (t.value start), .fixed ", ",
      .given (t.value stop)] ++
      (if step = some "1" then [] else [.fixed ", ", .given (t.value step)]) ++ [.fixed ")"]
  | _ =>
    [.fixed "for (int ", name, .fixed " = ", .given (t.value start), .fixed "; ", name,
      .fixed (" " ++ (stepParts t counter.shown step).1 ++ " "), .given (t.value stop),
      .fixed "; "] ++ (stepParts t counter.shown step).2 ++ [.fixed ")"]

/-- Parameters, each with a fixed type in front. -/
def paramParts (type : String) (params : List Leaf) : List Part :=
  partsBetween ", " (params.map fun p => [.fixed (type ++ " "), .given p.shown])

/-- The header of a function, with what its body says about its result. -/
def functionParts (function : Leaf) (params : List Leaf) (body : Command) : List Part :=
  let hasResult := body.preorder.any givesValue
  match t with
  | .python =>
    [.fixed "def ", .given function.shown, .fixed "("] ++
      partsBetween ", " (params.map fun p => [.given p.shown]) ++ [.fixed ")"]
  | .java =>
    [.fixed ("public static " ++ (if hasResult then "Object" else "void") ++ " "),
      .given function.shown, .fixed "("] ++ paramParts "Object" params ++ [.fixed ")"]
  | .cpp =>
    [.fixed ((if hasResult then "auto" else "void") ++ " "), .given function.shown, .fixed "("] ++
      paramParts "auto" params ++ [.fixed ")"]

/-- A new variable. Its type is fixed by the kind of its value. -/
def creationParts (name value : Leaf) : List Part :=
  let rest := [.given name.shown, .fixed " = ", .given (t.value value)]
  match t with
  | .python => rest
  | .java => .fixed (Target.javaType (Literal.kindOf value) ++ " ") :: rest ++ [.fixed ";"]
  | .cpp => .fixed (Target.cppType (Literal.kindOf value) ++ " ") :: rest ++ [.fixed ";"]

/-- The printing of values, which are given, with fixed text between them. -/
def printingParts (vs : List Leaf) : List Part :=
  match t with
  | .python => .fixed "print(" :: valueParts t ", " vs ++ [.fixed ")"]
  | .java => .fixed "System.out.println(" :: valueParts t " + \" \" + " vs ++ [.fixed ");"]
  | .cpp => .fixed "std::cout << " :: valueParts t " << \" \" << " vs ++ [.fixed " << std::endl;"]

/-- The reading of a variable, of which only the name is given. -/
def readingParts (name : Leaf) : List Part :=
  match t with
  | .python => [.given name.shown, .fixed " = input()"]
  | .java => [.given name.shown, .fixed " = scanner.nextLine();"]
  | .cpp => [.fixed "std::cin >> ", .given name.shown, .fixed ";"]

/-- A value put at the end of a list. -/
def appendingParts (list value : Leaf) : List Part :=
  match t with
  | .python => [.given list.shown, .fixed ".append(", .given (t.value value), .fixed ")"]
  | .java => [.given list.shown, .fixed ".add(", .given (t.value value), .fixed ");"]
  | .cpp => [.given list.shown, .fixed ".push_back(", .given (t.value value), .fixed ");"]

/-- A calculation, stored under the name of its result if it has one. -/
def computeParts (operator left right result : Leaf) : List Part :=
  let calculation := calculationParts t operator left right ++ [.fixed t.terminator]
  match result with
  | none | some "" => calculation
  | some name => .given name :: .fixed " = " :: calculation

/-- The parts of what is given back. -/
def backParts : Leaf → List Part
  | none => [.fixed "return", .fixed t.terminator]
  | some value => [.fixed "return ", .given (t.value (some value)), .fixed t.terminator]

/-- The template of a command: the parts of its statement, or of the header of its block. -/
def template : Command → List Part
  | .hole => [.fixed t.noop]
  | .create name value => creationParts t name value
  | .assign name value =>
    [.given name.shown, .fixed " = ", .given (t.value value), .fixed t.terminator]
  | .print vs => printingParts t vs.items
  | .read name => readingParts t name
  | .compute operator left right result => computeParts t operator left right result
  | .increment name amount => countingParts t name amount "+"
  | .decrement name amount => countingParts t name amount "-"
  | .branch c _ _ => guardParts t "if" c ++ [.fixed (opening t)]
  | .repeatWhile c _ => guardParts t "while" c ++ [.fixed (opening t)]
  | .repeatFor counter start stop step _ =>
    loopParts t counter start stop step ++ [.fixed (opening t)]
  | .define name params body => functionParts t name params.items body ++ [.fixed (opening t)]
  | .call name args =>
    [.given name.shown, .fixed "("] ++ valueParts t ", " args.items ++
      [.fixed ")", .fixed t.terminator]
  | .giveBack value => backParts t value
  | .createList name vs => listParts t name vs.items
  | .append list value => appendingParts t list value
  | .remark text => [.fixed (t.commentMark ++ " "), .given text.shown]
  | command =>
    [.fixed (t.commentMark ++ " "), .fixed "Unsupported node type: ", .given command.form]

/-! ## The text of a template -/

@[simp] theorem textOf_nil : textOf [] = "" := rfl

@[simp] theorem textOf_cons (p : Part) (ps : List Part) :
    textOf (p :: ps) = p.text ++ textOf ps := by
  rw [textOf, List.map_cons, String.join_cons]
  rfl

@[simp] theorem textOf_append (ps qs : List Part) : textOf (ps ++ qs) = textOf ps ++ textOf qs := by
  induction ps with
  | nil => exact String.empty_append.symm
  | cons p ps ih => rw [List.cons_append, textOf_cons, textOf_cons, ih, String.append_assoc]

theorem textOf_partsBetween (between : String) : ∀ pss : List (List Part),
    textOf (partsBetween between pss) = between.intercalate (pss.map textOf)
  | [] => rfl
  | [ps] => by rw [partsBetween, List.map_singleton, String.intercalate_singleton]
  | ps :: qs :: rest => by
    have hrest : partsBetween between (ps :: qs :: rest)
        = ps ++ .fixed between :: partsBetween between (qs :: rest) := rfl
    rw [hrest, textOf_append, textOf_cons, textOf_partsBetween between (qs :: rest), List.map_cons,
      List.map_cons, List.map_cons, String.intercalate_cons_cons, String.append_assoc]
    rfl

theorem textOf_valueParts (between : String) (vs : List Leaf) :
    textOf (valueParts t between vs) = t.values between vs := by
  rw [valueParts, textOf_partsBetween, List.map_map, Target.values]
  refine congrArg _ (List.map_congr_left fun v _ => ?_)
  show textOf [.given (t.value v)] = t.value v
  rw [textOf_cons, textOf_nil, String.append_empty]
  rfl

private theorem textOf_conditionParts (c : Condition) :
    textOf (conditionParts t c) = condition t c := by
  simp only [conditionParts, signParts, condition, textOf_cons, textOf_nil, Part.text,
    String.append_assoc, String.append_empty]

private theorem textOf_calculationParts (operator left right : Leaf) :
    textOf (calculationParts t operator left right) = calculation t operator left right := by
  simp only [calculationParts, signParts, calculation, textOf_cons, textOf_nil, Part.text,
    String.append_assoc, String.append_empty]

private theorem textOf_guardParts (word : String) (c : Option Condition) :
    textOf (guardParts t word c) = guardHeader t word c := by
  cases t <;>
    simp only [guardParts, guardHeader, textOf_conditionParts, textOf_cons, textOf_append,
      textOf_nil, Part.text, String.append_assoc, String.append_empty]

theorem textOf_countingParts (name amount : Leaf) (sign : String) :
    textOf (countingParts t name amount sign) = counting t name amount sign := by
  rw [countingParts, counting]
  split <;>
    simp only [statement, textOf_cons, textOf_nil, Part.text, String.append_assoc,
      String.append_empty]

private theorem textOf_listParts (list : Leaf) (vs : List Leaf) :
    textOf (listParts t list vs) = listCreation t list vs := by
  cases t with
  | python =>
    simp only [listParts, listCreation, textOf_valueParts, textOf_cons, textOf_append, textOf_nil,
      Part.text, String.append_assoc, String.append_empty]
  | java =>
    rw [listParts, listCreation]
    split <;>
      simp only [textOf_valueParts, textOf_cons, textOf_append, textOf_nil, Part.text,
        String.append_assoc, String.append_empty]
  | cpp =>
    rw [listParts, listCreation]
    split
    next =>
      split <;>
        simp only [textOf_valueParts, textOf_cons, textOf_append, textOf_nil, Part.text,
          String.append_assoc, String.append_empty]
    next =>
      simp only [textOf_valueParts, textOf_cons, textOf_append, textOf_nil, Part.text,
        String.append_assoc, String.append_empty]

private theorem loopStep_eq (counter : String) (step : Leaf) :
    loopStep t counter step
      = ((stepParts t counter step).1, textOf (stepParts t counter step).2) := by
  rw [loopStep, stepParts]
  split
  next => rfl
  next =>
    split
    next => rfl
    next =>
      split <;>
        simp only [textOf_cons, textOf_nil, Part.text, String.append_assoc, String.append_empty]

private theorem textOf_loopParts (counter start stop step : Leaf) :
    textOf (loopParts t counter start stop step) = loopHeader t counter start stop step := by
  cases t with
  | python =>
    rw [loopParts, loopHeader]
    split <;>
      simp only [textOf_cons, textOf_append, textOf_nil, Part.text, String.append_assoc,
        String.append_empty]
  | java | cpp =>
    simp only [loopParts, loopHeader, loopStep_eq, textOf_cons, textOf_append, textOf_nil,
      Part.text, String.append_assoc, String.append_empty]

private theorem textOf_paramParts (type : String) (params : List Leaf) :
    textOf (paramParts type params) = typedParams type params := by
  rw [paramParts, typedParams, textOf_partsBetween, List.map_map]
  refine congrArg _ (List.map_congr_left fun p _ => ?_)
  show textOf [.fixed (type ++ " "), .given p.shown] = type ++ " " ++ p.shown
  rw [textOf_cons, textOf_cons, textOf_nil, String.append_empty]
  rfl

private theorem textOf_functionParts (function : Leaf) (params : List Leaf) (body : Command) :
    textOf (functionParts t function params body) = functionHeader t function params body := by
  cases t with
  | python =>
    have hnames : textOf (partsBetween ", " (params.map fun p => [.given p.shown]))
        = ", ".intercalate (params.map Leaf.shown) := by
      rw [textOf_partsBetween, List.map_map]
      refine congrArg _ (List.map_congr_left fun p _ => ?_)
      exact (textOf_cons _ _).trans String.append_empty
    unfold functionParts functionHeader
    simp only [hnames, textOf_cons, textOf_append, textOf_nil, Part.text, String.append_assoc,
      String.append_empty]
  | java | cpp =>
    unfold functionParts functionHeader
    simp only [textOf_paramParts, textOf_cons, textOf_append, textOf_nil, Part.text,
      String.append_assoc, String.append_empty]

private theorem textOf_creationParts (name value : Leaf) :
    textOf (creationParts t name value) = creation t name value := by
  cases t <;>
    simp only [creationParts, creation, textOf_cons, textOf_append, textOf_nil, Part.text,
      String.append_assoc, String.append_empty]

private theorem textOf_printingParts (vs : List Leaf) :
    textOf (printingParts t vs) = printing t vs := by
  unfold printingParts printing
  cases t <;>
    simp only [textOf_valueParts, textOf_cons, textOf_append, textOf_nil, Part.text,
      String.append_assoc, String.append_empty]

private theorem textOf_readingParts (name : Leaf) :
    textOf (readingParts t name) = reading t name := by
  cases t <;>
    simp only [readingParts, reading, textOf_cons, textOf_nil, Part.text, String.append_assoc,
      String.append_empty]

private theorem textOf_appendingParts (list value : Leaf) :
    textOf (appendingParts t list value) = appending t list value := by
  cases t <;>
    simp only [appendingParts, appending, textOf_cons, textOf_nil, Part.text, String.append_assoc,
      String.append_empty]

private theorem textOf_computeParts (operator left right result : Leaf) :
    textOf (computeParts t operator left right result)
      = simple t (.compute operator left right result) := by
  unfold computeParts simple
  split <;>
    simp only [statement, textOf_calculationParts, textOf_cons, textOf_append, textOf_nil,
      Part.text, String.append_assoc, String.append_empty]

private theorem textOf_backParts (value : Leaf) :
    textOf (backParts t value) = simple t (.giveBack value) := by
  cases value <;>
    simp only [backParts, simple, statement, textOf_cons, textOf_nil, Part.text,
      String.append_assoc, String.append_empty]

/-- The template of a command has the text that its line is written from. -/
theorem textOf_template (c : Command) : textOf (template t c) = firstText t c := by
  cases c with
  | create name value => exact textOf_creationParts t name value
  | print vs => exact textOf_printingParts t vs.items
  | read name => exact textOf_readingParts t name
  | append list value => exact textOf_appendingParts t list value
  | compute operator left right result => exact textOf_computeParts t operator left right result
  | giveBack value => exact textOf_backParts t value
  | increment name amount => exact textOf_countingParts t name amount "+"
  | decrement name amount => exact textOf_countingParts t name amount "-"
  | createList name vs => exact textOf_listParts t name vs.items
  | _ =>
    simp only [template, firstText, simple, statement, comment, Command.form, textOf_guardParts,
      textOf_loopParts, textOf_functionParts, textOf_valueParts, textOf_cons, textOf_append,
      textOf_nil, Part.text, String.append_assoc, String.append_empty]

/-- The lines of a command begin with what its template says. -/
theorem linesOf_template {c : Command} (hc : c ≠ .hole) :
    ∃ rest, linesOf t c = ofText (textOf (template t c)) ++ rest := by
  rw [textOf_template]
  cases c with
  | hole => exact absurd rfl hc
  | branch c thenBody elseBody =>
    rw [linesOf, List.append_assoc, List.append_assoc]
    exact ⟨_, rfl⟩
  | repeatWhile | repeatFor | define =>
    rw [linesOf, block, List.append_assoc]
    exact ⟨_, rfl⟩
  | _ => exact ⟨[], (List.append_nil _).symm⟩

end

end PlainCode.Code
