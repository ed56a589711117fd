import PlainCode.Grammar.Condition

/-!
# The rules of the grammar

Each form of command has a rule that reads it from the whole of a row of tokens. A rule gives the
command with its slots still empty, and for each slot the tokens that are to be read into it.

    COMMENT        comment WORD+
    LIST           create list NAME [value] VALUE*
    APPEND         append VALUE ... to NAME
    FUNCTION       (define | create) function NAME [(parameter | parameters) NAME*] [do] COMMAND?
    CALL           call NAME [value] VALUE*
    RETURN         return VALUE?
    FOR            for NAME (from VALUE | to VALUE | by VALUE)+ do COMMAND?
    WHILE          while CONDITION [do] COMMAND?
    IF             if CONDITION [then] COMMAND? [else COMMAND?]
    ARITHMETIC     (add | subtract | multiply | divide | modulus)
                     VALUE [and] VALUE [(store | in)+ NAME]
    COUNTING       (increment | decrement) NAME [by VALUE]
    INPUT          input NAME
    VARIABLE       create [variable] NAME [value] [to] VALUE?
    ASSIGNMENT     set NAME [to | value] [to] VALUE
    PRINT          print VALUE+

Words that do not belong to a command are passed over where a rule looks for something particular.
-/

namespace PlainCode

open PlainCode.Token (skipWord skipOneOf value? values)

/-- A command that a rule has read, and the tokens for its slots. -/
structure Match where
  command : Command
  spans : List (Slot × List Token) := []
  deriving DecidableEq, Repr

/-- The rules. The last one is not of the grammar: it reads any tokens as a comment. -/
inductive Rule where
  | remark
  | createList
  | append
  | define
  | call
  | giveBack
  | repeatFor
  | repeatWhile
  | branch
  | compute
  | increment
  | decrement
  | read
  | create
  | assign
  | print
  | catchAll
  deriving DecidableEq, Repr

namespace Rule

/-- The name of a rule. -/
def name : Rule → String
  | .remark => "comment"
  | .createList => "list_creation"
  | .append => "append"
  | .define => "function_def"
  | .call => "function_call"
  | .giveBack => "return"
  | .repeatFor => "for_loop"
  | .repeatWhile => "while_loop"
  | .branch => "if_statement"
  | .compute => "arithmetic"
  | .increment => "increment"
  | .decrement => "decrement"
  | .read => "input"
  | .create => "variable_creation"
  | .assign => "assignment"
  | .print => "print"
  | .catchAll => "catch_all"

/-- The values among tokens, as leaves. -/
def leaves (ts : List Token) : List Leaf := (values ts).map some

/-- The values of tokens, joined by spaces. -/
def remarkText (ts : List Token) : String := " ".intercalate (ts.map Token.value)

/-- Reads a comment. -/
def remark? : List Token → Option Match
  | ⟨.keyword, "comment"⟩ :: t :: ts => some ⟨.remark (some (remarkText (t :: ts))), []⟩
  | _ => none

/-- Reads a new list and the values in it. -/
def createList? : List Token → Option Match
  | ⟨.keyword, "create"⟩ :: ⟨.keyword, "list"⟩ :: ⟨.identifier, name⟩ :: ts =>
    some ⟨.createList (some name) (some (leaves (skipWord "value" ts))), []⟩
  | _ => none

/-- The name behind the first `to` that anything is behind of. -/
def target? : List Token → Option String
  | t :: u :: ts =>
    if t.isWord "to" then if u.isName then some u.value else none else target? (u :: ts)
  | _ => none

/-- Reads a value to be put at the end of a list. -/
def append? : List Token → Option Match
  | ⟨.keyword, "append"⟩ :: t :: ts =>
    if t.isValue then
      (target? ts).map fun list => ⟨.append (some list) (some t.spelling), []⟩
    else none
  | _ => none

/-- The names of parameters, if there are any, and the tokens behind them. -/
def params : List Token → List String × List Token
  | [] => ([], [])
  | t :: ts =>
    if t.isOneOf ["parameter", "parameters"] then
      ((ts.takeWhile Token.isName).map Token.value, ts.dropWhile Token.isName)
    else ([], t :: ts)

/-- Reads a function, its parameters and its body. -/
def define? : List Token → Option Match
  | ⟨.keyword, word⟩ :: ⟨.keyword, "function"⟩ :: ⟨.identifier, name⟩ :: ts =>
    if word = "define" ∨ word = "create" then
      let (names, ts) := params ts
      some ⟨.define (some name) (some (names.map some)) .hole, [(.body, skipWord "do" ts)]⟩
    else none
  | _ => none

/-- Reads a call of a function and its arguments. -/
def call? : List Token → Option Match
  | ⟨.keyword, "call"⟩ :: ⟨.identifier, name⟩ :: ts =>
    some ⟨.call (some name) (some (leaves (skipWord "value" ts))), []⟩
  | _ => none

/-- Reads the end of a function, with its result or without. -/
def giveBack? : List Token → Option Match
  | ⟨.keyword, "return"⟩ :: ts => some ⟨.giveBack ((value? ts).map (·.1)), []⟩
  | _ => none

/-- What a counting loop counts from, to and by. -/
structure Bounds where
  start : Option String := none
  stop : Option String := none
  step : Option String := none
  deriving DecidableEq, Repr

/-- The words that begin the clauses of a counting loop. -/
def clauseWords : List String := ["from", "to", "by"]

/-- Bounds with the clause of one word set anew. -/
def Bounds.set (b : Bounds) (word value : String) : Bounds :=
  if word = "from" then { b with start := some value }
  else if word = "to" then { b with stop := some value }
  else { b with step := some value }

/-- The bounds that the clauses in front of `do` set, and the tokens behind it. Each word of a
clause needs a value behind it. The last clause of a word counts. -/
def clauses? (b : Bounds) : List Token → Option (Bounds × List Token)
  | [] => some (b, [])
  | t :: ts =>
    if t.isOneOf clauseWords then
      match ts with
      | [] => none
      | v :: vs => if v.isValue then clauses? (b.set t.value v.spelling) vs else none
    else if t.isWord "do" then some (b, ts)
    else clauses? b ts

/-- Reads a counting loop. It needs a start and a stop. -/
def repeatFor? : List Token → Option Match
  | ⟨.keyword, "for"⟩ :: ⟨.identifier, counter⟩ :: ts =>
    match clauses? {} ts with
    | some (⟨some start, some stop, step⟩, body) =>
      some ⟨.repeatFor (some counter) (some start) (some stop) (some (step.getD "1")) .hole,
        [(.body, body)]⟩
    | _ => none
  | _ => none

/-- Reads a loop with a condition. -/
def repeatWhile? : List Token → Option Match
  | ⟨.keyword, "while"⟩ :: ts =>
    (Condition.read? ts).map fun (c, rest) =>
      ⟨.repeatWhile (some c) .hole, [(.body, skipWord "do" rest)]⟩
  | _ => none

/-- Reads a choice between two commands. The first `else` parts them. -/
def branch? : List Token → Option Match
  | ⟨.keyword, "if"⟩ :: ts =>
    (Condition.read? ts).map fun (c, rest) =>
      let bodies := skipWord "then" rest
      let before := bodies.takeWhile fun t => !t.isWord "else"
      let behind := (bodies.dropWhile fun t => !t.isWord "else").drop 1
      ⟨.branch (some c) .hole .hole, [(.thenBody, before), (.elseBody, behind)]⟩
  | _ => none

/-- The first name among tokens. -/
def firstName? (ts : List Token) : Option String := (ts.find? Token.isName).map Token.value

/-- The right side of a calculation and the name for its result. The first value is the right side,
unless a value behind an `and` takes its place. -/
def operands (right : Option String) : List Token → Option String × Option String
  | [] => (right, none)
  | t :: ts =>
    if t.isWord "and" ∧ ts.head?.any Token.isValue then
      match ts with
      | [] => (right, none)
      | v :: vs => operands (some v.spelling) vs
    else if t.isOneOf ["store", "in"] then (right, firstName? ts)
    else if right.isNone && t.isValue then operands (some t.spelling) ts
    else operands right ts

/-- Reads a calculation. It needs two values. -/
def compute? : List Token → Option Match
  | ⟨.keyword, operator⟩ :: t :: ts =>
    if Vocabulary.arithmeticWords.contains operator && t.isValue then
      match operands none ts with
      | (some right, result) =>
        some ⟨.compute (some operator) (some t.spelling) (some right) result, []⟩
      | (none, _) => none
    else none
  | _ => none

/-- The amount that a variable is changed by. -/
def amount : List Token → String
  | ⟨.keyword, "by"⟩ :: t :: _ => if t.isValue then t.spelling else "1"
  | _ => "1"

/-- Reads an increase of a variable. -/
def increment? : List Token → Option Match
  | ⟨.keyword, "increment"⟩ :: ⟨.identifier, name⟩ :: ts =>
    some ⟨.increment (some name) (some (amount ts)), []⟩
  | _ => none

/-- Reads a decrease of a variable. -/
def decrement? : List Token → Option Match
  | ⟨.keyword, "decrement"⟩ :: ⟨.identifier, name⟩ :: ts =>
    some ⟨.decrement (some name) (some (amount ts)), []⟩
  | _ => none

/-- Reads a question to the user. -/
def read? : List Token → Option Match
  | ⟨.keyword, "input"⟩ :: ⟨.identifier, name⟩ :: _ => some ⟨.read (some name), []⟩
  | _ => none

/-- Reads a new variable and its first value. -/
def create? : List Token → Option Match
  | ⟨.keyword, "create"⟩ :: ts =>
    match skipWord "variable" ts with
    | ⟨.identifier, name⟩ :: ts =>
      match skipWord "to" (skipWord "value" ts) with
      | [] => some ⟨.create (some name) none, []⟩
      | t :: _ =>
        if t.isValue then some ⟨.create (some name) (some t.spelling), []⟩ else none
    | _ => none
  | _ => none

/-- Reads a new value for a variable. -/
def assign? : List Token → Option Match
  | ⟨.keyword, "set"⟩ :: ⟨.identifier, name⟩ :: ts =>
    (value? (skipWord "to" (skipOneOf ["to", "value"] ts))).map fun (value, _) =>
      ⟨.assign (some name) (some value), []⟩
  | _ => none

/-- Reads values to be printed. It needs at least one. -/
def print? : List Token → Option Match
  | ⟨.keyword, "print"⟩ :: ts =>
    match leaves ts with
    | [] => none
    | v :: vs => some ⟨.print (some (v :: vs)), []⟩
  | _ => none

/-- The command that a rule reads from tokens. -/
def accept? : Rule → List Token → Option Match
  | .remark => remark?
  | .createList => createList?
  | .append => append?
  | .define => define?
  | .call => call?
  | .giveBack => giveBack?
  | .repeatFor => repeatFor?
  | .repeatWhile => repeatWhile?
  | .branch => branch?
  | .compute => compute?
  | .increment => increment?
  | .decrement => decrement?
  | .read => read?
  | .create => create?
  | .assign => assign?
  | .print => print?
  | .catchAll => fun ts => some ⟨.remark (some (remarkText ts)), []⟩

end Rule

/-- The rules of the grammar, in the order in which they are tried. -/
def grammar : List Rule :=
  [.remark, .createList, .append, .define, .call, .giveBack, .repeatFor, .repeatWhile,
   .branch, .compute, .increment, .decrement, .read, .create, .assign, .print]

/-- The rule of a name. -/
def Rule.ofName? (name : String) : Option Rule :=
  (grammar ++ [Rule.catchAll]).find? fun rule => rule.name == name

end PlainCode
