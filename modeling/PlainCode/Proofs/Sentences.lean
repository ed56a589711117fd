import PlainCode.Proofs.Reading

/-!
# Sentences of the grammar

The grammar of commands, written as trees: a `Sentence` is a derivation of a command, with a choice
for each word that may be left out, for each word that has another beside it, and for each body. It
has tokens (`Sentence.tokens`), and it means a command (`Sentence.command`).

Reading does not follow the grammar. Rules look for words and pass over what is between them, and
bodies are cut out by their first and last words. `parse_sentence` is that nothing gets lost on that
way: the tokens of every sentence are read as the command that it means, without a warning. Three
things are asked of a sentence (`Admissible`): a loop has a start and a stop, what stands between a
value and the `to` of its list has no `to` of its own, and the first body of a choice has no `else`.
-/

namespace PlainCode

/-- One of several keywords. -/
structure Keyword (words : List String) where
  word : String
  mem : word ∈ words

/-- The token of a keyword. -/
def Keyword.token {words : List String} (k : Keyword words) : Token := ⟨.keyword, k.word⟩

/-- A clause of a counting loop: what its value is for, and the value. -/
structure Clause where
  word : Keyword Rule.clauseWords
  value : Value

/-- The name for a result, with the words in front of it. -/
structure ResultName where
  first : Keyword ["store", "in"]
  more : List (Keyword ["store", "in"])
  name : String

/-- The parameters of a function, with the word in front of them. -/
structure Parameters where
  word : Keyword ["parameter", "parameters"]
  names : List String

/-- A sentence of the grammar. Flags say of a word that may be left out whether it is said. A body
that is left out says nothing. -/
inductive Sentence where
  | nothing
  | remark (first : Token) (more : List Token)
  | createList (name : String) (saysValue : Bool) (items : List Value)
  | append (item : Value) (filler : List Token) (list : String)
  | define (word : Keyword ["define", "create"]) (name : String) (params : Option Parameters)
    (saysDo : Bool) (body : Sentence)
  | call (name : String) (saysValue : Bool) (args : List Value)
  | giveBack (value : Option Value)
  | repeatFor (counter : String) (first : Clause) (more : List Clause) (body : Sentence)
  | repeatWhile (condition : Comparison) (saysDo : Bool) (body : Sentence)
  | branch (condition : Comparison) (saysThen : Bool) (thenBody : Sentence)
  | branchElse (condition : Comparison) (saysThen : Bool) (thenBody elseBody : Sentence)
  | compute (operator : Keyword Vocabulary.arithmeticWords) (left : Value) (saysAnd : Bool)
    (right : Value) (result : Option ResultName)
  | increment (name : String) (amount : Option Value)
  | decrement (name : String) (amount : Option Value)
  | read (name : String)
  | create (saysVariable : Bool) (name : String) (saysValue saysTo : Bool) (value : Option Value)
  | assign (name : String) (link : Option (Keyword ["to", "value"])) (saysTo : Bool) (value : Value)
  | print (first : Value) (more : List Value)

namespace Sentence

open PlainCode.Token (optional skipWord skipOneOf skipWord_optional)
open PlainCode.Rule (leaves)

/-! ## Tokens and meanings -/

/-- The tokens of values. -/
def valueTokens (vs : List Value) : List Token := vs.map (·.1)

/-- The texts of values. -/
def valueLeaves (vs : List Value) : List Leaf := vs.map fun v => some v.1.spelling

/-- The tokens of a clause. -/
def clauseTokens (c : Clause) : List Token := [c.word.token, c.value.1]

/-- The tokens of parameters. -/
def paramTokens : Option Parameters → List Token
  | none => []
  | some ps => ps.word.token :: ps.names.map (⟨.identifier, ·⟩)

/-- The names of parameters. -/
def paramNames : Option Parameters → List String
  | none => []
  | some ps => ps.names

/-- The tokens of the name for a result. -/
def resultTokens : Option ResultName → List Token
  | none => []
  | some r => r.first.token :: (r.more.map Keyword.token ++ [⟨.identifier, r.name⟩])

/-- The tokens of an amount. -/
def amountTokens : Option Value → List Token
  | none => []
  | some v => [⟨.keyword, "by"⟩, v.1]

/-- The tokens of a sentence. -/
def tokens : Sentence → List Token
  | .nothing => []
  | .remark first more => ⟨.keyword, "comment"⟩ :: first :: more
  | .createList name saysValue items =>
    ⟨.keyword, "create"⟩ :: ⟨.keyword, "list"⟩ :: ⟨.identifier, name⟩ ::
      (optional "value" saysValue ++ valueTokens items)
  | .append item filler list =>
    ⟨.keyword, "append"⟩ :: item.1 :: (filler ++ [⟨.keyword, "to"⟩, ⟨.identifier, list⟩])
  | .define word name params saysDo body =>
    word.token :: ⟨.keyword, "function"⟩ :: ⟨.identifier, name⟩ ::
      (paramTokens params ++ (optional "do" saysDo ++ body.tokens))
  | .call name saysValue args =>
    ⟨.keyword, "call"⟩ :: ⟨.identifier, name⟩ :: (optional "value" saysValue ++ valueTokens args)
  | .giveBack value => ⟨.keyword, "return"⟩ :: valueTokens value.toList
  | .repeatFor counter first more body =>
    ⟨.keyword, "for"⟩ :: ⟨.identifier, counter⟩ ::
      ((first :: more).flatMap clauseTokens ++ ⟨.keyword, "do"⟩ :: body.tokens)
  | .repeatWhile condition saysDo body =>
    ⟨.keyword, "while"⟩ :: (condition.tokens ++ (optional "do" saysDo ++ body.tokens))
  | .branch condition saysThen thenBody =>
    ⟨.keyword, "if"⟩ :: (condition.tokens ++ (optional "then" saysThen ++ thenBody.tokens))
  | .branchElse condition saysThen thenBody elseBody =>
    ⟨.keyword, "if"⟩ :: (condition.tokens ++ (optional "then" saysThen ++
      (thenBody.tokens ++ ⟨.keyword, "else"⟩ :: elseBody.tokens)))
  | .compute operator left saysAnd right result =>
    operator.token :: left.1 :: (optional "and" saysAnd ++ right.1 :: resultTokens result)
  | .increment name amount => ⟨.keyword, "increment"⟩ :: ⟨.identifier, name⟩ :: amountTokens amount
  | .decrement name amount => ⟨.keyword, "decrement"⟩ :: ⟨.identifier, name⟩ :: amountTokens amount
  | .read name => [⟨.keyword, "input"⟩, ⟨.identifier, name⟩]
  | .create saysVariable name saysValue saysTo value =>
    ⟨.keyword, "create"⟩ :: (optional "variable" saysVariable ++ ⟨.identifier, name⟩ ::
      (optional "value" saysValue ++ (optional "to" saysTo ++ valueTokens value.toList)))
  | .assign name link saysTo value =>
    ⟨.keyword, "set"⟩ :: ⟨.identifier, name⟩ ::
      (link.toList.map Keyword.token ++ (optional "to" saysTo ++ [value.1]))
  | .print first more => ⟨.keyword, "print"⟩ :: valueTokens (first :: more)

/-- The value of the last clause of a word. -/
def lastClause (word : String) (cs : List Clause) : Option String :=
  ((cs.filter fun c => c.word.word == word).getLast?).map fun c => c.value.1.spelling

/-- The command that a sentence means. -/
def command : Sentence → Command
  | .nothing => .hole
  | .remark first more => .remark (some (" ".intercalate ((first :: more).map Token.value)))
  | .createList name _ items => .createList (some name) (some (valueLeaves items))
  | .append item _ list => .append (some list) (some item.1.spelling)
  | .define _ name params _ body =>
    .define (some name) (some ((paramNames params).map some)) body.command
  | .call name _ args => .call (some name) (some (valueLeaves args))
  | .giveBack value => .giveBack (value.map fun v => v.1.spelling)
  | .repeatFor counter first more body =>
    .repeatFor (some counter) (lastClause "from" (first :: more)) (lastClause "to" (first :: more))
      (some ((lastClause "by" (first :: more)).getD "1")) body.command
  | .repeatWhile condition _ body => .repeatWhile (some condition.condition) body.command
  | .branch condition _ thenBody => .branch (some condition.condition) thenBody.command .hole
  | .branchElse condition _ thenBody elseBody =>
    .branch (some condition.condition) thenBody.command elseBody.command
  | .compute operator left _ right result =>
    .compute (some operator.word) (some left.1.spelling) (some right.1.spelling)
      (result.map ResultName.name)
  | .increment name amount =>
    .increment (some name) (some ((amount.map fun v => v.1.spelling).getD "1"))
  | .decrement name amount =>
    .decrement (some name) (some ((amount.map fun v => v.1.spelling).getD "1"))
  | .read name => .read (some name)
  | .create _ name _ _ value => .create (some name) (value.map fun v => v.1.spelling)
  | .assign name _ _ value => .assign (some name) (some value.1.spelling)
  | .print first more => .print (some (valueLeaves (first :: more)))

/-- What is asked of a sentence: its loops have a start and a stop, and no `to` or `else` stands
where a rule would take it for its own. -/
def Admissible : Sentence → Prop
  | .append _ filler _ => ∀ t ∈ filler, t.isWord "to" = false
  | .define _ _ _ _ body => body.Admissible
  | .repeatFor _ first more body =>
    (∃ c ∈ first :: more, c.word.word = "from") ∧ (∃ c ∈ first :: more, c.word.word = "to") ∧
      body.Admissible
  | .repeatWhile _ _ body => body.Admissible
  | .branch _ _ thenBody => (∀ t ∈ thenBody.tokens, t.isWord "else" = false) ∧ thenBody.Admissible
  | .branchElse _ _ thenBody elseBody =>
    (∀ t ∈ thenBody.tokens, t.isWord "else" = false) ∧ thenBody.Admissible ∧ elseBody.Admissible
  | _ => True

/-- Whether a sentence is admissible can be found out. -/
def decideAdmissible : (s : Sentence) → Decidable s.Admissible
  | .append _ filler _ => inferInstanceAs (Decidable (∀ t ∈ filler, t.isWord "to" = false))
  | .define _ _ _ _ body => decideAdmissible body
  | .repeatFor _ _ _ body =>
    have := decideAdmissible body
    inferInstanceAs (Decidable (_ ∧ _ ∧ body.Admissible))
  | .repeatWhile _ _ body => decideAdmissible body
  | .branch _ _ thenBody =>
    have := decideAdmissible thenBody
    inferInstanceAs (Decidable (_ ∧ thenBody.Admissible))
  | .branchElse _ _ thenBody elseBody =>
    have := decideAdmissible thenBody
    have := decideAdmissible elseBody
    inferInstanceAs (Decidable (_ ∧ thenBody.Admissible ∧ elseBody.Admissible))
  | .nothing | .remark .. | .createList .. | .call .. | .giveBack .. | .compute .. | .increment ..
  | .decrement .. | .read .. | .create .. | .assign .. | .print .. => .isTrue trivial

instance : DecidablePred Admissible := decideAdmissible

/-! ## The first word -/

/-- The words that sentences begin with. -/
def leadWords : List String :=
  ["comment", "create", "append", "define", "call", "return", "for", "while", "if", "increment",
    "decrement", "input", "set", "print"] ++ Vocabulary.arithmeticWords

/-- A sentence begins with one of its words. -/
theorem head_tokens (s : Sentence) :
    ∀ t ∈ s.tokens.head?, ∃ word ∈ leadWords, t = ⟨.keyword, word⟩ := by
  intro t ht
  -- two forms have a choice of their first word, all others begin with the same one
  cases s with
  | nothing => cases ht
  | define word =>
    obtain ⟨word, hword⟩ := word
    have hall : ∀ w ∈ ["define", "create"], w ∈ leadWords := by decide
    cases ht
    exact ⟨word, hall word hword, rfl⟩
  | compute operator =>
    cases ht
    exact ⟨operator.word, List.mem_append_right _ operator.mem, rfl⟩
  | _ => cases ht; exact ⟨_, by decide, rfl⟩

/-- The rest of a sentence: a word that may be left out, and then a body. It begins with that word
or with one of the words of sentences. -/
theorem head_body {word : String} {said : Bool} {s : Sentence} :
    ∀ t ∈ (optional word said ++ s.tokens).head?, ∃ w ∈ word :: leadWords, t = ⟨.keyword, w⟩ := by
  intro t ht
  cases said with
  | true => cases ht; exact ⟨word, List.mem_cons_self .., rfl⟩
  | false =>
    obtain ⟨w, hw, rfl⟩ := head_tokens s t ht
    exact ⟨w, List.mem_cons_of_mem _ hw, rfl⟩

theorem isWord_of_ne {word w : String} (h : w ≠ word) :
    Token.isWord word ⟨.keyword, w⟩ = false := by
  simp [Token.isWord, h]

/-- A body is no word that may stand in front of it. -/
theorem skipWord_body {word : String} (hword : word ∉ leadWords) (said : Bool) (s : Sentence) :
    skipWord word (optional word said ++ s.tokens) = s.tokens := by
  apply skipWord_optional
  intro t ht
  obtain ⟨w, hw, rfl⟩ := head_tokens s t ht
  exact isWord_of_ne fun heq => hword (heq ▸ hw)

/-! ## Values and names in a row -/

theorem leaves_valueTokens (vs : List Value) : leaves (valueTokens vs) = valueLeaves vs := by
  have hall : (valueTokens vs).filter Token.isValue = valueTokens vs := by
    rw [List.filter_eq_self]
    intro t ht
    obtain ⟨v, _, rfl⟩ := List.mem_map.mp ht
    exact v.2
  rw [leaves, Token.values, hall, valueTokens, valueLeaves, List.map_map, List.map_map]
  rfl

theorem head_valueTokens {vs : List Value} {t : Token} (h : t ∈ (valueTokens vs).head?) :
    t.isValue = true := by
  cases vs with
  | nil => cases h
  | cons v vs => cases h; exact v.2

/-- Values are no keyword. -/
theorem skipWord_values (word : String) (said : Bool) (vs : List Value) :
    skipWord word (optional word said ++ valueTokens vs) = valueTokens vs :=
  skipWord_optional said fun _ ht => Token.isWord_of_isValue (head_valueTokens ht) word

private theorem value?_valueTokens (value : Option Value) :
    (Token.value? (valueTokens value.toList)).map (·.1) = value.map fun v => v.1.spelling := by
  cases value with
  | none => rfl
  | some v =>
    show (Token.value? [v.1]).map (·.1) = _
    rw [Condition.value?_eq_some_iff.mpr ⟨v, rfl, rfl⟩]
    rfl

/-- The names of parameters end where a body begins. -/
private theorem params_paramTokens (params : Option Parameters) (said : Bool) (s : Sentence) :
    Rule.params (paramTokens params ++ (optional "do" said ++ s.tokens))
      = (paramNames params, optional "do" said ++ s.tokens) := by
  have hleads : ∀ w ∈ "do" :: leadWords, ["parameter", "parameters"].contains w = false := by
    decide
  cases params with
  | none =>
    -- the rest begins with a word that announces no parameters
    show Rule.params (optional "do" said ++ s.tokens) = ([], optional "do" said ++ s.tokens)
    cases hrest : optional "do" said ++ s.tokens with
    | nil => rfl
    | cons t ts =>
      obtain ⟨w, hw, rfl⟩ := head_body t (by rw [hrest]; rfl)
      rw [Rule.params, if_neg]
      rw [Token.isOneOf, hleads w hw, Bool.and_false]
      exact Bool.false_ne_true
  | some ps =>
    obtain ⟨⟨word, hword⟩, names⟩ := ps
    have hparams : Token.isOneOf ["parameter", "parameters"] ⟨.keyword, word⟩ = true := by
      simpa [Token.isOneOf] using hword
    have hnames : ∀ t ∈ names.map (Token.mk .identifier), t.isName = true := by
      intro t ht
      obtain ⟨name, _, rfl⟩ := List.mem_map.mp ht
      rfl
    -- behind the names there is a keyword or nothing, and neither is a name
    have hstop : ∀ p : Token → Bool, (∀ w, p ⟨.keyword, w⟩ = false) →
        (optional "do" said ++ s.tokens).takeWhile p = [] ∧
        (optional "do" said ++ s.tokens).dropWhile p = optional "do" said ++ s.tokens := by
      intro p hp
      cases hrest : optional "do" said ++ s.tokens with
      | nil => exact ⟨rfl, rfl⟩
      | cons t ts =>
        obtain ⟨w, _, rfl⟩ := head_body t (by rw [hrest]; rfl)
        rw [List.takeWhile_cons, List.dropWhile_cons, hp w]
        exact ⟨rfl, rfl⟩
    obtain ⟨htake, hdrop⟩ := hstop Token.isName fun _ => rfl
    show Rule.params (⟨.keyword, word⟩ :: (names.map (Token.mk .identifier) ++ _)) = _
    rw [Rule.params, if_pos hparams, List.takeWhile_append_of_pos hnames,
      List.dropWhile_append_of_pos hnames, htake, hdrop, List.append_nil, List.map_map]
    exact congrArg (·, _) (List.map_id names)

/-- The name of a list is found behind everything that has no `to` in it. -/
theorem target?_filler (list : String) : ∀ {filler : List Token},
    (∀ t ∈ filler, t.isWord "to" = false) →
      Rule.target? (filler ++ [⟨.keyword, "to"⟩, ⟨.identifier, list⟩]) = some list
  | [], _ => rfl
  | t :: filler, h => by
    have ht : t.isWord "to" = false := h t (List.mem_cons_self ..)
    have hrest := target?_filler list fun u hu => h u (List.mem_cons_of_mem _ hu)
    -- the search looks at two tokens at a time, so the last one of the filler is its own case
    cases filler with
    | nil =>
      show Rule.target? (t :: ⟨.keyword, "to"⟩ :: _) = _
      rw [Rule.target?, ht]
      exact hrest
    | cons u filler =>
      show Rule.target? (t :: u :: (filler ++ _)) = _
      rw [Rule.target?, ht]
      exact hrest

/-! ## Clauses -/

/-- The bounds that clauses set, one after the other. -/
def boundsOf (b : Rule.Bounds) (cs : List Clause) : Rule.Bounds :=
  cs.foldl (fun b c => b.set c.word.word c.value.1.spelling) b

theorem clauses?_tokens (body : List Token) : ∀ (cs : List Clause) (b : Rule.Bounds),
    Rule.clauses? b (cs.flatMap clauseTokens ++ ⟨.keyword, "do"⟩ :: body)
      = some (boundsOf b cs, body)
  | [], b => by
    show Rule.clauses? b (⟨.keyword, "do"⟩ :: body) = _
    unfold Rule.clauses?
    rw [if_neg (by decide), if_pos (Token.isWord_keyword "do")]
    rfl
  | c :: cs, b => by
    have hword : c.word.token.isOneOf Rule.clauseWords = true := by
      simpa [Token.isOneOf, Keyword.token] using c.word.mem
    show Rule.clauses? b (c.word.token :: c.value.1 ::
      (cs.flatMap clauseTokens ++ ⟨.keyword, "do"⟩ :: body)) = _
    unfold Rule.clauses?
    rw [if_pos hword]
    dsimp only
    rw [if_pos c.value.2]
    exact clauses?_tokens body cs _

/-- A clause counts if no later one of its word does. -/
theorem lastClause_cons (word : String) (c : Clause) (cs : List Clause) :
    lastClause word (c :: cs) = (lastClause word cs).or
      (if c.word.word = word then some c.value.1.spelling else none) := by
  unfold lastClause
  by_cases hword : c.word.word = word
  · rw [List.filter_cons_of_pos (by simpa using hword), if_pos hword, List.getLast?_cons]
    cases (cs.filter fun c => c.word.word == word).getLast? with
    | none => rfl
    | some last => rfl
  · rw [List.filter_cons_of_neg (by simpa using hword), if_neg hword, Option.or_none]

/-- The last clause of each word sets its bound. -/
theorem boundsOf_eq : ∀ (cs : List Clause) (b : Rule.Bounds),
    boundsOf b cs = ⟨(lastClause "from" cs).or b.start, (lastClause "to" cs).or b.stop,
      (lastClause "by" cs).or b.step⟩
  | [], _ => rfl
  | c :: cs, b => by
    show boundsOf (b.set c.word.word c.value.1.spelling) cs = _
    rw [boundsOf_eq cs, lastClause_cons, lastClause_cons, lastClause_cons]
    obtain ⟨⟨word, hword⟩, value⟩ := c
    simp only [Rule.clauseWords, List.mem_cons, List.not_mem_nil, or_false] at hword
    -- each word sets its own bound and leaves the other two
    rcases hword with rfl | rfl | rfl
    · simp [Rule.Bounds.set]
    · simp [Rule.Bounds.set]
    · simp [Rule.Bounds.set]

theorem exists_lastClause {word : String} {cs : List Clause}
    (h : ∃ c ∈ cs, c.word.word = word) : ∃ value, lastClause word cs = some value := by
  obtain ⟨c, hc, hword⟩ := h
  have hne : (cs.filter fun c => c.word.word == word) ≠ [] :=
    List.ne_nil_of_mem (List.mem_filter.mpr ⟨hc, by simpa using hword⟩)
  refine ⟨((cs.filter fun c => c.word.word == word).getLast hne).value.1.spelling, ?_⟩
  rw [lastClause, List.getLast?_eq_some_getLast hne]
  rfl

/-! ## Calculations and assignments -/

/-- The name for a result ends a calculation. -/
theorem operands_result (right : Option String) (result : Option ResultName) :
    Rule.operands right (resultTokens result) = (right, result.map ResultName.name) := by
  cases result with
  | none => rfl
  | some r =>
    obtain ⟨⟨word, hword⟩, more, name⟩ := r
    have hand : Token.isWord "and" ⟨.keyword, word⟩ = false := by
      apply isWord_of_ne
      rintro rfl
      exact absurd hword (by decide)
    have hstore : Token.isOneOf ["store", "in"] ⟨.keyword, word⟩ = true := by
      simpa [Token.isOneOf] using hword
    have hname : Rule.firstName? (more.map Keyword.token ++ [⟨.identifier, name⟩]) = some name := by
      have hnone : (more.map Keyword.token).find? Token.isName = none := by
        rw [List.find?_eq_none]
        intro t ht
        obtain ⟨k, _, rfl⟩ := List.mem_map.mp ht
        exact Bool.false_ne_true
      rw [Rule.firstName?, List.find?_append, hnone]
      rfl
    show Rule.operands right (⟨.keyword, word⟩ :: (more.map Keyword.token ++ _)) = _
    unfold Rule.operands
    rw [if_neg (by rw [hand]; exact fun h => Bool.false_ne_true h.1), if_pos hstore, hname]
    rfl

private theorem operands_tokens (saysAnd : Bool) (right : Value) (result : Option ResultName) :
    Rule.operands none (optional "and" saysAnd ++ right.1 :: resultTokens result)
      = (some right.1.spelling, result.map ResultName.name) := by
  cases saysAnd with
  | false =>
    show Rule.operands none (right.1 :: resultTokens result) = _
    unfold Rule.operands
    rw [if_neg (by rw [Token.isWord_of_isValue right.2]; exact fun h => Bool.false_ne_true h.1),
      if_neg (by rw [Token.isOneOf_of_isValue right.2]; exact Bool.false_ne_true),
      if_pos (by rw [right.2]; rfl), operands_result]
  | true =>
    show Rule.operands none (⟨.keyword, "and"⟩ :: right.1 :: resultTokens result) = _
    unfold Rule.operands
    rw [if_pos ⟨rfl, by simpa using right.2⟩]
    exact operands_result _ _

theorem amount_amountTokens (amount : Option Value) :
    Rule.amount (amountTokens amount) = (amount.map fun v => v.1.spelling).getD "1" := by
  cases amount with
  | none => rfl
  | some v =>
    show Rule.amount [⟨.keyword, "by"⟩, v.1] = v.1.spelling
    rw [Rule.amount, if_pos v.2]

/-- Whichever words stand between a name and its value, they are passed over. -/
private theorem skip_assign (link : Option (Keyword ["to", "value"])) (saysTo : Bool) (v : Value) :
    skipWord "to" (skipOneOf ["to", "value"]
      (link.toList.map Keyword.token ++ (optional "to" saysTo ++ [v.1]))) = [v.1] := by
  have hvalue : ∀ said, skipWord "to" (optional "to" said ++ [v.1]) = [v.1] := fun said =>
    skipWord_values "to" said [v]
  cases link with
  | none =>
    cases saysTo with
    | false =>
      show skipWord "to" (skipOneOf ["to", "value"] [v.1]) = [v.1]
      rw [skipOneOf, Token.isOneOf_of_isValue v.2]
      exact hvalue false
    | true => exact hvalue false
  | some k =>
    have hk : k.token.isOneOf ["to", "value"] = true := by
      simpa [Token.isOneOf, Keyword.token] using k.mem
    show skipWord "to" (skipOneOf ["to", "value"] (k.token :: (optional "to" saysTo ++ [v.1]))) = _
    rw [skipOneOf, if_pos hk]
    exact hvalue saysTo

/-- Whichever words stand between a name and its first value, they are passed over. -/
private theorem skip_create (saysValue saysTo : Bool) (vs : List Value) :
    skipWord "to" (skipWord "value" (optional "value" saysValue ++
      (optional "to" saysTo ++ valueTokens vs))) = valueTokens vs := by
  have hhead : ∀ t ∈ (optional "to" saysTo ++ valueTokens vs).head?, t.isWord "value" = false := by
    intro t ht
    cases saysTo with
    | true => cases ht; rfl
    | false => exact Token.isWord_of_isValue (head_valueTokens ht) "value"
  rw [skipWord_optional saysValue hhead, skipWord_values]

/-! ## Bodies of a choice -/

/-- The bodies of a choice are parted by its `else`, or there is only one. -/
theorem reads_branch (c : Comparison) (said : Bool) {thenBody : Sentence}
    (h : ∀ t ∈ thenBody.tokens, t.isWord "else" = false) (tail : List Token)
    (htail : ∀ t ∈ tail.head?, t = ⟨.keyword, "else"⟩) :
    Rule.branch.Reads
      (⟨.keyword, "if"⟩ :: (c.tokens ++ (optional "then" said ++ (thenBody.tokens ++ tail))))
      ⟨.branch (some c.condition) .hole .hole,
        [(.thenBody, thenBody.tokens), (.elseBody, tail.drop 1)]⟩ := by
  -- the body begins with a word of sentences, and if there is none, the rest with `else`
  have hhead : ∀ t ∈ (thenBody.tokens ++ tail).head?, t.isWord "then" = false := by
    intro t ht
    rw [List.head?_append] at ht
    cases hthen : thenBody.tokens.head? with
    | none =>
      rw [hthen] at ht
      rw [htail t ht]
      rfl
    | some u =>
      rw [hthen] at ht
      cases ht
      obtain ⟨w, hw, rfl⟩ := head_tokens thenBody t hthen
      exact isWord_of_ne fun heq => absurd hw (heq ▸ by decide)
  have hpos : ∀ t ∈ thenBody.tokens, (!t.isWord "else") = true := fun t ht => by rw [h t ht]; rfl
  have hends : tail.takeWhile (fun t => !t.isWord "else") = [] ∧
      tail.dropWhile (fun t => !t.isWord "else") = tail := by
    cases tail with
    | nil => exact ⟨rfl, rfl⟩
    | cons t ts => rw [htail t rfl]; exact ⟨rfl, rfl⟩
  have hread := Rule.Reads.branch c (optional "then" said ++ (thenBody.tokens ++ tail))
  rwa [skipWord_optional said hhead, List.takeWhile_append_of_pos hpos,
    List.dropWhile_append_of_pos hpos, hends.1, hends.2, List.append_nil] at hread

/-! ## Reading sentences -/

/-- A body is read as its command, unless it says nothing. -/
def IsRead (body : Sentence) : Prop :=
  body ≠ .nothing → ∃ rule, parse grammar body.tokens = .ok ⟨rule, body.command, []⟩

/-- Where a body is read as its command, its tokens fill a slot with that command. -/
theorem fillSlots_tokens {s : Sentence} {c : Command} {slot : Slot} (hs : s.IsRead)
    (hc : c.fill slot .hole = c) (rest : List (Slot × List Token)) :
    Parsed.fillSlots (parse grammar) ((slot, s.tokens) :: rest) c
      = Parsed.fillSlots (parse grammar) rest (c.fill slot s.command) := by
  by_cases hnothing : s = .nothing
  · -- there are no tokens, and the slot is passed over
    subst hnothing
    show Parsed.fillSlots (parse grammar) rest c = _
    rw [command, hc]
  · obtain ⟨rule, hparse⟩ := hs hnothing
    have htokens : ¬ s.tokens.isEmpty = true := by
      intro hempty
      rw [List.isEmpty_iff.mp hempty] at hparse
      cases hparse
    rw [Parsed.fillSlots, if_neg htokens, hparse]
    rfl

/-- A sentence without bodies is read as soon as a rule reads it. -/
theorem parse_of_reads_simple {rule : Rule} {ts : List Token} {c : Command}
    (h : rule.Reads ts ⟨c, []⟩) (hrule : rule ∈ grammar) :
    ∃ rule, parse grammar ts = .ok ⟨rule, c, []⟩ :=
  ⟨rule, parse_of_reads hrule h⟩

/-- A sentence with one body is read as soon as its body is. -/
theorem parse_of_reads_body {rule : Rule} {ts : List Token} {c : Command} {slot : Slot}
    {body : Sentence} (h : rule.Reads ts ⟨c, [(slot, body.tokens)]⟩) (hrule : rule ∈ grammar)
    (hc : c.fill slot .hole = c) (hbody : body.IsRead) :
    ∃ rule, parse grammar ts = .ok ⟨rule, c.fill slot body.command, []⟩ := by
  refine ⟨rule, ?_⟩
  rw [parse_of_reads hrule h, fillSlots_tokens hbody hc]
  rfl

/-- A choice is read as soon as its two bodies are. -/
theorem parse_of_reads_bodies {ts : List Token} {c : Condition} (thenBody elseBody : Sentence)
    (h : Rule.branch.Reads ts ⟨.branch (some c) .hole .hole,
      [(.thenBody, thenBody.tokens), (.elseBody, elseBody.tokens)]⟩)
    (hthen : thenBody.IsRead) (helse : elseBody.IsRead) :
    ∃ rule, parse grammar ts =
      .ok ⟨rule, .branch (some c) thenBody.command elseBody.command, []⟩ := by
  refine ⟨.branch, ?_⟩
  rw [parse_of_reads (by decide) h, fillSlots_tokens hthen rfl, fillSlots_tokens helse rfl]
  rfl

/-- The tokens of every admissible sentence are read as the command that it means, and there is
nothing to warn of. -/
theorem parse_sentence (s : Sentence) (hs : s ≠ .nothing) (h : s.Admissible) :
    ∃ rule, parse grammar s.tokens = .ok ⟨rule, s.command, []⟩ := by
  -- by induction on the sentence: one rule reads it with its bodies as spans, and these are read
  -- as their commands
  induction s with
  | nothing => exact absurd rfl hs
  | remark first more => exact parse_of_reads_simple (.remark first more) (by decide)
  | createList name saysValue items =>
    have hread := Rule.Reads.createList name (optional "value" saysValue ++ valueTokens items)
    rw [skipWord_values, leaves_valueTokens] at hread
    exact parse_of_reads_simple hread (by decide)
  | append item filler list =>
    exact parse_of_reads_simple (.append item (target?_filler list h)) (by decide)
  | define word name params saysDo body ih =>
    have hword : word.word = "define" ∨ word.word = "create" := by
      simpa using word.mem
    have hread := Rule.Reads.define hword name
      (paramTokens params ++ (optional "do" saysDo ++ body.tokens))
    rw [params_paramTokens, skipWord_body (by decide)] at hread
    exact parse_of_reads_body hread (by decide) rfl fun hbody => ih hbody h
  | call name saysValue args =>
    have hread := Rule.Reads.call name (optional "value" saysValue ++ valueTokens args)
    rw [skipWord_values, leaves_valueTokens] at hread
    exact parse_of_reads_simple hread (by decide)
  | giveBack value =>
    have hread := Rule.Reads.giveBack (valueTokens value.toList)
    rw [value?_valueTokens] at hread
    exact parse_of_reads_simple hread (by decide)
  | repeatFor counter first more body ih =>
    obtain ⟨hfrom, hto, hbody⟩ := h
    obtain ⟨start, hstart⟩ := exists_lastClause hfrom
    obtain ⟨stop, hstop⟩ := exists_lastClause hto
    have hclauses := clauses?_tokens body.tokens (first :: more) {}
    rw [boundsOf_eq, hstart, hstop, Option.some_or, Option.some_or, Option.or_none] at hclauses
    rw [command, hstart, hstop]
    exact parse_of_reads_body (.repeatFor counter hclauses) (by decide) rfl fun hne => ih hne hbody
  | repeatWhile condition saysDo body ih =>
    have hread := Rule.Reads.repeatWhile condition (optional "do" saysDo ++ body.tokens)
    rw [skipWord_body (by decide)] at hread
    exact parse_of_reads_body hread (by decide) rfl fun hbody => ih hbody h
  | branch condition saysThen thenBody ih =>
    obtain ⟨helse, hthen⟩ := h
    have hread := reads_branch condition saysThen helse [] (fun _ ht => by cases ht)
    rw [List.append_nil] at hread
    exact parse_of_reads_bodies thenBody .nothing hread (fun hne => ih hne hthen)
      (fun hne => absurd rfl hne)
  | branchElse condition saysThen thenBody elseBody ihThen ihElse =>
    obtain ⟨helse, hthen, helseBody⟩ := h
    have hread := reads_branch condition saysThen helse
      (⟨.keyword, "else"⟩ :: elseBody.tokens) (fun _ ht => by cases ht; rfl)
    exact parse_of_reads_bodies thenBody elseBody hread (fun hne => ihThen hne hthen)
      (fun hne => ihElse hne helseBody)
  | compute operator left saysAnd right result =>
    exact parse_of_reads_simple
      (.compute left operator.mem (operands_tokens saysAnd right result)) (by decide)
  | increment name amount =>
    have hread := Rule.Reads.increment name (amountTokens amount)
    rw [amount_amountTokens] at hread
    exact parse_of_reads_simple hread (by decide)
  | decrement name amount =>
    have hread := Rule.Reads.decrement name (amountTokens amount)
    rw [amount_amountTokens] at hread
    exact parse_of_reads_simple hread (by decide)
  | read name => exact parse_of_reads_simple (.read name []) (by decide)
  | create saysVariable name saysValue saysTo value =>
    have hname : ∀ rest, skipWord "variable" (optional "variable" saysVariable ++
        ⟨.identifier, name⟩ :: rest) = ⟨.identifier, name⟩ :: rest := fun rest =>
      skipWord_optional saysVariable fun t ht => by cases ht; rfl
    have hskip := skip_create saysValue saysTo value.toList
    cases value with
    | none => exact parse_of_reads_simple (.createEmpty (hname _) hskip) (by decide)
    | some v => exact parse_of_reads_simple (.create v (hname _) hskip) (by decide)
  | assign name link saysTo value =>
    exact parse_of_reads_simple (.assign name value (skip_assign link saysTo value)) (by decide)
  | print first more =>
    have hleaves : leaves (valueTokens (first :: more)) ≠ [] := by
      rw [leaves_valueTokens]
      exact List.cons_ne_nil _ _
    have hread := Rule.Reads.print hleaves
    rw [leaves_valueTokens] at hread
    exact parse_of_reads_simple hread (by decide)

/-- A counting loop, which sets its start twice, and a loop with a condition, in a choice. -/
theorem parse_sentence_nested : ∃ s : Sentence, s ≠ .nothing ∧ s.Admissible ∧
    s.tokens = [⟨.keyword, "if"⟩, ⟨.identifier, "x"⟩, ⟨.keyword, "greater"⟩, ⟨.number, "5"⟩,
      ⟨.keyword, "then"⟩, ⟨.keyword, "for"⟩, ⟨.identifier, "i"⟩, ⟨.keyword, "from"⟩, ⟨.number, "1"⟩,
      ⟨.keyword, "to"⟩, ⟨.number, "3"⟩, ⟨.keyword, "from"⟩, ⟨.number, "2"⟩, ⟨.keyword, "do"⟩,
      ⟨.keyword, "print"⟩, ⟨.string, "hi"⟩, ⟨.keyword, "else"⟩, ⟨.keyword, "while"⟩,
      ⟨.identifier, "y"⟩, ⟨.keyword, "not"⟩, ⟨.keyword, "value"⟩, ⟨.boolean, "true"⟩,
      ⟨.keyword, "increment"⟩, ⟨.identifier, "x"⟩] ∧
    ∃ rule, parse grammar s.tokens = .ok ⟨rule, .branch (some ⟨some "x", some "greater", some "5"⟩)
      (.repeatFor (some "i") (some "2") (some "3") (some "1") (.print (some [some "\"hi\""])))
      (.repeatWhile (some ⟨some "y", some "not_equal", some "true"⟩)
        (.increment (some "x") (some "1"))), []⟩ := by
  let loop : Sentence := .repeatFor "i" ⟨⟨"from", by decide⟩, ⟨⟨.number, "1"⟩, rfl⟩⟩
    [⟨⟨"to", by decide⟩, ⟨⟨.number, "3"⟩, rfl⟩⟩, ⟨⟨"from", by decide⟩, ⟨⟨.number, "2"⟩, rfl⟩⟩]
    (.print ⟨⟨.string, "hi"⟩, rfl⟩ [])
  let wait : Sentence := .repeatWhile ⟨⟨⟨.identifier, "y"⟩, rfl⟩, .notValue false,
    ⟨⟨.boolean, "true"⟩, rfl⟩⟩ false (.increment "x" none)
  let choice : Sentence := .branchElse ⟨⟨⟨.identifier, "x"⟩, rfl⟩, .greater false,
    ⟨⟨.number, "5"⟩, rfl⟩⟩ true loop wait
  have hne : choice ≠ .nothing := nofun
  have hadmissible : choice.Admissible := by decide
  exact ⟨choice, hne, hadmissible, rfl, parse_sentence choice hne hadmissible⟩

end Sentence

end PlainCode
