import PlainCode.Proofs.OneLine

/-!
# Statements and headers

Every command begins with a line of its own: the statement that it is, or the header of its block
(`Code.firstText`). For commands without newlines that is one line indeed, whatever the language,
and it is never blank, since every form has some sign or word that is always written
(`isLine_firstText`).
-/

namespace PlainCode

namespace Text

/-- A text that is one line, and not a blank one. -/
def IsLine (s : String) : Prop := OneLine s ∧ blank s = false

instance : DecidablePred IsLine := fun _ => inferInstanceAs (Decidable (_ ∧ _))

/-- A text is not blank if its front is not. -/
theorem blank_append_left {a b : String} (h : blank a = false) : blank (a ++ b) = false := by
  rw [blank] at h
  rw [blank, String.toList_append, List.all_append, h, Bool.false_and]

/-- A text is not blank if its end is not. -/
theorem blank_append_right {a b : String} (h : blank b = false) : blank (a ++ b) = false := by
  rw [blank] at h
  rw [blank, String.toList_append, List.all_append, h, Bool.and_false]

end Text

open PlainCode.Text (OneLine blank blank_append_left blank_append_right oneLine_append
  oneLine_intercalate oneLine_ofList)

theorem Leaf.OneLine.shown {leaf : Leaf} (h : leaf.OneLine) : Text.OneLine leaf.shown := by
  cases leaf with
  | none => decide
  | some s => exact h s rfl

/-! ## Values, signs and types -/

namespace Target

theorem oneLine_value (t : Target) {leaf : Leaf} (h : leaf.OneLine) : OneLine (t.value leaf) := by
  have htruth : ∀ b, OneLine (t.truth b) := by cases t <;> decide
  cases leaf with
  | none => cases t <;> decide
  | some s =>
    rw [value]
    split
    next => exact htruth true
    next =>
      split
      next => exact htruth false
      next => exact h s rfl

theorem oneLine_values (t : Target) {between : String} (hbetween : OneLine between)
    {vs : List Leaf} (h : ∀ v ∈ vs, v.OneLine) : OneLine (t.values between vs) := by
  refine oneLine_intercalate hbetween fun text htext => ?_
  obtain ⟨v, hv, rfl⟩ := List.mem_map.mp htext
  exact t.oneLine_value (h v hv)

end Target

/-- The signs that there are. -/
def signs : List String := [">", "<", "==", "!=", "+", "-", "*", "/", "%"]

theorem Condition.mem_signs {operator : Leaf} {sign : String} (h : sign? operator = some sign) :
    sign ∈ signs := by
  unfold sign? at h
  split at h <;> cases h <;> decide

theorem Command.mem_signs {operator : Leaf} {sign : String} (h : sign? operator = some sign) :
    sign ∈ signs := by
  unfold sign? at h
  split at h <;> cases h <;> decide

theorem isLine_of_mem_signs : ∀ sign ∈ signs, Text.IsLine sign := by decide

/-- An operator is written on one line, as a sign or as it is. -/
theorem oneLine_sign {sign : Option String} {operator : Leaf} (hsign : ∀ s ∈ sign, s ∈ signs)
    (h : operator.OneLine) : OneLine (sign.getD operator.shown) := by
  cases sign with
  | none => exact h.shown
  | some s => exact (isLine_of_mem_signs s (hsign s rfl)).1

namespace Code

/-! ## Simple commands -/

section

variable (t : Target)

theorem oneLine_condition {c : Condition} (h : ∀ leaf ∈ c.leaves, leaf.OneLine) :
    OneLine (condition t c) := by
  simp only [Condition.leaves, List.forall_mem_cons] at h
  have hsign : OneLine ((Condition.sign? c.operator).getD c.operator.shown) :=
    oneLine_sign (fun _ => Condition.mem_signs) h.2.1
  simp only [condition, oneLine_append, t.oneLine_value h.1, t.oneLine_value h.2.2.1, hsign,
    true_and, and_true]
  decide

private theorem oneLine_calculation {operator left right : Leaf} (hoperator : operator.OneLine)
    (hleft : left.OneLine) (hright : right.OneLine) :
    OneLine (calculation t operator left right) := by
  have hsign : OneLine ((Command.sign? operator).getD operator.shown) :=
    oneLine_sign (fun _ => Command.mem_signs) hoperator
  simp only [calculation, oneLine_append, t.oneLine_value hleft, t.oneLine_value hright, hsign,
    true_and, and_true]
  decide

theorem oneLine_statement {text : String} (h : OneLine text) : OneLine (statement t text) := by
  have hend : OneLine t.terminator := by cases t <;> decide
  exact oneLine_append.mpr ⟨h, hend⟩

private theorem oneLine_creation {name value : Leaf} (hname : name.OneLine)
    (hvalue : value.OneLine) : OneLine (creation t name value) := by
  have hjava : ∀ k, OneLine (Target.javaType k) := by intro k; cases k <;> decide
  have hcpp : ∀ k, OneLine (Target.cppType k) := by intro k; cases k <;> decide
  cases t <;>
    simp only [creation, oneLine_append, hname.shown, Target.oneLine_value _ hvalue, hjava, hcpp,
      true_and, and_true] <;>
    decide

private theorem oneLine_printing {vs : List Leaf} (h : ∀ v ∈ vs, v.OneLine) :
    OneLine (printing t vs) := by
  have hvalues : ∀ between, OneLine between → OneLine (t.values between vs) :=
    fun _ hbetween => t.oneLine_values hbetween h
  unfold printing
  split
  next =>
    simp only [oneLine_append, hvalues ", " (by decide), and_true]
    decide
  next =>
    simp only [oneLine_append, hvalues " + \" \" + " (by decide), and_true]
    decide
  next =>
    simp only [oneLine_append, hvalues " << \" \" << " (by decide), and_true]
    decide

private theorem oneLine_counting {name amount : Leaf} {sign : String} (hname : name.OneLine)
    (hamount : amount.OneLine) (hsign : OneLine sign) :
    OneLine (counting t name amount sign) := by
  unfold counting
  split
  next =>
    simp only [oneLine_append, hname.shown, hsign, true_and]
    decide
  next =>
    apply oneLine_statement
    simp only [oneLine_append, hname.shown, hsign, t.oneLine_value hamount, true_and, and_true]
    decide

private theorem oneLine_listCreation {name : Leaf} {vs : List Leaf} (hname : name.OneLine)
    (h : ∀ v ∈ vs, v.OneLine) : OneLine (listCreation t name vs) := by
  have hjava : ∀ k, OneLine (Target.javaElement k) := by intro k; cases k <;> decide
  have hcpp : ∀ k, OneLine (Target.cppType k) := by intro k; cases k <;> decide
  have hitems : OneLine (t.values ", " vs) := t.oneLine_values (by decide) h
  unfold listCreation
  dsimp only
  split
  next =>
    simp only [oneLine_append, hname.shown, hitems, true_and, and_true]
    decide
  next =>
    split <;> simp only [oneLine_append, hname.shown, hitems, hjava, and_true] <;> decide
  next =>
    split
    next => split <;> simp only [oneLine_append, hname.shown, hitems, and_true] <;> decide
    next =>
      simp only [oneLine_append, hname.shown, hitems, hcpp, and_true]
      decide

theorem oneLine_comment {text : String} (h : OneLine text) : OneLine (comment t text) := by
  cases t <;> simp only [comment, Target.commentMark, oneLine_append, h, and_true] <;> decide

/-- The statement of a command without newlines is on one line. -/
theorem oneLine_simple {c : Command} (h : c.OneLine) : OneLine (simple t c) := by
  cases c with
  | create name value =>
    simp only [Command.OneLine, Command.leaves, List.forall_mem_cons] at h
    exact oneLine_creation t h.1 h.2.1
  | assign name value =>
    simp only [Command.OneLine, Command.leaves, List.forall_mem_cons] at h
    apply oneLine_statement
    simp only [oneLine_append, h.1.shown, t.oneLine_value h.2.1, true_and, and_true]
    decide
  | print values => exact oneLine_printing t h
  | read name =>
    simp only [Command.OneLine, Command.leaves, List.forall_mem_cons] at h
    cases t <;> simp only [simple, reading, oneLine_append, h.1.shown, true_and, and_true] <;>
      decide
  | compute operator left right result =>
    simp only [Command.OneLine, Command.leaves, List.forall_mem_cons] at h
    have hcalculation := oneLine_calculation t h.1 h.2.1 h.2.2.1
    simp only [simple]
    split
    next => exact oneLine_statement t hcalculation
    next => exact oneLine_statement t hcalculation
    next name _ =>
      apply oneLine_statement
      simp only [oneLine_append, Leaf.oneLine_some.mp h.2.2.2.1, hcalculation, true_and, and_true]
      decide
  | increment name amount | decrement name amount =>
    simp only [Command.OneLine, Command.leaves, List.forall_mem_cons] at h
    exact oneLine_counting t h.1 h.2.1 (by decide)
  | call name args =>
    rw [Command.OneLine, Command.leaves, List.forall_mem_cons] at h
    have hargs : OneLine (t.values ", " args.items) := t.oneLine_values (by decide) h.2
    apply oneLine_statement
    simp only [oneLine_append, h.1.shown, hargs, true_and, and_true]
    decide
  | giveBack value =>
    cases value with
    | none => exact oneLine_statement t (by decide)
    | some value =>
      rw [Command.OneLine, Command.leaves, List.forall_mem_singleton] at h
      apply oneLine_statement
      simp only [oneLine_append, t.oneLine_value h, and_true]
      decide
  | createList name values =>
    rw [Command.OneLine, Command.leaves, List.forall_mem_cons] at h
    exact oneLine_listCreation t h.1 h.2
  | append list value =>
    simp only [Command.OneLine, Command.leaves, List.forall_mem_cons] at h
    cases t <;>
      simp only [simple, appending, oneLine_append, h.1.shown, Target.oneLine_value _ h.2.1,
        true_and, and_true] <;>
      decide
  | remark text => exact oneLine_comment t (h _ (List.mem_singleton.mpr rfl)).shown
  | foreign form =>
    rw [Command.OneLine, Command.leaves, List.forall_mem_singleton, Leaf.oneLine_some] at h
    apply oneLine_comment
    simp only [oneLine_append, Command.form, h, and_true]
    decide
  -- forms that are no statements by themselves become comments with their names
  | hole | branch | repeatWhile | repeatFor | define | comparison =>
    apply oneLine_comment
    simp only [oneLine_append, Command.form]
    decide

private theorem blank_calculation {operator : Leaf} (h : (Command.sign? operator).isSome = true)
    (left right : Leaf) : blank (calculation t operator left right) = false := by
  obtain ⟨sign, hsign⟩ := Option.isSome_iff_exists.mp h
  have hline := isLine_of_mem_signs sign (Command.mem_signs hsign)
  rw [calculation, hsign]
  exact blank_append_left (blank_append_left (blank_append_right hline.2))

/-- The statement of a proper command has something to see in it, whatever its texts are. -/
private theorem blank_simple {c : Command} (h : c.Proper) : blank (simple t c) = false := by
  have hmark : ∀ text, blank (comment t text) = false := fun text =>
    blank_append_left (blank_append_left (by cases t <;> decide))
  cases c with
  | create =>
    -- in Python there is an `=`, and elsewhere a semicolon at the end
    cases t with
    | python => exact blank_append_left (blank_append_right (by decide))
    | java | cpp => exact blank_append_right (by decide)
  | assign => exact blank_append_left (blank_append_left (blank_append_right (by decide)))
  | print | read | append =>
    cases t with
    | python | java | cpp => exact blank_append_right (by decide)
  | compute operator left right result =>
    have hcalculation := blank_calculation t h.2 left right
    simp only [simple]
    split
    next => exact blank_append_left hcalculation
    next => exact blank_append_left hcalculation
    next => exact blank_append_left (blank_append_right hcalculation)
  | increment name amount | decrement name amount =>
    -- the short form ends in a semicolon, the long one has an `=`
    simp only [simple, counting]
    split
    next => exact blank_append_right (by decide)
    next => exact blank_append_left (blank_append_left (blank_append_right (by decide)))
  | call => exact blank_append_left (blank_append_right (by decide))
  | giveBack value =>
    cases value with
    | none => exact blank_append_left (by decide)
    | some value => exact blank_append_left (blank_append_left (by decide))
  | createList name values =>
    simp only [simple]
    unfold listCreation
    dsimp only
    split
    next => exact blank_append_right (by decide)
    next => exact blank_append_right (by decide)
    next =>
      split
      next => split <;> exact blank_append_right (by decide)
      next => exact blank_append_right (by decide)
  | _ => exact hmark _

end

/-! ## Headers -/

section

variable (t : Target)

private theorem oneLine_guardHeader {word : String} (hword : OneLine word) {c : Option Condition}
    (h : ∀ leaf ∈ c.toList.flatMap Condition.leaves, leaf.OneLine) :
    OneLine (guardHeader t word c) := by
  have hcondition : OneLine (condition t (comparisonOf c)) := by
    apply oneLine_condition
    cases c with
    | none => decide
    | some c => rwa [Option.toList_some, List.flatMap_singleton] at h
  unfold guardHeader
  split
  next =>
    simp only [oneLine_append, hword, hcondition, true_and, and_true]
    decide
  next =>
    simp only [oneLine_append, hword, hcondition, true_and, and_true]
    decide

private theorem oneLine_loopStep {counter : String} {step : Leaf} (hcounter : OneLine counter)
    (hstep : step.OneLine) :
    OneLine (loopStep t counter step).1 ∧ OneLine (loopStep t counter step).2 := by
  have hdigits : OneLine (String.ofList (step.shown.toList.drop 1)) :=
    oneLine_ofList.mpr fun hmem => hstep.shown (List.mem_of_mem_drop hmem)
  have hless : OneLine "<" := by decide
  have hgreater : OneLine ">" := by decide
  unfold loopStep
  dsimp only
  split
  next => exact ⟨hless, oneLine_append.mpr ⟨hcounter, by decide⟩⟩
  next =>
    split
    next => exact ⟨hgreater, oneLine_append.mpr ⟨hcounter, by decide⟩⟩
    next =>
      split
      next =>
        exact ⟨hgreater, oneLine_append.mpr ⟨oneLine_append.mpr ⟨hcounter, by decide⟩, hdigits⟩⟩
      next =>
        exact ⟨hless, oneLine_append.mpr
          ⟨oneLine_append.mpr ⟨hcounter, by decide⟩, t.oneLine_value hstep⟩⟩

private theorem oneLine_loopHeader {counter start stop step : Leaf} (hcounter : counter.OneLine)
    (hstart : start.OneLine) (hstop : stop.OneLine) (hstep : step.OneLine) :
    OneLine (loopHeader t counter start stop step) := by
  have hnext := oneLine_loopStep t hcounter.shown hstep
  unfold loopHeader
  dsimp only
  split
  next =>
    split <;>
      simp only [oneLine_append, hcounter.shown, Target.oneLine_value _ hstart,
        Target.oneLine_value _ hstop, Target.oneLine_value _ hstep, and_true] <;>
      decide
  next =>
    simp only [oneLine_append, hcounter.shown, t.oneLine_value hstart, t.oneLine_value hstop,
      hnext.1, hnext.2, and_true]
    decide

private theorem oneLine_functionHeader {name : Leaf} {params : List Leaf} (hname : name.OneLine)
    (hparams : ∀ p ∈ params, p.OneLine) (body : Command) :
    OneLine (functionHeader t name params body) := by
  have hnames : OneLine (", ".intercalate (params.map Leaf.shown)) := by
    refine oneLine_intercalate (by decide) fun text htext => ?_
    obtain ⟨p, hp, rfl⟩ := List.mem_map.mp htext
    exact (hparams p hp).shown
  have htyped : ∀ type, OneLine type → OneLine (typedParams type params) := by
    intro type htype
    refine oneLine_intercalate (by decide) fun text htext => ?_
    obtain ⟨p, hp, rfl⟩ := List.mem_map.mp htext
    exact oneLine_append.mpr ⟨oneLine_append.mpr ⟨htype, by decide⟩, (hparams p hp).shown⟩
  unfold functionHeader
  dsimp only
  split
  next =>
    simp only [oneLine_append, hname.shown, hnames, and_true]
    decide
  next =>
    split <;>
      simp only [oneLine_append, hname.shown, htyped "Object" (by decide), and_true] <;>
      decide
  next =>
    split <;>
      simp only [oneLine_append, hname.shown, htyped "auto" (by decide), and_true] <;>
      decide

/-- The first line of a command: its statement, or the header of its block. A body that was left
out is the statement that does nothing. -/
def firstText : Command → String
  | .hole => t.noop
  | .branch c _ _ => guardHeader t "if" c ++ opening t
  | .repeatWhile c _ => guardHeader t "while" c ++ opening t
  | .repeatFor counter start stop step _ => loopHeader t counter start stop step ++ opening t
  | .define name params body => functionHeader t name params.items body ++ opening t
  | command => simple t command

/-- A header is one line, with something to see at its end. -/
theorem isLine_header {header : String} (h : OneLine header) :
    Text.IsLine (header ++ opening t) := by
  have hopening : Text.IsLine (opening t) := by cases t <;> decide
  exact ⟨oneLine_append.mpr ⟨h, hopening.1⟩, blank_append_right hopening.2⟩

/-- The first line of a command is one line, and it is not blank. -/
theorem isLine_firstText {c : Command} (hproper : c.Proper) (h : c.OneLine) :
    Text.IsLine (firstText t c) := by
  cases c with
  | branch | repeatWhile => exact isLine_header t (oneLine_guardHeader t (by decide) h)
  | repeatFor =>
    simp only [Command.OneLine, Command.leaves, List.forall_mem_cons] at h
    exact isLine_header t (oneLine_loopHeader t h.1 h.2.1 h.2.2.1 h.2.2.2.1)
  | define =>
    rw [Command.OneLine, Command.leaves, List.forall_mem_cons] at h
    exact isLine_header t (oneLine_functionHeader t h.1 h.2 _)
  | hole => cases hproper.1
  | _ => exact ⟨oneLine_simple t h, blank_simple t hproper⟩

end

end Code

end PlainCode
