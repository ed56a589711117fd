import PlainCode.Proofs.Statements

/-!
# The layout of code

Code is put together from lines that are cut out of texts, moved into blocks one level at a time,
and written behind a margin unless they are blank. For tidy commands none of that leaves a trace:
`layout` says directly which lines a command has and how deep each of them is, and `lineCount` how
many there are, both by the form of the command alone. `lines_linesOf` is that the lines of the
code are those, each behind four spaces for each body it is in.

Programs with a main function are the lines of their commands in a frame, whatever the commands are
(`lines_javaFrame`, `lines_cppFrame`). For tidy commands these lines are those of the commands by
themselves, a fixed number of spaces further in (`lines_java`, `lines_cpp`). All of it is put
together in `code_layout`.
-/

namespace PlainCode

open PlainCode.Text (OneLine IsLine blank blank_append_right oneLine_append)

namespace Text

/-- Spaces in a row. -/
def spaces (n : Nat) : String := String.ofList (List.replicate n ' ')

private theorem oneLine_spaces (n : Nat) : OneLine (spaces n) := by
  rw [spaces, oneLine_ofList]
  intro hmem
  exact absurd (List.eq_of_mem_replicate hmem) (by decide)

theorem spaces_add (m n : Nat) : spaces (m + n) = spaces m ++ spaces n := by
  rw [spaces, spaces, spaces, ← String.ofList_append, List.replicate_append_replicate]

/-- The margin of some blocks is four spaces for each. -/
theorem margin_eq_spaces (depth : Nat) : margin depth Code.unit = spaces (4 * depth) := by
  rw [margin, Int.toNat_natCast]
  induction depth with
  | zero => rfl
  | succ depth ih =>
    rw [List.replicate_succ, String.join_cons, ih, Nat.mul_succ, Nat.add_comm, spaces_add]
    rfl

/-- Lines that were joined are the lines of the text. -/
theorem lines_unlines : ∀ {ls : List String}, ls ≠ [] → (∀ l ∈ ls, OneLine l) →
    lines (unlines ls) = ls
  | [], h, _ => absurd rfl h
  | [l], _, h => by
    rw [unlines, String.intercalate_singleton]
    exact Convert.lines_of_one (h l (List.mem_singleton.mpr rfl))
  | l :: k :: ls, _, h => by
    rw [List.forall_mem_cons] at h
    have hrest := lines_unlines (List.cons_ne_nil k ls) h.2
    have hfirst := Convert.lines_of_one h.1
    have hjoin : (unlines (l :: k :: ls)).toList
        = l.toList ++ '\n' :: (unlines (k :: ls)).toList := by
      rw [unlines, String.intercalate_cons_cons, String.toList_append, String.toList_append,
        List.append_assoc]
      rfl
    rw [lines] at hrest hfirst ⊢
    rw [hjoin, splitWhere_append (by decide), List.map_append, hrest, hfirst]
    rfl

end Text

open PlainCode.Text (spaces)

namespace Code

/-! ## Lines and margins -/

/-- A line behind four spaces for each block that it is in. -/
def Line.placed (l : Line) : String := spaces (4 * l.depth) ++ l.text

theorem Line.render_of_isLine {l : Line} (h : IsLine l.text) : l.render = l.placed := by
  rw [Line.render, Text.behind, if_neg (by rw [h.2]; exact Bool.false_ne_true),
    Text.margin_eq_spaces]
  rfl

theorem Line.oneLine_render {l : Line} (h : OneLine l.text) : OneLine l.render := by
  rw [Line.render, Text.behind, Text.margin_eq_spaces]
  split
  next => exact h
  next => exact oneLine_append.mpr ⟨Text.oneLine_spaces _, h⟩

/-- A line that is in no block is its text. -/
theorem Line.render_zero (text : String) : Line.render ⟨0, text⟩ = text := by
  rw [Line.render, Text.behind]
  split
  next => rfl
  next => exact String.empty_append

/-- The lines of code are the lines it was made from. -/
theorem lines_render {ls : List Line} (hne : ls ≠ []) (h : ∀ l ∈ ls, OneLine l.text) :
    Text.lines (render ls) = ls.map Line.render := by
  apply Text.lines_unlines
  · simpa using hne
  · intro text htext
    obtain ⟨l, hl, rfl⟩ := List.mem_map.mp htext
    exact Line.oneLine_render (h l hl)

private theorem ofText_of_oneLine {text : String} (h : OneLine text) :
    ofText text = [⟨0, text⟩] := by
  rw [ofText, Convert.lines_of_one h]
  rfl

theorem deepen_append (levels : Nat) (ls ms : List Line) :
    deepen levels (ls ++ ms) = deepen levels ls ++ deepen levels ms := List.map_append

/-- Moving lines into blocks twice moves them into all of these. -/
theorem deepen_deepen (m n : Nat) (ls : List Line) :
    deepen m (deepen n ls) = deepen (m + n) ls := by
  rw [deepen, deepen, deepen, List.map_map]
  refine List.map_congr_left fun l _ => ?_
  show Line.mk (l.depth + n + m) l.text = Line.mk (l.depth + (m + n)) l.text
  rw [Nat.add_assoc, Nat.add_comm n m]

/-! ## Layout -/

section

variable (t : Target)

/-- The lines of a command that is in `depth` bodies. The lines of its own are at that depth, and
those of its bodies one deeper. -/
def layout (depth : Nat) : Command → List Line
  | .branch c thenBody elseBody =>
    ⟨depth, firstText t (.branch c thenBody elseBody)⟩ :: (layout (depth + 1) thenBody ++
      (if elseBody.isHole then []
        else ⟨depth, (elseLine t).text⟩ :: layout (depth + 1) elseBody) ++
      (closing t).map fun l => ⟨depth, l.text⟩)
  | .repeatWhile c body =>
    ⟨depth, firstText t (.repeatWhile c body)⟩ :: (layout (depth + 1) body ++
      (closing t).map fun l => ⟨depth, l.text⟩)
  | .repeatFor counter start stop step body =>
    ⟨depth, firstText t (.repeatFor counter start stop step body)⟩ :: (layout (depth + 1) body ++
      (closing t).map fun l => ⟨depth, l.text⟩)
  | .define name params body =>
    ⟨depth, firstText t (.define name params body)⟩ :: (layout (depth + 1) body ++
      (closing t).map fun l => ⟨depth, l.text⟩)
  | command => [⟨depth, firstText t command⟩]

/-- How many lines a block has besides those of its bodies. -/
def frameCount : Target → Nat
  | .python => 1
  | .java | .cpp => 2

/-- How many lines a command has. A body that was left out has one. -/
def lineCount : Command → Nat
  | .branch _ thenBody elseBody =>
    frameCount t + lineCount thenBody +
      if elseBody.isHole then 0 else 1 + lineCount elseBody
  | .repeatWhile _ body | .repeatFor _ _ _ _ body | .define _ _ body =>
    frameCount t + lineCount body
  | _ => 1

private theorem length_closing : (closing t).length + 1 = frameCount t := by cases t <;> rfl

private theorem length_layout (depth : Nat) (c : Command) :
    (layout t depth c).length = lineCount t c := by
  have hclosing := length_closing t
  induction c generalizing depth with
  | branch c thenBody elseBody ihThen ihElse =>
    rw [layout, lineCount]
    split
    next =>
      simp only [List.length_cons, List.length_append, List.length_map, List.length_nil, ihThen]
      omega
    next =>
      simp only [List.length_cons, List.length_append, List.length_map, ihThen, ihElse]
      omega
  | repeatWhile _ body ih | repeatFor _ _ _ _ body ih | define _ _ body ih =>
    simp only [layout, lineCount, List.length_cons, List.length_append, List.length_map, ih]
    omega
  | _ => rfl

/-! ## The lines of a command are laid out -/

theorem ofText_ne_nil (text : String) : ofText text ≠ [] := by
  rw [ofText, Text.lines, ne_eq, List.map_eq_nil_iff, List.map_eq_nil_iff]
  exact Text.splitWhere_ne_nil _ _

theorem linesOf_ne_nil {c : Command} (h : c ≠ .hole) : linesOf t c ≠ [] := by
  have happend : ∀ text (ls : List Line), ofText text ++ ls ≠ [] := fun text ls hnil =>
    ofText_ne_nil text (List.append_eq_nil_iff.mp hnil).1
  cases c with
  | hole => exact absurd rfl h
  | branch c thenBody elseBody =>
    rw [linesOf, List.append_assoc, List.append_assoc]
    exact happend _ _
  | repeatWhile | repeatFor | define =>
    rw [linesOf, block, List.append_assoc]
    exact happend _ _
  | _ => exact ofText_ne_nil _

theorem deepen_singleton (depth : Nat) (text : String) :
    deepen depth [⟨0, text⟩] = [⟨depth, text⟩] := by
  show [Line.mk (0 + depth) text] = [⟨depth, text⟩]
  rw [Nat.zero_add]

theorem deepen_ofText {text : String} (h : OneLine text) (depth : Nat) :
    deepen depth (ofText text) = [⟨depth, text⟩] := by
  rw [ofText_of_oneLine h, deepen_singleton]

theorem deepen_closing (depth : Nat) :
    deepen depth (closing t) = (closing t).map fun l => ⟨depth, l.text⟩ := by
  cases t with
  | python => rfl
  | java | cpp => exact deepen_singleton depth _

/-- A body is laid out one deeper, also if it was left out. -/
theorem deepen_inner {body : Command} {depth : Nat}
    (h : body ≠ .hole → deepen (depth + 1) (linesOf t body) = layout t (depth + 1) body) :
    deepen depth (inner t (linesOf t body)) = layout t (depth + 1) body := by
  by_cases hhole : body = .hole
  · -- the lines of a hole are none, and the statement that does nothing takes their place
    subst hhole
    show deepen depth (deepen 1 [⟨0, t.noop⟩]) = [⟨depth + 1, t.noop⟩]
    rw [deepen_deepen, deepen_singleton]
  · have hlines : ¬ (linesOf t body).isEmpty = true := by
      rw [List.isEmpty_iff]
      exact linesOf_ne_nil t hhole
    rw [inner, if_neg hlines, deepen_deepen, h hhole]

/-- A block is laid out if its body is. -/
private theorem deepen_block {header : String} {body : Command} {depth : Nat}
    (hheader : OneLine (header ++ opening t))
    (hbody : body ≠ .hole → deepen (depth + 1) (linesOf t body) = layout t (depth + 1) body) :
    deepen depth (block t header (linesOf t body)) =
      ⟨depth, header ++ opening t⟩ :: (layout t (depth + 1) body ++
        (closing t).map fun l => ⟨depth, l.text⟩) := by
  rw [block, deepen_append, deepen_append, deepen_ofText hheader, deepen_inner t hbody,
    deepen_closing]
  rfl

/-- The lines of a tidy command are those of its layout. -/
theorem deepen_linesOf {c : Command} (hc : c ≠ .hole)
    (h : ∀ n ∈ c.preorder, n.Proper ∧ n.OneLine) (depth : Nat) :
    deepen depth (linesOf t c) = layout t depth c := by
  induction c generalizing depth with
  | hole => exact absurd rfl hc
  | branch c thenBody elseBody ihThen ihElse =>
    rw [Command.preorder, List.forall_mem_cons, List.forall_mem_append] at h
    have hheader : OneLine (guardHeader t "if" c ++ opening t) :=
      (isLine_firstText t h.1.1 h.1.2).1
    have hthen := deepen_inner t fun hne => ihThen hne h.2.1 (depth + 1)
    have helse := deepen_inner t fun hne => ihElse hne h.2.2 (depth + 1)
    have hline : ∀ ls, deepen depth (elseLine t :: ls)
        = ⟨depth, (elseLine t).text⟩ :: deepen depth ls := by
      intro ls
      cases t <;> exact congrArg (· ++ deepen depth ls) (deepen_singleton depth _)
    rw [linesOf, layout, deepen_append, deepen_append, deepen_append, deepen_ofText hheader, hthen,
      deepen_closing]
    -- both sides ask whether there is a second body
    split
    next => rfl
    next =>
      rw [hline, helse]
      rfl
  | repeatWhile _ body ih | repeatFor _ _ _ _ body ih | define _ _ body ih =>
    rw [Command.preorder, List.forall_mem_cons] at h
    exact deepen_block t (isLine_firstText t h.1.1 h.1.2).1 fun hne => ih hne h.2 (depth + 1)
  | _ =>
    have hself := h _ (List.mem_singleton.mpr rfl)
    exact deepen_ofText (oneLine_simple t hself.2) depth

/-- Every line of a layout is one line, and not blank. -/
theorem isLine_of_mem_layout {c : Command} (h : ∀ n ∈ c.preorder, n.Proper ∧ n.OneLine)
    (depth : Nat) : ∀ l ∈ layout t depth c, IsLine l.text := by
  have hclosing : ∀ depth, ∀ l ∈ (closing t).map fun l => Line.mk depth l.text, IsLine l.text := by
    intro depth
    cases t with
    | python => exact List.forall_mem_nil _
    | java | cpp => exact List.forall_mem_singleton.mpr (by decide : IsLine "\x7d")
  induction c generalizing depth with
  | hole =>
    have hnoop : IsLine t.noop := by cases t <;> decide
    exact List.forall_mem_singleton.mpr hnoop
  | branch c thenBody elseBody ihThen ihElse =>
    rw [Command.preorder, List.forall_mem_cons, List.forall_mem_append] at h
    have helse : IsLine (elseLine t).text := by cases t <;> decide
    rw [layout, List.forall_mem_cons, List.forall_mem_append, List.forall_mem_append]
    refine ⟨isLine_firstText t h.1.1 h.1.2, ⟨ihThen h.2.1 (depth + 1), ?_⟩, hclosing depth⟩
    split
    next => exact List.forall_mem_nil _
    next => exact List.forall_mem_cons.mpr ⟨helse, ihElse h.2.2 (depth + 1)⟩
  | repeatWhile _ body ih | repeatFor _ _ _ _ body ih | define _ _ body ih =>
    rw [Command.preorder, List.forall_mem_cons] at h
    rw [layout, List.forall_mem_cons, List.forall_mem_append]
    exact ⟨isLine_firstText t h.1.1 h.1.2, ih h.2 (depth + 1), hclosing depth⟩
  | _ =>
    have hself := h _ (List.mem_singleton.mpr rfl)
    exact List.forall_mem_singleton.mpr (isLine_firstText t hself.1 hself.2)

/-- Lines that are moved into blocks are written that many times four spaces further in. -/
private theorem placed_deepen (levels : Nat) (ls : List Line) :
    (deepen levels ls).map Line.placed
      = (ls.map Line.placed).map (spaces (4 * levels) ++ ·) := by
  rw [deepen, List.map_map, List.map_map]
  refine List.map_congr_left fun l _ => ?_
  show spaces (4 * (l.depth + levels)) ++ l.text = spaces (4 * levels) ++ (spaces _ ++ l.text)
  rw [Nat.mul_add, Nat.add_comm, Text.spaces_add, String.append_assoc]

/-- The lines of the code of a tidy command. -/
theorem lines_linesOf {c : Command} (h : c.Tidy) :
    Text.lines (render (linesOf t c)) = (layout t 0 c).map Line.placed := by
  have hlayout : linesOf t c = layout t 0 c := by
    rw [← deepen_linesOf t h.1 h.2, Convert.deepen_zero]
  have hlines := isLine_of_mem_layout t h.2 0
  rw [hlayout, lines_render (hlayout ▸ linesOf_ne_nil t h.1) fun l hl => (hlines l hl).1]
  exact List.map_congr_left fun l hl => Line.render_of_isLine (hlines l hl)

/-- The lines of a tidy command in some blocks are its own, further in. -/
theorem render_deepen {c : Command} (h : c.Tidy) (levels : Nat) :
    (deepen levels (linesOf t c)).map Line.render
      = (Text.lines (render (linesOf t c))).map (spaces (4 * levels) ++ ·) := by
  have hlines := isLine_of_mem_layout t h.2 levels
  have hlayout : deepen levels (linesOf t c) = layout t levels c := deepen_linesOf t h.1 h.2 levels
  rw [lines_linesOf t h, ← placed_deepen, ← deepen_linesOf t h.1 h.2 0, deepen_deepen,
    Nat.add_zero, hlayout]
  exact List.map_congr_left fun l hl => Line.render_of_isLine (hlines l hl)

/-! ## Programs -/

/-- The lines of a command by itself. -/
def ownLines (c : Command) : List String := Text.lines (render (linesOf t c))

theorem oneLine_of_mem_ofText {text : String} : ∀ l ∈ ofText text, OneLine l.text := by
  intro l hl
  obtain ⟨part, hpart, rfl⟩ := List.mem_map.mp hl
  exact Text.oneLine_of_mem_lines hpart

theorem oneLine_deepen {ls : List Line} (h : ∀ l ∈ ls, OneLine l.text) (depth : Nat) :
    ∀ l ∈ deepen depth ls, OneLine l.text := List.forall_mem_map.mpr h

theorem oneLine_inner {body : List Line} (h : ∀ l ∈ body, OneLine l.text) :
    ∀ l ∈ inner t body, OneLine l.text := by
  refine oneLine_deepen ?_ 1
  split
  next =>
    have hnoop : OneLine t.noop := by cases t <;> decide
    exact List.forall_mem_singleton.mpr hnoop
  next => exact h

theorem oneLine_closing : ∀ l ∈ closing t, OneLine l.text := by
  cases t with
  | python => exact List.forall_mem_nil _
  | java | cpp => exact List.forall_mem_singleton.mpr (by decide : OneLine "\x7d")

private theorem oneLine_block (header : String) {body : List Line}
    (h : ∀ l ∈ body, OneLine l.text) : ∀ l ∈ block t header body, OneLine l.text := by
  rw [block, List.forall_mem_append, List.forall_mem_append]
  exact ⟨⟨oneLine_of_mem_ofText, oneLine_inner t h⟩, oneLine_closing t⟩

/-- Every line of a command is on one line, also where its texts have newlines. -/
theorem oneLine_of_mem_linesOf (c : Command) : ∀ l ∈ linesOf t c, OneLine l.text := by
  induction c with
  | hole => exact List.forall_mem_nil _
  | branch c thenBody elseBody ihThen ihElse =>
    have helse : OneLine (elseLine t).text := by cases t <;> decide
    rw [linesOf, List.forall_mem_append, List.forall_mem_append, List.forall_mem_append]
    refine ⟨⟨⟨oneLine_of_mem_ofText, oneLine_inner t ihThen⟩, ?_⟩, oneLine_closing t⟩
    split
    next => exact List.forall_mem_nil _
    next => exact List.forall_mem_cons.mpr ⟨helse, oneLine_inner t ihElse⟩
  | repeatWhile _ body ih | repeatFor _ _ _ _ body ih | define _ _ body ih =>
    exact oneLine_block t _ ih
  | _ => exact oneLine_of_mem_ofText

theorem oneLine_functionLines (depth : Nat) (commands : List Command) :
    ∀ l ∈ functionLines t depth commands, OneLine l.text := by
  intro l hl
  obtain ⟨f, _, hl⟩ := List.mem_flatMap.mp hl
  rcases List.mem_append.mp hl with hl | hl
  · exact oneLine_deepen (oneLine_of_mem_linesOf t f) depth l hl
  · rw [List.mem_singleton.mp hl]
    decide

theorem oneLine_statementLines (depth : Nat) (commands : List Command) :
    ∀ l ∈ statementLines t depth commands, OneLine l.text := by
  intro l hl
  obtain ⟨s, _, hl⟩ := List.mem_flatMap.mp hl
  exact oneLine_deepen (oneLine_of_mem_linesOf t s) depth l hl

section

variable {commands : List Command} (h : ∀ c ∈ commands, c.Tidy) (depth : Nat)
include h

/-- Functions are written as they are, further in, with an empty line behind each. -/
theorem render_functionLines : (functionLines t depth commands).map Line.render
    = commands.flatMap fun f => (ownLines t f).map (spaces (4 * depth) ++ ·) ++ [""] := by
  rw [functionLines, List.map_flatMap]
  refine List.flatMap_congr fun f hf => ?_
  rw [List.map_append, render_deepen t (h f hf)]
  rfl

/-- Commands are written as they are, further in. -/
theorem render_statementLines : (statementLines t depth commands).map Line.render
    = commands.flatMap fun s => (ownLines t s).map (spaces (4 * depth) ++ ·) := by
  rw [statementLines, List.map_flatMap]
  exact List.flatMap_congr fun s hs => render_deepen t (h s hs) depth

end

end

/-- The lines in front of a program, with an empty line behind them if there are any. -/
def frontTexts (texts : List String) : List String :=
  if texts.isEmpty then [] else texts ++ [""]

/-- The lines of a Java program, from those of its commands. -/
def javaTexts (own : Command → List String) (commands : List Command) : List String :=
  frontTexts (javaImports commands) ++ ["public class Main \x7b"] ++
    ((functionsOf commands).flatMap fun f => (own f).map (spaces 4 ++ ·) ++ [""]) ++
    [spaces 4 ++ "public static void main(String[] args) \x7b"] ++
    (if (everyCommand commands).any isReading then
      [spaces 8 ++ "Scanner scanner = new Scanner(System.in);"] else []) ++
    ((statementsOf commands).flatMap fun s => (own s).map (spaces 8 ++ ·)) ++
    [spaces 4 ++ "\x7d", "\x7d"]

/-- The lines of a C++ program, from those of its commands. -/
def cppTexts (own : Command → List String) (commands : List Command) : List String :=
  frontTexts (cppIncludes commands) ++ ((functionsOf commands).flatMap fun f => own f ++ [""]) ++
    ["int main() \x7b"] ++
    ((statementsOf commands).flatMap fun s => (own s).map (spaces 4 ++ ·)) ++
    [spaces 4 ++ "return 0;", "\x7d"]

section

variable {commands : List Command} (h : ∀ c ∈ commands, c.Tidy)
include h

/-- A program of tidy commands is written, from all of them. -/
theorem writeProgram_of_tidy (t : Target) : writeProgram t commands
    = .ok (render (programLines t commands)) :=
  writeProgram_of_known (fun c hc => unknownOperator?_of_proper fun n hn => ((h c hc).2 n hn).1) t

theorem tidy_functionsOf : ∀ c ∈ functionsOf commands, c.Tidy :=
  fun c hc => h c (List.mem_filter.mp hc).1

theorem tidy_statementsOf : ∀ c ∈ statementsOf commands, c.Tidy :=
  fun c hc => h c (List.mem_filter.mp hc).1

end

theorem oneLine_prologue {texts : List String} (h : ∀ text ∈ texts, OneLine text) :
    ∀ l ∈ prologue texts, OneLine l.text := by
  unfold prologue
  split
  next => exact List.forall_mem_nil _
  next =>
    rw [List.forall_mem_append, List.forall_mem_map]
    exact ⟨h, List.forall_mem_singleton.mpr (by decide)⟩

theorem render_prologue (texts : List String) :
    (prologue texts).map Line.render = frontTexts texts := by
  unfold prologue frontTexts
  split
  next => rfl
  next =>
    have htexts : texts.map (Line.render ∘ Line.mk 0) = texts := by
      conv_rhs => rw [← List.map_id texts]
      exact List.map_congr_left fun text _ => Line.render_zero text
    rw [List.map_append, List.map_map]
    exact congrArg (· ++ [""]) htexts

/-- Texts that are there under conditions only are on one line if they are when they are there. -/
theorem oneLine_of_mem_ite {p : Prop} [Decidable p] {texts : List String}
    (h : ∀ text ∈ texts, OneLine text) : ∀ text ∈ if p then texts else [], OneLine text := by
  split
  next => exact h
  next => exact List.forall_mem_nil _

theorem oneLine_javaImports (commands : List Command) :
    ∀ text ∈ javaImports commands, OneLine text := by
  unfold javaImports
  rw [List.forall_mem_append, List.forall_mem_append]
  exact ⟨⟨oneLine_of_mem_ite (by decide), oneLine_of_mem_ite (by decide)⟩,
    oneLine_of_mem_ite (by decide)⟩

theorem oneLine_cppIncludes (commands : List Command) :
    ∀ text ∈ cppIncludes commands, OneLine text := by
  unfold cppIncludes
  rw [List.forall_mem_append, List.forall_mem_append]
  exact ⟨⟨oneLine_of_mem_ite (by decide), oneLine_of_mem_ite (by decide)⟩,
    oneLine_of_mem_ite (by decide)⟩

/-! ## Frames -/

/-- The lines of a Java program around those of its functions and of its other commands. -/
def javaFrame (imports scanner functions statements : List String) : List String :=
  frontTexts imports ++ ["public class Main \x7b"] ++ functions ++
    [spaces 4 ++ "public static void main(String[] args) \x7b"] ++ scanner ++ statements ++
    [spaces 4 ++ "\x7d", "\x7d"]

/-- The lines of a C++ program around those of its functions and of its other commands. -/
def cppFrame (includes functions statements : List String) : List String :=
  frontTexts includes ++ functions ++ ["int main() \x7b"] ++ statements ++
    [spaces 4 ++ "return 0;", "\x7d"]

/-- The line that makes the reader of a Java program. -/
def scannerTexts (commands : List Command) : List String :=
  if (everyCommand commands).any isReading then
    [spaces 8 ++ "Scanner scanner = new Scanner(System.in);"] else []

section

variable {commands : List Command}

theorem filter_isHole (h : ∀ c ∈ commands, c ≠ .hole) :
    commands.filter (fun c => !c.isHole) = commands := by
  rw [List.filter_eq_self]
  intro c hc
  cases c with
  | hole => exact absurd rfl (h _ hc)
  | _ => rfl

variable (h : ∀ c ∈ commands, c ≠ .hole) (hne : commands ≠ [])
include h hne

/-- The lines of a Java program are the lines that it is put together from. -/
theorem lines_javaProgram : Text.lines (render (programLines .java commands))
    = (javaProgram commands (functionsOf commands) (statementsOf commands)).map Line.render := by
  have hprogram : programLines .java commands
      = javaProgram commands (functionsOf commands) (statementsOf commands) := by
    rw [programLines, filter_isHole h]
    exact if_neg (by simpa using hne)
  have hlines : ∀ l ∈ javaProgram commands (functionsOf commands) (statementsOf commands),
      OneLine l.text := by
    rw [javaProgram]
    simp only [List.forall_mem_append]
    refine ⟨⟨⟨⟨⟨⟨oneLine_prologue (oneLine_javaImports commands), by decide⟩,
      oneLine_functionLines .java 1 _⟩, by decide⟩, ?_⟩,
      oneLine_statementLines .java 2 _⟩, by decide⟩
    split
    next => decide
    next => exact List.forall_mem_nil _
  rw [hprogram, lines_render (by simp [javaProgram]) hlines]

/-- The lines of a Java program are those of its commands in a frame. -/
theorem lines_javaFrame : Text.lines (render (programLines .java commands))
    = javaFrame (javaImports commands) (scannerTexts commands)
        ((functionLines .java 1 (functionsOf commands)).map Line.render)
        ((statementLines .java 2 (statementsOf commands)).map Line.render) := by
  have hmain : Line.render ⟨1, "public static void main(String[] args) \x7b"⟩
      = spaces 4 ++ "public static void main(String[] args) \x7b" :=
    Line.render_of_isLine (by decide)
  have hscanner : Line.render ⟨2, "Scanner scanner = new Scanner(System.in);"⟩
      = spaces 8 ++ "Scanner scanner = new Scanner(System.in);" :=
    Line.render_of_isLine (by decide)
  have hclose : Line.render ⟨1, "\x7d"⟩ = spaces 4 ++ "\x7d" := Line.render_of_isLine (by decide)
  rw [lines_javaProgram h hne, javaProgram, javaFrame, scannerTexts]
  simp only [List.map_append, render_prologue, List.map_cons, List.map_nil, Line.render_zero, hmain,
    hclose]
  split <;> simp only [List.map_cons, List.map_nil, hscanner]

/-- The lines of a C++ program are those of its commands in a frame. -/
theorem lines_cppFrame : Text.lines (render (programLines .cpp commands))
    = cppFrame (cppIncludes commands)
        ((functionLines .cpp 0 (functionsOf commands)).map Line.render)
        ((statementLines .cpp 1 (statementsOf commands)).map Line.render) := by
  have hprogram : programLines .cpp commands
      = cppProgram commands (functionsOf commands) (statementsOf commands) := by
    rw [programLines, filter_isHole h]
    exact if_neg (by simpa using hne)
  have hend : Line.render ⟨1, "return 0;"⟩ = spaces 4 ++ "return 0;" :=
    Line.render_of_isLine (by decide)
  have hlines : ∀ l ∈ cppProgram commands (functionsOf commands) (statementsOf commands),
      OneLine l.text := by
    rw [cppProgram]
    simp only [List.forall_mem_append]
    exact ⟨⟨⟨⟨oneLine_prologue (oneLine_cppIncludes commands),
      oneLine_functionLines .cpp 0 _⟩, by decide⟩, oneLine_statementLines .cpp 1 _⟩, by decide⟩
  rw [hprogram, lines_render (by simp [cppProgram]) hlines, cppProgram, cppFrame]
  simp only [List.map_append, render_prologue, List.map_cons, List.map_nil, Line.render_zero, hend]

end

section

variable {commands : List Command} (h : ∀ c ∈ commands, c.Tidy) (hne : commands ≠ [])
include h hne

/-- The lines of a Java program of tidy commands. -/
theorem lines_java : Text.lines (render (programLines .java commands))
    = javaTexts (ownLines .java) commands := by
  rw [lines_javaFrame (fun c hc => (h c hc).1) hne, render_functionLines .java (tidy_functionsOf h),
    render_statementLines .java (tidy_statementsOf h)]
  rfl

/-- The lines of a C++ program of tidy commands. -/
theorem lines_cpp : Text.lines (render (programLines .cpp commands))
    = cppTexts (ownLines .cpp) commands := by
  -- functions are in no block here
  have hown : ∀ f, (ownLines .cpp f).map (spaces (4 * 0) ++ ·) = ownLines .cpp f := by
    intro f
    conv_rhs => rw [← List.map_id (ownLines .cpp f)]
    exact List.map_congr_left fun text _ => String.empty_append
  rw [lines_cppFrame (fun c hc => (h c hc).1) hne, render_functionLines .cpp (tidy_functionsOf h),
    render_statementLines .cpp (tidy_statementsOf h)]
  simp only [hown]
  rfl

end

/-- **The layout of code is determined by its commands.** No command of a program has a newline in
any of its texts. The code of a tidy command has the lines of its layout, each behind four spaces
for each body that it is in; none of them is blank, and their number is that of the form of the
command. In a Java program the lines of functions are one level further in, and those of other
commands two; in a C++ program the lines of other commands are one level further in. -/
theorem code_layout (raw : String) (language : Json) :
    (∃ o, Convert.program (.str raw) language = .ok o ∧
      ∀ p ∈ o.result, ∀ c ∈ p.commands, ∀ n ∈ c.preorder, n.OneLine) ∧
    (∀ (t : Target) (c : Command), c.Tidy → ∃ code, write t c = .ok code ∧
      Text.lines code = (layout t 0 c).map Line.placed ∧
      (∀ line ∈ Text.lines code, blank line = false) ∧
      (Text.lines code).length = lineCount t c) ∧
    ∀ commands : List Command, commands ≠ [] → (∀ c ∈ commands, c.Tidy) →
      ∃ code : Target → Command → String,
        (∀ t, ∀ c ∈ commands, write t c = .ok (code t c)) ∧
        (∃ java, writeProgram .java commands = .ok java ∧
          Text.lines java = javaTexts (fun c => Text.lines (code .java c)) commands) ∧
        ∃ cpp, writeProgram .cpp commands = .ok cpp ∧
          Text.lines cpp = cppTexts (fun c => Text.lines (code .cpp c)) commands := by
  have hwrite : ∀ (t : Target) (c : Command), c.Tidy → write t c = .ok (render (linesOf t c)) := by
    intro t c hc
    rw [write, unknownOperator?_of_proper fun n hn => (hc.2 n hn).1]
  refine ⟨?_, fun t c hc => ⟨_, hwrite t c hc, lines_linesOf t hc, ?_, ?_⟩,
    fun commands hne h => ⟨fun t c => render (linesOf t c), fun t c hc => hwrite t c (h c hc),
      ⟨_, writeProgram_of_tidy h .java, lines_java h hne⟩,
      ⟨_, writeProgram_of_tidy h .cpp, lines_cpp h hne⟩⟩⟩
  · obtain ⟨o, ho, htidy⟩ := Convert.tidy_of_program raw language
    exact ⟨o, ho, fun p hp c hc n hn => ((htidy p hp c hc).2 n hn).2⟩
  · rw [lines_linesOf t hc, List.forall_mem_map]
    intro l hl
    exact blank_append_right (isLine_of_mem_layout t hc.2 0 l hl).2
  · rw [lines_linesOf t hc, List.length_map, length_layout]

/-- A text with a quote that is open at the end of a line, a choice whose first body was left out,
with a loop in the second, and a program of it and a function. -/
theorem code_layout_nested :
    (∃ o, Convert.program (.str "say 'a\nb' and say 5\nset x to \"c\"") (.str "java") = .ok o ∧
      ∀ p ∈ o.result, ∀ c ∈ p.commands, ∀ n ∈ c.preorder, n.OneLine) ∧
    let choice : Command := .branch (some ⟨some "x", some "less", some "2"⟩) .hole
      (.repeatFor (some "i") (some "0") (some "3") (some "1")
        (.print (some [some "\"hi\"", some "i"])))
    let function : Command := .define (some "f") (some [some "a"]) (.giveBack (some "a"))
    choice.Tidy ∧ function.Tidy ∧
    (∃ code, write .java choice = .ok code ∧ Text.lines code = ["if (x < 2) \x7b", "    ;",
      "\x7d else \x7b", "    for (int i = 0; i < 3; i++) \x7b",
      "        System.out.println(\"hi\" + \" \" + i);", "    \x7d", "\x7d"]) ∧
    ∃ code : Command → String, (∀ c ∈ [choice, function], write .cpp c = .ok (code c)) ∧
      ∃ cpp, writeProgram .cpp [choice, function] = .ok cpp ∧
        Text.lines cpp = ["#include <iostream>", ""] ++ (Text.lines (code function) ++ [""]) ++
          ["int main() \x7b"] ++ (Text.lines (code choice)).map (spaces 4 ++ ·) ++
          [spaces 4 ++ "return 0;", "\x7d"] := by
  obtain ⟨htext, hcommand, hprogram⟩ :=
    code_layout "say 'a\nb' and say 5\nset x to \"c\"" (.str "java")
  refine ⟨htext, ?_⟩
  intro choice function
  have hchoice : choice.Tidy := by decide
  have hfunction : function.Tidy := by decide
  obtain ⟨java, hjava, hlines, _⟩ := hcommand .java choice hchoice
  obtain ⟨code, hcode, _, cpp, hcpp, htexts⟩ := hprogram [choice, function]
    (List.cons_ne_nil _ _) (by decide)
  refine ⟨hchoice, hfunction, ⟨java, hjava, hlines.trans (by decide +kernel)⟩, code .cpp,
    hcode .cpp, cpp, hcpp, htexts.trans ?_⟩
  have hincludes : frontTexts (cppIncludes [choice, function]) = ["#include <iostream>", ""] := by
    decide +kernel
  have hfunctions : functionsOf [choice, function] = [function] := rfl
  have hstatements : statementsOf [choice, function] = [choice] := rfl
  rw [cppTexts, hincludes, hfunctions, hstatements, List.flatMap_singleton, List.flatMap_singleton]

end Code

end PlainCode
