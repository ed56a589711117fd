import PlainCode.Proofs.Layout

/-!
# Functions first

A program is written with its functions in front and everything else behind them, whatever the order
of its commands. What stands around them is found by walking over all commands, so it is not plain
that the order has no part in it. `programTexts` says what a program looks like from the two rows of
commands alone: the code that each command has by itself, indented as a whole, in a frame.
`program_hoisted` is that programs look like that, so commands can be mixed in any way.

Two things carry the argument. Moving lines into blocks is the same as indenting the text that they
make, also where some of them are blank (`map_render_deepen`), and texts of many lines that are
joined are the same text as all of their lines joined (`unlines_flatMap_lines`).
-/

namespace PlainCode

namespace Text

/-- Lines of a text that are joined again are the text. -/
theorem unlines_lines (s : String) : unlines (lines s) = s := by
  have hchars : ∀ cs : List Char, ['\n'].intercalate (splitWhere (· == '\n') cs) = cs := by
    intro cs
    induction cs with
    | nil => rfl
    | cons c cs ih =>
      obtain ⟨part, parts, hparts⟩ := List.exists_cons_of_ne_nil (splitWhere_ne_nil (· == '\n') cs)
      rw [splitWhere]
      rw [hparts] at ih ⊢
      split
      next hc =>
        rw [List.intercalate_cons_cons, ih, beq_iff_eq.mp hc]
        rfl
      next =>
        -- the character goes to the front of the first part, and so to the front of the text
        cases parts with
        | nil =>
          rw [List.intercalate_singleton] at ih
          rw [extendFirst, List.intercalate_singleton, ih]
        | cons next parts =>
          rw [List.intercalate_cons_cons] at ih
          rw [extendFirst, List.intercalate_cons_cons, List.cons_append, List.cons_append, ih]
  apply String.toList_injective
  rw [unlines, String.toList_intercalate, lines, List.map_map]
  simp only [Function.comp_def, String.toList_ofList, List.map_id']
  exact hchars s.toList

theorem lines_ne_nil (s : String) : lines s ≠ [] := by
  rw [lines, ne_eq, List.map_eq_nil_iff]
  exact splitWhere_ne_nil _ _

/-- Texts that are joined are all of their lines joined. -/
theorem unlines_flatMap_lines : ∀ texts : List String,
    unlines (texts.flatMap lines) = unlines texts
  | [] => rfl
  | [text] => by
    rw [List.flatMap_singleton, unlines_lines, unlines, String.intercalate_singleton]
  | text :: next :: texts => by
    have hrest : (next :: texts).flatMap lines ≠ [] := fun hnil =>
      lines_ne_nil next (List.append_eq_nil_iff.mp hnil).1
    calc unlines ((text :: next :: texts).flatMap lines)
        = unlines (lines text) ++ "\n" ++ unlines ((next :: texts).flatMap lines) :=
          String.intercalate_append_of_ne_nil (lines_ne_nil text) hrest
      _ = text ++ "\n" ++ unlines (next :: texts) := by
          rw [unlines_lines, unlines_flatMap_lines (next :: texts)]
      _ = unlines (text :: next :: texts) := String.intercalate_cons_cons.symm

/-- Texts on one line each are their own lines. -/
theorem flatMap_lines_of_oneLine {texts : List String} (h : ∀ text ∈ texts, OneLine text) :
    texts.flatMap lines = texts := by
  conv_rhs => rw [← List.flatMap_singleton' texts]
  exact List.flatMap_congr fun text htext => Convert.lines_of_one (h text htext)

private theorem lines_indent (code : String) (levels : Nat) :
    lines (indent code levels Code.unit)
      = (lines code).map (behind (margin levels Code.unit)) := by
  apply lines_unlines
  · rw [ne_eq, List.map_eq_nil_iff]
    exact lines_ne_nil code
  · intro text htext
    obtain ⟨line, hline, rfl⟩ := List.mem_map.mp htext
    exact Code.Line.oneLine_render (l := ⟨levels, line⟩) (oneLine_of_mem_lines hline)

/-- No levels of margin leave a text as it is. -/
theorem indent_zero (code : String) : indent code (0 : Nat) Code.unit = code := by
  have hline : ∀ line, behind (margin (0 : Nat) Code.unit) line = line := Code.Line.render_zero
  rw [indent, funext hline, List.map_id', unlines_lines]

end Text

open PlainCode.Text (OneLine spaces blank_append_right)

namespace Code

/-! ## Indented code -/

/-- A text is written as it is, line for line. -/
theorem map_render_ofText (text : String) : (ofText text).map Line.render = Text.lines text := by
  rw [ofText, List.map_map]
  exact (List.map_congr_left fun line _ => Line.render_zero line).trans (List.map_id _)

theorem render_ofText (text : String) : render (ofText text) = text := by
  rw [render, map_render_ofText, Text.unlines_lines]

/-- A line that is moved into blocks is the line that was written, behind their margin. -/
theorem Line.render_deepen (levels : Nat) (l : Line) :
    (l.deepen levels).render = Text.behind (Text.margin levels unit) l.render := by
  cases hblank : Text.blank l.text with
  | true =>
    have hrender : l.render = l.text := if_pos hblank
    rw [hrender, Text.behind, if_pos hblank]
    exact if_pos hblank
  | false =>
    have hne : ¬ Text.blank l.text = true := by rw [hblank]; exact Bool.false_ne_true
    have hrender : l.render = spaces (4 * l.depth) ++ l.text := by
      rw [Line.render, Text.behind, if_neg hne, Text.margin_eq_spaces]
    have hmore : ¬ Text.blank l.render = true := by
      rw [hrender, blank_append_right hblank]
      exact Bool.false_ne_true
    rw [Text.behind, if_neg hmore, hrender, Text.margin_eq_spaces, Line.render, Text.behind]
    show (if Text.blank l.text = true then _ else _) = _
    rw [if_neg hne, Text.margin_eq_spaces, Line.deepen, Nat.mul_add, Nat.add_comm, Text.spaces_add,
      String.append_assoc]

section

variable (t : Target) {c : Command}

/-- The lines of a command by itself are those it is put together from. -/
theorem ownLines_eq (h : c ≠ .hole) : ownLines t c = (linesOf t c).map Line.render :=
  lines_render (linesOf_ne_nil t h) (oneLine_of_mem_linesOf t c)

/-- The lines of a command in some blocks are those of its code, indented as a whole. -/
theorem map_render_deepen (h : c ≠ .hole) (levels : Nat) :
    (deepen levels (linesOf t c)).map Line.render
      = Text.lines (Text.indent (render (linesOf t c)) levels unit) := by
  have hown : Text.lines (render (linesOf t c)) = (linesOf t c).map Line.render := ownLines_eq t h
  rw [Text.lines_indent, hown, deepen, List.map_map, List.map_map]
  exact List.map_congr_left fun l _ => Line.render_deepen levels l

end

/-! ## The two rows of commands -/

/-- The commands that are there: holes are left out. -/
def present (commands : List Command) : List Command := commands.filter fun c => !c.isHole

/-- Every command that is there is in one of the two rows, as often as it is there. -/
theorem rows_perm (commands : List Command) :
    (functionsOf (present commands) ++ statementsOf (present commands)).Perm (present commands) :=
  List.filter_append_perm _ _

theorem ne_hole_of_present {commands : List Command} : ∀ c ∈ present commands, c ≠ .hole := by
  rintro c hc rfl
  exact absurd (List.mem_filter.mp hc).2 Bool.false_ne_true

private theorem functionsOf_present (commands : List Command) :
    functionsOf (present commands) = functionsOf commands := by
  rw [functionsOf, present, List.filter_filter]
  refine List.filter_congr fun c _ => ?_
  cases c <;> rfl

/-- Holes are not written. -/
private theorem programLines_present (t : Target) (commands : List Command) :
    programLines t (present commands) = programLines t commands := by
  have htwice : (present commands).filter (fun c => !c.isHole) = present commands :=
    filter_isHole ne_hole_of_present
  rw [programLines, htwice]
  rfl

private theorem statementsOf_present (commands : List Command) :
    statementsOf (present commands) = present (statementsOf commands) := List.filter_comm ..

/-- Holes have no operators, so they are no part of a search for unknown ones. -/
private theorem findSome?_present (commands : List Command) :
    (present commands).findSome? unknownOperator? = commands.findSome? unknownOperator? := by
  induction commands with
  | nil => rfl
  | cons c commands ih =>
    by_cases hhole : c = .hole
    · rw [hhole]
      exact ih
    · have hkept : present (c :: commands) = c :: present commands := by
        cases c with
        | hole => exact absurd rfl hhole
        | _ => rfl
      rw [hkept, List.findSome?_cons, List.findSome?_cons, ih]

/-! ## What a program looks like -/

section

variable {commands others : List Command} (h : commands.Perm others)
include h

/-- What is looked for at all depths is found in any order of the commands. -/
theorem any_everyCommand_perm (p : Command → Bool) :
    (everyCommand commands).any p = (everyCommand others).any p :=
  (h.flatMap_right _).any_eq

private theorem javaImports_perm : javaImports commands = javaImports others := by
  simp only [javaImports, any_everyCommand_perm h]

private theorem scannerTexts_perm : scannerTexts commands = scannerTexts others := by
  simp only [scannerTexts, any_everyCommand_perm h]

private theorem cppIncludes_perm : cppIncludes commands = cppIncludes others := by
  simp only [cppIncludes, any_everyCommand_perm h]

end

/-- The texts of a Python program: functions and all else, with an empty line behind each function
that something follows. -/
def pythonFrame (functions statements : List String) : List String :=
  [""].intercalate (functions.map ([·]) ++ if statements.isEmpty then [] else [statements])

/-- The texts of a program with the given functions and other commands, from the code of each of
them. In Java functions are in one block and all else is in two, in C++ functions are in none and
all else is in one, in Python nothing is in a block. -/
def programTexts (t : Target) (code : Command → String) (functions statements : List Command) :
    List String :=
  let all := functions ++ statements
  if all.isEmpty then []
  else
    match t with
    | .python => pythonFrame (functions.map code) (statements.map code)
    | .java =>
      javaFrame (javaImports all) (scannerTexts all)
        (functions.flatMap fun f => [Text.indent (code f) 1 unit, ""])
        (statements.map fun s => Text.indent (code s) 2 unit)
    | .cpp =>
      cppFrame (cppIncludes all) (functions.flatMap fun f => [code f, ""])
        (statements.map fun s => Text.indent (code s) 1 unit)

section

variable (t : Target) {commands : List Command} (h : ∀ c ∈ commands, c ≠ .hole) (depth : Nat)
include h

theorem map_functionLines : (functionLines t depth commands).map Line.render
    = (commands.flatMap fun f => [Text.indent (render (linesOf t f)) depth unit, ""]).flatMap
        Text.lines := by
  rw [functionLines, List.map_flatMap, List.flatMap_assoc]
  refine List.flatMap_congr fun f hf => ?_
  rw [List.map_append, map_render_deepen t (h f hf)]
  rfl

theorem map_statementLines : (statementLines t depth commands).map Line.render
    = (commands.map fun s => Text.indent (render (linesOf t s)) depth unit).flatMap Text.lines := by
  rw [statementLines, List.map_flatMap, List.flatMap_map]
  exact List.flatMap_congr fun s hs => map_render_deepen t (h s hs) depth

end

theorem oneLine_frontTexts {texts : List String} (h : ∀ text ∈ texts, OneLine text) :
    ∀ text ∈ frontTexts texts, OneLine text := by
  unfold frontTexts
  split
  next => exact List.forall_mem_nil _
  next => exact List.forall_mem_append.mpr ⟨h, by decide⟩

/-- The frame of a Java program has lines of its own and those of what is put in it. -/
private theorem flatMap_javaFrame (commands : List Command) (functions statements : List String) :
    (javaFrame (javaImports commands) (scannerTexts commands) functions statements).flatMap
        Text.lines
      = javaFrame (javaImports commands) (scannerTexts commands) (functions.flatMap Text.lines)
          (statements.flatMap Text.lines) := by
  have hfront := Text.flatMap_lines_of_oneLine (oneLine_frontTexts (oneLine_javaImports commands))
  have hscanner : (scannerTexts commands).flatMap Text.lines = scannerTexts commands :=
    Text.flatMap_lines_of_oneLine (oneLine_of_mem_ite (by decide))
  simp only [javaFrame, List.flatMap_append, hfront, hscanner]
  rfl

/-- The frame of a C++ program has lines of its own and those of what is put in it. -/
private theorem flatMap_cppFrame (commands : List Command) (functions statements : List String) :
    (cppFrame (cppIncludes commands) functions statements).flatMap Text.lines
      = cppFrame (cppIncludes commands) (functions.flatMap Text.lines)
          (statements.flatMap Text.lines) := by
  have hfront := Text.flatMap_lines_of_oneLine (oneLine_frontTexts (oneLine_cppIncludes commands))
  simp only [cppFrame, List.flatMap_append, hfront]
  rfl

/-- Lines with empty lines between one list of them and the next are written that way. -/
theorem map_separated : ∀ blocks : List (List Line),
    (separated blocks).map Line.render = [""].intercalate (blocks.map (List.map Line.render))
  | [] => rfl
  | [ls] => (List.intercalate_singleton ..).symm
  | ls :: next :: rest => by
    calc (separated (ls :: next :: rest)).map Line.render
        = ls.map Line.render ++ [""] ++ (separated (next :: rest)).map Line.render := by
          show (ls ++ emptyLine :: separated (next :: rest)).map Line.render = _
          rw [List.map_append, List.append_assoc]
          rfl
      _ = [""].intercalate ((ls :: next :: rest).map (List.map Line.render)) := by
          rw [map_separated (next :: rest)]
          exact List.intercalate_cons_cons.symm

/-- Texts with empty lines between one list of them and the next have the lines of both. -/
theorem flatMap_intercalate : ∀ blocks : List (List String),
    ([""].intercalate blocks).flatMap Text.lines
      = [""].intercalate (blocks.map (List.flatMap Text.lines))
  | [] => rfl
  | [texts] => by rw [List.intercalate_singleton, List.map_singleton, List.intercalate_singleton]
  | texts :: next :: rest => by
    rw [List.intercalate_cons_cons, List.flatMap_append, List.flatMap_append,
      flatMap_intercalate (next :: rest)]
    exact List.intercalate_cons_cons.symm

section

variable {functions statements : List Command} (hfunctions : ∀ c ∈ functions, c ≠ .hole)
  (hstatements : ∀ c ∈ statements, c ≠ .hole)
include hfunctions hstatements

private theorem render_pythonProgram : render (pythonProgram functions statements)
    = Text.unlines (pythonFrame (functions.map fun f => render (linesOf .python f))
        (statements.map fun s => render (linesOf .python s))) := by
  have hown : (functions.map (linesOf .python)).map (List.map Line.render)
      = ((functions.map fun f => render (linesOf .python f)).map ([·])).map
          (List.flatMap Text.lines) := by
    simp only [List.map_map]
    refine List.map_congr_left fun f hf => ?_
    exact (ownLines_eq .python (hfunctions f hf)).symm.trans (List.flatMap_singleton ..).symm
  have hrest := map_statementLines .python hstatements 0
  simp only [Text.indent_zero] at hrest
  rw [← Text.unlines_flatMap_lines (pythonFrame _ _), pythonFrame, flatMap_intercalate, render,
    pythonProgram, map_separated, List.map_append, List.map_append, hown, List.isEmpty_map]
  split
  next => rfl
  next => rw [List.map_singleton, List.map_singleton, hrest]

end

/-- A program looks as its two rows of commands say. -/
theorem render_programLines (t : Target) (commands : List Command) :
    render (programLines t commands)
      = Text.unlines (programTexts t (fun c => render (linesOf t c))
          (functionsOf (present commands)) (statementsOf (present commands))) := by
  have hhole : ∀ c ∈ present commands, c ≠ .hole := ne_hole_of_present
  have hperm := rows_perm commands
  have hfunctions : ∀ c ∈ functionsOf (present commands), c ≠ .hole :=
    fun c hc => hhole c (List.mem_filter.mp hc).1
  have hstatements : ∀ c ∈ statementsOf (present commands), c ≠ .hole :=
    fun c hc => hhole c (List.mem_filter.mp hc).1
  rw [← programLines_present]
  unfold programTexts
  dsimp only
  by_cases hnone : present commands = []
  · rw [hnone]
    rfl
  · have hrows : ¬ (functionsOf (present commands) ++ statementsOf (present commands)).isEmpty := by
      rw [List.isEmpty_iff]
      exact fun hnil => hnone (List.nil_perm.mp (hnil ▸ hperm))
    rw [if_neg hrows, javaImports_perm hperm, scannerTexts_perm hperm, cppIncludes_perm hperm]
    cases t with
    | python =>
      rw [← render_pythonProgram hfunctions hstatements, programLines, filter_isHole hhole]
      exact congrArg render (if_neg (by simpa using hnone))
    | java =>
      rw [← Text.unlines_lines (render _), lines_javaFrame hhole hnone,
        map_functionLines .java hfunctions, map_statementLines .java hstatements,
        ← flatMap_javaFrame, Text.unlines_flatMap_lines]
      rfl
    | cpp =>
      rw [← Text.unlines_lines (render _), lines_cppFrame hhole hnone,
        map_functionLines .cpp hfunctions, map_statementLines .cpp hstatements,
        ← flatMap_cppFrame, Text.unlines_flatMap_lines]
      simp only [Text.indent_zero]
      rfl

/-- What is written for a program hangs on its two rows of commands alone. -/
theorem writeProgram_eq (t : Target) (commands : List Command) :
    writeProgram t commands =
      match (functionsOf (present commands) ++ statementsOf (present commands)).findSome?
          unknownOperator? with
      | some operator => .error (.unknownOperator operator)
      | none => .ok (Text.unlines (programTexts t (fun c => render (linesOf t c))
          (functionsOf (present commands)) (statementsOf (present commands)))) := by
  have hsearch : (functionsOf commands ++ statementsOf commands).findSome? unknownOperator?
      = (functionsOf (present commands) ++ statementsOf (present commands)).findSome?
          unknownOperator? := by
    rw [List.findSome?_append, List.findSome?_append, functionsOf_present, statementsOf_present,
      findSome?_present]
  unfold writeProgram
  rewrite [hsearch, render_programLines]
  cases (functionsOf (present commands) ++ statementsOf (present commands)).findSome?
      unknownOperator? with
  | none => rfl
  | some operator => rfl

/-- **Functions are written first, and nothing is lost.** Every command that is there is in one of
two rows, the functions and the rest, each in the order of the program. If all operators are known,
the program is the code of the commands of the first row and then of the second, each of them once,
in the frame of the language. Programs with the same two rows are written the same way, however
their commands are mixed and wherever there are holes. -/
theorem program_hoisted (t : Target) (commands : List Command) :
    let functions := functionsOf (present commands)
    let statements := statementsOf (present commands)
    (functions ++ statements).Perm (present commands) ∧
    ((∀ c ∈ commands, ∀ n ∈ c.preorder, n.hasKnownOperator = true) →
      ∃ code : Command → String, (∀ c ∈ commands, write t c = .ok (code c)) ∧
        writeProgram t commands
          = .ok (Text.unlines (programTexts t code functions statements))) ∧
    ∀ others, functionsOf (present others) = functions →
      statementsOf (present others) = statements →
      writeProgram t others = writeProgram t commands := by
  intro functions statements
  refine ⟨rows_perm commands, fun hknown => ⟨fun c => render (linesOf t c), fun c hc => ?_, ?_⟩, ?_⟩
  · rw [write, unknownOperator?_of_known (hknown c hc)]
  · rw [writeProgram_of_known (fun c hc => unknownOperator?_of_known (hknown c hc)),
      render_programLines]
  · intro others hfunctions hstatements
    rw [writeProgram_eq t others, writeProgram_eq t commands, hfunctions, hstatements]

/-- A function, a remark with an empty line in it, a form that is not known, and holes, in two
orders. -/
theorem program_hoisted_mixed :
    let say : Command := .define (some "say") none (.print (some [some "x"]))
    let note : Command := .remark (some "a\n\nb")
    let mixed : List Command := [note, .hole, say, .foreign "Mystery", .read (some "x")]
    let sorted : List Command := [say, note, .foreign "Mystery", .read (some "x"), .hole, .hole]
    (∀ c ∈ mixed, ∀ n ∈ c.preorder, n.hasKnownOperator = true) ∧
    (∃ code : Command → String, (∀ c ∈ mixed, write .java c = .ok (code c)) ∧
      writeProgram .java mixed = .ok (Text.unlines (programTexts .java code [say]
        [note, .foreign "Mystery", .read (some "x")]))) ∧
    writeProgram .java sorted = writeProgram .java mixed := by
  intro say note mixed sorted
  obtain ⟨_, hwritten, hsame⟩ := program_hoisted .java mixed
  have hknown : ∀ c ∈ mixed, ∀ n ∈ c.preorder, n.hasKnownOperator = true := by decide
  exact ⟨hknown, hwritten hknown, hsame sorted rfl rfl⟩

end Code

end PlainCode
