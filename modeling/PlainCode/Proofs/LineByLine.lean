import Mathlib.Algebra.GroupWithZero.Nat
import PlainCode.Proofs.Pieces
import PlainCode.Proofs.Tokens
import PlainCode.Proofs.Tracing
import PlainCode.Proofs.Trees

/-!
# A program is converted line by line

There are two ways from a text to code: as one phrase, which ends at the first stage that has
nothing to go on with, and as a program, whose lines are numbered, passed over, read and reported
one after the other. `program_line_by_line` is that the second is the first on every line: nothing
is lost, doubled, or counted under another number.

What can become of a line is said once (`read?_cases`): it is empty, it is a command, or it is not
recognised. There is nothing else, because what is left of a phrase always has tokens, and code
can be written for whatever was read. The rest is that going through a text line by line is
`filterMap` over its numbered lines.
-/

namespace PlainCode.Convert

open PlainCode.Phrase (canonical)

/-! ## One line -/

/-- The outcome of a phrase, without the stages that have no say in it. -/
def outcomeOf (target : Target) (text : String) : LineOutcome :=
  if canonical text = "" then .error .empty
  else
    match parse grammar (Token.ofText (canonical text)) with
    | .error cause => .error (.unreadable cause)
    | .ok parsed =>
      .ok ⟨Code.render (Code.linesOf target parsed.command), parsed.command, parsed.warnings⟩

/-- The stages of a text that can be shown come to the outcome of what it says. -/
theorem LineStages.outcome_run (target : Target) {text : Json} {raw : String}
    (hraw : text.plain? = some raw) :
    (LineStages.run target text).outcome = .ok (outcomeOf target (Phrase.ofJson text)) := by
  rw [LineStages.outcome_eq, LineStages.run, outcomeOf]
  dsimp only
  rw [hraw]
  dsimp only [Option.elim]
  split
  next => rfl
  next hne =>
    -- there are tokens, and if they are read as a command, it can be written
    rw [if_neg (by simpa using Phrase.ofText_ne_nil hne)]
    cases hparse : parse grammar (Token.ofText (Phrase.canonical (Phrase.ofJson text))) with
    | error cause => rfl
    | ok parsed =>
      dsimp only
      rw [Code.write_of_parse hparse]
      rfl

/-- In a language that there is not, a phrase is answered with that. -/
theorem line_of_no_target {language : Json} (h : Target.ofJson? language = none) (text : Json) :
    line text language = .ok (.error (.unsupported language)) := by
  unfold line Traced.line
  rw [h]
  rfl

/-- In a language that there is, a phrase is converted in stages. -/
theorem line_eq_stages {language : Json} {target : Target}
    (h : Target.ofJson? language = some target) (text : Json) :
    line text language = (LineStages.run target text).outcome := by
  unfold line Traced.line
  rw [h]
  rfl

/-- Converting one phrase always comes to an outcome. -/
theorem line_eq {language : Json} {target : Target} (h : Target.ofJson? language = some target)
    (text : String) : line (.str text) language = .ok (outcomeOf target text) := by
  rw [line_eq_stages h]
  exact LineStages.outcome_run target rfl

/-- Whether a line fails because it says nothing. -/
def LineOutcome.isEmptyInput : LineOutcome → Bool
  | .error e => e.message == "Empty input"
  | .ok _ => false

/-- What a program reports of a line that fails otherwise. -/
def LineOutcome.error? (r : LineOutcome) (number : Nat) (text : String) : Option Diagnostic :=
  match r with
  | .error e =>
    if e.message = "Empty input" then none
    else some ⟨some "SYN001", some e.message, some number, some (canonical text)⟩
  | .ok _ => none

/-- The warnings about a line in a program. -/
def LineOutcome.warningsOn (r : LineOutcome) (number : Nat) : List Diagnostic :=
  match r with
  | .error _ => []
  | .ok result => result.warnings.map fun w => { w with line := some number }

theorem head?_append_text {a b : String} {c : Char} (h : a.toList.head? = some c) :
    (a ++ b).toList.head? = some c := by
  rw [String.toList_append, List.head?_append, h]
  rfl

theorem head?_unrecognized (ts : List Token) :
    (ParseError.unrecognized ts).message.toList.head? = some 'U' := by
  unfold ParseError.message
  refine head?_append_text (head?_append_text (head?_append_text ?_))
  decide

/-- A line that is not recognised does say something. -/
theorem message_unrecognized (ts : List Token) :
    (ParseError.unrecognized ts).message ≠ "Empty input" := by
  intro h
  have hfirst := head?_unrecognized ts
  rw [h] at hfirst
  exact absurd hfirst (by decide)

/-! ## The lines of a program -/

/-- What a numbered line of a text is read as, if it says anything. -/
def read? (l : String × Nat) : Option ReadLine :=
  if canonical l.1 = "" then none else some (.of ⟨l.2, canonical l.1⟩)

theorem numberedFrom_eq : ∀ (texts : List String) (n : Nat),
    (Phrase.numberedFrom n texts).map ReadLine.of = (texts.zipIdx n).filterMap read?
  | [], _ => rfl
  | text :: texts, n => by
    rw [Phrase.numberedFrom, List.zipIdx_cons, List.filterMap_cons, read?]
    dsimp only
    split
    next => exact numberedFrom_eq texts (n + 1)
    next => rw [List.map_cons, numberedFrom_eq texts (n + 1)]

/-- The error that a line is reported with. -/
def ReadLine.error? (l : ReadLine) : Option Diagnostic :=
  match l.parsed with
  | .ok _ => none
  | .error e => some ⟨some e.code, some e.message, some l.number, some l.text⟩

/-- The warnings that a line is reported with. -/
def ReadLine.warnings (l : ReadLine) : List Diagnostic :=
  match l.parsed with
  | .ok parsed => parsed.warnings.map (Diagnostic.onLine (some l.number))
  | .error _ => []

theorem foldl_warn (line : Option Int) : ∀ (ws : List Diagnostic) (r : Report),
    ws.foldl (fun r w => r.warn w line) r
      = { r with warnings := r.warnings ++ ws.map (Diagnostic.onLine line) }
  | [], r => by rw [List.map_nil, List.append_nil]; rfl
  | w :: ws, r => by
    rw [List.foldl_cons, foldl_warn line ws, Report.warn, List.map_cons, List.append_assoc]
    rfl

/-- One line adds its own error and warnings to a report. -/
private theorem report_eq (r : Report) (l : ReadLine) : l.report r = { r with
    errors := r.errors ++ l.error?.toList, warnings := r.warnings ++ l.warnings } := by
  rw [ReadLine.report, ReadLine.error?, ReadLine.warnings]
  cases l.parsed with
  | ok parsed => simp only [foldl_warn, Option.toList_none, List.append_nil]
  | error e => simp only [Report.add, Option.toList_some, List.append_nil]

/-- All lines add theirs, in order. -/
theorem report_foldl : ∀ (ls : List ReadLine) (r : Report), ls.foldl ReadLine.report r = { r with
    errors := r.errors ++ ls.filterMap ReadLine.error?,
    warnings := r.warnings ++ ls.flatMap ReadLine.warnings }
  | [], r => by rw [List.filterMap_nil, List.flatMap_nil, List.append_nil, List.append_nil]; rfl
  | l :: ls, r => by
    rw [List.foldl_cons, report_foldl ls, report_eq, List.append_assoc, List.append_assoc,
      List.filterMap_cons, List.flatMap_cons]
    cases l.error? with
    | none => rfl
    | some e => rfl

/-! ## A line of a program is a phrase of its own -/

/-- What can become of a line, in a program and as a phrase: it is passed over and empty, or it is
a command in both, or it is not recognised in both. -/
theorem read?_cases (target : Target) (l : String × Nat) :
    (read? l = none ∧ outcomeOf target l.1 = .error .empty) ∨
    (∃ parsed, read? l = some ⟨l.2, canonical l.1, Token.ofText (canonical l.1), .ok parsed⟩ ∧
      parse grammar (Token.ofText (canonical l.1)) = .ok parsed ∧
      outcomeOf target l.1 = .ok ⟨Code.render (Code.linesOf target parsed.command),
        parsed.command, parsed.warnings⟩) ∨
    (∃ ts, read? l = some ⟨l.2, canonical l.1, Token.ofText (canonical l.1),
        .error (.unrecognized ts)⟩ ∧
      outcomeOf target l.1 = .error (.unreadable (.unrecognized ts))) := by
  by_cases hempty : canonical l.1 = ""
  · exact Or.inl ⟨if_pos hempty, if_pos hempty⟩
  · rw [read?, outcomeOf, if_neg hempty, if_neg hempty, ReadLine.of]
    dsimp only
    cases hparse : parse grammar (Token.ofText (canonical l.1)) with
    | ok parsed => exact Or.inr (Or.inl ⟨parsed, rfl, rfl, rfl⟩)
    | error cause =>
      obtain rfl := parse_eq_error (Phrase.ofText_ne_nil hempty) hparse
      exact Or.inr (Or.inr ⟨_, rfl, rfl⟩)

private theorem read?_error (target : Target) (l : String × Nat) :
    (read? l).bind ReadLine.error? = (outcomeOf target l.1).error? l.2 l.1 := by
  rcases read?_cases target l with ⟨hread, hout⟩ | ⟨parsed, hread, _, hout⟩ | ⟨ts, hread, hout⟩
  · rw [hread, hout]
    rfl
  · rw [hread, hout]
    rfl
  · rw [hread, hout, LineOutcome.error?, LineError.message, if_neg (message_unrecognized ts)]
    rfl

private theorem read?_warnings (target : Target) {l : String × Nat} (hl : 0 < l.2) :
    (read? l).toList.flatMap ReadLine.warnings = (outcomeOf target l.1).warningsOn l.2 := by
  rcases read?_cases target l with ⟨hread, hout⟩ | ⟨parsed, hread, _, hout⟩ | ⟨ts, hread, hout⟩
  · rw [hread, hout]
    rfl
  · have hline : Diagnostic.isLine (some l.2) = true := by
      rw [Diagnostic.isLine, Option.any_some, bne_iff_ne]
      omega
    rw [hread, hout, Option.toList_some, List.flatMap_singleton]
    exact List.map_congr_left fun w _ => if_pos hline
  · rw [hread, hout]
    rfl

private theorem read?_command (target : Target) (l : String × Nat) :
    (read? l).bind ReadLine.command?
      = (outcomeOf target l.1).toOption.map fun r => (l.2, r.command) := by
  rcases read?_cases target l with ⟨hread, hout⟩ | ⟨parsed, hread, _, hout⟩ | ⟨ts, hread, hout⟩
  · rw [hread, hout]
    rfl
  · rw [hread, hout]
    rfl
  · rw [hread, hout]
    rfl

private theorem read?_tokens (l : String × Nat) :
    ((read? l).toList.flatMap ReadLine.tokens).length = (Token.ofText (canonical l.1)).length := by
  rw [read?]
  split
  next hempty => rw [hempty]; rfl
  next => rw [Option.toList_some, List.flatMap_singleton, ReadLine.of]

/-- The lines that are passed over are those that fail because they say nothing. -/
theorem read?_eq_none (target : Target) (l : String × Nat) :
    read? l = none ↔ (outcomeOf target l.1).isEmptyInput = true := by
  rcases read?_cases target l with ⟨hread, hout⟩ | ⟨parsed, hread, _, hout⟩ | ⟨ts, hread, hout⟩
  · rw [hread, hout]
    exact ⟨fun _ => rfl, fun _ => rfl⟩
  · rw [hread, hout]
    exact ⟨fun h => absurd h (by simp), fun h => absurd h Bool.false_ne_true⟩
  · rw [hread, hout]
    exact ⟨fun h => absurd h (by simp), fun h => absurd (eq_of_beq h) (message_unrecognized ts)⟩

/-- A line that is converted has no operator that is unknown, and its code is that of its
command. -/
theorem outcomeOf_eq_ok {target : Target} {text : String} {r : LineResult}
    (h : outcomeOf target text = .ok r) : Code.unknownOperator? r.command = none ∧
      r.code = Code.render (Code.linesOf target r.command) := by
  rcases read?_cases target (text, 1) with ⟨_, hout⟩ | ⟨parsed, _, hparse, hout⟩ | ⟨ts, _, hout⟩
  · cases hout.symm.trans h
  · cases hout.symm.trans h
    exact ⟨Code.unknownOperator?_of_parse hparse, rfl⟩
  · cases hout.symm.trans h

/-! ## The whole text -/

/-- What the outcomes of single lines make of a text, where one of them says something. -/
structure Summary (target : Target) (outcome : String → LineOutcome) (lines : List (String × Nat))
    (o : ProgramOutcome) : Prop where
  errors : o.errors = lines.filterMap fun l => (outcome l.1).error? l.2 l.1
  warnings : o.warnings = lines.flatMap fun l => (outcome l.1).warningsOn l.2
  totalTokens : o.totalTokens = (lines.map fun l => (Token.ofText (canonical l.1)).length).sum
  success : o.result.isSome = true ↔ ∃ l ∈ lines, ∃ r, outcome l.1 = .ok r
  commands : ∀ p ∈ o.result, p.commands = lines.filterMap fun l =>
    (outcome l.1).toOption.map fun r => r.command
  lines : ∀ p ∈ o.result, p.lines = lines.filterMap fun l => (outcome l.1).toOption.map fun _ => l.2
  code : ∀ p ∈ o.result, Code.writeProgram target p.commands = .ok p.code

section

variable {s : ProgramStages} {ls : List (String × Nat)}

theorem report_errors (hs : s.lines = ls.filterMap read?) :
    s.report.errors = ls.filterMap fun l => (outcomeOf s.target l.1).error? l.2 l.1 := by
  rw [ProgramStages.report, report_foldl, hs]
  show [] ++ (ls.filterMap read?).filterMap ReadLine.error? = _
  rw [List.nil_append, List.filterMap_filterMap]
  exact List.filterMap_congr fun l _ => read?_error s.target l

theorem report_warnings (hs : s.lines = ls.filterMap read?) (hls : ∀ l ∈ ls, 0 < l.2) :
    s.report.warnings = ls.flatMap fun l => (outcomeOf s.target l.1).warningsOn l.2 := by
  rw [ProgramStages.report, report_foldl, hs]
  show [] ++ (ls.filterMap read?).flatMap ReadLine.warnings = _
  rw [List.nil_append, List.filterMap_eq_flatMap_toList, List.flatMap_assoc]
  exact List.flatMap_congr fun l hl => read?_warnings s.target (hls l hl)

theorem totalTokens_eq (hs : s.lines = ls.filterMap read?) :
    s.totalTokens = (ls.map fun l => (Token.ofText (canonical l.1)).length).sum := by
  rw [ProgramStages.totalTokens, hs, List.filterMap_eq_flatMap_toList, List.flatMap_assoc,
    List.length_flatMap]
  exact congrArg List.sum (List.map_congr_left fun l _ => read?_tokens l)

theorem commands_eq (hs : s.lines = ls.filterMap read?) :
    s.commands = ls.filterMap fun l =>
      (outcomeOf s.target l.1).toOption.map fun r => (l.2, r.command) := by
  rw [ProgramStages.commands, hs, List.filterMap_filterMap]
  exact List.filterMap_congr fun l _ => read?_command s.target l

theorem map_commands_eq {α : Type} (hs : s.lines = ls.filterMap read?) (g : Nat × Command → α) :
    s.commands.map g = ls.filterMap fun l =>
      (outcomeOf s.target l.1).toOption.map fun r => g (l.2, r.command) := by
  rw [commands_eq hs, List.map_filterMap]
  exact List.filterMap_congr fun l _ => Option.map_map ..

/-- There are commands if some line is converted. -/
theorem commands_ne_nil (hs : s.lines = ls.filterMap read?) :
    s.commands ≠ [] ↔ ∃ l ∈ ls, ∃ r, outcomeOf s.target l.1 = .ok r := by
  rw [commands_eq hs, ne_eq, List.filterMap_eq_nil_iff]
  constructor
  · intro h
    by_contra hnone
    refine h fun l hl => ?_
    cases hout : outcomeOf s.target l.1 with
    | error e => rfl
    | ok r => exact absurd ⟨l, hl, r, hout⟩ hnone
  · rintro ⟨l, hl, r, hout⟩ h
    have hnone := h l hl
    rw [hout] at hnone
    cases hnone

/-- Code is written for the commands of a program. -/
theorem code_eq (hs : s.lines = ls.filterMap read?) :
    s.code = .ok (Code.render (Code.programLines s.target (s.commands.map (·.2)))) := by
  apply Code.writeProgram_of_known
  intro c hc
  obtain ⟨⟨n, c⟩, hmem, rfl⟩ := List.mem_map.mp hc
  rw [commands_eq hs] at hmem
  obtain ⟨l, _, hl⟩ := List.mem_filterMap.mp hmem
  cases hout : outcomeOf s.target l.1 with
  | error e => rw [hout] at hl; cases hl
  | ok r =>
    rw [hout] at hl
    cases hl
    exact (outcomeOf_eq_ok hout).1

/-- The outcome of a text of which some line says something. -/
theorem summary_of_lines (hs : s.lines = ls.filterMap read?) (hls : ∀ l ∈ ls, 0 < l.2)
    (hsome : s.lines ≠ []) :
    ∃ o, s.outcome = .ok o ∧ Summary s.target (outcomeOf s.target) ls o := by
  rw [ProgramStages.outcome_eq, if_neg (by simpa using hsome)]
  by_cases hnone : s.commands = []
  · -- without commands there is no program, only what there is to say about the lines
    refine ⟨_, if_pos (by rw [hnone]; rfl), report_errors hs, report_warnings hs hls,
      totalTokens_eq hs, ?_, ?_, ?_, ?_⟩
    · rw [← commands_ne_nil hs]
      exact ⟨fun h => absurd h Bool.false_ne_true, fun h => absurd hnone h⟩
    all_goals exact fun p hp => absurd hp (by simp)
  · rw [if_neg (by simpa using hnone), code_eq hs]
    refine ⟨_, rfl, report_errors hs, report_warnings hs hls, totalTokens_eq hs, ?_, ?_, ?_, ?_⟩
    · rw [← commands_ne_nil hs]
      exact ⟨fun _ => hnone, fun _ => rfl⟩
    · intro p hp
      cases hp
      exact map_commands_eq hs _
    · intro p hp
      cases hp
      exact map_commands_eq hs _
    · intro p hp
      cases hp
      exact code_eq hs

end

/-! ## One line of Python -/

theorem deepen_zero (ls : List Code.Line) : Code.deepen 0 ls = ls := by
  show ls.map (fun line => line) = ls
  exact List.map_id ls

/-- In Python, one command is a program as it is. -/
private theorem programLines_python (c : Command) :
    Code.programLines .python [c] = Code.linesOf .python c := by
  by_cases hfunction : c.isFunction = true
  · -- a function is the only one, and no rest follows it
    have hhole : c.isHole = false := by cases c <;> first | rfl | cases hfunction
    simp [Code.programLines, Code.pythonProgram, Code.functionsOf, Code.statementsOf, hfunction,
      hhole, Code.separated]
  · cases hhole : c.isHole with
    | true =>
      -- a hole is not written at all
      cases c with
      | hole => rfl
      | _ => cases hhole
    | false =>
      simp [Code.programLines, Code.pythonProgram, Code.functionsOf, Code.statementsOf, hfunction,
        hhole, Code.separated, Code.statementLines, deepen_zero]

theorem lines_of_one {raw : String} (h : '\n' ∉ raw.toList) : Text.lines raw = [raw] := by
  have hcut : ∀ c ∈ raw.toList, (c == '\n') = false := by
    intro c hc
    rw [beq_eq_false_iff_ne]
    rintro rfl
    exact h hc
  rw [Text.lines, Text.splitWhere_of_none hcut, List.map_singleton, String.ofList_toList]

/-- The code of a line that is a program by itself. -/
private theorem Summary.code_of_one {raw : String} {o : ProgramOutcome}
    (h : Summary .python (outcomeOf .python) [(raw, 1)] o) :
    o.result.map (·.code) = (outcomeOf .python raw).toOption.map (·.code) := by
  cases hresult : o.result with
  | none =>
    cases hout : outcomeOf .python raw with
    | error e => rfl
    | ok r =>
      have hsome := h.success.mpr ⟨(raw, 1), List.mem_singleton.mpr rfl, r, hout⟩
      rw [hresult] at hsome
      cases hsome
  | some p =>
    obtain ⟨l, hl, r, hout⟩ := h.success.mp (by rw [hresult]; rfl)
    rw [List.mem_singleton] at hl
    subst hl
    have hcommands : p.commands = [r.command] := by
      rw [h.commands p hresult, List.filterMap_cons, hout]
      rfl
    obtain ⟨hknown, hline⟩ := outcomeOf_eq_ok hout
    have hcode := h.code p hresult
    rw [hcommands, Code.writeProgram_of_known (by simpa using hknown), programLines_python,
      Except.ok.injEq] at hcode
    rw [hout, Option.map_some, ← hcode, ← hline]
    rfl

/-! ## Programs and their lines -/

/-- In a language that there is not, a text is refused for that. -/
theorem program_of_no_target {language : Json} (h : Target.ofJson? language = none) (text : Json) :
    program text language = .ok
      (.refused { code := some "GEN001", message := some (Target.unsupported language) }) := by
  unfold program Traced.program
  rw [h]
  rfl

/-- In a language that there is, a text is converted in stages. -/
theorem program_eq_stages {language : Json} {target : Target}
    (h : Target.ofJson? language = some target) (text : Json) :
    program text language = (ProgramStages.run target text).outcome := by
  unfold program Traced.program
  rw [h]
  rfl

/-- A text of which no line says anything is refused as empty. -/
theorem program_of_no_lines {language : Json} {target : Target}
    (h : Target.ofJson? language = some target) {text : Json}
    (hnone : (ProgramStages.run target text).lines = []) : program text language
      = .ok (.refused { code := some "NRM001", message := some "Empty input" }) := by
  rw [program_eq_stages h, ProgramStages.outcome_eq, hnone]
  rfl

/-- **A program is converted line by line.** Each line on its own comes to an outcome, and so does
the text. If no line says anything, the text is refused as empty. If one does, the outcomes of the
lines, numbered from one, make up that of the text (`Summary`). One line of Python is
converted to the same code either way, if to any. -/
theorem program_line_by_line (raw : String) (language : Json) (target : Target)
    (h : Target.ofJson? language = some target) :
    ∃ (outcome : String → LineOutcome) (o : ProgramOutcome),
      (∀ text, line (.str text) language = .ok (outcome text)) ∧
      program (.str raw) language = .ok o ∧
      ((∀ text ∈ Text.lines raw, (outcome text).isEmptyInput = true) →
        o = .refused ⟨some "NRM001", some "Empty input", some 0, some ""⟩) ∧
      ((∃ text ∈ Text.lines raw, (outcome text).isEmptyInput = false) →
        Summary target outcome ((Text.lines raw).zipIdx 1) o) ∧
      (target = .python → '\n' ∉ raw.toList →
        o.result.map (·.code) = (outcome raw).toOption.map (·.code)) := by
  have hlines : (ProgramStages.run target (.str raw)).lines
      = ((Text.lines raw).zipIdx 1).filterMap read? := numberedFrom_eq (Text.lines raw) 1
  refine ⟨outcomeOf target, ?_⟩
  by_cases hempty : ∀ text ∈ Text.lines raw, (outcomeOf target text).isEmptyInput = true
  · -- every line is passed over, so there is nothing to read
    have hnil : (ProgramStages.run target (.str raw)).lines = [] := by
      rw [hlines, List.filterMap_eq_nil_iff]
      intro l hl
      exact (read?_eq_none target l).mpr (hempty l.1 (List.fst_mem_of_mem_zipIdx hl))
    refine ⟨_, line_eq h, program_of_no_lines h hnil, fun _ => rfl, ?_, ?_⟩
    · rintro ⟨text, htext, hfalse⟩
      rw [hempty text htext] at hfalse
      cases hfalse
    · rintro rfl hone
      have hraw := hempty raw (by rw [lines_of_one hone]; exact List.mem_singleton.mpr rfl)
      cases hout : outcomeOf .python raw with
      | error e => rfl
      | ok r => rw [hout] at hraw; cases hraw
  · -- some line says something, and that line is read
    obtain ⟨text, htext, hsays⟩ : ∃ text ∈ Text.lines raw,
        (outcomeOf target text).isEmptyInput = false := by
      simpa using hempty
    have hsome : (ProgramStages.run target (.str raw)).lines ≠ [] := by
      rw [hlines, ne_eq, List.filterMap_eq_nil_iff]
      intro hnone
      obtain ⟨l, hl, rfl⟩ : ∃ l ∈ (Text.lines raw).zipIdx 1, l.1 = text := by
        rw [← List.zipIdx_map_fst 1 (Text.lines raw)] at htext
        exact List.mem_map.mp htext
      rw [(read?_eq_none target l).mp (hnone l hl)] at hsays
      cases hsays
    obtain ⟨o, ho, hsummary⟩ :=
      summary_of_lines hlines (fun l hl => List.le_snd_of_mem_zipIdx hl) hsome
    refine ⟨o, line_eq h, (program_eq_stages h _).trans ho, fun hall => absurd hall hempty,
      fun _ => hsummary, ?_⟩
    rintro rfl hone
    rw [lines_of_one hone] at hsummary
    exact hsummary.code_of_one

/-- A command, an empty line, a line of fillers, a line that is not recognised, and a command whose
body is not. -/
theorem program_line_by_line_mixed :
    Target.ofJson? (.str " Java ") = some .java ∧
    ∃ o, program (.str "say 5\n\nplease the\nfoo bar\nif x above 2 then oops") (.str " Java ")
        = .ok o ∧
      o.errors.map (·.line) = [some 4] ∧ o.warnings.map (·.line) = [some 5] ∧
      o.totalTokens = 10 ∧ ∃ p, o.result = some p ∧ p.lines = [1, 5] := by
  have hlanguage : Target.ofJson? (.str " Java ") = some .java := by decide +kernel
  obtain ⟨outcome, o, hline, hprogram, _, hsays, _⟩ := program_line_by_line
    "say 5\n\nplease the\nfoo bar\nif x above 2 then oops" (.str " Java ") .java hlanguage
  have houtcome : outcome = outcomeOf .java :=
    funext fun text => Except.ok.inj ((hline text).symm.trans (line_eq hlanguage text))
  subst houtcome
  have hsummary := hsays (by decide +kernel)
  have hfirst : ∃ r, outcomeOf .java "say 5" = .ok r := by
    have hok : (outcomeOf .java "say 5").toOption.isSome = true := by decide +kernel
    cases hout : outcomeOf .java "say 5" with
    | error e => rw [hout] at hok; cases hok
    | ok r => exact ⟨r, rfl⟩
  obtain ⟨p, hp⟩ := Option.isSome_iff_exists.mp
    (hsummary.success.mpr ⟨("say 5", 1), by decide +kernel, hfirst⟩)
  refine ⟨hlanguage, o, hprogram, ?_, ?_, ?_, p, hp, ?_⟩
  · rw [hsummary.errors]
    decide +kernel
  · rw [hsummary.warnings]
    decide +kernel
  · rw [hsummary.totalTokens]
    decide +kernel
  · rw [hsummary.lines p hp]
    decide +kernel

end PlainCode.Convert
