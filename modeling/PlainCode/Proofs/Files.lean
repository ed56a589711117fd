import PlainCode.Console.Run
import PlainCode.Proofs.Answers

/-!
# Files on the command line

What the arguments ask for can be told position by position: an argument is taken along by a
`--lang` in front of it if that is not taken along itself (`isTaken`). The language is the last
argument that is taken along, the file the first one of the others that does not begin with a dash
(`Arguments.read_eq`).

What becomes of a file can be told line by line, where a line may be ended in three ways
(`FileLines`). Each line is read on its own: a command, or an error with its number, or nothing at
all (`readLine`). The outcome of the whole text is what these lines make of it (`exists_told`), and
`file_converted` says what a run leaves behind of it: the exit code, the entries of the error
output, and the program.
-/

namespace PlainCode

/-! ## Lines of a file -/

namespace Text

/-- The lines of a text in which a newline ends a line, or a carriage return, or a carriage return
and a newline behind it. -/
inductive FileLines : List Char → List String → Prop where
  | last {line : List Char} (h : ∀ c ∈ line, c ≠ '\n' ∧ c ≠ '\r') :
      FileLines line [String.ofList line]
  | newline {line rest : List Char} {ls : List String} (h : ∀ c ∈ line, c ≠ '\n' ∧ c ≠ '\r')
      (hrest : FileLines rest ls) : FileLines (line ++ '\n' :: rest) (String.ofList line :: ls)
  | carriageReturn {line rest : List Char} {ls : List String}
      (h : ∀ c ∈ line, c ≠ '\n' ∧ c ≠ '\r') (hnext : rest.head? ≠ some '\n')
      (hrest : FileLines rest ls) : FileLines (line ++ '\r' :: rest) (String.ofList line :: ls)
  | both {line rest : List Char} {ls : List String} (h : ∀ c ∈ line, c ≠ '\n' ∧ c ≠ '\r')
      (hrest : FileLines rest ls) :
      FileLines (line ++ '\r' :: '\n' :: rest) (String.ofList line :: ls)

theorem plainNewlines_of_ne {c : Char} (hc : c ≠ '\r') (cs : List Char) :
    plainNewlines (c :: cs) = c :: plainNewlines cs := by
  rw [plainNewlines.eq_3 _ _ fun _ h _ => hc h, if_neg hc]

private theorem plainNewlines_return {cs : List Char} (h : cs.head? ≠ some '\n') :
    plainNewlines ('\r' :: cs) = '\n' :: plainNewlines cs := by
  rw [plainNewlines.eq_3 _ _ fun rest _ hcs => h (by rw [hcs]; rfl), if_pos rfl]

/-- Characters that end no line stay as they are. -/
theorem plainNewlines_append {line : List Char} (h : ∀ c ∈ line, c ≠ '\n' ∧ c ≠ '\r')
    (rest : List Char) : plainNewlines (line ++ rest) = line ++ plainNewlines rest := by
  induction line with
  | nil => rfl
  | cons c line ih =>
    rw [List.forall_mem_cons] at h
    rw [List.cons_append, plainNewlines_of_ne h.1.2, ih h.2, List.cons_append]

theorem FileLines.lines_eq {cs : List Char} {ls : List String} (h : FileLines cs ls) :
    lines (String.ofList (plainNewlines cs)) = ls := by
  have hcut : ∀ {line : List Char}, (∀ c ∈ line, c ≠ '\n' ∧ c ≠ '\r') →
      splitWhere (· == '\n') line = [line] := fun hline =>
    splitWhere_of_none fun c hc => beq_eq_false_iff_ne.mpr (hline c hc).1
  -- a line and what ends it, however it is ended
  have hline : ∀ {line rest : List Char} {ls : List String},
      (∀ c ∈ line, c ≠ '\n' ∧ c ≠ '\r') → lines (String.ofList (plainNewlines rest)) = ls →
      lines (String.ofList (line ++ '\n' :: plainNewlines rest)) = String.ofList line :: ls := by
    intro line rest ls hline hrest
    rw [lines, String.toList_ofList] at hrest ⊢
    rw [splitWhere_append rfl, hcut hline, List.map_append, hrest]
    rfl
  induction h with
  | @last line h =>
    have hsame : plainNewlines line = line := by
      have hall := plainNewlines_append h []
      rwa [List.append_nil, plainNewlines, List.append_nil] at hall
    rw [hsame, lines, String.toList_ofList, hcut h, List.map_singleton]
  | newline h _ ih =>
    rw [plainNewlines_append h, plainNewlines_of_ne (by decide)]
    exact hline h ih
  | carriageReturn h hnext _ ih =>
    rw [plainNewlines_append h, plainNewlines_return hnext]
    exact hline h ih
  | both h _ ih =>
    rw [plainNewlines_append h, plainNewlines]
    exact hline h ih

/-- A character that ends no line makes the first line longer. -/
private theorem FileLines.exists_cons {cs : List Char} {ls : List String} (h : FileLines cs ls)
    {c : Char} (hc : c ≠ '\n' ∧ c ≠ '\r') : ∃ longer, FileLines (c :: cs) longer := by
  cases h with
  | last h => exact ⟨_, .last (List.forall_mem_cons.mpr ⟨hc, h⟩)⟩
  | newline h hrest => exact ⟨_, .newline (List.forall_mem_cons.mpr ⟨hc, h⟩) hrest⟩
  | carriageReturn h hnext hrest =>
    exact ⟨_, .carriageReturn (List.forall_mem_cons.mpr ⟨hc, h⟩) hnext hrest⟩
  | both h hrest => exact ⟨_, .both (List.forall_mem_cons.mpr ⟨hc, h⟩) hrest⟩

private theorem exists_fileLines (cs : List Char) : ∃ ls, FileLines cs ls := by
  have hnone : ∀ c ∈ ([] : List Char), c ≠ '\n' ∧ c ≠ '\r' := nofun
  fun_induction plainNewlines cs with
  | case1 => exact ⟨_, .last hnone⟩
  | case2 cs ih =>
    obtain ⟨ls, hls⟩ := ih
    exact ⟨_, .both hnone hls⟩
  | case3 c cs hboth ih =>
    obtain ⟨ls, hls⟩ := ih
    by_cases hreturn : c = '\r'
    · subst hreturn
      refine ⟨_, .carriageReturn hnone (fun hhead => ?_) hls⟩
      obtain ⟨rest, rfl⟩ := List.head?_eq_some_iff.mp hhead
      exact hboth rest rfl rfl
    · by_cases hnewline : c = '\n'
      · subst hnewline
        exact ⟨_, .newline hnone hls⟩
      · exact hls.exists_cons ⟨hnewline, hreturn⟩

/-- A text has its lines in one way only. -/
theorem fileLines_iff {cs : List Char} {ls : List String} :
    FileLines cs ls ↔ lines (String.ofList (plainNewlines cs)) = ls := by
  refine ⟨FileLines.lines_eq, ?_⟩
  rintro rfl
  obtain ⟨ls, h⟩ := exists_fileLines cs
  exact h.lines_eq ▸ h

end Text

namespace Console

open PlainCode.Convert

/-! ## Arguments -/

/-- Whether the argument at a position is taken along: there is a `--lang` in front of it, which is
not taken along itself. -/
def isTaken (args : List String) : Nat → Bool
  | 0 => false
  | i + 1 => args[i]? == some "--lang" && !isTaken args i && decide (i + 1 < args.length)

/-- The arguments that are taken along, or those that are not. -/
def argsWhere (taken : Bool) (args : List String) : List String :=
  (args.zipIdx.filter fun a => isTaken args a.2 == taken).map Prod.fst

/-- The language that arguments ask for: the last one that is taken along. -/
def languageGiven (args : List String) : String := (argsWhere true args).getLast?.getD "python"

/-- Whether debugging is asked for, wherever that is. -/
def debugGiven (args : List String) : Bool := args.contains "--debug" || args.contains "-d"

/-- Whether an argument begins with a dash. -/
def isDashed (arg : String) : Bool := arg.toList.head? == some '-'

/-- The path that arguments name: the first one that is neither taken along nor dashed. -/
def pathGiven (args : List String) : Option String :=
  (argsWhere false args).find? fun arg => !isDashed arg

/-- An argument that takes nothing along leaves the others as they are. -/
private theorem isTaken_cons {arg : String} {args : List String}
    (h : isTaken (arg :: args) 1 = false) (i : Nat) :
    isTaken (arg :: args) (i + 1) = isTaken args i := by
  induction i with
  | zero => exact h
  | succ i ih =>
    have hthere : i + 1 + 1 < (arg :: args).length ↔ i + 1 < args.length := Nat.add_lt_add_iff_right
    rw [isTaken, ih, isTaken, List.getElem?_cons_succ, decide_eq_decide.mpr hthere]

/-- Behind an argument that is taken along everything begins anew. -/
private theorem isTaken_lang (next : String) (args : List String) (i : Nat) :
    isTaken ("--lang" :: next :: args) (i + 2) = isTaken args i := by
  induction i with
  | zero =>
    have htaken : isTaken ("--lang" :: next :: args) 1 = true := by simp [isTaken]
    show (_ && !isTaken ("--lang" :: next :: args) 1 && _) = false
    rw [htaken, Bool.not_true, Bool.and_false, Bool.false_and]
  | succ i ih =>
    have hthere : i + 2 + 1 < ("--lang" :: next :: args).length ↔ i + 1 < args.length := by
      rw [List.length_cons, List.length_cons]
      omega
    rw [isTaken, ih, isTaken, List.getElem?_cons_succ, List.getElem?_cons_succ,
      decide_eq_decide.mpr hthere]

/-- What is taken along behind some arguments is what is taken along without them, if it is so at
every position. -/
theorem argsWhere_behind (taken : Bool) {all args : List String} {front : Nat}
    (h : ∀ i, isTaken all (front + i) = isTaken args i) :
    ((args.zipIdx front).filter fun a => isTaken all a.2 == taken).map Prod.fst
      = argsWhere taken args := by
  rw [List.zipIdx_eq_map_add, List.filter_map, List.map_map, argsWhere]
  refine congrArg (List.map Prod.fst) (List.filter_congr fun a _ => ?_)
  exact congrArg (· == taken) (h a.2)

/-- The first argument is not taken along, and if it takes none along, the others are left. -/
theorem argsWhere_cons (taken : Bool) {arg : String} {args : List String}
    (h : isTaken (arg :: args) 1 = false) :
    argsWhere taken (arg :: args) = (if taken then [] else [arg]) ++ argsWhere taken args := by
  have hrest := argsWhere_behind taken fun i => (congrArg _ (Nat.add_comm 1 i)).trans
    (isTaken_cons h i)
  rw [argsWhere, List.zipIdx_cons, List.filter_cons, ← hrest]
  cases taken with
  | false => rfl
  | true => rfl

/-- A `--lang` takes the next argument along, whatever that is. -/
theorem argsWhere_lang (taken : Bool) (next : String) (args : List String) :
    argsWhere taken ("--lang" :: next :: args)
      = (if taken then next else "--lang") :: argsWhere taken args := by
  have hrest := argsWhere_behind taken fun i => (congrArg _ (Nat.add_comm 2 i)).trans
    (isTaken_lang next args i)
  have htaken : isTaken ("--lang" :: next :: args) 1 = true := by simp [isTaken]
  rw [argsWhere, List.zipIdx_cons, List.zipIdx_cons, List.filter_cons, List.filter_cons, htaken,
    ← hrest]
  cases taken with
  | false => rfl
  | true => rfl

namespace Arguments

theorem see_eq (a : Arguments) (arg : String) :
    a.see arg = { a with path := a.path.or ([arg].find? fun arg => !isDashed arg) } := by
  rw [see, List.find?_singleton]
  by_cases hdash : arg.toList.head? = some '-'
  · have hdashed : isDashed arg = true := beq_iff_eq.mpr hdash
    rw [if_pos hdash, hdashed]
    exact congrArg (Arguments.mk a.debug a.language) Option.or_none.symm
  · have hplain : isDashed arg = false := beq_eq_false_iff_ne.mpr hdash
    rw [if_neg hdash, hplain]
    rfl

/-- Arguments are taken in one after the other: each language in place of the one before, and a path
only if there is none yet. -/
private theorem scan_eq (a : Arguments) (args : List String) : a.scan args = { a with
    language := (argsWhere true args).getLast?.getD a.language
    path := a.path.or ((argsWhere false args).find? fun arg => !isDashed arg) } := by
  -- an argument that takes nothing along is seen, and then come the others
  have hsee : ∀ (a : Arguments) {arg : String} {args : List String},
      isTaken (arg :: args) 1 = false → (a.see arg).path.or
          ((argsWhere false args).find? fun arg => !isDashed arg)
        = a.path.or ((argsWhere false (arg :: args)).find? fun arg => !isDashed arg) := by
    intro a arg args h
    rw [argsWhere_cons false h, see_eq, Option.or_assoc, ← List.find?_append]
    rfl
  fun_induction scan a args with
  | case1 a => exact congrArg (Arguments.mk a.debug a.language) Option.or_none.symm
  | case2 a arg =>
    have hnone : isTaken [arg] 1 = false := by simp [isTaken]
    rw [← hsee a hnone, argsWhere_cons true hnone, see_eq]
    exact congrArg (Arguments.mk a.debug a.language) Option.or_none.symm
  | case3 a next rest ih =>
    have hdashed : isDashed "--lang" = true := by decide
    have hpath : ("--lang" :: argsWhere false rest).find? (fun arg => !isDashed arg)
        = (argsWhere false rest).find? fun arg => !isDashed arg := by
      rw [List.find?_cons, hdashed]
      rfl
    rw [ih, argsWhere_lang, argsWhere_lang, if_pos rfl, if_neg Bool.false_ne_true, hpath,
      List.getLast?_cons]
    rfl
  | case4 a arg next rest h ih =>
    have hnone : isTaken (arg :: next :: rest) 1 = false := by simp [isTaken, h]
    rw [ih, ← hsee a hnone, argsWhere_cons true hnone, see_eq]
    rfl

/-- What arguments ask for, position by position. -/
theorem read_eq (args : List String) : read args = {
    debug := debugGiven args
    language := languageGiven args
    path := pathGiven args } := scan_eq _ args

end Arguments

/-! ## Lines, and what is said about them -/

/-- What a line of a file is read as. -/
def readLine (line : String) : Except ParseError Parsed :=
  parse grammar (Token.ofText (Phrase.canonical line))

/-- Whether some line is a command. -/
def HasCommand (lines : List String) : Prop := ∃ line ∈ lines, ∃ p, readLine line = .ok p

/-- The commands on lines. -/
def commandsOn (lines : List String) : List Command :=
  lines.filterMap fun line => (readLine line).toOption.map Parsed.command

/-- What is wrong with a line that says something and is no command. -/
def fault? (line : String) : Option String :=
  match readLine line with
  | .error (.unrecognized ts) => some (ParseError.unrecognized ts).message
  | _ => none

/-- What the warnings about a line say. -/
def cautions (line : String) : List String :=
  match readLine line with
  | .ok p => p.warnings.map fun w => w.message.shown
  | .error _ => []

/-- An entry of the error output. -/
def entry (mark : String) (number : Nat) (message : String) : String :=
  mark ++ toString number ++ ": " ++ message

/-- The entries about errors: one for each line with a fault, or one about the text as a whole if no
line of it says anything. -/
def errorEntries (lines : List String) : List String :=
  if ∀ line ∈ lines, Phrase.canonical line = "" then [entry "❌ Line " 0 "Empty input"]
  else (lines.zipIdx 1).filterMap fun l => (fault? l.1).map (entry "❌ Line " l.2)

/-- The entries about warnings. -/
def warningEntries (lines : List String) : List String :=
  (lines.zipIdx 1).flatMap fun l => (cautions l.1).map (entry "⚠ Line " l.2)

/-- What a line is read as, and what becomes of it as a phrase. -/
theorem readLine_cases (target : Target) (line : String) :
    (Phrase.canonical line = "" ∧ readLine line = .error .empty ∧
      outcomeOf target line = .error .empty) ∨
    (∃ p, readLine line = .ok p ∧ outcomeOf target line
      = .ok ⟨Code.render (Code.linesOf target p.command), p.command, p.warnings⟩) ∨
    (∃ ts, readLine line = .error (.unrecognized ts) ∧
      outcomeOf target line = .error (.unreadable (.unrecognized ts))) := by
  rw [readLine, outcomeOf]
  by_cases hempty : Phrase.canonical line = ""
  · rw [if_pos hempty, hempty]
    exact Or.inl ⟨rfl, rfl, rfl⟩
  · rw [if_neg hempty]
    cases hparse : parse grammar (Token.ofText (Phrase.canonical line)) with
    | ok p => exact Or.inr (Or.inl ⟨p, rfl, rfl⟩)
    | error e =>
      obtain rfl := parse_eq_error (Phrase.ofText_ne_nil hempty) hparse
      exact Or.inr (Or.inr ⟨_, rfl, rfl⟩)

private theorem fault?_eq (target : Target) (line : String) (number : Nat) :
    ((outcomeOf target line).error? number line).map
        (fun d => "❌ Line " ++ d.lineText ++ ": " ++ d.message.shown)
      = (fault? line).map (entry "❌ Line " number) := by
  rw [fault?]
  rcases readLine_cases target line with ⟨_, hread, hout⟩ | ⟨p, hread, hout⟩ | ⟨ts, hread, hout⟩
  · rw [hread, hout]
    rfl
  · rw [hread, hout]
    rfl
  · rw [hread, hout, LineOutcome.error?, LineError.message, if_neg (message_unrecognized ts)]
    rfl

private theorem cautions_eq (target : Target) (line : String) (number : Nat) :
    ((outcomeOf target line).warningsOn number).map
        (fun d => "⚠ Line " ++ d.lineText ++ ": " ++ d.message.shown)
      = (cautions line).map (entry "⚠ Line " number) := by
  rw [cautions]
  rcases readLine_cases target line with ⟨_, hread, hout⟩ | ⟨p, hread, hout⟩ | ⟨ts, hread, hout⟩
  · rw [hread, hout]
    rfl
  · rw [hread, hout, LineOutcome.warningsOn, List.map_map, List.map_map]
    rfl
  · rw [hread, hout]
    rfl

private theorem toOption_outcomeOf (target : Target) (line : String) :
    (outcomeOf target line).toOption.map (fun r => r.command)
      = (readLine line).toOption.map Parsed.command := by
  rcases readLine_cases target line with ⟨_, hread, hout⟩ | ⟨p, hread, hout⟩ | ⟨ts, hread, hout⟩
  · rw [hread, hout]
    rfl
  · rw [hread, hout]
    rfl
  · rw [hread, hout]
    rfl

private theorem exists_outcomeOf_iff (target : Target) (line : String) :
    (∃ r, outcomeOf target line = .ok r) ↔ ∃ p, readLine line = .ok p := by
  rcases readLine_cases target line with ⟨_, hread, hout⟩ | ⟨p, hread, hout⟩ | ⟨ts, hread, hout⟩
  · rw [hread, hout]
    exact ⟨nofun, nofun⟩
  · rw [hread, hout]
    exact ⟨fun _ => ⟨p, rfl⟩, fun _ => ⟨_, rfl⟩⟩
  · rw [hread, hout]
    exact ⟨nofun, nofun⟩

/-! ## Files -/

/-- The outcome of a text as its lines have it. -/
structure Told (target : Target) (lines : List String) (o : ProgramOutcome) : Prop where
  complaints : complaints o = errorEntries lines ++ warningEntries lines
  success : o.result.isSome = true ↔ HasCommand lines
  code : ∀ p ∈ o.result, Code.writeProgram target (commandsOn lines) = .ok p.code

/-- A text in which nothing is said is told to be empty. -/
private theorem told_refused (target : Target) {lines : List String}
    (h : ∀ line ∈ lines, Phrase.canonical line = "") :
    Told target lines (.refused { code := some "NRM001", message := some "Empty input" }) := by
  have hread : ∀ line ∈ lines, readLine line = .error .empty := fun line hline => by
    rw [readLine, h line hline]
    rfl
  have hwarnings : warningEntries lines = [] := by
    refine List.flatMap_eq_nil_iff.mpr fun l hl => ?_
    rw [cautions, hread l.1 (List.fst_mem_of_mem_zipIdx hl)]
    rfl
  refine ⟨?_, ⟨nofun, ?_⟩, nofun⟩
  · rw [errorEntries, if_pos h, hwarnings]
    decide
  · rintro ⟨line, hline, p, hp⟩
    cases (hread line hline).symm.trans hp

/-- A text in which something is said is told line by line. -/
private theorem told_of_summary {target : Target} {lines : List String} {o : ProgramOutcome}
    (hspoken : ∃ line ∈ lines, Phrase.canonical line ≠ "")
    (h : Summary target (outcomeOf target) (lines.zipIdx 1) o) : Told target lines o := by
  constructor
  · have hnot : ¬ ∀ line ∈ lines, Phrase.canonical line = "" := fun hall =>
      let ⟨line, hline, hne⟩ := hspoken
      hne (hall line hline)
    rw [Console.complaints, errorEntries, if_neg hnot, warningEntries, h.errors, h.warnings,
      List.map_filterMap, List.map_flatMap]
    refine congrArg₂ (· ++ ·) (List.filterMap_congr fun l _ => fault?_eq target l.1 l.2) ?_
    exact List.flatMap_congr fun l _ => cautions_eq target l.1 l.2
  · rw [h.success, HasCommand]
    simp only [exists_outcomeOf_iff]
    refine ⟨fun ⟨l, hl, hp⟩ => ⟨l.1, List.fst_mem_of_mem_zipIdx hl, hp⟩, ?_⟩
    rintro ⟨line, hline, hp⟩
    rw [← List.zipIdx_map_fst 1 lines] at hline
    obtain ⟨l, hl, rfl⟩ := List.mem_map.mp hline
    exact ⟨l, hl, hp⟩
  · intro p hp
    have hcommands : p.commands = commandsOn lines := by
      rw [h.commands p hp, commandsOn]
      conv_rhs => rw [← List.zipIdx_map_fst 1 lines, List.filterMap_map]
      refine List.filterMap_congr fun l _ => ?_
      rw [Function.comp_apply]
      exact toOption_outcomeOf target l.1
    rw [← hcommands]
    exact h.code p hp

/-- Every text is told line by line. -/
theorem exists_told (target : Target) (text : String) :
    ∃ o, Convert.program (.str text) (.str target.name) = .ok o ∧
      Told target (Text.lines text) o := by
  obtain ⟨o, ho, ⟨hempty, rfl⟩ | ⟨hspoken, hsummary⟩⟩ :=
    program_of_target (Target.ofJson?_name target) text
  · exact ⟨_, ho, told_refused target hempty⟩
  · exact ⟨o, ho, told_of_summary hspoken hsummary⟩

/-- What a run of the command line leaves behind of a file with some lines. -/
structure Converted (debug : Bool) (target : Target) (lines : List String) (out : Output) :
    Prop where
  exit_zero : out.exit = 0 ↔ HasCommand lines
  exit_one : out.exit = 1 ↔ ¬ HasCommand lines
  stderr : out.stderr = printed (errorEntries lines ++ warningEntries lines)
  stdout_zero : debug = false → out.exit = 0 →
    ∃ code, Code.writeProgram target (commandsOn lines) = .ok code ∧ out.stdout = code ++ "\n"
  stdout_one : debug = false → out.exit = 1 → out.stdout = ""

/-- The outcome of a text decides what its conversion leaves behind. -/
theorem converted_of_told {target : Target} {text : String} {lines : List String}
    {o : ProgramOutcome} (debug : Bool)
    (ho : Convert.program (.str text) (.str target.name) = .ok o) (h : Told target lines o) :
    ∃ out, convertFile ⟨debug⟩ target text = .ok out ∧ Converted debug target lines out := by
  have hquiet : ∀ entries : List String, debug = false →
      printed (if debug then entries else []) = "" := by
    rintro entries rfl
    rfl
  have hresult : (Traced.program (.str text) (.str target.name)).result = .ok o := ho
  unfold convertFile
  rw [(uniform_program _ _).run_alone, hresult]
  obtain ⟨errors, warnings, totalTokens, result⟩ := o
  cases result with
  | none =>
    have hnone : ¬ HasCommand lines := fun hsome => Bool.false_ne_true (h.success.mpr hsome)
    refine ⟨_, rfl, ?_⟩
    constructor
    case exit_zero => exact ⟨nofun, fun hsome => absurd hsome hnone⟩
    case exit_one => exact ⟨fun _ => hnone, fun _ => rfl⟩
    case stderr => exact congrArg printed h.complaints
    case stdout_zero => exact fun _ hzero => absurd hzero Nat.one_ne_zero
    case stdout_one => exact fun hdebug _ => hquiet _ hdebug
  | some result =>
    have hsome : HasCommand lines := h.success.mp rfl
    refine ⟨_, rfl, ?_⟩
    constructor
    case exit_zero => exact ⟨fun _ => hsome, fun _ => rfl⟩
    case exit_one =>
      exact ⟨fun hone => absurd hone Nat.zero_ne_one, fun hnone => absurd hsome hnone⟩
    case stderr => exact congrArg printed h.complaints
    case stdout_zero =>
      refine fun hdebug _ => ⟨result.code, h.code result rfl, ?_⟩
      exact (congrArg (· ++ result.code ++ "\n") (hquiet _ hdebug)).trans
        (congrArg (· ++ "\n") String.empty_append)
    case stdout_one => exact fun _ hone => absurd hone Nat.zero_ne_one

/-- A file with a text is read as that text, but for the ends of its lines. -/
private theorem textOf_toUTF8 (path text : String) :
    textOf path (.file text.toUTF8) = .ok (String.ofList (Text.plainNewlines text.toList)) := by
  have hdecode : String.fromUTF8? text.toUTF8 = some text := dif_pos text.isValidUTF8
  rw [textOf, hdecode]

/-- In a language that there is, the task is a file if there is a path. -/
theorem Task.ofArgs_of_path {args : List String} {target : Target} {path : String}
    (h : Target.ofText? (languageGiven args) = some target) (hpath : pathGiven args = some path) :
    ofArgs args = .file (debugGiven args) target path := by
  unfold Task.ofArgs
  rw [Arguments.read_eq]
  dsimp only
  rw [h, hpath]

/-- Without a path it is a dialogue. -/
private theorem Task.ofArgs_of_no_path {args : List String} {target : Target}
    (h : Target.ofText? (languageGiven args) = some target) (hpath : pathGiven args = none) :
    ofArgs args = .dialogue (Dialogue.start target (debugGiven args)) := by
  unfold Task.ofArgs
  rw [Arguments.read_eq]
  dsimp only
  rw [h, hpath]

theorem run_of_unsupported {args : List String} (h : Target.ofText? (languageGiven args) = none)
    (entryAt : String → Entry) (stdin : String) : run args entryAt stdin
      = .ok ⟨2, "", "❌ ERROR: " ++ Target.unsupported (.str (languageGiven args)) ++ "\n"⟩ := by
  unfold run Task.ofArgs
  rw [Arguments.read_eq]
  dsimp only
  rw [h]

/-- A conversion and a dialogue never end as a refusal does. -/
private theorem exit_ne_two {args : List String} {target : Target}
    (h : Target.ofText? (languageGiven args) = some target) {entryAt : String → Entry}
    {stdin : String} {out : Output} (hrun : run args entryAt stdin = .ok out) : out.exit ≠ 2 := by
  unfold run at hrun
  cases hpath : pathGiven args with
  | none =>
    rw [Task.ofArgs_of_no_path h hpath] at hrun
    unfold dialogueOutput at hrun
    dsimp only at hrun
    split at hrun
    next => cases hrun; exact Nat.zero_ne_add_one 1
    next => cases hrun
    next => cases hrun
  | some path =>
    rw [Task.ofArgs_of_path h hpath] at hrun
    dsimp only at hrun
    split at hrun
    next => cases hrun
    next text _ =>
      obtain ⟨o, ho, htold⟩ := exists_told target text
      obtain ⟨converted, hconverted, hout⟩ := converted_of_told (debugGiven args) ho htold
      obtain rfl := Except.ok.inj (hconverted.symm.trans hrun)
      by_cases hcommand : HasCommand (Text.lines text)
      · rw [hout.exit_zero.mpr hcommand]
        exact Nat.zero_ne_add_one 1
      · rw [hout.exit_one.mpr hcommand]
        exact Nat.ne_of_lt (Nat.lt_succ_self 1)

/-- A file with a text is converted line by line. -/
private theorem exists_run_of_file {args : List String} {target : Target} {path : String}
    (hlanguage : Target.ofText? (languageGiven args) = some target)
    (hpath : pathGiven args = some path) (text : String) {entryAt : String → Entry}
    (hentry : entryAt path = .file text.toUTF8) (stdin : String) :
    ∃ out, run args entryAt stdin = .ok out ∧ Converted (debugGiven args) target
      (Text.lines (String.ofList (Text.plainNewlines text.toList))) out := by
  obtain ⟨o, ho, htold⟩ := exists_told target (String.ofList (Text.plainNewlines text.toList))
  obtain ⟨out, hout, hconverted⟩ := converted_of_told _ ho htold
  refine ⟨out, ?_, hconverted⟩
  unfold run
  rw [Task.ofArgs_of_path hlanguage hpath]
  dsimp only
  rw [hentry, textOf_toUTF8]
  exact hout

/-- **What becomes of a file.** A language that there is not ends a run before anything is opened,
with nothing but a message, and no other run exits with 2. Otherwise a file is taken line by line:
the run exits with 0 if some line is a command and with 1 if none is, and the error output has an
entry for every error and then one for every warning, in the order of the lines. Unless debugging is
on, the standard output is the program of all commands, or nothing if there are none. -/
theorem file_converted (args : List String) :
    (Target.ofText? (languageGiven args) = none → ∀ entryAt stdin, run args entryAt stdin
      = .ok ⟨2, "", "❌ ERROR: " ++ Target.unsupported (.str (languageGiven args)) ++ "\n"⟩) ∧
    (∀ entryAt stdin out, run args entryAt stdin = .ok out →
      (out.exit = 2 ↔ Target.ofText? (languageGiven args) = none)) ∧
    ∀ (target : Target) (path text : String),
      Target.ofText? (languageGiven args) = some target → pathGiven args = some path → ∃ lines,
        (∀ other, Text.FileLines text.toList other ↔ other = lines) ∧
        ∀ entryAt stdin, entryAt path = .file text.toUTF8 →
          ∃ out, run args entryAt stdin = .ok out ∧
            (out.exit = 0 ↔ HasCommand lines) ∧ (out.exit = 1 ↔ ¬ HasCommand lines) ∧
            out.stderr = printed (errorEntries lines ++ warningEntries lines) ∧
            ("--debug" ∉ args → "-d" ∉ args →
              (out.exit = 0 → ∃ code, Code.writeProgram target (commandsOn lines) = .ok code ∧
                out.stdout = code ++ "\n") ∧
              (out.exit = 1 → out.stdout = "")) := by
  refine ⟨run_of_unsupported, fun entryAt stdin out hrun => ⟨fun htwo => ?_, fun hnone => ?_⟩, ?_⟩
  · cases hlanguage : Target.ofText? (languageGiven args) with
    | none => rfl
    | some target => exact absurd htwo (exit_ne_two hlanguage hrun)
  · rw [run_of_unsupported hnone] at hrun
    cases hrun
    rfl
  · intro target path text hlanguage hpath
    refine ⟨_, fun other => Text.fileLines_iff.trans eq_comm, fun entryAt stdin hentry => ?_⟩
    obtain ⟨out, hrun, h⟩ := exists_run_of_file hlanguage hpath text hentry stdin
    refine ⟨out, hrun, h.exit_zero, h.exit_one, h.stderr, fun hdebug hd => ?_⟩
    have hoff : debugGiven args = false := by
      rw [debugGiven, Bool.or_eq_false_iff, ← Bool.not_eq_true, ← Bool.not_eq_true,
        List.contains_iff_mem, List.contains_iff_mem]
      exact ⟨hdebug, hd⟩
    exact ⟨h.stdout_zero hoff, h.stdout_one hoff⟩

/-- Arguments that can be taken for one another, a file whose lines end in three ways and of which
one line is no command and another has a body that is not read, and a language that there is not. -/
theorem file_converted_mixed :
    let args := ["--lang", "--lang", "x.txt", "--lang", "C++", "other", "--lang"]
    let text := "print 5\r\noops\rif x less than 2 then bad\n"
    languageGiven args = "C++" ∧ pathGiven args = some "x.txt" ∧
    (∃ out, run args (fun path => if path = "x.txt" then .file text.toUTF8 else .missing) ""
        = .ok out ∧ out.exit = 0 ∧
      out.stdout = "#include <iostream>\n\nint main() \x7b\n    std::cout << 5 << std::endl;\n" ++
        "    if (x < 2) \x7b\n        ;\n    \x7d\n    return 0;\n\x7d\n" ∧
      out.stderr = "❌ Line 2: Unrecognized command: \"oops\".\nTry patterns like: " ++
        "\"create variable x value 10\", \"print x\", \"if x greater than 5 then print x\"\n" ++
        "⚠ Line 3: Could not parse then body \"bad\"; treated as empty\n") ∧
    run ["--lang", "perl", "x.txt"] (fun _ => .missing) "" = .ok ⟨2, "",
      "❌ ERROR: Unsupported language: 'perl'. Choose one of: python, java, cpp\n"⟩ := by
  intro args text
  have hlanguage : languageGiven args = "C++" := by decide
  have hpath : pathGiven args = some "x.txt" := by decide
  refine ⟨hlanguage, hpath, ?_, ?_⟩
  · obtain ⟨_, _, hfile⟩ := file_converted args
    obtain ⟨lines, hlines, hrun⟩ :=
      hfile .cpp "x.txt" text (by rw [hlanguage]; decide +kernel) hpath
    obtain rfl : ["print 5", "oops", "if x less than 2 then bad", ""] = lines :=
      (hlines _).mp (Text.fileLines_iff.mpr (by decide +kernel))
    obtain ⟨out, hout, hzero, _, hstderr, hstdout⟩ := hrun
      (fun path => if path = "x.txt" then .file text.toUTF8 else .missing) "" (if_pos rfl)
    have hcommand : HasCommand ["print 5", "oops", "if x less than 2 then bad", ""] :=
      ⟨"print 5", by decide, ⟨.print, .print (some [some "5"]), []⟩, by decide +kernel⟩
    have hexit : out.exit = 0 := hzero.mpr hcommand
    obtain ⟨code, hcode, hprogram⟩ := (hstdout (by decide) (by decide)).1 hexit
    refine ⟨out, hout, hexit, ?_, hstderr.trans (by decide +kernel)⟩
    have hwritten : (Code.writeProgram .cpp
        (commandsOn ["print 5", "oops", "if x less than 2 then bad", ""])).toOption
        = some ("#include <iostream>\n\nint main() \x7b\n    std::cout << 5 << std::endl;\n" ++
          "    if (x < 2) \x7b\n        ;\n    \x7d\n    return 0;\n\x7d") := by
      decide +kernel
    rw [hcode] at hwritten
    rw [hprogram, Option.some.inj hwritten]
    decide +kernel
  · rw [(file_converted ["--lang", "perl", "x.txt"]).1 (by decide +kernel)]
    decide +kernel

end Console

end PlainCode
