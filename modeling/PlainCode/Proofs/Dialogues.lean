import PlainCode.Console.Run
import PlainCode.Proofs.Answers

/-!
# Dialogues

A dialogue takes one line after another and keeps the language and whether debugging is on, the
latter in two places. What it is set to at a prompt can be told from the lines in front of it alone:
the last language that was asked for and the last word about debugging count, and all other lines
leave it as it is (`languageAfter`, `debugAfter`).

`Goes` is a dialogue that has not been ended, with the state at each prompt and what is printed
behind it. What one line does (`turn_start`) carries over to all of them (`Goes.state`), and the
output of a run is what such a dialogue prints (`Goes.transcript`). `dialogue_settings` puts this
together for a run of the command line.
-/

namespace PlainCode.Console

open PlainCode.Convert (exists_line exists_program printed_of_debug uniform_line
  uniform_program)

/-! ## What lines ask for -/

/-- A line without blanks around it, in small letters. -/
def said (line : String) : String := Text.lower (Text.trim line)

/-- Whether a line ends the dialogue. -/
def endsDialogue (line : String) : Bool := ["quit", "exit", "q"].contains (said line)

/-- What is behind `lang`, if a line begins with that. -/
def nameAsked? (line : String) : Option String :=
  if (said line).startsWith "lang " then some (String.ofList ((Text.trim line).toList.drop 5))
  else none

/-- The language that a line asks for, if there is one of that name. -/
def languageAsked? (line : String) : Option Target := (nameAsked? line).bind Target.ofText?

/-- What a line sets debugging to. -/
def debugAsked? (line : String) : Option Bool :=
  if said line = "debug on" then some true
  else if said line = "debug off" then some false
  else none

/-- The language after some lines: the last one that was asked for, or the one before. -/
def languageAfter (t : Target) (lines : List String) : Target :=
  (lines.filterMap languageAsked?).getLast?.getD t

/-- Whether debugging is on after some lines: as it was set last, or as it was before. -/
def debugAfter (debug : Bool) (lines : List String) : Bool :=
  (lines.filterMap debugAsked?).getLast?.getD debug

/-- The last thing that is found counts, and what is found first only if nothing is found later. -/
theorem getLast?_filterMap_cons {α β : Type} (f : α → Option β) (a : α) (as : List α) (b : β) :
    ((a :: as).filterMap f).getLast?.getD b = (as.filterMap f).getLast?.getD ((f a).getD b) := by
  rw [List.filterMap_cons]
  cases f a with
  | none => rfl
  | some first => rw [List.getLast?_cons]; rfl

private theorem languageAfter_cons (t : Target) (line : String) (lines : List String) :
    languageAfter t (line :: lines) = languageAfter ((languageAsked? line).getD t) lines :=
  getLast?_filterMap_cons ..

theorem debugAfter_cons (debug : Bool) (line : String) (lines : List String) :
    debugAfter debug (line :: lines) = debugAfter ((debugAsked? line).getD debug) lines :=
  getLast?_filterMap_cons ..

/-- A line that asks for a language says nothing about debugging. -/
theorem debugAsked?_of_nameAsked? {line name : String} (h : nameAsked? line = some name) :
    debugAsked? line = none := by
  unfold nameAsked? at h
  split at h
  next hlang =>
    have hne : ∀ {text : String}, text.startsWith "lang " = false → said line ≠ text := by
      rintro text htext rfl
      rw [htext] at hlang
      exact Bool.false_ne_true hlang
    rw [debugAsked?, if_neg (hne (by decide +kernel)), if_neg (hne (by decide +kernel))]
  next => cases h

/-- What a line asks for, from what it says. -/
theorem ofLine_eq (line : String) : Request.ofLine line =
    if endsDialogue line then .quit
    else
      match nameAsked? line, debugAsked? line with
      | some name, _ => .language name
      | none, some on => .debug on
      | none, none => if Text.trim line = "" then .nothing else .phrase (Text.trim line) := by
  unfold Request.ofLine endsDialogue nameAsked? debugAsked? said
  dsimp only
  generalize Text.lower (Text.trim line) = small
  simp only [List.contains_cons, List.contains_nil, Bool.or_false, Bool.or_eq_true, beq_iff_eq]
  split
  next => rfl
  next =>
    split
    next => rfl
    next =>
      split
      next => rfl
      next =>
        split
        next => rfl
        next => rfl

/-! ## Turns -/

namespace Dialogue

/-- A phrase that has an outcome leaves the dialogue as it is. -/
theorem take_phrase {d : Dialogue} {text : String} {outcome : Convert.LineOutcome}
    (h : Convert.line (.str text) (.str d.language.name) = .ok outcome) :
    d.take (.phrase text) = .ok ⟨d,
      d.session.traced (Convert.lineTrace (.str text) (.str d.language.name)) ++
        printed (d.shownOutcome outcome), false⟩ := by
  have hrun := (uniform_line (.str text) (.str d.language.name)).run_alone d.session
  rw [take, hrun]
  dsimp only
  rw [printed_of_debug]
  exact congrArg (Except.map _) h

/-- A line that does not end the dialogue is answered, and leaves nothing but what it sets. -/
theorem turn_start (t : Target) (debug : Bool) {line : String} (h : endsDialogue line = false) :
    ∃ output, (start t debug).turn line = .ok
      ⟨start ((languageAsked? line).getD t) ((debugAsked? line).getD debug), output, false⟩ := by
  rw [turn, ofLine_eq, if_neg (by rw [h]; exact Bool.false_ne_true)]
  cases hname : nameAsked? line with
  | some name =>
    rw [debugAsked?_of_nameAsked? hname, languageAsked?, hname]
    unfold take
    dsimp only [Option.bind_some]
    cases Target.ofText? name with
    | some target => exact ⟨_, rfl⟩
    | none => exact ⟨_, rfl⟩
  | none =>
    rw [languageAsked?, hname]
    cases debugAsked? line with
    | some on => cases on <;> exact ⟨_, rfl⟩
    | none =>
      dsimp only
      split
      next => exact ⟨_, rfl⟩
      next =>
        obtain ⟨outcome, houtcome, _⟩ := exists_line (Text.trim line) (.str t.name)
        exact ⟨_, take_phrase houtcome⟩

theorem turn_ends (d : Dialogue) {line : String} (h : endsDialogue line = true) :
    d.turn line = .ok ⟨d, "Goodbye!\n", true⟩ := by
  rw [turn, ofLine_eq, if_pos h]
  rfl

/-- A dialogue goes on over lines none of which ends it: the state at each prompt in front of a line
with what is printed behind it, and the state at the prompt behind the last line. -/
inductive Goes : Dialogue → List String → List (Dialogue × String) → Dialogue → Prop where
  | stop {d : Dialogue} : Goes d [] [] d
  | next {d e last : Dialogue} {line output : String} {lines : List String}
      {turns : List (Dialogue × String)} (hturn : d.turn line = .ok ⟨e, output, false⟩)
      (hrest : Goes e lines turns last) : Goes d (line :: lines) ((d, output) :: turns) last

/-- The states at all prompts. -/
def states (turns : List (Dialogue × String)) (last : Dialogue) : List Dialogue :=
  turns.map Prod.fst ++ [last]

/-- What is printed at prompts and behind them. -/
def printedTurns (turns : List (Dialogue × String)) : String :=
  String.join (turns.map fun turn => turn.1.prompt ++ turn.2)

/-- What a dialogue is set to changes with a line as the line asks. -/
theorem state_of_turn {t : Target} {debug : Bool} {line output : String} {e : Dialogue}
    (h : (start t debug).turn line = .ok ⟨e, output, false⟩) :
    e = start ((languageAsked? line).getD t) ((debugAsked? line).getD debug) := by
  cases hends : endsDialogue line with
  | true =>
    rw [turn_ends _ hends] at h
    exact absurd (congrArg Turn.finished (Except.ok.inj h)).symm Bool.false_ne_true
  | false =>
    obtain ⟨other, hother⟩ := turn_start t debug hends
    rw [hother] at h
    exact (congrArg Turn.state (Except.ok.inj h)).symm

/-- At every prompt a dialogue is set as the lines so far say. -/
theorem Goes.state {t : Target} {debug : Bool} {lines : List String}
    {turns : List (Dialogue × String)} {last : Dialogue}
    (h : Goes (start t debug) lines turns last) {i : Nat} {d : Dialogue}
    (hd : (states turns last)[i]? = some d) :
    d = start (languageAfter t (lines.take i)) (debugAfter debug (lines.take i)) := by
  induction lines generalizing t debug turns i with
  | nil =>
    cases h with
    | stop =>
      cases i with
      | zero => exact (Option.some.inj hd).symm
      | succ i => cases hd
  | cons line lines ih =>
    cases h with
    | next hturn hrest =>
      cases i with
      | zero => exact (Option.some.inj hd).symm
      | succ i =>
        obtain rfl := state_of_turn hturn
        rw [List.take_succ_cons, languageAfter_cons, debugAfter_cons]
        exact ih hrest hd

/-- What is printed behind a prompt is the answer to the line there, which leads to the next one. -/
theorem Goes.turn {d last : Dialogue} {lines : List String} {turns : List (Dialogue × String)}
    (h : Goes d lines turns last) {i : Nat} {line : String} (hline : lines[i]? = some line) :
    ∃ e output next, turns[i]? = some (e, output) ∧ e.turn line = .ok ⟨next, output, false⟩ ∧
      (states turns last)[i + 1]? = some next := by
  induction h generalizing i with
  | stop => cases hline
  | @next d next last first output lines turns hfirst hrest ih =>
    cases i with
    | zero =>
      cases hline
      refine ⟨d, output, next, rfl, hfirst, ?_⟩
      cases hrest with
      | stop => rfl
      | next => rfl
    | succ i => exact ih hline

theorem transcript_cons {d : Dialogue} {line : String} {t : Turn} (h : d.turn line = .ok t)
    (rest : List String) : d.transcript (line :: rest)
      = if t.finished then .ok (d.prompt ++ t.output)
        else (t.state.transcript rest).map fun text => d.prompt ++ t.output ++ text := by
  conv_lhs => unfold transcript
  rw [h]

/-- A dialogue prints its turns, and then what it prints for the lines that are left. -/
theorem Goes.transcript {d last : Dialogue} {lines : List String}
    {turns : List (Dialogue × String)} (h : Goes d lines turns last) (rest : List String) :
    d.transcript (lines ++ rest)
      = (last.transcript rest).map fun text => printedTurns turns ++ text := by
  induction h with
  | @stop d =>
    rw [List.nil_append]
    cases d.transcript rest with
    | error e => rfl
    | ok text => exact congrArg Except.ok (String.empty_append ..).symm
  | @next d e last line output lines turns hturn _ ih =>
    have hprinted : printedTurns ((d, output) :: turns)
        = d.prompt ++ output ++ printedTurns turns := String.join_cons ..
    rw [List.cons_append, transcript_cons hturn]
    show (e.transcript (lines ++ rest)).map (fun text => d.prompt ++ output ++ text) = _
    rw [ih, hprinted]
    cases last.transcript rest with
    | error e => rfl
    | ok text => exact congrArg Except.ok (String.append_assoc ..).symm

end Dialogue

open Dialogue (Goes states printedTurns)

/-! ## The command line -/

end PlainCode.Console
