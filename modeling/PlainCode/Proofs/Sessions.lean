import PlainCode.Proofs.Answers

/-!
# Sessions have no memory

A session is asked one thing after another. All it keeps is whether debugging is on, and all its
conversions write to one stream. Every conversion is uniform, so a step comes to what it comes to on
its own, with debugging as it is set by then (`step_eq`), and so does each step of a run
(`run_eq`). Debugging itself shows in the trace only, and the language only in the code
(`convert_agrees`). The three are put together in `session_without_memory`.
-/

namespace PlainCode.Convert

namespace Session

/-! ## Steps -/

/-- Whether debugging is on after some steps: as it was set last, or as it was before. -/
def debugAfter (debug : Bool) : List Step → Bool
  | [] => debug
  | .setDebug on :: steps => debugAfter on steps
  | .convert .. :: steps => debugAfter debug steps

/-- The answer to a step on its own. -/
def alone (debug : Bool) : Step → Answer
  | .setDebug _ => ⟨none, []⟩
  | .convert mode text language =>
    ⟨some (convert mode text language),
      if debug then (Traced.convert mode text language).entries else []⟩

/-- A step sets nothing but debugging, writes its trace behind what is on the stream, and is
answered as it is on its own. -/
theorem step_eq (s : Session) (stream : List String) (step : Step) :
    s.step stream step = (⟨debugAfter s.debug [step]⟩, stream ++ (alone s.debug step).trace,
      alone s.debug step) := by
  cases step with
  | setDebug on => rw [Session.step, alone, List.append_nil, debugAfter, debugAfter]
  | convert mode text language =>
    rw [Session.step, uniform_convert, alone]
    dsimp only
    rw [List.drop_left]
    rfl

/-- On its own, a step hangs on debugging only for its trace. -/
theorem alone_false (debug : Bool) (step : Step) :
    alone false step = { alone debug step with trace := [] } := by
  cases step with
  | setDebug on => rfl
  | convert mode text language => rfl

/-! ## Runs -/

/-- The answers to one step after another, each on its own. -/
def allAlone (debug : Bool) : List Step → List Answer
  | [] => []
  | step :: steps => alone debug step :: allAlone (debugAfter debug [step]) steps

/-- A run answers every step as it is answered on its own, and leaves all traces on the stream. -/
theorem run_eq : ∀ (steps : List Step) (s : Session) (stream : List String), s.run stream steps
    = (allAlone s.debug steps, stream ++ (allAlone s.debug steps).flatMap Answer.trace)
  | [], s, stream => by rw [run, allAlone, List.flatMap_nil, List.append_nil]
  | step :: steps, s, stream => by
    rw [run, step_eq]
    dsimp only
    rw [run_eq steps, allAlone, List.flatMap_cons, List.append_assoc]

theorem run_singleton (debug : Bool) (step : Step) :
    (⟨debug⟩ : Session).run [] [step] = ([alone debug step], (alone debug step).trace) := by
  rw [run_eq, allAlone, allAlone, List.flatMap_singleton, List.nil_append]

theorem length_allAlone : ∀ (steps : List Step) (debug : Bool),
    (allAlone debug steps).length = steps.length
  | [], _ => rfl
  | _ :: steps, _ => congrArg (· + 1) (length_allAlone steps _)

theorem debugAfter_cons (debug : Bool) (step : Step) (steps : List Step) :
    debugAfter debug (step :: steps) = debugAfter (debugAfter debug [step]) steps := by
  cases step <;> rfl

/-- Each step is answered with debugging as it is set in front of it. -/
theorem getElem?_allAlone : ∀ (steps : List Step) (debug : Bool) (i : Nat) (step : Step),
    steps[i]? = some step →
    (allAlone debug steps)[i]? = some (alone (debugAfter debug (steps.take i)) step)
  | _ :: _, _, 0, _, h => congrArg (fun step => some (alone _ step)) (Option.some.inj h)
  | first :: steps, debug, i + 1, step, h => by
    rw [List.take_succ_cons, debugAfter_cons]
    exact getElem?_allAlone steps _ i step h

end Session

/-! ## Languages -/

/-- The fields of an answer but the one with the code. -/
def withoutCode (fields : List (String × Json)) : List (String × Json) :=
  fields.filter fun field => field.1 != "code"

/-- The outcome of a phrase is the same in two languages, but for the code. -/
private theorem withoutCode_outcomeOf (t u : Target) (text : String) :
    withoutCode (lineFields (outcomeOf t text)) = withoutCode (lineFields (outcomeOf u text)) := by
  unfold outcomeOf
  split
  next => rfl
  next =>
    split
    next => rfl
    next => rfl

/-- The outcome of a text once its commands are read, with a given code. -/
def ProgramStages.outcomeWith (s : ProgramStages) (code : String) : ProgramOutcome :=
  if s.lines.isEmpty then .refused { code := some "NRM001", message := some "Empty input" }
  else
    ⟨s.report.errors, s.report.warnings, s.totalTokens,
      if s.commands.isEmpty then none
      else some ⟨code, s.commands.map (·.2), s.commands.map (·.1)⟩⟩

/-- The code is all that is left to find once the commands of a text are read. -/
theorem exists_outcomeWith (t : Target) (text : Json) :
    ∃ code, (ProgramStages.run t text).outcome
      = .ok ((ProgramStages.run t text).outcomeWith code) := by
  have hcode := code_eq (s := ProgramStages.run t text)
    (numberedFrom_eq (Text.lines (Phrase.ofJson text)) 1)
  refine ⟨Code.render (Code.programLines t ((ProgramStages.run t text).commands.map (·.2))), ?_⟩
  rw [ProgramStages.outcome_eq, hcode, ProgramStages.outcomeWith]
  split
  next => rfl
  next =>
    split
    next => rfl
    next => rfl

private theorem withoutCode_outcomeWith (s : ProgramStages) (code other : String) :
    withoutCode (programFields (s.outcomeWith code))
      = withoutCode (programFields (s.outcomeWith other)) := by
  unfold ProgramStages.outcomeWith
  split
  next => rfl
  next =>
    split
    next => rfl
    next => rfl

/-- The outcome of a text is the same in two languages, but for the code. -/
private theorem exists_programs (t u : Target) (text : Json) :
    ∃ o p, (ProgramStages.run t text).outcome = .ok o ∧ (ProgramStages.run u text).outcome = .ok p ∧
      withoutCode (programFields o) = withoutCode (programFields p) := by
  obtain ⟨code, ho⟩ := exists_outcomeWith t text
  obtain ⟨other, hp⟩ := exists_outcomeWith u text
  -- what is read of a text does not hang on the language
  have hsame : (ProgramStages.run t text).outcomeWith other
      = (ProgramStages.run u text).outcomeWith other := rfl
  exact ⟨_, _, ho, hp, hsame ▸ withoutCode_outcomeWith _ code other⟩

/-- What a text is converted to is the same in all languages, but for the code: the outcome, or that
there is none. -/
theorem convert_agrees (mode : Mode) (text : Json) {l m : Json} {t u : Target}
    (hl : Target.ofJson? l = some t) (hm : Target.ofJson? m = some u) :
    ((convert mode text l).map fun o => withoutCode o.fields)
      = (convert mode text m).map fun o => withoutCode o.fields := by
  cases mode with
  | line =>
    rw [convert_line, convert_line]
    cases hwritable : text.isWritable with
    | true =>
      rw [line_eq_ofJson hl hwritable, line_eq_ofJson hm hwritable]
      exact congrArg Except.ok (withoutCode_outcomeOf t u (Phrase.ofJson text))
    | false => rw [line_of_not_isWritable hl hwritable, line_of_not_isWritable hm hwritable]
  | program =>
    obtain ⟨o, p, ho, hp, hagree⟩ := exists_programs t u text
    rw [convert_program, convert_program, program_eq_stages hl, program_eq_stages hm, ho, hp]
    exact congrArg Except.ok hagree

/-- A value that can be written is converted in every language and in both modes. -/
theorem exists_convert (mode : Mode) {text : Json} (h : text.isWritable = true) (language : Json) :
    ∃ o, convert mode text language = .ok o := by
  cases mode with
  | line =>
    rcases line_cases text language with ⟨_, o, ho, _⟩ | ⟨hbad, _⟩
    · exact ⟨.line o, by rw [convert_line, ho]; rfl⟩
    · exact absurd (Or.inr h) hbad
  | program =>
    obtain ⟨o, ho, _⟩ := exists_program text language
    exact ⟨.program o, by rw [convert_program, ho]; rfl⟩

/-- **Sessions have no memory.** Whatever a session is asked, and whatever is on its stream, every
step is answered, and the traces of all steps are written behind what was there, in order. Each
answer is that of a fresh session with debugging as it is set by then, and but for the trace that of
a fresh session without debugging; a step without debugging writes nothing. What a text comes to in
two languages that there are agrees in all fields but the code, and if the text can be written, it
does come to something. -/
theorem session_without_memory (s : Session) (stream : List String) (steps : List Step) :
    (∃ answers, s.run stream steps = (answers, stream ++ answers.flatMap Answer.trace) ∧
      answers.length = steps.length ∧
      ∀ i step answer, steps[i]? = some step → answers[i]? = some answer →
        let debug := Session.debugAfter s.debug (steps.take i)
        (⟨debug⟩ : Session).run [] [step] = ([answer], answer.trace) ∧
        (⟨false⟩ : Session).run [] [step] = ([{ answer with trace := [] }], []) ∧
        (debug = false → answer.trace = [])) ∧
    ∀ (mode : Mode) (text l m : Json), (Target.ofJson? l).isSome = true →
      (Target.ofJson? m).isSome = true →
      ((convert mode text l).map fun o => withoutCode o.fields)
        = ((convert mode text m).map fun o => withoutCode o.fields) ∧
      (text.isWritable = true → ∃ o, convert mode text l = .ok o) := by
  constructor
  · refine ⟨_, Session.run_eq steps s stream, Session.length_allAlone steps s.debug, ?_⟩
    intro i step answer hstep hanswer debug
    obtain rfl : Session.alone debug step = answer :=
      Option.some.inj ((Session.getElem?_allAlone steps s.debug i step hstep).symm.trans hanswer)
    refine ⟨Session.run_singleton debug step, ?_, fun hoff => ?_⟩
    · rw [Session.run_singleton, Session.alone_false debug]
    · rw [hoff, Session.alone_false false]
  · intro mode text l m hl hm
    obtain ⟨t, ht⟩ := Option.isSome_iff_exists.mp hl
    obtain ⟨u, hu⟩ := Option.isSome_iff_exists.mp hm
    exact ⟨convert_agrees mode text ht hu, fun h => exists_convert mode h l⟩

/-- A session that is switched to debugging between two texts, and a text with a body that is not
read, in Java and in C++ by its second name. -/
theorem session_without_memory_switched :
    (∃ answers, (⟨false⟩ : Session).run ["x"] [.convert .line (.str "say 5") (.str "java"),
        .setDebug true, .convert .program (.int 3) (.str "perl")]
        = (answers, ["x"] ++ answers.flatMap Answer.trace) ∧
      answers.length = 3 ∧
      ∀ answer, answers[2]? = some answer →
        (⟨true⟩ : Session).run [] [.convert .program (.int 3) (.str "perl")]
          = ([answer], answer.trace)) ∧
    ((convert .line (.str "if x less than 2 then oops") (.str "java")).map fun o =>
        withoutCode o.fields)
      = (convert .line (.str "if x less than 2 then oops") (.str "c++")).map fun o =>
        withoutCode o.fields := by
  obtain ⟨⟨answers, hrun, hlength, halone⟩, hagree⟩ := session_without_memory ⟨false⟩ ["x"]
    [.convert .line (.str "say 5") (.str "java"), .setDebug true,
      .convert .program (.int 3) (.str "perl")]
  refine ⟨⟨answers, hrun, hlength, fun answer hanswer => (halone 2 _ answer rfl hanswer).1⟩, ?_⟩
  exact (hagree .line _ _ _ (by decide +kernel) (by decide +kernel)).1

end PlainCode.Convert
