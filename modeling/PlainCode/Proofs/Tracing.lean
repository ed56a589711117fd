import PlainCode.Convert.Session

/-!
# Debugging shows in the trace only

A conversion may look at its session and at the stream while it works. It is `Uniform` if neither
has a say in what it comes to: then it comes to the same in every session and behind every stream,
and it writes the same entries with debugging, and none without. What one stretch of a conversion
does carries over to stretches in a row (`Uniform.bind`) and to going through a list
(`Uniform.foldlM`), and so to whole conversions, whichever way they end (`uniform_convert`).

The outcome of a conversion is that of its stages, with nothing written: `LineStages.outcome_eq`
and `ProgramStages.outcome_eq`.
-/

namespace PlainCode.Convert

namespace Traced

variable {α β : Type}

/-! ## One stretch after another -/

/-- A conversion in which debugging, and what was done before, show in the trace only. -/
def Uniform (m : Traced α) : Prop := ∀ (s : Session) (stream : List String),
  m.run s stream = (m.result, stream ++ if s.debug then m.entries else [])

section

variable {m : Traced α} {f : α → Traced β} {s : Session} {stream left : List String}

private theorem bind_of_ok {a : α} (h : m.run s stream = (.ok a, left)) :
    (m >>= f).run s stream = (f a).run s left := by
  simp only [bind, h]

private theorem bind_of_error {e : Failure} (h : m.run s stream = (.error e, left)) :
    (m >>= f).run s stream = (.error e, left) := by
  simp only [bind, h]

end

theorem Uniform.fst {m : Traced α} (hm : Uniform m) (s : Session) (stream : List String) :
    (m.run s stream).1 = m.result := by
  rw [hm s stream]

/-- What a uniform conversion comes to and writes can be told from any run of it. -/
private theorem uniform_of_run {m : Traced α} (r : Except Failure α) (es : List String)
    (h : ∀ (s : Session) (stream : List String),
      m.run s stream = (r, stream ++ if s.debug then es else [])) : Uniform m := by
  have hresult : m.result = r := congrArg Prod.fst (h ⟨false⟩ [])
  have hentries : m.entries = es := congrArg Prod.snd (h ⟨true⟩ [])
  rw [Uniform, hresult, hentries]
  exact h

theorem uniform_ofExcept (r : Except Failure α) : Uniform (ofExcept r) :=
  uniform_of_run r [] fun s stream => by rw [ite_self, List.append_nil, ofExcept]

theorem uniform_pure (a : α) : Uniform (pure a : Traced α) := uniform_ofExcept (.ok a)

theorem run_whenDebug (m : Traced Unit) (s : Session) (stream : List String) :
    (whenDebug m).run s stream = if s.debug then m.run s stream else (.ok (), stream) := rfl

theorem uniform_trace (es : List String) : Uniform (trace es) := by
  refine uniform_of_run (.ok ()) es fun s stream => ?_
  rw [trace, run_whenDebug]
  cases s.debug with
  | true => rfl
  | false => exact congrArg (Prod.mk _) (List.append_nil stream).symm

/-- What is uniform may be left out without debugging, if it does nothing but write. -/
theorem Uniform.whenDebug {m : Traced Unit} (hm : Uniform m) (hresult : m.result = .ok ()) :
    Uniform (whenDebug m) := by
  refine uniform_of_run (.ok ()) m.entries fun s stream => ?_
  rw [run_whenDebug, hm, hresult]
  cases s.debug with
  | true => rfl
  | false => exact congrArg (Prod.mk _) (List.append_nil stream).symm

/-- Two stretches in a row come to what the second one comes to, and write the entries of both. -/
theorem Uniform.bind {m : Traced α} {f : α → Traced β} (hm : Uniform m) (hf : ∀ a, Uniform (f a)) :
    Uniform (m >>= f) := by
  cases hresult : m.result with
  | error e =>
    -- the second one is not reached
    refine uniform_of_run (.error e) m.entries fun s stream => ?_
    exact bind_of_error (by rw [hm, hresult])
  | ok a =>
    refine uniform_of_run (f a).result (m.entries ++ (f a).entries) fun s stream => ?_
    rw [bind_of_ok (by rw [hm, hresult]), hf]
    cases s.debug with
    | true => simp only [if_true, List.append_assoc]
    | false => simp only [Bool.false_eq_true, if_false, List.append_nil]

/-- Going through a list is uniform if each step is. -/
theorem Uniform.foldlM {f : β → α → Traced β} (h : ∀ b a, Uniform (f b a)) :
    ∀ (as : List α) (b : β), Uniform (as.foldlM f b)
  | [], b => uniform_pure b
  | a :: as, b => by
    rw [List.foldlM_cons]
    exact (h b a).bind (Uniform.foldlM h as)

/-! ## Without debugging -/

/-- Behind a uniform stretch, a conversion goes on from what that comes to. -/
theorem Uniform.result_bind {m : Traced α} (hm : Uniform m) (f : α → Traced β) :
    (m >>= f).result = m.result.bind fun a => (f a).result := by
  have hquiet : m.run ⟨false⟩ [] = (m.result, []) := hm ⟨false⟩ []
  cases hresult : m.result with
  | error e => exact congrArg Prod.fst (bind_of_error (hquiet.trans (by rw [hresult])))
  | ok a => exact congrArg Prod.fst (bind_of_ok (hquiet.trans (by rw [hresult])))

@[simp] theorem result_pure (a : α) : (pure a : Traced α).result = .ok a := rfl

@[simp] theorem result_trace_bind (es : List String) (f : Unit → Traced α) :
    (trace es >>= f).result = (f ()).result := rfl

@[simp] theorem result_whenDebug_bind (m : Traced Unit) (f : Unit → Traced α) :
    (whenDebug m >>= f).result = (f ()).result := rfl

@[simp] theorem result_textOf_bind (text? : Option String) (f : String → Traced α) :
    (textOf text? >>= f).result = (text?.elim (.error .tooLong) fun text => (f text).result) := by
  rw [textOf, (uniform_ofExcept _).result_bind]
  cases text? with
  | none => rfl
  | some text => rfl

@[simp] theorem result_codeOf_bind (code : Except Code.Error String) (f : String → Traced α) :
    (codeOf code >>= f).result = (code.mapError .code).bind fun code => (f code).result :=
  (uniform_ofExcept _).result_bind f

end Traced

open PlainCode.Convert.Traced

/-! ## Phrases -/

theorem LineStages.uniform_traced (s : LineStages) : Uniform s.traced := by
  unfold LineStages.traced
  refine (uniform_trace _).bind fun _ => (uniform_ofExcept _).bind fun raw => ?_
  refine (uniform_trace _).bind fun _ => ?_
  split
  next => exact uniform_pure _
  next =>
    refine (uniform_trace _).bind fun _ => (uniform_trace _).bind fun _ => ?_
    split
    next => exact uniform_pure _
    next =>
      refine (uniform_trace _).bind fun _ => ?_
      split
      next => exact (uniform_trace _).bind fun _ => uniform_pure _
      next =>
        refine ((uniform_trace _).whenDebug rfl).bind fun _ => ?_
        refine (uniform_ofExcept _).bind fun code => ?_
        exact (uniform_trace _).bind fun _ => (uniform_trace _).bind fun _ => uniform_pure _

theorem uniform_line (text language : Json) : Uniform (Traced.line text language) := by
  unfold Traced.line
  split
  next => exact uniform_pure _
  next => exact LineStages.uniform_traced _

/-- The outcome of the stages is that of the first one that has nothing to go on with. Before that
comes the text as it was given, which has to be shown. -/
theorem LineStages.outcome_eq (s : LineStages) : s.outcome = s.raw.elim (.error .tooLong) fun _ =>
    if s.canonical = "" then .ok (.error .empty)
    else if s.tokens.isEmpty then .ok (.error .noTokens)
    else
      match s.parsed with
      | .error cause => .ok (.error (.unreadable cause))
      | .ok parsed => ((Code.write s.target parsed.command).mapError .code).map fun code =>
          .ok ⟨code, parsed.command, parsed.warnings⟩ := by
  rw [LineStages.outcome, LineStages.traced, result_trace_bind, result_textOf_bind]
  cases s.raw with
  | none => rfl
  | some raw =>
    dsimp only [Option.elim]
    rw [result_trace_bind]
    split
    next => rfl
    next =>
      rw [result_trace_bind, result_trace_bind]
      split
      next => rfl
      next =>
        rw [result_trace_bind]
        cases s.parsed with
        | error cause => rfl
        | ok parsed =>
          dsimp only
          rw [result_whenDebug_bind, result_codeOf_bind]
          cases Code.write s.target parsed.command with
          | error e => rfl
          | ok code => rfl

/-! ## Programs -/

theorem Progress.uniform_take (p : Progress) (l : ReadLine) : Uniform (p.take l) := by
  unfold Progress.take
  refine (uniform_trace _).bind fun _ => (uniform_trace _).bind fun _ => ?_
  split
  next => exact ((uniform_trace _).whenDebug rfl).bind fun _ => uniform_pure _
  next => exact (uniform_trace _).bind fun _ => uniform_pure _

theorem ProgramStages.uniform_traced (s : ProgramStages) : Uniform s.traced := by
  unfold ProgramStages.traced
  refine (Uniform.whenDebug ((uniform_trace _).bind fun _ => uniform_trace _) rfl).bind fun _ => ?_
  refine (uniform_trace _).bind fun _ => (uniform_trace _).bind fun _ => ?_
  split
  next => exact uniform_pure _
  next =>
    refine (uniform_trace _).bind fun _ => ?_
    refine (Uniform.foldlM Progress.uniform_take _ _).bind fun p => ?_
    -- the report is written as a trace is
    refine (uniform_trace _).bind fun _ => (uniform_trace _).bind fun _ => ?_
    split
    next => exact uniform_pure _
    next =>
      refine (uniform_ofExcept _).bind fun code => ?_
      refine (uniform_trace _).bind fun _ => (uniform_trace _).bind fun _ => ?_
      exact ((uniform_trace _).whenDebug rfl).bind fun _ => uniform_pure _

theorem uniform_program (text language : Json) : Uniform (Traced.program text language) := by
  unfold Traced.program
  split
  next => exact uniform_pure _
  next => exact ProgramStages.uniform_traced _

/-- What is known behind some more lines. -/
def Progress.behind (p : Progress) (ls : List ReadLine) : Progress where
  report := ls.foldl ReadLine.report p.report
  commands := p.commands ++ ls.filterMap ReadLine.command?
  totalTokens := p.totalTokens + (ls.flatMap ReadLine.tokens).length

theorem Progress.behind_cons (p : Progress) (l : ReadLine) (ls : List ReadLine) :
    p.behind (l :: ls) = (p.behind [l]).behind ls := by
  simp only [behind, List.foldl_cons, List.foldl_nil, List.filterMap_cons, List.filterMap_nil,
    List.flatMap_cons, List.flatMap_nil, List.append_nil, List.length_append, List.append_assoc,
    Nat.add_assoc]
  cases l.command? with
  | none => rfl
  | some c => rfl

private theorem Progress.result_take (p : Progress) (l : ReadLine) :
    (p.take l).result = .ok (p.behind [l]) := by
  have hlast : (Progress.mk (l.report p.report) (p.commands ++ l.command?.toList)
      (p.totalTokens + l.tokens.length)) = p.behind [l] := by
    simp only [behind, List.foldl_cons, List.foldl_nil, List.filterMap_cons, List.filterMap_nil,
      List.flatMap_cons, List.flatMap_nil, List.append_nil]
    cases l.command? with
    | none => rfl
    | some c => rfl
  rw [take, result_trace_bind, result_trace_bind, hlast]
  cases l.parsed with
  | ok parsed => rfl
  | error e => rfl

/-- The lines are taken in one after the other. -/
theorem Progress.result_foldlM : ∀ (ls : List ReadLine) (p : Progress),
    (ls.foldlM Progress.take p).result = .ok (p.behind ls)
  | [], p => by
    rw [List.foldlM_nil, result_pure, behind]
    simp only [List.foldl_nil, List.filterMap_nil, List.flatMap_nil, List.append_nil,
      List.length_nil, Nat.add_zero]
  | l :: ls, p => by
    rw [List.foldlM_cons, (p.uniform_take l).result_bind, result_take]
    show (ls.foldlM Progress.take (p.behind [l])).result = _
    rw [result_foldlM ls, ← behind_cons]

namespace ProgramStages

/-- What there is to say about the lines. -/
def report (s : ProgramStages) : Report := s.lines.foldl ReadLine.report { source := some s.source }

/-- The commands, each with the number of its line. -/
def commands (s : ProgramStages) : List (Nat × Command) := s.lines.filterMap ReadLine.command?

/-- The number of all tokens. -/
def totalTokens (s : ProgramStages) : Nat := (s.lines.flatMap ReadLine.tokens).length

/-- The code of the commands. -/
def code (s : ProgramStages) : Except Code.Error String :=
  Code.writeProgram s.target (s.commands.map (·.2))

/-- The outcome of a text is told by its lines: there is nothing in them, or no command, or there is
a program. -/
theorem outcome_eq (s : ProgramStages) : s.outcome =
    if s.lines.isEmpty then .ok (.refused { code := some "NRM001", message := some "Empty input" })
    else if s.commands.isEmpty then
      .ok ⟨s.report.errors, s.report.warnings, s.totalTokens, none⟩
    else (s.code.mapError .code).map fun code =>
      ⟨s.report.errors, s.report.warnings, s.totalTokens,
        some ⟨code, s.commands.map (·.2), s.commands.map (·.1)⟩⟩ := by
  have hall : (s.lines.foldlM Progress.take { report := { source := some s.source } }).result
      = .ok ⟨s.report, s.commands, s.totalTokens⟩ := by
    rw [Progress.result_foldlM, Progress.behind, List.nil_append, Nat.zero_add]
    rfl
  rw [outcome, traced, result_whenDebug_bind, result_trace_bind, result_trace_bind]
  split
  next => rfl
  next =>
    rw [result_trace_bind, (Uniform.foldlM Progress.uniform_take _ _).result_bind, hall]
    dsimp only [Except.bind]
    rw [result_trace_bind, result_whenDebug_bind]
    split
    next => rfl
    next =>
      rw [result_codeOf_bind, code]
      cases Code.writeProgram s.target (s.commands.map (·.2)) with
      | error e => rfl
      | ok code => rfl

end ProgramStages

/-! ## Both modes -/

theorem uniform_convert (mode : Mode) (text language : Json) :
    Uniform (Traced.convert mode text language) := by
  cases mode with
  | line => exact (uniform_line text language).bind fun _ => uniform_pure _
  | program => exact (uniform_program text language).bind fun _ => uniform_pure _

theorem convert_line (text language : Json) :
    convert .line text language = (line text language).map .line :=
  (uniform_line text language).result_bind _

theorem convert_program (text language : Json) :
    convert .program text language = (program text language).map .program :=
  (uniform_program text language).result_bind _

/-- The trace of what was done in a session, as text: there is none without debugging. -/
def Session.traced (s : Session) (es : List String) : String := if s.debug then printed es else ""

/-- A uniform conversion in a session that has written nothing yet. -/
theorem Traced.Uniform.run_alone {α : Type} {m : Traced α} (hm : Uniform m) (s : Session) :
    m.run s [] = (m.result, if s.debug then m.entries else []) := hm s []

theorem printed_of_debug (s : Session) (es : List String) :
    printed (if s.debug then es else []) = s.traced es := by
  rw [Session.traced]
  cases s.debug with
  | true => rfl
  | false => rfl

end PlainCode.Convert
