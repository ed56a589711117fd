import PlainCode.Proofs.Sessions
import PlainCode.Service

/-!
# The statuses of requests to convert

What can be wrong with the value of a request is said once (`Order.read_cases`): there is no text,
or no such mode, or no such language, and each of them is looked for only where none was found
before it. Where nothing is wrong, the text is converted, which never fails. So the service fails
for values that have no fields, and for no others. The main statement is `request_status`.
-/

namespace PlainCode.Service

open PlainCode.Convert (Mode Outcome)

/-! ## What can be wrong with an order -/

/-- Whether a value is an object. -/
def isObject : Json → Bool
  | .obj _ => true
  | _ => false

/-- A value without a text, or with a blank one. -/
def NoText (data : Json) : Prop :=
  ∀ text, data.fieldD "text" (.str "") = .str text → Text.blank text = true

/-- A value that asks for a mode that there is not. -/
def NoMode (data : Json) : Prop :=
  ∀ mode : Mode, data.fieldD "mode" (.str "program") ≠ .str mode.name

/-- A value that asks for a language that there is not. -/
def NoTarget (data : Json) : Prop :=
  Target.ofJson? (data.fieldD "language" (.str "python")) = none

/-- A mode goes by its name, and by nothing else. -/
theorem mode_ofJson?_eq_some_iff {value : Json} {mode : Mode} :
    Mode.ofJson? value = some mode ↔ value = .str mode.name := by
  constructor
  · intro h
    unfold Mode.ofJson? at h
    split at h
    next => cases h; rfl
    next => cases h; rfl
    next => cases h
  · rintro rfl
    cases mode <;> rfl

private theorem noMode_iff {data : Json} :
    NoMode data ↔ Mode.ofJson? (data.fieldD "mode" (.str "program")) = none := by
  rw [Option.eq_none_iff_forall_ne_some]
  exact forall_congr' fun mode => not_congr mode_ofJson?_eq_some_iff.symm

/-- What an order was read from. -/
structure Order.From (data : Json) (order : Order) : Prop where
  text : data.fieldD "text" (.str "") = .str order.text
  mode : data.fieldD "mode" (.str "program") = .str order.mode.name
  target : Target.ofJson? (data.fieldD "language" (.str "python")) = some order.target
  debug : order.debug = (data.fieldD "debug" (.bool false)).isGiven

/-- What is wrong with an order is the first of three things, or nothing. -/
theorem Order.read_cases (data : Json) :
    (NoText data ∧ Order.read data = .error "No text provided") ∨
    (¬ NoText data ∧ NoMode data ∧
      Order.read data = .error (unknownMode (data.fieldD "mode" (.str "program")))) ∨
    (¬ NoText data ∧ ¬ NoMode data ∧ NoTarget data ∧
      Order.read data
        = .error (Target.unsupported (data.fieldD "language" (.str "python")))) ∨
    (¬ NoText data ∧ ¬ NoMode data ∧ ¬ NoTarget data ∧
      ∃ order, Order.read data = .ok order ∧ order.From data) := by
  unfold Order.read
  split
  next text htext =>
    split
    next hblank =>
      refine Or.inl ⟨fun other hother => ?_, rfl⟩
      cases htext.symm.trans hother
      exact hblank
    next hblank =>
      have hsome : ¬ NoText data := fun hnone => hblank (hnone text htext)
      refine Or.inr ?_
      dsimp only
      split
      next hmode => exact Or.inl ⟨hsome, noMode_iff.mpr hmode, rfl⟩
      next mode hmode =>
        have hname := mode_ofJson?_eq_some_iff.mp hmode
        have hthere : ¬ NoMode data := fun hnone => hnone mode hname
        refine Or.inr ?_
        split
        next htarget => exact Or.inl ⟨hsome, hthere, htarget, rfl⟩
        next target htarget =>
          have hknown : ¬ NoTarget data := by
            rw [NoTarget, htarget]
            nofun
          exact Or.inr ⟨hsome, hthere, hknown, _, rfl, htext, hname, htarget, rfl⟩
  next hother => exact Or.inl ⟨fun text htext => absurd htext (hother text), rfl⟩

/-! ## Orders are fulfilled -/

/-- The errors in an answer, none of which is about the language. -/
def NoLanguageError (body : Json) : Prop :=
  ∀ errors, body.field? "errors" = some (.arr errors) →
    ∀ e ∈ errors, e.field? "code" ≠ some (.str "GEN001")

/-- What is wrong with a text in a language that there is, is not the language. -/
private theorem code_of_program_error {language : Json} {target : Target}
    (h : Target.ofJson? language = some target) {text : Json} {o : Convert.ProgramOutcome}
    (ho : Convert.program text language = .ok o) : ∀ e ∈ o.errors, e.code ≠ some "GEN001" := by
  obtain ⟨code, hcode⟩ := Convert.exists_outcomeWith target text
  rw [Convert.program_eq_stages h, hcode] at ho
  cases ho
  intro e he
  rw [Convert.ProgramStages.outcomeWith] at he
  split at he
  next =>
    -- a text that says nothing
    cases List.mem_singleton.mp he
    decide
  next =>
    have herrors := Convert.report_errors (s := Convert.ProgramStages.run target text)
      (Convert.numberedFrom_eq (Text.lines (Phrase.ofJson text)) 1)
    rw [herrors] at he
    obtain ⟨l, _, hl⟩ := List.mem_filterMap.mp he
    rw [Convert.LineOutcome.code_of_error? hl]
    decide

/-- The errors in an answer are those of the program. -/
private theorem errors_of_answer {order : Order} {trace : String} {outcome : Outcome}
    {errors : List Json}
    (h : (Json.obj (answerFields order outcome ++
      if order.debug then debugFields order trace else [])).field? "errors" = some (.arr errors)) :
    ∃ o, outcome = .program o ∧ errors = o.errors.map Diagnostic.toJson := by
  have hdebug : (if order.debug then debugFields order trace else []).lookup "errors" = none := by
    split
    next => rfl
    next => rfl
  cases outcome with
  | program o =>
    refine ⟨o, rfl, ?_⟩
    change some (Json.arr (o.errors.map Diagnostic.toJson)) = some (.arr errors) at h
    rw [Option.some.injEq, Json.arr.injEq] at h
    exact h.symm
  | line o =>
    cases o with
    | error e =>
      change (if order.debug then debugFields order trace else []).lookup "errors" = _ at h
      rw [hdebug] at h
      cases h
    | ok r =>
      change (if order.debug then debugFields order trace else []).lookup "errors" = _ at h
      rw [hdebug] at h
      cases h

private theorem program_of_convert {mode : Mode} {text language : Json} {o : Convert.ProgramOutcome}
    (h : Convert.convert mode text language = .ok (.program o)) :
    Convert.program text language = .ok o := by
  cases mode with
  | line =>
    rw [Convert.convert_line] at h
    cases hline : Convert.line text language with
    | error e => rw [hline] at h; cases h
    | ok r => rw [hline] at h; cases h
  | program =>
    rw [Convert.convert_program] at h
    cases hprogram : Convert.program text language with
    | error e => rw [hprogram] at h; cases h
    | ok r => rw [hprogram] at h; cases h; rfl

private theorem code_toJson {d : Diagnostic} {code : String} (h : d.code ≠ some code) :
    d.toJson.field? "code" ≠ some (.str code) := by
  show some (Json.ofString? d.code) ≠ some (.str code)
  cases hcode : d.code with
  | none => nofun
  | some other =>
    intro hsame
    cases hsame
    exact h hcode

/-- What is right about the answer to an order: it is that of the conversion, with the language and
the mode, and with nothing but fields of debugging behind them. -/
structure Fulfilled (order : Order) (r : Response) : Prop where
  status : r.status = 200
  answer : ∃ outcome extra,
    Convert.convert order.mode (.str order.text) (.str order.target.name) = .ok outcome ∧
    r.json = some (.obj (outcome.fields ++
      [("language", .str order.target.name), ("mode", .str order.mode.name)] ++ extra)) ∧
    (∀ field ∈ extra, field.1 ∈ ["debug_output", "tokens", "debug_metadata"]) ∧
    (order.debug = false → extra = [])
  language : ∀ body ∈ r.json, NoLanguageError body

/-- An order is answered with what its conversion comes to. Debugging adds the trace and the tokens,
and has no say in anything else. -/
theorem exists_fulfil (order : Order) : ∃ outcome trace,
    Convert.convert order.mode (.str order.text) (.str order.target.name) = .ok outcome ∧
    ∀ debug, fulfil { order with debug := debug } = ⟨200, some (.obj (answerFields order outcome ++
      if debug then debugFields order trace else []))⟩ := by
  have hwritable : (Json.str order.text).isWritable = true := rfl
  obtain ⟨outcome, hconvert⟩ :=
    Convert.exists_convert order.mode hwritable (.str order.target.name)
  have hresult : (Convert.Traced.convert order.mode (.str order.text)
      (.str order.target.name)).result = .ok outcome := hconvert
  refine ⟨outcome, printed (Convert.Traced.convert order.mode (.str order.text)
    (.str order.target.name)).entries, hconvert, fun debug => ?_⟩
  rw [fulfil, (Convert.uniform_convert _ _ _).run_alone, hresult]
  cases debug with
  | true => rfl
  | false => rfl

/-- Every order is fulfilled. -/
private theorem fulfilled_fulfil (order : Order) : Fulfilled order (fulfil order) := by
  have hname := Target.ofJson?_name order.target
  obtain ⟨outcome, trace, hconvert, hfulfil⟩ := exists_fulfil order
  rw [hfulfil order.debug]
  refine ⟨rfl, ⟨outcome, _, hconvert, rfl, ?_, ?_⟩, ?_⟩
  · split
    next => simp [debugFields]
    next => exact List.forall_mem_nil _
  · intro hoff
    rw [hoff]
    rfl
  · intro body hbody errors herrors e he
    cases hbody
    obtain ⟨o, rfl, rfl⟩ := errors_of_answer herrors
    obtain ⟨d, hd, rfl⟩ := List.mem_map.mp he
    -- only a program has errors, and it was converted to a language that there is
    exact code_toJson (code_of_program_error hname (program_of_convert hconvert) d hd)

/-! ## Requests -/

/-- The value that a request stands for: nothing stands for an object without fields. -/
def dataOf (value : Json) : Json := if value.isGiven then value else .obj []

private theorem respondTo_of_found {method address : String} {route : Route}
    (h : Destination.of (Text.capitals method) (Address.split address.toList) = .found route)
    (value : Json) : respondTo method address value = answer route method value := by
  unfold respondTo
  simp only [h]

/-- A request to convert is answered as its value is. -/
theorem respondTo_convert (value : Json) :
    respondTo "POST" Route.convert.path value = convertValue value := by
  have hfound : Destination.of (Text.capitals "POST") (Address.split Route.convert.path.toList)
      = .found .convert := by decide +kernel
  have hoptions : Text.capitals "POST" ≠ "OPTIONS" := by decide +kernel
  have hhead : "POST" ≠ "HEAD" := by decide
  rw [respondTo_of_found hfound]
  unfold answer
  rw [if_neg hoptions, if_neg hhead]
  rfl

/-- The answer to an object is what its order comes to. -/
theorem convertValue_of_isObject {value : Json} (h : isObject (dataOf value) = true) :
    convertValue value =
      match Order.read (dataOf value) with
      | .error message => refusal message
      | .ok order => fulfil order := by
  show (match dataOf value with
    | .obj fields => match Order.read (.obj fields) with
      | .error message => refusal message
      | .ok order => fulfil order
    | other => failure (noFields (kindName other))) = _
  cases hdata : dataOf value with
  | obj fields => rfl
  | _ => rw [hdata] at h; cases h

/-- The answer to any other value is a failure. -/
private theorem convertValue_of_not_isObject {value : Json} (h : isObject (dataOf value) = false) :
    (convertValue value).status = 500 := by
  show Response.status (match dataOf value with
    | .obj fields => match Order.read (.obj fields) with
      | .error message => refusal message
      | .ok order => fulfil order
    | other => failure (noFields (kindName other))) = _
  cases hdata : dataOf value with
  | obj fields => rw [hdata] at h; cases h
  | _ => rfl

/-- A value fails if it is given and no object. -/
theorem isObject_dataOf (value : Json) :
    isObject (dataOf value) = false ↔ value.isGiven = true ∧ isObject value = false := by
  unfold dataOf
  split
  next hgiven => exact ⟨fun h => ⟨hgiven, h⟩, fun h => h.2⟩
  next hgiven => exact ⟨fun h => absurd h (by decide), fun h => absurd h.1 hgiven⟩

/-- `Judged data r`: an object is answered with `r`. What is wrong with it is looked for in the
order of text, mode and language, and the first that is found decides. -/
inductive Judged (data : Json) : Response → Prop
  | noText (h : NoText data) : Judged data (refusal "No text provided")
  | noMode (htext : ¬ NoText data) (h : NoMode data) :
    Judged data (refusal (unknownMode (data.fieldD "mode" (.str "program"))))
  | noTarget (htext : ¬ NoText data) (hmode : ¬ NoMode data) (h : NoTarget data) :
    Judged data (refusal (Target.unsupported (data.fieldD "language" (.str "python"))))
  | fulfilled {order : Order} {r : Response} (htext : ¬ NoText data) (hmode : ¬ NoMode data)
      (htarget : ¬ NoTarget data) (horder : order.From data) (h : Fulfilled order r) : Judged data r

/-- Every object is answered with what is wrong with it, or with what it asks for. -/
private theorem judged_convertValue {value : Json} (h : isObject (dataOf value) = true) :
    Judged (dataOf value) (convertValue value) := by
  rw [convertValue_of_isObject h]
  rcases Order.read_cases (dataOf value) with ⟨htext, hread⟩ | ⟨htext, hmode, hread⟩ |
    ⟨htext, hmode, htarget, hread⟩ | ⟨htext, hmode, htarget, order, hread, horder⟩
  · rw [hread]
    exact .noText htext
  · rw [hread]
    exact .noMode htext hmode
  · rw [hread]
    exact .noTarget htext hmode htarget
  · rw [hread]
    exact .fulfilled htext hmode htarget horder (fulfilled_fulfil order)

/-- An object is refused exactly if something is wrong with it, and answered otherwise. -/
theorem Judged.status {data : Json} {r : Response} (h : Judged data r) :
    r.status = 400 ∧ (NoText data ∨ NoMode data ∨ NoTarget data) ∨
      r.status = 200 ∧ ¬ (NoText data ∨ NoMode data ∨ NoTarget data) := by
  cases h with
  | noText htext => exact Or.inl ⟨rfl, Or.inl htext⟩
  | noMode _ hmode => exact Or.inl ⟨rfl, Or.inr (Or.inl hmode)⟩
  | noTarget _ _ htarget => exact Or.inl ⟨rfl, Or.inr (Or.inr htarget)⟩
  | fulfilled htext hmode htarget _ hr =>
    refine Or.inr ⟨hr.status, ?_⟩
    rintro (h | h | h)
    · exact htext h
    · exact hmode h
    · exact htarget h

/-- **The statuses of requests to convert.** A value that is given and is no object fails, and no
other does. It stands for an object, without fields if it is not given. It is refused if there is no
text in it, or no such mode, or no such language, and the refusal is about the first of these. In
every other case it is answered with the conversion of its text, in the mode and the language that
it names, and with no error about the language. -/
theorem request_status (value : Json) :
    let r := respondTo "POST" "/api/translate" value
    let data := dataOf value
    (r.status = 500 ↔ value.isGiven = true ∧ isObject value = false) ∧
    (r.status = 400 ↔ isObject data = true ∧ (NoText data ∨ NoMode data ∨ NoTarget data)) ∧
    (r.status = 200 ↔ isObject data = true ∧ ¬ (NoText data ∨ NoMode data ∨ NoTarget data)) ∧
    (isObject data = true → Judged data r) := by
  intro r data
  have hr : r = convertValue value := respondTo_convert value
  rw [hr]
  cases hobject : isObject data with
  | false =>
    have hstatus := convertValue_of_not_isObject hobject
    rw [hstatus]
    exact ⟨⟨fun _ => (isObject_dataOf value).mp hobject, fun _ => rfl⟩, ⟨nofun, nofun⟩,
      ⟨nofun, nofun⟩, nofun⟩
  | true =>
    have hjudged : Judged data (convertValue value) := judged_convertValue hobject
    have hgiven : ¬ (value.isGiven = true ∧ isObject value = false) := by
      rw [← isObject_dataOf]
      exact fun h => Bool.false_ne_true (h.symm.trans hobject)
    rcases hjudged.status with ⟨hstatus, hwrong⟩ | ⟨hstatus, hright⟩
    · rw [hstatus]
      exact ⟨⟨nofun, fun h => absurd h hgiven⟩, ⟨fun _ => ⟨rfl, hwrong⟩, fun _ => rfl⟩,
        ⟨nofun, fun h => absurd hwrong h.2⟩, fun _ => hjudged⟩
    · rw [hstatus]
      exact ⟨⟨nofun, fun h => absurd h hgiven⟩, ⟨nofun, fun h => absurd h.2 hright⟩,
        ⟨fun _ => ⟨rfl, hright⟩, fun _ => rfl⟩, fun _ => hjudged⟩

/-- A request for a line in Java, one with a number for its text, a list, and nothing at all. -/
theorem request_status_kinds :
    let line : Json := .obj [("text", .str "say 5"), ("mode", .str "line"),
      ("language", .str " JAVA")]
    Judged line (respondTo "POST" "/api/translate" line) ∧
    (respondTo "POST" "/api/translate" line).status = 200 ∧
    (respondTo "POST" "/api/translate" (.obj [("text", .int 5), ("mode", .null)])).status = 400 ∧
    (respondTo "POST" "/api/translate" (.arr [.null])).status = 500 ∧
    (respondTo "POST" "/api/translate" .null).status = 400 := by
  intro line
  have hjava : Target.ofJson? (.str " JAVA") = some .java := by decide +kernel
  refine ⟨(request_status line).2.2.2 rfl, (request_status line).2.2.1.mpr ⟨rfl, ?_⟩,
    (request_status _).2.1.mpr ⟨rfl, Or.inl fun text htext => by cases htext⟩,
    (request_status _).1.mpr ⟨rfl, rfl⟩,
    (request_status .null).2.1.mpr ⟨rfl, Or.inl fun text htext => by cases htext; rfl⟩⟩
  rintro (htext | hmode | htarget)
  · exact absurd (htext "say 5" rfl) (by decide)
  · exact absurd rfl (hmode .line)
  · cases hjava.symm.trans htarget

end PlainCode.Service
