import Mathlib.Data.List.Perm.Basic
import PlainCode.Proofs.Requests

/-!
# Debugging only adds to an answer

A request that asks for debugging is read as the same order with another switch
(`Order.read_setDebug`), and what an order comes to does not hang on the switch (`exists_fulfil`).
So the answer is the same in every field but those that debugging adds.

For a program these fields have to agree with the others, although the tokens in them are found by a
second pass over the text. Each line of a text that says something is either a command or an error,
so the numbers of the lines with tokens are those of the commands and those of the errors, taken
together (`numbers_perm`), and they come in order (`pairwise_numbers`). The main statement is
`debug_only_adds`.
-/

namespace PlainCode

/-! ## Fields that are set -/

namespace Json

theorem lookup_setField (key : String) (value : Json) : ∀ fields : List (String × Json),
    (setField key value fields).lookup key = some value
  | [] => List.lookup_cons_self
  | (k, v) :: fields => by
    rw [setField]
    split
    next hk =>
      rw [hk]
      exact List.lookup_cons_self
    next hk =>
      have hne : (key == k) = false := beq_eq_false_iff_ne.mpr fun he => hk he.symm
      rw [List.lookup_cons, hne]
      exact lookup_setField key value fields

theorem lookup_setField_of_ne {key other : String} (h : other ≠ key) (value : Json) :
    ∀ fields : List (String × Json), (setField key value fields).lookup other = fields.lookup other
  | [] => by
    rw [setField, List.lookup_cons, beq_eq_false_iff_ne.mpr h]
  | (k, v) :: fields => by
    rw [setField]
    split
    next hk =>
      have hne : (other == k) = false := beq_eq_false_iff_ne.mpr fun he => h (he.trans hk)
      rw [List.lookup_cons, List.lookup_cons, hne]
    next =>
      rw [List.lookup_cons, List.lookup_cons, lookup_setField_of_ne h value fields]

end Json

/-! ## Lines of a text -/

namespace Convert

theorem le_number_of_mem {line : Phrase.NumberedLine} : ∀ {texts : List String} {n : Nat},
    line ∈ Phrase.numberedFrom n texts → n ≤ line.number
  | [], _, h => by cases h
  | text :: texts, n, h => by
    rw [Phrase.numberedFrom] at h
    split at h
    next => exact Nat.le_of_succ_le (le_number_of_mem h)
    next =>
      rcases List.mem_cons.mp h with rfl | h
      · exact Nat.le_refl _
      · exact Nat.le_of_succ_le (le_number_of_mem h)

/-- The lines of a text that say something are numbered in order. -/
theorem pairwise_numbers : ∀ (texts : List String) (n : Nat),
    ((Phrase.numberedFrom n texts).map (·.number)).Pairwise (· < ·)
  | [], _ => List.Pairwise.nil
  | text :: texts, n => by
    rw [Phrase.numberedFrom]
    split
    next => exact pairwise_numbers texts (n + 1)
    next =>
      rw [List.map_cons, List.pairwise_cons, List.forall_mem_map]
      exact ⟨fun line hline => le_number_of_mem hline, pairwise_numbers texts (n + 1)⟩

/-- Whether a line was read as a command. -/
def ReadLine.isCommand (l : ReadLine) : Bool := l.command?.isSome

/-- The commands of a text are on the lines that were read as one. -/
theorem map_command?_lines : ∀ ls : List ReadLine,
    (ls.filterMap ReadLine.command?).map (·.1) = (ls.filter ReadLine.isCommand).map (·.number)
  | [] => rfl
  | l :: ls => by
    rw [List.filterMap_cons, List.filter_cons, ReadLine.isCommand, ReadLine.command?]
    cases l.parsed with
    | ok parsed =>
      rw [Option.isSome_some, if_pos rfl, List.map_cons, List.map_cons, map_command?_lines ls]
    | error e =>
      rw [Option.isSome_none, if_neg Bool.false_ne_true]
      exact map_command?_lines ls

/-- The errors of a text are on all the other lines that say something. -/
theorem map_error?_lines : ∀ ls : List ReadLine,
    (ls.filterMap ReadLine.error?).map (·.line)
      = (ls.filter fun l => !l.isCommand).map fun l => some (l.number : Int)
  | [] => rfl
  | l :: ls => by
    rw [List.filterMap_cons, List.filter_cons, ReadLine.isCommand, ReadLine.command?,
      ReadLine.error?]
    cases l.parsed with
    | ok parsed =>
      rw [Option.isSome_some, Bool.not_true, if_neg Bool.false_ne_true]
      exact map_error?_lines ls
    | error e =>
      rw [Option.isSome_none, Bool.not_false, if_pos rfl, List.map_cons, List.map_cons,
        map_error?_lines ls]

/-- Every line is counted among the commands or among the errors, and never among both. -/
theorem numbers_perm (ls : List ReadLine) : ((ls.filter ReadLine.isCommand).map (·.number) ++
    (ls.filter fun l => !l.isCommand).map (·.number)).Perm (ls.map (·.number)) := by
  rw [← List.map_append]
  exact (List.filter_append_perm ReadLine.isCommand ls).map _

end Convert

namespace Service

open PlainCode.Convert (Mode Outcome ProgramOutcome ProgramStages ReadLine)

/-! ## Orders with another switch -/

/-- Fields of a request, with a given value for debugging. -/
def withDebug (debug : Json) (fields : List (String × Json)) : Json :=
  .obj (Json.setField "debug" debug fields)

/-- Setting the value for debugging changes nothing of an order but the switch. -/
theorem Order.read_setDebug (debug : Json) (fields : List (String × Json)) :
    Order.read (withDebug debug fields)
      = (Order.read (.obj fields)).map fun order => { order with debug := debug.isGiven } := by
  have hother : ∀ key default, key ≠ "debug" →
      (withDebug debug fields).fieldD key default = (Json.obj fields).fieldD key default :=
    fun key default hkey =>
      congrArg (Option.getD · default) (Json.lookup_setField_of_ne hkey debug fields)
  have hdebug : (withDebug debug fields).fieldD "debug" (.bool false) = debug := by
    show ((Json.setField "debug" debug fields).lookup "debug").getD (.bool false) = debug
    rw [Json.lookup_setField, Option.getD_some]
  unfold Order.read
  rw [hother "text" _ (by decide), hother "mode" _ (by decide), hother "language" _ (by decide),
    hdebug]
  split
  next =>
    split
    next => rfl
    next =>
      dsimp only
      split
      next => rfl
      next =>
        split
        next => rfl
        next => rfl
  next => rfl

/-- An order is read, or something is wrong with it. -/
theorem Order.exists_read (data : Json) : (∃ message, Order.read data = .error message) ∨
    ∃ order, Order.read data = .ok order ∧ order.From data := by
  rcases Order.read_cases data with ⟨_, h⟩ | ⟨_, _, h⟩ | ⟨_, _, _, h⟩ | ⟨_, _, _, horder⟩
  · exact Or.inl ⟨_, h⟩
  · exact Or.inl ⟨_, h⟩
  · exact Or.inl ⟨_, h⟩
  · exact Or.inr horder

/-- An object is answered with what its order comes to. -/
theorem respondTo_object (fields : List (String × Json)) :
    respondTo "POST" "/api/translate" (.obj fields) =
      match Order.read (.obj fields) with
      | .error message => refusal message
      | .ok order => fulfil order := by
  have hdata : dataOf (.obj fields) = .obj fields := by
    cases fields with
    | nil => rfl
    | cons field fields => rfl
  have hconvert := respondTo_convert (.obj fields)
  rw [convertValue_of_isObject (by rw [hdata]; rfl), hdata] at hconvert
  exact hconvert

/-- An order that can be read is answered. -/
theorem status_of_read {fields : List (String × Json)} {order : Order}
    (h : Order.read (.obj fields) = .ok order) :
    (respondTo "POST" "/api/translate" (.obj fields)).status = 200 := by
  obtain ⟨_, _, _, hfulfil⟩ := exists_fulfil order
  rw [respondTo_object, h]
  exact congrArg Response.status (hfulfil order.debug)

/-- What is behind an answer to an object that was not refused. -/
theorem exists_order {fields : List (String × Json)}
    (h : (respondTo "POST" "/api/translate" (.obj fields)).status = 200) :
    ∃ order outcome trace, order.From (.obj fields) ∧
      Convert.convert order.mode (.str order.text) (.str order.target.name) = .ok outcome ∧
      respondTo "POST" "/api/translate" (.obj fields) = ⟨200, some (.obj
        (answerFields order outcome ++ if order.debug then debugFields order trace else []))⟩ := by
  rw [respondTo_object] at h ⊢
  rcases Order.exists_read (.obj fields) with ⟨message, hread⟩ | ⟨order, hread, horder⟩
  · rw [hread] at h
    have hrefused : 400 = 200 := h
    omega
  · obtain ⟨outcome, trace, hconvert, hfulfil⟩ := exists_fulfil order
    rw [hread]
    exact ⟨order, outcome, trace, horder, hconvert, hfulfil order.debug⟩

/-- A request to convert with a given value for debugging is answered as the order in it. -/
theorem respondTo_withDebug (debug : Json) (fields : List (String × Json)) :
    respondTo "POST" "/api/translate" (withDebug debug fields) =
      match Order.read (.obj fields) with
      | .error message => refusal message
      | .ok order => fulfil { order with debug := debug.isGiven } := by
  have hread := Order.read_setDebug debug fields
  rw [withDebug] at hread ⊢
  rw [respondTo_object, hread]
  cases Order.read (.obj fields) with
  | error message => rfl
  | ok order => rfl

/-! ## The fields that debugging adds -/

/-- The names of the fields that debugging adds. -/
def debugKeys : List String := ["debug_output", "tokens", "debug_metadata"]

/-- A value without the fields that debugging adds. -/
def withoutDebug : Json → Json
  | .obj fields => .obj (fields.filter fun field => !debugKeys.contains field.1)
  | other => other

/-- No other field of an answer has the name of a field that debugging adds. -/
private theorem filter_answerFields (order : Order) (outcome : Outcome) :
    (answerFields order outcome).filter (fun field => !debugKeys.contains field.1)
      = answerFields order outcome := by
  cases outcome with
  | line o =>
    cases o with
    | error e => rfl
    | ok r => rfl
  | program o =>
    obtain ⟨errors, warnings, totalTokens, result⟩ := o
    cases result with
    | none => rfl
    | some r => rfl

private theorem withoutDebug_answer (order : Order) (outcome : Outcome) (trace : String)
    (debug : Bool) :
    withoutDebug
        (.obj (answerFields order outcome ++ if debug then debugFields order trace else []))
      = .obj (answerFields order outcome) := by
  have hadded : (if debug then debugFields order trace else []).filter
      (fun field => !debugKeys.contains field.1) = [] := by
    cases debug with
    | true => rfl
    | false => rfl
  rw [withoutDebug, List.filter_append, filter_answerFields, hadded, List.append_nil]

/-- The lines that the items of a list are about, in order. -/
def OnLines (items : List Json) (numbers : List Nat) : Prop :=
  items.map (·.field? "line") = numbers.map fun n : Nat => some (.int n)

/-- An answer that refuses its text because no line of it says anything. -/
def SaysEmpty (body : Json) : Prop :=
  ∃ errors, body.field? "errors" = some (.arr errors) ∧
    ∃ e ∈ errors, e.field? "code" = some (.str "NRM001")

/-- An answer in which the lines with tokens come in order, and are the lines of the commands
together with the lines of the errors. An answer without success has no commands. -/
def LinesAgree (body : Json) : Prop :=
  ∃ (entries errors : List Json) (numbers lines failed : List Nat),
    body.field? "tokens" = some (.arr entries) ∧ OnLines entries numbers ∧
    body.field? "errors" = some (.arr errors) ∧ OnLines errors failed ∧
    (body.field? "success" = some (.bool true) ∧
        body.field? "lines" = some (.arr (lines.map fun n : Nat => .int n)) ∨
      body.field? "success" = some (.bool false) ∧ body.field? "lines" = none ∧ lines = []) ∧
    numbers.Pairwise (· < ·) ∧ lines.Disjoint failed ∧ numbers.Perm (lines ++ failed)

/-- The items of a list in a field of a value. -/
def itemsOf (key : String) (value : Json) : List Json :=
  match value.field? key with
  | some (.arr items) => items
  | _ => []

/-- An answer about a program whose fields for debugging agree with its other fields. -/
structure DebugAgrees (body : Json) : Prop where
  output : ∃ (trace : String) (metadata : Json), body.field? "debug_output" = some (.str trace) ∧
    body.field? "debug_metadata" = some metadata ∧
    metadata.field? "output_length" = some (.int trace.length)
  count : ∃ (total : Nat) (metadata : Json), body.field? "totalTokens" = some (.int total) ∧
    body.field? "debug_metadata" = some metadata ∧
    metadata.field? "tokens_count" = some (.int total) ∧
    ((itemsOf "tokens" body).flatMap (itemsOf "tokens")).length = total
  lines : ¬ SaysEmpty body → LinesAgree body

private theorem onLines_tokens (text : String) : OnLines ((lineReports text).map LineReport.toJson)
    ((Phrase.numberedLines text).map (·.number)) := by
  rw [OnLines, lineReports, List.map_map, List.map_map, List.map_map]
  rfl

private theorem onLines_errors {errors : List Diagnostic} {numbers : List Nat}
    (h : errors.map (·.line) = numbers.map fun n : Nat => some (n : Int)) :
    OnLines (errors.map Diagnostic.toJson) numbers := by
  have hmap := congrArg (List.map fun line => some (Json.ofInt? line)) h
  rw [List.map_map, List.map_map] at hmap
  rw [OnLines, List.map_map]
  exact hmap

section

variable {order : Order} {trace : String} {o : ProgramOutcome}

/-- The answer to an order for a program with debugging. -/
def debugBody (order : Order) (trace : String) (o : ProgramOutcome) : Json :=
  .obj (answerFields order (.program o) ++ debugFields order trace)

theorem field?_debugBody (order : Order) (trace : String) (o : ProgramOutcome) :
    (debugBody order trace o).field? "success" = some (.bool o.result.isSome) ∧
    (debugBody order trace o).field? "errors" = some (.arr (o.errors.map Diagnostic.toJson)) ∧
    (debugBody order trace o).field? "totalTokens" = some (.int o.totalTokens) ∧
    (debugBody order trace o).field? "lines"
      = o.result.map (fun r => .arr (r.lines.map fun n : Nat => .int n)) ∧
    (debugBody order trace o).field? "tokens"
      = some (.arr ((lineReports order.text).map LineReport.toJson)) := by
  obtain ⟨errors, warnings, totalTokens, result⟩ := o
  cases result with
  | none => exact ⟨rfl, rfl, rfl, rfl, rfl⟩
  | some r => exact ⟨rfl, rfl, rfl, rfl, rfl⟩

/-- Both passes over a text find the same lines. -/
private theorem map_number_lines (target : Target) (text : String) :
    (ProgramStages.run target (.str text)).lines.map (·.number)
      = (Phrase.numberedLines text).map (·.number) := by
  rw [ProgramStages.run, List.map_map]
  rfl

theorem length_tokenItems : ∀ (ts : List Token) (n : Nat), (tokenItems n ts).length = ts.length
  | [], _ => rfl
  | _ :: ts, n => congrArg (· + 1) (length_tokenItems ts (n + 1))

/-- Both passes over a text find the same tokens. -/
private theorem totalTokens_run (target : Target) (text : String) :
    (ProgramStages.run target (.str text)).totalTokens
      = ((lineReports text).flatMap LineReport.tokens).length := by
  rw [ProgramStages.totalTokens, lineReports, ProgramStages.run, List.flatMap_map,
    List.flatMap_map, List.length_flatMap, List.length_flatMap]
  exact congrArg List.sum (List.map_congr_left fun _ _ => (length_tokenItems _ 0).symm)

/-- The tokens that an answer reports are those of the reports of the lines. -/
private theorem flatMap_itemsOf_debugBody (order : Order) (trace : String) (o : ProgramOutcome) :
    (itemsOf "tokens" (debugBody order trace o)).flatMap (itemsOf "tokens")
      = (lineReports order.text).flatMap LineReport.tokens := by
  obtain ⟨_, _, _, _, htokens⟩ := field?_debugBody order trace o
  have hitems : itemsOf "tokens" (debugBody order trace o)
      = (lineReports order.text).map LineReport.toJson := by
    rw [itemsOf, htokens]
  rw [hitems, List.flatMap_map]
  rfl

/-- The lines of an answer about a text of which some line says something. -/
private theorem linesAgree_debugBody {code : String}
    (hsome : (ProgramStages.run order.target (.str order.text)).lines ≠ [])
    (ho : o = (ProgramStages.run order.target (.str order.text)).outcomeWith code) :
    LinesAgree (debugBody order trace o) := by
  obtain ⟨hsuccess, herrors, _, hlines, htokens⟩ := field?_debugBody order trace o
  have hnumbers := map_number_lines order.target order.text
  generalize ProgramStages.run order.target (.str order.text) = s at hsome ho hnumbers
  rw [ProgramStages.outcomeWith, if_neg (by simpa using hsome)] at ho
  have hfailed : o.errors.map (·.line) = ((s.lines.filter fun l => !l.isCommand).map
      (·.number)).map fun n : Nat => some (n : Int) := by
    rw [ho, ProgramStages.report, Convert.report_foldl, List.map_map]
    exact Convert.map_error?_lines s.lines
  have hperm := Convert.numbers_perm s.lines
  have hpairwise := Convert.pairwise_numbers (Text.lines order.text) 1
  rw [hnumbers] at hperm
  refine ⟨_, _, _, (s.lines.filter ReadLine.isCommand).map (·.number), _, htokens,
    onLines_tokens order.text, herrors, onLines_errors hfailed, ?_, hpairwise, ?_, hperm.symm⟩
  · rw [hsuccess, hlines, ho]
    dsimp only
    by_cases hnone : s.commands = []
    · -- without commands there is no program
      refine Or.inr ⟨by rw [hnone]; rfl, by rw [hnone]; rfl, ?_⟩
      rw [← Convert.map_command?_lines]
      exact congrArg (List.map (·.1)) hnone
    · refine Or.inl ?_
      rw [if_neg (by simpa using hnone), ← Convert.map_command?_lines]
      exact ⟨rfl, rfl⟩
  · -- numbers in order are all different, so no line is counted twice
    have hnodup := hperm.nodup_iff.mpr (hpairwise.imp Nat.ne_of_lt)
    intro n hn hn'
    exact (List.nodup_append.mp hnodup).2.2 n hn n hn' rfl

/-- The fields for debugging of an answer about a program agree with the others. -/
private theorem debugAgrees_debugBody {code : String}
    (ho : o = (ProgramStages.run order.target (.str order.text)).outcomeWith code) :
    DebugAgrees (debugBody order trace o) := by
  obtain ⟨_, herrors, htotal, _, _⟩ := field?_debugBody order trace o
  have hreported := congrArg List.length (flatMap_itemsOf_debugBody order trace o)
  have hcount := totalTokens_run order.target order.text
  have hfields : (debugBody order trace o).field? "debug_output" = some (.str trace) ∧
      (debugBody order trace o).field? "debug_metadata" = some (.obj
        [("output_length", .int trace.length),
          ("tokens_count", .int ((lineReports order.text).flatMap LineReport.tokens).length)]) := by
    obtain ⟨errors, warnings, totalTokens, result⟩ := o
    cases result with
    | none => exact ⟨rfl, rfl⟩
    | some r => exact ⟨rfl, rfl⟩
  obtain ⟨houtput, hmetadata⟩ := hfields
  rw [← hcount] at hmetadata hreported
  have hall : o.totalTokens
      = (ProgramStages.run order.target (.str order.text)).totalTokens ∧
      (¬ SaysEmpty (debugBody order trace o) → LinesAgree (debugBody order trace o)) := by
    by_cases hnone : (ProgramStages.run order.target (.str order.text)).lines = []
    · have hrefused : o = .refused { code := some "NRM001", message := some "Empty input" } := by
        rw [ho, ProgramStages.outcomeWith, if_pos (by rw [hnone]; rfl)]
      refine ⟨by rw [ProgramStages.totalTokens, hnone, hrefused]; rfl, fun hsays => ?_⟩
      refine absurd ⟨_, herrors, ?_⟩ hsays
      rw [hrefused]
      exact ⟨_, List.mem_singleton.mpr rfl, rfl⟩
    · refine ⟨?_, fun _ => linesAgree_debugBody hnone ho⟩
      rw [ho, ProgramStages.outcomeWith, if_neg (by simpa using hnone)]
  obtain ⟨hsame, hlines⟩ := hall
  rw [← hsame] at hmetadata hreported
  exact ⟨⟨trace, _, houtput, hmetadata, rfl⟩, ⟨_, _, htotal, hmetadata, rfl, hreported⟩, hlines⟩

end

/-- What becomes of a text in a language that there is, taken line by line. -/
theorem convert_program (text : String) (target : Target) : ∃ code,
    Convert.convert .program (.str text) (.str target.name)
      = .ok (.program ((ProgramStages.run target (.str text)).outcomeWith code)) := by
  obtain ⟨code, hcode⟩ := Convert.exists_outcomeWith target (.str text)
  refine ⟨code, ?_⟩
  rw [Convert.convert_program, Convert.program_eq_stages (Target.ofJson?_name target), hcode]
  rfl

/-- **Debugging only adds to an answer.** A request to convert has the same status with debugging as
without, and the same answer but for the fields that debugging adds. Where it is answered with a
program, these fields agree with the others: the length is that of the trace, the number of tokens
is that of the program, and unless the text is refused as empty, the lines with tokens come in order
and are those of the commands and those of the errors, no line being both. -/
theorem debug_only_adds (fields : List (String × Json)) (on off : Json) (hon : on.isGiven = true)
    (hoff : off.isGiven = false) :
    let traced := respondTo "POST" "/api/translate" (withDebug on fields)
    let plain := respondTo "POST" "/api/translate" (withDebug off fields)
    traced.status = plain.status ∧
    traced.json.map withoutDebug = plain.json ∧
    (traced.status = 200 → (Json.obj fields).fieldD "mode" (.str "program") = .str "program" →
      ∃ body, traced.json = some body ∧ DebugAgrees body) := by
  intro traced plain
  have htraced : traced = _ := respondTo_withDebug on fields
  have hplain : plain = _ := respondTo_withDebug off fields
  rw [hon] at htraced
  rw [hoff] at hplain
  rcases Order.exists_read (.obj fields) with ⟨message, hread⟩ | ⟨order, hread, horder⟩
  · -- a refusal has none of the fields
    rw [hread] at htraced hplain
    refine ⟨by rw [htraced, hplain], by rw [htraced, hplain]; rfl, fun hstatus => ?_⟩
    have hrefused : 400 = 200 := by rw [htraced] at hstatus; exact hstatus
    omega
  · obtain ⟨outcome, trace, hconvert, hfulfil⟩ := exists_fulfil order
    rw [hread] at htraced hplain
    dsimp only at htraced hplain
    rw [hfulfil] at htraced hplain
    refine ⟨by rw [htraced, hplain], ?_, fun _ hmode => ?_⟩
    · rw [htraced, hplain, Option.map_some, withoutDebug_answer]
      exact congrArg (fun added => some (Json.obj added)) (List.append_nil _).symm
    · have hprogram : order.mode = .program := by
        rw [horder.mode] at hmode
        exact (Option.some.inj (mode_ofJson?_eq_some_iff.mpr hmode.symm)).symm
      obtain ⟨code, hcode⟩ := convert_program order.text order.target
      rw [hprogram, hcode] at hconvert
      cases hconvert
      exact ⟨debugBody order trace _, by rw [htraced]; rfl, debugAgrees_debugBody rfl⟩

/-- A text with a command, an empty line, a line that says nothing and a line that is no command. -/
theorem debug_only_adds_mixed :
    let fields : List (String × Json) := [("debug", .str "no"),
      ("text", .str "say 5\n\nthe\nfoo bar"), ("language", .str "C++")]
    let traced := respondTo "POST" "/api/translate" (withDebug (.int 1) fields)
    let plain := respondTo "POST" "/api/translate" (withDebug .null fields)
    traced.status = 200 ∧ plain.status = 200 ∧ traced.json.map withoutDebug = plain.json ∧
      ∃ body, traced.json = some body ∧ DebugAgrees body := by
  intro fields traced plain
  have hread : Order.read (withDebug (.int 1) fields)
      = .ok ⟨"say 5\n\nthe\nfoo bar", .program, .cpp, true⟩ := by decide +kernel
  have hstatus : traced.status = 200 := status_of_read hread
  obtain ⟨hsame, hbody, hagrees⟩ := debug_only_adds fields (.int 1) .null rfl rfl
  exact ⟨hstatus, hsame.symm.trans hstatus, hbody, hagrees hstatus rfl⟩

end Service

end PlainCode
