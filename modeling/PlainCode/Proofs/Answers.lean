import PlainCode.Convert.Session
import PlainCode.Proofs.LineByLine

/-!
# Which conversions have an answer

A conversion can end early in many ways, and the code for some of them can never run. This module
says which. Code is written for whatever was read, since all of it is proper. A phrase that says
something has tokens, so it never fails for want of them. What a program reports are errors with one
of three codes and warnings with one code: the code for a line without tokens is not among them.

One way is left in which there is no answer at all: a phrase is shown as it was given, and a value
that cannot be written cannot be shown. Text can always be written, and so can whatever was read as
JSON (`Json.isWritable_of_read?`), so this takes a number of more than 4300 digits that was given
directly.

The main statement is `conversion_answers`. It is about a session, whether debugging is on or not,
and about every value that can be given for a text and for a language.
-/

namespace PlainCode

/-! ## Values that can be written -/

namespace Json

private theorem exists_plain? {value : Json} (h : value.isWritable = true) :
    ∃ text, value.plain? = some text := by
  have hdisplay : value.display? = some value.display := if_pos h
  cases value with
  | str text => exact ⟨text, rfl⟩
  | _ => exact ⟨_, hdisplay⟩

private theorem plain?_eq_none {value : Json} (h : value.isWritable = false) :
    value.plain? = none := by
  have hdisplay : value.display? = none := if_neg (by rw [h]; exact Bool.false_ne_true)
  cases value with
  | str text => cases h
  | _ => exact hdisplay

private theorem isWritable_natCast (n : Nat) :
    isWritable (.int n) = decide (n < Double.tenTo mostDigits) := by
  rw [isWritable, Int.natAbs_natCast]

end Json

/-- A language is found by its own name. -/
theorem Target.ofJson?_name (target : Target) : ofJson? (.str target.name) = some target := by
  cases target <;> decide

/-! ## Warnings -/

/-- A warning is about the tokens of a slot that were not read, or comes from reading them. -/
theorem Parsed.mem_warnings_fillSlots {parse : List Token → Except ParseError Parsed}
    {w : Diagnostic} : ∀ (spans : List (Slot × List Token)) (c : Command),
      w ∈ (fillSlots parse spans c).2 → ∃ s ∈ spans,
        w = unreadBody s.1 s.2 ∨ ∃ p, parse s.2 = .ok p ∧ w ∈ p.warnings
  | [], _, h => by cases h
  | (slot, span) :: rest, c, h => by
    -- warnings from the rest are about a slot of the rest
    have hrest : ∀ c, w ∈ (fillSlots parse rest c).2 → ∃ s ∈ (slot, span) :: rest,
        w = unreadBody s.1 s.2 ∨ ∃ p, parse s.2 = .ok p ∧ w ∈ p.warnings := by
      intro c hw
      obtain ⟨s, hs, hwarning⟩ := mem_warnings_fillSlots rest c hw
      exact ⟨s, List.mem_cons_of_mem _ hs, hwarning⟩
    rw [fillSlots] at h
    split at h
    next => exact hrest c h
    next =>
      split at h
      next child hchild =>
        rcases List.mem_append.mp h with hw | hw
        · exact ⟨_, List.mem_cons_self .., Or.inr ⟨child, hchild, hw⟩⟩
        · exact hrest _ hw
      next =>
        rcases List.mem_cons.mp h with rfl | hw
        · exact ⟨_, List.mem_cons_self .., Or.inl rfl⟩
        · exact hrest c hw

/-- All that reading warns of are bodies that were not read. -/
private theorem code_of_warning {rules : List Rule} {ts : List Token} {p : Parsed}
    (h : parse rules ts = .ok p) : ∀ w ∈ p.warnings, w.code = some "SYN010" := by
  refine parse_rec (motive := fun _ p => ∀ w ∈ p.warnings, w.code = some "SYN010") ?_ h
  intro ts rule m _ _ ih w hw
  obtain ⟨s, hs, rfl | ⟨child, hchild, hw⟩⟩ := Parsed.mem_warnings_fillSlots _ _ hw
  · rfl
  · exact ih s hs child hchild w hw

namespace Convert

/-! ## Phrases -/

/-- A value that can be written is converted to the outcome of what it says. -/
theorem line_eq_ofJson {language : Json} {target : Target}
    (h : Target.ofJson? language = some target) {text : Json} (hwritable : text.isWritable = true) :
    line text language = .ok (outcomeOf target (Phrase.ofJson text)) := by
  obtain ⟨raw, hraw⟩ := Json.exists_plain? hwritable
  rw [line_eq_stages h, LineStages.outcome_run target hraw]

/-- A value that cannot be written cannot be shown, so it is not converted. -/
theorem line_of_not_isWritable {language : Json} {target : Target}
    (h : Target.ofJson? language = some target) {text : Json}
    (hwritable : text.isWritable = false) : line text language = .error .tooLong := by
  have hraw : (LineStages.run target text).raw = none := Json.plain?_eq_none hwritable
  rw [line_eq_stages h, LineStages.outcome_eq, hraw]
  rfl

/-- What begins with another letter does not say that there are no tokens. -/
theorem ne_noTokens_of_head {message : String} {c : Char} (h : message.toList.head? = some c)
    (hc : c ≠ 'N') : message ≠ "No tokens found" := by
  rintro rfl
  exact hc (Option.some.inj h).symm

private theorem unsupported_ne_noTokens (language : Json) :
    Target.unsupported language ≠ "No tokens found" := by
  unfold Target.unsupported
  split
  next => decide
  next text _ =>
    have hhead : ("Unsupported language: " ++ text ++ ". Choose one of: " ++
        ", ".intercalate (Target.all.map Target.name)).toList.head? = some 'U' :=
      head?_append_text (head?_append_text (head?_append_text (by decide)))
    exact ne_noTokens_of_head hhead (by decide)

/-- An outcome that does not fail for want of tokens, and warns of nothing but bodies. -/
def LineOutcome.Answers (o : LineOutcome) : Prop :=
  (∀ e, o = .error e → e.message ≠ "No tokens found") ∧
    ∀ r, o = .ok r → ∀ w ∈ r.warnings, w.code = some "SYN010"

theorem outcomeOf_answers (target : Target) (text : String) : (outcomeOf target text).Answers := by
  rcases read?_cases target (text, 1) with ⟨_, hout⟩ | ⟨parsed, _, hparse, hout⟩ | ⟨ts, _, hout⟩
  · -- an empty phrase says that it is empty
    rw [hout]
    refine ⟨fun e he => ?_, nofun⟩
    cases he
    decide
  · rw [hout]
    refine ⟨nofun, fun r hr => ?_⟩
    cases hr
    exact code_of_warning hparse
  · rw [hout]
    refine ⟨fun e he => ?_, nofun⟩
    cases he
    exact ne_noTokens_of_head (head?_unrecognized ts) (by decide)

/-- A phrase has an answer if its language is not known, or if it can be written. -/
theorem line_cases (text language : Json) :
    ((Target.ofJson? language = none ∨ text.isWritable = true) ∧
      ∃ o, line text language = .ok o ∧ o.Answers) ∨
    (¬ (Target.ofJson? language = none ∨ text.isWritable = true) ∧
      line text language = .error .tooLong) := by
  cases h : Target.ofJson? language with
  | none =>
    refine Or.inl ⟨Or.inl rfl, _, line_of_no_target h text, fun e he => ?_, nofun⟩
    cases he
    exact unsupported_ne_noTokens language
  | some target =>
    cases hwritable : text.isWritable with
    | true =>
      exact Or.inl ⟨Or.inr rfl, _, line_eq_ofJson h hwritable, outcomeOf_answers target _⟩
    | false => exact Or.inr ⟨by simp, line_of_not_isWritable h hwritable⟩

/-- A phrase that is a text always has an answer, whatever the value for the language is. -/
theorem exists_line (text : String) (language : Json) :
    ∃ o, line (.str text) language = .ok o ∧ o.Answers := by
  rcases line_cases (.str text) language with ⟨_, h⟩ | ⟨h, _⟩
  · exact h
  · exact absurd (Or.inr rfl) h

/-! ## Programs -/

theorem program_ofJson (text language : Json) :
    program text language = program (.str (Phrase.ofJson text)) language := by
  have hphrase : Phrase.ofJson (.str (Phrase.ofJson text)) = Phrase.ofJson text := rfl
  simp only [program, Traced.program, ProgramStages.run, hphrase]

/-- An outcome whose errors have one of three codes, and which warns of nothing but bodies. -/
def ProgramOutcome.Answers (o : ProgramOutcome) : Prop :=
  (∀ e ∈ o.errors, e.code ∈ [some "GEN001", some "NRM001", some "SYN001"]) ∧
    ∀ w ∈ o.warnings, w.code = some "SYN010"

/-- The code of the error of a line. -/
theorem LineOutcome.code_of_error? {r : LineOutcome} {number : Nat} {text : String} {e : Diagnostic}
    (h : r.error? number text = some e) : e.code = some "SYN001" := by
  unfold LineOutcome.error? at h
  split at h
  next =>
    split at h
    next => cases h
    next => cases h; rfl
  next => cases h

/-- Lines that answer make a program that does. -/
theorem Summary.answers {target : Target} {lines : List (String × Nat)} {o : ProgramOutcome}
    (h : Summary target (outcomeOf target) lines o) : o.Answers := by
  constructor
  · intro e he
    rw [h.errors, List.mem_filterMap] at he
    obtain ⟨l, _, he⟩ := he
    rw [LineOutcome.code_of_error? he]
    exact List.mem_cons_of_mem _ (List.mem_cons_of_mem _ (List.mem_singleton.mpr rfl))
  · intro w hw
    rw [h.warnings, List.mem_flatMap] at hw
    obtain ⟨l, _, hw⟩ := hw
    unfold LineOutcome.warningsOn at hw
    split at hw
    next => cases hw
    next r hr =>
      obtain ⟨v, hv, rfl⟩ := List.mem_map.mp hw
      exact (outcomeOf_answers target l.1).2 r hr v hv

/-- A text in a language that there is is refused if none of its lines says anything, and otherwise
the lines make up its outcome. -/
theorem program_of_target {language : Json} {target : Target}
    (h : Target.ofJson? language = some target) (raw : String) :
    ∃ o, program (.str raw) language = .ok o ∧
      ((∀ text ∈ Text.lines raw, Phrase.canonical text = "") ∧
          o = .refused { code := some "NRM001", message := some "Empty input" } ∨
        (∃ text ∈ Text.lines raw, Phrase.canonical text ≠ "") ∧
          Summary target (outcomeOf target) ((Text.lines raw).zipIdx 1) o) := by
  have hlines : (ProgramStages.run target (.str raw)).lines
      = ((Text.lines raw).zipIdx 1).filterMap read? := numberedFrom_eq (Text.lines raw) 1
  have hnone : (ProgramStages.run target (.str raw)).lines = [] ↔
      ∀ text ∈ Text.lines raw, Phrase.canonical text = "" := by
    conv_rhs => rw [← List.zipIdx_map_fst 1 (Text.lines raw), List.forall_mem_map]
    rw [hlines, List.filterMap_eq_nil_iff]
    refine forall₂_congr fun l _ => ?_
    rw [read?]
    split
    next hempty => exact ⟨fun _ => hempty, fun _ => rfl⟩
    next hspoken =>
      exact ⟨fun hread => absurd hread (Option.some_ne_none _), fun hempty => absurd hempty hspoken⟩
  by_cases hnil : (ProgramStages.run target (.str raw)).lines = []
  · exact ⟨_, program_of_no_lines h hnil, Or.inl ⟨hnone.mp hnil, rfl⟩⟩
  · obtain ⟨o, ho, hsummary⟩ :=
      summary_of_lines hlines (fun l hl => List.le_snd_of_mem_zipIdx hl) hnil
    have hspoken : ∃ text ∈ Text.lines raw, Phrase.canonical text ≠ "" := by
      simpa using hnone.not.mp hnil
    exact ⟨o, (program_eq_stages h _).trans ho, Or.inr ⟨hspoken, hsummary⟩⟩

/-- A text is refused for one reason, or its lines make up its outcome. -/
theorem program_cases (raw : String) (language : Json) :
    ∃ o, program (.str raw) language = .ok o ∧
      ((∃ d, o = .refused d ∧ d.code ∈ [some "GEN001", some "NRM001"]) ∨
        ∃ target, Summary target (outcomeOf target) ((Text.lines raw).zipIdx 1) o) := by
  cases h : Target.ofJson? language with
  | none => exact ⟨_, program_of_no_target h _, Or.inl ⟨_, rfl, List.mem_cons_self ..⟩⟩
  | some target =>
    obtain ⟨o, ho, ⟨_, rfl⟩ | ⟨_, hsummary⟩⟩ := program_of_target h raw
    · exact ⟨_, ho, Or.inl ⟨_, rfl, by decide⟩⟩
    · exact ⟨o, ho, Or.inr ⟨target, hsummary⟩⟩

/-- A text always has an answer, whatever the values for it and for the language are. -/
theorem exists_program (text language : Json) :
    ∃ o, program text language = .ok o ∧ o.Answers := by
  obtain ⟨o, ho, ⟨d, rfl, hd⟩ | ⟨target, hsummary⟩⟩ := program_cases (Phrase.ofJson text) language
  · rw [program_ofJson]
    exact ⟨_, ho, List.forall_mem_singleton.mpr (List.mem_append_left [some "SYN001"] hd), nofun⟩
  · rw [program_ofJson]
    exact ⟨o, ho, hsummary.answers⟩

/-! ## Sessions -/

/-- **Which conversions have an answer.** Whatever tokens are read as, code is written for it in
every language, and at every depth it is of a known form and has a known operator. Behind whatever
is on the stream, and with debugging or without, a phrase has an answer exactly if its language is
not known or it can be written, and otherwise fails because it cannot. The answer is never that
there are no tokens, and all its warnings have one code. A program always has an answer, with errors
of three codes and warnings of one. -/
theorem conversion_answers (ts : List Token) (t : Target) (s : Session) (stream : List String)
    (text language : Json) :
    let answer := ((Traced.line text language).run s stream).1
    (∀ p, parse grammar ts = .ok p → p.command ≠ .hole ∧ (∀ n ∈ p.command.preorder, n.Proper) ∧
      ∃ code, Code.write t p.command = .ok code) ∧
    (((∃ o, answer = .ok o) ↔ Target.ofJson? language = none ∨ text.isWritable = true) ∧
      (∀ failure, answer = .error failure → failure = .tooLong) ∧
      (∀ e, answer = .ok (.error e) → e.message ≠ "No tokens found") ∧
      ∀ r, answer = .ok (.ok r) → ∀ w ∈ r.warnings, w.code = some "SYN010") ∧
    ∃ o, ((Traced.program text language).run s stream).1 = .ok o ∧
      (∀ e ∈ o.errors, e.code ∈ [some "GEN001", some "NRM001", some "SYN001"]) ∧
      ∀ w ∈ o.warnings, w.code = some "SYN010" := by
  intro answer
  have hanswer : answer = line text language := (uniform_line text language).fst s stream
  refine ⟨fun p hp => ⟨ne_hole_of_parse hp, proper_of_parse hp, _, Code.write_of_parse hp t⟩,
    ?_, ?_⟩
  · rw [hanswer]
    rcases line_cases text language with ⟨hgood, o, ho, htokens, hwarnings⟩ | ⟨hbad, hfails⟩
    · rw [ho]
      refine ⟨⟨fun _ => hgood, fun _ => ⟨o, rfl⟩⟩, nofun, fun e he => ?_, fun r hr => ?_⟩
      · exact htokens e (Except.ok.inj he)
      · exact hwarnings r (Except.ok.inj hr)
    · rw [hfails]
      refine ⟨⟨nofun, fun hgood => absurd hgood hbad⟩, fun failure hfailure => ?_, nofun, nofun⟩
      exact (Except.error.inj hfailure).symm
  · have hprogram : ((Traced.program text language).run s stream).1 = program text language :=
      (uniform_program text language).fst s stream
    rw [hprogram]
    exact exists_program text language

/-- A choice with a body that is not read, and a session with debugging that gets a list of numbers
for its text and a truth value for its language. -/
theorem conversion_answers_unread :
    (∃ p, parse grammar [⟨.keyword, "if"⟩, ⟨.identifier, "x"⟩, ⟨.keyword, "less"⟩, ⟨.number, "2"⟩,
        ⟨.keyword, "then"⟩, ⟨.identifier, "oops"⟩] = .ok p ∧
      p.command = .branch (some ⟨some "x", some "less", some "2"⟩) .hole .hole ∧
      (∀ n ∈ p.command.preorder, n.Proper) ∧ ∃ code, Code.write .cpp p.command = .ok code) ∧
    (∃ o, ((Traced.line (.arr [.int 5, .int (-7)]) (.bool true)).run ⟨true⟩ ["x"]).1 = .ok o) ∧
    ∃ o, ((Traced.program (.arr [.int 5, .int (-7)]) (.bool true)).run ⟨true⟩ ["x"]).1 = .ok o ∧
      ∀ e ∈ o.errors, e.code ∈ [some "GEN001", some "NRM001", some "SYN001"] := by
  obtain ⟨hwrite, ⟨hline, _⟩, o, hprogram, herrors, _⟩ := conversion_answers
    [⟨.keyword, "if"⟩, ⟨.identifier, "x"⟩, ⟨.keyword, "less"⟩, ⟨.number, "2"⟩, ⟨.keyword, "then"⟩,
      ⟨.identifier, "oops"⟩] .cpp ⟨true⟩ ["x"] (.arr [.int 5, .int (-7)]) (.bool true)
  refine ⟨?_, hline.mpr (Or.inr (by decide +kernel)), o, hprogram, herrors⟩
  have hparse : parse grammar [⟨.keyword, "if"⟩, ⟨.identifier, "x"⟩, ⟨.keyword, "less"⟩,
      ⟨.number, "2"⟩, ⟨.keyword, "then"⟩, ⟨.identifier, "oops"⟩]
      = .ok ⟨.branch, .branch (some ⟨some "x", some "less", some "2"⟩) .hole .hole,
        [Parsed.unreadBody .thenBody [⟨.identifier, "oops"⟩]]⟩ := by rfl
  obtain ⟨_, hproper, hcode⟩ := hwrite _ hparse
  exact ⟨_, hparse, rfl, hproper, hcode⟩

/-- The least whole number that is too long is a phrase without an answer, with debugging and
without. -/
theorem conversion_unanswered :
    let text : Json := .int (Double.tenTo 4300)
    ((Traced.line text (.str "python")).run ⟨false⟩ []).1 = .error .tooLong ∧
    ((Traced.line text (.str "python")).run ⟨true⟩ []).1 = .error .tooLong ∧
    ¬ ∃ o, ((Traced.line text (.str "python")).run ⟨false⟩ []).1 = .ok o := by
  intro text
  have hwritable : text.isWritable = false := by
    rw [Json.isWritable_natCast, Json.mostDigits, decide_eq_false_iff_not]
    exact Nat.lt_irrefl _
  have hpython : Target.ofJson? (.str "python") = some .python := by decide
  have hfails (s : Session) :
      ((Traced.line text (.str "python")).run s []).1 = .error .tooLong := by
    rw [(uniform_line _ _).fst]
    exact line_of_not_isWritable hpython hwritable
  refine ⟨hfails _, hfails _, ?_⟩
  rw [hfails]
  nofun

end Convert

end PlainCode
