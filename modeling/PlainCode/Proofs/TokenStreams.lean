import PlainCode.Proofs.DebugAnswers
import PlainCode.Proofs.OneLine

/-!
# The tokens that an answer reports

An answer for debugging reports the tokens of a text line by line, also where the text was converted
as one phrase. A line ends what is looked at, but for one thing: a quoted literal goes on over the
end of a line. So the pieces of a text are the pieces of its lines as long as each quoted literal
stays on one line (`pieces_lines`), and then the tokens are the same ones. A literal that goes over
the end of a line is one token of the phrase, and of no line.

Where quoting anew leaves no quote loose, the tokens that are reported for a phrase are the tokens
that it was read from exactly if its literals stay on their lines. The main statement is
`reported_tokens_iff`.
-/

namespace PlainCode

open PlainCode.Text (OneLine)

/-! ## Pieces line by line -/

namespace Phrase

open PlainCode.Literal

/-- A phrase whose quoted literals are on one line each. -/
def LiteralsOnLines (phrase : String) : Prop :=
  ∀ s ∈ spans quotedAt? phrase.toList, s.literal = true → '\n' ∉ s.text

instance : DecidablePred LiteralsOnLines := fun _ => inferInstanceAs (Decidable (∀ s ∈ _, _ → _))

theorem splitWhere_newline {cs : List Char} (h : '\n' ∉ cs) :
    Text.splitWhere (· == '\n') cs = [cs] := by
  refine Text.splitWhere_of_none fun c hc => beq_eq_false_iff_ne.mpr ?_
  rintro rfl
  exact h hc

/-- The pieces of a text are those of its lines, one line after the other. -/
theorem piecesOf_lines (cs : List Char)
    (h : ∀ s ∈ spans quotedAt? cs, s.literal = true → '\n' ∉ s.text) :
    piecesOf cs = (Text.splitWhere (· == '\n') cs).flatMap piecesOf := by
  by_cases hline : '\n' ∈ cs
  · obtain ⟨line, rest, hcs, hfirst⟩ := List.eq_append_cons_of_mem hline
    have hsplit : Text.splitWhere (· == '\n') cs
        = line :: Text.splitWhere (· == '\n') rest := by
      rw [hcs, Text.splitWhere_append (by decide), splitWhere_newline hfirst]
      rfl
    obtain ⟨xs, t, u, ys, hspans, hleft, hright⟩ :=
      (cut_spans quotedAt?_faithful cs).part quotedAt?_faithful quotedAt?_alone hcs h
    have hright := (spans_eq_iff quotedAt?_faithful).mpr hright
    have hleft := (spans_eq_iff quotedAt?_faithful).mpr hleft
    have hrest := piecesOf_lines rest fun s hs hlit => by
      rw [hright] at hs
      rcases List.mem_cons.mp hs with rfl | hs
      · exact absurd hlit Bool.false_ne_true
      · refine h s ?_ hlit
        rw [hspans]
        exact List.mem_append_right _ (List.mem_cons_of_mem _ hs)
    have hnewline : Text.isBlank '\n' = true := by decide
    have hseam := plainPieces_append_blank hnewline t u
    rw [hsplit, List.flatMap_cons, ← hrest, piecesOf, piecesOf, piecesOf, hspans, hleft, hright]
    simp only [List.flatMap_append, List.flatMap_cons, List.flatMap_nil, Bool.false_eq_true,
      if_false, List.append_nil, List.append_assoc, hseam]
  · rw [splitWhere_newline hline, List.flatMap_singleton]
  termination_by cs.length
  decreasing_by
    rw [hcs, List.length_append, List.length_cons]
    omega

theorem pieces_lines {phrase : String} (h : LiteralsOnLines phrase) :
    pieces phrase = (Text.lines phrase).flatMap pieces := by
  rw [pieces, piecesOf_lines _ h, Text.lines, List.flatMap_map]
  simp only [pieces, String.toList_ofList]

/-! ## Tokens line by line -/

/-- The tokens of the lines of a text, one line after the other. -/
def lineTokens (text : String) : List Token :=
  (Text.lines text).flatMap fun line => Token.ofText (canonical line)

/-- Lines of which nothing is left have no tokens. -/
theorem flatMap_numberedFrom : ∀ (texts : List String) (n : Nat),
    ((numberedFrom n texts).flatMap fun line => Token.ofText line.text)
      = texts.flatMap fun line => Token.ofText (canonical line)
  | [], _ => rfl
  | text :: texts, n => by
    rw [numberedFrom, List.flatMap_cons]
    split
    next hempty =>
      rw [hempty, flatMap_numberedFrom texts (n + 1)]
      rfl
    next => rw [List.flatMap_cons, flatMap_numberedFrom texts (n + 1)]

/-- A text on one line has the tokens of that line. -/
private theorem lineTokens_of_oneLine {text : String} (h : OneLine text) :
    lineTokens text = Token.ofText (canonical text) := by
  rw [lineTokens, Text.lines, splitWhere_newline h, List.map_singleton, List.flatMap_singleton,
    String.ofList_toList]

/-- Where literals stay on their lines, the tokens of the lines are those of the phrase. -/
private theorem lineTokens_of_literalsOnLines {text : String} (hread : Requotable text)
    (h : LiteralsOnLines text) : lineTokens text = Token.ofText (canonical text) := by
  have hpieces := pieces_lines h
  have hreadable := (requotable_iff text).mp hread
  have hline : ∀ line ∈ Text.lines text,
      Token.ofText (canonical line) = (pieces line).map Piece.token := by
    intro line hline
    refine ofText_of_readable fun p hp => hreadable p ?_
    rw [hpieces]
    exact List.mem_flatMap.mpr ⟨line, hline, hp⟩
  calc lineTokens text = (Text.lines text).flatMap fun line => (pieces line).map Piece.token :=
        List.flatMap_congr hline
    _ = (pieces text).map Piece.token := by rw [hpieces, List.map_flatMap]
    _ = Token.ofText (canonical text) := (ofText_of_readable hreadable).symm

/-- Guarding double quotes leaves nothing out. -/
theorem subset_guardFrom : ∀ (cs : List Char) (guarded : Bool), cs ⊆ guardFrom guarded cs
  | [], _ => List.nil_subset _
  | c :: cs, guarded => by
    intro d hd
    rw [guardFrom, List.mem_append]
    rcases List.mem_cons.mp hd with rfl | hd
    · left
      split
      next hquote =>
        rw [hquote.1]
        decide
      next => exact List.mem_singleton.mpr rfl
    · exact Or.inr (subset_guardFrom cs _ hd)

/-- No line has a token with a newline in it. -/
private theorem oneLine_of_mem_lineTokens {text : String} {t : Token} (h : t ∈ lineTokens text) :
    OneLine t.value := by
  obtain ⟨line, hline, ht⟩ := List.mem_flatMap.mp h
  exact Token.oneLine_of_mem_ofText (oneLine_canonical (Text.oneLine_of_mem_lines hline)) ht

/-- A literal that goes over the end of a line is a token with a newline in it. -/
private theorem exists_token_of_literal {text : String} (hread : Requotable text) {s : Span}
    (hs : s ∈ spans quotedAt? text.toList) (hlit : s.literal = true) (hmem : '\n' ∈ s.text) :
    ∃ t ∈ Token.ofText (canonical text), ¬ OneLine t.value := by
  obtain ⟨quote, contents, hquote, _, htext, hinner⟩ := literal_of_mem_spans hs hlit
  have hpiece : Piece.quoted (String.ofList contents) ∈ pieces text := by
    refine List.mem_flatMap.mpr ⟨s, hs, ?_⟩
    rw [if_pos hlit, hinner]
    exact List.mem_singleton.mpr rfl
  have hcontents : '\n' ∈ contents := by
    have hne : '\n' ≠ quote := by
      rintro rfl
      exact absurd hquote (by decide)
    rw [htext, List.cons_append, List.mem_cons, List.mem_append, List.mem_singleton] at hmem
    rcases hmem with hq | hmem | hq
    · exact absurd hq hne
    · exact hmem
    · exact absurd hq hne
  rw [ofText_of_readable ((requotable_iff text).mp hread)]
  refine ⟨_, List.mem_map.mpr ⟨_, hpiece, rfl⟩, ?_⟩
  rw [Piece.token, Text.oneLine_ofList, String.toList_ofList, not_not]
  exact subset_guardFrom contents false hcontents

end Phrase

/-! ## Reported tokens -/

namespace Service

open PlainCode.Convert (LineStages Outcome)

/-- The class and the value of a token in an answer. -/
abbrev ShownToken := Option Json × Option Json

/-- A token as an answer shows it. -/
def shown (t : Token) : ShownToken := (some (.str t.kind.name), some (.str t.value))

/-- The tokens that an answer reports, one line after the other. -/
def reportedTokens (body : Json) : List ShownToken :=
  (itemsOf "tokens" body).flatMap fun line =>
    (itemsOf "tokens" line).map fun t => (t.field? "type", t.field? "value")

theorem map_tokenItems : ∀ (ts : List Token) (n : Nat),
    ((tokenItems n ts).map fun t => (t.field? "type", t.field? "value")) = ts.map shown
  | [], _ => rfl
  | t :: ts, n => by
    rw [tokenItems, List.map_cons, List.map_cons, map_tokenItems ts (n + 1)]
    rfl

/-- What an answer reports are the tokens of the lines. -/
private theorem reportedTokens_of_field {body : Json} {text : String}
    (h : body.field? "tokens" = some (.arr ((lineReports text).map LineReport.toJson))) :
    reportedTokens body = (Phrase.lineTokens text).map shown := by
  have hitems : itemsOf "tokens" body = (lineReports text).map LineReport.toJson := by
    rw [itemsOf, h]
  rw [reportedTokens, hitems, lineReports, List.map_map, List.flatMap_map, Phrase.lineTokens,
    ← Phrase.flatMap_numberedFrom _ 1, List.map_flatMap]
  exact List.flatMap_congr fun line _ => map_tokenItems (Token.ofText line.text) 0

/-- The values of tokens can be read off an answer. -/
private theorem value_of_shown {t u : Token} (h : shown t = shown u) : t.value = u.value :=
  Json.str.inj (Option.some.inj (Prod.mk.inj h).2)

private theorem tokens_run (target : Target) (text : String) :
    (LineStages.run target (.str text)).tokens = Token.ofText (Phrase.canonical text) := by
  simp only [LineStages.run, Phrase.ofJson]

/-- A request for one phrase with debugging that is answered: the stages of its conversion, and the
tokens that the answer reports. -/
theorem exists_stages {fields : List (String × Json)}
    (hmode : (Json.obj fields).field? "mode" = some (.str "line"))
    (hdebug : ((Json.obj fields).fieldD "debug" (.bool false)).isGiven = true)
    (hstatus : (respondTo "POST" "/api/translate" (.obj fields)).status = 200) :
    ∃ text target o added, (Json.obj fields).fieldD "text" (.str "") = .str text ∧
      (LineStages.run target (.str text)).outcome = .ok o ∧
      (respondTo "POST" "/api/translate" (.obj fields)).json
        = some (.obj (Convert.lineFields o ++ added)) ∧
      reportedTokens (.obj (Convert.lineFields o ++ added))
        = (Phrase.lineTokens text).map shown := by
  obtain ⟨order, outcome, trace, hfrom, hconvert, hr⟩ := exists_order hstatus
  have hon : order.debug = true := hfrom.debug.trans hdebug
  have hline : order.mode = .line := by
    have hname := hfrom.mode
    rw [Json.fieldD, hmode, Option.getD_some] at hname
    exact (Option.some.inj (mode_ofJson?_eq_some_iff.mpr hname)).symm
  rw [hline, Convert.convert_line, Convert.line_eq_stages (Target.ofJson?_name order.target)]
    at hconvert
  rw [hon, if_pos rfl] at hr
  cases ho : (LineStages.run order.target (.str order.text)).outcome with
  | error e => rw [ho] at hconvert; cases hconvert
  | ok o =>
    rw [ho] at hconvert
    cases hconvert
    have hjson := congrArg Response.json hr
    rw [answerFields, Outcome.fields, List.append_assoc] at hjson
    refine ⟨order.text, order.target, o, _, hfrom.text, ho, hjson, reportedTokens_of_field ?_⟩
    cases o with
    | error e => rfl
    | ok r => rfl

/-- **The tokens that an answer reports for a phrase.** A request that asks for one phrase and for
debugging, and is answered, is answered with what the stages of the conversion of its text come to,
and reports the tokens of its lines. For a text on one line these are the tokens that the
phrase was read from. For a text without loose quotes they are so exactly if no quoted literal of it
goes over the end of a line. -/
theorem reported_tokens_iff (fields : List (String × Json))
    (hmode : (Json.obj fields).field? "mode" = some (.str "line"))
    (hdebug : ((Json.obj fields).fieldD "debug" (.bool false)).isGiven = true)
    (hstatus : (respondTo "POST" "/api/translate" (.obj fields)).status = 200) :
    ∃ text target o added, (Json.obj fields).fieldD "text" (.str "") = .str text ∧
      let stages := LineStages.run target (.str text)
      let body := Json.obj (Convert.lineFields o ++ added)
      stages.outcome = .ok o ∧ stages.tokens = Token.ofText (Phrase.canonical text) ∧
      (respondTo "POST" "/api/translate" (.obj fields)).json = some body ∧
      (OneLine text → reportedTokens body = stages.tokens.map shown) ∧
      (Phrase.Requotable text →
        (reportedTokens body = stages.tokens.map shown ↔ Phrase.LiteralsOnLines text)) := by
  obtain ⟨text, target, o, added, htext, ho, hbody, hreported⟩ := exists_stages hmode hdebug hstatus
  have htokens := tokens_run target text
  refine ⟨text, target, o, added, htext, ho, htokens, hbody, fun hline => ?_,
    fun hread => ⟨fun hsame => ?_, fun h => ?_⟩⟩
  · rw [hreported, Phrase.lineTokens_of_oneLine hline, htokens]
  · intro s hs hlit hmem
    obtain ⟨t, ht, hnewline⟩ := Phrase.exists_token_of_literal hread hs hlit hmem
    -- the token would have to be one of a line
    rw [hreported, htokens] at hsame
    have hshown : shown t ∈ (Phrase.lineTokens text).map shown := by
      rw [hsame]
      exact List.mem_map_of_mem ht
    obtain ⟨u, hu, hut⟩ := List.mem_map.mp hshown
    rw [← value_of_shown hut] at hnewline
    exact hnewline (Phrase.oneLine_of_mem_lineTokens hu)
  · rw [hreported, Phrase.lineTokens_of_literalsOnLines hread h, htokens]

/-- A text of four lines with a quoted literal, a line that says nothing, and a quote that is open
at the end of a line. -/
theorem reported_tokens_iff_lines :
    let fields : List (String × Json) := [("text", .str "say 'it\\'s \"5\"'\nthe\nplus \" 2.5\n x"),
      ("mode", .str "line"), ("debug", .int 1)]
    (respondTo "POST" "/api/translate" (.obj fields)).status = 200 ∧
    ∃ body, (respondTo "POST" "/api/translate" (.obj fields)).json = some body ∧
      reportedTokens body = List.map shown [⟨.keyword, "print"⟩,
        ⟨.string, "it\\'s \\\"5\\\""⟩, ⟨.keyword, "add"⟩, ⟨.number, "2.5"⟩,
        ⟨.identifier, "x"⟩] := by
  intro fields
  have hread : Order.read (.obj fields)
      = .ok ⟨"say 'it\\'s \"5\"'\nthe\nplus \" 2.5\n x", .line, .python, true⟩ := by decide +kernel
  have hstatus := status_of_read hread
  obtain ⟨text, target, o, added, htext, _, htokens, hbody, _, hiff⟩ :=
    reported_tokens_iff fields rfl rfl hstatus
  cases htext
  refine ⟨hstatus, _, hbody, ((hiff (by decide +kernel)).mpr (by decide +kernel)).trans ?_⟩
  rw [htokens]
  exact congrArg (List.map shown) (by decide +kernel)

/-- A literal that goes over the end of a line is read as one string, and reported as a word on each
of the two lines. -/
theorem reported_tokens_differ :
    let fields : List (String × Json) :=
      [("text", .str "say \"x\ny\""), ("mode", .str "line"), ("debug", .bool true)]
    (respondTo "POST" "/api/translate" (.obj fields)).status = 200 ∧
    ∃ body, (respondTo "POST" "/api/translate" (.obj fields)).json = some body ∧
      reportedTokens body
        = List.map shown [⟨.keyword, "print"⟩, ⟨.identifier, "x"⟩, ⟨.identifier, "y"⟩] ∧
      Token.ofText (Phrase.canonical "say \"x\ny\"") = [⟨.keyword, "print"⟩, ⟨.string, "x\ny"⟩] ∧
      reportedTokens body ≠ (Token.ofText (Phrase.canonical "say \"x\ny\"")).map shown := by
  intro fields
  have hread : Order.read (.obj fields) = .ok ⟨"say \"x\ny\"", .line, .python, true⟩ := by
    decide +kernel
  have hstatus := status_of_read hread
  obtain ⟨text, target, o, added, htext, _, hbody, hreported⟩ := exists_stages rfl rfl hstatus
  cases htext
  have hlines : Phrase.lineTokens "say \"x\ny\""
      = [⟨.keyword, "print"⟩, ⟨.identifier, "x"⟩, ⟨.identifier, "y"⟩] := by decide +kernel
  have hphrase : Token.ofText (Phrase.canonical "say \"x\ny\"")
      = [⟨.keyword, "print"⟩, ⟨.string, "x\ny"⟩] := by decide +kernel
  rw [hlines] at hreported
  refine ⟨hstatus, _, hbody, hreported, hphrase, fun hsame => ?_⟩
  rw [hreported, hphrase] at hsame
  exact absurd (congrArg List.length hsame) (by decide)

end Service

end PlainCode
