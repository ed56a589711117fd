import PlainCode.Proofs.Hoisting
import PlainCode.Proofs.Pruning

/-!
# Comments that stay comments

The code of a comment is the comment mark of the language and the text of the comment behind it. A
mark reaches no further than its line, so the code is a comment on every line exactly if the text
has a mark of its own behind each of its newlines (`MarkedLines`).

The text comes from a phrase through several hands: quoting anew puts backslashes into it, and
tokens are joined by spaces. A mark has none of these characters, so whether newlines are marked can
be told from each quoted literal of the phrase by itself. The main statement is
`remark_lines_iff`. A comment is nothing but that as long as no literal goes over the end of a line,
and otherwise part of it can become code (`remark_line_unmarked`).
-/

namespace PlainCode

open PlainCode.Text (OneLine oneLine_append oneLine_intercalate oneLine_ofList)

/-! ## Marks behind newlines -/

namespace Text

/-- A text with a mark behind each of its newlines. -/
def MarkedLines (mark cs : List Char) : Prop :=
  ∀ front back, cs = front ++ '\n' :: back → mark <+: back

theorem markedLines_nil (mark : List Char) : MarkedLines mark [] :=
  fun front _ h => absurd h.symm (List.append_ne_nil_of_right_ne_nil front (List.cons_ne_nil _ _))

theorem markedLines_cons {mark : List Char} {c : Char} {cs : List Char} :
    MarkedLines mark (c :: cs) ↔ (c = '\n' → mark <+: cs) ∧ MarkedLines mark cs := by
  constructor
  · refine fun h => ⟨?_, fun front back hcs => h (c :: front) back (congrArg (c :: ·) hcs)⟩
    rintro rfl
    exact h [] cs rfl
  · rintro ⟨hfirst, hrest⟩ front back hcs
    cases front with
    | nil =>
      obtain ⟨rfl, rfl⟩ := List.cons.inj hcs
      exact hfirst rfl
    | cons d front =>
      obtain ⟨_, rfl⟩ := List.cons.inj hcs
      exact hrest front back rfl

instance decidableMarkedLines (mark : List Char) : ∀ cs, Decidable (MarkedLines mark cs)
  | [] => isTrue (markedLines_nil mark)
  | _ :: cs =>
    have := decidableMarkedLines mark cs
    decidable_of_iff' _ markedLines_cons

theorem markedLines_of_not_mem (mark : List Char) {cs : List Char} (h : '\n' ∉ cs) :
    MarkedLines mark cs := by
  rintro front back rfl
  exact absurd (List.mem_append_right front (List.mem_cons_self ..)) h

/-- A character that a mark does not have ends what the mark is looked for in. -/
theorem prefix_append_cons_iff {x : Char} {more : List Char} : ∀ {mark cs : List Char}, x ∉ mark →
    (mark <+: cs ++ x :: more ↔ mark <+: cs)
  | [], _, _ => iff_of_true List.nil_prefix List.nil_prefix
  | m :: mark, [], h => by
    rw [List.nil_append, List.cons_prefix_cons, List.prefix_nil]
    exact iff_of_false (fun hm => h (hm.1 ▸ List.mem_cons_self ..)) (List.cons_ne_nil _ _)
  | m :: mark, c :: cs, h => by
    rw [List.cons_append, List.cons_prefix_cons, List.cons_prefix_cons,
      prefix_append_cons_iff fun hx => h (List.mem_cons_of_mem _ hx)]

/-- Newlines are marked in two texts with such a character between them as they are in each. -/
theorem markedLines_append_cons {mark : List Char} {x : Char} (hx : x ∉ mark)
    {more : List Char} : ∀ {cs : List Char},
      MarkedLines mark (cs ++ x :: more) ↔ MarkedLines mark cs ∧ MarkedLines mark (x :: more)
  | [] => (and_iff_right (markedLines_nil mark)).symm
  | c :: cs => by
    rw [List.cons_append, markedLines_cons, markedLines_cons, prefix_append_cons_iff hx,
      markedLines_append_cons hx, and_assoc]

/-- All lines of a text begin with a mark if the text does and its newlines are marked. -/
theorem forall_splitWhere_iff {mark : List Char} (hmark : '\n' ∉ mark) (cs : List Char) :
    (∀ line ∈ splitWhere (· == '\n') cs, mark <+: line) ↔ mark <+: cs ∧ MarkedLines mark cs := by
  have hplain : ∀ {ds : List Char}, '\n' ∉ ds → splitWhere (· == '\n') ds = [ds] := fun hds =>
    splitWhere_of_none fun c hc => beq_eq_false_iff_ne.mpr fun h => hds (h ▸ hc)
  by_cases hcs : '\n' ∈ cs
  · obtain ⟨first, more, heq, hfirst⟩ := List.eq_append_cons_of_mem hcs
    have hsplit : splitWhere (· == '\n') cs = first :: splitWhere (· == '\n') more := by
      rw [heq, splitWhere_append (by decide), hplain hfirst]
      rfl
    rw [hsplit, List.forall_mem_cons, forall_splitWhere_iff hmark more, heq,
      prefix_append_cons_iff hmark, markedLines_append_cons hmark, markedLines_cons,
      and_iff_right (markedLines_of_not_mem mark hfirst), forall_prop_of_true rfl]
  · rw [hplain hcs, List.forall_mem_singleton, and_iff_left (markedLines_of_not_mem mark hcs)]
  termination_by cs.length
  decreasing_by
    rw [heq, List.length_append, List.length_cons]
    omega

/-- Texts joined by spaces have marked newlines if each of them has, as no mark has a space. -/
theorem markedLines_joined {mark : List Char} (hmark : ' ' ∉ mark) : ∀ texts : List String,
    MarkedLines mark (" ".intercalate texts).toList ↔ ∀ text ∈ texts, MarkedLines mark text.toList
  | [] => iff_of_true (markedLines_nil mark) nofun
  | [text] => by rw [String.intercalate_singleton, List.forall_mem_singleton]
  | text :: next :: texts => by
    have hjoined : (" ".intercalate (text :: next :: texts)).toList
        = text.toList ++ ' ' :: (" ".intercalate (next :: texts)).toList := by
      rw [String.intercalate_cons_cons, String.toList_append, String.toList_append,
        List.append_assoc]
      rfl
    rw [hjoined, markedLines_append_cons hmark, markedLines_cons,
      and_iff_right fun h => absurd h (by decide), markedLines_joined hmark (next :: texts)]
    exact (List.forall_mem_cons (p := fun text : String => MarkedLines mark text.toList)).symm

end Text

open PlainCode.Text (MarkedLines markedLines_of_not_mem)

/-! ## Marks in literals -/

namespace Phrase

open PlainCode.Literal

/-- A mark is found in guarded contents as in the contents, since it has none of the characters that
guarding is about. -/
theorem prefix_guardFrom_iff : ∀ {mark : List Char}, '"' ∉ mark → '\\' ∉ mark →
    ∀ (cs : List Char) (guarded : Bool), mark <+: guardFrom guarded cs ↔ mark <+: cs
  | [], _, _, _, _ => iff_of_true List.nil_prefix List.nil_prefix
  | m :: mark, hquote, hslash, [], guarded => Iff.rfl
  | m :: mark, hquote, hslash, c :: cs, guarded => by
    rw [guardFrom]
    split
    next hc =>
      rw [hc.1, List.cons_append, List.cons_prefix_cons, List.cons_prefix_cons]
      exact iff_of_false (fun h => hslash (h.1 ▸ List.mem_cons_self ..))
        (fun h => hquote (h.1 ▸ List.mem_cons_self ..))
    next =>
      rw [List.singleton_append, List.cons_prefix_cons, List.cons_prefix_cons,
        prefix_guardFrom_iff (fun h => hquote (List.mem_cons_of_mem _ h))
          (fun h => hslash (List.mem_cons_of_mem _ h))]

/-- Guarding leaves newlines as they were marked. -/
theorem markedLines_guardFrom {mark : List Char} (hquote : '"' ∉ mark) (hslash : '\\' ∉ mark) :
    ∀ (cs : List Char) (guarded : Bool),
      MarkedLines mark (guardFrom guarded cs) ↔ MarkedLines mark cs
  | [], _ => Iff.rfl
  | c :: cs, guarded => by
    rw [guardFrom]
    split
    next hc =>
      rw [hc.1, List.cons_append, List.singleton_append, Text.markedLines_cons,
        Text.markedLines_cons, Text.markedLines_cons, markedLines_guardFrom hquote hslash cs]
      -- neither of the two characters is a newline
      have hslashLine : '\\' ≠ '\n' := by decide
      have hquoteLine : '"' ≠ '\n' := by decide
      simp only [hslashLine, hquoteLine, false_implies, true_and]
    next =>
      rw [List.singleton_append, Text.markedLines_cons, Text.markedLines_cons,
        markedLines_guardFrom hquote hslash cs, prefix_guardFrom_iff hquote hslash]

/-- In a phrase without loose quotes, only quoted literals have newlines that could be marked. -/
private theorem markedLines_tokens_iff {mark : List Char} (hquote : '"' ∉ mark)
    (hslash : '\\' ∉ mark) {phrase : String} (hread : Requotable phrase) :
    (∀ t ∈ Token.ofText (canonical phrase), MarkedLines mark t.value.toList) ↔
      ∀ contents, .quoted contents ∈ pieces phrase → MarkedLines mark contents.toList := by
  rw [ofText_of_readable ((requotable_iff phrase).mp hread), List.forall_mem_map]
  constructor
  · intro h contents hp
    have hvalue := h _ hp
    rw [Piece.token, String.toList_ofList] at hvalue
    exact (markedLines_guardFrom hquote hslash _ false).mp hvalue
  · intro h p hp
    have hplain : (∀ contents, p ≠ .quoted contents) → MarkedLines mark p.text.toList := by
      intro hne
      exact markedLines_of_not_mem mark (oneLine_pieceText (wellFormed_of_mem_piecesOf hp)
        fun contents heq => absurd heq (hne contents))
    cases p with
    | quoted contents =>
      rw [Piece.token, String.toList_ofList]
      exact (markedLines_guardFrom hquote hslash _ false).mpr (h contents hp)
    | numeral text | word text =>
      refine hplain fun contents heq => ?_
      cases heq

end Phrase

/-! ## Comments that were read -/

/-- A comment is read from the word for it, and all tokens behind that are its text. -/
private theorem remark_of_parse {ts : List Token} {p : Parsed} {text : Leaf}
    (h : parse grammar ts = .ok p) (hp : p.command = .remark text) :
    ∃ rest, ts = ⟨.keyword, "comment"⟩ :: rest ∧ text = some (Rule.remarkText rest) := by
  have hrule : p.rule = .remark := by
    have hform := rule?_of_parse (fun _ hr => hr) h
    rw [hp] at hform
    exact (Option.some.inj hform).symm
  refine parse_rec (motive := fun ts p => p.rule = .remark → p.command = .remark text →
    ∃ rest, ts = ⟨.keyword, "comment"⟩ :: rest ∧ text = some (Rule.remarkText rest)) ?_ h hrule hp
  intro ts rule m _ hread _ hremark hcommand
  cases hremark
  cases hread with
  | remark t ts => exact ⟨t :: ts, rfl, (Command.remark.inj hcommand).symm⟩

namespace Code

/-- Code that is a comment on every line. -/
def AllComment (t : Target) (code : String) : Prop :=
  ∀ line ∈ Text.lines code, t.commentMark.toList <+: line.toList

instance (t : Target) : DecidablePred (AllComment t) := fun code =>
  inferInstanceAs (Decidable (∀ line ∈ Text.lines code, _))

/-- A comment mark has none of the characters that texts are changed at. -/
theorem not_mem_commentMark (t : Target) :
    ∀ c ∈ ['\n', ' ', '"', '\\'], c ∉ t.commentMark.toList := by
  have hnone : (['\n', ' ', '"', '\\'].any fun c => t.commentMark.toList.contains c) = false := by
    cases t <;> decide
  intro c hc hmem
  exact List.any_eq_false.mp hnone c hc (List.contains_iff_mem.mpr hmem)

/-- A comment is one on every line exactly if the newlines of its text are marked. -/
private theorem allComment_comment_iff (t : Target) (text : String) :
    AllComment t (comment t text) ↔ MarkedLines t.commentMark.toList text.toList := by
  have hmark := not_mem_commentMark t
  have hcode : (comment t text).toList = t.commentMark.toList ++ ' ' :: text.toList := by
    rw [comment, String.toList_append, String.toList_append, List.append_assoc]
    rfl
  rw [AllComment, Text.lines, List.forall_mem_map]
  simp only [String.toList_ofList]
  rw [Text.forall_splitWhere_iff (hmark _ (by decide)), hcode,
    and_iff_right (List.prefix_append _ _), Text.markedLines_append_cons (hmark _ (by decide)),
    and_iff_right (markedLines_of_not_mem _ (hmark _ (by decide))), Text.markedLines_cons,
    and_iff_right fun h => absurd h (by decide)]

end Code

namespace Convert

open PlainCode.Code (AllComment)
open PlainCode.Phrase (Requotable canonical pieces)

/-- What a line that is converted was read as. -/
private theorem exists_parsed {raw : String} {language : Json} {r : LineResult}
    (h : line (.str raw) language = .ok (.ok r)) :
    ∃ target p, Target.ofJson? language = some target ∧
      parse grammar (Token.ofText (canonical raw)) = .ok p ∧ r.command = p.command ∧
      r.code = Code.render (Code.linesOf target p.command) := by
  cases htarget : Target.ofJson? language with
  | none =>
    rw [line_of_no_target htarget] at h
    cases h
  | some target =>
    rw [line_eq htarget, outcomeOf] at h
    split at h
    next => cases h
    next =>
      split at h
      next => cases h
      next p hp =>
        cases h
        exact ⟨target, p, rfl, hp, rfl, rfl⟩

/-- The word for a comment makes a comment of whatever follows it. -/
theorem line_of_remark {raw : String} {language : Json} {target : Target}
    (htarget : Target.ofJson? language = some target) {t : Token} {ts : List Token}
    (htokens : Token.ofText (canonical raw) = ⟨.keyword, "comment"⟩ :: t :: ts) :
    line (.str raw) language = .ok (.ok ⟨Code.comment target (Rule.remarkText (t :: ts)),
      .remark (some (Rule.remarkText (t :: ts))), []⟩) := by
  have hne : canonical raw ≠ "" := by
    intro hempty
    rw [hempty] at htokens
    cases htokens
  have hparse : parse grammar (Token.ofText (canonical raw))
      = .ok ⟨.remark, .remark (some (Rule.remarkText (t :: ts))), []⟩ := by
    rw [htokens]
    exact parse_of_reads (by decide) (.remark t ts)
  rw [line_eq htarget, outcomeOf, if_neg hne, hparse, ← Code.render_ofText (Code.comment _ _)]
  rfl

/-- **Where a comment stays a comment.** The code of a phrase that is a comment begins with the
comment mark on every line exactly if each newline in its tokens has the mark behind it. Without
loose quotes these are the newlines in the quoted literals of the phrase. So the code is a comment
as a whole if no quoted literal goes over the end of a line, whatever else is in the phrase. -/
theorem remark_lines_iff (raw : String) (language : Json) {r : LineResult} {text : Leaf}
    (h : line (.str raw) language = .ok (.ok r)) (hremark : r.command = .remark text) :
    ∃ target : Target, Target.ofJson? language = some target ∧
      (AllComment target r.code ↔ ∀ t ∈ Token.ofText (canonical raw),
        MarkedLines target.commentMark.toList t.value.toList) ∧
      (Requotable raw → (AllComment target r.code ↔ ∀ contents, .quoted contents ∈ pieces raw →
        MarkedLines target.commentMark.toList contents.toList)) ∧
      ((∀ contents, .quoted contents ∈ pieces raw → OneLine contents) →
        AllComment target r.code) := by
  obtain ⟨target, p, htarget, hparse, hcommand, hcode⟩ := exists_parsed h
  obtain ⟨rest, htokens, rfl⟩ := remark_of_parse hparse (hcommand.symm.trans hremark)
  have hmark := Code.not_mem_commentMark target
  have hall : AllComment target r.code ↔ ∀ t ∈ Token.ofText (canonical raw),
      MarkedLines target.commentMark.toList t.value.toList := by
    have hwritten : r.code = Code.comment target (Rule.remarkText rest) := by
      rw [hcode, ← hcommand, hremark]
      exact Code.render_ofText _
    rw [hwritten, Code.allComment_comment_iff, Rule.remarkText,
      Text.markedLines_joined (hmark _ (by decide)), List.forall_mem_map, htokens,
      List.forall_mem_cons, and_iff_right (markedLines_of_not_mem _ (by decide))]
  refine ⟨target, htarget, hall, fun hread => ?_, fun hquoted => hall.mpr fun t ht => ?_⟩
  · rw [hall, Phrase.markedLines_tokens_iff (hmark _ (by decide)) (hmark _ (by decide)) hread]
  · exact markedLines_of_not_mem _
      (Token.oneLine_of_mem_ofText (Phrase.oneLine_canonical_of_quoted hquoted) ht)

/-- A literal over two lines, the second of which begins as a comment. -/
theorem remark_lines_iff_marked :
    let raw := "Note 'a\n# b' and \"c\""
    let r : LineResult := ⟨"# a\n# b and c", .remark (some "a\n# b and c"), []⟩
    line (.str raw) (.str "py") = .ok (.ok r) ∧ AllComment .python r.code := by
  intro raw r
  have hpython : Target.ofJson? (.str "py") = some .python := by decide +kernel
  have htokens : Token.ofText (canonical raw)
      = [⟨.keyword, "comment"⟩, ⟨.string, "a\n# b"⟩, ⟨.keyword, "and"⟩, ⟨.string, "c"⟩] := by
    decide +kernel
  have hline : line (.str raw) (.str "py") = .ok (.ok r) := line_of_remark hpython htokens
  obtain ⟨target, htarget, hall, _⟩ := remark_lines_iff raw (.str "py") hline rfl
  obtain rfl := Option.some.inj (hpython.symm.trans htarget)
  exact ⟨hline, hall.mpr (by decide +kernel)⟩

/-- A literal goes on over the end of a line, and what is there becomes code. -/
theorem remark_line_unmarked :
    line (.str "comment \"a\nb\"") (.str "python")
      = .ok (.ok ⟨"# a\nb", .remark (some "a\nb"), []⟩) ∧ ¬ AllComment .python "# a\nb" := by
  have hpython : Target.ofJson? (.str "python") = some .python := by decide +kernel
  have htokens : Token.ofText (canonical "comment \"a\nb\"")
      = [⟨.keyword, "comment"⟩, ⟨.string, "a\nb"⟩] := by decide +kernel
  exact ⟨line_of_remark hpython htokens, by decide +kernel⟩

end Convert

end PlainCode
