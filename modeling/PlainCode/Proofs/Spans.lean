import PlainCode.Literal.Span

/-!
# How a text is cut into stretches

`spans` keeps a counter of characters to pass over, which no statement about the stretches is
interested in. `Cut` says the same thing without it: a text is cut character by character and
literal by literal, each literal found where the ones before it end. The two agree for every
recogniser that finds nothing but what a text begins with (`spans_eq_iff`).

Two results are about a text that is parted in two. Where a recogniser does not look across a
character, the stretches of two texts with that character between them are the stretches of the two,
and only the plain text at the seam grows together (`Cut.append_break`). And where a recogniser
knows a literal by itself, a text may be parted at any character that is in none of its literals
(`Cut.part`).
-/

namespace PlainCode.Literal

/-- A recogniser that finds a literal only at the beginning of a text, and never an empty one. -/
def Recogniser.Faithful (literal? : Recogniser) : Prop :=
  ∀ ⦃before : Option Char⦄ ⦃cs text : List Char⦄, literal? before cs = some text →
    text ≠ [] ∧ ∃ rest, cs = text ++ rest

/-- A text behind a character, and the stretches it is cut into. -/
inductive Cut (literal? : Recogniser) : Option Char → List Char → List Span → Prop where
  | nil {before : Option Char} : Cut literal? before [] [⟨false, []⟩]
  | literal {before : Option Char} {text rest : List Char} {ss : List Span} (hne : text ≠ [])
      (hfind : literal? before (text ++ rest) = some text)
      (hrest : Cut literal? text.getLast? rest ss) :
      Cut literal? before (text ++ rest) (⟨false, []⟩ :: ⟨true, text⟩ :: ss)
  | plain {before : Option Char} {c : Char} {cs text : List Char} {ss : List Span}
      (hmiss : literal? before (c :: cs) = none)
      (hrest : Cut literal? (some c) cs (⟨false, text⟩ :: ss)) :
      Cut literal? before (c :: cs) (⟨false, c :: text⟩ :: ss)

variable {literal? : Recogniser}

/-! ## The two definitions agree -/

/-- Characters to pass over are passed over. -/
theorem spansFrom_skip (rest : List Char) : ∀ (text : List Char) (before : Option Char),
    spansFrom literal? text.length before (text ++ rest)
      = spansFrom literal? 0 (text.getLast?.or before) rest
  | [], _ => rfl
  | c :: text, before => by
    rw [List.cons_append, List.length_cons]
    cases htext : text ++ rest with
    | nil =>
      rw [List.append_eq_nil_iff] at htext
      obtain ⟨rfl, rfl⟩ := htext
      rfl
    | cons d ds =>
      rw [← htext]
      show spansFrom literal? text.length (some c) (text ++ rest) = _
      rw [spansFrom_skip rest text (some c), List.getLast?_cons]
      cases text.getLast? with
      | none => rfl
      | some e => rfl

theorem spansFrom_of_some {before : Option Char} {text rest : List Char} (hne : text ≠ [])
    (h : literal? before (text ++ rest) = some text) :
    spansFrom literal? 0 before (text ++ rest)
      = ⟨false, []⟩ :: ⟨true, text⟩ :: spansFrom literal? 0 text.getLast? rest := by
  cases text with
  | nil => exact absurd rfl hne
  | cons c text =>
    rw [List.cons_append] at h ⊢
    rw [spansFrom, h]
    show _ :: _ :: spansFrom literal? text.length (some c) (text ++ rest) = _
    rw [spansFrom_skip rest text (some c), List.getLast?_cons]
    cases text.getLast? with
    | none => rfl
    | some e => rfl

theorem spansFrom_of_none {before : Option Char} {c : Char} {cs : List Char}
    (h : literal? before (c :: cs) = none) :
    spansFrom literal? 0 before (c :: cs) = extendPlain c (spansFrom literal? 0 (some c) cs) := by
  rw [spansFrom, h]

/-- A text begins with plain text, which may be empty. -/
theorem Cut.begins {before : Option Char} {cs : List Char} {ss : List Span}
    (h : Cut literal? before cs ss) : ∃ text rest, ss = ⟨false, text⟩ :: rest := by
  cases h with
  | nil => exact ⟨[], [], rfl⟩
  | literal => exact ⟨[], _, rfl⟩
  | plain => exact ⟨_, _, rfl⟩

/-- The stretches of a text are a way to cut it. -/
private theorem cut_spansFrom (hl : literal?.Faithful) (before : Option Char) (cs : List Char) :
    Cut literal? before cs (spansFrom literal? 0 before cs) := by
  -- by the length of the text: behind a literal it goes on with a rest that is shorter
  induction hn : cs.length using Nat.strongRecOn generalizing before cs with
  | ind n ih =>
    cases cs with
    | nil => rw [spansFrom]; exact .nil
    | cons c cs =>
      cases hfind : literal? before (c :: cs) with
      | none =>
        have hrest := ih cs.length (by rw [← hn, List.length_cons]; omega) (some c) cs rfl
        obtain ⟨text, ss, hss⟩ := hrest.begins
        rw [spansFrom_of_none hfind, hss]
        rw [hss] at hrest
        exact .plain hfind hrest
      | some text =>
        obtain ⟨hne, rest, hcs⟩ := hl hfind
        rw [hcs] at hfind hn ⊢
        have hpos : 0 < text.length := List.length_pos_iff.mpr hne
        rw [spansFrom_of_some hne hfind]
        exact .literal hne hfind
          (ih rest.length (by rw [← hn, List.length_append]; omega) text.getLast? rest rfl)

/-- There is only one way to cut a text. -/
private theorem Cut.eq_spansFrom {before : Option Char} {cs : List Char} {ss : List Span}
    (h : Cut literal? before cs ss) : spansFrom literal? 0 before cs = ss := by
  induction h with
  | nil => rw [spansFrom]
  | literal hne hfind _ ih => rw [spansFrom_of_some hne hfind, ih]
  | plain hmiss _ ih => rw [spansFrom_of_none hmiss, ih]; rfl

theorem spans_eq_iff (hl : literal?.Faithful) {cs : List Char} {ss : List Span} :
    spans literal? cs = ss ↔ Cut literal? none cs ss :=
  ⟨fun h => h ▸ cut_spansFrom hl none cs, Cut.eq_spansFrom⟩

theorem cut_spans (hl : literal?.Faithful) (cs : List Char) :
    Cut literal? none cs (spans literal? cs) :=
  (spans_eq_iff hl).mp rfl

/-! ## What every cut keeps -/

/-- Nothing of a text is lost, and nothing is added. -/
theorem Cut.flatMap_text {before : Option Char} {cs : List Char} {ss : List Span}
    (h : Cut literal? before cs ss) : ss.flatMap Span.text = cs := by
  induction h with
  | nil => rfl
  | literal _ _ _ ih => rw [List.flatMap_cons, List.flatMap_cons, ih]; rfl
  | plain _ _ ih =>
    rw [List.flatMap_cons] at ih ⊢
    rw [List.cons_append, ih]

/-- Every literal was found somewhere. -/
theorem Cut.found {before : Option Char} {cs : List Char} {ss : List Span}
    (h : Cut literal? before cs ss) {s : Span} (hs : s ∈ ss) (hlit : s.literal = true) :
    ∃ before rest, literal? before (s.text ++ rest) = some s.text := by
  induction h with
  | nil =>
    rw [List.mem_singleton] at hs
    rw [hs] at hlit
    exact absurd hlit Bool.false_ne_true
  | literal hne hfind hrest ih =>
    rcases List.mem_cons.mp hs with rfl | hs
    · exact absurd hlit Bool.false_ne_true
    · rcases List.mem_cons.mp hs with rfl | hs
      · exact ⟨_, _, hfind⟩
      · exact ih hs
  | plain hmiss hrest ih =>
    rcases List.mem_cons.mp hs with rfl | hs
    · exact absurd hlit Bool.false_ne_true
    · exact ih (List.mem_cons_of_mem _ hs)

/-! ## Two texts with a character between them -/

/-- A recogniser that does not look across the character `sep` in front of `next`. A character that
`opens` picks is excepted: it may begin a literal that only the text behind `sep` ends. -/
structure Recogniser.StopsAt (literal? : Recogniser) (opens : Char → Bool) (sep : Char)
    (next : List Char) : Prop where
  keeps : ∀ {before : Option Char} {cs text : List Char}, literal? before cs = some text →
    literal? before (cs ++ sep :: next) = some text
  misses : ∀ {before : Option Char} {c : Char} {cs : List Char}, opens c = false →
    literal? before (c :: cs) = none → literal? before (c :: (cs ++ sep :: next)) = none
  misses_sep : ∀ {before : Option Char}, literal? before (sep :: next) = none
  begins : literal? (some sep) next = literal? none next

section

variable {opens : Char → Bool} {sep : Char} {next : List Char}

/-- Behind a break a text is cut as at its beginning. -/
private theorem Cut.behind_break {ss : List Span} (hl : literal?.StopsAt opens sep next)
    (h : Cut literal? none next ss) : Cut literal? (some sep) next ss := by
  cases h with
  | nil => exact .nil
  | literal hne hfind hrest => exact .literal hne (hl.begins.trans hfind) hrest
  | plain hmiss hrest => exact .plain (hl.begins.trans hmiss) hrest

/-- The stretches of two texts with a break between them. Only the plain text at the break grows
together. -/
theorem Cut.append_break {u : List Char} {ys : List Span}
    (hl : literal?.StopsAt opens sep next) (hnext : Cut literal? none next (⟨false, u⟩ :: ys))
    {before : Option Char} {cs : List Char} {ss : List Span} (h : Cut literal? before cs ss)
    (hopen : ∀ s ∈ ss, s.literal = false → ∀ c ∈ s.text, opens c = false) :
    ∃ xs t, ss = xs ++ [⟨false, t⟩] ∧
      Cut literal? before (cs ++ sep :: next) (xs ++ ⟨false, t ++ sep :: u⟩ :: ys) := by
  induction h with
  | nil => exact ⟨[], [], rfl, .plain hl.misses_sep (hnext.behind_break hl)⟩
  | @literal before text rest ss hne hfind hrest ih =>
    obtain ⟨xs, t, rfl, hcut⟩ := ih fun s hs =>
      hopen s (List.mem_cons_of_mem _ (List.mem_cons_of_mem _ hs))
    refine ⟨⟨false, []⟩ :: ⟨true, text⟩ :: xs, t, rfl, ?_⟩
    -- the literal has ended in front of the break, so it is found as before
    have hkeep := hl.keeps hfind
    rw [List.append_assoc] at hkeep ⊢
    exact .literal hne hkeep hcut
  | @plain before c cs text ss hmiss hrest ih =>
    have hc : opens c = false := hopen _ (List.mem_cons_self ..) rfl c (List.mem_cons_self ..)
    obtain ⟨xs, t, heq, hcut⟩ := ih (by
      intro s hs hplain d hd
      rcases List.mem_cons.mp hs with rfl | hs
      · exact hopen _ (List.mem_cons_self ..) rfl d (List.mem_cons_of_mem _ hd)
      · exact hopen s (List.mem_cons_of_mem _ hs) hplain d hd)
    -- the plain text that grows is the first stretch, or one further on
    cases xs with
    | nil =>
      rw [List.nil_append, List.cons.injEq] at heq
      obtain ⟨htext, rfl⟩ := heq
      injection htext with _ htext
      subst htext
      exact ⟨[], c :: text, rfl, .plain (hl.misses hc hmiss) hcut⟩
    | cons x xs =>
      rw [List.cons_append, List.cons.injEq] at heq
      obtain ⟨rfl, rfl⟩ := heq
      exact ⟨⟨false, c :: text⟩ :: xs, t, rfl, .plain (hl.misses hc hmiss) hcut⟩

/-- What is read off the stretches of a text one by one is read off two texts with a break between
them as off each of the two, if that holds of plain text. -/
theorem flatMap_spans_append_break {α : Type} {cs : List Char} {f : Span → List α}
    (hf : literal?.Faithful) (hl : literal?.StopsAt opens sep next)
    (hopen : ∀ s ∈ spans literal? cs, s.literal = false → ∀ c ∈ s.text, opens c = false)
    (hplain : ∀ t u, f ⟨false, t ++ sep :: u⟩ = f ⟨false, t⟩ ++ f ⟨false, u⟩) :
    (spans literal? (cs ++ sep :: next)).flatMap f
      = (spans literal? cs).flatMap f ++ (spans literal? next).flatMap f := by
  obtain ⟨u, ys, hnext⟩ := (cut_spans hf next).begins
  obtain ⟨xs, t, hcs, hcut⟩ :=
    Cut.append_break hl ((spans_eq_iff hf).mp hnext) (cut_spans hf cs) hopen
  rw [(spans_eq_iff hf).mpr hcut, hcs, hnext]
  simp only [List.flatMap_append, List.flatMap_cons, List.flatMap_nil, List.append_nil, hplain,
    List.append_assoc]

end

/-! ## Literals that end in front of a character -/

/-- A recogniser that knows a literal by itself, whatever stands around it. -/
def Recogniser.Alone (literal? : Recogniser) : Prop :=
  ∀ ⦃before : Option Char⦄ ⦃text rest : List Char⦄, literal? before (text ++ rest) = some text →
    ∀ before' rest', literal? before' (text ++ rest') = some text

section

variable (hf : literal?.Faithful) (hl : literal?.Alone)

include hf hl

/-- Where there is no literal, there is none in less text either. -/
theorem Recogniser.Alone.misses {before : Option Char} {cs more : List Char}
    (h : literal? before (cs ++ more) = none) (before' : Option Char) :
    literal? before' cs = none := by
  cases hfind : literal? before' cs with
  | none => rfl
  | some text =>
    obtain ⟨_, rest, rfl⟩ := hf hfind
    rw [List.append_assoc, hl hfind before (rest ++ more)] at h
    cases h

/-- A text is cut in the same way behind any character. -/
theorem Cut.behind {before : Option Char} {cs : List Char} {ss : List Span}
    (h : Cut literal? before cs ss) (before' : Option Char) : Cut literal? before' cs ss := by
  cases h with
  | nil => exact .nil
  | literal hne hfind hrest => exact .literal hne (hl hfind before' _) hrest
  | @plain _ c cs _ _ hmiss hrest =>
    rw [← List.append_nil (c :: cs)] at hmiss
    exact .plain (hl.misses hf hmiss before') hrest

/-- A text is parted at a character that is in no literal of it, and its stretches with it. -/
theorem Cut.part {sep : Char} {next : List Char} {before : Option Char} {whole : List Char}
    {ss : List Span} (h : Cut literal? before whole ss) {cs : List Char}
    (hwhole : whole = cs ++ sep :: next) (hsep : ∀ s ∈ ss, s.literal = true → sep ∉ s.text) :
    ∃ xs t u ys, ss = xs ++ ⟨false, t ++ sep :: u⟩ :: ys ∧
      Cut literal? before cs (xs ++ [⟨false, t⟩]) ∧
      Cut literal? none next (⟨false, u⟩ :: ys) := by
  induction h generalizing cs with
  | nil => exact absurd hwhole.symm (List.append_ne_nil_of_right_ne_nil cs (List.cons_ne_nil _ _))
  | @literal before text rest ss hne hfind hrest ih =>
    rw [List.forall_mem_cons, List.forall_mem_cons] at hsep
    -- the literal has ended where the character comes
    have hfront : ∃ more, cs = text ++ more ∧ rest = more ++ sep :: next := by
      rcases List.append_eq_append_iff.mp hwhole with hmore | ⟨more, htext, hmore⟩
      · exact hmore
      · cases more with
        | nil => exact ⟨[], by rw [htext, List.append_nil, List.append_nil], hmore.symm⟩
        | cons d more =>
          have hd : sep = d := List.head_eq_of_cons_eq hmore
          refine absurd ?_ (hsep.2.1 rfl)
          rw [htext, hd]
          exact List.mem_append_right _ (List.mem_cons_self ..)
    obtain ⟨more, rfl, hmore⟩ := hfront
    obtain ⟨xs, t, u, ys, rfl, hcs, hnext⟩ := ih hmore hsep.2.2
    exact ⟨⟨false, []⟩ :: ⟨true, text⟩ :: xs, t, u, ys, rfl,
      .literal hne (hl hfind before more) hcs, hnext⟩
  | @plain before c rest text ss hmiss hrest ih =>
    rw [List.forall_mem_cons] at hsep
    cases cs with
    | nil =>
      obtain ⟨rfl, rfl⟩ := List.cons.inj hwhole
      exact ⟨[], [], text, ss, rfl, .nil, hrest.behind hf hl none⟩
    | cons d cs =>
      obtain ⟨rfl, rfl⟩ := List.cons.inj hwhole
      obtain ⟨xs, t, u, ys, heq, hcs, hnext⟩ :=
        ih rfl (List.forall_mem_cons.mpr ⟨fun hlit => absurd hlit Bool.false_ne_true, hsep.2⟩)
      have hmiss' : literal? before (c :: cs) = none := hl.misses hf hmiss before
      -- the plain text with the character in it is the first stretch, or one further on
      cases xs with
      | nil =>
        obtain ⟨htext, rfl⟩ := List.cons.inj heq
        injection htext with _ htext
        subst htext
        exact ⟨[], c :: t, u, ss, rfl, .plain hmiss' hcs, hnext⟩
      | cons x xs =>
        obtain ⟨rfl, rfl⟩ := List.cons.inj heq
        exact ⟨⟨false, c :: text⟩ :: xs, t, u, ys, rfl, .plain hmiss' hcs, hnext⟩

end

end PlainCode.Literal
