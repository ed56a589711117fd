import Mathlib.Data.List.TakeWhile
import PlainCode.Proofs.Layout

/-!
# Blocks by indentation

In Python a block is what is further in than the line above it, and a block of comments is no block
at all. `Text.blocks` finds the blocks of a text by its margins alone, and `blocks_layout` is that
they are those of the command that the text was written for: one for each body, with the lines of
that body and nothing else.

A body that was left out is written as a statement. A body that is there is written as it is, and
that is not enough where it is a comment: `python_blocks_filled_iff` says exactly when every block
has a statement in it, and `python_block_of_remark` is a command where one has not.
-/

namespace PlainCode

namespace Text

/-- The number of spaces in front of a line. -/
def indentation (line : String) : Nat := (line.toList.takeWhile (· == ' ')).length

/-- The blocks of lines: each line that is followed by lines further in, with all of these. -/
def blocks : List String → List (String × List String)
  | [] => []
  | line :: rest =>
    let body := rest.takeWhile fun l => indentation line < indentation l
    if body.isEmpty then blocks rest else (line, body) :: blocks rest

/-- Whether a line is a comment in Python: a number sign is the first thing to see in it. -/
def isComment (line : String) : Bool := (line.toList.dropWhile isBlank).head? == some '#'

private theorem indentation_of_head {s : String} {c : Char} (h : s.toList.head? = some c)
    (hc : c ≠ ' ') : indentation s = 0 := by
  obtain ⟨rest, hs⟩ := List.head?_eq_some_iff.mp h
  rw [indentation, hs, List.takeWhile_cons_of_neg (by simpa using hc), List.length_nil]

private theorem indentation_spaces_append (n : Nat) (s : String) :
    indentation (spaces n ++ s) = n + indentation s := by
  have hspaces : ∀ c ∈ List.replicate n ' ', (c == ' ') = true := by
    intro c hc
    rw [List.eq_of_mem_replicate hc]
    rfl
  rw [indentation, spaces, String.toList_append, String.toList_ofList,
    List.takeWhile_append_of_pos hspaces, List.length_append, List.length_replicate, indentation]

/-- What stands behind a text makes it a comment only if nothing is to be seen of the text. -/
theorem isComment_append {a b : String} (hb : isComment b = false) :
    isComment (a ++ b) = isComment a := by
  unfold isComment at hb ⊢
  rw [String.toList_append, List.dropWhile_append]
  split
  next hblank =>
    rw [List.isEmpty_iff] at hblank
    rw [hblank, hb]
    rfl
  next hsome =>
    rw [List.isEmpty_iff] at hsome
    rw [List.head?_append_of_ne_nil _ hsome]

/-- What stands behind a text that is not blank has no say in whether it is a comment. -/
theorem isComment_append_of_not_blank {a b : String} (ha : blank a = false) :
    isComment (a ++ b) = isComment a := by
  have hsome : a.toList.dropWhile isBlank ≠ [] := by
    intro hnil
    rw [blank, List.all_eq_true.mpr (List.dropWhile_eq_nil_iff.mp hnil)] at ha
    cases ha
  unfold isComment
  rw [String.toList_append, List.dropWhile_append, if_neg (by simpa using hsome),
    List.head?_append_of_ne_nil _ hsome]

/-- A mark that is not blank ends what can make a comment of a text. -/
theorem isComment_front {front mark rest : String} (hmark : isComment mark = false)
    (hblank : blank mark = false) : isComment (front ++ (mark ++ rest)) = isComment front :=
  isComment_append ((isComment_append_of_not_blank hblank).trans hmark)

private theorem isComment_spaces_append (n : Nat) (s : String) :
    isComment (spaces n ++ s) = isComment s := by
  have hspaces : ∀ c ∈ List.replicate n ' ', isBlank c = true := by
    intro c hc
    rw [List.eq_of_mem_replicate hc]
    decide
  rw [isComment, spaces, String.toList_append, String.toList_ofList,
    List.dropWhile_append_of_pos hspaces, isComment]

theorem isComment_of_head {s : String} {c : Char} (h : s.toList.head? = some c)
    (hblank : isBlank c = false) (hc : c ≠ '#') : isComment s = false := by
  obtain ⟨rest, hs⟩ := List.head?_eq_some_iff.mp h
  rw [isComment, hs, List.dropWhile_cons_of_neg (by rw [hblank]; exact Bool.false_ne_true)]
  simpa using hc

/-- A line that nothing further in follows has no block. -/
private theorem blocks_cons_of_le {line : String} {rest : List String}
    (h : ∀ l ∈ rest.head?, indentation l ≤ indentation line) :
    blocks (line :: rest) = blocks rest := by
  have hbody : rest.takeWhile (fun l => indentation line < indentation l) = [] := by
    cases rest with
    | nil => rfl
    | cons l rest =>
      have hl : indentation l ≤ indentation line := h l rfl
      exact List.takeWhile_cons_of_neg (by simpa using hl)
  rw [blocks, hbody]
  rfl

/-- The block of a line are the lines behind it that are further in. -/
private theorem blocks_cons_append {line : String} {body rest : List String} (hne : body ≠ [])
    (hbody : ∀ l ∈ body, indentation line < indentation l)
    (hrest : ∀ l ∈ rest.head?, indentation l ≤ indentation line) :
    blocks (line :: (body ++ rest)) = (line, body) :: blocks (body ++ rest) := by
  have htake : (body ++ rest).takeWhile (fun l => indentation line < indentation l) = body := by
    apply takeWhile_append_of_stop
    · intro l hl
      simpa using hbody l hl
    · cases rest with
      | nil => rfl
      | cons l rest =>
        have hl : indentation l ≤ indentation line := hrest l rfl
        simpa using hl
  rw [blocks, htake, if_neg (by simpa using hne)]

end Text

open PlainCode.Text (spaces indentation isComment isComment_front isComment_of_head)
open PlainCode.Convert (head?_append_text)

/-! ## Statements that read as comments -/

/-- Whether a command reads as a comment in Python: it is one, or the name or value that stands in
front begins like one. -/
def Command.readsAsComment : Command → Bool
  | .remark _ => true
  | .create name _ | .assign name _ | .read name | .increment name _ | .decrement name _
  | .call name _ | .createList name _ | .append name _ => isComment name.shown
  | .compute _ left _ result => isComment (if result.getD "" = "" then left.shown else result.shown)
  | _ => false

namespace Code

private theorem isComment_value (leaf : Leaf) :
    isComment (Target.python.value leaf) = isComment leaf.shown := by
  cases leaf with
  | none => rfl
  | some s =>
    rw [Target.value]
    split
    next h => rw [h]; decide
    next =>
      split
      next h => rw [h]; decide
      next => rfl

/-- A calculation begins with its left side, and no sign makes a comment of it. -/
private theorem isComment_calculation {operator : Leaf} (h : (Command.sign? operator).isSome = true)
    (left right : Leaf) :
    isComment (calculation .python operator left right) = isComment left.shown := by
  obtain ⟨sign, hsign⟩ := Option.isSome_iff_exists.mp h
  have hall : ∀ sign ∈ signs,
      isComment (" " ++ sign) = false ∧ Text.blank (" " ++ sign) = false := by
    decide
  obtain ⟨hmark, hblank⟩ := hall sign (Command.mem_signs hsign)
  have hsides : calculation .python operator left right
      = Target.python.value left ++ (" " ++ sign ++ (" " ++ Target.python.value right)) := by
    rw [calculation, hsign, Option.getD_some]
    simp only [String.append_assoc]
  rw [hsides, isComment_front hmark hblank, isComment_value]

/-- The header of a block begins with a letter. -/
theorem head?_header {c : Command} (h : c.slots ≠ []) :
    ∃ letter, (firstText .python c).toList.head? = some letter ∧ letter ≠ ' ' ∧ letter ≠ '#' ∧
      Text.isBlank letter = false := by
  have hguard : ∀ {word : String} {letter : Char} (c : Option Condition),
      word.toList.head? = some letter →
      (guardHeader .python word c ++ opening .python).toList.head? = some letter := by
    intro word letter c hword
    exact head?_append_text (head?_append_text (head?_append_text hword))
  cases c with
  | branch c => exact ⟨'i', hguard c rfl, by decide⟩
  | repeatWhile c => exact ⟨'w', hguard c rfl, by decide⟩
  | repeatFor counter start stop step =>
    refine ⟨'f', ?_, by decide⟩
    show ("for " ++ _ ++ _ ++ _ ++ _ ++ _ ++ _ ++ _ ++ _ : String).toList.head? = some 'f'
    simp only [String.append_assoc]
    exact head?_append_text rfl
  | define name params body =>
    refine ⟨'d', ?_, by decide⟩
    show ("def " ++ _ ++ _ ++ _ ++ _ ++ _ : String).toList.head? = some 'd'
    simp only [String.append_assoc]
    exact head?_append_text rfl
  | _ => exact absurd rfl h

theorem indentation_header {c : Command} (h : c.slots ≠ []) :
    indentation (firstText .python c) = 0 := by
  obtain ⟨letter, hletter, hspace, _⟩ := head?_header h
  exact Text.indentation_of_head hletter hspace

private theorem isComment_header {c : Command} (h : c.slots ≠ []) :
    isComment (firstText .python c) = false := by
  obtain ⟨letter, hletter, _, hmark, hblank⟩ := head?_header h
  exact isComment_of_head hletter hblank hmark

theorem isComment_counting (name amount : Leaf) {sign : String}
    (hmark : isComment (" " ++ sign) = false) (hblank : Text.blank (" " ++ sign) = false) :
    isComment (counting .python name amount sign) = isComment name.shown := by
  have hparts : counting .python name amount sign
      = name.shown ++ (" " ++ sign ++ ("= " ++ Target.python.value amount ++ "")) := by
    rw [counting, if_neg (fun h => h.2 rfl)]
    simp only [statement, Target.terminator, String.append_assoc]
  rw [hparts, isComment_front hmark hblank]

/-- The first line of a command is a comment if the command reads as one. -/
private theorem isComment_firstText {c : Command} (h : c.Proper) :
    isComment (firstText .python c) = c.readsAsComment := by
  have hequals : isComment " = " = false ∧ Text.blank " = " = false := by decide
  -- the statements that begin with a name, and then the others
  cases c with
  | create name value =>
    show isComment (name.shown ++ " = " ++ _) = isComment name.shown
    rw [String.append_assoc, isComment_front hequals.1 hequals.2]
  | assign name value =>
    show isComment (name.shown ++ " = " ++ _ ++ _) = isComment name.shown
    rw [String.append_assoc, String.append_assoc, isComment_front hequals.1 hequals.2]
  | read name => exact Text.isComment_append (by decide)
  | increment name amount => exact isComment_counting name amount (by decide) (by decide)
  | decrement name amount => exact isComment_counting name amount (by decide) (by decide)
  | call name args =>
    have hmark : isComment "(" = false ∧ Text.blank "(" = false := by decide
    show isComment (name.shown ++ "(" ++ _ ++ _ ++ _) = isComment name.shown
    simp only [String.append_assoc, isComment_front hmark.1 hmark.2]
  | createList name values =>
    have hmark : isComment " = [" = false ∧ Text.blank " = [" = false := by decide
    show isComment (name.shown ++ " = [" ++ _ ++ _) = isComment name.shown
    simp only [String.append_assoc, isComment_front hmark.1 hmark.2]
  | append name value =>
    have hmark : isComment ".append(" = false ∧ Text.blank ".append(" = false := by decide
    show isComment (name.shown ++ ".append(" ++ _ ++ _) = isComment name.shown
    simp only [String.append_assoc, isComment_front hmark.1 hmark.2]
  | compute operator left right result =>
    have hleft : isComment (statement .python (calculation .python operator left right))
        = isComment left.shown := by
      rw [← isComment_calculation h.2 left right]
      exact Text.isComment_append (by decide)
    simp only [firstText, simple, Command.readsAsComment]
    split
    next => exact hleft
    next => exact hleft
    next name hname =>
      rw [Option.getD_some, if_neg hname]
      show isComment (name ++ " = " ++ _ ++ _) = isComment name
      rw [String.append_assoc, String.append_assoc, isComment_front hequals.1 hequals.2]
  | print values =>
    refine isComment_of_head (c := 'p') ?_ (by decide) (by decide)
    exact head?_append_text (head?_append_text rfl)
  | giveBack value =>
    refine isComment_of_head (c := 'r') ?_ (by decide) (by decide)
    cases value with
    | none => rfl
    | some value => exact head?_append_text (head?_append_text rfl)
  | remark text =>
    show isComment ("#" ++ " " ++ _) = true
    rw [String.append_assoc, Text.isComment_append_of_not_blank (by decide)]
    decide
  | branch | repeatWhile | repeatFor | define => exact isComment_header (List.cons_ne_nil _ _)
  | hole | comparison | foreign => cases h.1

/-! ## The blocks of a command -/

/-- The blocks of a command that is in `depth` bodies: for each body the line above it, and the
lines of the body. -/
def blocksOf (depth : Nat) : Command → List (Line × List Line)
  | .branch c thenBody elseBody =>
    (⟨depth, firstText .python (.branch c thenBody elseBody)⟩,
      layout .python (depth + 1) thenBody) ::
      (blocksOf (depth + 1) thenBody ++
        if elseBody.isHole then []
        else (⟨depth, (elseLine .python).text⟩, layout .python (depth + 1) elseBody) ::
          blocksOf (depth + 1) elseBody)
  | .repeatWhile c body =>
    (⟨depth, firstText .python (.repeatWhile c body)⟩, layout .python (depth + 1) body) ::
      blocksOf (depth + 1) body
  | .repeatFor counter start stop step body =>
    (⟨depth, firstText .python (.repeatFor counter start stop step body)⟩,
      layout .python (depth + 1) body) :: blocksOf (depth + 1) body
  | .define name params body =>
    (⟨depth, firstText .python (.define name params body)⟩, layout .python (depth + 1) body) ::
      blocksOf (depth + 1) body
  | _ => []

/-- A block as it is written. -/
def placedBlock (b : Line × List Line) : String × List String := (b.1.placed, b.2.map Line.placed)

private theorem layout_ne_nil (t : Target) (depth : Nat) (c : Command) : layout t depth c ≠ [] := by
  cases c <;> exact List.cons_ne_nil _ _

/-- No line of a command is in fewer bodies than the command. -/
private theorem le_depth_of_mem_layout {c : Command} {depth : Nat} {l : Line}
    (h : l ∈ layout .python depth c) : depth ≤ l.depth := by
  induction c generalizing depth with
  | branch c thenBody elseBody ihThen ihElse =>
    rw [layout, List.mem_cons, List.mem_append, List.mem_append] at h
    rcases h with rfl | (h | h) | h
    · exact Nat.le_refl _
    · have hdeep := ihThen h
      omega
    · split at h
      next => cases h
      next =>
        rcases List.mem_cons.mp h with rfl | h
        · exact Nat.le_refl _
        · have hdeep := ihElse h
          omega
    · cases h
  | repeatWhile _ body ih | repeatFor _ _ _ _ body ih | define _ _ body ih =>
    rw [layout, List.mem_cons, List.mem_append] at h
    rcases h with rfl | h | h
    · exact Nat.le_refl _
    · have hdeep := ih h
      omega
    · cases h
  | _ =>
    cases List.mem_singleton.mp h
    exact Nat.le_refl _

theorem indentation_placed (l : Line) : indentation l.placed = 4 * l.depth + indentation l.text :=
  Text.indentation_spaces_append _ _

theorem indentation_placed_of_zero (depth : Nat) {text : String} (h : indentation text = 0) :
    indentation (Line.mk depth text).placed = 4 * depth := by
  rw [indentation_placed, h]
  rfl

/-- A header and the lines of its body are a block, whatever comes behind them. -/
theorem blocks_header {depth : Nat} {text : String} (htext : indentation text = 0) (body : Command)
    {rest : List String} (hrest : ∀ l ∈ rest.head?, indentation l ≤ 4 * depth) :
    Text.blocks ((Line.mk depth text).placed ::
        ((layout .python (depth + 1) body).map Line.placed ++ rest))
      = ((Line.mk depth text).placed, (layout .python (depth + 1) body).map Line.placed) ::
        Text.blocks ((layout .python (depth + 1) body).map Line.placed ++ rest) := by
  have hline := indentation_placed_of_zero depth htext
  apply Text.blocks_cons_append
  · simpa using layout_ne_nil .python (depth + 1) body
  · intro placed hplaced
    obtain ⟨l, hl, rfl⟩ := List.mem_map.mp hplaced
    have hdeep := le_depth_of_mem_layout hl
    rw [hline, indentation_placed]
    omega
  · intro l hl
    rw [hline]
    exact hrest l hl

/-- The blocks of the lines of a command are its own. What comes behind must not be further in. -/
theorem blocks_layout (c : Command) (depth : Nat) (rest : List String)
    (hrest : ∀ l ∈ rest.head?, indentation l ≤ 4 * depth) :
    Text.blocks ((layout .python depth c).map Line.placed ++ rest)
      = (blocksOf depth c).map placedBlock ++ Text.blocks rest := by
  induction c generalizing depth rest with
  | branch c thenBody elseBody ihThen ihElse =>
    have hdeeper : ∀ l ∈ rest.head?, indentation l ≤ 4 * (depth + 1) := by
      intro l hl
      have hle := hrest l hl
      omega
    rw [layout, blocksOf]
    show Text.blocks (_ :: (List.map Line.placed (_ ++ _ ++ []) ++ rest)) = _
    rw [List.append_nil, List.map_append, List.append_assoc]
    -- both sides ask whether there is a second body
    split
    next =>
      refine (blocks_header (indentation_header ?_) thenBody hrest).trans ?_
      · exact List.cons_ne_nil _ _
      · rw [ihThen (depth + 1) rest hdeeper, List.append_nil]
        rfl
    next =>
      -- the line between the bodies is as far in as the header, so it ends the first block
      have helse : indentation (elseLine .python).text = 0 := by decide
      have hbetween : ∀ l ∈ (List.map Line.placed (⟨depth, (elseLine .python).text⟩ ::
          layout .python (depth + 1) elseBody) ++ rest).head?, indentation l ≤ 4 * depth := by
        intro l hl
        cases hl
        exact Nat.le_of_eq (indentation_placed_of_zero depth helse)
      refine (blocks_header (indentation_header ?_) thenBody hbetween).trans ?_
      · exact List.cons_ne_nil _ _
      · rw [ihThen (depth + 1) _ (fun l hl => by have hle := hbetween l hl; omega), List.map_cons,
          List.cons_append, blocks_header helse elseBody hrest,
          ihElse (depth + 1) rest hdeeper]
        simp only [List.map_cons, List.map_append, List.append_assoc, List.cons_append]
        rfl
  | repeatWhile _ body ih | repeatFor _ _ _ _ body ih | define _ _ body ih =>
    have hdeeper : ∀ l ∈ rest.head?, indentation l ≤ 4 * (depth + 1) := by
      intro l hl
      have hle := hrest l hl
      omega
    rw [layout, blocksOf, List.map_cons, List.map_cons, List.cons_append, List.cons_append]
    show Text.blocks (_ :: (List.map Line.placed (_ ++ []) ++ rest)) = _
    rw [List.append_nil]
    refine (blocks_header (indentation_header ?_) body hrest).trans ?_
    · exact List.cons_ne_nil _ _
    · rw [ih (depth + 1) rest hdeeper]
      rfl
  | _ =>
    apply Text.blocks_cons_of_le
    intro l hl
    have hle := hrest l hl
    rw [indentation_placed]
    show _ ≤ 4 * depth + _
    omega

/-! ## Blocks with a statement in them -/

/-- A block with a line in it that is no comment. -/
def Filled (block : String × List String) : Prop := ∃ line ∈ block.2, isComment line = false

theorem isComment_placed (l : Line) : isComment l.placed = isComment l.text :=
  Text.isComment_spaces_append _ _

/-- The lines of a command begin with its first line, which is the only one of a command without
bodies. -/
private theorem exists_layout (t : Target) (depth : Nat) (c : Command) :
    ∃ more, layout t depth c = ⟨depth, firstText t c⟩ :: more ∧ (c.slots = [] → more = []) := by
  cases c with
  | branch | repeatWhile | repeatFor | define =>
    exact ⟨_, rfl, fun h => absurd h (List.cons_ne_nil _ _)⟩
  | _ => exact ⟨[], rfl, fun _ => rfl⟩

private theorem slots_of_readsAsComment {c : Command} (h : c.readsAsComment = true) :
    c.slots = [] := by
  cases c with
  | branch | repeatWhile | repeatFor | define => cases h
  | _ => rfl

/-- The lines of a body are all comments only if it reads as a comment itself. -/
theorem filled_layout_iff {body : Command} (h : body = .hole ∨ body.Proper) (header : Line)
    (depth : Nat) :
    Filled (placedBlock (header, layout .python depth body)) ↔ body.readsAsComment = false := by
  have hfirst : isComment (firstText .python body) = body.readsAsComment := by
    rcases h with rfl | hproper
    · decide
    · exact isComment_firstText hproper
  obtain ⟨more, hlayout, honly⟩ := exists_layout .python depth body
  show (∃ line ∈ (layout .python depth body).map Line.placed, isComment line = false) ↔ _
  rw [hlayout]
  constructor
  · rintro ⟨line, hline, hcomment⟩
    by_contra hreads
    rw [Bool.not_eq_false] at hreads
    -- then the body has only its first line, and that is a comment
    rw [honly (slots_of_readsAsComment hreads)] at hline
    cases List.mem_singleton.mp hline
    rw [isComment_placed, hfirst, hreads] at hcomment
    cases hcomment
  · intro hreads
    exact ⟨_, List.mem_cons_self .., by rw [isComment_placed, hfirst, hreads]⟩

theorem proper_of_preorder {c : Command} (h : ∀ n ∈ c.preorder, n.Proper) :
    c = .hole ∨ c.Proper := by
  cases c with
  | hole => exact Or.inl rfl
  | _ => exact Or.inr (h _ (List.mem_cons_self ..))

/-- Every block of a command has a statement in it if no body reads as a comment. -/
private theorem filled_blocksOf_iff {c : Command} (h : ∀ n ∈ c.preorder, n.Proper) (depth : Nat) :
    (∀ b ∈ blocksOf depth c, Filled (placedBlock b)) ↔
      ∀ n ∈ c.preorder, ∀ s ∈ n.slots, s.2.readsAsComment = false := by
  induction c generalizing depth with
  | branch c thenBody elseBody ihThen ihElse =>
    rw [Command.preorder, List.forall_mem_cons, List.forall_mem_append] at h ⊢
    have hthen := filled_layout_iff (proper_of_preorder h.2.1)
      ⟨depth, firstText .python (.branch c thenBody elseBody)⟩ (depth + 1)
    have helse := filled_layout_iff (proper_of_preorder h.2.2)
      ⟨depth, (elseLine .python).text⟩ (depth + 1)
    rw [blocksOf, List.forall_mem_cons, List.forall_mem_append, hthen, ihThen h.2.1 (depth + 1)]
    show _ ↔ (∀ s ∈ [(Slot.thenBody, thenBody), (Slot.elseBody, elseBody)], _) ∧ _
    rw [List.forall_mem_cons, List.forall_mem_singleton]
    split
    next hhole =>
      -- a second body that was left out is not written, and is no comment
      cases elseBody with
      | hole => simp [Command.preorder, Command.readsAsComment]
      | _ => cases hhole
    next =>
      rw [List.forall_mem_cons, helse, ihElse h.2.2 (depth + 1)]
      constructor
      · rintro ⟨h₁, h₂, h₃, h₄⟩
        exact ⟨⟨h₁, h₃⟩, h₂, h₄⟩
      · rintro ⟨⟨h₁, h₃⟩, h₂, h₄⟩
        exact ⟨h₁, h₂, h₃, h₄⟩
  | repeatWhile _ body ih | repeatFor _ _ _ _ body ih | define _ _ body ih =>
    rw [Command.preorder, List.forall_mem_cons] at h ⊢
    rw [blocksOf, List.forall_mem_cons, filled_layout_iff (proper_of_preorder h.2),
      ih h.2 (depth + 1)]
    show _ ↔ (∀ s ∈ [(Slot.body, body)], _) ∧ _
    rw [List.forall_mem_singleton]
  | hole => exact ⟨fun _ => List.forall_mem_nil _, fun _ => List.forall_mem_nil _⟩
  | _ =>
    refine ⟨fun _ n hn => ?_, fun _ => List.forall_mem_nil _⟩
    cases List.mem_singleton.mp hn
    exact List.forall_mem_nil _

/-- **When every Python block has a statement in it.** The blocks of the code of a tidy command are
those of its bodies: an indented block under each header, and under `else`. All of them have a line
that is no comment exactly if no body, at any depth, is a comment or begins like one. -/
theorem python_blocks_filled_iff (c : Command) (h : c.Tidy) :
    ∃ code, write .python c = .ok code ∧
      Text.blocks (Text.lines code) = (blocksOf 0 c).map placedBlock ∧
      ((∀ block ∈ Text.blocks (Text.lines code), ∃ line ∈ block.2, isComment line = false) ↔
        ∀ n ∈ c.preorder, ∀ s ∈ n.slots, s.2.readsAsComment = false) := by
  have hproper : ∀ n ∈ c.preorder, n.Proper := fun n hn => (h.2 n hn).1
  have hwrite : write .python c = .ok (render (linesOf .python c)) := by
    rw [write, unknownOperator?_of_proper hproper]
  have hblocks : Text.blocks (Text.lines (render (linesOf .python c)))
      = (blocksOf 0 c).map placedBlock := by
    have hlayout := blocks_layout c 0 [] fun l hl => by cases hl
    rw [List.append_nil] at hlayout
    rw [lines_linesOf .python h, hlayout]
    exact List.append_nil _
  refine ⟨_, hwrite, hblocks, ?_⟩
  rw [hblocks, List.forall_mem_map]
  exact filled_blocksOf_iff hproper 0

/-- A choice in a loop, with a statement and a body that was left out: both blocks are filled. -/
theorem python_blocks_filled_nested :
    let loop : Command := .repeatWhile (some ⟨some "x", some "less", some "5"⟩)
      (.branch (some ⟨some "x", some "equal", some "2"⟩) .hole (.increment (some "x") (some "1")))
    loop.Tidy ∧ ∃ code, write .python loop = .ok code ∧
      ∀ block ∈ Text.blocks (Text.lines code), ∃ line ∈ block.2, isComment line = false := by
  intro loop
  have htidy : loop.Tidy := by decide
  obtain ⟨code, hcode, _, hfilled⟩ := python_blocks_filled_iff loop htidy
  exact ⟨htidy, code, hcode, hfilled.mpr (by decide)⟩

/-- A choice whose body is a comment has a block without a statement. -/
theorem python_block_of_remark :
    let choice : Command := .branch (some ⟨some "x", some "greater", some "1"⟩)
      (.remark (some "todo")) .hole
    choice.Tidy ∧ write .python choice = .ok "if x > 1:\n    # todo" ∧
      Text.blocks (Text.lines "if x > 1:\n    # todo") = [("if x > 1:", ["    # todo"])] ∧
      ¬ ∀ block ∈ Text.blocks (Text.lines "if x > 1:\n    # todo"),
        ∃ line ∈ block.2, isComment line = false := by
  decide +kernel

end Code

end PlainCode
