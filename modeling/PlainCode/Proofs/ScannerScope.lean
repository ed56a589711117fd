import PlainCode.Proofs.Imports

/-!
# Where the reader of a Java program can be used

A Java program makes its reader in main, and functions are methods of their own beside main. So the
reader is known to what is read in main, at any depth, and not to what is read in a function.

Which lines belong to a command that reads cannot be seen from their text, as names and remarks can
say anything. `sourcesOf` keeps with each line of code the command that it was written for: it has
the lines of the code (`map_sourcesOf`), and a line for each command in the tree and for no other
(`mem_sourcesOf`, `exists_source`). The methods of a program are made of such lines, and
`scanner_in_scope_iff` says when all of them know the reader that they use.
-/

namespace PlainCode.Code

/-! ## Lines and the commands they are written for -/

/-- Lines of code, each with the command that it was written for. -/
abbrev Sources := List (Line × Command)

/-- Lines that are all written for one command. -/
def writtenFor (c : Command) (ls : List Line) : Sources := ls.map (·, c)

/-- Such lines in some more blocks. -/
def Sources.deepen (levels : Nat) (ss : Sources) : Sources :=
  ss.map fun s => (s.1.deepen levels, s.2)

section

variable (t : Target)

/-- The lines of a body, one block deeper. The statement that does nothing is written for the
command around it. -/
def innerSources (c : Command) (body : Sources) : Sources :=
  Sources.deepen 1 (if body.isEmpty then [(⟨0, t.noop⟩, c)] else body)

/-- The lines of a block. -/
def blockSources (c : Command) (header : String) (body : Sources) : Sources :=
  writtenFor c (ofText (header ++ opening t)) ++ innerSources t c body ++ writtenFor c (closing t)

/-- The lines of a command, each with the command in it that the line was written for. -/
def sourcesOf : Command → Sources
  | .hole => []
  | .branch c thenBody elseBody =>
    let self := Command.branch c thenBody elseBody
    let otherwise := if elseBody.isHole then []
      else (elseLine t, self) :: innerSources t self (sourcesOf elseBody)
    writtenFor self (ofText (guardHeader t "if" c ++ opening t)) ++
      innerSources t self (sourcesOf thenBody) ++ otherwise ++ writtenFor self (closing t)
  | .repeatWhile c body =>
    blockSources t (.repeatWhile c body) (guardHeader t "while" c) (sourcesOf body)
  | .repeatFor counter start stop step body =>
    blockSources t (.repeatFor counter start stop step body) (loopHeader t counter start stop step)
      (sourcesOf body)
  | .define name params body =>
    blockSources t (.define name params body) (functionHeader t name params.items body)
      (sourcesOf body)
  | command => writtenFor command (ofText (simple t command))

theorem map_writtenFor (c : Command) (ls : List Line) : (writtenFor c ls).map Prod.fst = ls := by
  rw [writtenFor, List.map_map]
  exact List.map_id ls

private theorem map_deepen (levels : Nat) (ss : Sources) :
    (ss.deepen levels).map Prod.fst = deepen levels (ss.map Prod.fst) := by
  rw [Sources.deepen, deepen, List.map_map, List.map_map]
  rfl

theorem map_innerSources (c : Command) {body : Sources} {ls : List Line}
    (h : body.map Prod.fst = ls) : (innerSources t c body).map Prod.fst = inner t ls := by
  rw [innerSources, map_deepen, inner, ← h, List.isEmpty_map]
  split <;> rfl

private theorem map_blockSources (c : Command) (header : String) {body : Sources} {ls : List Line}
    (h : body.map Prod.fst = ls) :
    (blockSources t c header body).map Prod.fst = block t header ls := by
  rw [blockSources, block, List.map_append, List.map_append, map_writtenFor, map_writtenFor,
    map_innerSources t c h]

/-- Without the commands, the lines are those of the code. -/
theorem map_sourcesOf (c : Command) : (sourcesOf t c).map Prod.fst = linesOf t c := by
  induction c with
  | hole => rfl
  | branch c thenBody elseBody ihThen ihElse =>
    rw [sourcesOf, linesOf, List.map_append, List.map_append, List.map_append, map_writtenFor,
      map_writtenFor, map_innerSources t _ ihThen]
    -- both sides ask whether there is a second body
    split
    next => rfl
    next => rw [List.map_cons, map_innerSources t _ ihElse]
  | repeatWhile _ body ih | repeatFor _ _ _ _ body ih | define _ _ body ih =>
    exact map_blockSources t _ _ ih
  | _ => exact map_writtenFor _ _

variable {t}

theorem eq_of_mem_writtenFor {c n : Command} {l : Line} {ls : List Line}
    (h : (l, n) ∈ writtenFor c ls) : n = c := by
  obtain ⟨_, _, heq⟩ := List.mem_map.mp h
  exact (Prod.mk.inj heq).2.symm

theorem mem_innerSources {c n : Command} {l : Line} {body : Sources}
    (h : (l, n) ∈ innerSources t c body) : n = c ∨ ∃ k, (k, n) ∈ body := by
  obtain ⟨⟨k, m⟩, hk, heq⟩ := List.mem_map.mp h
  obtain ⟨_, rfl⟩ := Prod.mk.inj heq
  split at hk
  next => exact Or.inl (Prod.mk.inj (List.mem_singleton.mp hk)).2
  next => exact Or.inr ⟨k, hk⟩

/-- A line of a block is written for the command, or it is one of its body. -/
private theorem mem_blockSources {c n : Command} {header : String} {l : Line} {body : Sources}
    (h : (l, n) ∈ blockSources t c header body) : n = c ∨ ∃ k, (k, n) ∈ body := by
  rw [blockSources, List.mem_append, List.mem_append] at h
  rcases h with (h | h) | h
  · exact Or.inl (eq_of_mem_writtenFor h)
  · exact mem_innerSources h
  · exact Or.inl (eq_of_mem_writtenFor h)

/-- Lines are written for commands in the command. -/
theorem mem_sourcesOf {c n : Command} {l : Line} (h : (l, n) ∈ sourcesOf t c) : n.Within c := by
  induction c generalizing l with
  | hole => cases h
  | branch c thenBody elseBody ihThen ihElse =>
    have hthen : ∀ {k : Line}, (k, n) ∈ sourcesOf t thenBody →
        n.Within (.branch c thenBody elseBody) :=
      fun hk => .slot (List.mem_cons_self ..) (ihThen hk)
    have helse : ∀ {k : Line}, (k, n) ∈ sourcesOf t elseBody →
        n.Within (.branch c thenBody elseBody) :=
      fun hk => .slot (List.mem_cons_of_mem _ (List.mem_cons_self ..)) (ihElse hk)
    rw [sourcesOf, List.mem_append, List.mem_append, List.mem_append] at h
    rcases h with ((h | h) | h) | h
    · rw [eq_of_mem_writtenFor h]
      exact .self
    · rcases mem_innerSources h with rfl | ⟨k, hk⟩
      · exact .self
      · exact hthen hk
    · split at h
      next => cases h
      next =>
        rcases List.mem_cons.mp h with heq | h
        · rw [(Prod.mk.inj heq).2]
          exact .self
        · rcases mem_innerSources h with rfl | ⟨k, hk⟩
          · exact .self
          · exact helse hk
    · rw [eq_of_mem_writtenFor h]
      exact .self
  | repeatWhile _ body ih | repeatFor _ _ _ _ body ih | define _ _ body ih =>
    rcases mem_blockSources h with rfl | ⟨k, hk⟩
    · exact .self
    · exact .slot (List.mem_cons_self ..) (ih hk)
  | _ =>
    rw [eq_of_mem_writtenFor h]
    exact .self

theorem exists_writtenFor (c : Command) (text : String) :
    ∃ l, (l, c) ∈ writtenFor c (ofText text) := by
  obtain ⟨l, ls, hls⟩ := List.exists_cons_of_ne_nil (ofText_ne_nil text)
  rw [writtenFor, hls]
  exact ⟨l, List.mem_cons_self ..⟩

/-- The lines of a body stay what they are written for. -/
theorem innerSources_of_mem {c n : Command} {l : Line} {body : Sources} (h : (l, n) ∈ body) :
    (l.deepen 1, n) ∈ innerSources t c body := by
  have hne : ¬ body.isEmpty = true := by
    rw [List.isEmpty_iff]
    exact List.ne_nil_of_mem h
  rw [innerSources, if_neg hne]
  exact List.mem_map.mpr ⟨(l, n), h, rfl⟩

private theorem exists_source_self {c : Command} (hc : c ≠ .hole) :
    ∃ l, (l, c) ∈ sourcesOf t c := by
  cases c with
  | hole => exact absurd rfl hc
  | branch c thenBody elseBody =>
    obtain ⟨l, hl⟩ := exists_writtenFor (.branch c thenBody elseBody)
      (guardHeader t "if" c ++ opening t)
    rw [sourcesOf, List.append_assoc, List.append_assoc]
    exact ⟨l, List.mem_append_left _ hl⟩
  | repeatWhile | repeatFor | define =>
    obtain ⟨l, hl⟩ := exists_writtenFor _ _
    rw [sourcesOf, blockSources, List.append_assoc]
    exact ⟨l, List.mem_append_left _ hl⟩
  | _ => exact exists_writtenFor _ _

private theorem exists_source_slot {c child n : Command} {slot : Slot} {l : Line}
    (hslot : (slot, child) ∈ c.slots) (h : (l, n) ∈ sourcesOf t child) :
    (l.deepen 1, n) ∈ sourcesOf t c := by
  cases c with
  | branch c thenBody elseBody =>
    rw [sourcesOf, List.mem_append, List.mem_append, List.mem_append]
    rw [Command.slots, List.mem_cons, List.mem_singleton] at hslot
    rcases hslot with hslot | hslot
    · obtain ⟨_, rfl⟩ := Prod.mk.inj hslot
      exact Or.inl (Or.inl (Or.inr (innerSources_of_mem h)))
    · obtain ⟨_, rfl⟩ := Prod.mk.inj hslot
      refine Or.inl (Or.inr ?_)
      cases child with
      | hole => cases h
      | _ => exact List.mem_cons_of_mem _ (innerSources_of_mem h)
  | repeatWhile _ body | repeatFor _ _ _ _ body | define _ _ body =>
    obtain ⟨_, rfl⟩ := Prod.mk.inj (List.mem_singleton.mp hslot)
    rw [sourcesOf, blockSources, List.mem_append, List.mem_append]
    exact Or.inl (Or.inr (innerSources_of_mem h))
  | _ => cases hslot

/-- Every command in a command has a line. -/
theorem exists_source {c n : Command} (hn : n ≠ .hole) (h : n.Within c) :
    ∃ l, (l, n) ∈ sourcesOf t c := by
  induction h with
  | self => exact exists_source_self hn
  | slot hslot _ ih =>
    obtain ⟨l, hl⟩ := ih
    exact ⟨_, exists_source_slot hslot hl⟩

end

/-! ## Methods -/

/-- The lines of a method, each with the command that it was written for, if it was for one. -/
abbrev Method := List (Line × Option Command)

/-- The texts of a method. -/
def Method.texts (m : Method) : List String := m.map fun l => l.1.render

/-- The line that makes the reader of a Java program. -/
def scannerLine : Line := ⟨2, "Scanner scanner = new Scanner(System.in);"⟩

/-- The lines of a command in a method. -/
def methodLines (depth : Nat) (c : Command) : Method :=
  (sourcesOf .java c).map fun s => (s.1.deepen depth, some s.2)

/-- The main function of a Java program. -/
def mainMethod (commands : List Command) : Method :=
  (⟨1, "public static void main(String[] args) \x7b"⟩, none) ::
    (if (everyCommand commands).any isReading then [(scannerLine, none)] else []) ++
    (statementsOf commands).flatMap (methodLines 2) ++ [(⟨1, "\x7d"⟩, none)]

/-- The methods of a Java program: its functions, and main. -/
def methodsOf (commands : List Command) : List Method :=
  (functionsOf commands).map (methodLines 1) ++ [mainMethod commands]

/-- A method that knows the reader wherever it uses it: in front of each line of a command that
reads, there is the line of the program that makes the reader. -/
def Method.InScope (m : Method) : Prop :=
  ∀ before l name after, m = before ++ (l, some (.read name)) :: after →
    (scannerLine, none) ∈ before

theorem mem_methodLines {depth : Nat} {c n : Command} {l : Line}
    (h : (l, some n) ∈ methodLines depth c) : n.Within c := by
  obtain ⟨⟨k, m⟩, hk, heq⟩ := List.mem_map.mp h
  obtain ⟨_, hm⟩ := Prod.mk.inj heq
  cases hm
  exact mem_sourcesOf hk

private theorem not_mem_methodLines (depth : Nat) (c : Command) (l : Line) :
    (l, none) ∉ methodLines depth c := by
  intro h
  obtain ⟨s, _, heq⟩ := List.mem_map.mp h
  cases (Prod.mk.inj heq).2

/-- A function makes no reader, so it may not read. -/
theorem inScope_methodLines_iff (depth : Nat) (f : Command) :
    Method.InScope (methodLines depth f) ↔ ∀ name, ¬ (Command.read name).Within f := by
  constructor
  · intro h name hname
    obtain ⟨l, hl⟩ := exists_source (t := .java) Command.noConfusion hname
    have hmem : (l.deepen depth, some (.read name)) ∈ methodLines depth f :=
      List.mem_map.mpr ⟨_, hl, rfl⟩
    obtain ⟨before, after, hsplit⟩ := List.append_of_mem hmem
    refine not_mem_methodLines depth f scannerLine ?_
    rw [hsplit]
    exact List.mem_append_left _ (h before _ name after hsplit)
  · intro h before l name after hsplit
    have hmem : (l, some (.read name)) ∈ methodLines depth f := by
      rw [hsplit]
      exact List.mem_append_right _ (List.mem_cons_self ..)
    exact absurd (mem_methodLines hmem) (h name)

/-- What main reads is read somewhere in the program. -/
private theorem occurs_of_mem_mainMethod {commands : List Command} {l : Line} {name : Leaf}
    (h : (l, some (.read name)) ∈ mainMethod commands) : Occurs Reads commands := by
  rw [mainMethod, List.mem_append, List.mem_append, List.mem_cons, List.mem_singleton] at h
  rcases h with ((h | h) | h) | h
  · cases h
  · split at h
    next => cases List.mem_singleton.mp h
    next => cases h
  · obtain ⟨s, hs, hmem⟩ := List.mem_flatMap.mp h
    exact ⟨s, (List.mem_filter.mp hs).1, _, mem_methodLines hmem, .read name⟩
  · cases h

/-- Main makes the reader before anything else, if anything is read at all. -/
private theorem inScope_mainMethod (commands : List Command) : (mainMethod commands).InScope := by
  intro before l name after hsplit
  have hmem : (l, some (.read name)) ∈ mainMethod commands := by
    rw [hsplit]
    exact List.mem_append_right _ (List.mem_cons_self ..)
  have hany : (everyCommand commands).any isReading = true :=
    (any_everyCommand_iff reads_iff nofun commands).mpr (occurs_of_mem_mainMethod hmem)
  rw [mainMethod, if_pos hany] at hsplit
  -- the first two lines are written for no command
  cases before with
  | nil => cases (List.cons.inj hsplit).1
  | cons first before =>
    cases before with
    | nil => cases (List.cons.inj (List.cons.inj hsplit).2).1
    | cons second before =>
      have hsecond : (scannerLine, none) = second := (List.cons.inj (List.cons.inj hsplit).2).1
      rw [hsecond]
      exact List.mem_cons_of_mem _ (List.mem_cons_self ..)

/-! ## Programs -/

theorem texts_methodLines (depth : Nat) (c : Command) :
    (methodLines depth c).texts = (deepen depth (linesOf .java c)).map Line.render := by
  rw [← map_sourcesOf, methodLines, Method.texts, deepen, List.map_map, List.map_map, List.map_map]
  rfl

/-- A Java program is made of its methods. -/
private theorem lines_methods {commands : List Command} (hhole : ∀ c ∈ commands, c ≠ .hole)
    (hne : commands ≠ []) : Text.lines (render (programLines .java commands))
      = frontTexts (javaImports commands) ++ ["public class Main \x7b"] ++
        ((functionsOf commands).flatMap fun f => (methodLines 1 f).texts ++ [""]) ++
        (mainMethod commands).texts ++ ["\x7d"] := by
  have hfunctions : (functionLines .java 1 (functionsOf commands)).map Line.render
      = (functionsOf commands).flatMap fun f => (methodLines 1 f).texts ++ [""] := by
    rw [functionLines, List.map_flatMap]
    refine List.flatMap_congr fun f _ => ?_
    rw [List.map_append, texts_methodLines]
    rfl
  have hstatements : Method.texts ((statementsOf commands).flatMap (methodLines 2))
      = (statementLines .java 2 (statementsOf commands)).map Line.render := by
    rw [Method.texts, List.map_flatMap, statementLines, List.map_flatMap]
    exact List.flatMap_congr fun s _ => texts_methodLines 2 s
  rw [Method.texts] at hstatements
  rw [lines_javaProgram hhole hne, javaProgram, mainMethod]
  simp only [Method.texts, List.map_append, List.map_cons, List.map_nil, render_prologue,
    hfunctions, hstatements, Line.render_zero, List.append_assoc, List.cons_append,
    List.nil_append]
  split <;> rfl

/-- **Where the reader of a Java program can be used.** A program of proper commands is written, and
it is made of its methods: its functions, and main. All of them know the reader wherever they use it
exactly if no function reads anything, at any depth. -/
theorem scanner_in_scope_iff (commands : List Command) (hhole : ∀ c ∈ commands, c ≠ .hole) :
    ((∀ c ∈ commands, ∀ n : Command, n.Within c → n ≠ .hole → n.Proper) →
      ∃ code, writeProgram .java commands = .ok code) ∧
    (commands ≠ [] → ∀ code, writeProgram .java commands = .ok code →
      Text.lines code = frontTexts (javaImports commands) ++ ["public class Main \x7b"] ++
        ((functionsOf commands).flatMap fun f => (methodLines 1 f).texts ++ [""]) ++
        (mainMethod commands).texts ++ ["\x7d"]) ∧
    ((∀ m ∈ methodsOf commands, m.InScope) ↔
      ∀ f ∈ commands, f.isFunction = true → ∀ name, ¬ (Command.read name).Within f) := by
  refine ⟨fun hproper => exists_writeProgram hproper .java, fun hne code hcode => ?_, ?_⟩
  · rw [eq_render_of_writeProgram hcode, lines_methods hhole hne]
  · rw [methodsOf, List.forall_mem_append, List.forall_mem_map, List.forall_mem_singleton,
      and_iff_left (inScope_mainMethod commands)]
    constructor
    · intro h f hf hfunction
      exact (inScope_methodLines_iff 1 f).mp (h f (List.mem_filter.mpr ⟨hf, hfunction⟩))
    · intro h f hf
      obtain ⟨hf, hfunction⟩ := List.mem_filter.mp hf
      exact (inScope_methodLines_iff 1 f).mpr (h f hf hfunction)

/-- A program with a function that prints, and with a choice that reads in both of its bodies. -/
theorem scanner_in_scope_nested :
    let say : Command := .define (some "say") none (.print (some [some "x"]))
    let choice : Command := .branch (some ⟨some "x", some "less", some "2"⟩) (.read (some "x"))
      (.repeatWhile (some ⟨some "x", some "equal", some "1"⟩) (.read (some "y")))
    let commands := [choice, say]
    (∀ c ∈ commands, c ≠ .hole) ∧ (∃ code, writeProgram .java commands = .ok code) ∧
    ∀ m ∈ methodsOf commands, m.InScope := by
  intro say choice commands
  have hhole : ∀ c ∈ commands, c ≠ .hole := by decide
  have hproper : ∀ c ∈ commands, ∀ n ∈ c.preorder, n.Proper := by decide
  have hreads : ∀ f ∈ commands, f.isFunction = true → ∀ n ∈ f.preorder, isReading n = false := by
    decide
  obtain ⟨hwritten, _, hscope⟩ := scanner_in_scope_iff commands hhole
  refine ⟨hhole, hwritten fun c hc n hn hne => ?_, hscope.mpr fun f hf hfunction name hn => ?_⟩
  · exact hproper c hc n (Command.mem_preorder_iff.mpr ⟨hne, hn⟩)
  · have hread := hreads f hf hfunction _ (Command.mem_preorder_iff.mpr ⟨Command.noConfusion, hn⟩)
    cases hread

/-- A function that reads uses a reader that only main makes. -/
theorem scanner_out_of_scope :
    let greet : Command := .define (some "greet") none (.read (some "x"))
    writeProgram .java [greet] = .ok ("import java.util.Scanner;\n\npublic class Main \x7b\n" ++
      "    public static void greet() \x7b\n        x = scanner.nextLine();\n    \x7d\n\n" ++
      "    public static void main(String[] args) \x7b\n" ++
      "        Scanner scanner = new Scanner(System.in);\n    \x7d\n\x7d") ∧
    methodLines 1 greet ∈ methodsOf [greet] ∧
    methodLines 1 greet = [(⟨1, "public static void greet() \x7b"⟩, some greet),
      (⟨2, "x = scanner.nextLine();"⟩, some (.read (some "x"))), (⟨1, "\x7d"⟩, some greet)] ∧
    ¬ Method.InScope (methodLines 1 greet) := by
  intro greet
  refine ⟨by decide +kernel, List.mem_cons_self .., by decide +kernel, fun h => ?_⟩
  exact (inScope_methodLines_iff 1 greet).mp h (some "x") (.slot (List.mem_cons_self ..) .self)

end PlainCode.Code
