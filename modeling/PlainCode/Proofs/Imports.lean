import Mathlib.Data.List.Infix
import Mathlib.Data.List.Nodup
import PlainCode.Proofs.Templates

/-!
# Imports and includes

What a program calls for is found by walking over its commands, and what its code mentions is
decided by the templates that the commands are written with. The two walks have nothing in common.
`Command.Within` says which commands are in a command, without walking, and kinds of commands are
given by their forms (`Reads`, `MakesList` and others), not by a test. So the lines in front of a
program are those that some command in it calls for, at any depth (`fits_javaImports`,
`fits_cppIncludes`).

Only four forms can have a name of a library in the fixed part of their template
(`lacks_template`). Which names these are is one lemma for each line that can stand in front, and
so each name has its line (`covered_java`, `covered_cpp`). The main statement is `imports_cover`.
-/

namespace PlainCode

/-! ## Commands in commands -/

namespace Command

/-- `n.Within c`: the command `n` is `c` itself, or it stands in a slot of it, at any depth. -/
inductive Within (n : Command) : Command → Prop where
  | self : Within n n
  | slot {c child : Command} {slot : Slot} (hslot : (slot, child) ∈ c.slots)
      (h : Within n child) : Within n c

/-- The commands in a slot are walked over. -/
private theorem preorder_subset_of_slot {c child : Command} {slot : Slot}
    (h : (slot, child) ∈ c.slots) : child.preorder ⊆ c.preorder := by
  cases c with
  | branch c thenBody elseBody =>
    rw [slots, List.mem_cons, List.mem_singleton] at h
    rw [preorder]
    rcases h with h | h
    · cases h
      exact List.subset_cons_of_subset _ (List.subset_append_left _ _)
    · cases h
      exact List.subset_cons_of_subset _ (List.subset_append_right _ _)
  | repeatWhile _ body | repeatFor _ _ _ _ body | define _ _ body =>
    cases List.mem_singleton.mp h
    exact List.subset_cons_self _ _
  | _ => cases h

/-- Walking over a command finds the commands in it, and nothing else. -/
theorem mem_preorder_iff {n c : Command} : n ∈ c.preorder ↔ n ≠ .hole ∧ n.Within c := by
  constructor
  · intro h
    induction c with
    | hole => cases h
    | branch c thenBody elseBody ihThen ihElse =>
      rw [preorder, List.mem_cons, List.mem_append] at h
      rcases h with rfl | h | h
      · exact ⟨Command.noConfusion, .self⟩
      · exact ⟨(ihThen h).1, .slot (List.mem_cons_self ..) (ihThen h).2⟩
      · exact ⟨(ihElse h).1, .slot (List.mem_cons_of_mem _ (List.mem_cons_self ..)) (ihElse h).2⟩
    | repeatWhile _ body ih | repeatFor _ _ _ _ body ih | define _ _ body ih =>
      rw [preorder, List.mem_cons] at h
      rcases h with rfl | h
      · exact ⟨Command.noConfusion, .self⟩
      · exact ⟨(ih h).1, .slot (List.mem_cons_self ..) (ih h).2⟩
    | _ =>
      cases List.mem_singleton.mp h
      exact ⟨Command.noConfusion, .self⟩
  · rintro ⟨hne, h⟩
    induction h with
    | self =>
      cases n with
      | hole => exact absurd rfl hne
      | _ => exact List.mem_cons_self ..
    | slot hslot _ ih => exact preorder_subset_of_slot hslot ih

end Command

namespace Code

open PlainCode.Literal (kindOf)
open PlainCode.Text (spaces)

/-- A command of a kind occurs in a program, at any depth. -/
def Occurs (kind : Command → Prop) (commands : List Command) : Prop :=
  ∃ c ∈ commands, ∃ n, n.Within c ∧ kind n

/-- A test that tells the commands of a kind finds out whether there are any in a program. -/
theorem any_everyCommand_iff {test : Command → Bool} {kind : Command → Prop}
    (htest : ∀ c, test c = true ↔ kind c) (hhole : ¬ kind .hole) (commands : List Command) :
    (everyCommand commands).any test = true ↔ Occurs kind commands := by
  rw [List.any_eq_true]
  constructor
  · rintro ⟨n, hn, hkind⟩
    obtain ⟨c, hc, hn⟩ := List.mem_flatMap.mp hn
    exact ⟨c, hc, n, (Command.mem_preorder_iff.mp hn).2, (htest n).mp hkind⟩
  · rintro ⟨c, hc, n, hn, hkind⟩
    have hne : n ≠ .hole := by
      rintro rfl
      exact hhole hkind
    exact ⟨n, List.mem_flatMap.mpr ⟨c, hc, Command.mem_preorder_iff.mpr ⟨hne, hn⟩⟩,
      (htest n).mpr hkind⟩

/-! ## What is called for -/

/-- Commands that read. -/
inductive Reads : Command → Prop where
  | read (name : Leaf) : Reads (.read name)

/-- Commands that read or print. -/
inductive Streams : Command → Prop where
  | print (values : Leaves) : Streams (.print values)
  | read (name : Leaf) : Streams (.read name)

/-- Commands that make a list. -/
inductive MakesList : Command → Prop where
  | createList (name : Leaf) (values : Leaves) : MakesList (.createList name values)

/-- Commands that make a list of some values. -/
inductive FillsList : Command → Prop where
  | createList (name : Leaf) {values : Leaves} (h : values.items ≠ []) :
      FillsList (.createList name values)

/-- Commands that make a list or put something at its end. -/
inductive GrowsList : Command → Prop where
  | createList (name : Leaf) (values : Leaves) : GrowsList (.createList name values)
  | append (list value : Leaf) : GrowsList (.append list value)

/-- Commands that store a text in quotes. -/
inductive StoresText : Command → Prop where
  | create (name : Leaf) {value : Leaf} (h : kindOf value = .string) :
      StoresText (.create name value)
  | assign (name : Leaf) {value : Leaf} (h : kindOf value = .string) :
      StoresText (.assign name value)
  | createList (name : Leaf) {values : Leaves} (h : ∃ v ∈ values.items, kindOf v = .string) :
      StoresText (.createList name values)

theorem reads_iff (c : Command) : isReading c = true ↔ Reads c := by
  constructor
  · intro h
    cases c with
    | read name => exact .read name
    | _ => cases h
  · rintro ⟨⟩
    rfl

private theorem streams_iff (c : Command) : (isPrinting c || isReading c) = true ↔ Streams c := by
  constructor
  · intro h
    cases c with
    | print values => exact .print values
    | read name => exact .read name
    | _ => cases h
  · rintro ⟨⟩
    all_goals rfl

private theorem makesList_iff (c : Command) : isListCreation c = true ↔ MakesList c := by
  constructor
  · intro h
    cases c with
    | createList name values => exact .createList name values
    | _ => cases h
  · rintro ⟨⟩
    rfl

private theorem fillsList_iff (c : Command) : isFilledList c = true ↔ FillsList c := by
  constructor
  · intro h
    cases c with
    | createList name values =>
      rw [isFilledList, Bool.not_eq_true'] at h
      exact .createList name fun hnil => Bool.false_ne_true (h.symm.trans (by rw [hnil]; rfl))
    | _ => cases h
  · rintro ⟨name, hne⟩
    rw [isFilledList, Bool.not_eq_true']
    exact Bool.eq_false_iff.mpr (mt List.isEmpty_iff.mp hne)

private theorem growsList_iff (c : Command) :
    (isListCreation c || isAppending c) = true ↔ GrowsList c := by
  constructor
  · intro h
    cases c with
    | createList name values => exact .createList name values
    | append list value => exact .append list value
    | _ => cases h
  · rintro ⟨⟩
    all_goals rfl

theorem isText_iff {value : Leaf} : isText value = true ↔ kindOf value = .string := beq_iff_eq

private theorem storesText_iff (c : Command) : storesText c = true ↔ StoresText c := by
  constructor
  · intro h
    cases c with
    | create name value => exact .create name (isText_iff.mp h)
    | assign name value => exact .assign name (isText_iff.mp h)
    | createList name values =>
      obtain ⟨v, hv, htext⟩ := List.any_eq_true.mp h
      exact .createList name ⟨v, hv, isText_iff.mp htext⟩
    | _ => cases h
  · rintro (⟨name, h⟩ | ⟨name, h⟩ | ⟨name, v, hv, h⟩)
    · exact isText_iff.mpr h
    · exact isText_iff.mpr h
    · exact List.any_eq_true.mpr ⟨v, hv, isText_iff.mpr h⟩

/-- Lines that can stand in front of a program, each with the commands that call for it. -/
abbrev Front := List (String × (Command → Prop))

/-- The imports of Java programs. -/
def javaFront : Front :=
  [("import java.util.Scanner;", Reads), ("import java.util.ArrayList;", MakesList),
    ("import java.util.Arrays;", FillsList)]

/-- The includes of C++ programs. -/
def cppFront : Front :=
  [("#include <iostream>", Streams), ("#include <vector>", GrowsList),
    ("#include <string>", StoresText)]

/-- Lines in front of a program that are exactly those it calls for, in order and once each. -/
structure Front.Fits (front : Front) (commands : List Command) (texts : List String) : Prop where
  order : texts.Sublist (front.map (·.1))
  once : texts.Nodup
  called : ∀ e ∈ front, (e.1 ∈ texts ↔ Occurs e.2 commands)

section

variable {commands : List Command}

theorem Front.Fits.nil : Front.Fits [] commands [] where
  order := .slnil
  once := List.nodup_nil
  called := fun _ h => absurd h List.not_mem_nil

/-- One more line is in front of the others, if it is called for. -/
theorem Front.Fits.cons {text : String} {kind : Command → Prop} {front : Front}
    {texts : List String} {called : Bool} (hnew : text ∉ front.map (·.1))
    (hcalled : called = true ↔ Occurs kind commands) (h : front.Fits commands texts) :
    Front.Fits ((text, kind) :: front) commands ((if called then [text] else []) ++ texts) := by
  have hnone : text ∉ texts := fun hmem => hnew (h.order.subset hmem)
  cases called with
  | false =>
    refine ⟨h.order.cons _, h.once, List.forall_mem_cons.mpr ⟨?_, h.called⟩⟩
    exact iff_of_false hnone fun hoccurs => Bool.false_ne_true (hcalled.mpr hoccurs)
  | true =>
    refine ⟨h.order.cons_cons _, List.nodup_cons.mpr ⟨hnone, h.once⟩,
      List.forall_mem_cons.mpr ⟨?_, fun e he => ?_⟩⟩
    · exact iff_of_true (List.mem_cons_self ..) (hcalled.mp rfl)
    · have hne : e.1 ≠ text := by
        rintro rfl
        exact hnew (List.mem_map_of_mem he)
      exact (List.mem_cons.trans (or_iff_right hne)).trans (h.called e he)

theorem Front.Fits.single {text : String} {kind : Command → Prop} {called : Bool}
    (hcalled : called = true ↔ Occurs kind commands) :
    Front.Fits [(text, kind)] commands (if called then [text] else []) := by
  rw [← List.append_nil (if called then [text] else [])]
  exact .cons List.not_mem_nil hcalled .nil

end

theorem fits_javaImports (commands : List Command) :
    javaFront.Fits commands (javaImports commands) := by
  have hreads : (everyCommand commands).any isReading = true ↔ Occurs Reads commands :=
    any_everyCommand_iff reads_iff nofun commands
  have hmakes : (everyCommand commands).any isListCreation = true ↔ Occurs MakesList commands :=
    any_everyCommand_iff makesList_iff nofun commands
  have hfills : (everyCommand commands).any isFilledList = true ↔ Occurs FillsList commands :=
    any_everyCommand_iff fillsList_iff nofun commands
  rw [javaImports, List.append_assoc]
  exact .cons (by decide) hreads (.cons (by decide) hmakes (.single hfills))

theorem fits_cppIncludes (commands : List Command) :
    cppFront.Fits commands (cppIncludes commands) := by
  have hstreams : ((everyCommand commands).any fun c => isPrinting c || isReading c) = true ↔
      Occurs Streams commands := any_everyCommand_iff streams_iff nofun commands
  have hgrows : ((everyCommand commands).any fun c => isListCreation c || isAppending c) = true ↔
      Occurs GrowsList commands := any_everyCommand_iff growsList_iff nofun commands
  have hstores : (everyCommand commands).any storesText = true ↔ Occurs StoresText commands :=
    any_everyCommand_iff storesText_iff nofun commands
  rw [cppIncludes, List.append_assoc]
  exact .cons (by decide) hstreams (.cons (by decide) hgrows (.single hstores))

/-! ## What templates mention -/

/-- The template of a command mentions a word: the word is in a part that the form fixes. -/
def Mentions (t : Target) (word : String) (c : Command) : Prop :=
  ∃ text, .fixed text ∈ template t c ∧ word.toList <:+: text.toList

/-- No fixed part has a word in it. -/
def Lacks (word : String) (ps : List Part) : Prop :=
  ∀ text, .fixed text ∈ ps → ¬ word.toList <:+: text.toList

section

variable {word : String}

theorem lacks_nil : Lacks word [] := fun _ h => absurd h List.not_mem_nil

theorem lacks_given {text : String} {ps : List Part} :
    Lacks word (.given text :: ps) ↔ Lacks word ps := by
  simp only [Lacks, List.mem_cons, reduceCtorEq, false_or]

theorem lacks_fixed {text : String} {ps : List Part} :
    Lacks word (.fixed text :: ps) ↔ ¬ word.toList <:+: text.toList ∧ Lacks word ps := by
  simp only [Lacks, List.mem_cons, Part.fixed.injEq, forall_eq_or_imp]

theorem lacks_append {ps qs : List Part} :
    Lacks word (ps ++ qs) ↔ Lacks word ps ∧ Lacks word qs := by
  simp only [Lacks, List.mem_append, or_imp, forall_and]

theorem lacks_partsBetween {between : String} (hbetween : ¬ word.toList <:+: between.toList) :
    ∀ {pss : List (List Part)}, (∀ ps ∈ pss, Lacks word ps) →
      Lacks word (partsBetween between pss)
  | [], _ => lacks_nil
  | [ps], h => h ps (List.mem_singleton.mpr rfl)
  | ps :: qs :: rest, h => by
    rw [List.forall_mem_cons] at h
    exact lacks_append.mpr ⟨h.1, lacks_fixed.mpr ⟨hbetween, lacks_partsBetween hbetween h.2⟩⟩

theorem lacks_valueParts {t : Target} {between : String}
    (hbetween : ¬ word.toList <:+: between.toList) (vs : List Leaf) :
    Lacks word (valueParts t between vs) := by
  refine lacks_partsBetween hbetween (List.forall_mem_map.mpr fun v _ => ?_)
  exact lacks_given.mpr lacks_nil

theorem lacks_paramParts {type : String} (htype : ¬ word.toList <:+: (type ++ " ").toList)
    (hcomma : ¬ word.toList <:+: ", ".toList) (params : List Leaf) :
    Lacks word (paramParts type params) := by
  refine lacks_partsBetween hcomma (List.forall_mem_map.mpr fun p _ => ?_)
  exact lacks_fixed.mpr ⟨htype, lacks_given.mpr lacks_nil⟩

/-- A word with another one in it is in no part that the other one is not in. -/
theorem Mentions.of_infix {t : Target} {c : Command} (h : Mentions t word c) {part : String}
    (hpart : part.toList <:+: word.toList) : ¬ Lacks part (template t c) := by
  obtain ⟨text, htext, hword⟩ := h
  exact fun hlacks => hlacks text htext (hpart.trans hword)

theorem Mentions.not_lacks {t : Target} {c : Command} (h : Mentions t word c) :
    ¬ Lacks word (template t c) := h.of_infix (List.infix_refl _)

end

/-! ## Names that need a line in front -/

/-- Whether the template of a form can have a name in it that needs a line in front. -/
def usesNames : Command → Bool
  | .create .. | .print .. | .read .. | .createList .. => true
  | _ => false

/-- How all names of a language begin that need a line in front. -/
def BeginsNames (t : Target) (word : String) : Prop :=
  t = .java ∧ word = "Array" ∨ t = .cpp ∧ word = "std::"

section

variable {t : Target} {word : String} (h : BeginsNames t word)
include h

theorem lacks_countingParts (name amount : Leaf) {sign : String} (hsign : sign = "+" ∨ sign = "-") :
    Lacks word (countingParts t name amount sign) := by
  unfold countingParts
  rcases h with ⟨rfl, rfl⟩ | ⟨rfl, rfl⟩ <;> rcases hsign with rfl | rfl <;> split <;>
    simp only [lacks_given, lacks_fixed, lacks_nil, and_true] <;> decide

theorem lacks_guardParts {keyword : String} (hkeyword : keyword = "if" ∨ keyword = "while")
    (c : Option Condition) : Lacks word (guardParts t keyword c) := by
  unfold guardParts conditionParts signParts
  rcases h with ⟨rfl, rfl⟩ | ⟨rfl, rfl⟩ <;> rcases hkeyword with rfl | rfl <;>
    simp only [lacks_given, lacks_fixed, lacks_append, lacks_nil, and_true] <;> decide

private theorem lacks_loopParts (counter start stop step : Leaf) :
    Lacks word (loopParts t counter start stop step) := by
  have hstep : ¬ word.toList <:+: (" " ++ (stepParts t counter.shown step).1 ++ " ").toList ∧
      Lacks word (stepParts t counter.shown step).2 := by
    unfold stepParts
    rcases h with ⟨rfl, rfl⟩ | ⟨rfl, rfl⟩ <;> dsimp only <;> split_ifs <;>
      simp only [lacks_given, lacks_fixed, lacks_nil, and_true] <;> decide
  unfold loopParts
  rcases h with ⟨rfl, rfl⟩ | ⟨rfl, rfl⟩ <;>
    simp only [lacks_given, lacks_fixed, lacks_append, lacks_nil, hstep, not_false_eq_true,
      and_true] <;> decide

private theorem lacks_functionParts (function : Leaf) (params : List Leaf) (body : Command) :
    Lacks word (functionParts t function params body) := by
  unfold functionParts
  rcases h with ⟨rfl, rfl⟩ | ⟨rfl, rfl⟩
  · have hparams : Lacks "Array" (paramParts "Object" params) :=
      lacks_paramParts (by decide) (by decide) params
    simp only [lacks_given, lacks_fixed, lacks_append, lacks_nil, hparams, and_true]
    split <;> decide
  · have hparams : Lacks "std::" (paramParts "auto" params) :=
      lacks_paramParts (by decide) (by decide) params
    simp only [lacks_given, lacks_fixed, lacks_append, lacks_nil, hparams, and_true]
    split <;> decide

private theorem lacks_computeParts (operator left right result : Leaf) :
    Lacks word (computeParts t operator left right result) := by
  unfold computeParts calculationParts signParts
  rcases h with ⟨rfl, rfl⟩ | ⟨rfl, rfl⟩ <;> split <;>
    simp only [lacks_given, lacks_fixed, lacks_append, lacks_nil, and_true] <;> decide

/-- All other templates have no such name in them. -/
theorem lacks_template {c : Command} (hc : usesNames c = false) : Lacks word (template t c) := by
  have hopening : Lacks word [.fixed (opening t)] := by
    rcases h with ⟨rfl, rfl⟩ | ⟨rfl, rfl⟩ <;>
      simp only [lacks_fixed, lacks_nil, and_true] <;> decide
  cases c with
  | create | print | read | createList => cases hc
  | increment name amount => exact lacks_countingParts h name amount (Or.inl rfl)
  | decrement name amount => exact lacks_countingParts h name amount (Or.inr rfl)
  | branch c _ _ => exact lacks_append.mpr ⟨lacks_guardParts h (Or.inl rfl) c, hopening⟩
  | repeatWhile c _ => exact lacks_append.mpr ⟨lacks_guardParts h (Or.inr rfl) c, hopening⟩
  | repeatFor counter start stop step _ =>
    exact lacks_append.mpr ⟨lacks_loopParts h counter start stop step, hopening⟩
  | define name params body =>
    exact lacks_append.mpr ⟨lacks_functionParts h name params.items body, hopening⟩
  | compute operator left right result => exact lacks_computeParts h operator left right result
  | call name args =>
    have hargs : Lacks word (valueParts t ", " args.items) := by
      refine lacks_valueParts ?_ _
      rcases h with ⟨rfl, rfl⟩ | ⟨rfl, rfl⟩ <;> decide
    rcases h with ⟨rfl, rfl⟩ | ⟨rfl, rfl⟩ <;>
      simp only [template, lacks_given, lacks_fixed, lacks_append, lacks_nil, hargs, and_true] <;>
      decide
  | giveBack value =>
    rcases h with ⟨rfl, rfl⟩ | ⟨rfl, rfl⟩ <;> cases value <;>
      simp only [template, backParts, lacks_given, lacks_fixed, lacks_nil, and_true] <;> decide
  | _ =>
    rcases h with ⟨rfl, rfl⟩ | ⟨rfl, rfl⟩ <;>
      simp only [template, appendingParts, lacks_given, lacks_fixed, lacks_nil, and_true] <;> decide

end

/-- Only a new list has the name of a collection in Java. -/
theorem makesList_of_mentions {word : String} {c : Command} (h : Mentions .java word c)
    (hword : "Array".toList <:+: word.toList) : MakesList c := by
  by_contra hlist
  refine h.of_infix hword ?_
  cases c with
  | createList name values => exact absurd (.createList name values) hlist
  | create name value =>
    simp only [template, creationParts, lacks_given, lacks_fixed, lacks_append, lacks_nil, and_true]
    cases kindOf value <;> decide
  | print vs =>
    have hvalues : Lacks "Array" (valueParts .java " + \" \" + " vs.items) :=
      lacks_valueParts (by decide) _
    unfold template printingParts
    simp only [lacks_fixed, lacks_append, lacks_nil, hvalues, and_true]
    decide
  | read name =>
    simp only [template, readingParts, lacks_given, lacks_fixed, lacks_nil, and_true]
    decide
  | _ => exact lacks_template (Or.inl ⟨rfl, rfl⟩) rfl

/-- Only a list with values has its values written by `Arrays`. -/
private theorem fillsList_of_mentions {c : Command} (h : Mentions .java "Arrays" c) :
    FillsList c := by
  have hlist := makesList_of_mentions h (by decide)
  cases hlist with
  | createList name vs =>
    by_contra hfills
    have hnil : vs.items = [] := by_contra fun hne => hfills (.createList name hne)
    refine h.not_lacks ?_
    simp only [template, listParts, hnil, List.isEmpty_nil, if_true, lacks_given, lacks_fixed,
      lacks_append, lacks_nil, and_true]
    decide

section

variable {word : String} {c : Command}

/-- A template in C++ with a name of the library is one of four. -/
theorem usesNames_of_mentions (h : Mentions .cpp word c) (hword : "std::".toList <:+: word.toList) :
    usesNames c = true := by
  by_contra huses
  exact h.of_infix hword (lacks_template (Or.inr ⟨rfl, rfl⟩) (Bool.not_eq_true _ ▸ huses))

theorem lacks_creationParts (name value : Leaf)
    (htype : ¬ word.toList <:+: (Target.cppType (kindOf value) ++ " ").toList)
    (hfixed : ∀ text ∈ [" = ", ";"], ¬ word.toList <:+: text.toList) :
    Lacks word (creationParts .cpp name value) := by
  simp only [List.forall_mem_cons] at hfixed
  simp only [creationParts, lacks_given, lacks_fixed, lacks_append, lacks_nil, htype, hfixed,
    not_false_eq_true, and_true]

theorem lacks_printingParts (vs : List Leaf)
    (hfixed : ∀ text ∈ ["std::cout << ", " << \" \" << ", " << std::endl;"],
      ¬ word.toList <:+: text.toList) : Lacks word (printingParts .cpp vs) := by
  simp only [List.forall_mem_cons] at hfixed
  unfold printingParts
  simp only [lacks_fixed, lacks_append, lacks_nil, lacks_valueParts hfixed.2.1, hfixed,
    not_false_eq_true, and_true]

theorem lacks_readingParts (name : Leaf)
    (hfixed : ∀ text ∈ ["std::cin >> ", ";"], ¬ word.toList <:+: text.toList) :
    Lacks word (readingParts .cpp name) := by
  simp only [List.forall_mem_cons] at hfixed
  simp only [readingParts, lacks_given, lacks_fixed, lacks_nil, hfixed, not_false_eq_true, and_true]

theorem lacks_listParts (name : Leaf) (vs : List Leaf)
    (htype : ¬ word.toList <:+: ("std::vector<" ++ Target.cppType (elementKind vs) ++ "> ").toList)
    (hfixed : ∀ text ∈ [", ", "std::vector<int> ", ";", "std::vector ", " = \x7b", "\x7d;"],
      ¬ word.toList <:+: text.toList) : Lacks word (listParts .cpp name vs) := by
  simp only [List.forall_mem_cons] at hfixed
  unfold listParts
  dsimp only
  split_ifs <;>
    simp only [lacks_given, lacks_fixed, lacks_append, lacks_nil, lacks_valueParts hfixed.1, hfixed,
      htype, not_false_eq_true, and_true]

/-- Only printing and reading have the names of the streams. -/
theorem streams_of_mentions (h : Mentions .cpp word c)
    (hword : word ∈ ["std::cout", "std::cin", "std::endl"]) : Streams c := by
  have huses := usesNames_of_mentions h ((by decide : ∀ name ∈ ["std::cout", "std::cin",
    "std::endl"], "std::".toList <:+: name.toList) word hword)
  simp only [List.mem_cons, List.not_mem_nil, or_false] at hword
  cases c with
  | print values => exact .print values
  | read name => exact .read name
  | create name value =>
    refine absurd (lacks_creationParts name value ?_ ?_) h.not_lacks
    · rcases hword with rfl | rfl | rfl <;> cases kindOf value <;> decide
    · rcases hword with rfl | rfl | rfl <;> decide
  | createList name vs =>
    refine absurd (lacks_listParts name vs.items ?_ ?_) h.not_lacks
    · rcases hword with rfl | rfl | rfl <;> cases elementKind vs.items <;> decide
    · rcases hword with rfl | rfl | rfl <;> decide
  | _ => cases huses

/-- Only a new list has the name of a collection in C++. -/
private theorem makesList_of_mentions_vector (h : Mentions .cpp "std::vector" c) : MakesList c := by
  have huses := usesNames_of_mentions h (by decide)
  cases c with
  | createList name values => exact .createList name values
  | print vs => exact absurd (lacks_printingParts vs.items (by decide)) h.not_lacks
  | read name => exact absurd (lacks_readingParts name (by decide)) h.not_lacks
  | create name value =>
    refine absurd (lacks_creationParts name value ?_ (by decide)) h.not_lacks
    cases kindOf value <;> decide
  | _ => cases huses

/-- A list of values of one kind has a value of that kind, unless it has none at all. -/
private theorem exists_text_of_elementKind {vs : List Leaf} (h : elementKind vs = .string) :
    ∃ v ∈ vs, kindOf v = .string := by
  cases vs with
  | nil => cases h
  | cons v vs =>
    rw [elementKind] at h
    split at h
    next => exact ⟨v, List.mem_cons_self .., h⟩
    next => cases h

/-- Only a command that stores a text has the name of its type in C++. -/
private theorem storesText_of_mentions (h : Mentions .cpp "std::string" c) : StoresText c := by
  have huses := usesNames_of_mentions h (by decide)
  cases c with
  | print vs => exact absurd (lacks_printingParts vs.items (by decide)) h.not_lacks
  | read name => exact absurd (lacks_readingParts name (by decide)) h.not_lacks
  | create name value =>
    by_contra htext
    have hkind : kindOf value ≠ .string := fun hkind => htext (.create name hkind)
    refine h.not_lacks (lacks_creationParts name value ?_ (by decide))
    cases hvalue : kindOf value with
    | string => exact absurd hvalue hkind
    | _ => decide
  | createList name vs =>
    by_contra htext
    have hkind : elementKind vs.items ≠ .string :=
      fun hkind => htext (.createList name (exists_text_of_elementKind hkind))
    refine h.not_lacks (lacks_listParts name vs.items ?_ (by decide))
    cases hvalues : elementKind vs.items with
    | string => exact absurd hvalues hkind
    | _ => decide
  | _ => cases huses

end

/-! ## Programs -/

/-- The names that the code of a program has from its templates, each with the line in front that
it needs. -/
def neededNames : Target → List (String × String)
  | .python => []
  | .java =>
    [("ArrayList", "import java.util.ArrayList;"), ("Arrays", "import java.util.Arrays;")]
  | .cpp =>
    [("std::cout", "#include <iostream>"), ("std::cin", "#include <iostream>"),
      ("std::endl", "#include <iostream>"), ("std::vector", "#include <vector>"),
      ("std::string", "#include <string>")]

/-- Every name that a command of a program has from its template, at any depth, has the line in
front that it needs. -/
def Covered (t : Target) (commands : List Command) (texts : List String) : Prop :=
  ∀ e ∈ neededNames t, ∀ c ∈ commands, ∀ n : Command, n.Within c → Mentions t e.1 n → e.2 ∈ texts

theorem covered_java {commands : List Command} {texts : List String}
    (h : javaFront.Fits commands texts) : Covered .java commands texts := by
  have hcalled := h.called
  simp only [javaFront, List.forall_mem_cons] at hcalled
  obtain ⟨_, hlist, harrays, _⟩ := hcalled
  intro e he c hc n hn hmentions
  simp only [neededNames, List.mem_cons, List.not_mem_nil, or_false] at he
  rcases he with rfl | rfl
  · exact hlist.mpr ⟨c, hc, n, hn, makesList_of_mentions hmentions (by decide)⟩
  · exact harrays.mpr ⟨c, hc, n, hn, fillsList_of_mentions hmentions⟩

theorem covered_cpp {commands : List Command} {texts : List String}
    (h : cppFront.Fits commands texts) : Covered .cpp commands texts := by
  have hcalled := h.called
  simp only [cppFront, List.forall_mem_cons] at hcalled
  obtain ⟨hstream, hvector, hstring, _⟩ := hcalled
  intro e he c hc n hn hmentions
  simp only [neededNames, List.mem_cons, List.not_mem_nil, or_false] at he
  rcases he with rfl | rfl | rfl | rfl | rfl
  · exact hstream.mpr ⟨c, hc, n, hn, streams_of_mentions hmentions (by decide)⟩
  · exact hstream.mpr ⟨c, hc, n, hn, streams_of_mentions hmentions (by decide)⟩
  · exact hstream.mpr ⟨c, hc, n, hn, streams_of_mentions hmentions (by decide)⟩
  · refine hvector.mpr ⟨c, hc, n, hn, ?_⟩
    cases makesList_of_mentions_vector hmentions with
    | createList name values => exact .createList name values
  · exact hstring.mpr ⟨c, hc, n, hn, storesText_of_mentions hmentions⟩

/-- A program that is written is made of its commands. -/
theorem eq_render_of_writeProgram {t : Target} {commands : List Command} {code : String}
    (h : writeProgram t commands = .ok code) : code = render (programLines t commands) := by
  rw [writeProgram] at h
  split at h
  next => cases h
  next => exact (Except.ok.inj h).symm

/-- Programs whose commands have no unknown form or operator at any depth are written. -/
theorem exists_writeProgram {commands : List Command}
    (h : ∀ c ∈ commands, ∀ n : Command, n.Within c → n ≠ .hole → n.Proper) (t : Target) :
    ∃ code, writeProgram t commands = .ok code := by
  refine ⟨_, writeProgram_of_known (fun c hc => unknownOperator?_of_proper fun n hn => ?_) t⟩
  obtain ⟨hne, hwithin⟩ := Command.mem_preorder_iff.mp hn
  exact h c hc n hwithin hne

/-- **Imports and includes are what the commands of a program call for.** The lines of a command
begin with what its template says. A program of proper commands is written. In front of a Java
program are the imports, each exactly if some command calls for it, at any depth, and main begins
with the line that makes the reader exactly if it is imported. In front of a C++ program are the
includes, in the same way. Every name that a command has from its template has the import or the
include that it needs. -/
theorem imports_cover (commands : List Command) (hne : commands ≠ [])
    (hhole : ∀ c ∈ commands, c ≠ .hole) :
    (∀ t, ∀ c : Command, c ≠ .hole → ∃ rest, linesOf t c = ofText (textOf (template t c)) ++ rest) ∧
    ((∀ c ∈ commands, ∀ n : Command, n.Within c → n ≠ .hole → n.Proper) →
      ∀ t, ∃ code, writeProgram t commands = .ok code) ∧
    (∀ code, writeProgram .java commands = .ok code → ∃ imports,
      javaFront.Fits commands imports ∧ Covered .java commands imports ∧
      Text.lines code = javaFrame imports
        (if "import java.util.Scanner;" ∈ imports then
          [spaces 8 ++ "Scanner scanner = new Scanner(System.in);"] else [])
        ((functionLines .java 1 (functionsOf commands)).map Line.render)
        ((statementLines .java 2 (statementsOf commands)).map Line.render)) ∧
    ∀ code, writeProgram .cpp commands = .ok code → ∃ includes,
      cppFront.Fits commands includes ∧ Covered .cpp commands includes ∧
      Text.lines code = cppFrame includes
        ((functionLines .cpp 0 (functionsOf commands)).map Line.render)
        ((statementLines .cpp 1 (statementsOf commands)).map Line.render) := by
  refine ⟨fun t c hc => linesOf_template t hc, exists_writeProgram, fun code hcode => ?_,
    fun code hcode => ?_⟩
  · have hfits := fits_javaImports commands
    have hscanner := hfits.called _ (List.mem_cons_self ..)
    rw [← any_everyCommand_iff reads_iff nofun] at hscanner
    refine ⟨_, hfits, covered_java hfits, ?_⟩
    rw [eq_render_of_writeProgram hcode, lines_javaFrame hhole hne, scannerTexts]
    simp only [hscanner]
  · have hfits := fits_cppIncludes commands
    refine ⟨_, hfits, covered_cpp hfits, ?_⟩
    rw [eq_render_of_writeProgram hcode, lines_cppFrame hhole hne]

/-- A program that reads in a function, and makes lists in a loop and behind it. -/
theorem imports_cover_nested :
    let ask : Command := .define (some "ask") none
      (.branch (some ⟨some "x", some "less", some "2"⟩) .hole (.read (some "x")))
    let collect : Command := .repeatWhile (some ⟨some "x", some "equal", some "1"⟩)
      (.createList (some "a") (some [some "\"b\"", some "\"c\""]))
    let commands := [ask, collect, .createList (some "d") none]
    commands ≠ [] ∧ (∀ c ∈ commands, c ≠ .hole) ∧
    (∃ code imports, writeProgram .java commands = .ok code ∧
      "import java.util.Scanner;" ∈ imports ∧ "import java.util.Arrays;" ∈ imports ∧
      Text.lines code = javaFrame imports [spaces 8 ++ "Scanner scanner = new Scanner(System.in);"]
        ((functionLines .java 1 [ask]).map Line.render)
        ((statementLines .java 2 [collect, .createList (some "d") none]).map Line.render)) ∧
    ∃ code includes, writeProgram .cpp commands = .ok code ∧ "#include <string>" ∈ includes ∧
      Text.lines code = cppFrame includes ((functionLines .cpp 0 [ask]).map Line.render)
        ((statementLines .cpp 1 [collect, .createList (some "d") none]).map Line.render) := by
  intro ask collect commands
  have hne : commands ≠ [] := List.cons_ne_nil _ _
  have hhole : ∀ c ∈ commands, c ≠ .hole := by decide
  have hproper : ∀ c ∈ commands, ∀ n ∈ c.preorder, n.Proper := by decide
  obtain ⟨_, hwritten, hjava, hcpp⟩ := imports_cover commands hne hhole
  have hwritten := hwritten fun c hc n hn hne =>
    hproper c hc n (Command.mem_preorder_iff.mpr ⟨hne, hn⟩)
  have hlist :
      Command.Within (.createList (some "a") (some [some "\"b\"", some "\"c\""])) collect :=
    .slot (List.mem_cons_self ..) .self
  refine ⟨hne, hhole, ?_, ?_⟩
  · obtain ⟨code, hcode⟩ := hwritten .java
    obtain ⟨imports, hfits, _, hlines⟩ := hjava code hcode
    have hscanner : "import java.util.Scanner;" ∈ imports :=
      (hfits.called ("import java.util.Scanner;", Reads) (List.mem_cons_self ..)).mpr
        ⟨ask, List.mem_cons_self .., .read (some "x"), .slot (List.mem_cons_self ..)
          (.slot (List.mem_cons_of_mem _ (List.mem_cons_self ..)) .self), .read _⟩
    rw [if_pos hscanner] at hlines
    refine ⟨code, imports, hcode, hscanner, ?_, hlines⟩
    exact (hfits.called ("import java.util.Arrays;", FillsList)
      (List.mem_cons_of_mem _ (List.mem_cons_of_mem _ (List.mem_cons_self ..)))).mpr
      ⟨collect, List.mem_cons_of_mem _ (List.mem_cons_self ..), _, hlist,
        .createList _ (List.cons_ne_nil _ _)⟩
  · obtain ⟨code, hcode⟩ := hwritten .cpp
    obtain ⟨includes, hfits, _, hlines⟩ := hcpp code hcode
    refine ⟨code, includes, hcode, ?_, hlines⟩
    exact (hfits.called ("#include <string>", StoresText)
      (List.mem_cons_of_mem _ (List.mem_cons_of_mem _ (List.mem_cons_self ..)))).mpr
      ⟨collect, List.mem_cons_of_mem _ (List.mem_cons_self ..), _, hlist,
        .createList _ ⟨some "\"b\"", List.mem_cons_self .., by decide⟩⟩

end Code

end PlainCode
