import TestSkeleton.Proofs.Generation.Extending
import TestSkeleton.Proofs.TestFile.Inserting
import TestSkeleton.Proofs.Writers.Sharing
import Mathlib.Data.List.DropRight
import Mathlib.Data.List.Induction

/-!
# Calls one after another

What a test file holds after some calls that write a case, each of which
begins when the one before it has ended.

* `inSequence` is the text, told from the calls alone.
* `InTurn` are the runs of the calls, and `InTurn.fileAt` says that they lead
  to that text.
* `stacked` is the text in closed form: each case stands in it once, in the
  order of the calls (`inSequence_stacked`).
-/

namespace TestSkeleton

/-! ## Trailing blanks -/

namespace Text

theorem trimEnd_append (cs ds : List Char) :
    trimEnd (cs ++ ds) = if trimEnd ds = [] then trimEnd cs else cs ++ trimEnd ds := by
  rw [trimEnd, trimEnd, trimEnd, dropEndWhile, dropEndWhile, dropEndWhile, List.reverse_append,
    List.dropWhile_append]
  cases List.dropWhile isBlank ds.reverse with
  | nil => simp
  | cons d rest => simp

@[simp] theorem trimEnd_trimEnd (cs : List Char) : trimEnd (trimEnd cs) = trimEnd cs :=
  List.rdropWhile_idempotent isBlank cs

theorem trimEnd_lineEnd (cs : List Char) : trimEnd (cs ++ ['\n']) = trimEnd cs := by
  rw [trimEnd_append, if_pos]
  rfl

end Text

namespace Writers

open Files
open Files.Action (Runs)
open Generation (WriteOutcome Sees Decides)
open Memory (Frames KeepsApart)
open TestFile (BraceNeutral IsFront IsTail)

variable {calls : Nat → Call} {log : List Nat} {i : Nat} {text? last? : Option String}

/-! ## The text -/

/-- What is at a path after some calls, one after another. -/
def inSequence (calls : Nat → Call) (text? : Option String) (log : List Nat) :
    Except TestFile.Malformed (Option String) :=
  log.foldlM (fun text? i => ((calls i).write text?).map some) text?

@[simp] theorem inSequence_nil (calls : Nat → Call) (text? : Option String) :
    inSequence calls text? [] = .ok text? := rfl

theorem inSequence_append (calls : Nat → Call) (text? : Option String) (log later : List Nat) :
    inSequence calls text? (log ++ later) =
      (inSequence calls text? log).bind fun text? => inSequence calls text? later := by
  rw [inSequence, List.foldlM_append]
  rfl

theorem inSequence_cons {text : String} (h : (calls i).write text? = .ok text) :
    inSequence calls text? (i :: log) = inSequence calls (some text) log := by
  rw [inSequence, List.foldlM_cons, h]
  rfl

theorem inSequence_concat {text : String} (h : inSequence calls text? log = .ok last?)
    (hwrite : (calls i).write last? = .ok text) :
    inSequence calls text? (log ++ [i]) = .ok (some text) := by
  rw [inSequence_append, h]
  exact inSequence_cons hwrite

/-- After a call there is a file. -/
theorem eq_nil_of_inSequence (h : inSequence calls text? log = .ok none) :
    text? = none ∧ log = [] := by
  induction log generalizing text? with
  | nil =>
    cases h
    exact ⟨rfl, rfl⟩
  | cons i log ih =>
    cases hwrite : (calls i).write text? with
    | error malformed =>
      rw [inSequence, List.foldlM_cons, hwrite] at h
      cases h
    | ok text =>
      rw [inSequence_cons hwrite] at h
      cases (ih h).1

/-! ## Texts that take cases -/

/-- Whether a case can be added to a text. -/
def Accepts (text : String) : Prop :=
  ∃ offset, TestFile.insertionPoint text.toList = .ok offset

/-- Whether a call writes what takes further cases. -/
structure Call.IsSound (call : Call) : Prop where
  document : Accepts call.document
  caseText : BraceNeutral call.caseText.toList

theorem accepts_iff {text : String} :
    Accepts text ↔ ∃ front back, text.toList = front ++ '\x7d' :: back ∧ IsFront front ∧
      IsTail back := by
  constructor
  · rintro ⟨offset, hpoint⟩
    obtain ⟨front, back, htext, -, hfront, hback⟩ := TestFile.insertionPoint_eq_ok_iff.1 hpoint
    exact ⟨front, back, htext, hfront, hback⟩
  · rintro ⟨front, back, htext, hfront, hback⟩
    exact ⟨_, TestFile.insertionPoint_eq_ok_iff.2 ⟨front, back, htext, rfl, hfront, hback⟩⟩

/-- A call that finds a text adds its case to it. -/
theorem write_some {call : Call} {text : String} {front back : List Char}
    (htext : text.toList = front ++ '\x7d' :: back) (hfront : IsFront front)
    (hback : IsTail back) :
    call.write (some text) = .ok (String.ofList (Text.trimEnd front ++ ['\n', '\n'] ++
      call.caseText.toList ++ ['\n'] ++ '\x7d' :: back)) := by
  rw [Call.write, htext, TestFile.insertCase_eq hfront hback]
  rfl

/-- A sound call adds a case to a text that takes cases, and the next text
takes cases. -/
theorem Call.IsSound.write {call : Call} (h : call.IsSound)
    (htext : ∀ text, text? = some text → Accepts text) :
    ∃ text, call.write text? = .ok text ∧ Accepts text := by
  cases text? with
  | none => exact ⟨call.document, rfl, h.document⟩
  | some text =>
    obtain ⟨front, back, hcut, hfront, hback⟩ := accepts_iff.1 (htext text rfl)
    have hnext := h.caseText.insert hfront
    exact ⟨_, write_some hcut hfront hback,
      accepts_iff.2 ⟨_, back, String.toList_ofList, hnext, hback⟩⟩

/-! ## The text in closed form -/

/-- How a case stands in a text to which more was added. -/
def block (caseText : List Char) : List Char :=
  if Text.trimEnd caseText = [] then [] else '\n' :: '\n' :: Text.trimEnd caseText

/-- The front of a text with some cases added to it. -/
def stacked (front : List Char) (cases : List (List Char)) : List Char :=
  match cases.getLast? with
  | none => front
  | some last =>
    Text.trimEnd front ++ cases.dropLast.flatMap block ++ ['\n', '\n'] ++ last ++ ['\n']

theorem stacked_concat (front : List Char) (cases : List (List Char)) (caseText : List Char) :
    stacked front (cases ++ [caseText]) =
      Text.trimEnd front ++ cases.flatMap block ++ ['\n', '\n'] ++ caseText ++ ['\n'] := by
  rw [stacked, List.getLast?_concat, List.dropLast_concat]

/-- Only blanks are lost from a case that was added. -/
theorem trimEnd_stacked (front : List Char) (cases : List (List Char)) :
    Text.trimEnd (stacked front cases) = Text.trimEnd front ++ cases.flatMap block := by
  induction cases using List.reverseRecOn with
  | nil => simp [stacked]
  | append_singleton cases caseText ih =>
    rw [stacked_concat, Text.trimEnd_lineEnd, ← ih, List.flatMap_append, ← List.append_assoc, ← ih,
      Text.trimEnd_append]
    by_cases hblank : Text.trimEnd caseText = []
    · have hends : Text.trimEnd ['\n', '\n'] = [] := by rfl
      rw [if_pos hblank, Text.trimEnd_append, if_pos hends, Text.trimEnd_trimEnd]
      simp [block, hblank]
    · simp [block, hblank]

/-- Adding one more case. -/
theorem stacked_append (front : List Char) (cases : List (List Char)) (caseText : List Char) :
    stacked front (cases ++ [caseText]) =
      Text.trimEnd (stacked front cases) ++ ['\n', '\n'] ++ caseText ++ ['\n'] := by
  rw [stacked_concat, trimEnd_stacked]

/-- Calls that follow each other stack their cases in front of the same
brace. -/
theorem inSequence_stacked (hsound : ∀ i, (calls i).IsSound) {text : String}
    {front back : List Char} (htext : text.toList = front ++ '\x7d' :: back)
    (hfront : IsFront front) (hback : IsTail back) (log : List Nat) :
    ∃ last, inSequence calls (some text) log = .ok (some last) ∧
      last.toList = stacked front (log.map fun i => (calls i).caseText.toList) ++ '\x7d' :: back ∧
      IsFront (stacked front (log.map fun i => (calls i).caseText.toList)) := by
  induction log using List.reverseRecOn with
  | nil => exact ⟨text, rfl, htext, hfront⟩
  | append_singleton log i ih =>
    obtain ⟨last, hlast, hcut, hstacked⟩ := ih
    refine ⟨_, inSequence_concat hlast (write_some hcut hstacked hback), ?_, ?_⟩
    · rw [String.toList_ofList, List.map_append]
      exact congrArg (· ++ _) (stacked_append _ _ _).symm
    · rw [List.map_append]
      show IsFront (stacked _ (_ ++ [_]))
      rw [stacked_append]
      exact (hsound i).caseText.insert hstacked

/-- A text that some calls lead to consists of the text that was there first,
and of the cases of the calls that added to it. -/
theorem exists_stacked (hsound : ∀ i, (calls i).IsSound)
    (hbase : ∀ text, text? = some text → Accepts text) {last : String}
    (h : inSequence calls text? log = .ok (some last)) :
    ∃ (first : String) (later : List Nat) (front back : List Char),
      ((text? = some first ∧ log = later) ∨
        text? = none ∧ ∃ i, log = i :: later ∧ first = (calls i).document) ∧
      first.toList = front ++ '\x7d' :: back ∧
      last.toList = stacked front (later.map fun i => (calls i).caseText.toList) ++
        '\x7d' :: back := by
  have hadd {first : String} {later : List Nat} (hfirst : Accepts first)
      (hlater : inSequence calls (some first) later = .ok (some last)) :
      ∃ front back : List Char, first.toList = front ++ '\x7d' :: back ∧
        last.toList = stacked front (later.map fun i => (calls i).caseText.toList) ++
          '\x7d' :: back := by
    obtain ⟨front, back, hcut, hfront, hback⟩ := accepts_iff.1 hfirst
    obtain ⟨last', hlast', hstacked, -⟩ := inSequence_stacked hsound hcut hfront hback later
    rw [hlater] at hlast'
    cases hlast'
    exact ⟨front, back, hcut, hstacked⟩
  cases text? with
  | some first =>
    obtain ⟨front, back, hcut, hstacked⟩ := hadd (hbase first rfl) h
    exact ⟨first, log, front, back, Or.inl ⟨rfl, rfl⟩, hcut, hstacked⟩
  | none =>
    cases log with
    | nil => cases h
    | cons i later =>
      rw [inSequence_cons rfl] at h
      obtain ⟨front, back, hcut, hstacked⟩ := hadd (hsound i).document h
      exact ⟨_, later, front, back, Or.inr ⟨rfl, i, rfl, rfl⟩, hcut, hstacked⟩

/-! ## The runs -/

/-- Some calls that succeed, one after another.  In a call any request may
fail but a look at the path. -/
inductive InTurn (lockDir path : String) (calls : Nat → Call) :
    Memory → List Nat → Memory → Prop where
  | nil (memory : Memory) : InTurn lockDir path calls memory [] memory
  | cons {memory between after : Memory} {i : Nat} {later : List Nat} {outcome : WriteOutcome}
      (hcall : Runs Sees memory ((calls i).action lockDir path) (.ok outcome) between)
      (hlater : InTurn lockDir path calls between later after) :
      InTurn lockDir path calls memory (i :: later) after

section

variable {lockDir path : String} {memory after : Memory}

/-- A call that is carried out without a failure. -/
theorem InTurn.cons_run (h : (memory.run ((calls i).action lockDir path)).1.isOk = true)
    (hlater : InTurn lockDir path calls (memory.run ((calls i).action lockDir path)).2 log after) :
    InTurn lockDir path calls memory (i :: log) after := by
  have hruns := Action.runs_run Generation.sees_serve ((calls i).action lockDir path) memory
  generalize (memory.run ((calls i).action lockDir path)).1 = result at h hruns
  cases result with
  | error failure => cases h
  | ok outcome => exact .cons hruns hlater

/-- A call that succeeds writes the text that it makes of what is there. -/
theorem fileAt_of_runs {call : Call} {outcome : WriteOutcome}
    (hwell : memory.tree.WellFormed)
    (hapart : KeepsApart memory path (StatePaths.lockFile lockDir path))
    (hfile : FileAt memory path text?)
    (h : Runs Sees memory (call.action lockDir path) (.ok outcome) after) :
    ∃ text, call.write text? = .ok text ∧ FileAt after path (some text) ∧
      after.tree.WellFormed ∧ KeepsApart after path (StatePaths.lockFile lockDir path) := by
  rw [Call.action] at h
  rcases Generation.runs_writeCase Generation.sees_refines h with
    ⟨failure, hfailed, -⟩ | ⟨outcome', text, -, hdecides, hwritten⟩
  · cases hfailed
  have hchanges := hdecides.frames.changes
  refine ⟨text, ?_, hwritten, hchanges.wellFormed hwell, hapart.later hchanges⟩
  have hlooked {looked : Memory}
      (hframes : Frames [] [StatePaths.lockFile lockDir path] memory looked) :
      FileAt looked path text? := by
    refine hfile.frames hframes fun other hother => ?_
    rw [List.nil_append, List.mem_singleton] at hother
    rw [hother]
    exact hapart.later hframes.changes
  cases hdecides with
  | created hframes _ hmissing =>
    cases text? with
    | none => rfl
    | some held =>
      have hcontains := hmissing (Generation.discerning_of_refines (.refl Sees))
      rw [(hlooked hframes).contains] at hcontains
      cases hcontains
  | @appended looked front text hframes _ hread hinsert =>
    have hfront : text? = some front := by
      refine (hlooked hframes).of_read (hframes.changes.wellFormed hwell) ?_
      rw [hread, textOf_text]
    rw [hfront, Call.write, hinsert]
    exact congrArg Except.ok String.ofList_toList

/-- Calls that succeed one after another lead to the text that is told from
them. -/
theorem InTurn.fileAt (h : InTurn lockDir path calls memory log after)
    (hwell : memory.tree.WellFormed)
    (hapart : KeepsApart memory path (StatePaths.lockFile lockDir path))
    (hfile : FileAt memory path text?) :
    ∃ last?, inSequence calls text? log = .ok last? ∧ FileAt after path last? := by
  induction h generalizing text? with
  | nil memory => exact ⟨text?, rfl, hfile⟩
  | cons hcall _ ih =>
    obtain ⟨text, hwrite, hwritten, hwell', hapart'⟩ := fileAt_of_runs hwell hapart hfile hcall
    rw [inSequence_cons hwrite]
    exact ih hwell' hapart' hwritten

end

end Writers

end TestSkeleton
