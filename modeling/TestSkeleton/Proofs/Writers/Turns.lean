import TestSkeleton.Generation.TestStore
import TestSkeleton.Proofs.Files.Protocol
import TestSkeleton.Proofs.Preferences.Turns

/-!
# The turns of a writer

What a call does that writes a case, told from its requests alone: it takes
the lock, looks whether there is a file and what is in it, writes the next
text beside the file, renames it over the file and gives the lock back.

* `Call.write` is the text that a call makes of what it finds.
* `Stage` is how far a call has come, and `protocol` follows it from one
  request to the next.
* `obeys_action` says that a call makes only requests that are due, and
  `Ends` what its result says about what it has done.
-/

namespace TestSkeleton.Writers

open Files
open Generation (TestStore WriteOutcome)

/-! ## Calls -/

/-- One call that writes a case.  All calls share a directory for locks and
the path of the test file, and each has the rest for itself. -/
structure Call where
  preferences : Preferences.Store := .memory {}
  timeoutMs : Nat := Preferences.defaultTimeoutMs
  document : String
  caseName : String
  caseText : String

namespace Call

/-- What a call does. -/
def action (lockDir path : String) (call : Call) : Action (Except Failure WriteOutcome) :=
  TestStore.writeCase ⟨call.preferences, lockDir, call.timeoutMs⟩ path call.document
    call.caseName call.caseText

/-- The text that a call makes of what it finds: nothing, or a text. -/
def write (call : Call) : Option String → Except TestFile.Malformed String
  | none => .ok call.document
  | some text => (TestFile.insertCase text.toList call.caseText.toList).map String.ofList

end Call

/-- The outcome of a call that succeeds. -/
def outcomeFor : Option String → WriteOutcome
  | none => .created
  | some _ => .appended

/-! ## Phases -/

/-- What a call has done under the lock. -/
inductive Stage where
  | before
  | locked
  /-- Something is at the path. -/
  | present
  /-- Nothing is at the path, or a file with a text. -/
  | found (text? : Option String)
  /-- The next text is in a file beside the test file. -/
  | written (text? : Option String) (temporary : String)
  | replaced (text? : Option String)
  /-- The lock is given back. -/
  | after (last : Stage)

namespace Stage

/-- Whether the lock is held. -/
def isWorking : Stage → Bool
  | .before => false
  | .after _ => false
  | _ => true

/-- What a call found before it replaced the file. -/
def replaced? : Stage → Option (Option String)
  | .replaced text? => some text?
  | .after last => last.replaced?
  | _ => none

/-- What a call found and has not written to. -/
def found? : Stage → Option (Option String)
  | .found text? => some text?
  | .after last => last.found?
  | _ => none

end Stage

/-- How far a call is. -/
structure Phase where
  /-- The ticket of the lock that was taken. -/
  ticket? : Option Nat := none
  stage : Stage := .before

namespace Phase

/-- The phase after a request and its reply. -/
def next (phase : Phase) : (request : Request) → Reply request → Phase
  | .lock _ _ _, reply =>
    match (reply : Except LockFault Nat) with
    | .ok ticket => ⟨some ticket, .locked⟩
    | .error _ => phase
  | .exists _, reply =>
    match phase.stage, (reply : Bool) with
    | .locked, true => { phase with stage := .present }
    | .locked, false => { phase with stage := .found none }
    | _, _ => phase
  | .read _, reply =>
    match phase.stage, Preferences.textOf reply with
    | .present, .ok text => { phase with stage := .found (some text) }
    | _, _ => phase
  | .write path _, reply =>
    match phase.stage, (reply : Except Fault Unit) with
    | .found text?, .ok () => { phase with stage := .written text? path }
    | _, _ => phase
  | .rename _ _, reply =>
    match phase.stage, (reply : Except Fault Unit) with
    | .written text? _, .ok () => { phase with stage := .replaced text? }
    | .written text? _, .error _ => { phase with stage := .found text? }
    | _, _ => phase
  | .release _, _ => { phase with stage := .after phase.stage }
  | _, _ => phase

/-- Whether a request of a call is due. -/
def Allows (lockPath path : String) (call : Call) (phase : Phase) : Request → Prop
  | .lock target mode _ => phase.stage = .before ∧ target = lockPath ∧ mode = .exclusive
  | .release ticket => phase.ticket? = some ticket ∧ phase.stage.isWorking = true
  | .exists target => phase.stage = .locked ∧ target = path
  | .read target => phase.stage = .present ∧ target = path
  | .write target content => ∃ text? text processId, phase.stage = .found text? ∧
      target = temporaryName path processId ∧ call.write text? = .ok text ∧
      content = text.toUTF8
  | .rename source target => ∃ text? processId, phase.stage = .written text? source ∧
      source = temporaryName path processId ∧ target = path
  | .remove target => ∃ text? processId, phase.stage = .found text? ∧
      target = temporaryName path processId
  | _ => True

end Phase

/-- The requests of a call. -/
def protocol (lockPath path : String) (call : Call) : Protocol Phase where
  Allows := Phase.Allows lockPath path call
  next := Phase.next
  allows_createDirs := fun _ _ => trivial
  next_createDirs := fun _ _ _ => rfl
  allows_processId := fun _ => trivial
  next_processId := fun _ _ => rfl

/-- Whether a request was granted a lock. -/
def grants : (request : Request) → Reply request → Bool
  | .lock _ _ _, reply => (reply : Except LockFault Nat).isOk
  | _, _ => false

namespace Phase

variable {lockPath path : String} {call : Call} {phase : Phase} {request : Request}

theorem next_rename_ok {text? : Option String} {source target : String}
    (h : phase.stage = .written text? source) :
    phase.next (.rename source target) (Except.ok ()) =
      { phase with stage := .replaced text? } := by
  obtain ⟨ticket?, stage⟩ := phase
  cases h
  rfl

/-- Only a lock begins the work and only its release ends it, and only a
rename replaces the file. -/
theorem Allows.next_kept (h : phase.Allows lockPath path call request) (reply : Reply request)
    (hgrants : grants request reply = false) :
    (phase.next request reply).ticket? = phase.ticket? ∧
      ((phase.next request reply).stage = .before ↔ phase.stage = .before) ∧
      ((phase.next request reply).stage.isWorking = true → phase.stage.isWorking = true) ∧
      (Preferences.replaces path request reply = false →
        (phase.next request reply).stage.replaced? = phase.stage.replaced?) := by
  obtain ⟨ticket?, stage⟩ := phase
  cases request with
  | lock target mode timeoutMs =>
    cases reply with
    | ok ticket => cases hgrants
    | error fault => exact ⟨rfl, Iff.rfl, id, fun _ => rfl⟩
  | release ticket =>
    obtain ⟨-, hworking⟩ := h
    refine ⟨rfl, ?_, fun hafter => (nomatch hafter), fun _ => rfl⟩
    constructor
    · exact fun hafter => nomatch hafter
    · rintro rfl
      cases hworking
  | «exists» target =>
    obtain ⟨rfl, -⟩ := h
    cases reply with
    | false => exact ⟨rfl, by simp [next], fun _ => rfl, fun _ => rfl⟩
    | true => exact ⟨rfl, by simp [next], fun _ => rfl, fun _ => rfl⟩
  | read target =>
    obtain ⟨rfl, -⟩ := h
    rw [next]
    cases Preferences.textOf reply with
    | error fault => exact ⟨rfl, Iff.rfl, id, fun _ => rfl⟩
    | ok text => exact ⟨rfl, by simp, fun _ => rfl, fun _ => rfl⟩
  | write target content =>
    obtain ⟨text?, text, processId, rfl, -⟩ := h
    cases reply with
    | error fault => exact ⟨rfl, Iff.rfl, id, fun _ => rfl⟩
    | ok written => exact ⟨rfl, by simp [next], fun _ => rfl, fun _ => rfl⟩
  | rename source target =>
    obtain ⟨text?, processId, rfl, -, rfl⟩ := h
    cases reply with
    | error fault => exact ⟨rfl, by simp [next], fun _ => rfl, fun _ => rfl⟩
    | ok moved =>
      refine ⟨rfl, by simp [next], fun _ => rfl, fun hreplaces => ?_⟩
      simp [Preferences.replaces] at hreplaces
  | _ => exact ⟨rfl, Iff.rfl, id, fun _ => rfl⟩

end Phase

/-! ## The end of a call -/

/-- What the result of a call says: a success that the file was replaced, and
a failure that it was not. -/
def Ends (call : Call) : Except Failure WriteOutcome → Phase → Prop
  | .ok outcome, phase => ∃ text?, phase.stage = .after (.replaced text?) ∧
      outcome = outcomeFor text?
  | .error failure, phase => phase.stage.isWorking = false ∧ phase.stage.replaced? = none ∧
      -- a call that was not granted the lock has done nothing
      (∀ target, failure = .lockTimeout target → phase.stage = .before) ∧
      ∀ target reason, failure = .malformedTestFile target reason →
        ∃ text malformed, phase.stage.found? = some (some text) ∧
          call.write (some text) = .error malformed

/-- What the end of the work says, while the lock is still held. -/
def EndsWork (call : Call) (ticket : Nat) (result : Except Failure WriteOutcome) (phase : Phase) :
    Prop :=
  phase.ticket? = some ticket ∧ phase.stage.isWorking = true ∧
    Ends call result { phase with stage := .after phase.stage }

section

variable {lockPath path : String} {call : Call} {ticket : Nat}

/-- Work that fails without a look at the text. -/
theorem endsWork_error {failure : Failure} {stage : Stage} (hworking : stage.isWorking = true)
    (hreplaced : stage.replaced? = none) (htimeout : ∀ target, failure ≠ .lockTimeout target)
    (hmalformed : ∀ target reason, failure ≠ .malformedTestFile target reason) :
    EndsWork call ticket (.error failure) ⟨some ticket, stage⟩ :=
  ⟨rfl, hworking, rfl, hreplaced, fun target h => absurd h (htimeout target),
    fun target reason h => absurd h (hmalformed target reason)⟩

theorem mayReplace {text? : Option String} {text : String} (htext : call.write text? = .ok text) :
    (protocol lockPath path call).MayReplace ⟨some ticket, .found text?⟩ path text.toUTF8
      (fun temporary => ⟨some ticket, .written text? temporary⟩)
      ⟨some ticket, .replaced text?⟩ where
  write := fun processId => ⟨text?, text, processId, rfl, rfl, htext, rfl⟩
  write_ok := fun _ => rfl
  write_error := fun _ _ => rfl
  rename := fun processId => ⟨text?, processId, rfl, rfl, rfl⟩
  rename_ok := fun _ => rfl
  rename_error := fun _ _ => rfl
  remove := fun processId => ⟨text?, processId, rfl, rfl⟩
  remove_next := fun _ _ => rfl

/-- The text that a call makes of what it found is written. -/
theorem obeys_write {text? : Option String} {text : String} (htext : call.write text? = .ok text) :
    (protocol lockPath path call).Obeys
      (fun result phase => EndsWork call ticket (result.map fun () => outcomeFor text?) phase)
      ⟨some ticket, .found text?⟩ (replace path text.toUTF8) := by
  refine Protocol.obeys_replace (mayReplace htext) ?_ ?_
  · exact ⟨rfl, rfl, text?, rfl, rfl⟩
  · exact fun fault => endsWork_error rfl rfl (by simp) (by simp)

/-- A warning may be given at any time. -/
theorem obeys_warnIf {α : Type} {ends : α → Phase → Prop} {condition : Prop}
    [Decidable condition] {warning : Warning} {action : Action α} {phase : Phase}
    (h : (protocol lockPath path call).Obeys ends phase action) :
    (protocol lockPath path call).Obeys ends phase
      (if condition then (Action.warn warning).andThen fun _ => action else action) := by
  split
  · exact ⟨trivial, fun _ => h⟩
  · exact h

/-- A case is added to a file that is there. -/
theorem obeys_appendCase :
    (protocol lockPath path call).Obeys
      (fun result phase => EndsWork call ticket (result.map fun () => .appended) phase)
      ⟨some ticket, .present⟩
      (Generation.appendCase path call.caseName call.caseText) := by
  rw [Generation.appendCase, Action.bind_eq, Protocol.obeys_andThen, Preferences.readText_eq]
  refine ⟨⟨rfl, rfl⟩, fun reply => ?_⟩
  show Protocol.Obeys _ _ (Phase.next ⟨some ticket, .present⟩ (.read path) reply)
    (.done (Preferences.textOf reply))
  rw [Phase.next, Protocol.Obeys]
  cases Preferences.textOf reply with
  | error fault =>
    have hends : EndsWork call ticket (.error (.fileRead path fault)) ⟨some ticket, .present⟩ :=
      endsWork_error rfl rfl (by simp) (by simp)
    exact hends
  | ok text =>
    refine obeys_warnIf ?_
    cases hinsert : TestFile.insertCase text.toList call.caseText.toList with
    | error malformed =>
      refine ⟨rfl, rfl, rfl, rfl, fun target h => (by cases h), fun target reason h => ?_⟩
      refine ⟨text, malformed, rfl, ?_⟩
      rw [Call.write, hinsert]
      rfl
    | ok updated =>
      have htext : call.write (some text) = .ok (String.ofList updated) := by
        rw [Call.write, hinsert]
        rfl
      exact obeys_write htext

/-- A call makes only requests that are due. -/
theorem obeys_action {lockDir : String} {action : Action (Except Failure WriteOutcome)}
    (h : call.action lockDir path = action) :
    (protocol (StatePaths.lockFile lockDir path) path call).Obeys (Ends call) {} action := by
  rw [← h, Call.action, TestStore.writeCase]
  -- a name for the lock file, so that its digest is not computed
  generalize StatePaths.lockFile lockDir path = lockPath
  refine Protocol.obeys_withLock ⟨rfl, rfl, rfl⟩ (fun _ => rfl) ?_ ?_ fun ticket => ?_
  · exact fun fault => ⟨rfl, rfl, fun _ _ => rfl, fun target reason h => nomatch h⟩
  · exact ⟨rfl, rfl, fun _ _ => rfl, fun target reason h => nomatch h⟩
  rw [Action.bind_eq, Protocol.obeys_andThen]
  refine .ofRequest ⟨rfl, rfl⟩ fun found => ?_
  cases found with
  | true =>
    simp only [if_true, Action.bind_eq]
    rw [Protocol.obeys_andThen]
    refine obeys_appendCase.mono ?_
    rintro result phase ⟨hticket, hworking, hends⟩
    exact ⟨⟨hticket, hworking⟩, hends⟩
  | false =>
    simp only [Bool.false_eq_true, if_false, Action.bind_eq]
    rw [Protocol.obeys_andThen]
    have htext : call.write none = .ok call.document := rfl
    refine (obeys_write htext).mono ?_
    rintro result phase ⟨hticket, hworking, hends⟩
    exact ⟨⟨hticket, hworking⟩, hends⟩

end

end TestSkeleton.Writers
