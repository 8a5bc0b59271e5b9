import TestSkeleton.Preferences.Store
import TestSkeleton.Proofs.Files.Protocol

/-!
# The turns of a preference store

What a store does to its file, told from its requests alone: it takes the
lock once, reads the file, and if it saves, it writes the changed document
beside the file, renames it over the file and gives the lock back.

* `Phase` is how far an action has come, and `Phase.next` follows it from one
  request to the next.
* `Obeys` says that an action makes only requests that are due, whatever the
  replies are.  These are the requests of `protocol`.
* `obeys_load` and `obeys_save` say so for the two actions of a store.
-/

namespace TestSkeleton.Preferences

open Files

/-! ## Phases -/

/-- What an action has done under the lock. -/
inductive Stage where
  | before
  | locked (mode : LockMode)
  /-- The file held a document. -/
  | seen (mode : LockMode) (document : Document)
  /-- The next document is in a file beside the preference file. -/
  | written (document : Document) (temporary : String)
  | replaced
  /-- The lock is given back. -/
  | after (changed : Bool)

namespace Stage

/-- The lock that is held. -/
def mode? : Stage → Option LockMode
  | .locked mode => some mode
  | .seen mode _ => some mode
  | .written _ _ => some .exclusive
  | .replaced => some .exclusive
  | .before => none
  | .after _ => none

/-- Whether the file was replaced. -/
def isReplaced : Stage → Bool
  | .replaced => true
  | .after changed => changed
  | _ => false

end Stage

/-- The text in a file, from what a read of it replied. -/
def textOf (content : Except Fault ByteArray) : Except Fault String :=
  match content with
  | .error fault => .error fault
  | .ok content =>
    match String.fromUTF8? content with
    | some text => .ok text
    | none => .error .notText

/-- The document that a text counts as. -/
def documentFrom : Except Fault String → Document
  | .ok text => (Document.parse? text).getD {}
  | .error _ => {}

/-- The document in a file, from what a read of it replied. -/
def documentOf (content : Except Fault ByteArray) : Document :=
  documentFrom (textOf content)

/-- How far an action is. -/
structure Phase where
  /-- The ticket of the lock that was taken. -/
  ticket? : Option Nat := none
  stage : Stage := .before

namespace Phase

/-- The phase after a request and its reply. -/
def next (phase : Phase) : (request : Request) → Reply request → Phase
  | .lock _ mode _, reply =>
    match (reply : Except LockFault Nat) with
    | .ok ticket => ⟨some ticket, .locked mode⟩
    | .error _ => phase
  | .read _, reply =>
    match phase.stage with
    | .locked mode => { phase with stage := .seen mode (documentOf reply) }
    | _ => phase
  | .write path _, reply =>
    match phase.stage, (reply : Except Fault Unit) with
    | .seen _ document, .ok () => { phase with stage := .written document path }
    | _, _ => phase
  | .rename _ _, reply =>
    match phase.stage, (reply : Except Fault Unit) with
    | .written _ _, .ok () => { phase with stage := .replaced }
    | .written document _, .error _ => { phase with stage := .seen .exclusive document }
    | _, _ => phase
  | .release _, _ => { phase with stage := .after phase.stage.isReplaced }
  | _, _ => phase

section

variable {phase : Phase} {mode : LockMode} {document : Document} {path temporary : String}
  {content : ByteArray} {fault : Fault}

theorem next_read (h : phase.stage = .locked mode) (reply : Reply (.read path)) :
    phase.next (.read path) reply = { phase with stage := .seen mode (documentOf reply) } := by
  obtain ⟨ticket, stage⟩ := phase
  cases h
  rfl

theorem next_write_ok (h : phase.stage = .seen mode document) :
    phase.next (.write temporary content) (Except.ok ()) =
      { phase with stage := .written document temporary } := by
  obtain ⟨ticket, stage⟩ := phase
  cases h
  rfl

theorem next_write_error (h : phase.stage = .seen mode document) :
    phase.next (.write temporary content) (Except.error fault) = phase := by
  obtain ⟨ticket, stage⟩ := phase
  cases h
  rfl

theorem next_rename_ok (h : phase.stage = .written document temporary) :
    phase.next (.rename temporary path) (Except.ok ()) = { phase with stage := .replaced } := by
  obtain ⟨ticket, stage⟩ := phase
  cases h
  rfl

theorem next_rename_error (h : phase.stage = .written document temporary) :
    phase.next (.rename temporary path) (Except.error fault) =
      { phase with stage := .seen .exclusive document } := by
  obtain ⟨ticket, stage⟩ := phase
  cases h
  rfl

end

/-- Whether a request is due in a phase of an action that makes some changes
to the file at a path. -/
def Allows (path : String) (changes : List Change) (phase : Phase) : Request → Prop
  | .lock target _ _ => phase.stage = .before ∧ target = StatePaths.preferenceLock path
  | .release ticket => phase.ticket? = some ticket ∧ phase.stage.mode? ≠ none
  | .read target => target = path
  | .write target content => ∃ document processId, phase.stage = .seen .exclusive document ∧
      target = temporaryName path processId ∧
      content = (fileText (document.applyAll changes)).toUTF8
  | .rename source target => ∃ document processId, phase.stage = .written document source ∧
      source = temporaryName path processId ∧ target = path ∧ changes ≠ []
  | .remove target => ∃ document processId, phase.stage = .seen .exclusive document ∧
      target = temporaryName path processId
  | _ => True

end Phase

/-- Whether a request has replaced the file at a path. -/
def replaces (path : String) : (request : Request) → Reply request → Bool
  | .rename _ target, reply =>
    match (reply : Except Fault Unit) with
    | .ok () => target == path
    | .error _ => false
  | _, _ => false

namespace Phase

variable {path : String} {changes : List Change} {phase : Phase} {request : Request}

/-- Who has nothing to save does not replace the file. -/
theorem Allows.not_replaces (h : phase.Allows path [] request) (reply : Reply request) :
    replaces path request reply = false := by
  cases request with
  | rename source target =>
    obtain ⟨document, processId, -, -, -, hchanges⟩ := h
    exact absurd rfl hchanges
  | _ => rfl

/-- Only a lock gives a ticket or more of a lock, and only a rename replaces
the file. -/
theorem Allows.next_kept (h : phase.Allows path changes request) (reply : Reply request)
    (hlock : ∀ target mode timeoutMs, request ≠ .lock target mode timeoutMs) :
    (phase.next request reply).ticket? = phase.ticket? ∧
      ((phase.next request reply).stage.mode? = phase.stage.mode? ∨
        (phase.next request reply).stage.mode? = none) ∧
      (replaces path request reply = false →
        (phase.next request reply).stage.isReplaced = phase.stage.isReplaced) := by
  cases request with
  | lock target mode timeoutMs => exact absurd rfl (hlock target mode timeoutMs)
  | release ticket => exact ⟨rfl, Or.inr rfl, fun _ => rfl⟩
  | read target =>
    cases hstage : phase.stage with
    | locked mode =>
      rw [next_read hstage]
      exact ⟨rfl, Or.inl rfl, fun _ => rfl⟩
    | _ =>
      rw [next, hstage]
      exact ⟨rfl, Or.inl (by rw [hstage]), fun _ => by rw [hstage]⟩
  | write target content =>
    obtain ⟨document, processId, hstage, -⟩ := h
    cases reply with
    | error fault =>
      rw [next_write_error hstage]
      exact ⟨rfl, Or.inl rfl, fun _ => rfl⟩
    | ok written =>
      rw [next_write_ok hstage, hstage]
      exact ⟨rfl, Or.inl rfl, fun _ => rfl⟩
  | rename source target =>
    obtain ⟨document, processId, hstage, -, rfl, -⟩ := h
    cases reply with
    | error fault =>
      rw [next_rename_error hstage, hstage]
      exact ⟨rfl, Or.inl rfl, fun _ => rfl⟩
    | ok moved =>
      rw [next_rename_ok hstage, hstage]
      refine ⟨rfl, Or.inl rfl, ?_⟩
      intro hreplaces
      simp [replaces] at hreplaces
  | _ => exact ⟨rfl, Or.inl rfl, fun _ => rfl⟩

end Phase

/-! ## Obeying actions -/

/-- Whether an action makes only requests that are due, and ends with a
result and in a phase that fit. -/
def Obeys {α : Type} (path : String) (changes : List Change) (ends : α → Phase → Prop) :
    Phase → Action α → Prop
  | phase, .done result => ends result phase
  | phase, .step request next => phase.Allows path changes request ∧
      ∀ reply, Obeys path changes ends (phase.next request reply) (next reply)

/-- The requests of an action that makes some changes. -/
def protocol (path : String) (changes : List Change) : Protocol Phase where
  Allows := Phase.Allows path changes
  next := Phase.next
  allows_createDirs := fun _ _ => trivial
  next_createDirs := fun _ _ _ => rfl
  allows_processId := fun _ => trivial
  next_processId := fun _ _ => rfl

section

variable {α β : Type} {path : String} {changes : List Change}

theorem obeys_iff {ends : α → Phase → Prop} {action : Action α} {phase : Phase} :
    Obeys path changes ends phase action ↔ (protocol path changes).Obeys ends phase action := by
  induction action generalizing phase with
  | done result => exact Iff.rfl
  | step request k ih => exact and_congr_right fun _ => forall_congr' fun reply => ih reply

/-- Two actions in turn. -/
theorem obeys_andThen {ends : β → Phase → Prop} {action : Action α} {next : α → Action β}
    {phase : Phase} :
    Obeys path changes ends phase (action.andThen next) ↔ Obeys path changes
      (fun result phase => Obeys path changes ends phase (next result)) phase action := by
  simp only [obeys_iff]
  exact Protocol.obeys_andThen

/-- A guarded action gives its lock back at the end. -/
theorem obeys_withLock {ends : α → Phase → Prop} {lockPath : String}
    (hpath : lockPath = StatePaths.preferenceLock path) (mode : LockMode) (timeoutMs : Nat)
    {refused : Failure → α} {body : Action α} (hrefused : ∀ failure, ends (refused failure) {})
    (hbody : ∀ ticket, Obeys path changes (fun result phase => phase.ticket? = some ticket ∧
      phase.stage.mode? ≠ none ∧
      ends result { phase with stage := .after phase.stage.isReplaced })
        ⟨some ticket, .locked mode⟩ body) :
    Obeys path changes ends {} (withLock lockPath mode timeoutMs refused body) := by
  refine obeys_iff.2 (Protocol.obeys_withLock ⟨rfl, hpath⟩ (fun _ => rfl)
    (fun fault => hrefused _) (hrefused _) fun ticket => ?_)
  refine (obeys_iff.1 (hbody ticket)).mono ?_
  rintro result phase ⟨hticket, hmode, hends⟩
  exact ⟨⟨hticket, hmode⟩, hends⟩

theorem readText_eq (path : String) :
    Action.readText path = .step (.read path) fun reply => .done (textOf reply) := by
  refine congrArg (Action.step (.read path)) (funext fun reply => ?_)
  cases reply with
  | error fault => rfl
  | ok content =>
    show (match String.fromUTF8? content with
      | some text => Action.done (Except.ok text)
      | none => Action.done (Except.error Fault.notText)) = .done (textOf (.ok content))
    rw [textOf]
    split <;> rfl

/-- What a reader does with the text of the file. -/
def goOn : Except Fault String → Action Document
  | .ok text =>
    match Document.parse? text with
    | some document => .done document
    | none => .step (.warn .corruptPreferences) fun _ => .done {}
  | .error fault =>
    if fault.kind == .notFound then .done {}
    else .step (.warn .unreadablePreferences) fun _ => .done {}

theorem readFile_eq (path : String) :
    readFile path = .step (.read path) fun reply => goOn (textOf reply) := by
  rw [readFile, readText_eq]
  rfl

/-- A reader goes on with the document of the text, after at most a
warning. -/
theorem goOn_cases (text : Except Fault String) :
    goOn text = .done (documentFrom text) ∨
      ∃ warning, goOn text = .step (.warn warning) fun _ => .done (documentFrom text) := by
  cases text with
  | ok text =>
    rw [goOn, documentFrom]
    cases Document.parse? text with
    | some document => exact Or.inl rfl
    | none => exact Or.inr ⟨_, rfl⟩
  | error fault =>
    rw [goOn]
    split
    · exact Or.inl rfl
    · exact Or.inr ⟨_, rfl⟩

theorem obeys_readFile {ends : Document → Phase → Prop} {ticket : Nat} {mode : LockMode}
    (h : ∀ document, ends document ⟨some ticket, .seen mode document⟩) :
    Obeys path changes ends ⟨some ticket, .locked mode⟩ (readFile path) := by
  rw [readFile_eq]
  refine ⟨rfl, ?_⟩
  intro reply
  show Obeys path changes ends ⟨some ticket, .seen mode (documentOf reply)⟩ (goOn (textOf reply))
  rcases goOn_cases (textOf reply) with hdone | ⟨warning, hwarn⟩
  · rw [hdone]
    exact h (documentOf reply)
  · rw [hwarn]
    exact ⟨trivial, fun _ => h (documentOf reply)⟩

/-! ## The two actions -/

theorem mayReplace {ticket : Nat} {document : Document} (hchanges : changes ≠ []) :
    (protocol path changes).MayReplace ⟨some ticket, .seen .exclusive document⟩ path
      (fileText (document.applyAll changes)).toUTF8
      (fun temporary => ⟨some ticket, .written document temporary⟩)
      ⟨some ticket, .replaced⟩ where
  write := fun processId => ⟨document, processId, rfl, rfl, rfl⟩
  write_ok := fun _ => rfl
  write_error := fun _ _ => rfl
  rename := fun processId => ⟨document, processId, rfl, rfl, rfl, hchanges⟩
  rename_ok := fun _ => rfl
  rename_error := fun _ _ => rfl
  remove := fun processId => ⟨document, processId, rfl, rfl⟩
  remove_next := fun _ _ => rfl

/-- A file is replaced, or the next document is not in use. -/
theorem obeys_replace {ends : Except Failure Unit → Phase → Prop} {ticket : Nat}
    {document : Document} (hchanges : changes ≠ [])
    (hreplaced : ends (.ok ()) ⟨some ticket, .replaced⟩)
    (hfailed : ∀ failure, ends (.error failure) ⟨some ticket, .seen .exclusive document⟩) :
    Obeys path changes ends ⟨some ticket, .seen .exclusive document⟩
      (writeFile path (document.applyAll changes)) :=
  obeys_iff.2 (Protocol.obeys_replace (mayReplace hchanges) hreplaced fun _ => hfailed _)

/-- How opening a store ends: with nothing to save. -/
def Opened (path : String) (result : Except Failure FileStore) (phase : Phase) : Prop :=
  phase.stage.mode? = none ∧
    ∀ store, result = .ok store → store.path = path ∧ store.pending = []

/-- How saving a store ends: if it succeeds, there was nothing to save or the
file was replaced, and if it fails, the store is as before and the file was
not replaced. -/
structure Saved (store : FileStore) (result : Except Failure Unit × FileStore) (phase : Phase) :
    Prop where
  unlocked : phase.stage.mode? = none
  path_eq : result.2.path = store.path
  success : result.1 = .ok () →
    result.2.pending = [] ∧ (store.pending = [] ∨ phase.stage.isReplaced = true)
  failure : ∀ failure, result.1 = .error failure →
    result.2 = store ∧ phase.stage.isReplaced = false

theorem obeys_load {timeoutMs : Nat} {action : Action (Except Failure FileStore)}
    (h : FileStore.load path timeoutMs = action) : Obeys path [] (Opened path) {} action := by
  subst h
  rw [FileStore.load]
  generalize hpath : StatePaths.preferenceLock path = lockPath
  refine obeys_withLock hpath.symm .shared timeoutMs ?_ ?_
  · intro failure
    exact ⟨rfl, fun store h => nomatch h⟩
  · intro ticket
    rw [Action.bind_eq, obeys_andThen]
    refine obeys_readFile ?_
    intro document
    refine ⟨rfl, by simp [Stage.mode?], rfl, ?_⟩
    rintro store ⟨⟩
    exact ⟨rfl, rfl⟩

theorem obeys_save (store : FileStore) :
    Obeys store.path store.pending (Saved store) {} store.save := by
  rw [FileStore.save]
  split
  · rename_i hempty
    have hnone : store.pending = [] := by simpa using hempty
    exact ⟨rfl, rfl, fun _ => ⟨hnone, Or.inl hnone⟩, fun failure h => nomatch h⟩
  · rename_i hempty
    have hsome : store.pending ≠ [] := by simpa using hempty
    have hpath : store.lockPath = StatePaths.preferenceLock store.path := rfl
    generalize store.lockPath = lockPath at hpath ⊢
    refine obeys_withLock hpath .exclusive store.timeoutMs ?_ ?_
    · intro failure
      exact ⟨rfl, rfl, fun h => (nomatch h), fun _ _ => ⟨rfl, rfl⟩⟩
    · intro ticket
      rw [Action.bind_eq, obeys_andThen]
      refine obeys_readFile ?_
      intro document
      simp only [Action.bind_eq]
      rw [obeys_andThen]
      refine obeys_replace hsome ?_ ?_
      · refine ⟨rfl, by simp [Stage.mode?], rfl, rfl, ?_, ?_⟩
        · exact fun _ => ⟨rfl, Or.inr rfl⟩
        · exact fun failure h => nomatch h
      · intro failure
        refine ⟨rfl, by simp [Stage.mode?], rfl, rfl, ?_, ?_⟩
        · exact fun h => nomatch h
        · exact fun _ _ => ⟨rfl, rfl⟩

end

end TestSkeleton.Preferences
