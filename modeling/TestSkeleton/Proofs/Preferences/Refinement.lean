import TestSkeleton.Proofs.Preferences.SavedFile

/-!
# A store on a file and its twin in memory

A store on a file that nobody else writes shows at any time what a store in
memory shows that is taken through the same steps.  The twin keeps what it
showed when it was saved last, and goes back to that when the store is opened
again.

* `Event` is one step and how it ended, and `Twin.after` what it does to the
  twin.
* `Happens` is one step of a store on a file, and `Uses` any number of them.
* `Mirrors` is the invariant: what the store shows is what the file holds with
  the pending changes, and the twin shows the same.  `Mirrors.step` keeps it,
  and `Uses.shows_twin` is the result.
-/

namespace TestSkeleton.Preferences

open Files
open Files.Action (Runs)
open Memory (Attempts Leads)

/-! ## Steps -/

/-- A step of a store and how it ended. -/
inductive Event where
  | recorded (change : Change)
  | saved
  | notSaved
  | reopened
  | notReopened
deriving DecidableEq, Inhabited, Repr

/-- A store in memory, and what it was when it was saved last. -/
structure Twin where
  shown : Store
  saved : Store

namespace Twin

/-- A store in memory that was not changed yet. -/
def start (document : Document) : Twin :=
  ⟨.memory document, .memory document⟩

/-- The twin after a step.  Saving changes nothing in memory, so it is only
noted, and what failed does not count. -/
def after (twin : Twin) : Event → Twin
  | .recorded change => { twin with shown := twin.shown.record change }
  | .saved => { twin with saved := twin.shown }
  | .reopened => { twin with shown := twin.saved }
  | .notSaved | .notReopened => twin

/-- The twin after some steps in order. -/
def run (twin : Twin) (events : List Event) : Twin :=
  events.foldl after twin

theorem run_concat (twin : Twin) (events : List Event) (event : Event) :
    twin.run (events ++ [event]) = (twin.run events).after event :=
  List.foldl_append

end Twin

/-- One step of a store on a file.  Opening it again reads the file anew. -/
inductive Happens (serves : Behaviour) (file : FileStore) (memory : Memory) :
    Event → FileStore → Memory → Prop where
  | recorded (change : Change) :
      Happens serves file memory (.recorded change) (file.record change) memory
  | saved {file' : FileStore} {after : Memory}
      (hsave : Runs serves memory file.save (.ok (), file') after) :
      Happens serves file memory .saved file' after
  | notSaved {failure : Failure} {file' : FileStore} {after : Memory}
      (hsave : Runs serves memory file.save (.error failure, file') after) :
      Happens serves file memory .notSaved file' after
  | reopened {timeoutMs : Nat} {file' : FileStore} {after : Memory}
      (hload : Runs serves memory (FileStore.load file.path timeoutMs) (.ok file') after) :
      Happens serves file memory .reopened file' after
  | notReopened {timeoutMs : Nat} {failure : Failure} {after : Memory}
      (hload : Runs serves memory (FileStore.load file.path timeoutMs) (.error failure) after) :
      Happens serves file memory .notReopened file after

/-- Any steps of a store on a file, between which anything may happen
elsewhere. -/
inductive Uses (serves : Behaviour) (file : FileStore) (memory : Memory) :
    List Event → FileStore → Memory → Prop where
  | start : Uses serves file memory [] file memory
  | step {events : List Event} {event : Event} {between last : FileStore} {during after : Memory}
      (h : Uses serves file memory events between during)
      (hstep : Happens serves between during event last after) :
      Uses serves file memory (events ++ [event]) last after
  | outside {events : List Event} {between : FileStore} {during after : Memory}
      (h : Uses serves file memory events between during)
      (huntouched : Untouched between.path during after) :
      Uses serves file memory events between after

/-! ## The invariant -/

theorem document_record (store : Store) (change : Change) :
    (store.record change).document = store.document.apply change := by
  cases store <;> rfl

/-- What a store on a file, its file and its twin have to do with each
other. -/
structure Mirrors (path : String) (twin : Twin) (file : FileStore) (memory : Memory) : Prop where
  path_eq : file.path = path
  prepared : Prepared memory path
  /-- The file holds what was saved last. -/
  saved : twin.saved.document = savedDocument memory path
  shown : file.document = twin.shown.document
  /-- The store shows the file with the pending changes. -/
  replayed : file.document = (savedDocument memory path).applyAll file.pending

namespace Mirrors

variable {serves : Behaviour} {path : String} {twin : Twin} {file file' : FileStore}
  {memory after : Memory} {timeoutMs : Nat}

/-- A store that was just opened is what its twin starts from. -/
theorem start (hserves : Refines serves Reads) (hwell : memory.tree.WellFormed)
    (h : Runs serves memory (FileStore.load path timeoutMs) (.ok file) after) :
    Mirrors path (.start (savedDocument after path)) file after := by
  have hattempts := hserves.trans reads_refines
  obtain ⟨hprepared, hpath, hpending, hshows⟩ := runs_load hattempts hwell h
  have hdocument := hshows.eq_saved hserves
  refine ⟨hpath, hprepared, rfl, hdocument, ?_⟩
  rw [hpending, hdocument]
  rfl

/-- What happens elsewhere does not matter. -/
theorem untouched (h : Mirrors path twin file memory) (huntouched : Untouched path memory after) :
    Mirrors path twin file after := by
  have hsame := huntouched.savedDocument_eq h.prepared
  refine ⟨h.path_eq, huntouched.prepared h.prepared, ?_, h.shown, ?_⟩
  · rw [hsame]
    exact h.saved
  · rw [hsame]
    exact h.replayed

theorem recorded (h : Mirrors path twin file memory) (change : Change) :
    Mirrors path (twin.after (.recorded change)) (file.record change) memory := by
  refine ⟨h.path_eq, h.prepared, h.saved, ?_, ?_⟩
  · show file.document.apply change = (twin.shown.record change).document
    rw [document_record, h.shown]
  · show file.document.apply change =
      (savedDocument memory path).applyAll (file.pending ++ [change])
    rw [Document.applyAll_append, ← h.replayed]
    rfl

/-- After saving, the file holds what the store shows. -/
theorem saves (h : Mirrors path twin file memory) (hserves : Refines serves Reads)
    (hsaves : Saves serves file memory after file') (hprepared : Prepared after path) :
    Mirrors path (twin.after .saved) file' after := by
  obtain rfl := h.path_eq
  cases hsaves with
  | nothing hpending hafter =>
    subst hafter
    have hdocument := h.replayed
    rw [hpending] at hdocument
    exact ⟨rfl, hprepared, h.shown.symm.trans hdocument, h.shown, h.replayed⟩
  | @replaced read document hbefore hlock hshows hfile =>
    have hlocked : Elsewhere file.path memory read := elsewhere_of_frames hbefore (by simp)
    rw [hshows.eq_saved hserves, hlocked.savedDocument_eq h.prepared, ← h.replayed] at hfile ⊢
    have hsaved := (decodes_of_hasFile hfile).savedDocument_eq
    exact ⟨rfl, hprepared, h.shown.symm.trans hsaved.symm, h.shown, hsaved.symm⟩

/-- What could not be saved is still pending. -/
theorem notSaved (h : Mirrors path twin file memory) (hserves : Refines serves Attempts)
    {failure : Failure} (hsave : Runs serves memory file.save (.error failure, file') after) :
    Mirrors path twin file' after := by
  rcases runs_save hserves hsave with ⟨hok, -⟩ | ⟨failure, hfailed, hframes⟩
  · cases hok
  · cases hfailed
    rw [h.path_eq] at hframes
    exact h.untouched (elsewhere_of_temporary hframes).untouched

/-- Each step of the store is a step of its twin. -/
theorem step (h : Mirrors path twin file memory) (hserves : Refines serves Reads) {event : Event}
    (hstep : Happens serves file memory event file' after) :
    Mirrors path (twin.after event) file' after := by
  have hattempts := hserves.trans reads_refines
  cases hstep with
  | recorded change => exact h.recorded change
  | saved hsave =>
    rcases runs_save hattempts hsave with ⟨-, hsaves, hframes⟩ | ⟨failure, hfailed, -⟩
    · exact h.saves hserves hsaves (h.prepared.later hframes.changes)
    · cases hfailed
  | notSaved hsave => exact h.notSaved hattempts hsave
  | reopened hload =>
    rw [h.path_eq] at hload
    have hopened := start hserves h.prepared.wellFormed hload
    have hleft : Elsewhere path memory after :=
      elsewhere_of_frames (frames_load (hload.mono hattempts)) (by simp)
    have hsame := hleft.savedDocument_eq h.prepared
    have hsaved : twin.saved.document = savedDocument after path := h.saved.trans hsame.symm
    exact ⟨hopened.path_eq, hopened.prepared, hsaved, hopened.shown.trans hsaved.symm,
      hopened.replayed⟩
  | notReopened hload =>
    rw [h.path_eq] at hload
    exact h.untouched
      (elsewhere_of_frames (frames_load (hload.mono hattempts)) (by simp)).untouched

end Mirrors

variable {serves : Behaviour} {path : String} {file opened : FileStore}
  {memory origin after : Memory} {events : List Event} {timeoutMs : Nat}

theorem Uses.mirrors {twin : Twin} (huses : Uses serves opened origin events file after)
    (hserves : Refines serves Reads) (h : Mirrors path twin opened origin) :
    Mirrors path (twin.run events) file after := by
  induction huses with
  | start => exact h
  | step _ hstep ih =>
    rw [Twin.run_concat]
    exact ih.step hserves hstep
  | outside _ huntouched ih =>
    rw [ih.path_eq] at huntouched
    exact ih.untouched huntouched

/-- A store on a file shows what its twin in memory shows, which started from
what the file counted as when the store was opened.  At any time it shows the
document in the file with the pending changes, and the file holds what the
twin was when it was saved last.  Writing may fail, and what happens elsewhere
does not matter.  Opening the store leaves the file as it is, unless its path
goes up from a directory that was missing. -/
theorem Uses.shows_twin (hwell : memory.tree.WellFormed)
    (hload : Runs Reads memory (FileStore.load path timeoutMs) (.ok opened) origin)
    (huses : Uses Reads opened origin events file after) :
    file.document = ((Twin.start (savedDocument origin path)).run events).shown.document ∧
      file.document = (savedDocument after path).applyAll file.pending ∧
      savedDocument after path =
        ((Twin.start (savedDocument origin path)).run events).saved.document ∧
      ((".." ∉ Path.steps path ∨ ∃ place, Leads memory path place) →
        savedDocument origin path = savedDocument memory path) := by
  have hmirrors := huses.mirrors (.refl Reads) (.start (.refl Reads) hwell hload)
  exact ⟨hmirrors.shown, hmirrors.replayed, hmirrors.saved.symm,
    savedDocument_of_load hwell (hload.mono reads_refines)⟩

/-- A store on a file that is missing. -/
def sampleFile : FileStore :=
  { path := "/state/prefs.json", timeoutMs := 0 }

/-- A string that is saved. -/
def sampleChange : Change :=
  .setString "Gtest Template" "/src/Job.cpp" "/tests"

/-- The store after the string was saved. -/
def sampleKept : FileStore :=
  { sampleFile.record sampleChange with pending := [] }

/-- The system after that store was opened. -/
def sampleOrigin : Memory :=
  (({} : Memory).run (FileStore.load "/state/prefs.json" 0)).2

/-- The system after the string was saved. -/
def sampleSaved : Memory :=
  (sampleOrigin.run (sampleFile.record sampleChange).save).2

/-- The system after the store was opened again. -/
def sampleReopened : Memory :=
  (sampleSaved.run (FileStore.load "/state/prefs.json" 0)).2

theorem runs_save_sampleFile :
    Runs Reads sampleOrigin (sampleFile.record sampleChange).save (.ok (), sampleKept)
      sampleSaved := by
  have hsaved : ((sampleOrigin.run (sampleFile.record sampleChange).save).1.1.toOption,
      (sampleOrigin.run (sampleFile.record sampleChange).save).1.2) = (some (), sampleKept) := by
    decide +kernel
  obtain ⟨hok, hkept⟩ := Prod.mk.inj hsaved
  have hruns := runs_fst_of_toOption hok
  rw [hkept] at hruns
  exact hruns

theorem shows_twin_sampleFile :
    Runs Reads {} (FileStore.load "/state/prefs.json" 0) (.ok sampleFile) sampleOrigin ∧
      Uses Reads sampleFile sampleOrigin [.recorded sampleChange, .saved, .reopened] sampleKept
        sampleReopened ∧
      sampleKept.document =
        ((Twin.start (savedDocument sampleOrigin "/state/prefs.json")).run
          [.recorded sampleChange, .saved, .reopened]).shown.document ∧
      sampleKept.document =
        (savedDocument sampleReopened "/state/prefs.json").applyAll sampleKept.pending ∧
      savedDocument sampleReopened "/state/prefs.json" =
        ((Twin.start (savedDocument sampleOrigin "/state/prefs.json")).run
          [.recorded sampleChange, .saved, .reopened]).saved.document ∧
      ((".." ∉ Path.steps "/state/prefs.json" ∨
          ∃ place, Leads ({} : Memory) "/state/prefs.json" place) →
        savedDocument sampleOrigin "/state/prefs.json" =
          savedDocument {} "/state/prefs.json") := by
  have hload : Runs Reads {} (FileStore.load "/state/prefs.json" 0) (.ok sampleFile)
      sampleOrigin := runs_of_toOption (by decide +kernel)
  have hreload : Runs Reads sampleSaved (FileStore.load "/state/prefs.json" 0) (.ok sampleKept)
      sampleReopened := runs_of_toOption (by decide +kernel)
  have hrecorded : Uses Reads sampleFile sampleOrigin [.recorded sampleChange]
      (sampleFile.record sampleChange) sampleOrigin := .step .start (.recorded sampleChange)
  have hsaved : Uses Reads sampleFile sampleOrigin [.recorded sampleChange, .saved] sampleKept
      sampleSaved := .step hrecorded (.saved runs_save_sampleFile)
  have huses : Uses Reads sampleFile sampleOrigin [.recorded sampleChange, .saved, .reopened]
      sampleKept sampleReopened := .step hsaved (.reopened hreload)
  exact ⟨hload, huses, Uses.shows_twin Tree.wellFormed_empty hload huses⟩

end TestSkeleton.Preferences
