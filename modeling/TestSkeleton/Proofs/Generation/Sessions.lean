import TestSkeleton.Proofs.Generation.Attempting
import TestSkeleton.Proofs.Generation.Choosing
import TestSkeleton.Proofs.Preferences.Replay

/-!
# Generations one after another

A session is a number of generations on one store, which may be closed and
opened again in between.  What a generation leaves to the next one is the
store and the document in the preference file.

* `Turn` is what writing a case and remembering the directory makes of the
  preferences, and `Planned.runs_carryOut` that it makes no more of them.
* `Continues` is a session, and `Continues.invariant` that a session keeps
  what every turn and every opening of the store keeps.
-/

namespace TestSkeleton.Generation

open Files
open Files.Action (Runs runs_done runs_andThen)
open Memory (Attempts Frames Leads)
open Preferences (Change Document Elsewhere FileStore MayShow Prepared Store savedDocument)
open Preferences.Outputs (lookup? rememberChanges)

variable {serves : Behaviour} {store store' : TestStore} {settings : Settings}
  {context : Source.Context} {prompt : Source.FolderPrompt} {memory after : Memory}

/-! ## One turn -/

/-- The changes that remember the directory of an output. -/
def PendingOutput.changes (output : PendingOutput) : List Change :=
  rememberChanges output.source output.directory

/-- What a generation that is no dry run makes of a store and of the document
in its file, and whether it succeeds.  `saved` is the document in the file
when the case was written. -/
inductive Turn (serves : Behaviour) (saved : Document) (pending : Option PendingOutput) :
    Store → Bool → Store → Document → Prop where
  /-- The case was not written. -/
  | failed (store : Store) : Turn serves saved pending store false store saved
  /-- Nothing is to be remembered. -/
  | known (store : Store) (hpending : pending = none) :
      Turn serves saved pending store true store saved
  /-- The directory is remembered in memory. -/
  | shown {document : Document} {output : PendingOutput} (hpending : pending = some output) :
      Turn serves saved pending (.memory document) true
        (.memory (document.applyAll output.changes)) saved
  /-- The directory could not be saved. -/
  | unsaved {file : FileStore} {output : PendingOutput} (hpending : pending = some output) :
      Turn serves saved pending (.file file) false
        (.file { file with
          document := file.document.applyAll output.changes
          pending := file.pending ++ output.changes }) saved
  /-- The directory is saved with all that was pending. -/
  | saved {file : FileStore} {output : PendingOutput} {document : Document}
      (hpending : pending = some output) (hshows : MayShow serves saved document) :
      Turn serves saved pending (.file file) true
        (.file { file with
          document := document.applyAll (file.pending ++ output.changes)
          pending := [] })
        (document.applyAll (file.pending ++ output.changes))

/-- A store on a file stays one. -/
theorem Turn.of_file {saved saved' : Document} {pending : Option PendingOutput} {before : Store}
    {succeeded : Bool} {file : FileStore}
    (h : Turn serves saved pending before succeeded (.file file) saved') :
    ∃ file', before = .file file' := by
  cases h with
  | failed => exact ⟨file, rfl⟩
  | known => exact ⟨file, rfl⟩
  | unsaved => exact ⟨_, rfl⟩
  | saved => exact ⟨_, rfl⟩

/-- Without a directory to remember a store stays as it is. -/
theorem Turn.eq_of_none {saved saved' : Document} {before later : Store}
    (h : Turn serves saved none before true later saved') : later = before := by
  cases h with
  | known => rfl
  | shown hpending => cases hpending
  | saved hpending => cases hpending

/-- Saving a directory takes one turn. -/
theorem runs_save_turn (hserves : Refines serves Attempts) {preferences : Store}
    (hready : preferences.Ready memory) {output : PendingOutput}
    {result : Except Failure Unit × Store}
    (h : Runs serves memory (preferences.recordAll output.changes).save result after) :
    result.2.Ready after ∧
      Turn serves (preferences.saved memory) (some output) preferences result.1.toBool result.2
        (result.2.saved after) := by
  cases preferences with
  | memory document =>
    rw [recordAll_memory] at h
    obtain ⟨rfl, rfl⟩ := runs_done.1 h
    exact ⟨trivial, .shown rfl⟩
  | file file =>
    rw [recordAll_file] at h
    obtain ⟨⟨reply, file'⟩, written, hsave, hdone⟩ := runs_andThen.1 h
    obtain ⟨rfl, rfl⟩ := runs_done.1 hdone
    have hprepared : Prepared memory file.path := hready
    rcases Preferences.runs_save hserves hsave with
      ⟨hok, hsaves, hframes⟩ | ⟨failure, hfailed, hframes⟩
    · obtain rfl : reply = .ok () := hok
      have hafter := hprepared.later hframes.changes
      cases hsaves with
      | nothing hnothing =>
        -- there is something to save
        cases (List.append_eq_nil_iff.1 hnothing).2
      | @replaced read document hbefore hlock hshows hfile =>
        have hlocked : Elsewhere file.path memory read :=
          Preferences.elsewhere_of_frames hbefore (by simp)
        have hsaved := (Preferences.decodes_of_hasFile hfile).savedDocument_eq
        rw [hlocked.savedDocument_eq hprepared] at hshows
        refine ⟨hafter, ?_⟩
        show Turn serves _ _ _ _ _ (savedDocument after file.path)
        rw [hsaved]
        exact .saved rfl hshows
    · cases hfailed
      have hleft : Elsewhere file.path memory after := Preferences.elsewhere_of_temporary hframes
      refine ⟨hprepared.later hframes.changes, ?_⟩
      show Turn serves _ _ _ _ _ (savedDocument after file.path)
      rw [hleft.savedDocument_eq hprepared]
      exact .unsaved rfl

/-- Remembering a directory, if one is to be remembered, takes one turn. -/
theorem runs_commit_turn (hserves : Refines serves Attempts)
    (hready : store.preferences.Ready memory) {pending : Option PendingOutput}
    {result : Except Failure Unit × TestStore}
    (h : Runs serves memory (store.commit pending) result after) :
    result.2.preferences.Ready after ∧
      Turn serves (store.preferences.saved memory) pending store.preferences result.1.toBool
        result.2.preferences (result.2.preferences.saved after) := by
  cases pending with
  | none =>
    obtain ⟨rfl, rfl⟩ := runs_done.1 h
    exact ⟨hready, .known store.preferences rfl⟩
  | some output =>
    obtain ⟨saved, last, hremember, hend⟩ := runs_andThen.1 h
    obtain ⟨rfl, rfl⟩ := runs_done.1 hend
    rw [Preferences.Outputs.remember_ofText] at hremember
    exact runs_save_turn hserves hready hremember

/-- Whether neither the test file nor the temporary file that replaces it is
the preference file. -/
def Planned.SparesPreferences (planned : Planned serves store settings context prompt memory)
    (after : Memory) : Prop :=
  ∀ file, store.preferences = .file file →
    ∀ other ∈ [planned.testFile, temporaryName planned.testFile memory.processId],
      ∀ place, Leads after file.path place → ¬ Leads after other place

theorem Planned.sparesPreferences_of_lastName?
    {planned : Planned serves store settings context prompt memory}
    (h : ∀ file, store.preferences = .file file →
      ∀ other ∈ [planned.testFile, temporaryName planned.testFile memory.processId],
        Path.lastName? file.path ≠ Path.lastName? other) :
    planned.SparesPreferences after :=
  fun file hfile other hother _ hleads =>
    (Memory.KeepsApart.of_lastName? (h file hfile other hother)).not_leads hleads

/-- What writes no more than the test file leaves the preferences alone. -/
theorem Planned.SparesPreferences.leftAlone
    {planned : Planned serves store settings context prompt memory} {written : Memory}
    {changed opened paths locks : List String} (h : planned.SparesPreferences after)
    (hwritten : Frames changed opened memory written) (hafter : Frames paths locks written after)
    (hchanged : changed ⊆ [planned.testFile, temporaryName planned.testFile memory.processId]) :
    store.preferences.LeftAlone memory written := by
  cases hstore : store.preferences with
  | memory document => trivial
  | file file =>
    refine (Preferences.elsewhere_of_frames hwritten ?_).untouched
    intro other hother place hleads hother'
    exact h file hstore other (hchanged hother) place (hleads.keeps hafter.changes)
      (hother'.keeps hafter.changes)

/-- A generation that is no dry run takes one turn, and unless it writes the
preference file as its test file, the turn starts from the document that was
in the file before. -/
theorem Planned.runs_carryOut (hserves : Refines serves Attempts)
    (hready : store.preferences.Ready memory)
    {planned : Planned serves store settings context prompt memory}
    {reply : Except Failure Generated}
    (h : Runs serves planned.asked (carryOut store planned.plan planned.resolved planned.testFile)
      (reply, store') after) :
    store'.preferences.Ready after ∧ ∃ saved,
      (planned.SparesPreferences after → saved = store.preferences.saved memory) ∧
      Turn serves saved planned.resolved.pending store.preferences reply.toBool store'.preferences
        (store'.preferences.saved after) := by
  have hasked := planned.frames hserves
  have hprocess := hasked.changes.processId
  obtain ⟨wrote, written, hwrite, hrest⟩ := runs_andThen.1 h
  have hends := runs_writeCase hserves hwrite
  rw [hprocess] at hends
  rcases hends with ⟨failure, rfl, hframes⟩ | ⟨outcome, text, rfl, hdecides, -⟩
  · obtain ⟨hresult, rfl⟩ := runs_done.1 hrest
    cases hresult
    have hwritten := (hasked.mono (List.nil_subset _) (List.nil_subset _)).trans hframes
    refine ⟨hready.later hwritten.changes, _, fun hspares => ?_, .failed store.preferences⟩
    exact (hspares.leftAlone hwritten (.refl [] [] after) (by simp)).saved_eq hready
  · obtain ⟨⟨committed, last⟩, saved, hcommit, hend⟩ := runs_andThen.1 hrest
    have hframes := hdecides.frames
    rw [hprocess] at hframes
    have hwritten := (hasked.mono (List.nil_subset _) (List.nil_subset _)).trans hframes
    have hturn := runs_commit_turn hserves (hready.later hwritten.changes) hcommit
    have hcommitted := frames_commit (hcommit.mono hserves)
    have hresult : reply.toBool = committed.toBool ∧ store' = last ∧ after = saved := by
      cases committed with
      | error failure =>
        obtain ⟨hresult, hafter⟩ := runs_done.1 hend
        cases hresult
        exact ⟨rfl, rfl, hafter⟩
      | ok done =>
        obtain ⟨hresult, hafter⟩ := runs_done.1 hend
        cases hresult
        exact ⟨rfl, rfl, hafter⟩
    obtain ⟨hreply, rfl, rfl⟩ := hresult
    rw [hreply]
    refine ⟨hturn.1, _, fun hspares => ?_, hturn.2⟩
    exact (hspares.leftAlone hwritten hcommitted (by simp)).saved_eq hready

/-- A generation that succeeds reports the directory that was resolved. -/
theorem Planned.runs_finish_ok (hserves : Refines serves Attempts)
    {planned : Planned serves store settings context prompt memory} {dryRun : Bool}
    {generated : Generated}
    (h : Runs serves planned.asked (planned.finish dryRun) (.ok generated, store') after) :
    generated.firstTime = planned.resolved.firstTime ∧ generated.testFile = planned.testFile := by
  cases dryRun with
  | true =>
    obtain ⟨-, -, generated', hok, hends⟩ := Planned.runs_finish_dry hserves h
    cases hok
    exact hends
  | false =>
    obtain ⟨-, -, -, -, hends⟩ := Planned.runs_finish_written h
    exact hends

/-! ## Any number of turns -/

/-- A test store that was opened is on a preference file that was opened. -/
theorem runs_openTestStore {path : String} {timeoutMs : Nat}
    (h : Runs serves memory (openTestStore path timeoutMs) (.ok store) after) :
    ∃ file, store.preferences = .file file ∧
      Runs serves memory (FileStore.load path timeoutMs) (.ok file) after := by
  obtain ⟨reply, opened, hload, hrest⟩ := runs_andThen.1 h
  cases reply with
  | error failure => cases (runs_done.1 hrest).1
  | ok file =>
    obtain ⟨hstore, rfl⟩ := runs_done.1 hrest
    cases hstore
    exact ⟨file, rfl, hload⟩

/-- The directories of the preference file are made when a store is opened. -/
theorem ready_of_openTestStore (hserves : Refines serves Attempts) {path : String} {timeoutMs : Nat}
    (hwell : memory.tree.WellFormed)
    (h : Runs serves memory (openTestStore path timeoutMs) (.ok store) after) :
    store.preferences.Ready after := by
  obtain ⟨file, hfile, hload⟩ := runs_openTestStore h
  obtain ⟨hprepared, rfl, -⟩ := Preferences.runs_load hserves hwell hload
  rw [hfile]
  exact hprepared

/-- A session with a store: generations that do not write the preference file
as a test file, dry runs, and openings of the store anew.  Anything may happen
in between that leaves the preference file alone. -/
inductive Continues (serves : Behaviour) (start : TestStore) (origin : Memory) :
    TestStore → Memory → Prop where
  | start : Continues serves start origin start origin
  | outside {store : TestStore} {memory after : Memory}
      (h : Continues serves start origin store memory)
      (hleft : store.preferences.LeftAlone memory after) :
      Continues serves start origin store after
  | generated {store : TestStore} {settings : Settings} {context : Source.Context}
      {prompt : Source.FolderPrompt} {dryRun : Bool} {memory after : Memory}
      {result : Except Failure Generated × TestStore}
      (h : Continues serves start origin store memory)
      (planned : Planned serves store settings context prompt memory)
      (hfinish : Runs serves planned.asked (planned.finish dryRun) result after)
      (hspares : dryRun = false → planned.SparesPreferences after) :
      Continues serves start origin result.2 after
  | reopened {store store' : TestStore} {file : FileStore} {timeoutMs : Nat}
      {memory after : Memory} (h : Continues serves start origin store memory)
      (hfile : store.preferences = .file file)
      (hopen : Runs serves memory (openTestStore file.path timeoutMs) (.ok store') after) :
      Continues serves start origin store' after

section

variable {start : TestStore} {origin : Memory}

/-- Every generation that spares the preference file continues a session. -/
theorem Continues.generate (hserves : Refines serves Attempts) {dryRun : Bool}
    {result : Except Failure Generated × TestStore}
    (h : Continues serves start origin store memory)
    (hrun : Runs serves memory (generate store settings context prompt dryRun) result after)
    (hspares : dryRun = false →
      ∀ planned : Planned serves store settings context prompt memory,
        Runs serves planned.asked (planned.finish dryRun) result after →
        planned.SparesPreferences after) :
    Continues serves start origin result.2 after := by
  rcases runs_generate_planned hserves hrun with ⟨failure, rfl, hframes⟩ | ⟨planned, hfinish⟩
  · exact h.outside (Store.leftAlone_of_frames _ hframes)
  · exact h.generated planned hfinish fun hdry => hspares hdry planned hfinish

/-- What every turn and every opening keeps of a store and of the document in
its file, a session keeps. -/
theorem Continues.invariant (holds : Store → Document → Prop)
    (hserves : Refines serves Attempts) (hready : start.preferences.Ready origin)
    (hstart : holds start.preferences (start.preferences.saved origin))
    (hturn : ∀ {store store' : Store} {saved saved' : Document} {pending : Option PendingOutput}
      {succeeded : Bool}, holds store saved →
      (∀ output, pending = some output → lookup? store.document output.source = none) →
      Turn serves saved pending store succeeded store' saved' → holds store' saved')
    (hopened : ∀ {file file' : FileStore} {saved : Document}, holds (.file file) saved →
      file'.path = file.path → file'.pending = [] → MayShow serves saved file'.document →
      holds (.file file') saved)
    (h : Continues serves start origin store memory) :
    store.preferences.Ready memory ∧
      holds store.preferences (store.preferences.saved memory) := by
  induction h with
  | start => exact ⟨hready, hstart⟩
  | outside h hleft ih =>
    rw [hleft.saved_eq ih.1]
    exact ⟨hleft.ready ih.1, ih.2⟩
  | @generated store settings context prompt dryRun memory after result h planned hfinish hspares
      ih =>
    cases dryRun with
    | true =>
      obtain ⟨hstore, hframes, -⟩ := Planned.runs_finish_dry hserves hfinish
      have hleft := Store.leftAlone_of_frames store.preferences hframes
      rw [hstore, hleft.saved_eq ih.1]
      exact ⟨hleft.ready ih.1, ih.2⟩
    | false =>
      obtain ⟨hready, saved, hsaved, hturned⟩ := Planned.runs_carryOut hserves ih.1 hfinish
      rw [hsaved (hspares rfl)] at hturned
      refine ⟨hready, hturn ih.2 ?_ hturned⟩
      intro output hpending
      rcases runs_resolve planned.resolves with ⟨-, -, hnone⟩ | ⟨hunknown, -, hsome⟩
      · rw [hnone] at hpending
        cases hpending
      · rw [hsome, Option.some.injEq] at hpending
        rw [← hpending]
        exact hunknown
  | @reopened store store' file timeoutMs memory after h hfile hopen ih =>
    rw [hfile] at ih
    obtain ⟨file', hfile', hload⟩ := runs_openTestStore hopen
    have hprepared : Prepared memory file.path := ih.1
    obtain ⟨hprepared', hpath, hpending, hshows⟩ :=
      Preferences.runs_load hserves hprepared.wellFormed hload
    have hleft : Elsewhere file.path memory after :=
      Preferences.elsewhere_of_frames (Preferences.frames_load (hload.mono hserves)) (by simp)
    rw [hleft.savedDocument_eq hprepared] at hshows
    rw [hfile']
    refine ⟨?_, ?_⟩
    · show Prepared after file'.path
      rw [hpath]
      exact hprepared'
    · show holds (.file file') (savedDocument after file'.path)
      rw [hpath, hleft.savedDocument_eq hprepared]
      exact hopened ih.2 hpath hpending hshows

end

end TestSkeleton.Generation
