import TestSkeleton.Proofs.Generation.Sessions
import TestSkeleton.Proofs.Preferences.Layout

/-!
# Directories that are used again

Once a directory is remembered for a source file it stays, through the
generations for other source files, failures, dry runs and openings of the
store anew: nobody is asked again and the directory does not change.

* `directory_ne_empty`: no prompt gives the empty directory, which would count
  as none.
* `Recalls` says that a store, and the file that it would be opened from again,
  remember a directory.  `Recalls.turn` keeps it for every generation, and
  `Continues.recalls` for a session.
* `Continues.reuses` is the result.  What it cannot do without is that no test
  file takes the place of the preference file, which nothing checks, and that
  the directory is a text: `not_reuses` has a session without the one and a
  store without the other.
-/

namespace TestSkeleton

namespace Path

theorem join_ne_empty {base next : String} (h : base ≠ "") : join base next ≠ "" := by
  rw [join]
  split
  · rintro rfl
    contradiction
  · split
    · exact fun hempty => h (String.append_eq_empty_iff.1 hempty).1
    · exact fun hempty => h (String.append_eq_empty_iff.1 (String.append_eq_empty_iff.1 hempty).1).1

theorem foldl_join_ne_empty {start : String} (h : start ≠ "") (names : List String) :
    names.foldl join start ≠ "" := by
  induction names generalizing start with
  | nil => exact h
  | cons name names ih => exact ih (join_ne_empty h)

theorem absolute_ne_empty {current : String} (h : current ≠ "") (path : String) :
    absolute current path ≠ "" := by
  have hstart : (if isAbsolute path then if startsWithTwoSlashes path then "//" else "/"
      else current) ≠ "" := by
    split
    · split <;> decide
    · exact h
  have hwalked := foldl_join_ne_empty hstart (steps path)
  rw [absolute]
  split
  · exact join_ne_empty hwalked
  · exact hwalked

theorem containingDir_ne_empty (path : String) : containingDir path ≠ "" := by
  rw [containingDir]
  split
  · split
    · decide
    · rename_i hnonempty
      simpa using hnonempty
  · decide

theorem pathOf_ne_empty (place : Files.Place) : Files.Memory.pathOf place ≠ "" := by
  cases place with
  | nil => decide
  | cons name place => simp [Files.Memory.pathOf, String.join_cons]

end Path

namespace Generation

open Files
open Files.Action (Runs runs_done runs_andThen)
open Memory (Attempts)
open Preferences (Document FileStore MayShow Reads Store)
open Preferences.Outputs (lookup? lookup?_rememberChanges)

variable {serves : Behaviour} {store store₁ store₂ : TestStore} {settings : Settings}
  {context : Source.Context} {prompt : Source.FolderPrompt} {memory memory₁ memory₂ after : Memory}

/-! ## Directories are not empty -/

/-- No prompt answers with the empty directory, unless it is the one that was
fixed. -/
theorem runs_choose {source : String} {answer : Option String} (hprompt : prompt ≠ .fixed "")
    (h : Runs serves memory (prompt.choose source) answer after) : answer ≠ some "" := by
  cases prompt with
  | fixed directory =>
    obtain ⟨rfl, -⟩ := runs_done.1 h
    intro hempty
    rw [Option.some.inj hempty] at hprompt
    exact hprompt rfl
  | declined =>
    obtain ⟨rfl, -⟩ := runs_done.1 h
    exact fun hempty => nomatch hempty
  | interactive =>
    obtain ⟨reply, asked, -, hrest⟩ := runs_andThen.1 h
    cases reply with
    | error fault =>
      obtain ⟨told, warned, -, hend⟩ := runs_andThen.1 hrest
      obtain ⟨rfl, -⟩ := runs_done.1 hend
      exact fun hempty => nomatch hempty
    | ok line =>
      obtain ⟨rfl, -⟩ := runs_done.1 hrest
      intro hempty
      split at hempty
      · cases hempty
      · rename_i hnonempty
        rw [Option.some.inj hempty] at hnonempty
        exact hnonempty rfl

/-- A directory that is chosen the first time is not empty. -/
theorem directory_ne_empty (hserves : Refines serves Attempts) {absolute : String}
    {resolved : ResolvedOutput} (hprompt : prompt ≠ .fixed "")
    (h : Runs serves memory (store.resolve absolute prompt) resolved after)
    (hfirst : resolved.firstTime = true) : resolved.directory ≠ "" := by
  have hunknown : lookup? store.preferences.document absolute = none := by
    rcases runs_resolve h with ⟨-, hlater, -⟩ | ⟨hunknown, -, -⟩
    · rw [hfirst] at hlater
      cases hlater
    · exact hunknown
  have hchoice := choice_of_runs (locates_of_refines hserves) h
  generalize resolved.directory = directory at hchoice ⊢
  cases hchoice with
  | beside => exact Path.containingDir_ne_empty absolute
  | remembered hlookup hdirectory =>
    rw [hunknown] at hlookup
    cases hlookup
  | same hchoose hrelative => exact fun hempty => runs_choose hprompt hchoose (congrArg some hempty)
  | answered hchoose => exact Path.absolute_ne_empty (Path.pathOf_ne_empty memory.current) _

/-! ## What stays remembered -/

/-- Whether a directory is remembered for a source file and used. -/
def Shows (source directory : String) (document : Document) : Prop :=
  lookup? document source = some { directory := some directory, inUse := true }

theorem Shows.changes_of_ne {source directory : String} {document : Document}
    (h : Shows source directory document) {output : PendingOutput}
    (hother : output.source ≠ source) :
    Shows source directory (document.applyAll output.changes) := by
  rw [Shows, PendingOutput.changes, lookup?_rememberChanges, if_neg (Ne.symm hother), h]
  rfl

theorem Shows.changes {source directory : String} {document : Document}
    (h : Shows source directory document) {outputs : List PendingOutput}
    (hothers : ∀ output ∈ outputs, output.source ≠ source) :
    Shows source directory (document.applyAll (outputs.flatMap PendingOutput.changes)) := by
  induction outputs generalizing document with
  | nil => exact h
  | cons output outputs ih =>
    rw [List.flatMap_cons, Document.applyAll_append]
    exact ih (h.changes_of_ne (hothers output List.mem_cons_self))
      fun other hother => hothers other (List.mem_cons_of_mem output hother)

/-- A directory is remembered once it is recorded. -/
theorem shows_changes (document : Document) (output : PendingOutput)
    (hdirectory : output.directory ≠ "") :
    Shows output.source output.directory (document.applyAll output.changes) := by
  rw [Shows, PendingOutput.changes, lookup?_rememberChanges, if_pos rfl]
  simp [hdirectory]

/-- A remembered directory is used without asking. -/
theorem Shows.resolve_eq {source directory : String}
    (h : Shows source directory store.preferences.document) (prompt : Source.FolderPrompt) :
    store.resolve source prompt = .done ⟨directory, false, none⟩ := by
  rw [TestStore.resolve, h]
  rfl

/-- Whether a directory is remembered in a store, and in its file as well.
What is pending is about other source files. -/
inductive Recalls (source directory : String) : Store → Document → Prop where
  | memory {document saved : Document} (hshows : Shows source directory document) :
      Recalls source directory (.memory document) saved
  | file {file : FileStore} {saved : Document} (outputs : List PendingOutput)
      (hshows : Shows source directory file.document) (hsaved : Shows source directory saved)
      (hpending : file.pending = outputs.flatMap PendingOutput.changes)
      (hothers : ∀ output ∈ outputs, output.source ≠ source) :
      Recalls source directory (.file file) saved

namespace Recalls

variable {source directory : String} {before : Store} {saved : Document}

theorem shows (h : Recalls source directory before saved) :
    Shows source directory before.document := by
  cases h with
  | memory hshows => exact hshows
  | file _ hshows => exact hshows

/-- A source file whose directory is remembered is not remembered anew. -/
theorem source_ne (h : Recalls source directory before saved) {output : PendingOutput}
    (hunknown : lookup? before.document output.source = none) : output.source ≠ source := by
  rintro rfl
  rw [h.shows] at hunknown
  cases hunknown

/-- A directory is remembered by the generation that was the first for its
source file. -/
theorem first {output : PendingOutput} (hdirectory : output.directory ≠ "") {later : Store}
    {saved' : Document} (h : Turn serves saved (some output) before true later saved') :
    Recalls output.source output.directory later saved' := by
  cases h with
  | known _ hnone => cases hnone
  | shown hpending =>
    cases hpending
    exact .memory (shows_changes _ output hdirectory)
  | @saved file _ document hpending =>
    cases hpending
    have hshows := shows_changes (document.applyAll file.pending) output hdirectory
    rw [← Document.applyAll_append] at hshows
    exact .file [] hshows hshows rfl (fun _ hmem => nomatch hmem)

/-- A generation leaves a remembered directory as it is. -/
theorem turn (hreads : ∀ file, before = .file file → Refines serves Reads)
    (h : Recalls source directory before saved) {pending : Option PendingOutput}
    (hunknown : ∀ output, pending = some output → lookup? before.document output.source = none)
    {succeeded : Bool} {later : Store} {saved' : Document}
    (hturn : Turn serves saved pending before succeeded later saved') :
    Recalls source directory later saved' := by
  have hother {output : PendingOutput} (hpending : pending = some output) :
      output.source ≠ source := h.source_ne (hunknown output hpending)
  cases hturn with
  | failed => exact h
  | known => exact h
  | shown hpending =>
    cases h with
    | memory hshows => exact .memory (hshows.changes_of_ne (hother hpending))
  | @unsaved file output hpending =>
    cases h with
    | file outputs hshows hsaved houtputs hothers =>
      refine .file (outputs ++ [output]) (hshows.changes_of_ne (hother hpending)) hsaved ?_ ?_
      · rw [houtputs, List.flatMap_append, List.flatMap_singleton]
      · intro other hmem
        rcases List.mem_append.1 hmem with hmem | hmem
        · exact hothers other hmem
        · rw [List.mem_singleton.1 hmem]
          exact hother hpending
  | @saved file output document hpending hread =>
    cases h with
    | file outputs hshows hsaved houtputs hothers =>
      obtain rfl := hread.eq_saved (hreads file rfl)
      have hkept : Shows source directory
          (document.applyAll (file.pending ++ output.changes)) := by
        rw [houtputs, Document.applyAll_append]
        exact (hsaved.changes hothers).changes_of_ne (hother hpending)
      exact .file [] hkept hkept rfl (fun _ hmem => nomatch hmem)

/-- A store that is opened again knows what was saved. -/
theorem reopened (hserves : Refines serves Reads) {file file' : FileStore}
    (h : Recalls source directory (.file file) saved) (hpending : file'.pending = [])
    (hshows : MayShow serves saved file'.document) :
    Recalls source directory (.file file') saved := by
  cases h with
  | file _ _ hsaved =>
    refine .file [] ?_ hsaved hpending (fun _ hmem => nomatch hmem)
    rw [hshows.eq_saved hserves]
    exact hsaved

end Recalls

/-! ## Sessions -/

/-- The generation that is the first for a source file leaves its directory
remembered. -/
theorem Planned.recalls (hserves : Refines serves Attempts)
    (hreads : ∀ file, store.preferences = .file file → Refines serves Reads)
    (hready : store.preferences.Ready memory)
    {planned : Planned serves store settings context prompt memory} (hprompt : prompt ≠ .fixed "")
    {generated : Generated}
    (hfirst : Runs serves planned.asked (planned.finish false) (.ok generated, store₁) memory₁)
    (hfirstTime : generated.firstTime = true) :
    store₁.preferences.Ready memory₁ ∧
      (∀ file, store₁.preferences = .file file → Refines serves Reads) ∧
      Recalls planned.absolute planned.resolved.directory store₁.preferences
        (store₁.preferences.saved memory₁) := by
  obtain ⟨hready₁, saved, -, hturn⟩ := Planned.runs_carryOut hserves hready hfirst
  have hresolved : planned.resolved.firstTime = true :=
    (Planned.runs_finish_ok hserves hfirst).1.symm.trans hfirstTime
  have hdirectory := directory_ne_empty hserves hprompt planned.resolves hresolved
  have hpending : planned.resolved.pending =
      some ⟨planned.absolute, planned.resolved.directory⟩ := by
    rcases runs_resolve planned.resolves with ⟨-, hknown, -⟩ | ⟨-, -, hpending⟩
    · rw [hresolved] at hknown
      cases hknown
    · exact hpending
  rw [hpending] at hturn
  refine ⟨hready₁, ?_, Recalls.first hdirectory hturn⟩
  intro file hfile
  rw [hfile] at hturn
  obtain ⟨file', hfile'⟩ := hturn.of_file
  exact hreads file' hfile'

/-- A session leaves a remembered directory as it is. -/
theorem Continues.recalls {source directory : String} (hserves : Refines serves Attempts)
    (hreads : ∀ file, store₁.preferences = .file file → Refines serves Reads)
    (hready : store₁.preferences.Ready memory₁)
    (hrecalls : Recalls source directory store₁.preferences (store₁.preferences.saved memory₁))
    (hsession : Continues serves store₁ memory₁ store₂ memory₂) :
    Recalls source directory store₂.preferences (store₂.preferences.saved memory₂) := by
  -- a store stays on its file, which can be read throughout
  have hinvariant := hsession.invariant
    (fun store saved => Recalls source directory store saved ∧
      ∀ file, store = .file file → Refines serves Reads)
    hserves hready ⟨hrecalls, hreads⟩ ?_ ?_
  · exact hinvariant.2.1
  · intro store store' saved saved' pending succeeded h hunknown hturn
    refine ⟨h.1.turn h.2 hunknown hturn, ?_⟩
    intro file hfile
    rw [hfile] at hturn
    obtain ⟨file', hfile'⟩ := hturn.of_file
    exact h.2 file' hfile'
  · intro file file' saved h _ hpending hshows
    have hread := h.2 file rfl
    exact ⟨h.1.reopened hread hpending hshows, fun _ _ => hread⟩

/-- Once a generation has remembered a directory for a source file, that is
the directory of its test file in all generations that follow in a session.
Nobody is asked for a directory again and no generation is the first again.
For preferences in a file this needs that the file can be read when it is
there, and that no test file takes its place; whatever else fails, whatever is
generated for other source files, and from which directories, does not matter.
The plans are those of all generations that come to choose a directory
(`runs_generate_planned`). -/
theorem Continues.reuses (hserves : Refines serves Attempts)
    (hreads : ∀ file, store.preferences = .file file → Refines serves Reads)
    (hready : store.preferences.Ready memory)
    {planned : Planned serves store settings context prompt memory} (hprompt : prompt ≠ .fixed "")
    {generated : Generated}
    (hfirst : Runs serves planned.asked (planned.finish false) (.ok generated, store₁) memory₁)
    (hfirstTime : generated.firstTime = true)
    (hsession : Continues serves store₁ memory₁ store₂ memory₂) :
    (∀ prompt, store₂.resolve planned.absolute prompt =
      .done ⟨planned.resolved.directory, false, none⟩) ∧
    ∀ {settings : Settings} {context : Source.Context} {prompt : Source.FolderPrompt}
      (later : Planned serves store₂ settings context prompt memory₂),
      later.absolute = planned.absolute →
      later.asked = later.located ∧
      later.testFile = Path.join planned.resolved.directory later.plan.fileName ∧
      ∀ {dryRun : Bool} {generated : Generated} {store' : TestStore} {after : Memory},
        Runs serves later.asked (later.finish dryRun) (.ok generated, store') after →
        generated.firstTime = false ∧ generated.testFile = later.testFile := by
  obtain ⟨hready₁, hreads₁, hrecalls⟩ :=
    Planned.recalls hserves hreads hready hprompt hfirst hfirstTime
  have hrecalls₂ := hsession.recalls hserves hreads₁ hready₁ hrecalls
  have hresolve := hrecalls₂.shows.resolve_eq
  refine ⟨hresolve, ?_⟩
  intro settings context prompt later hsource
  have hresolves := later.resolves
  rw [hsource, hresolve, runs_done] at hresolves
  refine ⟨hresolves.2, ?_, ?_⟩
  · rw [Planned.testFile, hresolves.1]
  · intro dryRun generated store' after hfinish
    obtain ⟨hfirst, htestFile⟩ := Planned.runs_finish_ok hserves hfinish
    rw [hresolves.1] at hfirst
    exact ⟨hfirst, htestFile⟩

/-- A preference file with the name of the temporary file that replaces a
test file. -/
def lostPath : String :=
  temporaryName "/bTest.cpp" 1

/-- The store on that file. -/
def lostStore : TestStore where
  preferences := .file { path := lostPath, timeoutMs := 0 }
  lockDir := StatePaths.lockDir lostPath
  timeoutMs := 0

/-- The system after the store was opened. -/
def lostOrigin : Memory :=
  (({} : Memory).run (openTestStore lostPath 0)).2

/-- The generation that remembers a directory. -/
def rememberingRun : (Except Failure Generated × TestStore) × Memory :=
  lostOrigin.run (generate lostStore {} ⟨some "/a.cpp", .text "void f();"⟩ .declined false)

/-- A generation for the other source file, which loses the preferences. -/
def losingRun : (Except Failure Generated × TestStore) × Memory :=
  rememberingRun.2.run
    (generate rememberingRun.1.2 {} ⟨some "/b.cpp", .text "void g();"⟩ .declined false)

/-- A later generation for the first source file. -/
def forgottenRun : (Except Failure Generated × TestStore) × Memory :=
  losingRun.2.run (generate losingRun.1.2 {} ⟨some "/a.cpp", .text "void h();"⟩ .declined true)

/-- The system as a process sees it that has another current directory. -/
def movedMemory : Memory :=
  { rememberingRun.2 with current := ["locks"] }

/-- Whether preferences are in the file at a path. -/
def isOnFile (path : String) : Store → Bool
  | .memory _ => false
  | .file file => file.path == path

/-- What the theorem says when nothing but a dry run follows, from another
directory. -/
theorem reuses_rememberingRun :
    ∃ (planned : Planned Reads lostStore {} ⟨some "/a.cpp", .text "void f();"⟩ .declined lostOrigin)
      (generated : Generated) (store₂ : TestStore) (memory₂ : Memory),
      Runs Reads planned.asked (planned.finish false) (.ok generated, rememberingRun.1.2)
        rememberingRun.2 ∧
      generated.firstTime = true ∧
      Continues Reads rememberingRun.1.2 rememberingRun.2 store₂ memory₂ ∧
      (∀ prompt, store₂.resolve planned.absolute prompt =
        .done ⟨planned.resolved.directory, false, none⟩) ∧
      ∀ {settings : Settings} {context : Source.Context} {prompt : Source.FolderPrompt}
        (later : Planned Reads store₂ settings context prompt memory₂),
        later.absolute = planned.absolute →
        later.asked = later.located ∧
        later.testFile = Path.join planned.resolved.directory later.plan.fileName ∧
        ∀ {dryRun : Bool} {generated : Generated} {store' : TestStore} {after : Memory},
          Runs Reads later.asked (later.finish dryRun) (.ok generated, store') after →
          generated.firstTime = false ∧ generated.testFile = later.testFile := by
  have hopened : (({} : Memory).run (openTestStore lostPath 0)).1.toOption = some lostStore ∧
      rememberingRun.1.1.toOption.map Generated.firstTime = some true ∧
      isOnFile lostPath rememberingRun.1.2.preferences = true ∧
      Path.isAbsolute lostPath = true ∧ Path.steps lostPath ≠ [] := by
    decide +kernel
  obtain ⟨hstore, hfirstTime, honFile, hpath⟩ := hopened
  have hready : lostStore.preferences.Ready lostOrigin :=
    ready_of_openTestStore Preferences.reads_refines Tree.wellFormed_empty
      (Preferences.runs_of_toOption hstore)
  obtain ⟨generated, hgenerated, hfirstTime⟩ := Option.map_eq_some_iff.1 hfirstTime
  obtain ⟨planned, hfirst⟩ := runs_generate_ok Preferences.reads_refines
    (Preferences.runs_fst_of_toOption hgenerated)
  have hmoved : rememberingRun.1.2.preferences.LeftAlone rememberingRun.2 movedMemory := by
    refine Store.leftAlone_of_isAbsolute _ (fun file hfile => ?_) rfl
    rw [hfile, isOnFile, beq_iff_eq] at honFile
    rw [honFile]
    exact hpath
  have hstart : Continues Reads rememberingRun.1.2 rememberingRun.2 rememberingRun.1.2
      movedMemory := .outside .start hmoved
  have hsession := hstart.generate Preferences.reads_refines
    (Action.runs_run Preferences.reads_serve
      (generate rememberingRun.1.2 {} ⟨some "/b.cpp", .text "void g();"⟩ .declined true)
      movedMemory)
    (fun hdry => nomatch hdry)
  exact ⟨planned, generated, _, _, hfirst, hfirstTime, hsession,
    Continues.reuses Preferences.reads_refines (fun _ _ => .refl Reads) hready
      (fun hfixed => nomatch hfixed) hfirst hfirstTime hsession⟩

/-- A store in memory after a directory is remembered that is no text. -/
def untextedStore : TestStore where
  preferences := Preferences.Outputs.afterRemembering (.memory {}) {} "/src/Job.cpp"
    Preferences.Outputs.untextedDirectory
  lockDir := "/locks"

/-- A test file beside which the preferences are written takes them away: the
directory is chosen for a first time once more.  And for a directory that is no
text another one is used later. -/
theorem not_reuses :
    ((({} : Memory).run (openTestStore lostPath 0)).1.toOption = some lostStore ∧
      rememberingRun.1.1.toOption.map Generated.firstTime = some true ∧
      losingRun.1.1.toOption.map Generated.firstTime = some true ∧
      forgottenRun.1.1.toOption.map Generated.firstTime = some true) ∧
    (∀ prompt, untextedStore.resolve "/src/Job.cpp" prompt = .done ⟨"/w/\uFFFD", false, none⟩) ∧
      Path.SystemPath.ofText "/w/\uFFFD" ≠ Preferences.Outputs.untextedDirectory := by
  have hshows : Shows "/src/Job.cpp" "/w/\uFFFD" untextedStore.preferences.document := by
    rw [Shows]
    decide +kernel
  exact ⟨by decide +kernel, hshows.resolve_eq, by decide +kernel⟩

end Generation

end TestSkeleton
