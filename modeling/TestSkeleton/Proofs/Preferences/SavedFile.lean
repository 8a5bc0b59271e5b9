import TestSkeleton.Proofs.Files.Attempting
import TestSkeleton.Proofs.Preferences.Sharing

/-!
# The saved document

What a preference file counts as, and what one process makes of it when its
requests may fail.

* `savedDocument` is the document in a file, and `Decodes.savedDocument_eq`
  that it is the one that was written there.
* `Prepared` is what taking the lock leaves for good: the directories of the
  file.
* `Untouched` says that a file is left alone, whatever else happens, and
  `Elsewhere` that the requests of a process leave it alone.
* `MayShow` is what a reader may take a document for.
* `runs_readFile_of_writeFile`: what is written is read back as it was.
* `runs_load` and `runs_save` are the two actions of a store on a file.
-/

namespace TestSkeleton.Preferences

open Files
open Files.Action (Runs runs_done runs_step runs_andThen)
open Memory (Attempts Changes Frames Leads HasFile)

variable {serves : Behaviour} {memory between after : Memory} {path : String}
  {document : Document}

/-! ## What a file counts as -/

/-- The document in a preference file.  A file that is missing or holds
something else counts as empty. -/
def savedDocument (memory : Memory) (path : String) : Document :=
  documentOf (memory.tree.read memory.current path)

theorem documentOf_empty : documentOf (.ok .empty) = {} := by
  have hparse : Document.parse? "" = none := by decide +kernel
  rw [show ByteArray.empty = "".toUTF8 from rfl, documentOf_text, hparse]
  rfl

theorem savedDocument_of_hasFile {content : ByteArray} (h : HasFile memory path content) :
    savedDocument memory path = documentOf (.ok content) := by
  rw [savedDocument, h.read]

theorem Decodes.savedDocument_eq (h : Decodes memory path document) :
    savedDocument memory path = document := by
  obtain ⟨text, hread, hparse⟩ := h
  rw [savedDocument, hread, documentOf_text, hparse]
  rfl

/-- A file counts as the document that its text gives, or as empty. -/
theorem decodes_savedDocument (memory : Memory) (path : String) :
    Decodes memory path (savedDocument memory path) ∨ savedDocument memory path = {} := by
  rw [savedDocument]
  cases hread : memory.tree.read memory.current path with
  | error fault => exact Or.inr rfl
  | ok content =>
    cases htext : String.fromUTF8? content with
    | none =>
      refine Or.inr ?_
      rw [documentOf, textOf, htext]
      rfl
    | some text =>
      rw [Text.eq_toUTF8_of_fromUTF8? htext] at hread ⊢
      rw [documentOf_text]
      cases hparse : Document.parse? text with
      | none => exact Or.inr rfl
      | some document => exact Or.inl ⟨text, hread, hparse⟩

/-- Whether the directories of a preference file and of its lock file are
made. -/
structure Prepared (memory : Memory) (path : String) : Prop where
  wellFormed : memory.tree.WellFormed
  lock : ∃ place, Leads memory (StatePaths.preferenceLock path) place

theorem Prepared.later {changed : Place → Prop} (h : Prepared memory path)
    (hchanges : Changes changed memory after) : Prepared after path := by
  obtain ⟨place, hlock⟩ := h.lock
  exact ⟨hchanges.wellFormed h.wellFormed, place, hlock.keeps hchanges⟩

/-- Whether a preference file is left alone.  Its path leads to the same
document, and what was made for it is still there.  Anything else may change,
also the current directory from which the path is followed. -/
structure Untouched (path : String) (before after : Memory) : Prop where
  prepared : Prepared before path → Prepared after path
  savedDocument_eq : Prepared before path → savedDocument after path = savedDocument before path

/-- A process with another current directory, or another number, finds a file
at a path from the root as it is. -/
theorem untouched_of_isAbsolute (habsolute : Path.isAbsolute path = true)
    (hsteps : Path.steps path ≠ []) (htree : after.tree = memory.tree) :
    Untouched path memory after := by
  have hstart {other : String} (hother : Path.isAbsolute other = true) :
      Tree.startOf after.current other = Tree.startOf memory.current other := by
    rw [Tree.startOf, Tree.startOf, if_pos hother, if_pos hother]
  constructor
  · intro h
    obtain ⟨place, parent, name, hleads, hplace⟩ := h.lock
    obtain ⟨above, habove⟩ := Path.exists_parent? hsteps
    have hlock := hstart ((Tree.steps_preferenceLock habove).1.trans habsolute)
    refine ⟨htree ▸ h.wellFormed, place, parent, name, ?_, hplace⟩
    rw [htree]
    exact hleads.of_startOf hlock
  · intro _
    rw [savedDocument, savedDocument, htree, Tree.read, Tree.read, Tree.locate, Tree.locate,
      hstart habsolute]

/-- Whether a file is left alone by a process.  If it is missing, a directory
or an empty file may take its name. -/
structure Elsewhere (path : String) (before after : Memory) : Prop where
  node : ∀ place, Leads after path place → Tree.KeepsOrAdds before.tree after.tree place
  directories : Tree.KeepsDirectories before.tree after.tree
  wellFormed : before.tree.WellFormed → after.tree.WellFormed
  current : after.current = before.current

theorem elsewhere_of_frames {changed opened : List String} (h : Frames changed opened memory after)
    (hspares : ∀ other ∈ changed, ∀ place, Leads after path place → ¬ Leads after other place) :
    Elsewhere path memory after := by
  refine ⟨?_, h.changes.directories, h.changes.wellFormed, h.changes.current⟩
  intro place hleads
  apply h.changes.node
  rintro ⟨other, hother, hother'⟩
  exact hspares other hother place hleads hother'

/-- The temporary file of a preference file is another file. -/
theorem elsewhere_of_temporary {opened : List String} {processId : Nat}
    (h : Frames [temporaryName path processId] opened memory after) :
    Elsewhere path memory after := by
  refine elsewhere_of_frames h ?_
  intro other hother place hleads
  rw [List.mem_singleton.1 hother]
  exact (Memory.KeepsApart.temporary path processId).not_leads hleads

namespace Elsewhere

theorem prepared (h : Elsewhere path memory after) (hprepared : Prepared memory path) :
    Prepared after path := by
  obtain ⟨place, parent, name, hleads, hplace⟩ := hprepared.lock
  refine ⟨h.wellFormed hprepared.wellFormed, place, parent, name, ?_, hplace⟩
  rw [h.current]
  exact hleads.keeps h.directories

/-- A file that is left alone counts as the same document, if its path led
to it before. -/
theorem savedDocument_eq_of_leads (h : Elsewhere path memory after)
    (hwell : memory.tree.WellFormed)
    (hleads : ∀ place content, Leads after path place →
      memory.tree.node? place = some (.file content) → Leads memory path place) :
    savedDocument after path = savedDocument memory path := by
  cases hread : memory.tree.read memory.current path with
  | ok content =>
    obtain ⟨parent, name, hname, hnode⟩ := Memory.hasFile_of_read hwell hread
    have hname' : after.tree.LeadsTo after.current path parent name := by
      rw [h.current]
      exact hname.keeps h.directories
    have hnode' := (h.node _ ⟨parent, name, hname', rfl⟩).eq_of_some hnode
    have hafter : HasFile after path content := ⟨parent, name, hname', hnode'⟩
    rw [savedDocument_of_hasFile hafter, savedDocument, hread]
  | error fault =>
    have hbefore : savedDocument memory path = {} := by
      rw [savedDocument, hread]
      rfl
    rw [hbefore]
    cases hread' : after.tree.read after.current path with
    | error fault' =>
      rw [savedDocument, hread']
      rfl
    | ok content =>
      have hafter := Memory.hasFile_of_read (h.wellFormed hwell) hread'
      rw [savedDocument_of_hasFile hafter]
      obtain ⟨place, hplace, hnode⟩ := hafter.leads
      rcases (h.node place hplace).eq_of_file hnode with hsame | ⟨-, rfl⟩
      · -- the file could have been read before
        obtain ⟨parent, name, hname, rfl⟩ := hleads place content hplace hsame
        have hfile : HasFile memory path content := ⟨parent, name, hname, hsame⟩
        rw [hfile.read] at hread
        cases hread
      · exact documentOf_empty

/-- From the time on when the directories are made, a file that is left alone
counts as the same document. -/
theorem savedDocument_eq (h : Elsewhere path memory after) (hprepared : Prepared memory path) :
    savedDocument after path = savedDocument memory path := by
  refine h.savedDocument_eq_of_leads hprepared.wellFormed ?_
  rintro place content ⟨parent, name, hname, hplace⟩ -
  obtain ⟨lock, other, last, hlock, -⟩ := hprepared.lock
  rw [h.current] at hname
  exact ⟨parent, name, hname.of_preferenceLock hlock, hplace⟩

theorem untouched (h : Elsewhere path memory after) : Untouched path memory after :=
  ⟨h.prepared, h.savedDocument_eq⟩

end Elsewhere

/-! ## Reading -/

/-- What may become of a request where a look into a file does not fail. -/
def Reads : Behaviour := fun memory request reply after =>
  Attempts memory request reply after ∧
    ∀ path, request = .read path → (reply, after) = Memory.serve request memory

theorem reads_serve (memory : Memory) (request : Request) :
    Reads memory request (memory.serve request).1 (memory.serve request).2 :=
  ⟨Memory.attempts_serve memory request, fun _ _ => rfl⟩

theorem reads_refines : Refines Reads Attempts :=
  fun _ _ _ _ h => h.1

/-- A run that succeeds is one in which no look into a file fails. -/
theorem runs_of_toOption {α : Type} {action : Action (Except Failure α)} {result : α}
    (h : (memory.run action).1.toOption = some result) :
    Runs Reads memory action (.ok result) (memory.run action).2 := by
  have hruns := Action.runs_run reads_serve action memory
  rw [eq_ok_of_toOption h] at hruns
  exact hruns

/-- The same for a run that gives a state beside its result. -/
theorem runs_fst_of_toOption {α β : Type} {action : Action (Except Failure α × β)} {result : α}
    (h : (memory.run action).1.1.toOption = some result) :
    Runs Reads memory action (.ok result, (memory.run action).1.2) (memory.run action).2 := by
  have hruns := Action.runs_run reads_serve action memory
  have hresult : (memory.run action).1 = (.ok result, (memory.run action).1.2) :=
    Prod.ext (eq_ok_of_toOption h) rfl
  rw [hresult] at hruns
  exact hruns

/-- What a reader may take a document for: for an empty one, if the file may
be unreadable. -/
inductive MayShow (serves : Behaviour) (saved : Document) : Document → Prop where
  | saved : MayShow serves saved saved
  | unread (hserves : ¬ Refines serves Reads) : MayShow serves saved {}

theorem MayShow.eq_empty_or_saved {saved : Document} (h : MayShow serves saved document) :
    document = {} ∨ document = saved := by
  cases h with
  | saved => exact Or.inr rfl
  | unread => exact Or.inl rfl

theorem MayShow.eq_saved {saved : Document} (h : MayShow serves saved document)
    (hserves : Refines serves Reads) : document = saved := by
  cases h with
  | saved => rfl
  | unread hnot => exact absurd hserves hnot

theorem isQuiet_readFile (path : String) : (readFile path).IsQuiet := by
  rw [readFile, Action.bind_eq]
  refine (isQuiet_readText path).andThen fun reply => ?_
  split
  · split
    · trivial
    · exact Action.IsQuiet.andThen (isQuiet_ofRequest trivial) fun _ => trivial
  · split
    · trivial
    · exact Action.IsQuiet.andThen (isQuiet_ofRequest trivial) fun _ => trivial

theorem runs_readFile (hserves : Refines serves Attempts)
    (h : Runs serves memory (readFile path) document after) :
    MayShow serves (savedDocument memory path) document ∧ Frames [] [] memory after := by
  refine ⟨?_, .of_isQuiet (isQuiet_readFile path) (h.mono hserves)⟩
  rw [readFile_eq] at h
  obtain ⟨reply, seen, hread, hrest⟩ := runs_step.1 h
  have hdocument : document = documentOf reply := by
    rcases goOn_cases (textOf reply) with hdone | ⟨warning, hwarn⟩
    · rw [hdone] at hrest
      exact (runs_done.1 hrest).1
    · rw [hwarn] at hrest
      obtain ⟨told, warned, -, hend⟩ := runs_step.1 hrest
      exact (runs_done.1 hend).1
  have hfound (hserve : (reply, seen) = Memory.serve (.read path) memory) :
      MayShow serves (savedDocument memory path) document := by
    have hreply : reply = memory.tree.read memory.current path := congrArg Prod.fst hserve
    rw [hdocument, hreply]
    exact .saved
  by_cases hreads : Refines serves Reads
  · exact hfound ((hreads _ _ _ _ hread).2 path rfl)
  · rcases hserves _ _ _ _ hread with hserve | ⟨fault, hfault, -⟩ | ⟨-, hdeparts⟩
    · exact hfound hserve
    · rw [hdocument, hfault]
      exact .unread hreads
    · exact hdeparts.elim

/-- A file that holds the text of a document is read without a warning. -/
theorem run_readFile_of_hasFile (h : HasFile memory path (fileText document).toUTF8) :
    memory.run (readFile path) = (document, memory) := by
  have htext : textOf (memory.tree.read memory.current path) = .ok (fileText document) := by
    rw [h.read, textOf, Text.fromUTF8?_toUTF8]
  rw [readFile_eq]
  show memory.run (goOn (textOf (memory.tree.read memory.current path))) = _
  rw [htext, goOn, parse?_fileText]
  rfl

/-! ## Writing -/

theorem decodes_of_hasFile (h : HasFile memory path (fileText document).toUTF8) :
    Decodes memory path document :=
  ⟨fileText document, h.read, parse?_fileText document⟩

/-- A document that was written is in the file, and is read back as it
was. -/
theorem runs_readFile_of_writeFile
    (h : Runs Attempts memory (writeFile path document) (.ok ()) after) :
    after.tree.read after.current path = .ok (fileText document).toUTF8 ∧
      Document.parse? (fileText document) = some document ∧
      after.run (readFile path) = (document, after) := by
  rcases Memory.runs_replace h with ⟨-, hfile, -⟩ | ⟨failure, hfailed, -⟩
  · exact ⟨hfile.read, parse?_fileText document, run_readFile_of_hasFile hfile⟩
  · cases hfailed

/-- Names and values with quotes, escapes and nothing in them, in collections
that hold strings, truth values, both or neither. -/
def sampleDocument : Document where
  collections := .ofList [
    ("Gtest \"Template\"", {
      strings := .ofList [("/src/Job.cpp", "C:\\tests\n"), ("", "\x01\x7f"), ("ß", "")]
      bools := .ofList [("use", true), ("", false)] }),
    ("", {}),
    ("strings \\ only", { strings := .ofList [("\t", "\u2028")] }),
    ("truth only", { bools := .ofList [("b", false), ("a", true)] })]

theorem runs_readFile_of_writeFile_sample :
    ∃ after, Runs Attempts {} (writeFile "prefs.json" sampleDocument) (.ok ()) after ∧
      after.tree.read after.current "prefs.json" = .ok (fileText sampleDocument).toUTF8 ∧
      Document.parse? (fileText sampleDocument) = some sampleDocument ∧
      after.run (readFile "prefs.json") = (sampleDocument, after) := by
  have hruns := Action.runs_run Memory.attempts_serve (writeFile "prefs.json" sampleDocument) {}
  have hok : (({} : Memory).run (writeFile "prefs.json" sampleDocument)).1.toBool = true := by
    decide +kernel
  obtain ⟨⟨⟩, hwritten⟩ := exists_ok_of_toBool hok
  rw [hwritten] at hruns
  exact ⟨_, hruns, runs_readFile_of_writeFile hruns⟩

/-! ## The two actions of a store -/

variable {file file' : FileStore} {timeoutMs : Nat}

/-- Opening a store makes at most its lock file. -/
theorem frames_load {result : Except Failure FileStore}
    (h : Runs Attempts memory (FileStore.load path timeoutMs) result after) :
    Frames [] [StatePaths.preferenceLock path] memory after := by
  obtain ⟨reply, locked, hacquire, hrest⟩ := Memory.runs_withLock h
  rcases hrest with ⟨failure, -, -, rfl⟩ | ⟨ticket, last, -, hbody, hrelease⟩
  · exact Memory.frames_acquire hacquire
  · obtain ⟨document, read, hread, hend⟩ := runs_andThen.1 hbody
    obtain ⟨-, rfl⟩ := runs_done.1 hend
    have hlooked := Frames.of_isQuiet (isQuiet_readFile path) hread
    exact .of_withLock hacquire (hlooked.mono (List.Subset.refl _) (List.nil_subset _)) hrelease
      (List.mem_singleton_self _)

/-- A store that was opened shows what a reader may take the file for. -/
theorem runs_load (hserves : Refines serves Attempts) (hwell : memory.tree.WellFormed)
    (h : Runs serves memory (FileStore.load path timeoutMs) (.ok file) after) :
    Prepared after path ∧ file.path = path ∧ file.pending = [] ∧
      MayShow serves (savedDocument after path) file.document := by
  obtain ⟨reply, locked, hacquire, hrest⟩ := Memory.runs_withLock h
  rcases hrest with ⟨failure, -, hrefused, -⟩ | ⟨ticket, last, rfl, hbody, hrelease⟩
  · cases hrefused
  have hacquire := hacquire.mono hserves
  have hlocked := (Memory.frames_acquire hacquire).changes
  have hprepared : Prepared locked path :=
    ⟨hlocked.wellFormed hwell, Memory.leads_of_acquire hacquire⟩
  obtain ⟨document, read, hread, hend⟩ := runs_andThen.1 hbody
  obtain ⟨hshows, hlooked⟩ := runs_readFile hserves hread
  obtain ⟨hfile, rfl⟩ := runs_done.1 hend
  cases hfile
  have hafter := hlooked.trans (Memory.frames_of_isQuiet (hserves _ _ _ _ hrelease) trivial)
  refine ⟨hprepared.later hafter.changes, rfl, rfl, ?_⟩
  rw [(elsewhere_of_frames hafter (by simp)).savedDocument_eq hprepared]
  exact hshows

/-- Opening a store leaves its file as it is.  A path that goes up from a
directory that opening has yet to make leads nowhere before. -/
theorem savedDocument_of_load {result : Except Failure FileStore}
    (hwell : memory.tree.WellFormed)
    (h : Runs Attempts memory (FileStore.load path timeoutMs) result after)
    (hpath : ".." ∉ Path.steps path ∨ ∃ place, Leads memory path place) :
    savedDocument after path = savedDocument memory path := by
  have hframes := frames_load h
  have helse : Elsewhere path memory after := elsewhere_of_frames hframes (by simp)
  refine helse.savedDocument_eq_of_leads hwell ?_
  intro place content hleads hnode
  rcases hpath with hup | ⟨place', hleads'⟩
  · obtain ⟨parent, name, hname, rfl⟩ := hleads
    rw [hframes.changes.current] at hname
    exact ⟨parent, name, hwell.leadsTo_of_node hname hup (by rw [hnode]; rfl), rfl⟩
  · rw [(hleads'.keeps hframes.changes).unique hleads]
    exact hleads'

/-- What saving made of a store and its file: nothing, if there was nothing to
save, and otherwise the document that was found there with the changes. -/
inductive Saves (serves : Behaviour) (file : FileStore) (memory after : Memory) : FileStore → Prop
    where
  | nothing (hpending : file.pending = []) (hafter : after = memory) :
      Saves serves file memory after file
  | replaced {read : Memory} {document : Document}
      (hbefore : Frames [] [file.lockPath] memory read)
      (hlock : ∃ place, Leads read file.lockPath place)
      (hshows : MayShow serves (savedDocument read file.path) document)
      (hfile : HasFile after file.path (fileText (document.applyAll file.pending)).toUTF8) :
      Saves serves file memory after
        { file with document := document.applyAll file.pending, pending := [] }

/-- Preferences are saved completely or not at all.  What could not be saved
is still shown. -/
theorem runs_save (hserves : Refines serves Attempts)
    {result : Except Failure Unit × FileStore} (h : Runs serves memory file.save result after) :
    (result.1 = .ok () ∧ Saves serves file memory after result.2 ∧
      Frames [file.path, temporaryName file.path memory.processId] [file.lockPath] memory after) ∨
    ∃ failure, result = (.error failure, file) ∧
      Frames [temporaryName file.path memory.processId] [file.lockPath] memory after := by
  rw [FileStore.save] at h
  split at h
  · rename_i hempty
    obtain ⟨rfl, rfl⟩ := runs_done.1 h
    exact Or.inl ⟨rfl, .nothing (List.isEmpty_iff.1 hempty) rfl, .refl _ _ after⟩
  obtain ⟨reply, locked, hacquire, hrest⟩ := Memory.runs_withLock h
  have hacquire := hacquire.mono hserves
  have hlocked := Memory.frames_acquire hacquire
  rcases hrest with ⟨failure, -, rfl, rfl⟩ | ⟨ticket, last, rfl, hbody, hrelease⟩
  · exact Or.inr ⟨failure, rfl, hlocked.mono (by simp) (by simp)⟩
  have hrelease := hserves _ _ _ _ hrelease
  obtain ⟨document, read, hread, hwrite⟩ := runs_andThen.1 hbody
  obtain ⟨hshows, hlooked⟩ := runs_readFile hserves hread
  obtain ⟨replaced, written, hreplace, hend⟩ := runs_andThen.1 hwrite
  have hframes {changed : List String} (hwritten : Frames changed [] read written)
      (hlast : last = written) : Frames changed [file.lockPath] memory after := by
    rw [hlast] at hrelease
    exact .of_withLock hacquire ((hlooked.mono (by simp) (by simp)).trans
      (hwritten.mono (by simp) (by simp))) hrelease (by simp)
  have hends := Memory.runs_replace (hreplace.mono hserves)
  rw [hlooked.changes.processId, hlocked.changes.processId] at hends
  rcases hends with ⟨rfl, hfile, hwritten⟩ | ⟨failure, rfl, hwritten⟩
  · obtain ⟨rfl, rfl⟩ := runs_done.1 hend
    have hreleased := Memory.frames_of_isQuiet hrelease trivial
    exact Or.inl ⟨rfl, .replaced hlocked (Memory.leads_of_acquire hacquire) hshows
      (hreleased.hasFile hfile (by simp)), hframes hwritten rfl⟩
  · obtain ⟨rfl, hlast⟩ := runs_done.1 hend
    exact Or.inr ⟨failure, rfl, hframes hwritten hlast⟩

/-! ## Either kind of store -/

namespace Store

variable {store : Store}

/-- The document in the file of a store.  A store in memory has none. -/
def saved (store : Store) (memory : Memory) : Document :=
  match store with
  | .memory _ => {}
  | .file file => savedDocument memory file.path

/-- Whether the directories of the file are made, as they are once the store
is opened. -/
def Ready (store : Store) (memory : Memory) : Prop :=
  match store with
  | .memory _ => True
  | .file file => Prepared memory file.path

/-- Whether the file of a store is left alone, if it has one. -/
def LeftAlone (store : Store) (before after : Memory) : Prop :=
  match store with
  | .memory _ => True
  | .file file => Untouched file.path before after

theorem Ready.later {changed : Place → Prop} (h : store.Ready memory)
    (hchanges : Changes changed memory after) : store.Ready after := by
  cases store with
  | memory document => trivial
  | file file => exact Prepared.later h hchanges

theorem leftAlone_of_frames {opened : List String} (store : Store)
    (h : Frames [] opened memory after) : store.LeftAlone memory after := by
  cases store with
  | memory document => trivial
  | file file => exact (elsewhere_of_frames h (by simp)).untouched

/-- A file at a path from the root is left alone while nothing but the current
directory changes. -/
theorem leftAlone_of_isAbsolute (store : Store)
    (hpath : ∀ file, store = .file file →
      Path.isAbsolute file.path = true ∧ Path.steps file.path ≠ [])
    (htree : after.tree = memory.tree) : store.LeftAlone memory after := by
  cases store with
  | memory document => trivial
  | file file => exact untouched_of_isAbsolute (hpath file rfl).1 (hpath file rfl).2 htree

theorem LeftAlone.ready (h : store.LeftAlone memory after) (hready : store.Ready memory) :
    store.Ready after := by
  cases store with
  | memory document => trivial
  | file file => exact Untouched.prepared h hready

theorem LeftAlone.saved_eq (h : store.LeftAlone memory after) (hready : store.Ready memory) :
    store.saved after = store.saved memory := by
  cases store with
  | memory document => rfl
  | file file => exact Untouched.savedDocument_eq h hready

end Store

end TestSkeleton.Preferences
