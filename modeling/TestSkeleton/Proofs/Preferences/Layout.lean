import Mathlib.Data.List.Induction
import TestSkeleton.Proofs.Preferences.NameOrder
import TestSkeleton.Proofs.Preferences.Refinement

/-!
# The layout of remembered directories

Directories, markers and the flag share the names of collections and keys,
and yet the preferences are a map from source files to directories, whatever
the source files are called.

* `LaysOut` says that a document shows a history of calls and nothing else,
  and `LaysOut.remembered` that one more call keeps that.
* `Store.InStep` says that nobody else has written the file of a store, and
  `runs_remember` what a call makes of such a store.
* `Remembers` is any number of calls, and `Remembers.lists_calls` the result.
* `lookup?_remember_unlike` has a directory that is no text, and a file that
  somebody else has written: what is looked up there is not what was
  remembered.
-/

namespace TestSkeleton.Preferences

open Files
open Files.Action (Runs runs_done runs_andThen)
open TestSkeleton.Path (SystemPath)

namespace Outputs

/-! ## Histories -/

/-- A call that remembers the directory of a source file. -/
structure Call where
  source : String
  directory : SystemPath
deriving DecidableEq, Inhabited

/-- The directory of the last call for a source file. -/
def lastDirectory? (calls : List Call) (source : String) : Option SystemPath :=
  (calls.reverse.find? fun call => call.source == source).map Call.directory

variable {calls : List Call} {call : Call} {document : Document}

theorem lastDirectory?_concat (calls : List Call) (call : Call) (source : String) :
    lastDirectory? (calls ++ [call]) source =
      if source = call.source then some call.directory else lastDirectory? calls source := by
  rw [lastDirectory?, List.reverse_append, List.reverse_singleton, List.singleton_append,
    List.find?_cons]
  by_cases h : source = call.source
  · simp [h]
  · rw [if_neg h, beq_false_of_ne fun h' => h h'.symm]
    rfl

/-- A source file without a call has no directory. -/
theorem lastDirectory?_eq_none_iff {source : String} :
    lastDirectory? calls source = none ↔ source ∉ calls.map Call.source := by
  rw [lastDirectory?, Option.map_eq_none_iff, List.find?_eq_none, List.mem_map]
  simp

/-- What a document shows after some calls: the source files in the order of
their first calls, each with the text of the directory of its last one and a
marker of its own. -/
structure LaysOut (calls : List Call) (document : Document) : Prop where
  sources : document.stringKeys rootCollection = (calls.map Call.source).eraseDups
  lookup : ∀ source, lookup? document source = (lastDirectory? calls source).map fun directory =>
    { directory := (some directory.text).filter fun d => !d.isEmpty, inUse := true }
  directory : ∀ source, document.getString? rootCollection source =
    (lastDirectory? calls source).map SystemPath.text

theorem laysOut_empty : LaysOut [] {} :=
  ⟨rfl, fun _ => rfl, fun _ => rfl⟩

/-- Only the string among the changes has a place in the order. -/
theorem stringKeys_rememberChanges (document : Document) (source directory : String) :
    (document.applyAll (rememberChanges source directory)).stringKeys rootCollection =
      addNames (document.stringKeys rootCollection) [source] := by
  have hwithin : changesWithin rootCollection (rememberChanges source directory) =
      [.create rootCollection, .setBool rootCollection useFlag true,
        .setString rootCollection source directory] := by
    simp [changesWithin, rememberChanges, Change.collection, markerFor_ne_rootCollection]
  rw [Document.stringKeys_applyAll, hwithin]
  rfl

/-- One more call is laid out like those before it. -/
theorem LaysOut.remembered (h : LaysOut calls document) (call : Call) :
    LaysOut (calls ++ [call])
      (document.applyAll (rememberChanges call.source call.directory.text)) := by
  refine ⟨?_, fun source => ?_, fun source => ?_⟩
  · rw [stringKeys_rememberChanges, h.sources, List.map_append, List.map_singleton,
      ← nil_addNames, ← nil_addNames, addNames_append]
  · rw [lookup?_rememberChanges, lastDirectory?_concat, h.lookup]
    split
    · rfl
    · rw [Option.map_map]
      rfl
  · rw [getString?_rememberChanges, lastDirectory?_concat, h.directory]
    split
    · rfl
    · rfl

/-- Every name in the root collection is listed. -/
theorem map_source_entries (document : Document) :
    (entries document).map Report.RememberedEntry.source =
      document.stringKeys rootCollection := by
  have hkeys : ∀ keys : List String,
      (∀ key ∈ keys, (document.getString? rootCollection key).isSome) →
      (keys.filterMap fun source => (document.getString? rootCollection source).map fun directory =>
        (⟨source, directory⟩ : Report.RememberedEntry)).map Report.RememberedEntry.source =
          keys := by
    intro keys
    induction keys with
    | nil => exact fun _ => rfl
    | cons key keys ih =>
      intro hsome
      obtain ⟨directory, hdirectory⟩ := Option.isSome_iff_exists.1 (hsome key List.mem_cons_self)
      rw [List.filterMap_cons, hdirectory, Option.map_some, List.map_cons,
        ih fun other hother => hsome other (List.mem_cons_of_mem key hother)]
  exact hkeys _ fun key hkey => document.mem_stringKeys_iff.1 hkey

theorem getString?_of_mem_entries {entry : Report.RememberedEntry} (h : entry ∈ entries document) :
    document.getString? rootCollection entry.source = some entry.directory := by
  obtain ⟨source, -, hentry⟩ := List.mem_filterMap.1 h
  obtain ⟨directory, hdirectory, rfl⟩ := Option.map_eq_some_iff.1 hentry
  exact hdirectory

end Outputs

/-! ## Calls on a store -/

namespace Store

variable {serves : Behaviour} {store : Store} {memory after : Memory}

/-- Whether a store shows what its file holds with the pending changes, as it
does after it was opened and until someone else writes the file.  A store in
memory always does. -/
def InStep (store : Store) (memory : Memory) : Prop :=
  match store with
  | .memory _ => True
  | .file kept => Prepared memory kept.path ∧
      kept.document = (savedDocument memory kept.path).applyAll kept.pending

theorem InStep.mirrors {kept : FileStore} (h : (Store.file kept).InStep memory) :
    Mirrors kept.path ⟨.memory kept.document, .memory (savedDocument memory kept.path)⟩ kept
      memory :=
  ⟨rfl, h.1, rfl, rfl, h.2⟩

theorem inStep_of_mirrors {path : String} {twin : Twin} {kept : FileStore}
    (h : Mirrors path twin kept memory) : (Store.file kept).InStep memory := by
  obtain rfl := h.path_eq
  exact ⟨h.prepared, h.replayed⟩

theorem InStep.record (h : store.InStep memory) (change : Change) :
    (store.record change).InStep memory := by
  cases store with
  | memory document => trivial
  | file file => exact inStep_of_mirrors (h.mirrors.recorded change)

theorem InStep.recordAll (h : store.InStep memory) (changes : List Change) :
    (store.recordAll changes).InStep memory := by
  induction changes generalizing store with
  | nil => exact h
  | cons change changes ih => exact ih (h.record change)

theorem document_recordAll (store : Store) (changes : List Change) :
    (store.recordAll changes).document = store.document.applyAll changes := by
  induction changes generalizing store with
  | nil => rfl
  | cons change changes ih => exact (ih _).trans (by rw [document_record]; rfl)

theorem InStep.leftAlone (h : store.InStep memory) (hleft : store.LeftAlone memory after) :
    store.InStep after := by
  cases store with
  | memory document => trivial
  | file file => exact inStep_of_mirrors (h.mirrors.untouched hleft)

/-- Saving changes nothing that a store shows, whether it succeeds or not. -/
theorem InStep.runs_save (h : store.InStep memory) (hserves : Refines serves Reads)
    {result : Except Failure Unit × Store} (hrun : Runs serves memory store.save result after) :
    result.2.document = store.document ∧ result.2.InStep after := by
  cases store with
  | memory document =>
    obtain ⟨rfl, rfl⟩ := runs_done.1 hrun
    exact ⟨rfl, trivial⟩
  | file file =>
    obtain ⟨⟨reply, file'⟩, saved, hsave, hend⟩ := runs_andThen.1 hrun
    obtain ⟨rfl, rfl⟩ := runs_done.1 hend
    cases reply with
    | error failure =>
      have hafter := h.mirrors.step hserves (.notSaved hsave)
      exact ⟨hafter.shown, inStep_of_mirrors hafter⟩
    | ok done =>
      have hafter := h.mirrors.step hserves (.saved hsave)
      exact ⟨hafter.shown, inStep_of_mirrors hafter⟩

end Store

namespace Outputs

variable {serves : Behaviour} {start store : Store} {origin memory after : Memory}
  {calls : List Call}

/-- A call shows its directory at once, also if it could not be saved. -/
theorem runs_remember (hserves : Refines serves Reads) (hstore : store.InStep memory) {call : Call}
    {result : Except Failure Unit × Store}
    (h : Runs serves memory (remember store call.source call.directory) result after) :
    result.2.document =
        store.document.applyAll (rememberChanges call.source call.directory.text) ∧
      result.2.InStep after := by
  obtain ⟨hdocument, hafter⟩ := (hstore.recordAll _).runs_save hserves h
  exact ⟨hdocument.trans (store.document_recordAll _), hafter⟩

/-- Any calls on a store, each of which may fail to be saved.  Anything may
happen in between that leaves the preference file alone. -/
inductive Remembers (serves : Behaviour) (start : Store) (origin : Memory) :
    List Call → Store → Memory → Prop where
  | start : Remembers serves start origin [] start origin
  | call {calls : List Call} {store : Store} {memory after : Memory} (call : Call)
      {result : Except Failure Unit × Store}
      (h : Remembers serves start origin calls store memory)
      (hcall : Runs serves memory (remember store call.source call.directory) result after) :
      Remembers serves start origin (calls ++ [call]) result.2 after
  | outside {calls : List Call} {store : Store} {memory after : Memory}
      (h : Remembers serves start origin calls store memory)
      (hleft : store.LeftAlone memory after) :
      Remembers serves start origin calls store after

theorem Remembers.inStep (h : Remembers serves start origin calls store memory)
    (hserves : Refines serves Reads) (hstart : start.InStep origin) : store.InStep memory := by
  induction h with
  | start => exact hstart
  | call call _ hcall ih => exact (runs_remember hserves ih hcall).2
  | outside _ hleft ih => exact ih.leftAlone hleft

/-- From an empty store on, what a store shows is what it was told. -/
theorem Remembers.laysOut (h : Remembers serves start origin calls store memory)
    (hserves : Refines serves Reads) (hstart : start.InStep origin)
    (hempty : start.document = {}) : LaysOut calls store.document := by
  induction h with
  | start =>
    rw [hempty]
    exact laysOut_empty
  | call call hcalls hcall ih =>
    rw [(runs_remember hserves (hcalls.inStep hserves hstart) hcall).1]
    exact ih.remembered call
  | outside _ _ ih => exact ih

/-- Calls for other source files change nothing but the flag. -/
theorem Remembers.lookup?_of_not_mem (h : Remembers serves start origin calls store memory)
    (hserves : Refines serves Reads) (hstart : start.InStep origin) {source : String}
    (hsource : source ∉ calls.map Call.source) :
    (lookup? store.document source).map Stored.directory =
      (lookup? start.document source).map Stored.directory := by
  induction h with
  | start => rfl
  | call call hcalls hcall ih =>
    rw [List.map_append, List.mem_append, not_or] at hsource
    have hother : source ≠ call.source := fun h => hsource.2 (List.mem_singleton.2 h)
    rw [(runs_remember hserves (hcalls.inStep hserves hstart) hcall).1, lookup?_rememberChanges,
      if_neg hother, ← ih hsource.1, Option.map_map]
    rfl
  | outside _ _ ih => exact ih hsource

/-- From an empty store on, every source file with a call is listed once, in
the order of the first calls and with the directory of its last one; nothing
is remembered for any other, and for these the directory of the last call,
unless it is empty, is to be used.  What is listed and used of a directory is
its text, which is the directory itself if it is a text.

On any store, calls change neither whether something is remembered for another
source file nor its directory.  The source files may have any names, also those
of the flag and of the collections.  A call that could not be saved counts, and
a store on a file is taken to be in step with it, as it is until someone else
writes the file. -/
theorem Remembers.lists_calls (hstart : start.InStep origin)
    (h : Remembers Reads start origin calls store memory) :
    (start.document = {} →
      (entries store.document).map Report.RememberedEntry.source =
          (calls.map Call.source).eraseDups ∧
        (∀ entry ∈ entries store.document,
          (lastDirectory? calls entry.source).map SystemPath.text = some entry.directory) ∧
        ∀ source, (lookup? store.document source = none ↔ source ∉ calls.map Call.source) ∧
          (lookup? store.document source = (lastDirectory? calls source).map fun directory =>
            { directory := (some directory.text).filter fun d => !d.isEmpty, inUse := true }) ∧
          ∀ directory, lastDirectory? calls source = some (.ofText directory) →
            lookup? store.document source =
              some { directory := (some directory).filter fun d => !d.isEmpty, inUse := true }) ∧
    ∀ source, source ∉ calls.map Call.source →
      (lookup? store.document source).map Stored.directory =
        (lookup? start.document source).map Stored.directory := by
  refine ⟨fun hempty => ?_, fun source => h.lookup?_of_not_mem (.refl Reads) hstart⟩
  have hlays := h.laysOut (.refl Reads) hstart hempty
  refine ⟨?_, fun entry hentry => ?_, fun source => ⟨?_, hlays.lookup source, ?_⟩⟩
  · rw [map_source_entries, hlays.sources]
  · rw [← hlays.directory, getString?_of_mem_entries hentry]
  · rw [hlays.lookup, Option.map_eq_none_iff, lastDirectory?_eq_none_iff]
  · intro directory hlast
    rw [hlays.lookup, hlast, Option.map_some, SystemPath.text_ofText]

/-- Calls whose source files have the name of the flag, of a marker and of its
end, and no name at all. -/
def sampleCalls : List Call :=
  [⟨"useUserDefinedPath", .ofText "/a"⟩, ⟨"Gtest Template\\x", .ofText "/b"⟩, ⟨"x", .ofText "/c"⟩,
    ⟨"", ⟨[0x2F, 0xFF]⟩⟩, ⟨"useUserDefinedPath", .ofText ""⟩]

/-- A store and the system after a call of which no request fails. -/
def carryOut (state : Store × Memory) (call : Call) : Store × Memory :=
  let (result, after) := state.2.run (remember state.1 call.source call.directory)
  (result.2, after)

/-- Calls of which no request fails are calls. -/
theorem remembers_carryOut (start : Store) (origin : Memory) (calls : List Call) :
    Remembers Reads start origin calls (calls.foldl carryOut (start, origin)).1
      (calls.foldl carryOut (start, origin)).2 := by
  induction calls using List.reverseRecOn with
  | nil => exact .start
  | append_singleton calls call ih =>
    rw [List.foldl_append]
    exact ih.call call (Action.runs_run reads_serve _ _)

/-- A store on a file and the system after these calls. -/
def sampleState : Store × Memory :=
  sampleCalls.foldl carryOut (.file sampleFile, sampleOrigin)

theorem lists_calls_sampleCalls :
    (Store.file sampleFile).InStep sampleOrigin ∧
      Remembers Reads (.file sampleFile) sampleOrigin sampleCalls sampleState.1 sampleState.2 ∧
      (Store.file sampleFile).document = {} ∧
      (entries sampleState.1.document).map Report.RememberedEntry.source =
        ["useUserDefinedPath", "Gtest Template\\x", "x", ""] ∧
      lookup? sampleState.1.document "useUserDefinedPath" = some ⟨none, true⟩ ∧
      lookup? sampleState.1.document "x" = some ⟨some "/c", true⟩ ∧
      lookup? sampleState.1.document "" = some ⟨some "/\uFFFD", true⟩ ∧
      lookup? sampleState.1.document "Gtest Template" = none := by
  have hload : Runs Reads {} (FileStore.load "/state/prefs.json" 0) (.ok sampleFile)
      sampleOrigin := runs_of_toOption (by decide +kernel)
  have hstart : (Store.file sampleFile).InStep sampleOrigin :=
    Store.inStep_of_mirrors (.start (.refl Reads) Tree.wellFormed_empty hload)
  have hcalls : Remembers Reads (.file sampleFile) sampleOrigin sampleCalls sampleState.1
      sampleState.2 := remembers_carryOut _ _ sampleCalls
  obtain ⟨hsources, -, hlookup⟩ := (Remembers.lists_calls hstart hcalls).1 rfl
  refine ⟨hstart, hcalls, rfl, hsources.trans (by decide), ?_, ?_, ?_, ?_⟩
  · exact (hlookup _).2.1.trans (by decide +kernel)
  · exact (hlookup _).2.1.trans (by decide +kernel)
  · exact (hlookup _).2.1.trans (by decide +kernel)
  · exact (hlookup _).2.1.trans (by decide +kernel)

/-- A directory that is no text. -/
def untextedDirectory : SystemPath :=
  ⟨[0x2F, 0x77, 0x2F, 0xFF]⟩

/-- The system after somebody else has marked a source file in the file of a
store. -/
def otherwiseMarked : Memory :=
  { sampleOrigin with
    tree := sampleOrigin.tree.put ["state", "prefs.json"]
      (.file "\x7b\"collections\":\x7b\"Gtest Template\\\\a\":\x7b\x7d\x7d\x7d".toUTF8) }

/-- A store after a directory is remembered. -/
def afterRemembering (store : Store) (memory : Memory) (source : String)
    (directory : SystemPath) : Store :=
  (memory.run (remember store source directory)).1.2

/-- A directory that is no text is looked up as another one, and a call shows
what somebody else has put into the file for another source file. -/
theorem lookup?_remember_unlike :
    lookup? (afterRemembering (.memory {}) {} "/src/Job.cpp" untextedDirectory).document
        "/src/Job.cpp" = some ⟨some "/w/\uFFFD", true⟩ ∧
      SystemPath.ofText "/w/\uFFFD" ≠ untextedDirectory ∧
      lookup? (Store.file sampleFile).document "a" = none ∧
      lookup? (afterRemembering (.file sampleFile) otherwiseMarked "/src/Job.cpp"
        (.ofText "/src")).document "a" = some ⟨none, true⟩ := by
  decide +kernel

end Outputs

end TestSkeleton.Preferences
