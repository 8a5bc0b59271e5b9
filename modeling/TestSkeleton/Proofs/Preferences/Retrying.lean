import TestSkeleton.Proofs.Preferences.Neighbours
import TestSkeleton.Proofs.Preferences.Refinement

/-!
# Saving again after a failure

A save that fails is as if it had not been tried: the store and its file are
as before, and whatever happens next, the next save that goes well writes what
it would have written.

* `contentOf?` is what the file of a path holds, and `SameFile` that it holds
  the same in two systems.
* `sameFile_of_save_error` is a save that fails, and `savedAs_of_save_ok` one
  that goes well.
* `Turn` is a step that counts, and `Kept.take` what it makes of a store and
  of its file.
* `Occurs` is one step, of the store or of anything else, and `Goes` any
  number of them.
* `Follows` is the invariant: the store and its file are what the steps that
  counted made of them.  `Follows.step` keeps it, and `Follows.goes` is a
  whole run.
* `retry_of_save_error` is the result.
-/

namespace TestSkeleton.Preferences

open Files
open Files.Action (Runs)
open Memory (Attempts Frames HasFile Leads)

variable {serves : Behaviour} {memory after : Memory} {path : String} {content : ByteArray}
  {file file' : FileStore} {failure : Failure}

/-! ## What a file holds -/

/-- Whether a path leads to a file once the directories on the way are
made. -/
def NamesFile (current : Place) (path : String) : Prop :=
  ∃ tree : Tree, ∃ parent name, tree.LeadsTo current path parent name

/-- What the file holds that a path names, if it is there. -/
def contentOf? (memory : Memory) (path : String) : Option ByteArray :=
  match memory.tree.node? (Tree.nominal memory.current path) with
  | some (.file content) => some content
  | _ => none

theorem contentOf?_congr {path' : String}
    (hplace : Tree.nominal after.current path' = Tree.nominal memory.current path)
    (hnode : after.tree.node? (Tree.nominal memory.current path) =
      memory.tree.node? (Tree.nominal memory.current path)) :
    contentOf? after path' = contentOf? memory path := by
  rw [contentOf?, contentOf?, hplace, hnode]

theorem contentOf?_eq_some :
    contentOf? memory path = some content ↔
      memory.tree.node? (Tree.nominal memory.current path) = some (.file content) := by
  rw [contentOf?]
  split
  · rename_i found hfound
    rw [hfound]
    simp
  · rename_i hnone
    simp only [reduceCtorEq, false_iff]
    exact hnone content

theorem contentOf?_of_hasFile (h : HasFile memory path content) :
    contentOf? memory path = some content := by
  obtain ⟨parent, name, hleads, hnode⟩ := h
  rw [contentOf?_eq_some, ← hleads.eq_nominal]
  exact hnode

theorem namesFile_of_hasFile (h : HasFile memory path content) :
    NamesFile memory.current path := by
  obtain ⟨parent, name, hleads, -⟩ := h
  exact ⟨memory.tree, parent, name, hleads⟩

/-- The document that a content gives, an empty one if there is none. -/
def documentIn (content? : Option ByteArray) : Document :=
  match content? with
  | some content => documentOf (.ok content)
  | none => {}

/-- A file to which its path leads counts as the document in it. -/
theorem savedDocument_eq_documentIn {place : Place} (h : Leads memory path place) :
    savedDocument memory path = documentIn (contentOf? memory path) := by
  obtain ⟨parent, name, hleads, -⟩ := h
  cases hread : memory.tree.read memory.current path with
  | ok content =>
    obtain ⟨place, hlocate, hnode⟩ := Memory.read_ok hread
    rw [Tree.locate_eq_nominal hlocate] at hnode
    rw [savedDocument, hread, contentOf?_eq_some.2 hnode]
    rfl
  | error fault =>
    have hnone : contentOf? memory path = none := by
      rw [Option.eq_none_iff_forall_ne_some]
      intro content hcontent
      rw [contentOf?_eq_some, ← hleads.eq_nominal] at hcontent
      have hfile : HasFile memory path content := ⟨parent, name, hleads, hcontent⟩
      rw [hfile.read] at hread
      cases hread
    rw [savedDocument, hread, hnone]
    rfl

/-- Whether the file of a path is the same in two systems. -/
structure SameFile (path : String) (before after : Memory) : Prop where
  current : after.current = before.current
  content : NamesFile before.current path → contentOf? after path = contentOf? before path

/-- What is done to the lock file and to temporary files of a preference file
leaves the file itself. -/
theorem sameFile_of_frames {changed opened : List String} (h : Frames changed opened memory after)
    (hbeside : ∀ other ∈ changed ++ opened,
      other = StatePaths.preferenceLock path ∨ ∃ processId, other = temporaryName path processId) :
    SameFile path memory after := by
  refine ⟨h.changes.current, ?_⟩
  rintro ⟨tree, parent, name, hleads⟩
  have hplace : ∀ other ∈ changed ++ opened, ¬ Leads after other (parent ++ [name]) := by
    rintro other hother ⟨parent', name', hother', hsame⟩
    rw [h.changes.current] at hother'
    rcases hbeside other hother with rfl | ⟨processId, rfl⟩
    · exact hleads.ne_preferenceLock hother' hsame
    · exact hleads.ne_temporary hother' hsame
  refine Option.ext fun content => ?_
  rw [contentOf?_eq_some, contentOf?_eq_some, h.changes.current, ← hleads.eq_nominal]
  exact h.file_iff hplace content

/-- A save that fails leaves the store and its file as they were. -/
theorem sameFile_of_save_error
    (h : Runs Attempts memory file.save (.error failure, file') after) :
    file' = file ∧ SameFile file.path memory after := by
  rcases runs_save (.refl Attempts) h with ⟨hok, -⟩ | ⟨other, hfailed, hframes⟩
  · cases hok
  · obtain ⟨-, rfl⟩ := Prod.mk.inj hfailed
    refine ⟨rfl, sameFile_of_frames hframes ?_⟩
    intro other hother
    rcases List.mem_append.1 hother with htemporary | hlock
    · exact Or.inr ⟨memory.processId, List.mem_singleton.1 htemporary⟩
    · exact Or.inl (List.mem_singleton.1 hlock)

/-! ## What counts -/

/-- A store, and what its file holds. -/
@[ext]
structure Kept where
  store : FileStore
  content? : Option ByteArray

/-- A step that counts: a change of the store, a save of it that goes well, or
a save of some changes by another store on the file. -/
inductive Turn where
  | recorded (change : Change)
  | saved
  | savedElsewhere (changes : List Change)

namespace Kept

/-- What a file holds after some changes were saved. -/
def rewritten (content? : Option ByteArray) (changes : List Change) : Option ByteArray :=
  if changes = [] then content?
  else some (fileText ((documentIn content?).applyAll changes)).toUTF8

/-- What saving makes of a store and its file. -/
def save (kept : Kept) : Kept where
  store :=
    if kept.store.pending = [] then kept.store
    else
      { kept.store with
        document := (documentIn kept.content?).applyAll kept.store.pending, pending := [] }
  content? := rewritten kept.content? kept.store.pending

theorem save_of_pending_eq_nil {kept : Kept} (h : kept.store.pending = []) : kept.save = kept := by
  rw [save, rewritten, if_pos h, if_pos h]

theorem save_path (kept : Kept) : kept.save.store.path = kept.store.path := by
  rw [save]
  split <;> rfl

/-- What a step that counts makes of a store and its file. -/
def take (kept : Kept) : Turn → Kept
  | .recorded change => { kept with store := kept.store.record change }
  | .saved => kept.save
  | .savedElsewhere changes => { kept with content? := rewritten kept.content? changes }

/-- The same for some steps in order. -/
def takeAll (kept : Kept) (turns : List Turn) : Kept :=
  turns.foldl take kept

theorem take_path (kept : Kept) (turn : Turn) : (kept.take turn).store.path = kept.store.path := by
  cases turn with
  | recorded change => rfl
  | saved => exact kept.save_path
  | savedElsewhere changes => rfl

theorem takeAll_path (kept : Kept) (turns : List Turn) :
    (kept.takeAll turns).store.path = kept.store.path := by
  induction turns generalizing kept with
  | nil => rfl
  | cons turn turns ih => exact (ih (kept.take turn)).trans (kept.take_path turn)

theorem takeAll_append (kept : Kept) (turns more : List Turn) :
    kept.takeAll (turns ++ more) = (kept.takeAll turns).takeAll more :=
  List.foldl_append

end Kept

/-- What a save that goes well does to a store and its file. -/
structure SavedAs (file : FileStore) (memory : Memory) (file' : FileStore) (after : Memory) :
    Prop where
  current : after.current = memory.current
  kept : (⟨file', contentOf? after file.path⟩ : Kept) =
    Kept.save ⟨file, contentOf? memory file.path⟩
  hasFile : file.pending ≠ [] → HasFile after file.path (fileText file'.document).toUTF8

/-- Without pending changes saving does nothing. -/
theorem runs_save_of_pending_eq_nil {result : Except Failure Unit × FileStore}
    (hpending : file.pending = []) (h : Runs serves memory file.save result after) :
    result = (.ok (), file) ∧ after = memory := by
  rw [FileStore.save, hpending] at h
  exact Action.runs_done.1 h

/-- A save that goes well carries out the pending changes on the document that
the file holds. -/
theorem savedAs_of_save_ok (h : Runs Reads memory file.save (.ok (), file') after) :
    SavedAs file memory file' after := by
  by_cases hpending : file.pending = []
  · obtain ⟨hsame, rfl⟩ := runs_save_of_pending_eq_nil hpending h
    cases hsame
    refine ⟨rfl, ?_, fun hchanged => absurd hpending hchanged⟩
    exact (Kept.save_of_pending_eq_nil hpending).symm
  rcases runs_save reads_refines h with ⟨-, hsaves, hframes⟩ | ⟨failure, hfailed, -⟩
  case inr => cases hfailed
  have hcurrent := hframes.changes.current
  cases hsaves with
  | nothing hnothing => exact absurd hnothing hpending
  | @replaced read document hbefore hlock hshows hfile =>
    have hnames : NamesFile memory.current file.path := hcurrent ▸ namesFile_of_hasFile hfile
    have hlocked : SameFile file.path memory read := by
      refine sameFile_of_frames hbefore ?_
      intro other hother
      exact Or.inl (List.mem_singleton.1 hother)
    have hleads : ∃ place, Leads read file.path place := by
      obtain ⟨tree, parent, name, hname⟩ := hnames
      obtain ⟨place, other, last, hother, -⟩ := hlock
      rw [← hlocked.current] at hname
      exact ⟨_, parent, name, hname.of_preferenceLock hother, rfl⟩
    obtain ⟨place, hplace⟩ := hleads
    have hdocument : document = documentIn (contentOf? memory file.path) := by
      rw [hshows.eq_saved (.refl Reads), savedDocument_eq_documentIn hplace, hlocked.content hnames]
    refine ⟨hcurrent, ?_, fun _ => hfile⟩
    rw [Kept.save, Kept.rewritten, if_neg hpending, if_neg hpending, contentOf?_of_hasFile hfile,
      hdocument]

/-! ## Any number of steps -/

/-- The system as a process sees it that has a directory and a number of its
own. -/
def seenFrom (memory : Memory) (current : Place) (processId : Nat) : Memory :=
  { memory with current, processId }

/-- Whether a path, followed from another directory, names the file of a
path. -/
structure NamesSame (current : Place) (path : String) (current' : Place) (path' : String) : Prop
    where
  names : NamesFile current' path'
  nominal : Tree.nominal current' path' = Tree.nominal current path

/-- One step of a store, of another store on the same file or of something
else, and how it counts. -/
inductive Occurs (store : FileStore) (memory : Memory) :
    Option Turn → FileStore → Memory → Prop where
  | recorded (change : Change) :
      Occurs store memory (some (.recorded change)) (store.record change) memory
  | saved {store' : FileStore} {after : Memory}
      (hsave : Runs Reads memory store.save (.ok (), store') after) :
      Occurs store memory (some .saved) store' after
  | notSaved {failure : Failure} {store' : FileStore} {after : Memory}
      (hsave : Runs Attempts memory store.save (.error failure, store') after) :
      Occurs store memory none store' after
  | savedElsewhere {other other' : FileStore} {current : Place} {processId : Nat} {after : Memory}
      (hsame : NamesSame memory.current store.path current other.path)
      (hsave : Runs Reads (seenFrom memory current processId) other.save (.ok (), other') after) :
      Occurs store memory (some (.savedElsewhere other.pending)) store
        (seenFrom after memory.current memory.processId)
  | notSavedElsewhere {other other' : FileStore} {current : Place} {processId : Nat}
      {failure : Failure} {after : Memory}
      (hsame : NamesSame memory.current store.path current other.path)
      (hsave : Runs Attempts (seenFrom memory current processId) other.save
        (.error failure, other') after) :
      Occurs store memory none store (seenFrom after memory.current memory.processId)
  | elsewhere {after : Memory} (hsame : SameFile store.path memory after) :
      Occurs store memory none store after

/-- Any steps, and those of them that count. -/
inductive Goes (store : FileStore) (memory : Memory) :
    List Turn → FileStore → Memory → Prop where
  | start : Goes store memory [] store memory
  | step {turns : List Turn} {turn? : Option Turn} {between last : FileStore}
      {during after : Memory} (h : Goes store memory turns between during)
      (hstep : Occurs between during turn? last after) :
      Goes store memory (turns ++ turn?.toList) last after

/-- Whether a store and its file are what the steps that count made of
them. -/
structure Follows (kept : Kept) (current : Place) (store : FileStore) (memory : Memory) : Prop
    where
  store_eq : store = kept.store
  current_eq : memory.current = current
  content : NamesFile current store.path → contentOf? memory store.path = kept.content?

theorem contentOf?_seenFrom {current : Place} {processId : Nat} {path' : String}
    (h : Tree.nominal current path' = Tree.nominal memory.current path) :
    contentOf? (seenFrom memory current processId) path' = contentOf? memory path :=
  contentOf?_congr h rfl

/-- What another process leaves is seen under the first path again. -/
theorem NamesSame.contentOf?_back {current : Place} {path' : String}
    (h : NamesSame memory.current path current path') (hcurrent : after.current = current) :
    contentOf? (seenFrom after memory.current memory.processId) path = contentOf? after path' := by
  refine contentOf?_seenFrom ?_
  rw [hcurrent]
  exact h.nominal.symm

namespace Follows

variable {kept : Kept} {current : Place} {store store' : FileStore}

theorem elsewhere (h : Follows kept current store memory)
    (hsame : SameFile store.path memory after) : Follows kept current store after := by
  refine ⟨h.store_eq, hsame.current.trans h.current_eq, ?_⟩
  intro hnames
  rw [← h.content hnames]
  exact hsame.content (h.current_eq.symm ▸ hnames)

theorem saved (h : Follows kept current store memory)
    (hsave : Runs Reads memory store.save (.ok (), store') after) :
    Follows kept.save current store' after := by
  by_cases hpending : store.pending = []
  · obtain ⟨hsame, rfl⟩ := runs_save_of_pending_eq_nil hpending hsave
    cases hsame
    rw [Kept.save_of_pending_eq_nil (h.store_eq ▸ hpending)]
    exact h
  · have hsaved := savedAs_of_save_ok hsave
    have hcurrent := hsaved.current.trans h.current_eq
    have hfile := hsaved.hasFile hpending
    have hnames : NamesFile current store.path := hcurrent ▸ namesFile_of_hasFile hfile
    have hkept : (⟨store, contentOf? memory store.path⟩ : Kept) = kept :=
      Kept.ext h.store_eq (h.content hnames)
    have hafter := hsaved.kept
    rw [hkept] at hafter
    have hstore : store' = kept.save.store := congrArg Kept.store hafter
    refine ⟨hstore, hcurrent, fun _ => ?_⟩
    rw [hstore, Kept.save_path, ← h.store_eq]
    exact congrArg Kept.content? hafter

theorem savedElsewhere (h : Follows kept current store memory) {other other' : FileStore}
    {directory : Place} {processId : Nat}
    (hsame : NamesSame memory.current store.path directory other.path)
    (hsave : Runs Reads (seenFrom memory directory processId) other.save (.ok (), other') after) :
    Follows (kept.take (.savedElsewhere other.pending)) current store
      (seenFrom after memory.current memory.processId) := by
  have hsaved := savedAs_of_save_ok hsave
  refine ⟨h.store_eq, h.current_eq, fun hnames => ?_⟩
  calc contentOf? (seenFrom after memory.current memory.processId) store.path
      = contentOf? after other.path := hsame.contentOf?_back hsaved.current
    _ = Kept.rewritten (contentOf? (seenFrom memory directory processId) other.path)
          other.pending := congrArg Kept.content? hsaved.kept
    _ = Kept.rewritten kept.content? other.pending := by
        rw [contentOf?_seenFrom hsame.nominal, h.content hnames]

theorem notSavedElsewhere (h : Follows kept current store memory) {other other' : FileStore}
    {directory : Place} {processId : Nat}
    (hsame : NamesSame memory.current store.path directory other.path)
    (hsave : Runs Attempts (seenFrom memory directory processId) other.save
      (.error failure, other') after) :
    Follows kept current store (seenFrom after memory.current memory.processId) := by
  obtain ⟨-, hleft⟩ := sameFile_of_save_error hsave
  refine h.elsewhere ⟨rfl, fun _ => ?_⟩
  rw [hsame.contentOf?_back hleft.current, hleft.content hsame.names,
    contentOf?_seenFrom hsame.nominal]

/-- A step that counts is what it was said to be, and the others change
nothing. -/
theorem step (h : Follows kept current store memory) {turn? : Option Turn}
    (hstep : Occurs store memory turn? store' after) :
    Follows (kept.takeAll turn?.toList) current store' after := by
  cases hstep with
  | recorded change =>
    refine ⟨?_, h.current_eq, h.content⟩
    rw [h.store_eq]
    rfl
  | saved hsave => exact h.saved hsave
  | notSaved hsave =>
    obtain ⟨rfl, hsame⟩ := sameFile_of_save_error hsave
    exact h.elsewhere hsame
  | savedElsewhere hsame hsave => exact h.savedElsewhere hsame hsave
  | notSavedElsewhere hsame hsave => exact h.notSavedElsewhere hsame hsave
  | elsewhere hsame => exact h.elsewhere hsame

/-- Only the steps that count matter. -/
theorem goes (h : Follows kept current store memory) {turns : List Turn}
    (hgoes : Goes store memory turns store' after) :
    Follows (kept.takeAll turns) current store' after := by
  induction hgoes with
  | start => exact h
  | step _ hstep ih =>
    rw [Kept.takeAll_append]
    exact ih.step hstep

/-- What two stores and their files follow is the same for both. -/
theorem unique {memory' : Memory} (h : Follows kept current store memory)
    (h' : Follows kept current store' memory') :
    store = store' ∧ SameFile store.path memory' memory := by
  have hstores := h.store_eq.trans h'.store_eq.symm
  refine ⟨hstores, h.current_eq.trans h'.current_eq.symm, ?_⟩
  intro hnames
  rw [h'.current_eq] at hnames
  rw [h.content hnames, hstores, h'.content (hstores ▸ hnames)]

theorem path_eq {turns : List Turn} {start : Kept}
    (h : Follows (start.takeAll turns) current store memory) : store.path = start.store.path := by
  rw [h.store_eq, Kept.takeAll_path]

end Follows

/-! ## Trying again -/

/-- A save that fails leaves the store and its file as they were.  Whatever
happens from then on, the store and its file are at any time what they would
be if that save had not been tried, and the next save that goes well writes
the same. -/
theorem retry_of_save_error {failed : Memory}
    (hfails : Runs Attempts memory file.save (.error failure, file') failed) :
    file' = file ∧ SameFile file.path memory failed ∧
      ∀ {turns : List Turn} {retrying untried : FileStore} {during during' : Memory},
        Goes file' failed turns retrying during → Goes file memory turns untried during' →
        (retrying = untried ∧ SameFile file.path during' during) ∧
          ∀ {retried saved : FileStore} {after after' : Memory},
            Runs Reads during retrying.save (.ok (), retried) after →
            Runs Reads during' untried.save (.ok (), saved) after' →
            retried = saved ∧ SameFile file.path after' after ∧
              (retrying.pending ≠ [] →
                HasFile after file.path (fileText retried.document).toUTF8 ∧
                  HasFile after' file.path (fileText retried.document).toUTF8) := by
  obtain ⟨rfl, hsame⟩ := sameFile_of_save_error hfails
  refine ⟨rfl, hsame, ?_⟩
  intro turns retrying untried during during' hretries hgoes
  have hbefore : Follows ⟨file', contentOf? memory file'.path⟩ memory.current file' memory :=
    ⟨rfl, rfl, fun _ => rfl⟩
  have hretrying := (hbefore.elsewhere hsame).goes hretries
  have huntried := hbefore.goes hgoes
  have hpath : retrying.path = file'.path := hretrying.path_eq
  obtain ⟨rfl, hduring⟩ := hretrying.unique huntried
  refine ⟨⟨rfl, hpath ▸ hduring⟩, ?_⟩
  intro retried saved after after' hretry hsave
  obtain ⟨rfl, hafter⟩ := (hretrying.saved hretry).unique (huntried.saved hsave)
  have hkept : retried.path = retrying.path := by
    rw [(hretrying.saved hretry).store_eq, Kept.save_path, hretrying.store_eq]
  rw [hkept, hpath] at hafter
  refine ⟨rfl, hafter, fun hpending => ?_⟩
  rw [← hpath]
  exact ⟨(savedAs_of_save_ok hretry).hasFile hpending, (savedAs_of_save_ok hsave).hasFile hpending⟩

/-- A system in which a directory has the name of the temporary file of the
process 1, and the preference file holds something else. -/
def blockedMemory : Memory where
  tree := ⟨[(["state"], .directory), (["state", "prefs.json"], .file "?".toUTF8),
    (["state", ".prefs.json.1.tmp"], .directory)]⟩

/-- A store of the process 1 there, with a change that it cannot save. -/
def blockedFile : FileStore :=
  sampleFile.record (.setBool "a" "b" true)

/-- A store of the process 2 there. -/
def otherFile : FileStore :=
  sampleFile.record (.create "c")

/-- The system after the process 1 tried to save. -/
def blockedAfter : Memory :=
  (blockedMemory.run blockedFile.save).2

/-- The system after the process 2 saved. -/
def savedByOther (memory : Memory) : Memory :=
  seenFrom ((seenFrom memory [] 2).run otherFile.save).2 [] 1

/-- The system after the directory was removed, too. -/
def unblocked (memory : Memory) : Memory :=
  { savedByOther memory with
    tree := (savedByOther memory).tree.erase ["state", ".prefs.json.1.tmp"] }

theorem contentOf?_unblocked (memory : Memory) :
    contentOf? (unblocked memory) blockedFile.path =
      contentOf? (savedByOther memory) blockedFile.path := by
  have hnominal : Tree.nominal [] blockedFile.path = ["state", "prefs.json"] := by decide +kernel
  refine contentOf?_congr rfl ?_
  calc (unblocked memory).tree.node? (Tree.nominal [] blockedFile.path)
      = if Tree.nominal [] blockedFile.path = ["state", ".prefs.json.1.tmp"] then none
        else (savedByOther memory).tree.node? (Tree.nominal [] blockedFile.path) :=
        Tree.node?_erase _ (by simp) _
    _ = (savedByOther memory).tree.node? (Tree.nominal [] blockedFile.path) := by
        rw [hnominal, if_neg (by decide)]

theorem goes_unblocked {memory : Memory} (hcurrent : memory.current = [])
    (hprocess : memory.processId = 1)
    (hother : ((seenFrom memory [] 2).run otherFile.save).1.1.toOption = some ()) :
    Goes blockedFile memory [.savedElsewhere otherFile.pending] blockedFile (unblocked memory) := by
  have hnames : NamesFile [] otherFile.path :=
    ⟨blockedMemory.tree, ["state"], "prefs.json", rfl, rfl, ⟨["", "state"], by decide +kernel, rfl⟩,
      by decide, by decide⟩
  have hsaved : Occurs blockedFile memory (some (.savedElsewhere otherFile.pending)) blockedFile
      (seenFrom ((seenFrom memory [] 2).run otherFile.save).2 memory.current memory.processId) :=
    .savedElsewhere ⟨hnames, by rw [hcurrent]; rfl⟩ (runs_fst_of_toOption hother)
  rw [hcurrent, hprocess] at hsaved
  have hunblocked : Occurs blockedFile (savedByOther memory) none blockedFile (unblocked memory) :=
    .elsewhere ⟨rfl, fun _ => contentOf?_unblocked memory⟩
  exact .step (.step .start hsaved) hunblocked

theorem runs_save_blockedFile : ∃ failure,
    Runs Attempts blockedMemory blockedFile.save (.error failure, blockedFile) blockedAfter := by
  have hruns := Action.runs_run Memory.attempts_serve blockedFile.save blockedMemory
  have hfails : (blockedMemory.run blockedFile.save).1.1.toBool = false := by decide +kernel
  obtain ⟨failure, hfailure⟩ := exists_error_of_toBool hfails
  have hresult : (blockedMemory.run blockedFile.save).1 =
      (.error failure, (blockedMemory.run blockedFile.save).1.2) := Prod.ext hfailure rfl
  rw [hresult] at hruns
  obtain ⟨hkept, -⟩ := sameFile_of_save_error hruns
  rw [hkept] at hruns
  exact ⟨failure, hruns⟩

/-- Another process saves in between, with the failure and without it. -/
theorem retry_of_save_error_blockedFile :
    ∃ failure retried saved after after',
      Runs Attempts blockedMemory blockedFile.save (.error failure, blockedFile) blockedAfter ∧
      Goes blockedFile blockedAfter [.savedElsewhere otherFile.pending] blockedFile
        (unblocked blockedAfter) ∧
      Goes blockedFile blockedMemory [.savedElsewhere otherFile.pending] blockedFile
        (unblocked blockedMemory) ∧
      Runs Reads (unblocked blockedAfter) blockedFile.save (.ok (), retried) after ∧
      Runs Reads (unblocked blockedMemory) blockedFile.save (.ok (), saved) after' ∧
      blockedFile.pending ≠ [] ∧
      SameFile blockedFile.path blockedMemory blockedAfter ∧
      SameFile blockedFile.path (unblocked blockedMemory) (unblocked blockedAfter) ∧
      retried = saved ∧ SameFile blockedFile.path after' after ∧
      HasFile after blockedFile.path (fileText retried.document).toUTF8 ∧
      HasFile after' blockedFile.path (fileText retried.document).toUTF8 := by
  obtain ⟨failure, hfails⟩ := runs_save_blockedFile
  have hkeeps := Memory.changes_run blockedFile.save blockedMemory
  have hretries : Goes blockedFile blockedAfter [.savedElsewhere otherFile.pending] blockedFile
      (unblocked blockedAfter) :=
    goes_unblocked hkeeps.current hkeeps.processId (by decide +kernel)
  have hgoes : Goes blockedFile blockedMemory [.savedElsewhere otherFile.pending] blockedFile
      (unblocked blockedMemory) := goes_unblocked rfl rfl (by decide +kernel)
  have hretry := runs_fst_of_toOption
    (show ((unblocked blockedAfter).run blockedFile.save).1.1.toOption = some () by decide +kernel)
  have hsave := runs_fst_of_toOption
    (show ((unblocked blockedMemory).run blockedFile.save).1.1.toOption = some () by
      decide +kernel)
  have hpending : blockedFile.pending ≠ [] := by decide
  obtain ⟨-, hsame, hlater⟩ := retry_of_save_error hfails
  obtain ⟨⟨-, hduring⟩, hnext⟩ := hlater hretries hgoes
  obtain ⟨hkept, hafter, hwritten⟩ := hnext hretry hsave
  exact ⟨failure, _, _, _, _, hfails, hretries, hgoes, hretry, hsave, hpending, hsame, hduring,
    hkept, hafter, hwritten hpending⟩

end TestSkeleton.Preferences
