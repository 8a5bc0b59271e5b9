import TestSkeleton.Proofs.Files.Serving
import TestSkeleton.Files.Guarded
import TestSkeleton.Proofs.Text.Words

/-!
# What guarded writing does

Replacing a file changes that file and the temporary file beside it, or only
the temporary one if it fails, and a lock changes no file at all.

* `IsTemporary` are the places that the temporary file for a path may have.
* `run_withLock` takes a guarded run apart into the lock and the body.
* `replace_ok` and `replace_error` are the two ends of `replace`.
* `run_readText` and `read_ok` are what a reader got.
-/

namespace TestSkeleton.Files

namespace Memory

variable {α β : Type}

@[simp] theorem run_done (result : α) (memory : Memory) :
    memory.run (.done result) = (result, memory) := rfl

theorem run_step (request : Request) (next : Reply request → Action α) (memory : Memory) :
    memory.run (.step request next) =
      (serve request memory).2.run (next (serve request memory).1) := rfl

/-- The run of two actions in turn. -/
theorem run_andThen (action : Action α) (next : α → Action β) (memory : Memory) :
    memory.run (action.andThen next) =
      (memory.run action).2.run (next (memory.run action).1) :=
  Action.run_andThen serve action next memory

@[simp] theorem run_createDirs (path : String) (memory : Memory) :
    memory.run (Action.createDirs path) =
      ((memory.tree.createDirs memory.current path).1,
        { memory with tree := (memory.tree.createDirs memory.current path).2 }) := rfl

@[simp] theorem run_lock (path : String) (mode : LockMode) (timeoutMs : Nat) (memory : Memory) :
    memory.run (Action.lock path mode timeoutMs) = memory.lock path mode := rfl

@[simp] theorem run_release (ticket : Nat) (memory : Memory) :
    memory.run (Action.release ticket) = ((), memory.release ticket) := rfl

@[simp] theorem run_pathExists (path : String) (memory : Memory) :
    memory.run (Action.pathExists path) =
      (memory.tree.contains memory.current path, memory) := rfl

@[simp] theorem run_read (path : String) (memory : Memory) :
    memory.run (Action.read path) = (memory.tree.read memory.current path, memory) := rfl

@[simp] theorem run_write (path : String) (content : ByteArray) (memory : Memory) :
    memory.run (Action.write path content) =
      match memory.tree.write memory.current path content with
      | .ok tree => (.ok (), { memory with tree })
      | .error fault => (.error fault, memory) := rfl

@[simp] theorem run_rename (source target : String) (memory : Memory) :
    memory.run (Action.rename source target) = memory.rename source target := rfl

@[simp] theorem run_remove (path : String) (memory : Memory) :
    memory.run (Action.remove path) = memory.remove path := rfl

@[simp] theorem run_realPath (path : String) (memory : Memory) :
    memory.run (Action.realPath path) = (memory.realPath path, memory) := rfl

@[simp] theorem run_currentDir (memory : Memory) :
    memory.run Action.currentDir = (.ok (pathOf memory.current), memory) := rfl

@[simp] theorem run_processId (memory : Memory) :
    memory.run Action.processId = (memory.processId, memory) := rfl

@[simp] theorem run_ask (question : String) (memory : Memory) :
    memory.run (Action.ask question) = memory.ask question := rfl

@[simp] theorem run_warn (warning : Warning) (memory : Memory) :
    memory.run (Action.warn warning) =
      ((), { memory with warnings := memory.warnings ++ [warning] }) := rfl

end Memory

/-! ## Temporary names -/

/-- The last name of a temporary file. -/
def temporaryLast (name : String) (processId : Nat) : String :=
  "." ++ name ++ "." ++ toString processId ++ ".tmp"

/-- Whether the temporary file of a process for a path may be at a place: the
place is where the temporary name leads in some tree.  There is one such place
if the path does not go up. -/
def IsTemporary (current : Place) (path : String) (processId : Nat) (place : Place) : Prop :=
  ∃ tree parent name, Tree.LeadsTo tree current (temporaryName path processId) parent name ∧
    place = parent ++ [name]

theorem isSegment_toString (n : Nat) : Path.IsSegment (toString n) := by
  intro hslash
  have hdigit := Text.isDigit_of_mem_toString hslash
  cases hdigit

theorem isSegment_temporaryLast {name : String} (h : Path.IsSegment name) (processId : Nat) :
    Path.IsSegment (temporaryLast name processId) := by
  have hdigits := isSegment_toString processId
  unfold Path.IsSegment temporaryLast at *
  simp only [String.toList_append, List.mem_append, not_or]
  exact ⟨⟨⟨⟨by decide, h⟩, by decide⟩, hdigits⟩, by decide⟩

/-- A temporary name goes somewhere. -/
theorem isName_temporaryLast (name : String) (processId : Nat) :
    Path.isVoid (temporaryLast name processId) = false ∧
      temporaryLast name processId ≠ ".." := by
  have hlast : (temporaryLast name processId).toList.getLast? = some 'p' := by
    rw [temporaryLast, String.toList_append, List.getLast?_append]
    rfl
  constructor
  · by_cases hvoid : Path.isVoid (temporaryLast name processId) = true
    · simp only [Path.isVoid, Bool.or_eq_true, String.isEmpty_iff, beq_iff_eq] at hvoid
      rcases hvoid with h | h <;> rw [h] at hlast <;> cases hlast
    · exact Bool.eq_false_iff.2 hvoid
  · intro h
    rw [h] at hlast
    cases hlast

theorem isSegment_temporary (path : String) (processId : Nat) :
    Path.IsSegment (temporaryLast ((Path.lastName? path).getD "out") processId) := by
  apply isSegment_temporaryLast
  cases hlast : Path.lastName? path with
  | none => exact fun h => by simp at h
  | some name => exact (Path.isStep_of_lastName? hlast).1

theorem getLast?_segments_temporaryName (path : String) (processId : Nat) :
    (Path.segments (temporaryName path processId)).getLast? =
      some (temporaryLast ((Path.lastName? path).getD "out") processId) :=
  Path.getLast?_segments_withLastName path (isSegment_temporary path processId)

/-- A temporary name goes up only where the path does. -/
theorem isDirect_temporaryName {path : String} (h : Path.IsDirect path) (processId : Nat) :
    Path.IsDirect (temporaryName path processId) :=
  h.withLastName (isSegment_temporary path processId) (isName_temporaryLast _ processId).2

theorem isTemporary_of_leadsTo {tree : Tree} {current parent : Place} {path name : String}
    {processId : Nat} (h : tree.LeadsTo current (temporaryName path processId) parent name) :
    IsTemporary current path processId (parent ++ [name]) :=
  ⟨tree, parent, name, h, rfl⟩

/-- A temporary file has a temporary name. -/
theorem IsTemporary.getLast? {current place : Place} {path : String} {processId : Nat}
    (h : IsTemporary current path processId place) :
    place.getLast? = some (temporaryLast ((Path.lastName? path).getD "out") processId) := by
  obtain ⟨tree, parent, name, hleads, rfl⟩ := h
  obtain ⟨front, hsegments, -⟩ := hleads.walk
  have hlast := getLast?_segments_temporaryName path processId
  rw [hsegments, List.getLast?_concat] at hlast
  rw [List.getLast?_concat, hlast]

/-- A temporary file that is found has its name in a directory. -/
theorem leadsTo_of_locate_temporary {tree : Tree} {current place : Place} {path : String}
    {processId : Nat} (h : tree.locate current (temporaryName path processId) = .ok place) :
    ∃ parent name, place = parent ++ [name] ∧
      tree.LeadsTo current (temporaryName path processId) parent name := by
  obtain ⟨hvoid, hup⟩ := isName_temporaryLast ((Path.lastName? path).getD "out") processId
  obtain ⟨parent, hplace, hleads⟩ :=
    Tree.leadsTo_of_locate h (getLast?_segments_temporaryName path processId) hvoid hup
  exact ⟨parent, _, hplace, hleads⟩

theorem isTemporary_of_locate {tree : Tree} {current place : Place} {path : String}
    {processId : Nat} (h : tree.locate current (temporaryName path processId) = .ok place) :
    IsTemporary current path processId place := by
  obtain ⟨parent, name, rfl, hleads⟩ := leadsTo_of_locate_temporary h
  exact isTemporary_of_leadsTo hleads

namespace Memory

variable {α : Type}

/-! ## Locks -/

theorem changes_createParent (path : String) (memory : Memory) :
    Changes (fun _ => False) memory (memory.run (createParent path)).2 := by
  rw [createParent]
  split
  · exact changes_serve (.createDirs _) memory
  · exact .refl _ memory

theorem changes_acquire (path : String) (mode : LockMode) (timeoutMs : Nat) (memory : Memory) :
    Changes (fun _ => False) memory (memory.run (acquire path mode timeoutMs)).2 := by
  have hparent := changes_createParent path memory
  rw [acquire, Action.bind_eq, run_andThen]
  split
  · exact hparent
  · rw [Action.bind_eq, run_andThen]
    have hlock := hparent.trans (changes_serve (.lock path mode timeoutMs) _)
    split <;> exact hlock

/-- A guarded run gets no lock, or runs its body while it has one. -/
theorem run_withLock (path : String) (mode : LockMode) (timeoutMs : Nat) (refused : Failure → α)
    (body : Action α) (memory : Memory) :
    ∃ locked, Changes (fun _ => False) memory locked ∧
      ((∃ failure, memory.run (withLock path mode timeoutMs refused body) =
          (refused failure, locked)) ∨
        ∃ ticket, memory.run (withLock path mode timeoutMs refused body) =
          ((locked.run body).1, (locked.run body).2.release ticket)) := by
  refine ⟨_, changes_acquire path mode timeoutMs memory, ?_⟩
  rw [withLock, Action.bind_eq, run_andThen]
  cases (memory.run (acquire path mode timeoutMs)).1 with
  | error failure => exact Or.inl ⟨failure, rfl⟩
  | ok ticket =>
    refine Or.inr ⟨ticket, ?_⟩
    show Memory.run (body.andThen _) _ = _
    rw [run_andThen]
    rfl

/-! ## Replacing a file -/

theorem write_ok {tree after : Tree} {current : Place} {path : String} {content : ByteArray}
    (h : tree.write current path content = .ok after) :
    ∃ parent name, tree.LeadsTo current path parent name ∧
      tree.isDirectory (parent ++ [name]) = false ∧
      after = tree.put (parent ++ [name]) (.file content) := by
  rw [Tree.write] at h
  obtain ⟨place, hplace, hput⟩ := exists_of_bind_eq_ok h
  cases hput
  obtain ⟨parent, name, hleads, rfl, hdir⟩ := Tree.openPlace_ok hplace
  exact ⟨parent, name, hleads, hdir, rfl⟩

/-- A file that is renamed takes its content along. -/
theorem rename_ok {memory after : Memory} {source target : String}
    (h : memory.rename source target = (.ok (), after)) {place : Place} {content : ByteArray}
    (hsource : memory.tree.locate memory.current source = .ok place)
    (hfile : memory.tree.node? place = some (.file content)) :
    ∃ parent name, memory.tree.LeadsTo memory.current target parent name ∧
      after.tree.node? (parent ++ [name]) = some (.file content) ∧
      Changes (fun other => other = place ∨ other = parent ++ [name]) memory after := by
  have hnot : memory.tree.isDirectory place = false := by rw [Tree.isDirectory, hfile]
  have hplace : memory.tree.filePlace memory.current source = .ok place := by
    rw [Tree.filePlace, hsource]
    simp [bind, Except.bind, hnot]
  have hchanges : Changes _ memory (memory.rename source target).2 :=
    changes_serve (.rename source target) memory
  rw [h] at hchanges
  simp only [rename, hplace] at h
  cases htarget : memory.tree.renamePlace memory.current target with
  | error fault =>
    rw [htarget] at h
    cases h
  | ok goal =>
    obtain ⟨parent, name, hleads, rfl, hfree⟩ := Tree.renamePlace_ok htarget
    rw [htarget] at h
    refine ⟨parent, name, hleads, ?_, hchanges.mono ?_⟩
    · simp only at h
      split at h
      · rename_i hsame
        cases h
        rw [← hsame]
        exact hfile
      · cases h
        show (memory.tree.move place (parent ++ [name])).node? _ = _
        rw [Tree.node?_move (Tree.ne_nil_of_not_isDirectory hnot) (by simp) hfile, if_pos rfl]
    · rintro other (htouch | htouch)
      · rw [hplace, Except.ok.injEq] at htouch
        exact Or.inl htouch.symm
      · rw [htarget, Except.ok.injEq] at htouch
        exact Or.inr htouch.symm

/-- A rename that fails changes nothing. -/
theorem rename_error {memory after : Memory} {source target : String} {fault : Fault}
    (h : memory.rename source target = (.error fault, after)) : after = memory := by
  rw [rename] at h
  split at h
  · cases h
    rfl
  · cases h
    rfl
  · split at h <;> cases h

theorem changes_write_temporary (path : String) (content : ByteArray) (processId : Nat)
    {memory : Memory} {after : Tree}
    (h : memory.tree.write memory.current (temporaryName path processId) content = .ok after) :
    Changes (IsTemporary memory.current path processId) memory { memory with tree := after } := by
  obtain ⟨parent, name, hleads, hdir, rfl⟩ := write_ok h
  have htemporary := isTemporary_of_leadsTo hleads
  refine ⟨?_, .put (by simp) hdir _, fun hw => hw.put hleads.isDirectory hdir _, rfl, rfl⟩
  intro place hplace
  refine Or.inl ?_
  rw [Tree.node?_put _ (by simp), if_neg]
  rintro rfl
  exact hplace htemporary

theorem changes_remove_temporary (path : String) (processId : Nat) (memory : Memory) :
    Changes (IsTemporary memory.current path processId) memory
      (memory.remove (temporaryName path processId)).2 := by
  refine (changes_serve (.remove _) memory).mono ?_
  intro place htouch
  obtain ⟨hlocate, -⟩ := not_isDirectory_of_filePlace htouch
  exact isTemporary_of_locate hlocate

theorem run_writeAndRename (temporary path : String) (content : ByteArray) (memory : Memory) :
    memory.run (writeAndRename temporary path content) =
      match memory.tree.write memory.current temporary content with
      | .error fault => (.error fault, memory)
      | .ok tree => { memory with tree }.rename temporary path := by
  rw [writeAndRename, Action.bind_eq, run_andThen, run_write]
  cases memory.tree.write memory.current temporary content with
  | error fault => rfl
  | ok tree => simp only [run_rename]

/-- Writing beside a file and renaming over it. -/
theorem writeAndRename_ok {path : String} {content : ByteArray} {processId : Nat}
    {memory after : Memory}
    (h : memory.run (writeAndRename (temporaryName path processId) path content) =
      (.ok (), after)) :
    ∃ parent name, after.tree.LeadsTo memory.current path parent name ∧
      after.tree.node? (parent ++ [name]) = some (.file content) ∧
      Changes (fun place => IsTemporary memory.current path processId place ∨
        place = parent ++ [name]) memory after := by
  rw [run_writeAndRename] at h
  split at h
  · cases h
  · rename_i tree hwrite
    have hwritten := changes_write_temporary path content processId hwrite
    obtain ⟨parent, name, hleads, hdir, rfl⟩ := write_ok hwrite
    have htemporary := isTemporary_of_leadsTo hleads
    -- the temporary file is found again under its name
    have hnode : (memory.tree.put (parent ++ [name]) (.file content)).node? (parent ++ [name]) =
        some (.file content) := by
      rw [Tree.node?_put _ (by simp), if_pos rfl]
    have hleads' := hleads.keeps (Tree.KeepsDirectories.put (by simp) hdir (.file content))
    have hlocate := hleads'.locate (by rw [hnode]; rfl)
    obtain ⟨parent', name', hgoal, hmoved, hchanges⟩ := rename_ok h hlocate hnode
    refine ⟨parent', name', hgoal.keeps hchanges.directories, hmoved, ?_⟩
    have hfirst : Changes (fun other => IsTemporary memory.current path processId other ∨
        other = parent' ++ [name']) memory _ := hwritten.mono fun other hother => Or.inl hother
    refine hfirst.trans (hchanges.mono ?_)
    rintro other (rfl | hother)
    · exact Or.inl htemporary
    · exact Or.inr hother

theorem writeAndRename_error {path : String} {content : ByteArray} {processId : Nat}
    {memory after : Memory} {fault : Fault}
    (h : memory.run (writeAndRename (temporaryName path processId) path content) =
      (.error fault, after)) :
    Changes (IsTemporary memory.current path processId) memory after := by
  rw [run_writeAndRename] at h
  split at h
  · cases h
    exact .refl _ memory
  · rename_i tree hwrite
    rw [rename_error h]
    exact changes_write_temporary path content processId hwrite

theorem run_replace (path : String) (content : ByteArray) (memory : Memory) :
    ∃ between, Changes (fun _ => False) memory between ∧
      ((∃ failure, memory.run (replace path content) = (.error failure, between)) ∨
        (∃ after, between.run (writeAndRename (temporaryName path between.processId) path content) =
            (.ok (), after) ∧ memory.run (replace path content) = (.ok (), after)) ∨
        ∃ fault after failure,
          between.run (writeAndRename (temporaryName path between.processId) path content) =
            (.error fault, after) ∧
          memory.run (replace path content) =
            (.error failure, (after.remove (temporaryName path between.processId)).2)) := by
  refine ⟨_, changes_createParent path memory, ?_⟩
  rw [replace, Action.bind_eq, run_andThen]
  cases (memory.run (createParent path)).1 with
  | error fault => exact Or.inl ⟨_, rfl⟩
  | ok done =>
    refine Or.inr ?_
    generalize (memory.run (createParent path)).2 = between
    simp only [Action.bind_eq, run_andThen, run_processId]
    cases hrun : between.run
        (writeAndRename (temporaryName path between.processId) path content) with
    | mk reply after =>
      cases reply with
      | ok done => exact Or.inl ⟨after, rfl, rfl⟩
      | error fault => exact Or.inr ⟨fault, after, _, rfl, rfl⟩

/-- A replaced file holds the new content, and apart from its temporary file it
is the only file that changed. -/
theorem replace_ok {path : String} {content : ByteArray} {memory after : Memory}
    (h : memory.run (replace path content) = (.ok (), after)) :
    ∃ parent name, after.tree.LeadsTo memory.current path parent name ∧
      after.tree.node? (parent ++ [name]) = some (.file content) ∧
      Changes (fun place => IsTemporary memory.current path memory.processId place ∨
        place = parent ++ [name]) memory after := by
  obtain ⟨between, hparent, hrun⟩ := run_replace path content memory
  rw [h] at hrun
  rcases hrun with ⟨failure, hfailed⟩ | ⟨last, hmoved, hlast⟩ | ⟨fault, last, failure, -, hfailed⟩
  · cases hfailed
  · cases hlast
    obtain ⟨parent, name, hleads, hnode, hchanges⟩ := writeAndRename_ok hmoved
    rw [hparent.current] at hleads hchanges
    rw [hparent.processId] at hchanges
    have hgrown : Changes (fun other => IsTemporary memory.current path memory.processId other ∨
        other = parent ++ [name]) memory between := hparent.mono fun other hother => hother.elim
    exact ⟨parent, name, hleads, hnode, hgrown.trans hchanges⟩
  · cases hfailed

/-- A file that could not be replaced is as before. -/
theorem replace_error {path : String} {content : ByteArray} {memory after : Memory}
    {failure : Failure} (h : memory.run (replace path content) = (.error failure, after)) :
    Changes (IsTemporary memory.current path memory.processId) memory after := by
  obtain ⟨between, hparent, hrun⟩ := run_replace path content memory
  have hgrown : Changes (IsTemporary memory.current path memory.processId) memory between :=
    hparent.mono fun other hother => hother.elim
  rw [h] at hrun
  rcases hrun with ⟨failure, hfailed⟩ | ⟨last, -, hlast⟩ | ⟨fault, last, failure, hmoved, hfailed⟩
  · cases hfailed
    exact hgrown
  · cases hlast
  · rw [hparent.processId] at hmoved hfailed
    cases hfailed
    have hchanges := writeAndRename_error hmoved
    have hremove := changes_remove_temporary path memory.processId last
    rw [hchanges.current] at hremove
    have hfailed := hchanges.trans hremove
    rw [hparent.current] at hfailed
    exact hgrown.trans hfailed

/-! ## Reading -/

theorem run_readText (path : String) (memory : Memory) :
    memory.run (Action.readText path) =
      (match memory.tree.read memory.current path with
        | .error fault => .error fault
        | .ok content =>
          match String.fromUTF8? content with
          | some text => .ok text
          | none => .error .notText, memory) := by
  rw [Action.readText, Action.bind_eq, run_andThen, run_read]
  cases memory.tree.read memory.current path with
  | error fault => rfl
  | ok content =>
    simp only
    cases String.fromUTF8? content <;> rfl

/-- The file that a path names is read. -/
theorem read_of_locate {tree : Tree} {current place : Place} {path : String}
    {content : ByteArray} (hlocate : tree.locate current path = .ok place)
    (hnode : tree.node? place = some (.file content)) : tree.read current path = .ok content := by
  rw [Tree.read, hlocate]
  simp only [bind, Except.bind, hnode]

theorem read_ok {tree : Tree} {current : Place} {path : String} {content : ByteArray}
    (h : tree.read current path = .ok content) :
    ∃ place, tree.locate current path = .ok place ∧ tree.node? place = some (.file content) := by
  rw [Tree.read] at h
  obtain ⟨place, hlocate, hfound⟩ := exists_of_bind_eq_ok h
  refine ⟨place, hlocate, ?_⟩
  split at hfound
  · rename_i found hnode
    cases hfound
    exact hnode
  · cases hfound
  · cases hfound

end Memory

end TestSkeleton.Files
