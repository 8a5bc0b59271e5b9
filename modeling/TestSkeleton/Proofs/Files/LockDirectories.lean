import TestSkeleton.Proofs.Files.Locking

/-!
# Lock directories that are there

A lock file is made in its directory, and the directories on the way to it
are made first.  If the directory is there already, a lock makes nothing but
its file, and whether any other path names something is the same before and
after.

* `Tree.createDirs_of_follow`: a directory that is there is not made again.
* `Tree.contains_of_contains`: what a path names in one tree it names in
  another that has the directories and files on its way.
* `AddsLock` is what such a lock does, and `AddsLock.contains` what it does
  not change.
-/

namespace TestSkeleton.Files

namespace Tree

variable {tree other : Tree} {current place : Place} {path : String}

/-! ## Directories that are there -/

theorem kind_of_checkPath {fault : Fault} (h : checkPath path = .error fault) (hpath : path ≠ "") :
    fault.kind ≠ .notFound := by
  rw [checkPath] at h
  split at h
  · cases h
    decide
  split at h
  · rename_i hempty
    exact absurd (String.isEmpty_iff.1 hempty) hpath
  split at h
  · cases h
    decide
  · cases h

/-- The name of a directory that is there is taken. -/
theorem createDir_of_follow (hpath : path ≠ "")
    (hfollow : tree.follow (startOf current path) (Path.steps path) = .ok place)
    (hdir : tree.isDirectory place = true) :
    ∃ fault, tree.createDir current path = .error fault ∧ fault.kind ≠ .notFound := by
  rw [createDir, locateNew]
  cases hcheck : checkPath path with
  | error fault => exact ⟨fault, rfl, kind_of_checkPath hcheck hpath⟩
  | ok done =>
    generalize hsegments : (Path.segments path).filter (fun segment => !segment.isEmpty) = segments
    have hsteps : Path.steps path = segments.filter fun segment => !Path.isVoid segment := by
      rw [← hsegments, List.filter_filter, Path.steps]
      refine List.filter_congr fun segment _ => ?_
      cases hempty : segment.isEmpty <;> simp [Path.isVoid, hempty]
    rw [hsteps] at hfollow
    have hwalk := follow_of_filter (by simp) hfollow hdir
    have htaken : Fault.taken.kind ≠ .notFound := by decide
    rcases List.eq_nil_or_concat segments with rfl | ⟨front, last, rfl⟩
    · have hstart := isDirectory_of_follow hwalk hdir
      refine ⟨.taken, ?_, htaken⟩
      simp [bind, Except.bind, hstart]
    · rw [List.concat_eq_append] at hwalk hsegments ⊢
      obtain ⟨parent, hfront, hend⟩ := follow_append_ok.1 hwalk
      obtain ⟨next, henter, hnil⟩ := follow_cons_ok.1 hend
      obtain ⟨hparent, henters⟩ := enter_eq_ok_iff.1 henter
      refine ⟨.taken, ?_, htaken⟩
      simp only [bind, Except.bind, List.dropLast_concat, hfront, hparent, Bool.not_true,
        Bool.false_eq_true, if_false, List.getLast?_concat]
      have hempty : last.isEmpty = false := by
        have hmem : last ∈ (Path.segments path).filter fun segment => !segment.isEmpty := by
          rw [hsegments]
          exact List.mem_append_right _ List.mem_cons_self
        simpa using (List.mem_filter.1 hmem).2
      cases henters with
      | stay hvoid =>
        rw [Path.isVoid, hempty, Bool.false_or] at hvoid
        rw [hvoid, Bool.true_or, if_pos rfl]
      | up => rfl
      | down hname hup hsize hnode =>
        simp only [Path.isVoid, Bool.or_eq_false_iff] at hname
        rw [hname.2, Bool.false_or, if_neg (by simpa using hup)]
        simp only [if_neg (Nat.not_lt.2 hsize), if_pos hnode]

/-- A directory that is there is not made again. -/
theorem createDirs_of_follow
    (hfollow : tree.follow (startOf current path) (Path.steps path) = .ok place)
    (hdir : tree.isDirectory place = true) : (tree.createDirs current path).2 = tree := by
  rw [createDirs, createDirsWithin]
  split
  · rfl
  · rename_i hempty
    obtain ⟨fault, hcreate, hkind⟩ :=
      createDir_of_follow (fun hpath => hempty (String.isEmpty_iff.2 hpath)) hfollow hdir
    rw [hcreate]
    simp only [if_neg (show ¬ (fault.kind == FaultKind.notFound) = true by simpa using hkind)]

/-! ## Paths that name something -/

/-- What a path names is in use. -/
theorem LeadsTo.isSome_of_locate {parent : Place} {name : String}
    (h : tree.LeadsTo current path parent name)
    (hlocate : tree.locate current path = .ok place) : (tree.node? (parent ++ [name])).isSome := by
  obtain ⟨front, hsegments, hfront⟩ := h.walk
  obtain ⟨-, hfollow⟩ := locate_eq_ok.1 hlocate
  rw [hsegments, follow_append_ok] at hfollow
  obtain ⟨next, hnext, hend⟩ := hfollow
  rw [hfront, Except.ok.injEq] at hnext
  subst hnext
  obtain ⟨last, henter, -⟩ := follow_cons_ok.1 hend
  obtain ⟨-, henters⟩ := enter_eq_ok_iff.1 henter
  cases henters with
  | stay hvoid =>
    rw [h.isName.1] at hvoid
    cases hvoid
  | up => exact absurd rfl h.isName.2
  | down hname hup hsize hnode => exact hnode

/-- A path that names something in one tree names something in another that
keeps the directories and what the path leads to. -/
theorem contains_of_contains (hwell : tree.WellFormed) (hkeeps : KeepsDirectories tree other)
    (hnodes : ∀ parent name, tree.LeadsTo current path parent name →
      (tree.node? (parent ++ [name])).isSome → (other.node? (parent ++ [name])).isSome)
    (h : tree.contains current path = true) : other.contains current path = true := by
  rw [contains] at h ⊢
  cases hlocate : tree.locate current path with
  | error fault =>
    rw [hlocate] at h
    cases h
  | ok place =>
    obtain ⟨hcheck, hfollow⟩ := locate_eq_ok.1 hlocate
    cases hdir : tree.isDirectory place with
    | true =>
      rw [locate_eq_ok.2 ⟨hcheck, hkeeps.follow hfollow hdir⟩]
      rfl
    | false =>
      obtain ⟨parent, name, rfl, hleads⟩ := hwell.leadsTo hlocate hdir
      have hnode := hnodes parent name hleads (hleads.isSome_of_locate hlocate)
      rw [(hleads.keeps hkeeps).locate hnode]
      rfl

end Tree

namespace Memory

variable {memory : Memory} {lockDir target path : String} {mode : LockMode} {timeoutMs : Nat}

/-! ## Taking the lock -/

/-- The directory of a lock file. -/
theorem steps_parent_lockFile {parent : String}
    (h : Path.parent? (StatePaths.lockFile lockDir target) = some parent) :
    Path.isAbsolute parent = Path.isAbsolute lockDir ∧ Path.steps parent = Path.steps lockDir := by
  have hname := StatePaths.isStep_lockName target
  obtain ⟨habsolute, hsteps⟩ := Path.parent?_spec h
  rw [StatePaths.lockFile] at habsolute hsteps
  refine ⟨habsolute.trans (Path.isAbsolute_join lockDir hname.1), ?_⟩
  rw [hsteps, Path.steps_join, Path.not_isAbsolute_of_isSegment hname.1, if_neg (by simp),
    Path.steps_of_isStep hname, List.dropLast_concat]

/-- The directory of a lock file is not made again. -/
theorem tree_createParent_lockFile
    (h : memory.tree.isDirectoryAt memory.current lockDir = true) :
    (memory.run (createParent (StatePaths.lockFile lockDir target))).2.tree = memory.tree := by
  rw [createParent]
  split
  · rename_i parent hparent
    obtain ⟨habsolute, hsteps⟩ := steps_parent_lockFile hparent
    rw [Tree.isDirectoryAt] at h
    cases hlocate : memory.tree.locate memory.current lockDir with
    | error fault =>
      rw [hlocate] at h
      cases h
    | ok place =>
      rw [hlocate] at h
      have hfollow := Tree.follow_filter (Tree.locate_eq_ok.1 hlocate).2
      rw [← Path.steps, ← hsteps, Tree.startOf, ← habsolute, ← Tree.startOf] at hfollow
      exact Tree.createDirs_of_follow hfollow h
  · rfl

theorem keepsDirectories_lock (memory : Memory) (path : String) (mode : LockMode) :
    Tree.KeepsDirectories (memory.lock path mode).2.tree memory.tree := by
  have hopen : ∀ {opened}, memory.tree.openPlace memory.current path = .ok opened →
      Tree.KeepsDirectories (memory.openLock opened).tree memory.tree := by
    intro opened hopened place hdir
    obtain ⟨parent, name, -, rfl, -⟩ := Tree.openPlace_ok hopened
    rw [Tree.isDirectory_iff, node?_openLock] at hdir
    rw [Tree.isDirectory_iff]
    cases hnode : memory.tree.node? place with
    | none =>
      rw [hnode] at hdir
      split at hdir <;> cases hdir
    | some node =>
      rw [hnode] at hdir
      split at hdir <;> exact hdir
  have heffect := effect_lock memory path mode 0
  generalize (memory.lock path mode).2 = after at heffect
  cases heffect with
  | nothing => exact fun place => id
  | opened mode timeoutMs hopened => exact hopen hopened
  | locked mode timeoutMs hopened => exact hopen hopened

/-- Whether a system has a lock file in addition to another one, and nothing
else. -/
structure AddsLock (lockPath : String) (memory locked : Memory) : Prop where
  frames : Frames [] [lockPath] memory locked
  keeps : Tree.KeepsDirectories locked.tree memory.tree

/-- A lock in a directory that is there makes nothing but its file. -/
theorem addsLock_acquire {reply : Except Failure Nat} {locked : Memory}
    (h : memory.tree.isDirectoryAt memory.current lockDir = true)
    (hrun : memory.run (acquire (StatePaths.lockFile lockDir target) mode timeoutMs) =
      (reply, locked)) : AddsLock (StatePaths.lockFile lockDir target) memory locked := by
  have hruns := Action.runs_run attempts_serve
    (acquire (StatePaths.lockFile lockDir target) mode timeoutMs) memory
  rw [hrun] at hruns
  refine ⟨frames_acquire hruns, ?_⟩
  have hmade : (memory.run (createParent (StatePaths.lockFile lockDir target))).2.tree =
    memory.tree := tree_createParent_lockFile h
  rw [acquire, Action.bind_eq, run_andThen] at hrun
  generalize StatePaths.lockFile lockDir target = lockPath at hmade hrun
  cases hparent : memory.run (createParent lockPath) with
  | mk made parents =>
    rw [hparent] at hmade hrun
    cases made with
    | error fault =>
      cases hrun
      rw [show parents.tree = memory.tree from hmade]
      exact fun place => id
    | ok done =>
      have hlock := keepsDirectories_lock parents lockPath mode
      rw [show parents.tree = memory.tree from hmade] at hlock
      simp only [Action.bind_eq, run_andThen, run_lock] at hrun
      cases hlocked : parents.lock lockPath mode with
      | mk granted last =>
        rw [hlocked] at hlock hrun
        have hlast : locked = last := by
          cases granted with
          | ok ticket => exact (Prod.mk.inj hrun).2.symm
          | error fault => cases fault <;> exact (Prod.mk.inj hrun).2.symm
        rw [hlast]
        exact hlock

namespace AddsLock

variable {lockPath : String} {locked : Memory}

theorem node?_eq (h : AddsLock lockPath memory locked)
    (hapart : ∀ place, Leads memory lockPath place → ¬ Leads memory path place) {place : Place}
    (hleads : Leads memory path place) {node : Node}
    (hnode : locked.tree.node? place = some node) : memory.tree.node? place = some node := by
  cases node with
  | directory => exact Tree.isDirectory_iff.1 (h.keeps place (Tree.isDirectory_iff.2 hnode))
  | file content =>
    rcases h.frames.file_before place content hnode with hbefore | ⟨other, hother, hlock⟩
    · exact hbefore
    · rw [List.nil_append, List.mem_singleton] at hother
      obtain ⟨parent, name, hlock, hplace⟩ := hlock
      rw [hother, h.frames.changes.current] at hlock
      exact absurd hleads (hapart place ⟨parent, name, hlock.keeps h.keeps, hplace⟩)

/-- The lock file does not change whether another path names something. -/
theorem contains (h : AddsLock lockPath memory locked) (hwell : memory.tree.WellFormed)
    (hapart : ∀ place, Leads memory lockPath place → ¬ Leads memory path place) :
    locked.tree.contains locked.current path = memory.tree.contains memory.current path := by
  rw [h.frames.changes.current, Bool.eq_iff_iff]
  constructor
  · refine Tree.contains_of_contains (h.frames.changes.wellFormed hwell) h.keeps ?_
    intro parent name hleads hnode
    obtain ⟨node, hnode⟩ := Option.isSome_iff_exists.1 hnode
    rw [h.node?_eq hapart ⟨parent, name, hleads.keeps h.keeps, rfl⟩ hnode]
    rfl
  · refine Tree.contains_of_contains hwell h.frames.changes.directories ?_
    intro parent name hleads hnode
    obtain ⟨node, hnode⟩ := Option.isSome_iff_exists.1 hnode
    rw [(h.frames.changes.node _ (by simp)).eq_of_some hnode]
    rfl

/-- A file other than the lock file was there before. -/
theorem hasFile_before (h : AddsLock lockPath memory locked)
    (hapart : ∀ place, Leads memory lockPath place → ¬ Leads memory path place)
    {content : ByteArray} (hfile : HasFile locked path content) : HasFile memory path content := by
  obtain ⟨parent, name, hleads, hnode⟩ := hfile
  rw [h.frames.changes.current] at hleads
  have hleads' := hleads.keeps h.keeps
  exact ⟨parent, name, hleads', h.node?_eq hapart ⟨parent, name, hleads', rfl⟩ hnode⟩

end AddsLock

end Memory

end TestSkeleton.Files
