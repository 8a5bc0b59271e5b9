import TestSkeleton.Proofs.Files.Attempting
import TestSkeleton.Proofs.Preferences.Neighbours
import TestSkeleton.StatePaths

/-!
# Lock files and the files that they guard

A file, its lock file and the temporary files that replace it are not in each
other's way, wherever their paths lead once directories are made.

* `KeepsApart` says so for two paths.  A file is apart from its temporary
  files, and any lock file is.
* `HoldsLock` says that a lock file is locked under some ticket.  It stays so
  until that ticket is released, and meanwhile nobody else is granted the
  lock.
-/

namespace TestSkeleton

namespace Digest

theorem not_slash_mem_hex (count n : Nat) : '/' ∉ hex count n := by
  have hdigit : ∀ digit < 16, Nat.digitChar digit ≠ '/' := by decide
  induction count generalizing n with
  | zero => exact List.not_mem_nil
  | succ count ih =>
    intro hmem
    rcases List.mem_append.1 hmem with hmem | hmem
    · exact ih _ hmem
    · exact hdigit _ (Nat.mod_lt n (by decide)) (List.mem_singleton.1 hmem).symm

end Digest

namespace StatePaths

theorem isSegment_lockName (target : String) : Path.IsSegment (lockName target) := by
  intro hslash
  rw [lockName, String.toList_append, String.toList_ofList, List.mem_append] at hslash
  rcases hslash with hmem | hmem
  · obtain ⟨word, -, hword⟩ := List.mem_flatMap.1 (List.mem_of_mem_take hmem)
    exact Digest.not_slash_mem_hex 8 word.toNat hword
  · exact absurd hmem (by decide)

theorem isStep_lockName (target : String) : Path.IsStep (lockName target) := by
  refine ⟨isSegment_lockName target, ?_⟩
  have hlast : (lockName target).toList.getLast? = some 'k' := by
    rw [lockName, String.toList_append, List.getLast?_append]
    rfl
  refine Bool.eq_false_iff.2 fun hvoid => ?_
  simp only [Path.isVoid, Bool.or_eq_true, String.isEmpty_iff, beq_iff_eq] at hvoid
  rcases hvoid with h | h <;> rw [h] at hlast <;> cases hlast

/-- A lock file does not end like a temporary file. -/
theorem lockName_ne_temporaryLast (target name : String) (processId : Nat) :
    lockName target ≠ Files.temporaryLast name processId := by
  intro hsame
  have hlast := congrArg (fun text : String => text.toList.getLast?) hsame
  simp only [lockName, Files.temporaryLast, String.toList_append, List.getLast?_append] at hlast
  cases hlast

end StatePaths

namespace Files.Memory

variable {memory after : Memory} {request : Request} {reply : Reply request}
  {path other : String} {place : Place}

/-! ## Paths that are apart -/

/-- Whether two paths lead to two places, also after directories are made. -/
def KeepsApart (memory : Memory) (path other : String) : Prop :=
  ∀ tree parent name parent' name', Tree.KeepsDirectories memory.tree tree →
    tree.LeadsTo memory.current path parent name →
    tree.LeadsTo memory.current other parent' name' → parent ++ [name] ≠ parent' ++ [name']

namespace KeepsApart

/-- Two names are two places. -/
theorem of_lastName? (h : Path.lastName? path ≠ Path.lastName? other) :
    KeepsApart memory path other := by
  intro tree parent name parent' name' _ hpath hother hsame
  obtain ⟨rfl, hlast⟩ := List.append_inj' hsame rfl
  rw [hpath.lastName?, hother.lastName?, (List.cons.inj hlast).1] at h
  exact h rfl

/-- Two paths that end with two names are apart. -/
theorem of_getLast?_segments
    (h : (Path.segments path).getLast? ≠ (Path.segments other).getLast?) :
    KeepsApart memory path other := by
  intro tree parent name parent' name' _ hpath hother hsame
  obtain ⟨front, hsegments, -⟩ := hpath.walk
  obtain ⟨front', hsegments', -⟩ := hother.walk
  rw [hsegments, hsegments', List.getLast?_concat, List.getLast?_concat] at h
  exact h (congrArg some (List.cons.inj (List.append_inj' hsame rfl).2).1)

theorem not_leads (h : KeepsApart memory path other) (hpath : Leads memory path place) :
    ¬ Leads memory other place := by
  rintro ⟨parent', name', hother, hplace⟩
  obtain ⟨parent, name, hleads, rfl⟩ := hpath
  exact h memory.tree parent name parent' name' (fun _ => id) hleads hother hplace

theorem symm (h : KeepsApart memory path other) : KeepsApart memory other path :=
  fun tree parent name parent' name' hkeeps hother hpath hsame =>
    h tree parent' name' parent name hkeeps hpath hother hsame.symm

theorem later {changed : Place → Prop} (h : KeepsApart memory path other)
    (hchanges : Changes changed memory after) : KeepsApart after path other := by
  intro tree parent name parent' name' hkeeps hpath hother
  rw [hchanges.current] at hpath hother
  exact h tree parent name parent' name'
    (fun place hdir => hkeeps place (hchanges.directories place hdir)) hpath hother

theorem temporary (path : String) (processId : Nat) :
    KeepsApart memory path (temporaryName path processId) :=
  fun _ _ _ _ _ _ hpath htemporary => hpath.ne_temporary htemporary

theorem lockFile_temporary (lockDir target path : String) (processId : Nat) :
    KeepsApart memory (StatePaths.lockFile lockDir target) (temporaryName path processId) := by
  refine .of_getLast?_segments ?_
  rw [StatePaths.lockFile, Path.getLast?_segments_join lockDir (StatePaths.isSegment_lockName target),
    getLast?_segments_temporaryName]
  exact fun hsame => StatePaths.lockName_ne_temporaryLast _ _ _ (Option.some.inj hsame)

end KeepsApart

/-! ## Locks -/

/-- Whether the lock file at a path is locked under a ticket. -/
def HoldsLock (memory : Memory) (path : String) (ticket : Nat) (mode : LockMode) : Prop :=
  ∃ parent name, memory.tree.LeadsTo memory.current path parent name ∧
    ⟨ticket, some (parent ++ [name]), mode⟩ ∈ memory.holds

variable {mode mode' : LockMode} {ticket ticket' timeoutMs : Nat}

/-- No request but its release gives up a lock, as long as the lock file
stays. -/
theorem HoldsLock.served (h : HoldsLock memory path ticket mode)
    (hserves : Serves memory request reply after)
    (htouches : ∀ place, Leads memory path place → ¬ request.Touches memory place)
    (hrelease : request ≠ .release ticket) : HoldsLock after path ticket mode := by
  obtain ⟨parent, name, hleads, hmem⟩ := h
  have hchanges := hserves.changes
  refine ⟨parent, name, ?_, hserves.hold hmem rfl (htouches _ ⟨parent, name, hleads, rfl⟩) hrelease⟩
  rw [hchanges.current]
  exact hleads.keeps hchanges.directories

/-- A lock that is granted is held with no other lock, unless both are
shared. -/
theorem HoldsLock.granted (h : HoldsLock memory path ticket' mode')
    (hserves : Serves memory (.lock path mode timeoutMs) (Except.ok ticket) after) :
    mode = .shared ∧ mode' = .shared := by
  obtain ⟨parent, name, hleads, hmem⟩ := h
  obtain ⟨-, -, other, last, hlock, -, hfree⟩ := hserves.lock_ok
  obtain ⟨rfl, rfl⟩ := hleads.unique hlock
  have hconflict := hfree _ hmem
  cases mode <;> cases mode' <;> simp [Hold.conflicts] at hconflict ⊢

theorem holdsLock_of_granted
    (hserves : Serves memory (.lock path mode timeoutMs) (Except.ok ticket) after) :
    HoldsLock after path ticket mode := by
  have hchanges := hserves.changes
  obtain ⟨-, -, parent, name, hlock, hmem, -⟩ := hserves.lock_ok
  refine ⟨parent, name, ?_, hmem⟩
  rw [hchanges.current]
  exact hlock.keeps hchanges.directories

end Files.Memory

end TestSkeleton
