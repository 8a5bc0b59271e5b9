import TestSkeleton.Proofs.Files.Replacing
import TestSkeleton.Proofs.Path.Rooted
import TestSkeleton.StatePaths

/-!
# The files beside a preference file

A preference file, its lock file and the temporary files that replace it are
never the same file, wherever their paths lead and in whatever order the
directories on the way are made.  The paths may be followed in different
trees.

* `LeadsTo.preferenceLock`: the lock file is one directory below, and
  `LeadsTo.of_preferenceLock`: once it is there, no directory on the way to the
  preference file is missing.
* `LeadsTo.ne_temporary`, `LeadsTo.ne_preferenceLock` and
  `LeadsTo.lock_ne_temporary`: the three are apart.
-/

namespace TestSkeleton.Files.Tree

variable {tree later : Tree} {current parent other : Place} {path name last : String}
  {processId : Nat}

/-! ## The lock file -/

theorem isSegment_lockName : Path.IsSegment "preferences.lock" := by
  unfold Path.IsSegment
  decide

theorem steps_preferenceLock {parent : String} (h : Path.parent? path = some parent) :
    Path.isAbsolute (StatePaths.preferenceLock path) = Path.isAbsolute path ∧
      Path.steps (StatePaths.preferenceLock path) =
        Path.steps parent ++ ["locks"] ++ ["preferences.lock"] := by
  have hlocks : Path.IsSegment "locks" := by
    unfold Path.IsSegment
    decide
  have hlast := isSegment_lockName
  rw [StatePaths.preferenceLock, StatePaths.lockDir, h]
  constructor
  · rw [Path.isAbsolute_join _ hlast, Path.isAbsolute_join _ hlocks, (Path.parent?_spec h).1]
  · rw [Path.steps_join, Path.not_isAbsolute_of_isSegment hlast, if_neg (by simp), Path.steps_join,
      Path.not_isAbsolute_of_isSegment hlocks, if_neg (by simp)]
    rfl

/-- The way to the lock file leads through the directory of the preference
file. -/
theorem LeadsTo.through_preferenceLock {front : List String}
    (hlock : tree.LeadsTo current (StatePaths.preferenceLock path) other last)
    (hsteps : Path.steps path = front ++ [name]) :
    last = "preferences.lock" ∧ ∃ parent, other = parent ++ ["locks"] ∧
      tree.isDirectory parent = true ∧ tree.follow (startOf current path) front = .ok parent := by
  obtain ⟨front', hsteps', hfollow'⟩ := hlock.steps
  obtain ⟨above, habove⟩ := Path.exists_parent? (show Path.steps path ≠ [] by simp [hsteps])
  obtain ⟨habsolute, hlocked⟩ := steps_preferenceLock habove
  have hfront : Path.steps above = front := by
    rw [(Path.parent?_spec habove).2, hsteps, List.dropLast_concat]
  rw [hlocked, hfront] at hsteps'
  obtain ⟨hcut, hend⟩ := List.append_inj' hsteps' rfl
  have hstart : startOf current (StatePaths.preferenceLock path) = startOf current path := by
    rw [startOf, startOf, habsolute]
  rw [← hcut, hstart, follow_append_ok] at hfollow'
  obtain ⟨parent, hfollow, hlocks⟩ := hfollow'
  obtain ⟨next, henter, hnil⟩ := follow_cons_ok.1 hlocks
  cases hnil
  obtain ⟨hdir, henters⟩ := enter_eq_ok_iff.1 henter
  exact ⟨(List.cons.inj hend).1.symm, parent, henters.eq_append (by decide) (by decide), hdir,
    hfollow⟩

/-- The lock file stands in a directory beside the preference file. -/
theorem LeadsTo.preferenceLock (h : later.LeadsTo current path parent name)
    (hlock : tree.LeadsTo current (StatePaths.preferenceLock path) other last) :
    other = parent ++ ["locks"] ∧ last = "preferences.lock" := by
  obtain ⟨front, hsteps, hfollow⟩ := h.steps
  obtain ⟨hlast, between, hother, -, hbetween⟩ := hlock.through_preferenceLock hsteps
  rw [hother, eq_foldl_of_follow hbetween, ← eq_foldl_of_follow hfollow]
  exact ⟨rfl, hlast⟩

/-- Once there is a lock file, the preference file is where its path leads at
any other time. -/
theorem LeadsTo.of_preferenceLock (h : later.LeadsTo current path parent name)
    (hlock : tree.LeadsTo current (StatePaths.preferenceLock path) other last) :
    tree.LeadsTo current path parent name := by
  obtain ⟨front, hsegments, hfollow⟩ := h.walk
  have hsteps : Path.steps path = front.filter (fun segment => !Path.isVoid segment) ++ [name] := by
    rw [Path.steps, hsegments, List.filter_append, List.filter_cons_of_pos (by simp [h.isName.1]),
      List.filter_nil]
  obtain ⟨-, between, -, hdir, hbetween⟩ := hlock.through_preferenceLock hsteps
  have hsame : parent = between := by
    rw [eq_foldl_of_follow hfollow, eq_foldl_of_follow hbetween, List.filter_filter]
    simp
  subst hsame
  exact ⟨h.check, hdir, ⟨front, hsegments, follow_of_filter (by simp) hbetween hdir⟩, h.isName,
    h.size⟩

/-! ## Apart -/

theorem temporaryLast_ne (name : String) (processId : Nat) :
    temporaryLast name processId ≠ name := by
  intro h
  have hlength := congrArg (fun text => text.toList.length) h
  simp only [temporaryLast, String.toList_append, List.length_append] at hlength
  have hdot : ".".toList.length = 1 := by decide
  omega

theorem LeadsTo.temporary (h : later.LeadsTo current path parent name)
    (htemporary : tree.LeadsTo current (temporaryName path processId) other last) :
    last = temporaryLast name processId := by
  obtain ⟨front, hsegments, -⟩ := htemporary.walk
  have hlast := getLast?_segments_temporaryName path processId
  rw [hsegments, List.getLast?_concat, h.lastName?, Option.some.injEq] at hlast
  exact hlast

theorem LeadsTo.ne_temporary (h : later.LeadsTo current path parent name)
    (htemporary : tree.LeadsTo current (temporaryName path processId) other last) :
    parent ++ [name] ≠ other ++ [last] := by
  intro hsame
  have hlast := (List.cons.inj (List.append_inj' hsame rfl).2).1
  rw [h.temporary htemporary] at hlast
  exact temporaryLast_ne name processId hlast.symm

theorem LeadsTo.ne_preferenceLock (h : later.LeadsTo current path parent name)
    (hlock : tree.LeadsTo current (StatePaths.preferenceLock path) other last) :
    parent ++ [name] ≠ other ++ [last] := by
  intro hsame
  rw [(h.preferenceLock hlock).1] at hsame
  have hlength := congrArg List.length hsame
  simp only [List.length_append, List.length_singleton] at hlength
  omega

/-- A temporary name starts with a dot. -/
theorem LeadsTo.lock_ne_temporary
    (hlock : later.LeadsTo current (StatePaths.preferenceLock path) parent name)
    (htemporary : tree.LeadsTo current (temporaryName path processId) other last) :
    parent ++ [name] ≠ other ++ [last] := by
  intro hsame
  have hlast := (List.cons.inj (List.append_inj' hsame rfl).2).1
  have hname : name = "preferences.lock" := by
    obtain ⟨front, hsegments, -⟩ := hlock.walk
    have hend := Path.getLast?_segments_join (StatePaths.lockDir path) isSegment_lockName
    rw [← StatePaths.preferenceLock, hsegments, List.getLast?_concat, Option.some.injEq] at hend
    exact hend
  obtain ⟨front, hsegments, -⟩ := htemporary.walk
  have hend := getLast?_segments_temporaryName path processId
  rw [hsegments, List.getLast?_concat, Option.some.injEq, ← hlast, hname] at hend
  have hfirst := congrArg (fun text => text.toList.head?) hend
  simp only [temporaryLast, String.append_assoc, String.toList_append] at hfirst
  cases hfirst

end TestSkeleton.Files.Tree
