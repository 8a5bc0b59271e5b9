import TestSkeleton.Proofs.Files.Locking

/-!
# What is left of a temporary file

A file is replaced through a temporary file beside it.  Once the file is
replaced nothing has that name, and if it could not be replaced the temporary
file is removed.

* `Removes` is a behaviour that carries out every removal.
* `Replaces.free` and `Replaces.tidy` are the two ends of a replacement.
* `Frames.hasFile_before` takes a file back to before a run that did not reach
  it.
-/

namespace TestSkeleton.Files

/-- Whether a removal never fails in a way of its own. -/
def Removes (serves : Behaviour) : Prop :=
  ∀ memory path reply after, serves memory (.remove path) reply after →
    (reply, after) = Memory.serve (.remove path) memory

namespace Memory

variable {serves : Behaviour} {memory after : Memory} {path other : String} {place : Place}
  {content : ByteArray} {processId : Nat}

/-- No file is where the path of a removed file leads. -/
theorem not_hasFile_remove (memory : Memory) (path : String) (content : ByteArray) :
    ¬ HasFile (memory.remove path).2 path content := by
  rw [remove]
  split
  · rename_i fault hfault
    intro hfile
    obtain ⟨parent, name, hleads, hnode⟩ := hfile
    have hlocate := hleads.locate (by rw [hnode]; rfl)
    rw [Tree.filePlace, hlocate] at hfault
    simp [bind, Except.bind, Tree.isDirectory, hnode] at hfault
  · rename_i removed hremoved
    obtain ⟨hlocate, hdir⟩ := not_isDirectory_of_filePlace hremoved
    have hne := Tree.ne_nil_of_not_isDirectory hdir
    rintro ⟨parent, name, hleads, hnode⟩
    change (memory.tree.erase removed).LeadsTo memory.current path parent name at hleads
    change (memory.tree.erase removed).node? (parent ++ [name]) = _ at hnode
    -- without the file there are the same directories, and one file less
    have hkeeps : Tree.KeepsDirectories (memory.tree.erase removed) memory.tree := by
      intro place hplace
      rw [Tree.isDirectory_iff, Tree.node?_erase _ hne] at hplace
      split at hplace
      · cases hplace
      · exact Tree.isDirectory_iff.2 hplace
    rw [Tree.node?_erase _ hne] at hnode
    split at hnode
    · cases hnode
    · rename_i hother
      have hlocate' := (hleads.keeps hkeeps).locate (by rw [hnode]; rfl)
      rw [hlocate, Except.ok.injEq] at hlocate'
      exact hother hlocate'.symm

/-- Nothing has the old name of a renamed file. -/
theorem free_of_rename {source target : String}
    (h : Serves memory (.rename source target) (Except.ok ()) after)
    (hfile : HasFile memory source content) (hapart : KeepsApart memory target source)
    (hleads : Leads after source place) : after.tree.node? place = none := by
  obtain ⟨origin, horigin, hnode⟩ := hfile.leads
  obtain rfl := hleads.unique (horigin.keeps h.changes)
  have hnot : memory.tree.isDirectory origin = false := by rw [Tree.isDirectory, hnode]
  have hplace : memory.tree.filePlace memory.current source = .ok origin := by
    obtain ⟨parent, name, hname, rfl⟩ := horigin
    rw [Tree.filePlace, hname.locate (by rw [hnode]; rfl)]
    simp [bind, Except.bind, hnot]
  rcases h with hserve | ⟨fault, hfault, -⟩
  · have hrename : memory.rename source target = (.ok (), after) := hserve.symm
    simp only [rename, hplace] at hrename
    cases htarget : memory.tree.renamePlace memory.current target with
    | error fault =>
      rw [htarget] at hrename
      cases hrename
    | ok goal =>
      have hgoal := leads_of_renamePlace htarget
      have hne : origin ≠ goal := by
        rintro rfl
        exact hapart.not_leads hgoal horigin
      rw [htarget] at hrename
      simp only [if_neg hne] at hrename
      cases hrename
      obtain ⟨parent, name, -, rfl⟩ := hgoal
      show (memory.tree.move origin (parent ++ [name])).node? origin = none
      rw [Tree.node?_move (Tree.ne_nil_of_not_isDirectory hnot) (by simp) hnode, if_neg hne,
        if_pos rfl]
  · cases hfault

/-- Nothing has the temporary name once a file is replaced. -/
theorem Replaces.free (hserves : Refines serves Attempts)
    (h : Replaces serves path (temporaryName path processId) content memory (.ok ()) after)
    (hleads : Leads after (temporaryName path processId) place) :
    after.tree.node? place = none := by
  cases h with
  | moved hmade hwrite hrename =>
    have hfile := ((hserves _ _ _ _ hwrite).serves id).write_ok
    exact free_of_rename ((hserves _ _ _ _ hrename).serves id) hfile (.temporary path processId)
      hleads

/-- A file that could not be replaced leaves no temporary file behind, or one
that was there before. -/
theorem Replaces.tidy {failure : Failure} {temporary : String}
    (h : Replaces serves path temporary content memory (.error failure) after)
    (hremoves : Removes serves) :
    Frames [] [] memory after ∨ ∀ content, ¬ HasFile after temporary content := by
  have hremoved {written : Memory} {reply : Except Fault Unit}
      (hremove : serves written (.remove temporary) reply after) (content : ByteArray) :
      ¬ HasFile after temporary content := by
    have hafter : after = (written.remove temporary).2 :=
      congrArg Prod.snd (hremoves _ _ _ _ hremove)
    rw [hafter]
    exact not_hasFile_remove written temporary content
  cases h with
  | unmade hmade => exact Or.inl hmade
  | unwritten hmade hwrite hremove => exact Or.inr (hremoved hremove)
  | unmoved hmade hwrite hrename hremove => exact Or.inr (hremoved hremove)

/-- A file that no change reaches, and that is no new lock file, was there
before. -/
theorem Frames.hasFile_before {changed opened : List String}
    (h : Frames changed opened memory after) (hwell : memory.tree.WellFormed)
    (hup : Path.IsDirect path) (hapart : ∀ other ∈ changed ++ opened, KeepsApart after path other)
    (hfile : HasFile after path content) : HasFile memory path content := by
  obtain ⟨parent, name, hleads, hnode⟩ := hfile
  have hbefore : memory.tree.node? (parent ++ [name]) = some (.file content) :=
    (h.file_iff (fun other hother =>
      (hapart other hother).not_leads ⟨parent, name, hleads, rfl⟩) content).1 hnode
  rw [h.changes.current] at hleads
  exact ⟨parent, name, hwell.leadsTo_of_node hleads hup (by rw [hbefore]; rfl), hbefore⟩

end Memory

end TestSkeleton.Files
