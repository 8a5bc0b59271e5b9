import TestSkeleton.Entries
import TestSkeleton.Proofs.Path.Steps
import TestSkeleton.Results

/-!
# Where a path leads

A walk through a tree depends on its directories and on what exists, so it
leads to the same place in every tree that keeps those.

* `node?_put` and `node?_erase` are the tree after one change, and
  `WellFormed` says that whatever exists stands in a directory.
* `enter_eq_ok_iff` is one segment of a walk and `follow_append_ok` a walk in
  two parts.
* `LeadsTo` is what the operations that need a free name ask of a path, and
  `openPlace_ok` and `renamePlace_ok` that they ask the same.
* `lexical` is the place that can be read off a path without `..`, and
  `LeadsTo.eq_lexical` and `locate_eq_lexical` that the walk leads there.
-/

namespace TestSkeleton.Files.Tree

/-! ## One change -/

@[simp] theorem node?_nil (tree : Tree) : tree.node? [] = some .directory := rfl

theorem lookup_filter (nodes : List (Place × Node)) (place other : Place) :
    (nodes.filter (fun node => node.1 != place)).lookup other =
      if other = place then none else nodes.lookup other := by
  induction nodes with
  | nil => simp
  | cons node nodes ih =>
    obtain ⟨key, value⟩ := node
    by_cases hkey : key = place
    · subst hkey
      rw [List.filter_cons_of_neg (by simp), ih]
      by_cases hother : other = key
      · rw [if_pos hother, if_pos hother]
      · rw [if_neg hother, if_neg hother, List.lookup_cons, beq_eq_false_iff_ne.2 hother]
    · rw [List.filter_cons_of_pos (by simpa using hkey), List.lookup_cons, List.lookup_cons, ih]
      by_cases hother : other = key
      · subst hother
        simp [hkey]
      · simp [beq_eq_false_iff_ne.2 hother]

theorem node?_erase (tree : Tree) {place : Place} (hplace : place ≠ []) (other : Place) :
    (tree.erase place).node? other = if other = place then none else tree.node? other := by
  by_cases hroot : other = []
  · subst hroot
    rw [if_neg (Ne.symm hplace)]
    rfl
  · rw [node?, node?, if_neg hroot, if_neg hroot, erase, lookup_filter]

theorem node?_put (tree : Tree) {place : Place} (hplace : place ≠ []) (node : Node)
    (other : Place) :
    (tree.put place node).node? other = if other = place then some node else tree.node? other := by
  have herase := node?_erase tree hplace other
  by_cases hroot : other = []
  · subst hroot
    rw [if_neg (Ne.symm hplace)]
    rfl
  · rw [node?, if_neg hroot] at herase
    rw [node?, if_neg hroot, put, List.lookup_append, herase]
    by_cases hother : other = place
    · subst hother
      simp
    · rw [if_neg hother, if_neg hother]
      simp [List.lookup_cons, beq_eq_false_iff_ne.2 hother]

theorem isDirectory_iff {tree : Tree} {place : Place} :
    tree.isDirectory place = true ↔ tree.node? place = some .directory := by
  rw [isDirectory]
  cases tree.node? place with
  | none => simp
  | some node => cases node <;> simp

/-- Whether everything stands in a directory. -/
def WellFormed (tree : Tree) : Prop :=
  ∀ place name node, tree.node? (place ++ [name]) = some node → tree.isDirectory place = true

theorem wellFormed_empty : WellFormed {} := by
  intro place name node hnode
  rw [node?, if_neg (by simp)] at hnode
  cases hnode

/-- Whether everything stands in a directory can be checked node by node. -/
theorem wellFormed_of_all {tree : Tree}
    (h : tree.nodes.all (fun node => tree.isDirectory node.1.dropLast) = true) :
    tree.WellFormed := by
  intro place name node hnode
  rw [node?, if_neg (by simp)] at hnode
  have hparent := List.all_eq_true.1 h _ (mem_of_lookup hnode)
  rwa [List.dropLast_concat] at hparent

theorem WellFormed.put {tree : Tree} (h : tree.WellFormed) {parent : Place} {name : String}
    (hparent : tree.isDirectory parent = true) (hfree : tree.isDirectory (parent ++ [name]) = false)
    (node : Node) : (tree.put (parent ++ [name]) node).WellFormed := by
  intro place child below hbelow
  rw [node?_put tree (by simp)] at hbelow
  have hput := node?_put tree (show parent ++ [name] ≠ [] by simp) node place
  by_cases hplace : place = parent ++ [name]
  · -- nothing stands in what is no directory
    rw [if_neg (by rw [hplace]; simp)] at hbelow
    have hdir := h place child below hbelow
    rw [hplace, hfree] at hdir
    cases hdir
  · rw [if_neg hplace] at hput
    rw [isDirectory_iff, hput, ← isDirectory_iff]
    split at hbelow
    · rename_i hsame
      rw [List.append_inj_left' hsame rfl]
      exact hparent
    · exact h place child below hbelow

theorem WellFormed.erase {tree : Tree} (h : tree.WellFormed) {place : Place} (hplace : place ≠ [])
    (hfree : tree.isDirectory place = false) : (tree.erase place).WellFormed := by
  intro other child below hbelow
  rw [node?_erase tree hplace] at hbelow
  split at hbelow
  · cases hbelow
  · have hdir := h other child below hbelow
    rw [isDirectory_iff, node?_erase tree hplace, if_neg, ← isDirectory_iff]
    · exact hdir
    · intro hother
      rw [hother, hfree] at hdir
      cases hdir

/-! ## Walks -/

/-- Where one segment leads from a directory. -/
inductive Enters (tree : Tree) (place : Place) : String → Place → Prop where
  | stay {segment : String} (hvoid : Path.isVoid segment = true) : Enters tree place segment place
  | up : Enters tree place ".." place.dropLast
  | down {name : String} (hname : Path.isVoid name = false) (hup : name ≠ "..")
      (hsize : name.utf8ByteSize ≤ maxName) (hnode : (tree.node? (place ++ [name])).isSome) :
      Enters tree place name (place ++ [name])

/-- A segment that goes somewhere is the name of the next place. -/
theorem Enters.eq_append {tree : Tree} {place next : Place} {segment : String}
    (h : Enters tree place segment next) (hvoid : Path.isVoid segment = false)
    (hup : segment ≠ "..") : next = place ++ [segment] := by
  cases h with
  | stay hvoid' =>
    rw [hvoid] at hvoid'
    cases hvoid'
  | up => exact absurd rfl hup
  | down => rfl

theorem Enters.enter_eq {tree : Tree} {place next : Place} {segment : String}
    (h : Enters tree place segment next) (hdir : tree.isDirectory place = true) :
    tree.enter place segment = .ok next := by
  rw [enter, hdir, if_neg (by simp)]
  cases h with
  | stay hvoid => rw [if_pos hvoid]
  | up => rfl
  | down hvoid hup hsize hnode =>
    rw [if_neg (by simp [hvoid]), if_neg (by simpa using hup), if_neg (by omega), if_pos hnode]

theorem enters_of_enter {tree : Tree} {place next : Place} {segment : String}
    (h : tree.enter place segment = .ok next) :
    tree.isDirectory place = true ∧ Enters tree place segment next := by
  rw [enter] at h
  split at h
  · cases h
  rename_i hfile
  refine ⟨by simpa using hfile, ?_⟩
  split at h
  · rename_i hvoid
    cases h
    exact .stay hvoid
  rename_i hname
  split at h
  · rename_i hup
    cases h
    rw [beq_iff_eq.1 hup]
    exact .up
  rename_i hup
  split at h
  · cases h
  rename_i hsize
  split at h
  · rename_i hnode
    cases h
    exact .down (by simpa using hname) (by simpa using hup) (by omega) hnode
  · cases h

theorem enter_eq_ok_iff {tree : Tree} {place next : Place} {segment : String} :
    tree.enter place segment = .ok next ↔
      tree.isDirectory place = true ∧ Enters tree place segment next :=
  ⟨enters_of_enter, fun h => h.2.enter_eq h.1⟩

@[simp] theorem follow_nil (tree : Tree) (place : Place) : tree.follow place [] = .ok place := rfl

theorem follow_cons_ok {tree : Tree} {place last : Place} {segment : String}
    {segments : List String} :
    tree.follow place (segment :: segments) = .ok last ↔
      ∃ next, tree.enter place segment = .ok next ∧ tree.follow next segments = .ok last := by
  rw [follow, List.foldlM_cons, bind_eq_ok_iff]
  rfl

theorem follow_append_ok {tree : Tree} {place last : Place} {front back : List String} :
    tree.follow place (front ++ back) = .ok last ↔
      ∃ next, tree.follow place front = .ok next ∧ tree.follow next back = .ok last := by
  induction front generalizing place with
  | nil => simp
  | cons segment front ih =>
    rw [List.cons_append, follow_cons_ok]
    constructor
    · rintro ⟨next, henter, hrest⟩
      obtain ⟨between, hfront, hback⟩ := ih.1 hrest
      exact ⟨between, follow_cons_ok.2 ⟨next, henter, hfront⟩, hback⟩
    · rintro ⟨between, hfront, hback⟩
      obtain ⟨next, henter, hrest⟩ := follow_cons_ok.1 hfront
      exact ⟨next, henter, ih.2 ⟨between, hrest, hback⟩⟩

/-- A walk to a directory starts in one. -/
theorem isDirectory_of_follow {tree : Tree} {place last : Place} {segments : List String}
    (h : tree.follow place segments = .ok last) (hlast : tree.isDirectory last = true) :
    tree.isDirectory place = true := by
  cases segments with
  | nil =>
    cases h
    exact hlast
  | cons segment segments =>
    obtain ⟨next, henter, -⟩ := follow_cons_ok.1 h
    exact (enter_eq_ok_iff.1 henter).1

/-- Segments that go nowhere do not matter on the way to a directory. -/
theorem follow_of_filter {tree : Tree} {place last : Place} {segments : List String}
    {keep : String → Bool} (hkeep : ∀ segment, keep segment = false → Path.isVoid segment = true)
    (h : tree.follow place (segments.filter keep) = .ok last)
    (hlast : tree.isDirectory last = true) : tree.follow place segments = .ok last := by
  induction segments generalizing place with
  | nil => exact h
  | cons segment segments ih =>
    cases hkept : keep segment with
    | false =>
      rw [List.filter_cons_of_neg (by simp [hkept])] at h
      have hplace := isDirectory_of_follow h hlast
      have hstay : Enters tree place segment place := .stay (hkeep segment hkept)
      exact follow_cons_ok.2 ⟨place, enter_eq_ok_iff.2 ⟨hplace, hstay⟩, ih h⟩
    | true =>
      rw [List.filter_cons_of_pos hkept] at h
      obtain ⟨next, henter, hrest⟩ := follow_cons_ok.1 h
      exact follow_cons_ok.2 ⟨next, henter, ih hrest⟩

/-- A walk does not need the segments that go nowhere. -/
theorem follow_filter {tree : Tree} {place last : Place} {segments : List String}
    (h : tree.follow place segments = .ok last) :
    tree.follow place (segments.filter fun segment => !Path.isVoid segment) = .ok last := by
  induction segments generalizing place with
  | nil => exact h
  | cons segment segments ih =>
    obtain ⟨next, henter, hrest⟩ := follow_cons_ok.1 h
    cases hvoid : Path.isVoid segment with
    | true =>
      rw [List.filter_cons_of_neg (by simp [hvoid])]
      obtain ⟨-, henters⟩ := enter_eq_ok_iff.1 henter
      cases henters with
      | stay => exact ih hrest
      | up => cases hvoid
      | down hname => rw [hvoid] at hname; cases hname
    | false =>
      rw [List.filter_cons_of_pos (by simp [hvoid])]
      exact follow_cons_ok.2 ⟨next, henter, ih hrest⟩

/-- Without `..` a walk goes down the names of its segments. -/
theorem eq_append_of_follow {tree : Tree} {place last : Place} {segments : List String}
    (h : tree.follow place segments = .ok last) (hup : ".." ∉ segments) :
    last = place ++ segments.filter (fun segment => !Path.isVoid segment) := by
  induction segments generalizing place with
  | nil =>
    cases h
    simp
  | cons segment segments ih =>
    obtain ⟨next, henter, hrest⟩ := follow_cons_ok.1 h
    have hlast := ih hrest fun hmem => hup (List.mem_cons_of_mem segment hmem)
    obtain ⟨-, henters⟩ := enter_eq_ok_iff.1 henter
    cases henters with
    | stay hvoid => rw [List.filter_cons_of_neg (by simp [hvoid]), hlast]
    | up => exact absurd List.mem_cons_self hup
    | down hname => rw [List.filter_cons_of_pos (by simp [hname]), hlast, List.append_assoc]; rfl

/-! ## The same walk in another tree -/

/-- Whether the directories of a tree are directories in another. -/
def KeepsDirectories (before after : Tree) : Prop :=
  ∀ place, before.isDirectory place = true → after.isDirectory place = true

namespace KeepsDirectories

variable {before after : Tree}

theorem put {tree : Tree} {place : Place} (hplace : place ≠ [])
    (hfree : tree.isDirectory place = false) (node : Node) :
    KeepsDirectories tree (tree.put place node) := by
  intro other hother
  rw [isDirectory_iff, node?_put tree hplace, if_neg, ← isDirectory_iff]
  · exact hother
  · intro hsame
    rw [hsame, hfree] at hother
    cases hother

theorem erase {tree : Tree} {place : Place} (hplace : place ≠ [])
    (hfree : tree.isDirectory place = false) : KeepsDirectories tree (tree.erase place) := by
  intro other hother
  rw [isDirectory_iff, node?_erase tree hplace, if_neg, ← isDirectory_iff]
  · exact hother
  · intro hsame
    rw [hsame, hfree] at hother
    cases hother

/-- A walk to a directory passes through directories only. -/
theorem follow (h : KeepsDirectories before after) {place last : Place} {segments : List String}
    (hfollow : before.follow place segments = .ok last) (hlast : before.isDirectory last = true) :
    after.follow place segments = .ok last := by
  induction segments generalizing place with
  | nil => exact hfollow
  | cons segment segments ih =>
    obtain ⟨next, henter, hrest⟩ := follow_cons_ok.1 hfollow
    refine follow_cons_ok.2 ⟨next, ?_, ih hrest⟩
    have hnext := h next (isDirectory_of_follow hrest hlast)
    obtain ⟨hdir, henters⟩ := enter_eq_ok_iff.1 henter
    refine enter_eq_ok_iff.2 ⟨h place hdir, ?_⟩
    cases henters with
    | stay hvoid => exact .stay hvoid
    | up => exact .up
    | down hname hup hsize =>
      refine .down hname hup hsize ?_
      rw [isDirectory_iff.1 hnext]
      rfl

end KeepsDirectories

/-- What exists can be walked to without `..` if a walk in any tree leads
there. -/
theorem WellFormed.follow {tree other : Tree} (h : tree.WellFormed) {place last : Place}
    {segments : List String} (hup : ".." ∉ segments)
    (hfollow : other.follow place segments = .ok last) (hlast : tree.isDirectory last = true) :
    tree.follow place segments = .ok last := by
  induction segments generalizing place with
  | nil => exact hfollow
  | cons segment segments ih =>
    obtain ⟨next, henter, hrest⟩ := follow_cons_ok.1 hfollow
    have hrest' := ih (fun hmem => hup (List.mem_cons_of_mem segment hmem)) hrest
    refine follow_cons_ok.2 ⟨next, ?_, hrest'⟩
    have hnext := isDirectory_of_follow hrest' hlast
    obtain ⟨-, henters⟩ := enter_eq_ok_iff.1 henter
    cases henters with
    | stay hvoid => exact enter_eq_ok_iff.2 ⟨hnext, .stay hvoid⟩
    | up => exact absurd List.mem_cons_self hup
    | down hname hne hsize hnode =>
      have hdir := isDirectory_iff.1 hnext
      refine enter_eq_ok_iff.2 ⟨h place segment _ hdir, .down hname hne hsize ?_⟩
      rw [hdir]
      rfl

/-! ## Free names -/

/-- The name that a path leads to, in a directory that exists. -/
structure LeadsTo (tree : Tree) (current : Place) (path : String) (parent : Place)
    (name : String) : Prop where
  check : checkPath path = .ok ()
  isDirectory : tree.isDirectory parent = true
  walk : ∃ front, Path.segments path = front ++ [name] ∧
    tree.follow (startOf current path) front = .ok parent
  isName : Path.isVoid name = false ∧ name ≠ ".."
  size : name.utf8ByteSize ≤ maxName

/-- Two directories from which a path starts alike. -/
theorem LeadsTo.of_startOf {tree : Tree} {current current' parent : Place} {path name : String}
    (h : tree.LeadsTo current path parent name) (hstart : startOf current' path = startOf current path) :
    tree.LeadsTo current' path parent name := by
  obtain ⟨front, hsegments, hfollow⟩ := h.walk
  rw [← hstart] at hfollow
  exact ⟨h.check, h.isDirectory, ⟨front, hsegments, hfollow⟩, h.isName, h.size⟩

theorem checkPath_ne_empty {path : String} (h : checkPath path = .ok ()) : path ≠ "" := by
  rintro rfl
  cases h

/-- A name at the end of the segments that are not empty is the last segment
of a path that does not end with a slash. -/
theorem exists_segments_eq {path name : String} (hpath : path ≠ "")
    (hslash : Path.endsWithSlash path = false)
    (hlast : ((Path.segments path).filter fun segment => !segment.isEmpty).getLast? = some name) :
    ∃ front, Path.segments path = front ++ [name] ∧
      ((Path.segments path).filter fun segment => !segment.isEmpty).dropLast =
        front.filter fun segment => !segment.isEmpty := by
  obtain ⟨front, last, hsegments, hne⟩ := Path.exists_segments_concat hpath hslash
  have hkeep : [last].filter (fun segment => !segment.isEmpty) = [last] := by simp [hne]
  rw [hsegments, List.filter_append, hkeep] at hlast ⊢
  rw [List.getLast?_concat, Option.some.injEq] at hlast
  rw [List.dropLast_concat, hlast]
  exact ⟨front, rfl, rfl⟩

section

variable {tree : Tree} {current place : Place} {path name : String} {target : NewPlace}

/-- A name is looked for in the directory that the names before it lead to. -/
theorem locateNew_ok (h : tree.locateNew current path = .ok target) :
    checkPath path = .ok () ∧ tree.isDirectory target.parent = true ∧
      tree.follow (startOf current path)
        ((Path.segments path).filter fun segment => !segment.isEmpty).dropLast =
          .ok target.parent ∧
      ∀ name, target.name? = some name →
        ((Path.segments path).filter fun segment => !segment.isEmpty).getLast? = some name ∧
          name ≠ "." ∧ name ≠ ".." ∧ target.slash = Path.endsWithSlash path := by
  rw [locateNew] at h
  obtain ⟨⟨⟩, hcheck, hrest⟩ := exists_of_bind_eq_ok h
  obtain ⟨parent, hfollow, hguards⟩ := exists_of_bind_eq_ok hrest
  split at hguards
  · cases hguards
  rename_i hdir
  have hdir : tree.isDirectory parent = true := by simpa using hdir
  split at hguards
  · cases hguards
    exact ⟨hcheck, hdir, hfollow, fun name hname => nomatch hname⟩
  rename_i last hlast
  split at hguards
  · cases hguards
    exact ⟨hcheck, hdir, hfollow, fun name hname => nomatch hname⟩
  rename_i hname
  simp only [Bool.or_eq_true, beq_iff_eq, not_or] at hname
  cases hguards
  refine ⟨hcheck, hdir, hfollow, ?_⟩
  rintro name ⟨⟩
  exact ⟨hlast, hname.1, hname.2, rfl⟩

/-- A name that is looked for without a slash behind it is what the path leads
to. -/
theorem leadsTo_of_locateNew (h : tree.locateNew current path = .ok target)
    (hname : target.name? = some name) (hslash : target.slash = false)
    (hsize : name.utf8ByteSize ≤ maxName) : tree.LeadsTo current path target.parent name := by
  obtain ⟨hcheck, hdir, hfollow, hlast⟩ := locateNew_ok h
  obtain ⟨hlast, hdot, hup, hends⟩ := hlast name hname
  obtain ⟨front, hsegments, hfront⟩ :=
    exists_segments_eq (checkPath_ne_empty hcheck) (hends ▸ hslash) hlast
  have hempty : name.isEmpty = false := by
    simpa using (List.mem_filter.1 (List.mem_of_getLast? hlast)).2
  refine ⟨hcheck, hdir, ⟨front, hsegments, ?_⟩, ⟨?_, hup⟩, hsize⟩
  · rw [hfront] at hfollow
    refine follow_of_filter ?_ hfollow hdir
    intro segment hkept
    have hempty' : segment.isEmpty = true := by simpa using hkept
    rw [Path.isVoid, hempty', Bool.true_or]
  · simp [Path.isVoid, hempty, hdot]

/-- Where a file is opened for writing. -/
theorem openPlace_ok (h : tree.openPlace current path = .ok place) :
    ∃ parent name, tree.LeadsTo current path parent name ∧ place = parent ++ [name] ∧
      tree.isDirectory place = false := by
  rw [openPlace] at h
  obtain ⟨target, htarget, hguards⟩ := exists_of_bind_eq_ok h
  split at hguards
  · cases hguards
  rename_i name hname
  simp only at hguards
  split at hguards
  · cases hguards
  rename_i hslash
  split at hguards
  · cases hguards
  rename_i hsize
  split at hguards
  · cases hguards
  rename_i hdir
  cases hguards
  have hleads := leadsTo_of_locateNew htarget hname (by simpa using hslash) (by omega)
  exact ⟨target.parent, name, hleads, rfl, by simpa using hdir⟩

/-- Where a file is renamed to. -/
theorem renamePlace_ok (h : tree.renamePlace current path = .ok place) :
    ∃ parent name, tree.LeadsTo current path parent name ∧ place = parent ++ [name] ∧
      tree.isDirectory place = false := by
  rw [renamePlace] at h
  obtain ⟨target, htarget, hguards⟩ := exists_of_bind_eq_ok h
  split at hguards
  · cases hguards
  rename_i name hname
  simp only at hguards
  split at hguards
  · cases hguards
  rename_i hsize
  split at hguards
  · cases hguards
  rename_i hslash
  split at hguards
  · cases hguards
  rename_i hdir
  cases hguards
  have hleads := leadsTo_of_locateNew htarget hname (by simpa using hslash) (by omega)
  exact ⟨target.parent, name, hleads, rfl, by simpa using hdir⟩

end

theorem locate_eq_ok {tree : Tree} {current place : Place} {path : String} :
    tree.locate current path = .ok place ↔
      checkPath path = .ok () ∧
        tree.follow (startOf current path) (Path.segments path) = .ok place := by
  rw [locate, bind_eq_ok_iff]
  exact ⟨fun ⟨(), h⟩ => h, fun h => ⟨(), h⟩⟩

namespace LeadsTo

variable {tree other : Tree} {current parent parent' : Place} {path name name' : String}

theorem keeps (h : tree.LeadsTo current path parent name)
    (hkeeps : KeepsDirectories tree other) : other.LeadsTo current path parent name := by
  obtain ⟨front, hsegments, hfollow⟩ := h.walk
  exact ⟨h.check, hkeeps parent h.isDirectory,
    ⟨front, hsegments, hkeeps.follow hfollow h.isDirectory⟩, h.isName, h.size⟩

/-- A path leads to one name only. -/
theorem unique (h : tree.LeadsTo current path parent name)
    (h' : tree.LeadsTo current path parent' name') : parent' = parent ∧ name' = name := by
  obtain ⟨front, hsegments, hfollow⟩ := h.walk
  obtain ⟨front', hsegments', hfollow'⟩ := h'.walk
  obtain ⟨hfront, hlast⟩ := List.append_inj' (hsegments.symm.trans hsegments') rfl
  rw [← hfront, hfollow] at hfollow'
  exact ⟨(Except.ok.inj hfollow').symm, (List.cons.inj hlast).1.symm⟩

/-- If the name is taken, the path leads to what has it. -/
theorem locate (h : tree.LeadsTo current path parent name)
    (hnode : (tree.node? (parent ++ [name])).isSome) :
    tree.locate current path = .ok (parent ++ [name]) := by
  obtain ⟨front, hsegments, hfollow⟩ := h.walk
  refine locate_eq_ok.2 ⟨h.check, ?_⟩
  rw [hsegments]
  have henter : tree.enter parent name = .ok (parent ++ [name]) :=
    enter_eq_ok_iff.2 ⟨h.isDirectory, .down h.isName.1 h.isName.2 h.size hnode⟩
  exact follow_append_ok.2 ⟨parent, hfollow, follow_cons_ok.2 ⟨_, henter, rfl⟩⟩

/-- The steps of a path that leads to a name end with it. -/
theorem steps (h : tree.LeadsTo current path parent name) :
    ∃ front, Path.steps path = front ++ [name] ∧
      tree.follow (startOf current path) front = .ok parent := by
  obtain ⟨front, hsegments, hfollow⟩ := h.walk
  refine ⟨_, ?_, follow_filter hfollow⟩
  rw [Path.steps, hsegments, List.filter_append, List.filter_cons_of_pos (by simp [h.isName.1]),
    List.filter_nil]

theorem lastName? (h : tree.LeadsTo current path parent name) :
    Path.lastName? path = some name := by
  obtain ⟨front, hsteps, -⟩ := h.steps
  rw [Path.lastName?, hsteps, List.getLast?_concat]
  exact if_neg (by simpa using h.isName.2)

end LeadsTo

/-- A path that ends with a name leads to what it names. -/
theorem leadsTo_of_locate {tree : Tree} {current place : Place} {path last : String}
    (h : tree.locate current path = .ok place) (hlast : (Path.segments path).getLast? = some last)
    (hvoid : Path.isVoid last = false) (hup : last ≠ "..") :
    ∃ parent, place = parent ++ [last] ∧ tree.LeadsTo current path parent last := by
  obtain ⟨front, hsegments⟩ := List.getLast?_eq_some_iff.1 hlast
  obtain ⟨hcheck, hfollow⟩ := locate_eq_ok.1 h
  rw [hsegments, follow_append_ok] at hfollow
  obtain ⟨parent, hfront, hend⟩ := hfollow
  obtain ⟨next, henter, hnil⟩ := follow_cons_ok.1 hend
  cases hnil
  obtain ⟨hdir, henters⟩ := enter_eq_ok_iff.1 henter
  cases henters with
  | stay hvoid' =>
    rw [hvoid] at hvoid'
    cases hvoid'
  | up => exact absurd rfl hup
  | down _ _ hsize =>
    exact ⟨parent, rfl, hcheck, hdir, ⟨front, hsegments, hfront⟩, ⟨hvoid, hup⟩, hsize⟩

/-- A file that is found has a name in a directory. -/
theorem WellFormed.leadsTo {tree : Tree} (h : tree.WellFormed) {current place : Place}
    {path : String} (hlocate : tree.locate current path = .ok place)
    (hfree : tree.isDirectory place = false) :
    ∃ parent name, place = parent ++ [name] ∧ tree.LeadsTo current path parent name := by
  have hfile : ∀ {other : Place}, other = place → tree.isDirectory other = true → False := by
    rintro other rfl hdir
    rw [hfree] at hdir
    cases hdir
  obtain ⟨hcheck, hfollow⟩ := locate_eq_ok.1 hlocate
  obtain ⟨front, last, hsegments⟩ :=
    (List.eq_nil_or_concat (Path.segments path)).resolve_left (Path.segments_ne_nil path)
  rw [List.concat_eq_append] at hsegments
  rw [hsegments, follow_append_ok] at hfollow
  obtain ⟨parent, hfront, hend⟩ := hfollow
  obtain ⟨next, henter, hnil⟩ := follow_cons_ok.1 hend
  cases hnil
  obtain ⟨hdir, henters⟩ := enter_eq_ok_iff.1 henter
  cases henters with
  | stay => exact (hfile rfl hdir).elim
  | up =>
    -- what holds a directory is a directory
    refine (hfile rfl ?_).elim
    rcases List.eq_nil_or_concat parent with rfl | ⟨above, name, rfl⟩
    · rfl
    · rw [List.concat_eq_append] at hdir ⊢
      rw [List.dropLast_concat]
      exact h above name .directory (isDirectory_iff.1 hdir)
  | down hname hup hsize =>
    exact ⟨parent, last, rfl, hcheck, hdir, ⟨front, hsegments, hfront⟩, ⟨hname, hup⟩, hsize⟩

/-! ## Without `..` -/

/-- The place that can be read off a path. -/
def lexical (current : Place) (path : String) : Place :=
  startOf current path ++ Path.steps path

theorem mem_steps_of_mem_segments {path : String} (h : ".." ∈ Path.segments path) :
    ".." ∈ Path.steps path :=
  List.mem_filter.2 ⟨h, by decide⟩

theorem not_mem_front {path : String} {front back : List String}
    (hsegments : Path.segments path = front ++ back) (hup : ".." ∉ Path.steps path) :
    ".." ∉ front := by
  intro hmem
  apply hup
  apply mem_steps_of_mem_segments
  rw [hsegments]
  exact List.mem_append_left back hmem

theorem locate_eq_lexical {tree : Tree} {current place : Place} {path : String}
    (h : tree.locate current path = .ok place) (hup : ".." ∉ Path.steps path) :
    place = lexical current path :=
  eq_append_of_follow (locate_eq_ok.1 h).2 (mt mem_steps_of_mem_segments hup)

theorem LeadsTo.eq_lexical {tree : Tree} {current parent : Place} {path name : String}
    (h : tree.LeadsTo current path parent name) (hup : ".." ∉ Path.steps path) :
    parent ++ [name] = lexical current path := by
  obtain ⟨front, hsegments, hfollow⟩ := h.walk
  have hfront := not_mem_front hsegments hup
  rw [eq_append_of_follow hfollow hfront, lexical, Path.steps, hsegments, List.filter_append,
    List.append_assoc, List.filter_cons_of_pos (by simp [h.isName.1]), List.filter_nil]

/-- A path without `..` leads to what stands where it leads in any other tree,
if everything stands in a directory. -/
theorem WellFormed.leadsTo_of_node {tree other : Tree} (h : tree.WellFormed)
    {current parent : Place} {path name : String}
    (hleads : other.LeadsTo current path parent name) (hup : ".." ∉ Path.steps path)
    (hnode : (tree.node? (parent ++ [name])).isSome) :
    tree.LeadsTo current path parent name := by
  obtain ⟨node, hnode⟩ := Option.isSome_iff_exists.1 hnode
  have hdir := h parent name node hnode
  obtain ⟨front, hsegments, hfollow⟩ := hleads.walk
  have hfront := not_mem_front hsegments hup
  exact ⟨hleads.check, hdir, ⟨front, hsegments, h.follow hfront hfollow hdir⟩, hleads.isName,
    hleads.size⟩

/-- What stands where a path leads can be located in a tree in which
everything stands in a directory. -/
theorem WellFormed.locate {tree other : Tree} (h : tree.WellFormed) {current parent : Place}
    {path name : String} (hleads : other.LeadsTo current path parent name)
    (hup : ".." ∉ Path.steps path) (hnode : (tree.node? (parent ++ [name])).isSome) :
    tree.locate current path = .ok (parent ++ [name]) :=
  (h.leadsTo_of_node hleads hup hnode).locate hnode

end TestSkeleton.Files.Tree
