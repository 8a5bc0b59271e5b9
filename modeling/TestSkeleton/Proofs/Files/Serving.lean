import TestSkeleton.Proofs.Files.Walking

/-!
# What a request changes

Of all requests only three change a file that exists, and each of them names
the place.  The others at most add directories and empty lock files.

* `Tree.Grows` is what creating directories and lock files does to a tree.
* `Memory.Changes` bounds what a run does to the system by a set of places,
  and keeps what walks depend on: the directories, the current directory and
  that everything stands in a directory.
* `Memory.Effect` tells what a request does, one constructor for each effect,
  and `Memory.effect_serve` that it does nothing else.  What requests keep is
  read off the effects, here and in the modules that follow.
* `Request.Touches` is the set of places for one request, and `Effect.changes`
  that it is enough.
-/

namespace TestSkeleton.Files

namespace Tree

/-! ## Growing -/

/-- Whether a place is as before, or was free and holds a new directory or a
new empty file. -/
def KeepsOrAdds (before after : Tree) (place : Place) : Prop :=
  after.node? place = before.node? place ∨
    before.node? place = none ∧
      (after.node? place = some .directory ∨ after.node? place = some (.file .empty))

namespace KeepsOrAdds

variable {before between after : Tree} {place : Place}

theorem trans (h : KeepsOrAdds before between place) (h' : KeepsOrAdds between after place) :
    KeepsOrAdds before after place := by
  rcases h with hsame | ⟨hfree, hnew⟩
  · rcases h' with hsame' | ⟨hfree', hnew'⟩
    · exact Or.inl (hsame'.trans hsame)
    · exact Or.inr ⟨hsame ▸ hfree', hnew'⟩
  · rcases h' with hsame' | ⟨hfree', -⟩
    · exact Or.inr ⟨hfree, by rw [hsame']; exact hnew⟩
    · rw [hfree'] at hnew
      rcases hnew with hnew | hnew <;> cases hnew

/-- What exists stays as it is. -/
theorem eq_of_some (h : KeepsOrAdds before after place) {node : Node}
    (hnode : before.node? place = some node) : after.node? place = some node := by
  rcases h with hsame | ⟨hfree, -⟩
  · exact hsame.trans hnode
  · rw [hnode] at hfree
    cases hfree

/-- A file with content was there before. -/
theorem eq_of_file (h : KeepsOrAdds before after place) {content : ByteArray}
    (hnode : after.node? place = some (.file content)) :
    before.node? place = some (.file content) ∨ before.node? place = none ∧ content = .empty := by
  rcases h with hsame | ⟨hfree, hnew⟩
  · exact Or.inl (hsame.symm.trans hnode)
  · rcases hnew with hnew | hnew
    · rw [hnode] at hnew
      cases hnew
    · rw [hnode] at hnew
      cases hnew
      exact Or.inr ⟨hfree, rfl⟩

end KeepsOrAdds

/-- Whether a tree is another one with new directories and new empty files. -/
structure Grows (before after : Tree) : Prop where
  node : ∀ place, KeepsOrAdds before after place
  wellFormed : before.WellFormed → after.WellFormed

namespace Grows

variable {before between after : Tree}

theorem refl (tree : Tree) : Grows tree tree :=
  ⟨fun _ => Or.inl rfl, id⟩

theorem trans (h : Grows before between) (h' : Grows between after) : Grows before after :=
  ⟨fun place => (h.node place).trans (h'.node place), fun hw => h'.wellFormed (h.wellFormed hw)⟩

theorem keepsDirectories (h : Grows before after) : KeepsDirectories before after :=
  fun place hdir => isDirectory_iff.2 ((h.node place).eq_of_some (isDirectory_iff.1 hdir))

theorem put {tree : Tree} {parent : Place} {name : String}
    (hparent : tree.isDirectory parent = true)
    (hfree : tree.node? (parent ++ [name]) = none) {node : Node}
    (hnode : node = .directory ∨ node = .file .empty) :
    Grows tree (tree.put (parent ++ [name]) node) := by
  constructor
  · intro place
    rw [KeepsOrAdds, node?_put tree (by simp)]
    by_cases hplace : place = parent ++ [name]
    · rw [if_pos hplace, hplace]
      refine Or.inr ⟨hfree, ?_⟩
      rcases hnode with rfl | rfl
      · exact Or.inl rfl
      · exact Or.inr rfl
    · rw [if_neg hplace]
      exact Or.inl rfl
  · intro hw
    refine hw.put hparent ?_ node
    rw [isDirectory, hfree]

end Grows

/-- A directory is made under a free name. -/
theorem createDir_ok {tree after : Tree} {current : Place} {path : String}
    (h : tree.createDir current path = .ok after) :
    ∃ parent name, tree.isDirectory parent = true ∧ tree.node? (parent ++ [name]) = none ∧
      after = tree.put (parent ++ [name]) .directory := by
  rw [createDir] at h
  obtain ⟨target, htarget, hguards⟩ := exists_of_bind_eq_ok h
  split at hguards
  · cases hguards
  rename_i name hname
  simp only at hguards
  split at hguards
  · cases hguards
  split at hguards
  · cases hguards
  rename_i hnode
  cases hguards
  exact ⟨target.parent, name, (locateNew_ok htarget).2.1, by simpa using hnode, rfl⟩

/-- A relation that holds for every directory that is made holds for all of
them together. -/
theorem createDirsWithin_related {related : Tree → Tree → Prop} (hrefl : ∀ tree, related tree tree)
    (htrans : ∀ {before between after}, related before between → related between after →
      related before after)
    {current : Place} (hstep : ∀ {tree after : Tree} {path : String},
      tree.createDir current path = .ok after → related tree after)
    (depth : Nat) (path : String) (tree : Tree) :
    related tree (createDirsWithin current depth path tree).2 := by
  induction depth generalizing path tree with
  | zero => exact hrefl tree
  | succ depth ih =>
    rw [createDirsWithin]
    split
    · exact hrefl tree
    split
    · rename_i after hafter
      exact hstep hafter
    split
    · split
      · exact hrefl tree
      rename_i parent hparent
      have hparents := ih parent tree
      split
      · rename_i fault between hbetween
        rw [hbetween] at hparents
        exact hparents
      · rename_i between hbetween
        rw [hbetween] at hparents
        split
        · rename_i after hafter
          exact htrans hparents (hstep hafter)
        · exact hparents
    · exact hrefl tree

theorem createDirs_grows (tree : Tree) (current : Place) (path : String) :
    Grows tree (tree.createDirs current path).2 := by
  refine createDirsWithin_related .refl .trans ?_ _ path tree
  intro tree after path h
  obtain ⟨parent, name, hparent, hfree, rfl⟩ := createDir_ok h
  exact .put hparent hfree (Or.inl rfl)

/-- Whether every file was there before. -/
def AddsNoFile (before after : Tree) : Prop :=
  ∀ place content, after.node? place = some (.file content) →
    before.node? place = some (.file content)

theorem createDirs_addsNoFile (tree : Tree) (current : Place) (path : String) :
    AddsNoFile tree (tree.createDirs current path).2 := by
  refine createDirsWithin_related ?_ ?_ ?_ _ path tree
  · exact fun tree place content => id
  · exact fun hfirst hlast place content hfile => hfirst place content (hlast place content hfile)
  · intro tree after path hmade place content hfile
    obtain ⟨parent, name, -, -, rfl⟩ := createDir_ok hmade
    rw [node?_put _ (by simp)] at hfile
    split at hfile
    · cases hfile
    · exact hfile

/-! ## Moving -/

theorem node?_move {tree : Tree} {source target : Place} (hsource : source ≠ [])
    (htarget : target ≠ []) {node : Node} (hnode : tree.node? source = some node) (place : Place) :
    (tree.move source target).node? place =
      if place = target then some node else if place = source then none else tree.node? place := by
  rw [move, hnode]
  show ((tree.erase source).put target node).node? place = _
  rw [node?_put _ htarget, node?_erase _ hsource]

theorem ne_nil_of_not_isDirectory {tree : Tree} {place : Place}
    (h : tree.isDirectory place = false) : place ≠ [] := by
  rintro rfl
  cases h

theorem node?_move_of_ne {tree : Tree} {source target place : Place}
    (hsource : tree.isDirectory source = false) (htarget : target ≠ []) (hfrom : place ≠ source)
    (hto : place ≠ target) : (tree.move source target).node? place = tree.node? place := by
  cases hnode : tree.node? source with
  | none => rw [move, hnode]
  | some node =>
    rw [node?_move (ne_nil_of_not_isDirectory hsource) htarget hnode, if_neg hto, if_neg hfrom]

theorem KeepsDirectories.isDirectory_erase {tree : Tree} {source place : Place}
    (hsource : tree.isDirectory source = false) (hplace : tree.isDirectory place = false) :
    (tree.erase source).isDirectory place = false := by
  by_cases hdir : (tree.erase source).isDirectory place = true
  · rw [isDirectory_iff, node?_erase _ (ne_nil_of_not_isDirectory hsource)] at hdir
    split at hdir
    · cases hdir
    · rw [← isDirectory_iff, hplace] at hdir
      cases hdir
  · exact Bool.eq_false_iff.2 hdir

/-- Moving something that is no directory over something that is none. -/
theorem move_spec {tree : Tree} {source parent : Place} {name : String}
    (hsource : tree.isDirectory source = false) (hparent : tree.isDirectory parent = true)
    (htarget : tree.isDirectory (parent ++ [name]) = false) :
    KeepsDirectories tree (tree.move source (parent ++ [name])) ∧
      (tree.WellFormed → (tree.move source (parent ++ [name])).WellFormed) := by
  have hne := ne_nil_of_not_isDirectory hsource
  have hfree := KeepsDirectories.isDirectory_erase hsource htarget
  have herase := KeepsDirectories.erase hne hsource
  rw [move]
  split
  · rename_i node hnode
    constructor
    · intro place hdir
      exact KeepsDirectories.put (by simp) hfree node place (herase place hdir)
    · intro hw
      exact (hw.erase hne hsource).put (herase parent hparent) hfree node
  · exact ⟨fun place hdir => hdir, id⟩

end Tree

/-! ## What a run changes -/

/-- The file places at which a request may leave a new lock file. -/
def Request.Opens (memory : Memory) (place : Place) : Request → Prop
  | .lock path _ _ => memory.tree.openPlace memory.current path = .ok place
  | _ => False

/-- The file places that a request may change. -/
def Request.Touches (memory : Memory) (place : Place) : Request → Prop
  | .write path _ => memory.tree.openPlace memory.current path = .ok place
  | .rename source target =>
    memory.tree.filePlace memory.current source = .ok place ∨
      memory.tree.renamePlace memory.current target = .ok place
  | .remove path => memory.tree.filePlace memory.current path = .ok place
  | _ => False

namespace Memory

/-- Whether a run changes no more than some places, and adds no more than
directories and empty files elsewhere. -/
structure Changes (changed : Place → Prop) (before after : Memory) : Prop where
  node : ∀ place, ¬ changed place → Tree.KeepsOrAdds before.tree after.tree place
  directories : Tree.KeepsDirectories before.tree after.tree
  wellFormed : before.tree.WellFormed → after.tree.WellFormed
  current : after.current = before.current
  processId : after.processId = before.processId

namespace Changes

variable {changed changed' : Place → Prop} {before between after : Memory}

theorem refl (changed : Place → Prop) (memory : Memory) : Changes changed memory memory :=
  ⟨fun _ _ => Or.inl rfl, fun _ h => h, id, rfl, rfl⟩

theorem trans (h : Changes changed before between) (h' : Changes changed between after) :
    Changes changed before after :=
  ⟨fun place hp => (h.node place hp).trans (h'.node place hp),
    fun place hp => h'.directories place (h.directories place hp),
    fun hw => h'.wellFormed (h.wellFormed hw), h'.current.trans h.current,
    h'.processId.trans h.processId⟩

theorem mono (h : Changes changed before after) (hsub : ∀ place, changed place → changed' place) :
    Changes changed' before after :=
  ⟨fun place hp => h.node place (mt (hsub place) hp), h.directories, h.wellFormed, h.current,
    h.processId⟩

theorem of_grows (changed : Place → Prop) (h : Tree.Grows before.tree after.tree)
    (hcurrent : after.current = before.current) (hprocess : after.processId = before.processId) :
    Changes changed before after :=
  ⟨fun place _ => h.node place, h.keepsDirectories, h.wellFormed, hcurrent, hprocess⟩

/-- A change that leaves the tree alone. -/
theorem of_tree_eq (changed : Place → Prop) (htree : after.tree = before.tree)
    (hcurrent : after.current = before.current) (hprocess : after.processId = before.processId) :
    Changes changed before after :=
  .of_grows changed (htree ▸ .refl _) hcurrent hprocess

end Changes

/-- The system after a lock file is opened. -/
def openLock (memory : Memory) (place : Place) : Memory :=
  if (memory.tree.node? place).isSome then memory
  else { memory with tree := memory.tree.put place (.file .empty) }

/-- Opening a lock file changes nothing but the tree. -/
theorem openLock_eq (memory : Memory) (place : Place) :
    memory.openLock place = { memory with tree := (memory.openLock place).tree } := by
  rw [openLock]
  split <;> rfl

theorem openLock_holds (memory : Memory) (place : Place) :
    (memory.openLock place).holds = memory.holds ∧
      (memory.openLock place).nextTicket = memory.nextTicket := by
  rw [openLock_eq]
  exact ⟨rfl, rfl⟩

theorem lock_eq (memory : Memory) (path : String) (mode : LockMode) :
    memory.lock path mode =
      match memory.tree.openPlace memory.current path with
      | .error fault => (.error (.system fault), memory)
      | .ok place =>
        if (memory.openLock place).holds.any (fun hold => hold.conflicts place mode) then
          (.error .timedOut, memory.openLock place)
        else
          (.ok (memory.openLock place).nextTicket,
            { memory.openLock place with
              holds := ⟨(memory.openLock place).nextTicket, some place, mode⟩ ::
                (memory.openLock place).holds
              nextTicket := (memory.openLock place).nextTicket + 1 }) := rfl

theorem node?_openLock (memory : Memory) (parent : Place) (name : String) (place : Place) :
    (memory.openLock (parent ++ [name])).tree.node? place =
      if place = parent ++ [name] then some ((memory.tree.node? place).getD (.file .empty))
      else memory.tree.node? place := by
  rw [openLock]
  split
  · rename_i hthere
    split
    · rename_i hplace
      obtain ⟨node, hnode⟩ := Option.isSome_iff_exists.1 hthere
      rw [hplace, hnode, Option.getD_some]
    · rfl
  · rename_i hfree
    rw [Tree.node?_put _ (by simp)]
    split
    · rename_i hplace
      rw [hplace, Option.not_isSome_iff_eq_none.1 hfree, Option.getD_none]
    · rfl

theorem changes_openLock {memory : Memory} {parent : Place} (name : String)
    (hparent : memory.tree.isDirectory parent = true) :
    Changes (fun _ => False) memory (memory.openLock (parent ++ [name])) := by
  rw [openLock]
  split
  · exact .refl _ memory
  · rename_i hnode
    have hfree : memory.tree.node? (parent ++ [name]) = none := by simpa using hnode
    exact .of_grows _ (.put hparent hfree (Or.inr rfl)) rfl rfl

/-- What carrying out a request does to the system: one constructor for each
thing that it can do, with the places that its paths lead to. -/
inductive Effect (memory : Memory) : Request → Memory → Prop where
  | nothing (request : Request) : Effect memory request memory
  | made (path : String) : Effect memory (.createDirs path)
      { memory with tree := (memory.tree.createDirs memory.current path).2 }
  | opened {path : String} {place : Place} (mode : LockMode) (timeoutMs : Nat)
      (hplace : memory.tree.openPlace memory.current path = .ok place) :
      Effect memory (.lock path mode timeoutMs) (memory.openLock place)
  | locked {path : String} {place : Place} (mode : LockMode) (timeoutMs : Nat)
      (hplace : memory.tree.openPlace memory.current path = .ok place) :
      Effect memory (.lock path mode timeoutMs)
        { memory.openLock place with
          holds := ⟨memory.nextTicket, some place, mode⟩ :: memory.holds
          nextTicket := memory.nextTicket + 1 }
  | released (ticket : Nat) : Effect memory (.release ticket) (memory.release ticket)
  | written {path : String} {place : Place} (content : ByteArray)
      (hplace : memory.tree.openPlace memory.current path = .ok place) :
      Effect memory (.write path content)
        { memory with tree := memory.tree.put place (.file content) }
  | renamed {source target : String} {origin goal : Place}
      (hsource : memory.tree.filePlace memory.current source = .ok origin)
      (htarget : memory.tree.renamePlace memory.current target = .ok goal)
      (hne : origin ≠ goal) : Effect memory (.rename source target)
        (({ memory with tree := memory.tree.move origin goal }.forget goal).follow origin goal)
  | removed {path : String} {place : Place}
      (hplace : memory.tree.filePlace memory.current path = .ok place) :
      Effect memory (.remove path)
        ({ memory with tree := memory.tree.erase place }.forget place)
  | asked (question : String) : Effect memory (.ask question)
      { memory with
        shown := memory.shown ++ question
        input := (firstLine memory.input).2 }
  | warned (warning : Warning) : Effect memory (.warn warning)
      { memory with warnings := memory.warnings ++ [warning] }

theorem effect_lock (memory : Memory) (path : String) (mode : LockMode) (timeoutMs : Nat) :
    Effect memory (.lock path mode timeoutMs) (memory.lock path mode).2 := by
  rw [lock_eq]
  split
  · exact .nothing _
  rename_i place hplace
  split
  · exact .opened mode timeoutMs hplace
  · have hlocked := Effect.locked mode timeoutMs hplace
    obtain ⟨hholds, hnext⟩ := openLock_holds memory place
    rwa [← hholds, ← hnext] at hlocked

theorem effect_write (memory : Memory) (path : String) (content : ByteArray) :
    Effect memory (.write path content) (serve (.write path content) memory).2 := by
  simp only [serve, Tree.write]
  cases hplace : memory.tree.openPlace memory.current path with
  | error fault => exact .nothing _
  | ok place => exact .written content hplace

theorem effect_rename (memory : Memory) (source target : String) :
    Effect memory (.rename source target) (memory.rename source target).2 := by
  rw [rename]
  split
  · exact .nothing _
  · exact .nothing _
  · rename_i origin goal hsource htarget
    split
    · exact .nothing _
    · rename_i hne
      exact .renamed hsource htarget hne

theorem effect_remove (memory : Memory) (path : String) :
    Effect memory (.remove path) (memory.remove path).2 := by
  rw [remove]
  split
  · exact .nothing _
  · rename_i place hplace
    exact .removed hplace

theorem effect_ask (memory : Memory) (question : String) :
    Effect memory (.ask question) (memory.ask question).2 := by
  simp only [ask]
  split <;> exact .asked question

/-- Every request has one of the effects. -/
theorem effect_serve (request : Request) (memory : Memory) :
    Effect memory request (serve request memory).2 := by
  cases request with
  | createDirs path => exact .made path
  | lock path mode timeoutMs => exact effect_lock memory path mode timeoutMs
  | release ticket => exact .released ticket
  | write path content => exact effect_write memory path content
  | rename source target => exact effect_rename memory source target
  | remove path => exact effect_remove memory path
  | ask question => exact effect_ask memory question
  | warn warning => exact .warned warning
  | «exists» path => exact .nothing _
  | read path => exact .nothing _
  | realPath path => exact .nothing _
  | currentDir => exact .nothing _
  | processId => exact .nothing _

theorem not_isDirectory_of_filePlace {tree : Tree} {current place : Place} {path : String}
    (h : tree.filePlace current path = .ok place) :
    tree.locate current path = .ok place ∧ tree.isDirectory place = false := by
  rw [Tree.filePlace] at h
  obtain ⟨located, hlocate, hguard⟩ := exists_of_bind_eq_ok h
  split at hguard
  · cases hguard
  · rename_i hdir
    cases hguard
    exact ⟨hlocate, by simpa using hdir⟩

theorem mem_forget {memory : Memory} {place : Place} {hold : Hold} (h : hold ∈ memory.holds)
    (hplace : hold.place? ≠ some place) : hold ∈ (memory.forget place).holds :=
  List.mem_map.2 ⟨hold, h, if_neg hplace⟩

theorem mem_follow {memory : Memory} {source target : Place} {hold : Hold}
    (h : hold ∈ memory.holds) (hplace : hold.place? ≠ some source) :
    hold ∈ (memory.follow source target).holds :=
  List.mem_map.2 ⟨hold, h, if_neg hplace⟩

/-! ### What is read off an effect -/

namespace Effect

variable {memory after : Memory} {request : Request} {place : Place}

/-- What a request does not touch is as before, or is a directory or a lock
file that is new. -/
theorem node (h : Effect memory request after) (htouches : ¬ request.Touches memory place) :
    after.tree.node? place = memory.tree.node? place ∨
      memory.tree.node? place = none ∧ (after.tree.node? place = some .directory ∨
        request.Opens memory place ∧ after.tree.node? place = some (.file .empty)) := by
  have hopen : ∀ {path opened}, memory.tree.openPlace memory.current path = .ok opened →
      (memory.openLock opened).tree.node? place = memory.tree.node? place ∨
        memory.tree.node? place = none ∧ place = opened ∧
          (memory.openLock opened).tree.node? place = some (.file .empty) := by
    intro path opened hopened
    obtain ⟨parent, name, -, rfl, -⟩ := Tree.openPlace_ok hopened
    rw [node?_openLock]
    split
    · rename_i hplace
      cases memory.tree.node? place with
      | none => exact Or.inr ⟨rfl, hplace, rfl⟩
      | some node => exact Or.inl rfl
    · exact Or.inl rfl
  cases h with
  | made path =>
    rcases (Tree.createDirs_grows memory.tree memory.current path).node place with
      hsame | ⟨hfree, hdir | hfile⟩
    · exact Or.inl hsame
    · exact Or.inr ⟨hfree, Or.inl hdir⟩
    · have hbefore := Tree.createDirs_addsNoFile _ _ _ place _ hfile
      rw [hfree] at hbefore
      cases hbefore
  | opened mode timeoutMs hopened =>
    rcases hopen hopened with hsame | ⟨hfree, rfl, hfile⟩
    · exact Or.inl hsame
    · exact Or.inr ⟨hfree, Or.inr ⟨hopened, hfile⟩⟩
  | locked mode timeoutMs hopened =>
    rcases hopen hopened with hsame | ⟨hfree, rfl, hfile⟩
    · exact Or.inl hsame
    · exact Or.inr ⟨hfree, Or.inr ⟨hopened, hfile⟩⟩
  | written content hopened =>
    obtain ⟨parent, name, -, rfl, -⟩ := Tree.openPlace_ok hopened
    have hother : place ≠ parent ++ [name] := fun hsame => htouches (hsame ▸ hopened)
    exact Or.inl (by rw [Tree.node?_put _ (by simp), if_neg hother])
  | renamed hsource htarget hne =>
    obtain ⟨-, hfile⟩ := not_isDirectory_of_filePlace hsource
    obtain ⟨parent, name, -, rfl, -⟩ := Tree.renamePlace_ok htarget
    refine Or.inl (Tree.node?_move_of_ne hfile (by simp) ?_ ?_)
    · exact fun hsame => htouches (Or.inl (hsame ▸ hsource))
    · exact fun hsame => htouches (Or.inr (hsame ▸ htarget))
  | @removed path file hfile =>
    obtain ⟨-, hdir⟩ := not_isDirectory_of_filePlace hfile
    have hother : place ≠ file := fun hsame => htouches (hsame ▸ hfile)
    refine Or.inl ?_
    exact (Tree.node?_erase _ (Tree.ne_nil_of_not_isDirectory hdir) _).trans (if_neg hother)
  | nothing => exact Or.inl rfl
  | released ticket => exact Or.inl rfl
  | asked question => exact Or.inl rfl
  | warned warning => exact Or.inl rfl

/-- Directories stay, and everything keeps standing in a directory. -/
theorem keeps (h : Effect memory request after) :
    Tree.KeepsDirectories memory.tree after.tree ∧
      (memory.tree.WellFormed → after.tree.WellFormed) := by
  have hopen : ∀ {path opened}, memory.tree.openPlace memory.current path = .ok opened →
      Changes (fun _ => False) memory (memory.openLock opened) := by
    intro path opened hopened
    obtain ⟨parent, name, hleads, rfl, -⟩ := Tree.openPlace_ok hopened
    exact changes_openLock name hleads.isDirectory
  cases h with
  | made path =>
    have hgrows := Tree.createDirs_grows memory.tree memory.current path
    exact ⟨hgrows.keepsDirectories, hgrows.wellFormed⟩
  | opened mode timeoutMs hopened => exact ⟨(hopen hopened).directories, (hopen hopened).wellFormed⟩
  | locked mode timeoutMs hopened => exact ⟨(hopen hopened).directories, (hopen hopened).wellFormed⟩
  | written content hopened =>
    obtain ⟨parent, name, hleads, rfl, hdir⟩ := Tree.openPlace_ok hopened
    exact ⟨.put (by simp) hdir _, fun hw => hw.put hleads.isDirectory hdir _⟩
  | renamed hsource htarget hne =>
    obtain ⟨-, hfile⟩ := not_isDirectory_of_filePlace hsource
    obtain ⟨parent, name, hleads, rfl, hfree⟩ := Tree.renamePlace_ok htarget
    exact Tree.move_spec hfile hleads.isDirectory hfree
  | removed hfile =>
    obtain ⟨-, hdir⟩ := not_isDirectory_of_filePlace hfile
    have hne := Tree.ne_nil_of_not_isDirectory hdir
    exact ⟨.erase hne hdir, fun hw => hw.erase hne hdir⟩
  | nothing => exact ⟨fun _ => id, id⟩
  | released ticket => exact ⟨fun _ => id, id⟩
  | asked question => exact ⟨fun _ => id, id⟩
  | warned warning => exact ⟨fun _ => id, id⟩

theorem identity (h : Effect memory request after) :
    after.current = memory.current ∧ after.processId = memory.processId := by
  cases h with
  | opened =>
    rw [openLock_eq]
    exact ⟨rfl, rfl⟩
  | locked =>
    rw [openLock_eq]
    exact ⟨rfl, rfl⟩
  | _ => exact ⟨rfl, rfl⟩

/-- A request changes no more than it touches. -/
theorem changes (h : Effect memory request after) :
    Changes (fun place => request.Touches memory place) memory after := by
  refine ⟨?_, h.keeps.1, h.keeps.2, h.identity.1, h.identity.2⟩
  intro place htouches
  rcases h.node htouches with hsame | ⟨hfree, hdir | ⟨-, hfile⟩⟩
  · exact Or.inl hsame
  · exact Or.inr ⟨hfree, Or.inl hdir⟩
  · exact Or.inr ⟨hfree, Or.inr hfile⟩

/-- Where a request neither touches nor opens anything, no file is new. -/
theorem file_before (h : Effect memory request after) (htouches : ¬ request.Touches memory place)
    (hopens : ¬ request.Opens memory place) {content : ByteArray}
    (hfile : after.tree.node? place = some (.file content)) :
    memory.tree.node? place = some (.file content) := by
  rcases h.node htouches with hsame | ⟨-, hdir | ⟨hopened, -⟩⟩
  · exact hsame ▸ hfile
  · rw [hdir] at hfile
    cases hfile
  · exact absurd hopened hopens

theorem nextTicket_le (h : Effect memory request after) :
    memory.nextTicket ≤ after.nextTicket := by
  cases h with
  | opened => exact Nat.le_of_eq (openLock_holds memory _).2.symm
  | locked => exact Nat.le_succ _
  | _ => exact Nat.le_refl _

/-- A lock is held until it is released, unless its file is renamed or
removed. -/
theorem hold (h : Effect memory request after) {hold : Hold} (hmem : hold ∈ memory.holds)
    (hplace : hold.place? = some place) (htouches : ¬ request.Touches memory place)
    (hrelease : request ≠ .release hold.ticket) : hold ∈ after.holds := by
  have hother : ∀ {other}, (hother : other = place → request.Touches memory place) →
      hold.place? ≠ some other := by
    intro other hother hsame
    rw [hplace, Option.some.injEq] at hsame
    exact htouches (hother hsame.symm)
  cases h with
  | opened =>
    rw [(openLock_holds memory _).1]
    exact hmem
  | locked => exact List.mem_cons_of_mem _ hmem
  | released ticket =>
    refine List.mem_filter.2 ⟨hmem, bne_iff_ne.2 ?_⟩
    rintro rfl
    exact hrelease rfl
  | renamed hsource htarget hne =>
    refine mem_follow (mem_forget hmem (hother ?_)) (hother ?_)
    · exact fun hsame => Or.inr (hsame ▸ htarget)
    · exact fun hsame => Or.inl (hsame ▸ hsource)
  | removed hfile => exact mem_forget hmem (hother fun hsame => hsame ▸ hfile)
  | _ => exact hmem

/-- A warning is not taken back. -/
theorem warnings (h : Effect memory request after) : memory.warnings <+: after.warnings := by
  have hopen : ∀ place, (memory.openLock place).warnings = memory.warnings := by
    intro place
    rw [openLock_eq]
  cases h with
  | opened => exact (hopen _).symm ▸ List.prefix_rfl
  | locked => exact (hopen _).symm ▸ List.prefix_rfl
  | warned warning => exact List.prefix_append _ _
  | _ => exact List.prefix_rfl

end Effect

theorem changes_serve (request : Request) (memory : Memory) :
    Changes (fun place => request.Touches memory place) memory (serve request memory).2 :=
  (effect_serve request memory).changes

/-- What every run keeps. -/
theorem changes_run {α : Type} (action : Action α) (memory : Memory) :
    Changes (fun _ => True) memory (memory.run action).2 := by
  induction action generalizing memory with
  | done result => exact .refl _ memory
  | step request next ih =>
    have hserve : Changes (fun _ => True) memory (serve request memory).2 :=
      (changes_serve request memory).mono fun _ _ => trivial
    exact hserve.trans (ih (serve request memory).1 (serve request memory).2)

end Memory

end TestSkeleton.Files
