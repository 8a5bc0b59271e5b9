import TestSkeleton.Proofs.Files.Replacing

/-!
# A system that may fail

Requests of several processes reach one system, and any request that creates
or changes something may fail there: a directory is not made, a lock is not
free in time, a disk is full.  A failed write may leave a part of its content,
but a rename is done or not done.  A look, into a file or for a file, is
answered right here; it may fail too in `Memory.Attempts`.

* `Memory.Serves` is what may become of a request.
* `Became.changes`, `Became.file_before`, `Serves.hold` and
  `Serves.nextTicket_le` bound what it does to the system, failed or not.
* `Serves.lock_ok`, `Serves.write_ok` and `Serves.rename_ok` say what a
  success means, the last two in terms of `HasFile`.
-/

namespace TestSkeleton.Files

namespace Memory

/-! ## Failing requests -/

/-- Where a request departs from what it is to do: it fails, with or without
a part of its work done.  A process has some number of its own. -/
def Departs (memory : Memory) : (request : Request) → Reply request → Memory → Prop
  | .createDirs _, reply, after => ∃ (fault : Fault) (part : String), reply = Except.error fault ∧
      after = (serve (.createDirs part) memory).2
  | .lock _ _ _, reply, after => ∃ fault : LockFault, reply = Except.error fault ∧ after = memory
  | .write path _, reply, after => ∃ (fault : Fault) (part : ByteArray),
      reply = Except.error fault ∧
        (after = memory ∨ after = (serve (.write path part) memory).2)
  | .rename _ _, reply, after => ∃ fault : Fault, reply = Except.error fault ∧ after = memory
  | .remove _, reply, after => ∃ fault : Fault, reply = Except.error fault ∧ after = memory
  | .processId, _, after => after = memory
  | _, _, _ => False

/-- What may become of a request. -/
def Serves (memory : Memory) (request : Request) (reply : Reply request) (after : Memory) : Prop :=
  (reply, after) = serve request memory ∨ Departs memory request reply after

/-- Whether one request is a part of the work of another. -/
inductive IsPart : Request → Request → Prop where
  | whole (request : Request) : IsPart request request
  | createDirs (part path : String) : IsPart (.createDirs part) (.createDirs path)
  | write (path : String) (part content : ByteArray) :
      IsPart (.write path part) (.write path content)

variable {memory after : Memory} {request : Request} {reply : Reply request}

/-- Whether the system is as before a request or a part of its work is done. -/
def Became (memory : Memory) (request : Request) (after : Memory) : Prop :=
  after = memory ∨ ∃ part, IsPart part request ∧ after = (serve part memory).2

theorem Departs.became (h : Departs memory request reply after) : Became memory request after := by
  cases request with
  | createDirs path =>
    obtain ⟨fault, part, -, hafter⟩ := h
    exact Or.inr ⟨_, .createDirs part path, hafter⟩
  | write path content =>
    obtain ⟨fault, part, -, hafter | hafter⟩ := h
    · exact Or.inl hafter
    · exact Or.inr ⟨_, .write path part content, hafter⟩
  | lock path mode timeoutMs =>
    obtain ⟨fault, -, hafter⟩ := h
    exact Or.inl hafter
  | rename source target =>
    obtain ⟨fault, -, hafter⟩ := h
    exact Or.inl hafter
  | remove path =>
    obtain ⟨fault, -, hafter⟩ := h
    exact Or.inl hafter
  | processId => exact Or.inl h
  | release ticket => exact h.elim
  | «exists» path => exact h.elim
  | read path => exact h.elim
  | realPath path => exact h.elim
  | currentDir => exact h.elim
  | ask question => exact h.elim
  | warn warning => exact h.elim

theorem Serves.became (h : Serves memory request reply after) : Became memory request after := by
  rcases h with hserve | hdeparts
  · exact Or.inr ⟨request, .whole request, congrArg Prod.snd hserve⟩
  · exact hdeparts.became

theorem IsPart.touches {part : Request} (h : IsPart part request) {place : Place}
    (htouches : part.Touches memory place) : request.Touches memory place := by
  cases h with
  | whole => exact htouches
  | createDirs => exact htouches
  | write => exact htouches

theorem IsPart.opens {part : Request} (h : IsPart part request) {place : Place}
    (hopens : part.Opens memory place) : request.Opens memory place := by
  cases h with
  | whole => exact hopens
  | createDirs => exact hopens
  | write => exact hopens

namespace Became

/-- Whatever part is done, a request does what a request of its kind does. -/
theorem effect (h : Became memory request after) :
    ∃ part, IsPart part request ∧ Effect memory part after := by
  rcases h with rfl | ⟨part, hpart, rfl⟩
  · exact ⟨request, .whole request, .nothing request⟩
  · exact ⟨part, hpart, effect_serve part memory⟩

theorem changes (h : Became memory request after) :
    Changes (fun place => request.Touches memory place) memory after := by
  obtain ⟨part, hpart, heffect⟩ := h.effect
  exact heffect.changes.mono fun place => hpart.touches

theorem file_before (h : Became memory request after) {place : Place}
    (htouches : ¬ request.Touches memory place) (hopens : ¬ request.Opens memory place)
    {content : ByteArray} (hfile : after.tree.node? place = some (.file content)) :
    memory.tree.node? place = some (.file content) := by
  obtain ⟨part, hpart, heffect⟩ := h.effect
  exact heffect.file_before (mt hpart.touches htouches) (mt hpart.opens hopens) hfile

end Became

namespace Serves

theorem changes (h : Serves memory request reply after) :
    Changes (fun place => request.Touches memory place) memory after :=
  h.became.changes

theorem hold (h : Serves memory request reply after) {hold : Hold} {place : Place}
    (hmem : hold ∈ memory.holds) (hplace : hold.place? = some place)
    (htouches : ¬ request.Touches memory place) (hrelease : request ≠ .release hold.ticket) :
    hold ∈ after.holds := by
  obtain ⟨part, hpart, heffect⟩ := h.became.effect
  refine heffect.hold hmem hplace (mt hpart.touches htouches) ?_
  rintro rfl
  cases hpart
  exact hrelease rfl

theorem nextTicket_le (h : Serves memory request reply after) :
    memory.nextTicket ≤ after.nextTicket := by
  obtain ⟨part, -, heffect⟩ := h.became.effect
  exact heffect.nextTicket_le

end Serves

/-! ## Requests that succeed -/

/-- Whether a path leads to a file with some content. -/
def HasFile (memory : Memory) (path : String) (content : ByteArray) : Prop :=
  ∃ parent name, memory.tree.LeadsTo memory.current path parent name ∧
    memory.tree.node? (parent ++ [name]) = some (.file content)

theorem HasFile.read {path : String} {content : ByteArray} (h : HasFile memory path content) :
    memory.tree.read memory.current path = .ok content := by
  obtain ⟨parent, name, hleads, hnode⟩ := h
  exact read_of_locate (hleads.locate (by rw [hnode]; rfl)) hnode

theorem hasFile_of_read (hwell : memory.tree.WellFormed) {path : String} {content : ByteArray}
    (h : memory.tree.read memory.current path = .ok content) : HasFile memory path content := by
  obtain ⟨place, hlocate, hnode⟩ := read_ok h
  have hfree : memory.tree.isDirectory place = false := by rw [Tree.isDirectory, hnode]
  obtain ⟨parent, name, rfl, hleads⟩ := hwell.leadsTo hlocate hfree
  exact ⟨parent, name, hleads, hnode⟩

/-- A file stays where no request touches it. -/
theorem Changes.hasFile {changed : Place → Prop} (h : Changes changed memory after) {path : String}
    {content : ByteArray} (hfile : HasFile memory path content)
    (hplace : ∀ parent name, memory.tree.LeadsTo memory.current path parent name →
      ¬ changed (parent ++ [name])) : HasFile after path content := by
  obtain ⟨parent, name, hleads, hnode⟩ := hfile
  refine ⟨parent, name, ?_, (h.node _ (hplace parent name hleads)).eq_of_some hnode⟩
  rw [h.current]
  exact hleads.keeps h.directories

namespace Serves

/-- A lock that is granted keeps to those that are held. -/
theorem lock_ok {path : String} {mode : LockMode} {timeoutMs ticket : Nat}
    (h : Serves memory (.lock path mode timeoutMs) (Except.ok ticket) after) :
    ticket = memory.nextTicket ∧ after.nextTicket = ticket + 1 ∧
      ∃ parent name, memory.tree.LeadsTo memory.current path parent name ∧
        ⟨ticket, some (parent ++ [name]), mode⟩ ∈ after.holds ∧
        ∀ hold ∈ memory.holds, hold.conflicts (parent ++ [name]) mode = false := by
  rcases h with hserve | ⟨fault, hfault, -⟩
  · have hlock : memory.lock path mode = (.ok ticket, after) := hserve.symm
    rw [lock_eq] at hlock
    split at hlock
    · cases hlock
    · rename_i opened hopened
      obtain ⟨parent, name, hleads, rfl, -⟩ := Tree.openPlace_ok hopened
      obtain ⟨hholds, hnext⟩ := openLock_holds memory (parent ++ [name])
      rw [hholds, hnext] at hlock
      split at hlock
      · cases hlock
      · rename_i hfree
        rw [Prod.mk.injEq, Except.ok.injEq] at hlock
        obtain ⟨rfl, rfl⟩ := hlock
        refine ⟨rfl, rfl, parent, name, hleads, List.mem_cons_self, ?_⟩
        intro hold hhold
        rw [Bool.eq_false_iff]
        intro hconflict
        exact hfree (List.any_eq_true.2 ⟨hold, hhold, hconflict⟩)
  · cases hfault

/-- A file that is written has its content. -/
theorem write_ok {path : String} {content : ByteArray}
    (h : Serves memory (.write path content) (Except.ok ()) after) :
    HasFile after path content := by
  rcases h with hserve | ⟨fault, part, hfault, -⟩
  · cases hwrite : memory.tree.write memory.current path content with
    | error fault =>
      simp only [serve, hwrite] at hserve
      cases hserve
    | ok tree =>
      simp only [serve, hwrite] at hserve
      cases hserve
      obtain ⟨parent, name, hleads, hdir, rfl⟩ := Memory.write_ok hwrite
      refine ⟨parent, name, hleads.keeps (Tree.KeepsDirectories.put (by simp) hdir _), ?_⟩
      show (memory.tree.put (parent ++ [name]) (.file content)).node? (parent ++ [name]) = _
      rw [Tree.node?_put _ (by simp), if_pos rfl]
  · cases hfault

/-- A file that is renamed takes its content along. -/
theorem rename_ok {source target : String} {content : ByteArray}
    (h : Serves memory (.rename source target) (Except.ok ()) after)
    (hfile : HasFile memory source content) : HasFile after target content := by
  rcases h with hserve | ⟨fault, hfault, -⟩
  · have hrename : memory.rename source target = (.ok (), after) := hserve.symm
    obtain ⟨parent, name, hleads, hnode⟩ := hfile
    have hlocate := hleads.locate (by rw [hnode]; rfl)
    obtain ⟨parent', name', hgoal, hmoved, hchanges⟩ :=
      Memory.rename_ok hrename hlocate hnode
    refine ⟨parent', name', ?_, hmoved⟩
    rw [hchanges.current]
    exact hgoal.keeps hchanges.directories
  · cases hfault

/-- A rename that fails does nothing. -/
theorem rename_error {source target : String} {fault : Fault}
    (h : Serves memory (.rename source target) (Except.error fault) after) : after = memory := by
  rcases h with hserve | ⟨fault, -, hafter⟩
  · have hrename : memory.rename source target = (.error fault, after) := hserve.symm
    rw [Memory.rename] at hrename
    split at hrename
    · exact (congrArg Prod.snd hrename).symm
    · exact (congrArg Prod.snd hrename).symm
    · split at hrename <;> cases hrename
  · exact hafter

/-- What is read is there. -/
theorem read_eq {path : String} {reply : Reply (.read path)}
    (h : Serves memory (.read path) reply after) :
    reply = memory.tree.read memory.current path ∧ after = memory := by
  rcases h with hserve | hfalse
  · exact ⟨congrArg Prod.fst hserve, congrArg Prod.snd hserve⟩
  · exact hfalse.elim

end Serves

end Memory

end TestSkeleton.Files
