import TestSkeleton.Proofs.Files.Failing

/-!
# Runs in which any request may fail

`Memory.run` carries out every request.  Here a run is a relation, so that
the requests of one process may fail in any way on the way to its result.

* `Action.Runs` runs an action under some behaviour of the system, and
  `runs_andThen` takes a run in two parts.  `runs_carriesOut` is the run in
  which nothing fails.
* `Memory.Attempts` is the behaviour in which every request that can fail may
  do so, the requests that only look at something included.
* `Memory.Frames` bounds what a run does to files by the paths that it writes
  and the lock files that it opens.
* `runs_withLock` and `runs_replace` are guarded writing under such a
  behaviour, and `Replaces` tells the ways to replace a file apart.
-/

namespace TestSkeleton.Files

/-- What may become of each request. -/
abbrev Behaviour := Memory → (request : Request) → Reply request → Memory → Prop

/-- Whether whatever may become of a request under one behaviour may become of
it under another. -/
def Refines (serves serves' : Behaviour) : Prop :=
  ∀ memory request reply after, serves memory request reply after →
    serves' memory request reply after

theorem Refines.refl (serves : Behaviour) : Refines serves serves :=
  fun _ _ _ _ => id

theorem Refines.trans {serves serves' serves'' : Behaviour} (h : Refines serves serves')
    (h' : Refines serves' serves'') : Refines serves serves'' :=
  fun _ _ _ _ hserve => h' _ _ _ _ (h _ _ _ _ hserve)

namespace Action

variable {α β : Type}

/-- Whether an action may end with a result and a system. -/
inductive Runs (serves : Behaviour) : Memory → Action α → α → Memory → Prop where
  | done (result : α) (memory : Memory) : Runs serves memory (.done result) result memory
  | step {memory between after : Memory} {request : Request} {next : Reply request → Action α}
      {reply : Reply request} {result : α} (hserves : serves memory request reply between)
      (hrest : Runs serves between (next reply) result after) :
      Runs serves memory (.step request next) result after

variable {serves serves' : Behaviour} {memory after : Memory}

theorem runs_done {a result : α} :
    Runs serves memory (.done a) result after ↔ result = a ∧ after = memory := by
  constructor
  · rintro ⟨⟩
    exact ⟨rfl, rfl⟩
  · rintro ⟨rfl, rfl⟩
    exact .done result after

theorem runs_step {request : Request} {next : Reply request → Action α} {result : α} :
    Runs serves memory (.step request next) result after ↔
      ∃ reply between, serves memory request reply between ∧
        Runs serves between (next reply) result after := by
  constructor
  · rintro ⟨⟩
    rename_i between reply hserves hrest
    exact ⟨reply, between, hserves, hrest⟩
  · rintro ⟨reply, between, hserves, hrest⟩
    exact .step hserves hrest

/-- A run of two actions in turn. -/
theorem runs_andThen {action : Action α} {next : α → Action β} {result : β} :
    Runs serves memory (action.andThen next) result after ↔
      ∃ first between, Runs serves memory action first between ∧
        Runs serves between (next first) result after := by
  induction action generalizing memory with
  | done a =>
    rw [done_andThen]
    constructor
    · intro h
      exact ⟨a, memory, .done a memory, h⟩
    · rintro ⟨first, between, hfirst, hrest⟩
      obtain ⟨rfl, rfl⟩ := runs_done.1 hfirst
      exact hrest
  | step request k ih =>
    rw [step_andThen, runs_step]
    constructor
    · rintro ⟨reply, served, hserves, hrest⟩
      obtain ⟨first, between, hfirst, hlast⟩ := (ih reply).1 hrest
      exact ⟨first, between, .step hserves hfirst, hlast⟩
    · rintro ⟨first, between, hfirst, hlast⟩
      obtain ⟨reply, served, hserves, hrest⟩ := runs_step.1 hfirst
      exact ⟨reply, served, hserves, (ih reply).2 ⟨first, between, hrest, hlast⟩⟩

theorem Runs.mono {action : Action α} {result : α} (h : Runs serves memory action result after)
    (hserves : Refines serves serves') : Runs serves' memory action result after := by
  induction h with
  | done result memory => exact .done result memory
  | step hserved _ ih => exact .step (hserves _ _ _ _ hserved) ih

/-- The run in which every request is answered as a function says. -/
theorem runs_of_serve {serve : (request : Request) → Memory → Reply request × Memory}
    (hserves : ∀ memory request, serves memory request (serve request memory).1
      (serve request memory).2) (action : Action α) (memory : Memory) :
    Runs serves memory action (action.run serve memory).1 (action.run serve memory).2 := by
  induction action generalizing memory with
  | done a => exact .done a memory
  | step request next ih => exact .step (hserves memory request) (ih _ _)

/-- The run in which every request is carried out. -/
theorem runs_run (hserves : ∀ memory request, serves memory request (memory.serve request).1
    (memory.serve request).2) (action : Action α) (memory : Memory) :
    Runs serves memory action (memory.run action).1 (memory.run action).2 :=
  runs_of_serve hserves action memory

end Action

/-- The behaviour in which every request is carried out. -/
def CarriesOut : Behaviour := fun memory request reply after =>
  (reply, after) = Memory.serve request memory

theorem runs_carriesOut {α : Type} {action : Action α} {memory after : Memory} {result : α} :
    Action.Runs CarriesOut memory action result after ↔ memory.run action = (result, after) := by
  induction action generalizing memory with
  | done a =>
    rw [Action.runs_done, Memory.run_done, Prod.mk.injEq, eq_comm (a := result),
      eq_comm (a := after)]
  | step request next ih =>
    rw [Action.runs_step, Memory.run_step]
    constructor
    · rintro ⟨reply, between, hserves, hrest⟩
      obtain ⟨rfl, rfl⟩ := Prod.mk.inj hserves
      exact ih _ |>.1 hrest
    · exact fun h => ⟨_, _, rfl, (ih _).2 h⟩

namespace Memory

/-! ## Requests that fail -/

/-- How a look at the files or at the input may fail. -/
def Misses (memory : Memory) : (request : Request) → Reply request → Memory → Prop
  | .exists _, reply, after => reply = false ∧ after = memory
  | .read _, reply, after => ∃ fault : Fault, reply = Except.error fault ∧ after = memory
  | .realPath _, reply, after => ∃ fault : Fault, reply = Except.error fault ∧ after = memory
  | .currentDir, reply, after => ∃ fault : Fault, reply = Except.error fault ∧ after = memory
  | .ask _, reply, after => ∃ fault : Fault, reply = Except.error fault ∧ after = memory
  | _, _, _ => False

/-- What may become of a request of a process that is the only one and knows
its number. -/
def Attempts : Behaviour := fun memory request reply after =>
  (reply, after) = serve request memory ∨ Misses memory request reply after ∨
    request ≠ .processId ∧ Departs memory request reply after

variable {memory between after : Memory} {request : Request} {reply : Reply request}
  {path : String} {place : Place}

theorem attempts_serve (memory : Memory) (request : Request) :
    Attempts memory request (serve request memory).1 (serve request memory).2 :=
  Or.inl rfl

theorem carriesOut_refines : Refines CarriesOut Attempts :=
  fun _ _ _ _ => Or.inl

theorem Misses.after_eq (h : Misses memory request reply after) : after = memory := by
  cases request with
  | «exists» path => exact h.2
  | read path => exact h.choose_spec.2
  | realPath path => exact h.choose_spec.2
  | currentDir => exact h.choose_spec.2
  | ask question => exact h.choose_spec.2
  | _ => exact h.elim

theorem Attempts.became (h : Attempts memory request reply after) :
    Became memory request after := by
  rcases h with hserve | hmisses | ⟨-, hdeparts⟩
  · exact Or.inr ⟨request, .whole request, congrArg Prod.snd hserve⟩
  · exact Or.inl hmisses.after_eq
  · exact hdeparts.became

/-- Only a look fails in a way of its own. -/
theorem Attempts.serves (h : Attempts memory request reply after)
    (hmisses : ¬ Misses memory request reply after) : Serves memory request reply after := by
  rcases h with hserve | hfails | ⟨-, hdeparts⟩
  · exact Or.inl hserve
  · exact absurd hfails hmisses
  · exact Or.inr hdeparts

/-! ## The place of a path -/

/-- Whether a path leads to a place, in use or free. -/
def Leads (memory : Memory) (path : String) (place : Place) : Prop :=
  ∃ parent name, memory.tree.LeadsTo memory.current path parent name ∧ place = parent ++ [name]

theorem Leads.keeps {changed : Place → Prop} (h : Leads memory path place)
    (hchanges : Changes changed memory after) : Leads after path place := by
  obtain ⟨parent, name, hleads, hplace⟩ := h
  refine ⟨parent, name, ?_, hplace⟩
  rw [hchanges.current]
  exact hleads.keeps hchanges.directories

theorem Leads.unique {place' : Place} (h : Leads memory path place)
    (h' : Leads memory path place') : place' = place := by
  obtain ⟨parent, name, hleads, rfl⟩ := h
  obtain ⟨parent', name', hleads', rfl⟩ := h'
  obtain ⟨rfl, rfl⟩ := hleads.unique hleads'
  rfl

theorem leads_of_openPlace (h : memory.tree.openPlace memory.current path = .ok place) :
    Leads memory path place := by
  obtain ⟨parent, name, hleads, hplace, -⟩ := Tree.openPlace_ok h
  exact ⟨parent, name, hleads, hplace⟩

theorem leads_of_renamePlace (h : memory.tree.renamePlace memory.current path = .ok place) :
    Leads memory path place := by
  obtain ⟨parent, name, hleads, hplace, -⟩ := Tree.renamePlace_ok h
  exact ⟨parent, name, hleads, hplace⟩

theorem HasFile.leads {content : ByteArray} (h : HasFile memory path content) :
    ∃ place, Leads memory path place ∧ memory.tree.node? place = some (.file content) := by
  obtain ⟨parent, name, hleads, hnode⟩ := h
  exact ⟨parent ++ [name], ⟨parent, name, hleads, rfl⟩, hnode⟩

/-- A temporary file that is found is where its name leads. -/
theorem leads_of_filePlace_temporary {processId : Nat}
    (h : memory.tree.filePlace memory.current (temporaryName path processId) = .ok place) :
    Leads memory (temporaryName path processId) place := by
  obtain ⟨hlocate, -⟩ := not_isDirectory_of_filePlace h
  obtain ⟨parent, name, hplace, hleads⟩ := leadsTo_of_locate_temporary hlocate
  exact ⟨parent, name, hleads, hplace⟩

/-! ## What a run may change -/

/-- Whether a run changes no file but those of some paths, and adds no file
but empty ones at some others. -/
structure Frames (changed opened : List String) (before after : Memory) : Prop where
  changes : Changes (fun place => ∃ path ∈ changed, Leads after path place) before after
  file_before : ∀ place content, after.tree.node? place = some (.file content) →
    before.tree.node? place = some (.file content) ∨
      ∃ path ∈ changed ++ opened, Leads after path place

namespace Frames

variable {changed changed' opened opened' : List String}

theorem refl (changed opened : List String) (memory : Memory) :
    Frames changed opened memory memory :=
  ⟨.refl _ memory, fun _ _ hfile => Or.inl hfile⟩

theorem trans (h : Frames changed opened memory between)
    (h' : Frames changed opened between after) : Frames changed opened memory after := by
  refine ⟨(h.changes.mono ?_).trans h'.changes, ?_⟩
  · rintro place ⟨path, hpath, hleads⟩
    exact ⟨path, hpath, hleads.keeps h'.changes⟩
  · intro place content hfile
    rcases h'.file_before place content hfile with hbetween | hleads
    · rcases h.file_before place content hbetween with hbefore | ⟨path, hpath, hleads⟩
      · exact Or.inl hbefore
      · exact Or.inr ⟨path, hpath, hleads.keeps h'.changes⟩
    · exact Or.inr hleads

theorem mono (h : Frames changed opened memory after) (hchanged : changed ⊆ changed')
    (hopened : opened ⊆ opened') : Frames changed' opened' memory after := by
  refine ⟨h.changes.mono ?_, ?_⟩
  · rintro place ⟨path, hpath, hleads⟩
    exact ⟨path, hchanged hpath, hleads⟩
  · intro place content hfile
    rcases h.file_before place content hfile with hbefore | ⟨path, hpath, hleads⟩
    · exact Or.inl hbefore
    · refine Or.inr ⟨path, ?_, hleads⟩
      rcases List.mem_append.1 hpath with hpath | hpath
      · exact List.mem_append_left _ (hchanged hpath)
      · exact List.mem_append_right _ (hopened hpath)

/-- What neither a change nor a new lock file reaches. -/
theorem file_iff (h : Frames changed opened memory after)
    (hplace : ∀ path ∈ changed ++ opened, ¬ Leads after path place) (content : ByteArray) :
    after.tree.node? place = some (.file content) ↔
      memory.tree.node? place = some (.file content) := by
  constructor
  · intro hfile
    rcases h.file_before place content hfile with hbefore | ⟨path, hpath, hleads⟩
    · exact hbefore
    · exact absurd hleads (hplace path hpath)
  · refine (h.changes.node place ?_).eq_of_some
    rintro ⟨path, hpath, hleads⟩
    exact hplace path (List.mem_append_left _ hpath) hleads

/-- A file that no change reaches is as it was. -/
theorem eq_of_file (h : Frames changed opened memory after)
    (hplace : ∀ path ∈ changed, ¬ Leads after path place) {content : ByteArray}
    (hfile : memory.tree.node? place = some (.file content)) :
    after.tree.node? place = some (.file content) := by
  refine (h.changes.node place ?_).eq_of_some hfile
  rintro ⟨path, hpath, hleads⟩
  exact hplace path hpath hleads

theorem hasFile (h : Frames changed opened memory after) {content : ByteArray}
    (hfile : HasFile memory path content)
    (hplace : ∀ other ∈ changed, ∀ place, Leads after path place → ¬ Leads after other place) :
    HasFile after path content := by
  refine h.changes.hasFile hfile ?_
  rintro parent name hleads ⟨other, hother, hother'⟩
  have hpath : Leads memory path (parent ++ [name]) := ⟨parent, name, hleads, rfl⟩
  exact hplace other hother _ (hpath.keeps h.changes) hother'

end Frames

/-- A request changes the files that it names. -/
theorem Became.frames (h : Became memory request after) {changed opened : List String}
    (htouches : ∀ place, request.Touches memory place → ∃ path ∈ changed, Leads memory path place)
    (hopens : ∀ place, request.Opens memory place → ∃ path ∈ opened, Leads memory path place) :
    Frames changed opened memory after := by
  refine ⟨h.changes.mono ?_, ?_⟩
  · intro place htouch
    obtain ⟨path, hpath, hleads⟩ := htouches place htouch
    exact ⟨path, hpath, hleads.keeps h.changes⟩
  · intro place content hfile
    by_cases htouch : request.Touches memory place
    · obtain ⟨path, hpath, hleads⟩ := htouches place htouch
      exact Or.inr ⟨path, List.mem_append_left _ hpath, hleads.keeps h.changes⟩
    by_cases hopen : request.Opens memory place
    · obtain ⟨path, hpath, hleads⟩ := hopens place hopen
      exact Or.inr ⟨path, List.mem_append_right _ hpath, hleads.keeps h.changes⟩
    · exact Or.inl (h.file_before htouch hopen hfile)

end Memory

/-! ## Actions that only look -/

/-- Whether a request changes no file and opens no lock file. -/
def Request.IsQuiet : Request → Prop
  | .lock _ _ _ | .write _ _ | .rename _ _ | .remove _ => False
  | _ => True

/-- Whether an action makes quiet requests only. -/
def Action.IsQuiet {α : Type} : Action α → Prop
  | .done _ => True
  | .step request next => request.IsQuiet ∧ ∀ reply, (next reply).IsQuiet

theorem Action.IsQuiet.andThen {α β : Type} {action : Action α} {next : α → Action β}
    (h : action.IsQuiet) (hnext : ∀ a, (next a).IsQuiet) : (action.andThen next).IsQuiet := by
  induction action with
  | done a => exact hnext a
  | step request k ih => exact ⟨h.1, fun reply => ih reply (h.2 reply)⟩

theorem isQuiet_ofRequest {request : Request} (h : request.IsQuiet) :
    (Action.ofRequest request).IsQuiet :=
  ⟨h, fun _ => trivial⟩

theorem isQuiet_createParent (path : String) : (createParent path).IsQuiet := by
  rw [createParent]
  split
  · exact isQuiet_ofRequest trivial
  · trivial

theorem isQuiet_readText (path : String) : (Action.readText path).IsQuiet := by
  rw [Action.readText, Action.bind_eq]
  refine Action.IsQuiet.andThen (isQuiet_ofRequest trivial) fun reply => ?_
  split
  · trivial
  · split <;> trivial

namespace Memory

open Files.Action (Runs runs_done runs_step runs_andThen)

variable {α : Type} {memory after : Memory} {request : Request} {reply : Reply request}
  {path : String} {content : ByteArray}

theorem frames_of_isQuiet (h : Attempts memory request reply after) (hquiet : request.IsQuiet) :
    Frames [] [] memory after := by
  apply h.became.frames
  · intro place htouches
    cases request <;> first | exact hquiet.elim | exact htouches.elim
  · intro place hopens
    cases request <;> first | exact hquiet.elim | exact hopens.elim

/-- A run that only looks leaves every file. -/
theorem Frames.of_isQuiet {action : Action α} {result : α} (hquiet : action.IsQuiet)
    (h : Runs Attempts memory action result after) : Frames [] [] memory after := by
  induction h with
  | done result memory => exact .refl _ _ memory
  | step hserves _ ih => exact (frames_of_isQuiet hserves hquiet.1).trans (ih (hquiet.2 _))

/-! ## Guarded writing -/

/-- Taking a lock makes at most its lock file. -/
theorem frames_acquire {mode : LockMode} {timeoutMs : Nat} {result : Except Failure Nat}
    (h : Runs Attempts memory (acquire path mode timeoutMs) result after) :
    Frames [] [path] memory after := by
  rw [acquire, Action.bind_eq, runs_andThen] at h
  obtain ⟨made, between, hparent, hlock⟩ := h
  have hmade := (Frames.of_isQuiet (isQuiet_createParent path) hparent).mono
    (List.Subset.refl []) (List.nil_subset [path])
  cases made with
  | error fault =>
    obtain ⟨-, rfl⟩ := runs_done.1 hlock
    exact hmade
  | ok done =>
    rw [Action.bind_eq, runs_andThen] at hlock
    obtain ⟨reply, locked, hlocked, hrest⟩ := hlock
    obtain ⟨granted, system, hserves, hdone⟩ := runs_step.1 hlocked
    obtain ⟨rfl, rfl⟩ := runs_done.1 hdone
    have hopened : Frames [] [path] between locked := by
      refine hserves.became.frames (fun place htouches => htouches.elim) fun place hopens => ?_
      exact ⟨path, List.mem_singleton_self path, leads_of_openPlace hopens⟩
    have hafter : after = locked := by
      revert hrest
      split <;> exact fun hrest => (runs_done.1 hrest).2
    rw [hafter]
    exact hmade.trans hopened

/-- A lock that is taken is on the file to which its path leads. -/
theorem leads_of_acquire {mode : LockMode} {timeoutMs ticket : Nat}
    (h : Runs Attempts memory (acquire path mode timeoutMs) (.ok ticket) after) :
    ∃ place, Leads after path place := by
  rw [acquire, Action.bind_eq, runs_andThen] at h
  obtain ⟨made, between, -, hlock⟩ := h
  cases made with
  | error fault => cases (runs_done.1 hlock).1
  | ok done =>
    rw [Action.bind_eq, runs_andThen] at hlock
    obtain ⟨reply, locked, hlocked, hrest⟩ := hlock
    obtain ⟨granted, system, hserves, hdone⟩ := runs_step.1 hlocked
    obtain ⟨rfl, rfl⟩ := runs_done.1 hdone
    have hreply : reply = .ok ticket ∧ after = locked := by
      revert hrest
      split <;> intro hrest <;> obtain ⟨hresult, rfl⟩ := runs_done.1 hrest
      · exact ⟨congrArg Except.ok (Except.ok.inj hresult).symm, rfl⟩
      · cases hresult
      · cases hresult
    obtain ⟨rfl, rfl⟩ := hreply
    have hgranted := hserves.serves id
    have hchanges := hgranted.changes
    obtain ⟨-, -, parent, name, hleads, -, -⟩ := hgranted.lock_ok
    refine ⟨parent ++ [name], parent, name, ?_, rfl⟩
    rw [hchanges.current]
    exact hleads.keeps hchanges.directories

/-- A guarded run gets no lock, or runs its body while it has one. -/
theorem runs_withLock {serves : Behaviour} {mode : LockMode} {timeoutMs : Nat}
    {refused : Failure → α} {body : Action α} {result : α}
    (h : Runs serves memory (withLock path mode timeoutMs refused body) result after) :
    ∃ reply locked, Runs serves memory (acquire path mode timeoutMs) reply locked ∧
      ((∃ failure, reply = .error failure ∧ result = refused failure ∧ after = locked) ∨
        ∃ ticket last, reply = .ok ticket ∧ Runs serves locked body result last ∧
          serves last (.release ticket) () after) := by
  rw [withLock, Action.bind_eq, runs_andThen] at h
  obtain ⟨reply, locked, hacquire, hrest⟩ := h
  refine ⟨reply, locked, hacquire, ?_⟩
  cases reply with
  | error failure => exact Or.inl ⟨failure, rfl, runs_done.1 hrest⟩
  | ok ticket =>
    obtain ⟨first, last, hbody, hrest⟩ := runs_andThen.1 hrest
    obtain ⟨done, released, hrelease, hdone⟩ := runs_andThen.1 hrest
    obtain ⟨rfl, rfl⟩ := runs_done.1 hdone
    obtain ⟨granted, system, hserves, hnil⟩ := runs_step.1 hrelease
    obtain ⟨rfl, rfl⟩ := runs_done.1 hnil
    exact Or.inr ⟨ticket, last, rfl, hbody, hserves⟩

/-- What the body of a guarded run may change, the whole run may change. -/
theorem Frames.of_withLock {changed opened : List String} {mode : LockMode} {timeoutMs : Nat}
    {locked last : Memory} {ticket : Nat} {reply : Except Failure Nat}
    (hacquire : Runs Attempts memory (acquire path mode timeoutMs) reply locked)
    (hbody : Frames changed opened locked last)
    (hrelease : Attempts last (.release ticket) () after) (hpath : path ∈ opened) :
    Frames changed opened memory after := by
  have hlocked := (frames_acquire hacquire).mono (List.nil_subset changed)
    (List.cons_subset.2 ⟨hpath, List.nil_subset opened⟩)
  have hreleased := (frames_of_isQuiet hrelease trivial).mono (List.nil_subset changed)
    (List.nil_subset opened)
  exact (hlocked.trans hbody).trans hreleased

/-- A write changes the file that it writes. -/
theorem frames_write {reply : Except Fault Unit}
    (h : Attempts memory (.write path content) reply after) : Frames [path] [] memory after := by
  refine h.became.frames (fun place htouches => ?_) fun place hopens => hopens.elim
  exact ⟨path, List.mem_singleton_self _, leads_of_openPlace htouches⟩

variable {processId : Nat}

theorem frames_rename_temporary {reply : Except Fault Unit}
    (h : Attempts memory (.rename (temporaryName path processId) path) reply after) :
    Frames [path, temporaryName path processId] [] memory after := by
  refine h.became.frames (fun place htouches => ?_) fun place hopens => hopens.elim
  rcases htouches with hfrom | hto
  · exact ⟨_, by simp, leads_of_filePlace_temporary hfrom⟩
  · exact ⟨path, by simp, leads_of_renamePlace hto⟩

theorem frames_remove_temporary {reply : Except Fault Unit}
    (h : Attempts memory (.remove (temporaryName path processId)) reply after) :
    Frames [temporaryName path processId] [] memory after := by
  refine h.became.frames (fun place htouches => ?_) fun place hopens => hopens.elim
  exact ⟨_, List.mem_singleton_self _, leads_of_filePlace_temporary htouches⟩

/-- How a file is replaced, told by the step that failed.  The new content is
written beside the file, which is not touched before it is renamed over. -/
inductive Replaces (serves : Behaviour) (path temporary : String) (content : ByteArray)
    (memory : Memory) : Except Failure Unit → Memory → Prop where
  /-- The directory was not made. -/
  | unmade {after : Memory} {fault : Fault} (hmade : Frames [] [] memory after) :
      Replaces serves path temporary content memory (.error (.fileWrite path fault)) after
  | unwritten {made written after : Memory} {fault : Fault} {removed : Except Fault Unit}
      (hmade : Frames [] [] memory made)
      (hwrite : serves made (.write temporary content) (Except.error fault) written)
      (hremove : serves written (.remove temporary) removed after) :
      Replaces serves path temporary content memory (.error (.fileWrite path fault)) after
  | unmoved {made written between after : Memory} {fault : Fault} {removed : Except Fault Unit}
      (hmade : Frames [] [] memory made)
      (hwrite : serves made (.write temporary content) (Except.ok ()) written)
      (hrename : serves written (.rename temporary path) (Except.error fault) between)
      (hremove : serves between (.remove temporary) removed after) :
      Replaces serves path temporary content memory (.error (.fileWrite path fault)) after
  | moved {made written after : Memory} (hmade : Frames [] [] memory made)
      (hwrite : serves made (.write temporary content) (Except.ok ()) written)
      (hrename : serves written (.rename temporary path) (Except.ok ()) after) :
      Replaces serves path temporary content memory (.ok ()) after

theorem runs_replace_cases {serves : Behaviour} (hserves : Refines serves Attempts)
    {result : Except Failure Unit} (h : Runs serves memory (replace path content) result after) :
    Replaces serves path (temporaryName path memory.processId) content memory result after := by
  rw [replace, Action.bind_eq, runs_andThen] at h
  obtain ⟨made, parents, hparent, hrest⟩ := h
  have hmade := Frames.of_isQuiet (isQuiet_createParent path) (hparent.mono hserves)
  cases made with
  | error fault =>
    obtain ⟨rfl, rfl⟩ := runs_done.1 hrest
    exact .unmade hmade
  | ok done =>
    obtain ⟨processId, named, hnamed, hnext⟩ := runs_andThen.1 hrest
    obtain ⟨number, system, hnumbered, hdone⟩ := runs_step.1 hnamed
    obtain ⟨rfl, rfl⟩ := runs_done.1 hdone
    have hnumber : processId = memory.processId ∧ named = parents := by
      rcases hserves _ _ _ _ hnumbered with hserve | hmisses | ⟨hne, -⟩
      · cases hserve
        exact ⟨hmade.changes.processId, rfl⟩
      · exact hmisses.elim
      · exact absurd rfl hne
    obtain ⟨rfl, rfl⟩ := hnumber
    obtain ⟨moved, last, hmoved, hend⟩ := runs_andThen.1 hnext
    obtain ⟨reply, written, hwrite, hrename⟩ := runs_andThen.1 hmoved
    obtain ⟨granted, system, hwritten, hdone⟩ := runs_step.1 hwrite
    obtain ⟨rfl, rfl⟩ := runs_done.1 hdone
    cases reply with
    | error fault =>
      obtain ⟨rfl, rfl⟩ := runs_done.1 hrename
      obtain ⟨removed, cleaned, hremove, hfailed⟩ := runs_andThen.1 hend
      obtain ⟨rfl, rfl⟩ := runs_done.1 hfailed
      obtain ⟨done, system, hremoved, hdone⟩ := runs_step.1 hremove
      obtain ⟨rfl, rfl⟩ := runs_done.1 hdone
      exact .unwritten hmade hwritten hremoved
    | ok done =>
      obtain ⟨renamed, system, hrenamed, hdone⟩ := runs_step.1 hrename
      obtain ⟨rfl, rfl⟩ := runs_done.1 hdone
      cases moved with
      | ok done =>
        obtain ⟨rfl, rfl⟩ := runs_done.1 hend
        exact .moved hmade hwritten hrenamed
      | error fault =>
        obtain ⟨removed, cleaned, hremove, hfailed⟩ := runs_andThen.1 hend
        obtain ⟨rfl, rfl⟩ := runs_done.1 hfailed
        obtain ⟨done, system, hremoved, hdone⟩ := runs_step.1 hremove
        obtain ⟨rfl, rfl⟩ := runs_done.1 hdone
        exact .unmoved hmade hwritten hrenamed hremoved

/-- A replaced file holds the new content; a file that could not be replaced
is as it was. -/
theorem runs_replace {result : Except Failure Unit}
    (h : Runs Attempts memory (replace path content) result after) :
    (result = .ok () ∧ HasFile after path content ∧
      Frames [path, temporaryName path memory.processId] [] memory after) ∨
    ∃ failure, result = .error failure ∧
      Frames [temporaryName path memory.processId] [] memory after := by
  cases runs_replace_cases (.refl _) h with
  | unmade hmade => exact Or.inr ⟨_, rfl, hmade.mono (by simp) (by simp)⟩
  | unwritten hmade hwrite hremove =>
    have hwritten := (hmade.mono (by simp) (by simp)).trans (frames_write hwrite)
    exact Or.inr ⟨_, rfl, hwritten.trans (frames_remove_temporary hremove)⟩
  | unmoved hmade hwrite hrename hremove =>
    have hwritten := (hmade.mono (by simp) (by simp)).trans (frames_write hwrite)
    rw [(hrename.serves id).rename_error] at hremove
    exact Or.inr ⟨_, rfl, hwritten.trans (frames_remove_temporary hremove)⟩
  | moved hmade hwrite hrename =>
    have hwritten := (hmade.mono (by simp) (by simp)).trans (frames_write hwrite)
    refine Or.inl ⟨rfl, (hrename.serves id).rename_ok (hwrite.serves id).write_ok, ?_⟩
    exact (hwritten.mono (by simp) (by simp)).trans (frames_rename_temporary hrename)

end Memory

end TestSkeleton.Files
