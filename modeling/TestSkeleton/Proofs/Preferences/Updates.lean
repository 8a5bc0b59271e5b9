import TestSkeleton.Proofs.Preferences.Interleaving
import TestSkeleton.Proofs.Preferences.Sharing

/-!
# No update is lost

However the stores on one preference file are interleaved, the file holds the
first document with the changes of all saves that replaced it, in the order
of their locks.  Every request that changes something may fail, and a look
into the file is answered right (`Memory.Serves`): a save that took the file
for an empty one would lose what is in it.

* `Fits` is what is known of one instance, and `Saving` of one save.
* `Accounted` is what is known of the saves that are logged or ended.
* `Consistent` is the invariant of a world, and `Consistent.step` keeps it.
* `Reaches.keeps_updates` is the result.
-/

namespace TestSkeleton.Preferences

open Files
open Memory (Serves)

/-! ## Saves that go on -/

/-- What is known of a save that is going on. -/
structure Saving (path : String) (log : List Save) (save : Save) (store : FileStore)
    (action : Action (Except Failure Unit × FileStore)) (phase : Phase) : Prop where
  path_eq : store.path = path
  pending : store.pending = save.changes
  obeys : Obeys path save.changes (Saved store) phase action
  ticket : save.ticket? = phase.ticket?
  logged : phase.stage.isReplaced = true → save ∈ log
  unlogged : phase.stage.isReplaced = false → ∀ entry ∈ log, entry.ticket? ≠ save.ticket?
  /-- Nobody replaces the file between the lock and the replacement. -/
  turn : phase.stage.mode? = some .exclusive → phase.stage.isReplaced = false →
    ∀ entry ∈ log, entry.Precedes save

namespace Saving

variable {path : String} {log : List Save} {save : Save} {store : FileStore} {phase : Phase}
  {memory after : Memory} {request : Request} {reply : Reply request}
  {next : Reply request → Action (Except Failure Unit × FileStore)}

/-- A save begins. -/
theorem start {unsaved : List Change} (hpath : store.path = path)
    (hpending : store.pending = unsaved)
    (hticket : ∀ entry ∈ log, ∃ ticket, entry.ticket? = some ticket) :
    Saving path log { changes := unsaved } store store.save {} := by
  subst hpath hpending
  refine ⟨rfl, rfl, obeys_save store, rfl, ?_, ?_, ?_⟩
  · intro hreplaced
    cases hreplaced
  · intro _ entry hentry hnone
    obtain ⟨ticket, hsome⟩ := hticket entry hentry
    rw [hsome] at hnone
    cases hnone
  · intro hmode
    cases hmode

/-- The lock is granted, under a ticket above those before. -/
theorem granted {target : String} {mode : LockMode} {timeoutMs ticket : Nat}
    {next : Reply (.lock target mode timeoutMs) → Action (Except Failure Unit × FileStore)}
    (h : Saving path log save store (.step (.lock target mode timeoutMs) next) phase)
    (hissued : ∀ entry ∈ log, ∃ earlier, entry.ticket? = some earlier ∧ earlier < ticket) :
    Saving path log { save with ticket? := some ticket } store (next (Except.ok ticket))
      ⟨some ticket, .locked mode⟩ := by
  refine ⟨h.path_eq, h.pending, h.obeys.2 (Except.ok ticket), rfl, ?_, ?_, ?_⟩
  · intro hreplaced
    cases hreplaced
  · intro _ entry hentry hsame
    obtain ⟨earlier, hsome, hlt⟩ := hissued entry hentry
    rw [hsome, Option.some.injEq] at hsame
    omega
  · intro _ _ entry hentry
    obtain ⟨earlier, hsome, hlt⟩ := hissued entry hentry
    exact ⟨earlier, ticket, hsome, rfl, hlt⟩

/-- A request leaves the file as it is. -/
theorem serve (h : Saving path log save store (.step request next) phase)
    (hserves : Memory.Serves memory request reply after)
    (hissued : ∀ entry ∈ log, ∃ ticket, entry.ticket? = some ticket ∧ ticket < memory.nextTicket)
    (hkeeps : replaces path request reply = false) :
    Saving path log (save.noted request reply) store (next reply) (phase.next request reply) := by
  obtain ⟨hallows, hnext⟩ := h.obeys
  have hkept (hnoted : save.noted request reply = save)
      (hlock : ∀ target mode timeoutMs, request ≠ .lock target mode timeoutMs) :
      Saving path log (save.noted request reply) store (next reply)
        (phase.next request reply) := by
    obtain ⟨hticket, hmode, hreplaced⟩ := hallows.next_kept reply hlock
    rw [hnoted]
    refine ⟨h.path_eq, h.pending, hnext reply, h.ticket.trans hticket.symm, ?_, ?_, ?_⟩
    · rw [hreplaced hkeeps]
      exact h.logged
    · rw [hreplaced hkeeps]
      exact h.unlogged
    · rw [hreplaced hkeeps]
      intro hexclusive
      rcases hmode with hsame | hnone
      · exact h.turn (hsame.symm.trans hexclusive)
      · rw [hnone] at hexclusive
        cases hexclusive
  cases request with
  | lock target mode timeoutMs =>
    cases reply with
    | ok ticket =>
      refine h.granted ?_
      rw [hserves.lock_ok.1]
      exact hissued
    | error fault =>
      exact ⟨h.path_eq, h.pending, hnext _, h.ticket, h.logged, h.unlogged, h.turn⟩
  | _ => exact hkept rfl (by simp)

/-- A save that is logged keeps its ticket. -/
theorem noted_eq (h : Saving path log save store (.step request next) phase)
    (hlogged : save ∈ log) (reply : Reply request) : save.noted request reply = save := by
  cases request with
  | lock target mode timeoutMs =>
    have hbefore : phase.stage = .before := h.obeys.1.1
    exact absurd rfl (h.unlogged (by rw [hbefore]; rfl) save hlogged)
  | _ => rfl

/-- A rename replaces the file, and the save is logged. -/
theorem replace {source target : String}
    {next : Reply (.rename source target) → Action (Except Failure Unit × FileStore)}
    (h : Saving path log save store (.step (.rename source target) next) phase) :
    Saving path (log ++ [save]) save store (next (Except.ok ()))
      (phase.next (.rename source target) (Except.ok ())) := by
  obtain ⟨hallows, hnext⟩ := h.obeys
  have hobeys := hnext (Except.ok ())
  obtain ⟨document, processId, hstage, -⟩ := hallows
  rw [Phase.next_rename_ok hstage] at hobeys ⊢
  refine ⟨h.path_eq, h.pending, hobeys, h.ticket, ?_, ?_, ?_⟩
  · intro _
    exact List.mem_append_right _ List.mem_cons_self
  · intro hreplaced
    cases hreplaced
  · intro _ hreplaced
    cases hreplaced

end Saving

/-- What is known of an instance in some phase. -/
def Fits (path : String) (log : List Save) : Instance → Phase → Prop
  | .closed, _ => True
  | .opening action, phase => Obeys path [] (Opened path) phase action
  | .ready unsaved store, _ => store.path = path ∧ store.pending = unsaved
  | .saving save store action, phase => Saving path log save store action phase

/-- A save stays as it is when others are logged. -/
theorem Fits.append {path : String} {log entries : List Save} {current : Instance} {phase : Phase}
    (h : Fits path log current phase)
    (hentries : ∀ entry ∈ entries,
      entry.ticket? ≠ phase.ticket? ∧ phase.stage.mode? ≠ some .exclusive) :
    Fits path (log ++ entries) current phase := by
  cases current with
  | closed => trivial
  | opening action => exact h
  | ready unsaved store => exact h
  | saving save store action =>
    have hsaving : Saving path log save store action phase := h
    refine ⟨hsaving.path_eq, hsaving.pending, hsaving.obeys, hsaving.ticket, ?_, ?_, ?_⟩
    · intro hreplaced
      exact List.mem_append_left _ (hsaving.logged hreplaced)
    · intro hreplaced entry hentry
      rcases List.mem_append.1 hentry with hlogged | hadded
      · exact hsaving.unlogged hreplaced entry hlogged
      · rw [hsaving.ticket]
        exact (hentries entry hadded).1
    · intro hmode hreplaced entry hentry
      rcases List.mem_append.1 hentry with hlogged | hadded
      · exact hsaving.turn hmode hreplaced entry hlogged
      · exact absurd hmode (hentries entry hadded).2

/-- All instances fit their phases when one of them changes. -/
theorem Fits.update {path : String} {log : List Save} {instances : Nat → Instance}
    {phases : Nat → Phase} {i : Nat} {next : Instance} {phase : Phase}
    (h : Fits path log next phase)
    (hothers : ∀ j, j ≠ i → Fits path log (instances j) (phases j)) (j : Nat) :
    Fits path log (Function.update instances i next j) (Function.update phases i phase j) :=
  forall_update₂ (fun _ => Fits path log) h hothers j

/-! ## Saves that are logged or ended -/

/-- What is known of the saves that are logged and of those that ended, with
their results. -/
structure Accounted (log : List Save) (returned : List (Save × Except Failure Unit))
    (nextTicket : Nat) : Prop where
  ordered : log.Pairwise Save.Precedes
  changed : ∀ entry ∈ log, entry.changes ≠ []
  issued : ∀ entry ∈ log, ∃ ticket, entry.ticket? = some ticket ∧ ticket < nextTicket
  succeeded : ∀ save, (save, .ok ()) ∈ returned → save.changes = [] ∨ save ∈ log
  failed : ∀ save failure, (save, .error failure) ∈ returned →
    ∀ entry ∈ log, entry.ticket? ≠ save.ticket?

namespace Accounted

variable {log : List Save} {returned : List (Save × Except Failure Unit)} {nextTicket : Nat}

theorem start : Accounted [] [] nextTicket where
  ordered := List.Pairwise.nil
  changed := fun _ h => nomatch h
  issued := fun _ h => nomatch h
  succeeded := fun _ h => nomatch h
  failed := fun _ _ h => nomatch h

theorem mono (h : Accounted log returned nextTicket) {nextTicket' : Nat}
    (hle : nextTicket ≤ nextTicket') : Accounted log returned nextTicket' := by
  refine ⟨h.ordered, h.changed, ?_, h.succeeded, h.failed⟩
  intro entry hentry
  obtain ⟨ticket, hticket, hlt⟩ := h.issued entry hentry
  exact ⟨ticket, hticket, by omega⟩

/-- Some saves end. -/
theorem appendReturned (h : Accounted log returned nextTicket)
    {ended : List (Save × Except Failure Unit)}
    (hsucceeded : ∀ save, (save, .ok ()) ∈ ended → save.changes = [] ∨ save ∈ log)
    (hfailed : ∀ save failure, (save, .error failure) ∈ ended →
      ∀ entry ∈ log, entry.ticket? ≠ save.ticket?) :
    Accounted log (returned ++ ended) nextTicket := by
  refine ⟨h.ordered, h.changed, h.issued, ?_, ?_⟩
  · intro save hsave
    rcases List.mem_append.1 hsave with hreturned | hended
    · exact h.succeeded save hreturned
    · exact hsucceeded save hended
  · intro save failure hsave
    rcases List.mem_append.1 hsave with hreturned | hended
    · exact h.failed save failure hreturned
    · exact hfailed save failure hended

/-- A save is logged after all that were granted the lock before it. -/
theorem appendLog (h : Accounted log returned nextTicket) {save : Save} {ticket : Nat}
    (hchanged : save.changes ≠ []) (hticket : save.ticket? = some ticket)
    (hlt : ticket < nextTicket) (hprecedes : ∀ entry ∈ log, entry.Precedes save)
    (hfresh : ∀ ended ∈ returned, ended.1.ticket? ≠ some ticket) :
    Accounted (log ++ [save]) returned nextTicket := by
  refine ⟨?_, ?_, ?_, ?_, ?_⟩
  · refine List.pairwise_append.2 ⟨h.ordered, List.pairwise_singleton _ _, ?_⟩
    intro entry hentry other hother
    rw [List.mem_singleton.1 hother]
    exact hprecedes entry hentry
  · intro entry hentry
    rcases List.mem_append.1 hentry with hlogged | hadded
    · exact h.changed entry hlogged
    · rw [List.mem_singleton.1 hadded]
      exact hchanged
  · intro entry hentry
    rcases List.mem_append.1 hentry with hlogged | hadded
    · exact h.issued entry hlogged
    · rw [List.mem_singleton.1 hadded]
      exact ⟨ticket, hticket, hlt⟩
  · intro other hother
    exact (h.succeeded other hother).imp_right (List.mem_append_left _)
  · intro other failure hother entry hentry
    rcases List.mem_append.1 hentry with hlogged | hadded
    · exact h.failed other failure hother entry hlogged
    · rw [List.mem_singleton.1 hadded, hticket]
      exact Ne.symm (hfresh _ hother)

end Accounted

/-! ## Worlds -/

/-- What is known of a world whose instances are in some phases. -/
structure Consistent (path : String) (base? : Option Document) (world : World)
    (phases : Nat → Phase) : Prop where
  shared : Shared path base? (world.log.flatMap Save.changes) world.memory phases
    fun i => (world.instances i).changes
  fits : ∀ i, Fits path world.log (world.instances i) (phases i)
  accounted : Accounted world.log world.returned world.memory.nextTicket
  /-- A save that replaced the file succeeds, if it has ended. -/
  owned : ∀ entry ∈ world.log, (entry, .ok ()) ∈ world.returned ∨
    ∃ i store action, world.instances i = .saving entry store action
  /-- The ticket of a save that ended is not used again. -/
  spent : ∀ ended ∈ world.returned, ∀ ticket, ended.1.ticket? = some ticket →
    ticket < world.memory.nextTicket ∧ ∀ i, (phases i).ticket? ≠ some ticket

namespace Consistent

variable {path : String} {base? : Option Document} {world : World} {phases : Nat → Phase}
  {i : Nat} {after : Memory} {request : Request} {reply : Reply request} {next : Instance}

theorem start {memory : Memory} (hwell : memory.tree.WellFormed)
    (hfile : Carries path base? [] memory) : Consistent path base? { memory } fun _ => {} where
  shared := Shared.start hwell hfile _
  fits := fun _ => trivial
  accounted := .start
  owned := fun _ h => nomatch h
  spent := fun _ h => nomatch h

/-! ## Steps of one instance alone -/

/-- An instance starts over, and says how its save ended if it had one. -/
theorem settle (h : Consistent path base? world phases) (next : Instance)
    (ended : List (Save × Except Failure Unit)) (hnext : Fits path world.log next {})
    (howned : ∀ save store action, world.instances i = .saving save store action →
      save ∈ world.log → (save, .ok ()) ∈ ended)
    (hsucceeded : ∀ save, (save, .ok ()) ∈ ended → save.changes = [] ∨ save ∈ world.log)
    (hfailed : ∀ save failure, (save, .error failure) ∈ ended →
      ∀ entry ∈ world.log, entry.ticket? ≠ save.ticket?)
    (hspent : ∀ save ∈ ended, save.1.ticket? = (phases i).ticket?) :
    Consistent path base?
      { world with
        instances := Function.update world.instances i next
        returned := world.returned ++ ended }
      (Function.update phases i {}) := by
  refine ⟨?_, hnext.update fun j _ => h.fits j,
    h.accounted.appendReturned hsucceeded hfailed, ?_, ?_⟩
  · refine h.shared.restart ?_
    intro j hj
    exact congrArg Instance.changes (Function.update_of_ne hj ..)
  · intro entry hentry
    rcases h.owned entry hentry with hreturned | ⟨j, store, action, hsaving⟩
    · exact Or.inl (List.mem_append_left _ hreturned)
    · by_cases hj : j = i
      · rw [hj] at hsaving
        exact Or.inl (List.mem_append_right _ (howned entry store action hsaving hentry))
      · exact Or.inr ⟨j, store, action, (Function.update_of_ne hj ..).trans hsaving⟩
  · intro save hsave ticket hticket
    rw [Function.forall_update_iff phases fun _ phase => phase.ticket? ≠ some ticket]
    rcases List.mem_append.1 hsave with hreturned | hended
    · obtain ⟨hlt, hothers⟩ := h.spent save hreturned ticket hticket
      exact ⟨hlt, by simp, fun j _ => hothers j⟩
    · rw [hspent save hended] at hticket
      refine ⟨(h.shared.each i).issued ticket hticket, by simp, ?_⟩
      exact fun j hj => (h.shared.apart i j (Ne.symm hj)).tickets ticket hticket

/-- An instance that was not saving starts over. -/
theorem idle (h : Consistent path base? world phases) (next : Instance)
    (hnext : Fits path world.log next {})
    (hidle : ∀ save store action, world.instances i ≠ .saving save store action) :
    Consistent path base?
      { world with instances := Function.update world.instances i next }
      (Function.update phases i {}) := by
  have hsettled := h.settle next [] hnext
    (fun save store action hsaving => absurd hsaving (hidle save store action))
    (fun _ hsave => nomatch hsave) (fun _ _ hsave => nomatch hsave) (fun _ hsave => nomatch hsave)
  rw [List.append_nil] at hsettled
  exact hsettled

/-! ## Requests -/

/-- A save that is logged has ended, or goes on. -/
theorem owned_update (h : Consistent path base? world phases)
    (howned : ∀ save store action, world.instances i = .saving save store action →
      save ∈ world.log → ∃ store action, next = .saving save store action) :
    ∀ entry ∈ world.log, (entry, .ok ()) ∈ world.returned ∨
      ∃ j store action, Function.update world.instances i next j =
        .saving entry store action := by
  intro entry hentry
  rcases h.owned entry hentry with hreturned | ⟨j, store, action, hsaving⟩
  · exact Or.inl hreturned
  · by_cases hj : j = i
    · rw [hj] at hsaving
      obtain ⟨store', action', hnext⟩ := howned entry store action hsaving hentry
      exact Or.inr ⟨i, store', action', (Function.update_self ..).trans hnext⟩
    · exact Or.inr ⟨j, store, action, (Function.update_of_ne hj ..).trans hsaving⟩

/-- A request is served, and what it means for the log is known. -/
theorem serve (h : Consistent path base? world phases) {log' : List Save}
    (hallows : (phases i).Allows path (world.instances i).changes request)
    (hserves : Serves world.memory request reply after)
    (hchanges : next.changes = (world.instances i).changes)
    (hlog : log'.flatMap Save.changes =
      if replaces path request reply then
        world.log.flatMap Save.changes ++ (world.instances i).changes
      else world.log.flatMap Save.changes)
    (hnext : Fits path log' next ((phases i).next request reply))
    (hfits : ∀ j, j ≠ i → Fits path log' (world.instances j) (phases j))
    (haccounted : Accounted log' world.returned world.memory.nextTicket)
    (howned : ∀ entry ∈ log', (entry, .ok ()) ∈ world.returned ∨
      ∃ j store action, Function.update world.instances i next j =
        .saving entry store action) :
    Consistent path base?
      { world with
        memory := after
        instances := Function.update world.instances i next
        log := log' }
      (Function.update phases i ((phases i).next request reply)) := by
  have hle := hserves.nextTicket_le
  refine ⟨?_, hnext.update hfits, haccounted.mono hle, howned, ?_⟩
  · show Shared path base? (log'.flatMap Save.changes) after _
      (fun j => (Function.update world.instances i next j).changes)
    have hsame : (fun j => (Function.update world.instances i next j).changes) =
        fun j => (world.instances j).changes := by
      funext j
      by_cases hj : j = i
      · rw [hj, Function.update_self, hchanges]
      · rw [Function.update_of_ne hj]
    rw [hsame, hlog]
    exact h.shared.step hallows hserves
  · intro ended hended ticket hticket
    obtain ⟨hlt, hothers⟩ := h.spent ended hended ticket hticket
    refine ⟨Nat.lt_of_lt_of_le hlt hle, ?_⟩
    rw [Function.forall_update_iff phases fun _ phase => phase.ticket? ≠ some ticket]
    refine ⟨?_, fun j _ => hothers j⟩
    rcases ticket?_next hallows hserves with hsame | hfresh
    · rw [hsame]
      exact hothers i
    · rw [hfresh, Ne, Option.some.injEq]
      omega

/-- A request of an instance that is opened. -/
theorem serveLoad {next : Reply request → Action (Except Failure FileStore)}
    (h : Consistent path base? world phases)
    (hopening : world.instances i = .opening (.step request next))
    (hserves : Serves world.memory request reply after) :
    ∃ phases', Consistent path base?
      { world with
        memory := after
        instances := Function.update world.instances i (.opening (next reply)) } phases' := by
  have hfits := h.fits i
  rw [hopening] at hfits
  obtain ⟨hallows, hnext⟩ := hfits
  have hchanges : (world.instances i).changes = [] := by rw [hopening]; rfl
  have hkeeps := hallows.not_replaces reply
  refine ⟨_, h.serve (by rw [hchanges]; exact hallows) hserves hchanges.symm
    (by rw [hkeeps, if_neg (by simp)]) (hnext reply) (fun j _ => h.fits j) h.accounted ?_⟩
  refine h.owned_update ?_
  rw [hopening]
  exact fun _ _ _ hsaving => nomatch hsaving

section

variable {save : Save} {store : FileStore}

theorem saving_of_instance {action : Action (Except Failure Unit × FileStore)}
    (h : Consistent path base? world phases)
    (hinstance : world.instances i = .saving save store action) :
    Saving path world.log save store action (phases i) := by
  have hfits := h.fits i
  rw [hinstance] at hfits
  exact hfits

/-- A request of an instance that is saved leaves the file as it is. -/
theorem serveSave_keeps {next : Reply request → Action (Except Failure Unit × FileStore)}
    (h : Consistent path base? world phases)
    (hinstance : world.instances i = .saving save store (.step request next))
    (hserves : Serves world.memory request reply after)
    (hkeeps : replaces path request reply = false) :
    ∃ phases', Consistent path base?
      { world with
        memory := after
        instances := Function.update world.instances i
          (.saving (save.noted request reply) store (next reply)) }
      phases' := by
  have hsaving := h.saving_of_instance hinstance
  have hchanges : (world.instances i).changes = save.changes := by rw [hinstance]; rfl
  have hnoted : (save.noted request reply).changes = save.changes := by
    cases request with
    | lock target mode timeoutMs => cases reply <;> rfl
    | _ => rfl
  have hnext := hsaving.serve hserves h.accounted.issued hkeeps
  refine ⟨_, h.serve (by rw [hchanges]; exact hsaving.obeys.1) hserves
    (hnoted.trans hchanges.symm) (by rw [hkeeps, if_neg (by simp)]) hnext (fun j _ => h.fits j)
    h.accounted ?_⟩
  refine h.owned_update ?_
  intro other store' action hsame hlogged
  rw [hinstance] at hsame
  cases hsame
  exact ⟨store, next reply, by rw [hsaving.noted_eq hlogged]⟩

/-- A rename replaces the file, and the save is logged. -/
theorem serveSave_replaces {source : String}
    {next : Reply (.rename source path) → Action (Except Failure Unit × FileStore)}
    (h : Consistent path base? world phases)
    (hinstance : world.instances i = .saving save store (.step (.rename source path) next))
    (hserves : Serves world.memory (.rename source path) (Except.ok ()) after) :
    ∃ phases', Consistent path base?
      { world with
        memory := after
        instances := Function.update world.instances i (.saving save store (next (Except.ok ())))
        log := world.log ++ [save] }
      phases' := by
  have hsaving := h.saving_of_instance hinstance
  have hchanges : (world.instances i).changes = save.changes := by rw [hinstance]; rfl
  obtain ⟨document, processId, hstage, -, -, hsome⟩ := hsaving.obeys.1
  have hmode : (phases i).stage.mode? = some .exclusive := by rw [hstage]; rfl
  have hturn := hsaving.turn hmode (by rw [hstage]; rfl)
  obtain ⟨ticket, hmine, -⟩ := (h.shared.each i).held .exclusive hmode
  have hticket : save.ticket? = some ticket := hsaving.ticket.trans hmine
  have hlog : (world.log ++ [save]).flatMap Save.changes =
      world.log.flatMap Save.changes ++ save.changes := by simp
  refine ⟨_, h.serve (by rw [hchanges]; exact hsaving.obeys.1) hserves hchanges.symm
    (by rw [if_pos (by simp [replaces]), hchanges, hlog]) hsaving.replace ?_ ?_ ?_⟩
  · intro j hj
    refine (h.fits j).append ?_
    intro entry hentry
    have hapart := h.shared.apart i j (Ne.symm hj)
    rw [List.mem_singleton.1 hentry, hticket, hapart.free hmode]
    exact ⟨Ne.symm (hapart.tickets ticket hmine), by simp⟩
  · refine h.accounted.appendLog hsome hticket ((h.shared.each i).issued ticket hmine) hturn ?_
    exact fun ended hended hsame => (h.spent ended hended ticket hsame).2 i hmine
  · intro entry hentry
    rcases List.mem_append.1 hentry with hlogged | hadded
    · refine h.owned_update ?_ entry hlogged
      intro other store' action hsame _
      rw [hinstance] at hsame
      cases hsame
      exact ⟨store, _, rfl⟩
    · rw [List.mem_singleton.1 hadded]
      exact Or.inr ⟨i, store, _, Function.update_self ..⟩

/-- A request of an instance that is saved. -/
theorem serveSave {next : Reply request → Action (Except Failure Unit × FileStore)}
    (h : Consistent path base? world phases)
    (hinstance : world.instances i = .saving save store (.step request next))
    (hserves : Serves world.memory request reply after) :
    ∃ phases', Consistent path base?
      { world with
        memory := after
        instances := Function.update world.instances i
          (.saving (save.noted request reply) store (next reply))
        log := if replaces path request reply then world.log ++ [save] else world.log }
      phases' := by
  cases hreplaces : replaces path request reply with
  | false =>
    rw [if_neg (by simp)]
    exact h.serveSave_keeps hinstance hserves hreplaces
  | true =>
    rw [if_pos rfl]
    cases request with
    | rename source target =>
      cases reply with
      | error fault => cases hreplaces
      | ok moved =>
        have htarget : target = path := beq_iff_eq.1 hreplaces
        subst htarget
        exact h.serveSave_replaces hinstance hserves
    | _ => cases hreplaces

/-! ## The ends of a save -/

/-- A save ends with a result that fits the log. -/
theorem ended {store' : FileStore} {result : Except Failure Unit}
    (h : Consistent path base? world phases)
    (hdone : world.instances i = .saving save store (.done (result, store')))
    (hnext : Fits path world.log next {})
    (hsucceeded : result = .ok () → save.changes = [] ∨ save ∈ world.log)
    (hfailed : ∀ failure, result = .error failure →
      ∀ entry ∈ world.log, entry.ticket? ≠ save.ticket?) :
    Consistent path base?
      { world with
        instances := Function.update world.instances i next
        returned := world.returned ++ [(save, result)] }
      (Function.update phases i {}) := by
  refine h.settle next _ hnext ?_ ?_ ?_ ?_
  · intro other store' action hsame hlogged
    rw [hdone] at hsame
    cases hsame
    cases result with
    | ok done => exact List.mem_cons_self
    | error failure => exact absurd rfl (hfailed failure rfl save hlogged)
  · intro other hother
    rw [List.mem_singleton] at hother
    cases hother
    exact hsucceeded rfl
  · intro other failure hother
    rw [List.mem_singleton] at hother
    cases hother
    exact hfailed failure rfl
  · intro other hother
    rw [List.mem_singleton.1 hother]
    exact (h.saving_of_instance hdone).ticket

/-- A save that succeeds leaves nothing to save. -/
theorem saved {store' : FileStore} (h : Consistent path base? world phases)
    (hdone : world.instances i = .saving save store (.done (.ok (), store'))) :
    ∃ phases', Consistent path base?
      { world with
        instances := Function.update world.instances i (.ready [] store')
        returned := world.returned ++ [(save, .ok ())] }
      phases' := by
  have hsaving := h.saving_of_instance hdone
  obtain ⟨-, hpath, hsuccess, -⟩ := hsaving.obeys
  obtain ⟨hpending, hlogged⟩ := hsuccess rfl
  refine ⟨_, h.ended hdone ⟨hpath.trans hsaving.path_eq, hpending⟩ (fun _ => ?_)
    fun _ hfailed => nomatch hfailed⟩
  rw [← hsaving.pending]
  exact hlogged.imp_right hsaving.logged

/-- A save that fails leaves everything to save. -/
theorem failed {store' : FileStore} {failure : Failure} (h : Consistent path base? world phases)
    (hdone : world.instances i = .saving save store (.done (.error failure, store'))) :
    ∃ phases', Consistent path base?
      { world with
        instances := Function.update world.instances i (.ready save.changes store')
        returned := world.returned ++ [(save, .error failure)] }
      phases' := by
  have hsaving := h.saving_of_instance hdone
  obtain ⟨-, -, -, hfailure⟩ := hsaving.obeys
  obtain ⟨rfl, hreplaced⟩ := hfailure failure rfl
  exact ⟨_, h.ended hdone ⟨hsaving.path_eq, hsaving.pending⟩ (fun hsucceeded => nomatch hsucceeded)
    fun _ _ => hsaving.unlogged hreplaced⟩

end

/-- Whatever happens next, the world stays consistent. -/
theorem step {world' : World} (h : Consistent path base? world phases)
    (hstep : Step path world world') : ∃ phases', Consistent path base? world' phases' := by
  cases hstep with
  | load i timeoutMs hclosed =>
    generalize hload : FileStore.load path timeoutMs = action
    refine ⟨_, h.idle (.opening action) (obeys_load hload) ?_⟩
    rw [hclosed]
    exact fun _ _ _ hsaving => nomatch hsaving
  | serveLoad i hopening hserves => exact h.serveLoad hopening hserves
  | loaded i hopened =>
    have hfits := h.fits i
    rw [hopened] at hfits
    refine ⟨_, h.idle _ (hfits.2 _ rfl) ?_⟩
    rw [hopened]
    exact fun _ _ _ hsaving => nomatch hsaving
  | refused i hopened =>
    refine ⟨_, h.idle _ trivial ?_⟩
    rw [hopened]
    exact fun _ _ _ hsaving => nomatch hsaving
  | record i change hready =>
    have hfits := h.fits i
    rw [hready] at hfits
    refine ⟨_, h.idle _ ⟨hfits.1, congrArg (· ++ [change]) hfits.2⟩ ?_⟩
    rw [hready]
    exact fun _ _ _ hsaving => nomatch hsaving
  | save i hready =>
    have hfits := h.fits i
    rw [hready] at hfits
    refine ⟨_, h.idle _ (Saving.start hfits.1 hfits.2 ?_) ?_⟩
    · intro entry hentry
      obtain ⟨ticket, hsome, -⟩ := h.accounted.issued entry hentry
      exact ⟨ticket, hsome⟩
    · rw [hready]
      exact fun _ _ _ hsaving => nomatch hsaving
  | serveSave i hsaving hserves => exact h.serveSave hsaving hserves
  | saved i hdone => exact h.saved hdone
  | failed i hdone => exact h.failed hdone
  | close i hready =>
    refine ⟨_, h.idle _ trivial ?_⟩
    rw [hready]
    exact fun _ _ _ hsaving => nomatch hsaving

end Consistent

/-- Every world that some steps lead to is consistent. -/
theorem Reaches.consistent {path : String} {base? : Option Document} {memory : Memory}
    {world : World} (h : Reaches path { memory } world) (hwell : memory.tree.WellFormed)
    (hfile : Carries path base? [] memory) : ∃ phases, Consistent path base? world phases := by
  induction h with
  | refl => exact ⟨_, .start hwell hfile⟩
  | step _ hstep ih =>
    obtain ⟨phases, hconsistent⟩ := ih
    exact hconsistent.step hstep

/-! ## What is saved -/

/-- What is first in one save, and in none after it, is first in the whole
log. -/
theorem findSome?_log {α : Type} {f : Change → Option α} {value : α} {save : Save}
    (earlier : List Save) {later : List Save}
    (hvalue : save.changes.reverse.findSome? f = some value)
    (hlater : ∀ other ∈ later, other.changes.reverse.findSome? f = none) :
    ((earlier ++ save :: later).flatMap Save.changes).reverse.findSome? f = some value := by
  have hnone : (later.flatMap Save.changes).reverse.findSome? f = none := by
    rw [List.findSome?_eq_none_iff]
    intro change hchange
    obtain ⟨other, hother, hmem⟩ := List.mem_flatMap.1 (List.mem_reverse.1 hchange)
    exact List.findSome?_eq_none_iff.1 (hlater other hother) change (List.mem_reverse.2 hmem)
  rw [List.flatMap_append, List.flatMap_cons, List.reverse_append, List.reverse_append,
    List.findSome?_append, List.findSome?_append, hnone, hvalue]
  rfl

/-- The first document with the changes of all saves in the log. -/
def World.document (world : World) (base? : Option Document) : Document :=
  (base?.getD {}).applyAll (world.log.flatMap Save.changes)

namespace World

variable {world : World} {base? : Option Document} {earlier later : List Save} {save : Save}

theorem contains_document (hlog : world.log = earlier ++ save :: later) {change : Change}
    (hchange : change ∈ save.changes) :
    (world.document base?).contains change.collection = true := by
  have hmem : change ∈ world.log.flatMap Save.changes := by
    rw [hlog]
    exact List.mem_flatMap.2 ⟨save, List.mem_append_right _ List.mem_cons_self, hchange⟩
  rw [document, Document.contains_applyAll, Bool.or_eq_true, List.any_eq_true]
  exact Or.inl ⟨change, hmem, by simp⟩

theorem getString?_document (hlog : world.log = earlier ++ save :: later)
    {collection key value : String} (hvalue : save.string? collection key = some value)
    (hlater : ∀ other ∈ later, other.string? collection key = none) :
    (world.document base?).getString? collection key = some value := by
  rw [document, Document.getString?_applyAll, hlog, findSome?_log earlier hvalue hlater]
  rfl

theorem getBool?_document (hlog : world.log = earlier ++ save :: later)
    {collection key : String} {value : Bool} (hvalue : save.bool? collection key = some value)
    (hlater : ∀ other ∈ later, other.bool? collection key = none) :
    (world.document base?).getBool? collection key = some value := by
  rw [document, Document.getBool?_applyAll, hlog, findSome?_log earlier hvalue hlater]
  rfl

/-- Two saves about different names may be logged in either order. -/
theorem agrees_document {other : World} {front back : List (List Change)}
    {changes changes' : List Change}
    (hlog : world.log.map Save.changes = front ++ [changes, changes'] ++ back)
    (hlog' : other.log.map Save.changes = front ++ [changes', changes] ++ back)
    (hdisjoint : AreDisjoint changes changes') :
    (world.document base?).Agrees (other.document base?) := by
  have hflat (first second : List Change) :
      (front ++ [first, second] ++ back).flatten =
        front.flatten ++ first ++ second ++ back.flatten := by
    simp
  rw [document, document, List.flatMap_def, List.flatMap_def, hlog, hlog', hflat, hflat]
  exact hdisjoint.agrees_swap _ _ _

end World

/-- What a path leads to at first: no file, or a file with a document. -/
def Found (memory : Memory) (path : String) : Option Document → Prop
  | none => Missing memory path
  | some document => Decodes memory path document

/-- At first a file carries no changes. -/
theorem Found.carries {memory : Memory} {path : String} {base? : Option Document}
    (h : Found memory path base?) : Carries path base? [] memory := by
  cases base? with
  | none => exact Or.inl ⟨h, rfl, rfl⟩
  | some document => exact Or.inr h

/-- The file stays missing until a save replaces it. -/
theorem Consistent.file {path : String} {base? : Option Document} {world : World}
    {phases : Nat → Phase} (h : Consistent path base? world phases) :
    (base? = none ∧ world.log = [] ∧ Missing world.memory path) ∨
      Decodes world.memory path (world.document base?) := by
  rcases h.shared.file with ⟨hmissing, hbase, hdone⟩ | hdecodes
  · refine Or.inl ⟨hbase, ?_, hmissing⟩
    cases hlog : world.log with
    | nil => rfl
    | cons save later =>
      rw [hlog, List.flatMap_cons, List.append_eq_nil_iff] at hdone
      exact absurd hdone.1 (h.accounted.changed save (by rw [hlog]; exact List.mem_cons_self))
  · exact Or.inr hdecodes

theorem Consistent.decodes {path : String} {base? : Option Document} {world : World}
    {phases : Nat → Phase} (h : Consistent path base? world phases)
    (hsome : world.log.map Save.changes ≠ []) :
    Decodes world.memory path (world.document base?) := by
  rcases h.file with ⟨-, hnone, -⟩ | hdecodes
  · rw [hnone] at hsome
    exact absurd rfl hsome
  · exact hdecodes

/-- Opened, changed and saved in any order, the stores on a file lose no update,
whichever requests fail, apart from looks into the file.  The file stays
missing until a save replaces it, and holds the first document with the changes
of all such saves otherwise, in the order of their locks. -/
theorem Reaches.keeps_updates {path : String} {base? : Option Document} {memory : Memory}
    {world : World} (hwell : memory.tree.WellFormed) (hfound : Found memory path base?)
    (hreach : Reaches path { memory } world) :
    ((base? = none ∧ world.log = [] ∧ Missing world.memory path) ∨
      Decodes world.memory path (world.document base?)) ∧
    world.log.Pairwise Save.Precedes ∧
    -- The log lists the saves that succeed, and none that failed.
    (∀ save ∈ world.log, save.changes ≠ [] ∧ ((save, .ok ()) ∈ world.returned ∨
      ∃ i store action, world.instances i = .saving save store action)) ∧
    (∀ save, (save, .ok ()) ∈ world.returned → save.changes = [] ∨ save ∈ world.log) ∧
    (∀ save failure, (save, .error failure) ∈ world.returned →
      ∀ other ∈ world.log, other.ticket? ≠ save.ticket?) ∧
    -- What was not saved is kept for the next save.
    (∀ i unsaved store, world.instances i = .ready unsaved store → store.pending = unsaved) ∧
    -- What was saved is there until another save sets it.
    (∀ earlier save later, world.log = earlier ++ save :: later →
      (∀ change ∈ save.changes,
        (world.document base?).contains change.collection = true) ∧
      (∀ collection key value, save.string? collection key = some value →
        (∀ other ∈ later, other.string? collection key = none) →
        (world.document base?).getString? collection key = some value) ∧
      (∀ collection key value, save.bool? collection key = some value →
        (∀ other ∈ later, other.bool? collection key = none) →
        (world.document base?).getBool? collection key = some value)) ∧
    -- Two saves about different names may come in either order.
    (∀ (other : World) front back changes changes', Reaches path { memory } other →
      world.log.map Save.changes = front ++ [changes, changes'] ++ back →
      other.log.map Save.changes = front ++ [changes', changes] ++ back →
      AreDisjoint changes changes' →
      ∃ document document', Decodes world.memory path document ∧
        Decodes other.memory path document' ∧ document.Agrees document') := by
  obtain ⟨phases, h⟩ := hreach.consistent hwell hfound.carries
  refine ⟨h.file, h.accounted.ordered, ?_, h.accounted.succeeded, h.accounted.failed, ?_, ?_, ?_⟩
  · exact fun save hsave => ⟨h.accounted.changed save hsave, h.owned save hsave⟩
  · intro i unsaved store hready
    have hfits := h.fits i
    rw [hready] at hfits
    exact hfits.2
  · intro earlier save later hlog
    refine ⟨?_, ?_, ?_⟩
    · exact fun change hchange => World.contains_document hlog hchange
    · exact fun collection key value => World.getString?_document hlog
    · exact fun collection key value => World.getBool?_document hlog
  · intro other front back changes changes' hother hlog hlog' hdisjoint
    obtain ⟨phases', h'⟩ := hother.consistent hwell hfound.carries
    refine ⟨_, _, h.decodes ?_, h'.decodes ?_, World.agrees_document hlog hlog' hdisjoint⟩
    · rw [hlog]
      simp
    · rw [hlog']
      simp

/-- Two stores are opened on a missing file.  The second is not saved while
the first holds the lock, and is saved afterwards. -/
def sampleMoves : List Move :=
  [.load 0 10, .load 1 10] ++ List.replicate 8 (.turn 0) ++ List.replicate 8 (.turn 1) ++
    [.record 0 (.setString "a" "k" "v"), .record 1 (.setBool "b" "k" true), .save 0, .save 1] ++
    List.replicate 4 (.turn 0) ++ List.replicate 9 (.turn 1) ++ List.replicate 12 (.turn 0) ++
    [.save 1] ++ List.replicate 13 (.turn 1)

theorem keeps_updates_sampleMoves :
    let world := World.play "p" { memory := {} } sampleMoves
    let document : Document :=
      Document.applyAll {} [.setString "a" "k" "v", .setBool "b" "k" true]
    (({} : Memory).tree.WellFormed ∧ Found {} "p" none ∧ Reaches "p" { memory := {} } world) ∧
      world.log.map Save.changes = [[.setString "a" "k" "v"], [.setBool "b" "k" true]] ∧
      Decodes world.memory "p" document := by
  intro world document
  have hwell : ({} : Memory).tree.WellFormed := Tree.wellFormed_empty
  have hfound : Found {} "p" none := missing_of_lexical (by decide) fun content hnode => by
    cases hnode
  have hreach : Reaches "p" { memory := {} } world := World.reaches_play .refl sampleMoves
  have hlog : world.log.map Save.changes =
      [[.setString "a" "k" "v"], [.setBool "b" "k" true]] := by
    decide +kernel
  refine ⟨⟨hwell, hfound, hreach⟩, hlog, ?_⟩
  rcases (Reaches.keeps_updates hwell hfound hreach).1 with ⟨-, hnone, -⟩ | hdecodes
  · rw [hnone] at hlog
    cases hlog
  · rw [World.document, List.flatMap_def, hlog] at hdecodes
    exact hdecodes

end TestSkeleton.Preferences
