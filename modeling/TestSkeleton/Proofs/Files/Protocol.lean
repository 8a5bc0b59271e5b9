import TestSkeleton.Files.Guarded
import Mathlib.Logic.Function.Basic

/-!
# Protocols of requests

A protocol follows an action from one request to the next and says which
request may come when.  An action obeys it if all its requests are due,
whatever the replies are, and if it ends in a state that fits its result.

* `Protocol.Obeys` says so, and `obeys_andThen` takes two actions in turn
  apart.
* `obeys_acquire` and `obeys_withLock` are the ends of a guarded action, and
  `obeys_replace` those of a guarded replacement.
* `forall_update₂` and `pairwise_update` are for several parties that follow a
  protocol, each in a state of its own, when one of them goes on.
-/

namespace TestSkeleton.Files

/-- Which requests are due in some states.  Directories may be made at any
time, and a process may ask for its number. -/
structure Protocol (σ : Type) where
  Allows : σ → Request → Prop
  next : σ → (request : Request) → Reply request → σ
  allows_createDirs : ∀ state path, Allows state (.createDirs path)
  next_createDirs : ∀ state path reply, next state (.createDirs path) reply = state
  allows_processId : ∀ state, Allows state .processId
  next_processId : ∀ state reply, next state .processId reply = state

namespace Protocol

variable {σ α β : Type} {protocol : Protocol σ} {state : σ} {path : String}

/-- Whether an action makes only requests that are due, and ends with a
result and in a state that fit. -/
def Obeys (protocol : Protocol σ) (ends : α → σ → Prop) : σ → Action α → Prop
  | state, .done result => ends result state
  | state, .step request next => protocol.Allows state request ∧
      ∀ reply, Obeys protocol ends (protocol.next state request reply) (next reply)

/-- Two actions in turn. -/
theorem obeys_andThen {ends : β → σ → Prop} {action : Action α} {next : α → Action β} :
    protocol.Obeys ends state (action.andThen next) ↔ protocol.Obeys
      (fun result state => protocol.Obeys ends state (next result)) state action := by
  induction action generalizing state with
  | done result => exact Iff.rfl
  | step request k ih => exact and_congr_right fun _ => forall_congr' fun reply => ih reply

theorem Obeys.mono {ends ends' : α → σ → Prop} {action : Action α}
    (h : protocol.Obeys ends state action)
    (hends : ∀ result state, ends result state → ends' result state) :
    protocol.Obeys ends' state action := by
  induction action generalizing state with
  | done result => exact hends result state h
  | step request k ih => exact ⟨h.1, fun reply => ih reply (h.2 reply)⟩

theorem Obeys.ofRequest {request : Request} {ends : Reply request → σ → Prop}
    (hallows : protocol.Allows state request)
    (h : ∀ reply, ends reply (protocol.next state request reply)) :
    protocol.Obeys ends state (Action.ofRequest request) :=
  ⟨hallows, h⟩

theorem obeys_createParent {ends : Except Fault Unit → σ → Prop}
    (h : ∀ reply, ends reply state) : protocol.Obeys ends state (createParent path) := by
  rw [createParent]
  split
  · refine .ofRequest (protocol.allows_createDirs state _) fun reply => ?_
    rw [protocol.next_createDirs]
    exact h reply
  · exact h _

/-! ## Locks -/

section

variable {mode : LockMode} {timeoutMs : Nat}

/-- A lock is refused, or held from now on. -/
theorem obeys_acquire {ends : Except Failure Nat → σ → Prop}
    (hallows : protocol.Allows state (.lock path mode timeoutMs))
    (hstays : ∀ fault, protocol.next state (.lock path mode timeoutMs) (Except.error fault) = state)
    (hfailed : ∀ fault, ends (.error (.fileWrite path fault)) state)
    (htimeout : ends (.error (.lockTimeout path)) state)
    (hheld : ∀ ticket, ends (.ok ticket)
      (protocol.next state (.lock path mode timeoutMs) (Except.ok ticket))) :
    protocol.Obeys ends state (acquire path mode timeoutMs) := by
  rw [acquire, Action.bind_eq, obeys_andThen]
  refine obeys_createParent fun reply => ?_
  cases reply with
  | error fault => exact hfailed fault
  | ok made =>
    rw [Action.bind_eq, obeys_andThen]
    refine .ofRequest hallows fun reply => ?_
    cases reply with
    | ok ticket => exact hheld ticket
    | error fault =>
      rw [hstays]
      cases fault with
      | timedOut => exact htimeout
      | system fault => exact hfailed fault

/-- A guarded action gives its lock back at the end. -/
theorem obeys_withLock {ends : α → σ → Prop} {refused : Failure → α} {body : Action α}
    (hallows : protocol.Allows state (.lock path mode timeoutMs))
    (hstays : ∀ fault, protocol.next state (.lock path mode timeoutMs) (Except.error fault) = state)
    (hfailed : ∀ fault, ends (refused (.fileWrite path fault)) state)
    (htimeout : ends (refused (.lockTimeout path)) state)
    (hbody : ∀ ticket, protocol.Obeys
      (fun result last => protocol.Allows last (.release ticket) ∧
        ends result (protocol.next last (.release ticket) ()))
      (protocol.next state (.lock path mode timeoutMs) (Except.ok ticket)) body) :
    protocol.Obeys ends state (withLock path mode timeoutMs refused body) := by
  rw [withLock, Action.bind_eq, obeys_andThen]
  refine obeys_acquire hallows hstays hfailed htimeout fun ticket => ?_
  simp only [Action.bind_eq]
  rw [obeys_andThen]
  refine (hbody ticket).mono ?_
  rintro result last ⟨hrelease, hends⟩
  exact ⟨hrelease, fun _ => hends⟩

end

/-! ## Replacing a file -/

/-- Whether the next content of a file may be written beside it from some
state, and be renamed over it.  A step that fails leads back to that state. -/
structure MayReplace (protocol : Protocol σ) (state : σ) (path : String) (content : ByteArray)
    (written : String → σ) (replaced : σ) : Prop where
  write : ∀ processId, protocol.Allows state (.write (temporaryName path processId) content)
  write_ok : ∀ temporary,
    protocol.next state (.write temporary content) (Except.ok ()) = written temporary
  write_error : ∀ temporary fault,
    protocol.next state (.write temporary content) (Except.error fault) = state
  rename : ∀ processId, protocol.Allows (written (temporaryName path processId))
    (.rename (temporaryName path processId) path)
  rename_ok : ∀ temporary,
    protocol.next (written temporary) (.rename temporary path) (Except.ok ()) = replaced
  rename_error : ∀ temporary fault,
    protocol.next (written temporary) (.rename temporary path) (Except.error fault) = state
  remove : ∀ processId, protocol.Allows state (.remove (temporaryName path processId))
  remove_next : ∀ temporary reply, protocol.next state (.remove temporary) reply = state

/-- A file is replaced, or the replacement leads back to where it began. -/
theorem obeys_replace {ends : Except Failure Unit → σ → Prop} {content : ByteArray}
    {written : String → σ} {replaced : σ}
    (h : protocol.MayReplace state path content written replaced)
    (hreplaced : ends (.ok ()) replaced)
    (hfailed : ∀ fault, ends (.error (.fileWrite path fault)) state) :
    protocol.Obeys ends state (replace path content) := by
  rw [replace, Action.bind_eq, obeys_andThen]
  refine obeys_createParent fun reply => ?_
  cases reply with
  | error fault => exact hfailed _
  | ok made =>
    simp only [Action.bind_eq]
    rw [obeys_andThen]
    refine .ofRequest (protocol.allows_processId state) fun processId => ?_
    rw [protocol.next_processId, obeys_andThen, writeAndRename]
    have hremove (fault : Fault) : protocol.Obeys ends state
        ((Action.remove (temporaryName path processId)).andThen fun _ =>
          .done (.error (.fileWrite path fault))) := by
      rw [obeys_andThen]
      refine .ofRequest (h.remove processId) fun reply => ?_
      rw [h.remove_next]
      exact hfailed fault
    simp only [Action.bind_eq]
    rw [obeys_andThen]
    refine .ofRequest (h.write processId) fun reply => ?_
    cases reply with
    | error fault =>
      rw [h.write_error]
      exact hremove fault
    | ok done =>
      rw [h.write_ok]
      refine .ofRequest (h.rename processId) fun reply => ?_
      cases reply with
      | error fault =>
        rw [h.rename_error]
        exact hremove fault
      | ok moved =>
        rw [h.rename_ok]
        exact hreplaced

end Protocol

/-! ## Several parties -/

/-- If one party goes on in both of its states, what holds of each party stays
true once it holds of that one. -/
theorem forall_update₂ {σ τ : Type} (fits : Nat → σ → τ → Prop) {states : Nat → σ}
    {others : Nat → τ} {i : Nat} {state : σ} {other : τ} (hself : fits i state other)
    (hothers : ∀ j, j ≠ i → fits j (states j) (others j)) (j : Nat) :
    fits j (Function.update states i state j) (Function.update others i other j) := by
  by_cases hj : j = i
  · rw [hj, Function.update_self, Function.update_self]
    exact hself
  · rw [Function.update_of_ne hj, Function.update_of_ne hj]
    exact hothers j hj

/-- If one party goes on, what holds of any two stays true once it holds of
that party and each of the others. -/
theorem pairwise_update {σ : Type} (related : σ → σ → Prop)
    (hsymm : ∀ {state other}, related state other → related other state) {states : Nat → σ}
    {i : Nat} {state : σ} (h : ∀ j k, j ≠ k → related (states j) (states k))
    (hnew : ∀ j, j ≠ i → related state (states j)) (j k : Nat) (hne : j ≠ k) :
    related (Function.update states i state j) (Function.update states i state k) := by
  by_cases hj : j = i
  · have hk : k ≠ i := fun hk => hne (hj.trans hk.symm)
    rw [hj, Function.update_self, Function.update_of_ne hk]
    exact hnew k hk
  · rw [Function.update_of_ne hj]
    by_cases hk : k = i
    · rw [hk, Function.update_self]
      exact hsymm (hnew j hj)
    · rw [Function.update_of_ne hk]
      exact h j k hne

end TestSkeleton.Files
