import TestSkeleton.Proofs.Writers.Interleaving
import TestSkeleton.Proofs.Writers.Sequence

/-!
# Writers serialize

However the calls on one test file are interleaved, the file holds what the
calls that succeed make of it one after another, in the order in which they
were granted the lock.

* `Accounted` is what is known of the calls that were granted the lock and of
  those that replaced the file.
* `Consistent` is the invariant of a world, and `Consistent.step` keeps it.
* `Welcomes` says that the file takes cases, which is kept beside it where no
  call writes a text that takes none.
* `Serializes` is what follows for the calls and for the file, and
  `Reaches.serializes` the result.

Every request that changes something may fail.  A look into a file or for a
file is answered right here (`Memory.Serves`): a call to which an existing
file is not shown would write a new document over it.
-/

namespace TestSkeleton.Writers

open Files
open Generation (WriteOutcome)
open Memory (Serves Frames KeepsApart)
open Preferences (replaces)

/-! ## The log -/

/-- What is known of the calls that were granted the lock, and of those that
replaced the file. -/
structure Accounted (calls : Nat → Call) (base? text? : Option String) (phases : Nat → Phase)
    (granted log : List Nat) : Prop where
  contents : inSequence calls base? log = .ok text?
  mem_granted : ∀ i, i ∈ granted ↔ (phases i).stage ≠ .before
  nodup : granted.Nodup
  order : log.Sublist granted
  /-- Nobody is granted the lock or replaces the file while a call works. -/
  turn : ∀ i, (phases i).stage.isWorking = true → (phases i).stage.replaced? = none →
    ∃ earlier, granted = earlier ++ [i] ∧ log.Sublist earlier
  replaced : ∀ i found?, (phases i).stage.replaced? = some found? →
    ∃ earlier later, log = earlier ++ i :: later ∧ inSequence calls base? earlier = .ok found?
  unlogged : ∀ i, (phases i).stage.replaced? = none → i ∉ log

/-- Whether the text in the file takes cases, and every text that a call found
there does. -/
structure Welcomes (text? : Option String) (phases : Nat → Phase) : Prop where
  accepted : ∀ text, text? = some text → Accepts text
  found : ∀ i text, (phases i).stage.found? = some (some text) → Accepts text

section

variable {lockPath path : String} {calls : Nat → Call} {base? text? : Option String}
  {phases : Nat → Phase} {granted log : List Nat} {i : Nat}
  {memory after : Memory} {request : Request} {reply : Reply request}

/-- A text that a call found was found before, or just now. -/
theorem found?_next {call : Call} {phase : Phase}
    (hallows : phase.Allows lockPath path call request) {found? : Option String}
    (h : (phase.next request reply).stage.found? = some found?) :
    phase.stage.found? = some found? ∨ (phase.next request reply).stage = .found found? := by
  obtain ⟨ticket?, stage⟩ := phase
  cases request with
  | lock target mode timeoutMs =>
    cases reply with
    | ok ticket => cases h
    | error fault => exact Or.inl h
  | «exists» target =>
    obtain ⟨rfl, -⟩ := hallows
    cases reply with
    | true => cases h
    | false =>
      cases h
      exact Or.inr rfl
  | read target =>
    obtain ⟨rfl, -⟩ := hallows
    rw [Phase.next] at h ⊢
    cases htext : Preferences.textOf reply with
    | error fault =>
      rw [htext] at h
      cases h
    | ok text =>
      rw [htext] at h
      cases h
      exact Or.inr rfl
  | write target content =>
    obtain ⟨text?, text, processId, rfl, -⟩ := hallows
    cases reply with
    | error fault => exact Or.inl h
    | ok written => cases h
  | rename source target =>
    obtain ⟨text?, processId, rfl, -⟩ := hallows
    cases reply with
    | error fault =>
      cases h
      exact Or.inr rfl
    | ok moved => cases h
  | _ => exact Or.inl h

namespace Welcomes

theorem start (haccepted : ∀ text, base? = some text → Accepts text) :
    Welcomes base? fun _ => {} where
  accepted := haccepted
  found := fun _ _ h => nomatch h

/-- A request that does not replace the file. -/
theorem serve (h : Welcomes text? phases)
    (hallows : (phases i).Allows lockPath path (calls i) request)
    (hknows : Knows (calls i) text? after ((phases i).next request reply).stage) :
    Welcomes text? (Function.update phases i ((phases i).next request reply)) := by
  refine ⟨h.accepted, ?_⟩
  intro j text hfound
  by_cases hj : j = i
  · rw [hj, Function.update_self] at hfound
    rcases found?_next hallows hfound with hold | hnew
    · exact h.found i text hold
    · rw [hnew] at hknows
      exact h.accepted text hknows.symm
  · rw [Function.update_of_ne hj] at hfound
    exact h.found j text hfound

/-- A call replaces the file. -/
theorem replace (h : Welcomes text? phases) {text : String} {phase : Phase}
    (hsound : (calls i).IsSound) (hwrite : (calls i).write text? = .ok text)
    (hnext : phase.stage = .replaced text?) :
    Welcomes (some text) (Function.update phases i phase) := by
  constructor
  · rintro _ ⟨⟩
    obtain ⟨text', hwrite', haccepts⟩ := hsound.write h.accepted
    rw [hwrite, Except.ok.injEq] at hwrite'
    rw [hwrite']
    exact haccepts
  · intro j text hfound
    by_cases hj : j = i
    · rw [hj, Function.update_self, hnext] at hfound
      cases hfound
    · rw [Function.update_of_ne hj] at hfound
      exact h.found j text hfound

end Welcomes

namespace Accounted

theorem start : Accounted calls base? base? (fun _ => {}) [] [] where
  contents := rfl
  mem_granted := fun _ => ⟨fun h => (nomatch h), fun h => absurd rfl h⟩
  nodup := List.nodup_nil
  order := List.Sublist.refl []
  turn := fun _ h => nomatch h
  replaced := fun _ _ h => nomatch h
  unlogged := fun _ _ => List.not_mem_nil

/-- A request that neither begins the work nor replaces the file. -/
theorem serve (h : Accounted calls base? text? phases granted log)
    (hallows : (phases i).Allows lockPath path (calls i) request)
    (hgrants : grants request reply = false) (hkeeps : replaces path request reply = false) :
    Accounted calls base? text? (Function.update phases i ((phases i).next request reply))
      granted log := by
  obtain ⟨-, hbefore, hworking, hreplaced⟩ := hallows.next_kept reply hgrants
  have hreplaced := hreplaced hkeeps
  -- what the phase of the call and the phases of the others have in common
  have hphase (j : Nat) (phase : Phase)
      (hphase : Function.update phases i ((phases i).next request reply) j = phase) :
      (phase.stage = .before ↔ (phases j).stage = .before) ∧
        (phase.stage.isWorking = true → (phases j).stage.isWorking = true) ∧
        phase.stage.replaced? = (phases j).stage.replaced? := by
    by_cases hj : j = i
    · rw [hj, Function.update_self] at hphase
      rw [← hphase, hj]
      exact ⟨hbefore, hworking, hreplaced⟩
    · rw [Function.update_of_ne hj] at hphase
      rw [← hphase]
      exact ⟨Iff.rfl, id, rfl⟩
  refine ⟨h.contents, ?_, h.nodup, h.order, ?_, ?_, ?_⟩
  · intro j
    rw [h.mem_granted j]
    exact not_congr (hphase j _ rfl).1.symm
  · intro j hworks hnone
    rw [(hphase j _ rfl).2.2] at hnone
    exact h.turn j ((hphase j _ rfl).2.1 hworks) hnone
  · intro j found? hsome
    rw [(hphase j _ rfl).2.2] at hsome
    exact h.replaced j found? hsome
  · intro j hnone
    rw [(hphase j _ rfl).2.2] at hnone
    exact h.unlogged j hnone

/-- A call is granted the lock. -/
theorem grant (h : Accounted calls base? text? phases granted log) (ticket : Nat)
    (hbefore : (phases i).stage = .before) (hfree : ∀ j, (phases j).stage.isWorking = false) :
    Accounted calls base? text? (Function.update phases i ⟨some ticket, .locked⟩)
      (granted ++ [i]) log := by
  have hnot : i ∉ granted := fun hmem => (h.mem_granted i).1 hmem hbefore
  refine ⟨h.contents, ?_, ?_, ?_, ?_, ?_, ?_⟩
  · intro j
    rw [List.mem_append, List.mem_singleton, h.mem_granted j]
    by_cases hj : j = i
    · rw [hj, Function.update_self]
      simp
    · rw [Function.update_of_ne hj]
      simp [hj]
  · exact List.nodup_append.2 ⟨h.nodup, by simp, by
      rintro j hj k hk rfl
      rw [List.mem_singleton.1 hk] at hj
      exact hnot hj⟩
  · exact h.order.trans (List.sublist_append_left granted [i])
  · intro j hworks hnone
    by_cases hj : j = i
    · exact ⟨granted, by rw [hj], h.order⟩
    · rw [Function.update_of_ne hj, hfree j] at hworks
      cases hworks
  · intro j found? hsome
    by_cases hj : j = i
    · rw [hj, Function.update_self] at hsome
      cases hsome
    · rw [Function.update_of_ne hj] at hsome
      exact h.replaced j found? hsome
  · intro j hnone
    by_cases hj : j = i
    · rw [hj]
      exact h.unlogged i (by rw [hbefore]; rfl)
    · rw [Function.update_of_ne hj] at hnone
      exact h.unlogged j hnone

/-- A call replaces the file. -/
theorem replace (h : Accounted calls base? text? phases granted log) {text temporary : String}
    {phase : Phase} (hwrite : (calls i).write text? = .ok text)
    (hstage : (phases i).stage = .written text? temporary)
    (hnext : phase.stage = .replaced text?)
    (halone : ∀ j, j ≠ i → (phases j).stage.isWorking = false) :
    Accounted calls base? (some text) (Function.update phases i phase) granted (log ++ [i]) := by
  have hworks : (phases i).stage.isWorking = true := by rw [hstage]; rfl
  have hnone : (phases i).stage.replaced? = none := by rw [hstage]; rfl
  refine ⟨inSequence_concat h.contents hwrite, ?_, h.nodup, ?_, ?_, ?_, ?_⟩
  · intro j
    rw [h.mem_granted j]
    by_cases hj : j = i
    · rw [hj, Function.update_self, hstage, hnext]
      simp
    · rw [Function.update_of_ne hj]
  · obtain ⟨earlier, hgranted, horder⟩ := h.turn i hworks hnone
    rw [hgranted]
    exact horder.append_right [i]
  · intro j hworks' hnone'
    by_cases hj : j = i
    · rw [hj, Function.update_self, hnext] at hnone'
      cases hnone'
    · rw [Function.update_of_ne hj, halone j hj] at hworks'
      cases hworks'
  · intro j found? hsome
    by_cases hj : j = i
    · rw [hj, Function.update_self, hnext] at hsome
      cases hsome
      exact ⟨log, [], by rw [hj], h.contents⟩
    · rw [Function.update_of_ne hj] at hsome
      obtain ⟨earlier, later, hlog, hearlier⟩ := h.replaced j found? hsome
      exact ⟨earlier, later ++ [i], by rw [hlog, List.append_assoc, List.cons_append], hearlier⟩
  · intro j hnone'
    by_cases hj : j = i
    · rw [hj, Function.update_self, hnext] at hnone'
      cases hnone'
    · rw [Function.update_of_ne hj] at hnone'
      rw [List.mem_append, List.mem_singleton]
      rintro (hmem | hsame)
      · exact h.unlogged j hnone' hmem
      · exact hj hsame

end Accounted

end

/-! ## Worlds -/

/-- What is known of a call in some phase. -/
def Fits (lockPath path : String) (call : Call) : Caller → Phase → Prop
  | .idle, phase => phase = {}
  | .running action, phase => (protocol lockPath path call).Obeys (Ends call) phase action
  | .ended result, phase => Ends call result phase

/-- The invariant of a world. -/
structure Consistent (lockDir path : String) (calls : Nat → Call) (base? text? : Option String)
    (world : World) (phases : Nat → Phase) : Prop where
  shared : Shared (StatePaths.lockFile lockDir path) path calls text? world.memory phases
  accounted : Accounted calls base? text? phases world.granted world.log
  fits : ∀ i, Fits (StatePaths.lockFile lockDir path) path (calls i) (world.callers i) (phases i)

namespace Consistent

variable {lockDir path : String} {calls : Nat → Call} {base? text? : Option String}
  {world world' : World} {phases : Nat → Phase} {i : Nat}

theorem start {memory : Memory} (hwell : memory.tree.WellFormed)
    (hapart : KeepsApart memory path (StatePaths.lockFile lockDir path))
    (hfile : FileAt memory path base?) :
    Consistent lockDir path calls base? base? { memory } fun _ => {} where
  shared := .start hwell hapart (fun _ => .lockFile_temporary lockDir path path _) hfile
  accounted := .start
  fits := fun _ => rfl

/-- One call goes on, and what is known of the others stays. -/
theorem fits_update (h : Consistent lockDir path calls base? text? world phases) (caller : Caller)
    (phase : Phase) (hcaller : Fits (StatePaths.lockFile lockDir path) path (calls i) caller phase)
    (j : Nat) : Fits (StatePaths.lockFile lockDir path) path (calls j)
      (Function.update world.callers i caller j) (Function.update phases i phase j) :=
  forall_update₂ (fun j => Fits (StatePaths.lockFile lockDir path) path (calls j)) hcaller
    (fun j _ => h.fits j) j

/-- A call makes its next request.  The file goes on taking cases if the call
writes only texts that do. -/
theorem serve {request : Request} {reply : Reply request} {after : Memory}
    {next : Reply request → Action (Except Failure WriteOutcome)}
    (h : Consistent lockDir path calls base? text? world phases)
    (hrunning : world.callers i = .running (.step request next))
    (hserves : Serves world.memory request reply after) :
    ∃ text?', ((calls i).IsSound → Welcomes text? phases →
      Welcomes text?' (Function.update phases i ((phases i).next request reply))) ∧
      Consistent lockDir path calls base? text?'
      { memory := after
        callers := Function.update world.callers i (.running (next reply))
        granted := if grants request reply then world.granted ++ [i] else world.granted
        log := if replaces path request reply then world.log ++ [i] else world.log }
      (Function.update phases i ((phases i).next request reply)) := by
  have hfits := h.fits i
  rw [hrunning] at hfits
  obtain ⟨hallows, hnext⟩ := hfits
  have hfits' := h.fits_update (.running (next reply)) _ (hnext reply)
  cases hreplaces : replaces path request reply with
  | false =>
    have hshared := h.shared.serve hallows hserves hreplaces
    refine ⟨text?, fun _ hwelcomes => hwelcomes.serve hallows
      (h.shared.knows_next hallows hserves hreplaces), hshared, ?_, hfits'⟩
    show Accounted _ _ _ _ (ite _ _ _) world.log
    cases hgrants : grants request reply with
    | false => exact h.accounted.serve hallows hgrants hreplaces
    | true =>
      cases request with
      | lock target mode timeoutMs =>
        cases reply with
        | error fault => cases hgrants
        | ok ticket =>
          exact h.accounted.grant ticket hallows.1 (h.shared.free_of_granted hallows hserves)
      | _ => cases hgrants
  | true =>
    cases request with
    | rename source target =>
      cases reply with
      | error fault => cases hreplaces
      | ok moved =>
        obtain ⟨text, hwrite, hstage, hshared⟩ := h.shared.replace hallows hserves
        have hnext : ((phases i).next (.rename source target) (Except.ok ())).stage =
            .replaced text? := by
          rw [Phase.next_rename_ok hstage]
        refine ⟨some text, fun hsound hwelcomes => hwelcomes.replace hsound hwrite hnext, hshared,
          ?_, hfits'⟩
        refine h.accounted.replace hwrite hstage hnext fun j hj => ?_
        exact (h.shared.others i j (Ne.symm hj)).alone (by rw [hstage]; rfl)
    | _ => cases hreplaces

/-- Whatever a call does next, the world stays consistent. -/
theorem step (h : Consistent lockDir path calls base? text? world phases)
    (hstep : Step lockDir path calls i world world') :
    ∃ text?' phases', ((calls i).IsSound → Welcomes text? phases → Welcomes text?' phases') ∧
      Consistent lockDir path calls base? text?' world' phases' := by
  have hsame (caller : Caller)
      (hcaller : Fits (StatePaths.lockFile lockDir path) path (calls i) caller (phases i)) :
      ∀ j, Fits (StatePaths.lockFile lockDir path) path (calls j)
        (Function.update world.callers i caller j) (phases j) := by
    have hfits := h.fits_update caller (phases i) hcaller
    rw [Function.update_eq_self] at hfits
    exact hfits
  cases hstep with
  | start hidle =>
    have hphase : phases i = {} := by
      have hfits := h.fits i
      rw [hidle] at hfits
      exact hfits
    -- a name for the action, so that it is not computed
    generalize haction : (calls i).action lockDir path = action
    refine ⟨text?, phases, fun _ => id, h.shared, h.accounted, hsame (.running action) ?_⟩
    rw [hphase]
    exact obeys_action haction
  | serve hrunning hserves =>
    obtain ⟨text?', hwelcomes, hconsistent⟩ := h.serve hrunning hserves
    exact ⟨text?', _, hwelcomes, hconsistent⟩
  | finish hdone =>
    refine ⟨text?, phases, fun _ => id, h.shared, h.accounted, hsame (.ended _) ?_⟩
    have hfits := h.fits i
    rw [hdone] at hfits
    exact hfits

end Consistent

/-! ## The result -/

/-- How the calls find the system. -/
structure Begins (lockDir path : String) (base? : Option String) (memory : Memory) : Prop where
  wellFormed : memory.tree.WellFormed
  /-- The lock file is not the test file. -/
  apart : KeepsApart memory path (StatePaths.lockFile lockDir path)
  /-- The test file is missing or holds a text.  A path without `..` at whose
  place there is no file is missing (`missing_of_lexical`). -/
  file : FileAt memory path base?

/-- How the calls find the system, and what they bring along. -/
structure Start (lockDir path : String) (calls : Nat → Call) (base? : Option String)
    (memory : Memory) : Prop extends Begins lockDir path base? memory where
  accepted : ∀ text, base? = some text → Accepts text
  sound : ∀ i, (calls i).IsSound

/-- What becomes of the test file and of the calls in a world. -/
structure Serializes (lockDir path : String) (calls : Nat → Call) (base? : Option String)
    (memory : Memory) (world : World) : Prop where
  /-- The file holds what the calls in the log make of it one after another,
  as it does after they are run so. -/
  file : ∃ text?, inSequence calls base? world.log = .ok text? ∧ FileAt world.memory path text? ∧
    ∀ after, InTurn lockDir path calls memory world.log after → FileAt after path text?
  /-- At any moment before, it held what the first of these calls make of
  it. -/
  before : ∀ earlier, Reaches lockDir path calls { memory } earlier →
    Reaches lockDir path calls earlier world → earlier.log <+: world.log ∧
      ∃ text?, inSequence calls base? earlier.log = .ok text? ∧ FileAt earlier.memory path text?
  /-- The calls in the log come in the order in which they were granted the
  lock, and each of them once. -/
  order : world.log.Sublist world.granted ∧ world.log.Nodup
  /-- A call that succeeds is in the log.  It created the file if it is the
  first there and there was no file, and otherwise added its case. -/
  succeeded : ∀ i outcome, world.callers i = .ended (.ok outcome) →
    ∃ earlier later, world.log = earlier ++ i :: later ∧
      outcome = if base? = none ∧ earlier = [] then .created else .appended
  /-- A call that fails is not in the log, and it does not fail because of
  the text that it found. -/
  failed : ∀ i failure, world.callers i = .ended (.error failure) →
    i ∉ world.log ∧ ∀ target reason, failure ≠ .malformedTestFile target reason
  /-- A call in the log has succeeded or is still running. -/
  logged : ∀ i ∈ world.log, (∃ outcome, world.callers i = .ended (.ok outcome)) ∨
    ∃ action, world.callers i = .running action
  /-- The text is the first text with the cases of the calls that were added
  to it in front of its last brace, each once and in order. -/
  stacked : ∀ text, FileAt world.memory path (some text) →
    ∃ (first : String) (later : List Nat) (front back : List Char),
      ((base? = some first ∧ world.log = later) ∨
        base? = none ∧ ∃ i, world.log = i :: later ∧ first = (calls i).document) ∧
      first.toList = front ++ '\x7d' :: back ∧
      text.toList = stacked front (later.map fun i => (calls i).caseText.toList) ++
        '\x7d' :: back
  /-- What a call did that was not granted the lock in time: it changed no
  file, and the only file that it may have created is the lock file. -/
  timedOut : ∀ i target, world.callers i = .ended (.error (.lockTimeout target)) →
    ∀ earlier next, Reaches lockDir path calls { memory } earlier →
      Step lockDir path calls i earlier next → Reaches lockDir path calls next world →
      Frames [] [StatePaths.lockFile lockDir path] earlier.memory next.memory

section

variable {lockDir path : String} {calls : Nat → Call} {base? text? : Option String}
  {memory : Memory} {world world' : World} {phases : Nat → Phase} {i : Nat}

/-- Every world that some steps lead to is consistent.  Its file takes cases
if the first one does and no call writes a text that takes none. -/
theorem Reaches.consistent (h : Reaches lockDir path calls { memory } world)
    (hbegins : Begins lockDir path base? memory) :
    ∃ text? phases, ((∀ i, (calls i).IsSound) → (∀ text, base? = some text → Accepts text) →
        Welcomes text? phases) ∧
      Consistent lockDir path calls base? text? world phases := by
  induction h with
  | refl =>
    exact ⟨base?, _, fun _ => .start, .start hbegins.wellFormed hbegins.apart hbegins.file⟩
  | step i _ hstep ih =>
    obtain ⟨text?, phases, hwelcomes, hconsistent⟩ := ih
    obtain ⟨text?', phases', hkept, hconsistent'⟩ := hconsistent.step hstep
    exact ⟨text?', phases', fun hsound hbase => hkept (hsound i) (hwelcomes hsound hbase),
      hconsistent'⟩

namespace Consistent

theorem ends (h : Consistent lockDir path calls base? text? world phases)
    {result : Except Failure WriteOutcome} (hended : world.callers i = .ended result) :
    Ends (calls i) result (phases i) := by
  have hfits := h.fits i
  rw [hended] at hfits
  exact hfits

/-- The outcome of a call tells its place in the log. -/
theorem succeeded (h : Consistent lockDir path calls base? text? world phases)
    {outcome : WriteOutcome} (hended : world.callers i = .ended (.ok outcome)) :
    ∃ earlier later, world.log = earlier ++ i :: later ∧
      outcome = if base? = none ∧ earlier = [] then .created else .appended := by
  obtain ⟨found?, hstage, rfl⟩ := h.ends hended
  obtain ⟨earlier, later, hlog, hearlier⟩ :=
    h.accounted.replaced i found? (by rw [hstage]; rfl)
  refine ⟨earlier, later, hlog, ?_⟩
  cases found? with
  | none => exact (if_pos (eq_nil_of_inSequence hearlier)).symm
  | some text =>
    refine (if_neg ?_).symm
    rintro ⟨rfl, rfl⟩
    cases hearlier

theorem failed (h : Consistent lockDir path calls base? text? world phases)
    (hsound : ∀ i, (calls i).IsSound) (hwelcomes : Welcomes text? phases) {failure : Failure}
    (hended : world.callers i = .ended (.error failure)) :
    i ∉ world.log ∧ ∀ target reason, failure ≠ .malformedTestFile target reason := by
  obtain ⟨-, hreplaced, -, hmalformed⟩ := h.ends hended
  refine ⟨h.accounted.unlogged i hreplaced, ?_⟩
  intro target reason hfailure
  obtain ⟨text, malformed, hfound, hwrite⟩ := hmalformed target reason hfailure
  have htext : ∀ other, some text = some other → Accepts other := by
    rintro other ⟨⟩
    exact hwelcomes.found i text hfound
  obtain ⟨written, hwritten, -⟩ := (hsound i).write htext
  rw [hwritten] at hwrite
  cases hwrite

theorem logged (h : Consistent lockDir path calls base? text? world phases)
    (hlog : i ∈ world.log) : (∃ outcome, world.callers i = .ended (.ok outcome)) ∨
      ∃ action, world.callers i = .running action := by
  have hfits := h.fits i
  cases hcaller : world.callers i with
  | running action => exact Or.inr ⟨action, rfl⟩
  | idle =>
    rw [hcaller] at hfits
    have hphase : phases i = {} := hfits
    exact absurd hlog (h.accounted.unlogged i (by rw [hphase]; rfl))
  | ended result =>
    cases result with
    | ok outcome => exact Or.inl ⟨outcome, rfl⟩
    | error failure =>
      obtain ⟨-, hreplaced, -⟩ := h.ends hcaller
      exact absurd hlog (h.accounted.unlogged i hreplaced)

/-- A call that has not been granted the lock changes no file. -/
theorem frames_of_not_granted (h : Consistent lockDir path calls base? text? world phases)
    (hstep : Step lockDir path calls i world world') (hnot : i ∉ world.granted) :
    Frames [] [StatePaths.lockFile lockDir path] world.memory world'.memory := by
  cases hstep with
  | start hidle => exact .refl _ _ _
  | finish hdone => exact .refl _ _ _
  | serve hrunning hserves =>
    have hfits := h.fits i
    rw [hrunning] at hfits
    have hbefore : (phases i).stage = .before :=
      Classical.byContradiction fun hne => hnot ((h.accounted.mem_granted i).2 hne)
    exact frames_of_free hfits.1 hserves (by rw [hbefore]; rfl)

theorem not_granted (h : Consistent lockDir path calls base? text? world phases)
    {target : String} (hended : world.callers i = .ended (.error (.lockTimeout target))) :
    i ∉ world.granted := by
  obtain ⟨-, -, htimeout, -⟩ := h.ends hended
  exact fun hmem => (h.accounted.mem_granted i).1 hmem (htimeout target rfl)

end Consistent

/-- However the calls on one test file are interleaved, they serialize.  The
file stays missing until a call creates it, and holds at any moment what the
calls that have replaced it make of it one after another. -/
theorem Reaches.serializes (hstart : Start lockDir path calls base? memory)
    (hreach : Reaches lockDir path calls { memory } world) :
    Serializes lockDir path calls base? memory world := by
  obtain ⟨text?, phases, hwelcomes, h⟩ := hreach.consistent hstart.toBegins
  constructor
  case file =>
    refine ⟨text?, h.accounted.contents, h.shared.file, fun after hturn => ?_⟩
    obtain ⟨last?, hlast, hafter⟩ := hturn.fileAt hstart.wellFormed hstart.apart hstart.file
    rw [h.accounted.contents, Except.ok.injEq] at hlast
    rw [hlast]
    exact hafter
  case before =>
    intro earlier hearlier hlater
    obtain ⟨text?, phases, -, h⟩ := hearlier.consistent hstart.toBegins
    exact ⟨hlater.grows.2, text?, h.accounted.contents, h.shared.file⟩
  case order => exact ⟨h.accounted.order, h.accounted.order.nodup h.accounted.nodup⟩
  case succeeded => exact fun i outcome hended => h.succeeded hended
  case failed =>
    intro i failure hended
    exact h.failed hstart.sound (hwelcomes hstart.sound hstart.accepted) hended
  case logged => exact fun i hlog => h.logged hlog
  case stacked =>
    intro text hfile
    have hcontents := h.accounted.contents
    rw [h.shared.file.unique hfile h.shared.wellFormed] at hcontents
    exact exists_stacked hstart.sound hstart.accepted hcontents
  case timedOut =>
    intro i target hended earlier next hearlier hstep hnext
    obtain ⟨text?, phases, -, hbefore⟩ := hearlier.consistent hstart.toBegins
    refine hbefore.frames_of_not_granted hstep fun hmem => h.not_granted hended ?_
    exact (hstep.grows.1.trans hnext.grows.1).subset hmem

end

/-- Calls with a case of their own each. -/
def sampleCalls (i : Nat) : Call where
  document := "\x7b\x7d"
  caseName := "Case"
  caseText := if i = 0 then "a;" else "b;"

/-- The first call creates the file.  The second is not granted the lock in
time, and the third adds its case. -/
def sampleTurns : List Nat :=
  List.replicate 3 0 ++ List.replicate 4 1 ++ List.replicate 7 0 ++ List.replicate 11 2

theorem isSound_sampleCalls (i : Nat) : (sampleCalls i).IsSound where
  document := by
    show Accepts "\x7b\x7d"
    exact ⟨1, by rfl⟩
  caseText := by
    show TestFile.BraceNeutral (if i = 0 then "a;" else "b;").toList
    split
    · exact ⟨⟨.code [], 3, 0, none, true⟩, [], by rfl, rfl, rfl⟩
    · exact ⟨⟨.code [], 3, 0, none, true⟩, [], by rfl, rfl, rfl⟩

theorem start_sampleCalls : Start "l" "t" sampleCalls none {} where
  wellFormed := Tree.wellFormed_empty
  apart := .of_lastName? (by decide +kernel)
  file := Preferences.missing_of_lexical (by decide) fun content hnode => nomatch hnode
  accepted := fun _ h => nomatch h
  sound := isSound_sampleCalls

/-- The lock file that a call was not granted in time. -/
def Caller.timeout? : Caller → Option String
  | .ended (.error (.lockTimeout target)) => some target
  | _ => none

theorem serializes_sampleTurns :
    let world := World.play "l" "t" sampleCalls { memory := {} } sampleTurns
    (Start "l" "t" sampleCalls none {} ∧ Reaches "l" "t" sampleCalls { memory := {} } world) ∧
      Serializes "l" "t" sampleCalls none {} world ∧
      world.granted = [0, 2] ∧ world.log = [0, 2] ∧ (world.callers 1).timeout?.isSome = true ∧
      (∃ after, InTurn "l" "t" sampleCalls {} world.log after) ∧
      FileAt world.memory "t" (some "\x7b\n\nb;\n\x7d") := by
  intro world
  have hreach : Reaches "l" "t" sampleCalls { memory := {} } world :=
    World.reaches_play .refl sampleTurns
  have hserializes := Reaches.serializes start_sampleCalls hreach
  have hlog : world.log = [0, 2] := by decide +kernel
  refine ⟨⟨start_sampleCalls, hreach⟩, hserializes, by decide +kernel, hlog, by decide +kernel,
    ?_, ?_⟩
  · rw [hlog]
    exact ⟨_, .cons_run (by decide +kernel) (.cons_run (by decide +kernel) (.nil _))⟩
  · obtain ⟨text?, htext, hfile, -⟩ := hserializes.file
    rw [hlog] at htext
    have hsample : inSequence sampleCalls none [0, 2] = .ok (some "\x7b\n\nb;\n\x7d") := by rfl
    rw [hsample] at htext
    cases htext
    exact hfile

end TestSkeleton.Writers
