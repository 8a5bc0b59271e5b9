import TestSkeleton.Proofs.Files.Locking
import TestSkeleton.Proofs.Preferences.Sharing
import TestSkeleton.Proofs.Writers.Turns

/-!
# Sharing a test file

Several calls write to one test file, each in a phase of its own.  Whatever
they request, in any order, only the call that has the lock changes the file,
and it knows what is in the file.  Any request but a look may fail.

* `FileAt` says what is at the path of the file.
* `Sound` is what holds of one call, `Apart` of two, and `Shared` of all.
* `Shared.serve` and `Shared.replace` keep the invariant for every request
  that is due, and `Shared.free_of_granted` says that a lock is granted only
  if no call is working.
-/

namespace TestSkeleton.Writers

open Files
open Memory (Serves HasFile Leads Frames KeepsApart HoldsLock)
open Preferences (Missing replaces textOf)

/-! ## The file -/

/-- What is at a path: no file, or a file with a text. -/
def FileAt (memory : Memory) (path : String) : Option String → Prop
  | none => Missing memory path
  | some text => HasFile memory path text.toUTF8

section

variable {lockPath path : String} {call : Call} {text? text?' : Option String}
  {memory after : Memory} {request : Request} {reply : Reply request} {phase : Phase}

theorem textOf_text (text : String) : textOf (.ok text.toUTF8) = .ok text := by
  rw [textOf, Text.fromUTF8?_toUTF8]

/-- A text that was read is in a file. -/
theorem FileAt.of_read (h : FileAt memory path text?) (hwell : memory.tree.WellFormed)
    {text : String} (hread : textOf (memory.tree.read memory.current path) = .ok text) :
    text? = some text := by
  cases text? with
  | none =>
    cases hcontent : memory.tree.read memory.current path with
    | error fault =>
      rw [hcontent] at hread
      cases hread
    | ok content =>
      obtain ⟨parent, name, hleads, hnode⟩ := Memory.hasFile_of_read hwell hcontent
      exact absurd hnode (h memory.tree parent name (fun _ => id) hleads content)
  | some held =>
    rw [HasFile.read h, textOf_text, Except.ok.injEq] at hread
    rw [hread]

/-- What is at a path is one thing. -/
theorem FileAt.unique (h : FileAt memory path text?) (h' : FileAt memory path text?')
    (hwell : memory.tree.WellFormed) : text? = text?' := by
  cases text?' with
  | some text =>
    refine h.of_read hwell ?_
    rw [HasFile.read h', textOf_text]
  | none =>
    cases text? with
    | none => rfl
    | some text =>
      refine (h'.of_read hwell ?_).symm
      rw [HasFile.read h, textOf_text]

/-- A file is found. -/
theorem FileAt.contains {text : String} (h : FileAt memory path (some text)) :
    memory.tree.contains memory.current path = true := by
  obtain ⟨parent, name, hleads, hnode⟩ := h
  rw [Tree.contains, hleads.locate (by rw [hnode]; rfl)]
  rfl

/-- What is at a path stays if all that changes is apart from it. -/
theorem FileAt.frames {changed opened : List String} (h : FileAt memory path text?)
    (hframes : Frames changed opened memory after)
    (hapart : ∀ other ∈ changed ++ opened, KeepsApart after path other) :
    FileAt after path text? := by
  cases text? with
  | none =>
    intro tree parent name hkeeps hleads content hnode
    have hkeeps' : Tree.KeepsDirectories memory.tree tree := fun place hdir =>
      hkeeps place (hframes.changes.directories place hdir)
    rcases hframes.file_before _ content hnode with hbefore | ⟨other, hother, hleads'⟩
    · rw [hframes.changes.current] at hleads
      exact h tree parent name hkeeps' hleads content hbefore
    · obtain ⟨parent', name', hother', hplace⟩ := hleads'
      exact hapart other hother tree parent name parent' name' hkeeps hleads
        (hother'.keeps hkeeps) hplace
  | some text =>
    refine hframes.hasFile h fun other hother place hpath => ?_
    exact (hapart other (List.mem_append_left _ hother)).not_leads hpath

/-! ## What requests leave alone -/

/-- Where a request goes that changes a file: to the temporary file, unless
it is a rename.  Only a call that has the lock makes such a request. -/
theorem leads_of_touches (hallows : phase.Allows lockPath path call request) :
    ∃ processId, ∀ (memory : Memory) place, request.Touches memory place →
      phase.stage.isWorking = true ∧ (Leads memory (temporaryName path processId) place ∨
        (∃ source, request = .rename source path) ∧ Leads memory path place) := by
  cases request with
  | write target content =>
    obtain ⟨text?, text, processId, hstage, rfl, -⟩ := hallows
    refine ⟨processId, fun memory place htouches => ⟨by rw [hstage]; rfl, Or.inl ?_⟩⟩
    exact Memory.leads_of_openPlace htouches
  | remove target =>
    obtain ⟨text?, processId, hstage, rfl⟩ := hallows
    refine ⟨processId, fun memory place htouches => ⟨by rw [hstage]; rfl, Or.inl ?_⟩⟩
    exact Memory.leads_of_filePlace_temporary htouches
  | rename source target =>
    obtain ⟨text?, processId, hstage, rfl, rfl⟩ := hallows
    refine ⟨processId, fun memory place htouches => ⟨by rw [hstage]; rfl, ?_⟩⟩
    rcases htouches with hfrom | hto
    · exact Or.inl (Memory.leads_of_filePlace_temporary hfrom)
    · exact Or.inr ⟨⟨_, rfl⟩, Memory.leads_of_renamePlace hto⟩
  | createDirs path => exact ⟨0, fun _ _ htouches => htouches.elim⟩
  | lock target mode timeoutMs => exact ⟨0, fun _ _ htouches => htouches.elim⟩
  | release ticket => exact ⟨0, fun _ _ htouches => htouches.elim⟩
  | «exists» path => exact ⟨0, fun _ _ htouches => htouches.elim⟩
  | read target => exact ⟨0, fun _ _ htouches => htouches.elim⟩
  | realPath path => exact ⟨0, fun _ _ htouches => htouches.elim⟩
  | currentDir => exact ⟨0, fun _ _ htouches => htouches.elim⟩
  | processId => exact ⟨0, fun _ _ htouches => htouches.elim⟩
  | ask question => exact ⟨0, fun _ _ htouches => htouches.elim⟩
  | warn warning => exact ⟨0, fun _ _ htouches => htouches.elim⟩

/-- Only the lock file is created without a change. -/
theorem leads_of_opens (hallows : phase.Allows lockPath path call request) {place : Place}
    (hopens : request.Opens memory place) : Leads memory lockPath place := by
  cases request with
  | lock target mode timeoutMs =>
    obtain ⟨-, rfl, -⟩ := hallows
    exact Memory.leads_of_openPlace hopens
  | _ => exact hopens.elim

/-- Without the lock a call changes no file. -/
theorem not_touches (hallows : phase.Allows lockPath path call request)
    (hfree : phase.stage.isWorking = false) (memory : Memory) (place : Place) :
    ¬ request.Touches memory place := by
  intro htouches
  obtain ⟨processId, hleads⟩ := leads_of_touches hallows
  rw [(hleads memory place htouches).1] at hfree
  cases hfree

theorem frames_of_free (hallows : phase.Allows lockPath path call request)
    (hserves : Serves memory request reply after) (hfree : phase.stage.isWorking = false) :
    Frames [] [lockPath] memory after := by
  refine hserves.became.frames ?_ ?_
  · exact fun place htouches => absurd htouches (not_touches hallows hfree memory place)
  · exact fun place hopens => ⟨lockPath, List.mem_cons_self, leads_of_opens hallows hopens⟩

/-- With the lock it changes the temporary file only, until it renames it. -/
theorem frames_of_kept (hallows : phase.Allows lockPath path call request)
    (hserves : Serves memory request reply after) (hkeeps : replaces path request reply = false) :
    ∃ processId, Frames [temporaryName path processId] [lockPath] memory after := by
  obtain ⟨processId, hleads⟩ := leads_of_touches hallows
  refine ⟨processId, ?_⟩
  by_cases hrename : ∃ source, request = .rename source path
  · obtain ⟨source, rfl⟩ := hrename
    cases reply with
    | error fault =>
      rw [hserves.rename_error]
      exact .refl _ _ memory
    | ok moved => simp [replaces] at hkeeps
  · refine hserves.became.frames ?_ ?_
    · intro place htouches
      rcases (hleads memory place htouches).2 with htemporary | ⟨hsource, -⟩
      · exact ⟨_, List.mem_cons_self, htemporary⟩
      · exact absurd hsource hrename
    · exact fun place hopens => ⟨lockPath, List.mem_cons_self, leads_of_opens hallows hopens⟩

/-- No request changes the lock file. -/
theorem lock_not_touched (hallows : phase.Allows lockPath path call request)
    (hapart : KeepsApart memory path lockPath)
    (hbeside : ∀ processId, KeepsApart memory lockPath (temporaryName path processId))
    {place : Place} (hlock : Leads memory lockPath place) : ¬ request.Touches memory place := by
  intro htouches
  obtain ⟨processId, hleads⟩ := leads_of_touches hallows
  rcases (hleads memory place htouches).2 with htemporary | ⟨-, hpath⟩
  · exact (hbeside processId).not_leads hlock htemporary
  · exact hapart.not_leads hpath hlock

/-! ## One call and two calls -/

/-- What a call knows of the file, and of the file beside it. -/
def Knows (call : Call) (text? : Option String) (memory : Memory) : Stage → Prop
  | .found found? => found? = text?
  | .written found? temporary => found? = text? ∧
      ∃ text, call.write found? = .ok text ∧ HasFile memory temporary text.toUTF8
  | _ => True

/-- What holds of a call in some phase. -/
structure Sound (lockPath : String) (call : Call) (text? : Option String) (memory : Memory)
    (phase : Phase) : Prop where
  /-- Tickets are handed out in order. -/
  issued : ∀ ticket, phase.ticket? = some ticket → ticket < memory.nextTicket
  held : phase.stage.isWorking = true →
    ∃ ticket, phase.ticket? = some ticket ∧ HoldsLock memory lockPath ticket .exclusive
  knows : Knows call text? memory phase.stage

/-- Whether two phases have different tickets and do not both hold the
lock. -/
structure Apart (phase other : Phase) : Prop where
  tickets : ∀ ticket, phase.ticket? = some ticket → other.ticket? ≠ some ticket
  alone : phase.stage.isWorking = true → other.stage.isWorking = false

theorem Knows.of_free {stage : Stage} (h : stage.isWorking = false) :
    Knows call text? memory stage := by
  cases stage with
  | found found? => cases h
  | written found? temporary => cases h
  | before => trivial
  | locked => trivial
  | present => trivial
  | replaced found? => trivial
  | after last => trivial

/-- What is known stays true while no file changes. -/
theorem Knows.quiet {stage : Stage} (h : Knows call text? memory stage)
    (hserves : Serves memory request reply after)
    (hquiet : ∀ place, ¬ request.Touches memory place) : Knows call text? after stage := by
  cases stage with
  | written found? temporary =>
    obtain ⟨hfound, text, htext, hfile⟩ := h
    exact ⟨hfound, text, htext, hserves.changes.hasFile hfile fun _ _ _ => hquiet _⟩
  | found found? => exact h
  | before => trivial
  | locked => trivial
  | present => trivial
  | replaced found? => trivial
  | after last => trivial

theorem Sound.start : Sound lockPath call text? memory {} where
  issued := fun _ h => nomatch h
  held := fun h => nomatch h
  knows := trivial

theorem Apart.start : Apart {} {} where
  tickets := fun _ h => nomatch h
  alone := fun h => nomatch h

theorem Apart.symm {other : Phase} (h : Apart phase other) : Apart other phase where
  tickets := fun ticket hother hticket => h.tickets ticket hticket hother
  alone := by
    intro hother
    cases hphase : phase.stage.isWorking with
    | false => rfl
    | true =>
      rw [h.alone hphase] at hother
      cases hother

/-- A request leaves the lock of a call to it, whoever makes the request. -/
theorem Sound.served {phase' : Phase} (h : Sound lockPath call text? memory phase)
    (hserves : Serves memory request reply after)
    (htouches : ∀ place, Leads memory lockPath place → ¬ request.Touches memory place)
    (hticket : phase'.ticket? = phase.ticket?)
    (hworking : phase'.stage.isWorking = true → phase.stage.isWorking = true ∧
      ∀ ticket, phase.ticket? = some ticket → request ≠ .release ticket)
    (hknows : Knows call text?' after phase'.stage) :
    Sound lockPath call text?' after phase' := by
  refine ⟨?_, ?_, hknows⟩
  · intro ticket hsome
    rw [hticket] at hsome
    exact Nat.lt_of_lt_of_le (h.issued ticket hsome) hserves.nextTicket_le
  · intro hworks
    obtain ⟨hbefore, hrelease⟩ := hworking hworks
    obtain ⟨ticket, hsome, hlock⟩ := h.held hbefore
    exact ⟨ticket, hticket.trans hsome, hlock.served hserves htouches (hrelease ticket hsome)⟩

/-! ## All calls -/

/-- Some calls on one file: what is in the file, and the phases of the
calls. -/
structure Shared (lockPath path : String) (calls : Nat → Call) (text? : Option String)
    (memory : Memory) (phases : Nat → Phase) : Prop where
  wellFormed : memory.tree.WellFormed
  apart : KeepsApart memory path lockPath
  beside : ∀ processId, KeepsApart memory lockPath (temporaryName path processId)
  file : FileAt memory path text?
  each : ∀ i, Sound lockPath (calls i) text? memory (phases i)
  others : ∀ i j, i ≠ j → Apart (phases i) (phases j)

namespace Shared

variable {calls : Nat → Call} {phases : Nat → Phase} {i : Nat}

theorem start (hwell : memory.tree.WellFormed) (hapart : KeepsApart memory path lockPath)
    (hbeside : ∀ processId, KeepsApart memory lockPath (temporaryName path processId))
    (hfile : FileAt memory path text?) :
    Shared lockPath path calls text? memory fun _ => {} where
  wellFormed := hwell
  apart := hapart
  beside := hbeside
  file := hfile
  each := fun _ => .start
  others := fun _ _ _ => .start

/-- The lock is granted only if no call is working. -/
theorem free_of_granted {target : String} {mode : LockMode} {timeoutMs ticket : Nat}
    (h : Shared lockPath path calls text? memory phases)
    (hallows : (phases i).Allows lockPath path (calls i) (.lock target mode timeoutMs))
    (hserves : Serves memory (.lock target mode timeoutMs) (Except.ok ticket) after) (j : Nat) :
    (phases j).stage.isWorking = false := by
  obtain ⟨-, rfl, rfl⟩ := hallows
  cases hworking : (phases j).stage.isWorking with
  | false => rfl
  | true =>
    obtain ⟨ticket', -, hlock⟩ := (h.each j).held hworking
    cases (hlock.granted hserves).1

/-- The call that makes a request, after it. -/
theorem self (h : Shared lockPath path calls text? memory phases)
    (hallows : (phases i).Allows lockPath path (calls i) request)
    (hserves : Serves memory request reply after)
    (hknows : Knows (calls i) text?' after ((phases i).next request reply).stage) :
    Sound lockPath (calls i) text?' after ((phases i).next request reply) ∧
      ∀ j, j ≠ i → Apart ((phases i).next request reply) (phases j) := by
  cases hgrants : grants request reply with
  | false =>
    obtain ⟨hticket, -, hworking, -⟩ := hallows.next_kept reply hgrants
    refine ⟨(h.each i).served hserves (fun _ => lock_not_touched hallows h.apart h.beside)
      hticket ?_ hknows, fun j hj => ⟨?_, ?_⟩⟩
    · intro hworks
      refine ⟨hworking hworks, ?_⟩
      rintro ticket - rfl
      cases hworks
    · rw [hticket]
      exact (h.others i j (Ne.symm hj)).tickets
    · exact fun hworks => (h.others i j (Ne.symm hj)).alone (hworking hworks)
  | true =>
    cases request with
    | lock target mode timeoutMs =>
      cases reply with
      | error fault => cases hgrants
      | ok ticket =>
        have hfree := h.free_of_granted hallows hserves
        obtain ⟨-, rfl, rfl⟩ := hallows
        obtain ⟨hticket, hnext, -⟩ := hserves.lock_ok
        refine ⟨⟨?_, ?_, hknows⟩, fun j hj => ⟨?_, fun _ => hfree j⟩⟩
        · rintro _ ⟨⟩
          omega
        · exact fun _ => ⟨ticket, rfl, Memory.holdsLock_of_granted hserves⟩
        · rintro _ ⟨⟩ hsome
          have hlt := (h.each j).issued ticket hsome
          omega
    | _ => cases hgrants

/-- One call makes a request, and the others keep their phases. -/
theorem advance (h : Shared lockPath path calls text? memory phases)
    (hallows : (phases i).Allows lockPath path (calls i) request)
    (hserves : Serves memory request reply after) (hfile : FileAt after path text?')
    (hsame : (phases i).stage.isWorking = false → text?' = text?)
    (hknows : Knows (calls i) text?' after ((phases i).next request reply).stage) :
    Shared lockPath path calls text?' after
      (Function.update phases i ((phases i).next request reply)) := by
  have hchanges := hserves.changes
  obtain ⟨hself, hapart⟩ := h.self hallows hserves hknows
  refine ⟨hchanges.wellFormed h.wellFormed, h.apart.later hchanges,
    fun processId => (h.beside processId).later hchanges, hfile, ?_,
    pairwise_update Apart .symm h.others hapart⟩
  rw [Function.forall_update_iff phases fun j phase => Sound lockPath (calls j) text?' after phase]
  refine ⟨hself, fun j hj => ?_⟩
  refine (h.each j).served hserves (fun _ => lock_not_touched hallows h.apart h.beside) rfl
    (fun hworks => ⟨hworks, ?_⟩) ?_
  · rintro ticket hticket rfl
    exact (h.others j i hj).tickets ticket hticket hallows.1
  · -- one of the two does not have the lock
    cases hworking : (phases j).stage.isWorking with
    | false => exact .of_free hworking
    | true =>
      have hfree := (h.others j i hj).alone hworking
      rw [hsame hfree]
      exact (h.each j).knows.quiet hserves (not_touches hallows hfree memory)

/-- What a call knows after a request that does not replace the file. -/
theorem knows_next (h : Shared lockPath path calls text? memory phases)
    (hallows : (phases i).Allows lockPath path (calls i) request)
    (hserves : Serves memory request reply after) (hkeeps : replaces path request reply = false) :
    Knows (calls i) text? after ((phases i).next request reply).stage := by
  have hknows := (h.each i).knows
  have hquiet (htouches : ∀ place, ¬ request.Touches memory place) :
      Knows (calls i) text? after (phases i).stage := hknows.quiet hserves htouches
  generalize (calls i) = call at *
  generalize (phases i) = phase at *
  obtain ⟨ticket?, stage⟩ := phase
  cases request with
  | lock target mode timeoutMs =>
    cases reply with
    | ok ticket => trivial
    | error fault => exact hquiet fun _ => id
  | release ticket => trivial
  | «exists» target =>
    obtain ⟨rfl, rfl⟩ := hallows
    cases reply with
    | true => trivial
    | false =>
      -- a file would have been found
      cases text? with
      | none => rfl
      | some text =>
        rcases hserves with hserve | hfalse
        · have hreply : false = memory.tree.contains memory.current target :=
            congrArg Prod.fst hserve
          rw [h.file.contains] at hreply
          cases hreply
        · exact hfalse.elim
  | read target =>
    obtain ⟨rfl, rfl⟩ := hallows
    rw [Phase.next]
    cases htext : textOf reply with
    | error fault => trivial
    | ok text =>
      rw [hserves.read_eq.1] at htext
      exact (h.file.of_read h.wellFormed htext).symm
  | write target content =>
    obtain ⟨found?, text, processId, rfl, rfl, htext, rfl⟩ := hallows
    cases reply with
    | error fault => exact hknows
    | ok done => exact ⟨hknows, text, htext, hserves.write_ok⟩
  | rename source target =>
    obtain ⟨found?, processId, rfl, rfl, rfl⟩ := hallows
    cases reply with
    | error fault => exact hknows.1
    | ok moved => simp [replaces] at hkeeps
  | remove target =>
    obtain ⟨found?, processId, rfl, rfl⟩ := hallows
    exact hknows
  | createDirs path => exact hquiet fun _ => id
  | realPath path => exact hquiet fun _ => id
  | currentDir => exact hquiet fun _ => id
  | processId => exact hquiet fun _ => id
  | ask question => exact hquiet fun _ => id
  | warn warning => exact hquiet fun _ => id

/-- A request that does not replace the file leaves it as it is. -/
theorem serve (h : Shared lockPath path calls text? memory phases)
    (hallows : (phases i).Allows lockPath path (calls i) request)
    (hserves : Serves memory request reply after) (hkeeps : replaces path request reply = false) :
    Shared lockPath path calls text? after
      (Function.update phases i ((phases i).next request reply)) := by
  obtain ⟨processId, hframes⟩ := frames_of_kept hallows hserves hkeeps
  refine h.advance hallows hserves (h.file.frames hframes ?_) (fun _ => rfl)
    (h.knows_next hallows hserves hkeeps)
  intro other hother
  simp only [List.cons_append, List.nil_append, List.mem_cons, List.not_mem_nil, or_false] at hother
  rcases hother with rfl | rfl
  · exact .temporary path processId
  · exact h.apart.later hserves.changes

/-- A rename replaces the file with the text that the call makes of it. -/
theorem replace {source target : String}
    (h : Shared lockPath path calls text? memory phases)
    (hallows : (phases i).Allows lockPath path (calls i) (.rename source target))
    (hserves : Serves memory (.rename source target) (Except.ok ()) after) :
    ∃ text, (calls i).write text? = .ok text ∧ (phases i).stage = .written text? source ∧
      Shared lockPath path calls (some text) after
        (Function.update phases i ((phases i).next (.rename source target) (Except.ok ()))) := by
  obtain ⟨found?, processId, hstage, -, rfl⟩ := id hallows
  have hknows := (h.each i).knows
  rw [hstage] at hknows
  obtain ⟨rfl, text, htext, hwritten⟩ := hknows
  refine ⟨text, htext, hstage, h.advance hallows hserves (hserves.rename_ok hwritten) ?_ ?_⟩
  · intro hfree
    rw [hstage] at hfree
    cases hfree
  · rw [Phase.next_rename_ok hstage]
    trivial

end Shared

end

end TestSkeleton.Writers
