import TestSkeleton.Proofs.Files.Locking
import TestSkeleton.Proofs.Preferences.Neighbours
import TestSkeleton.Proofs.Preferences.Replay
import TestSkeleton.Proofs.Preferences.RoundTrip
import TestSkeleton.Proofs.Preferences.Turns
import TestSkeleton.Text.Utf8
import Mathlib.Logic.Function.Basic

/-!
# Sharing a preference file

Several instances work on one preference file, each in a phase of its own.
Whatever they request, in any order, the file holds the first document with the
changes of all replacements so far.  Any request but a look may fail.

* `Missing` and `Decodes` say what is at the path of the file, and `Carries`
  what was changed there.
* `Shared` is the invariant: what is in the file, and what each instance knows
  about it while it holds the lock.
* `Shared.step` keeps the invariant for every request that is due.
-/

namespace TestSkeleton.Preferences

open Files
open Memory (Serves HasFile)

/-! ## The file -/

/-- Whether no file is at a path, and none is where it leads once the
directories on the way are made. -/
def Missing (memory : Memory) (path : String) : Prop :=
  ∀ tree parent name, Tree.KeepsDirectories memory.tree tree →
    tree.LeadsTo memory.current path parent name →
    ∀ content, memory.tree.node? (parent ++ [name]) ≠ some (.file content)

/-- Whether the file at a path holds the text of a document. -/
def Decodes (memory : Memory) (path : String) (document : Document) : Prop :=
  ∃ text : String, memory.tree.read memory.current path = .ok text.toUTF8 ∧
    Document.parse? text = some document

/-- Without `..` a path leads to one place, which holds no file. -/
theorem missing_of_lexical {memory : Memory} {path : String} (hup : ".." ∉ Path.steps path)
    (h : ∀ content, memory.tree.node? (Tree.lexical memory.current path) ≠ some (.file content)) :
    Missing memory path := by
  intro tree parent name _ hleads content
  rw [hleads.eq_lexical hup]
  exact h content

/-- Whether a file is as at first with some changes done to it.  A file that
was missing at first stays so until there are changes, and is then an empty
document with the changes. -/
def Carries (path : String) (base? : Option Document) (done : List Change) (memory : Memory) :
    Prop :=
  (Missing memory path ∧ base? = none ∧ done = []) ∨
    Decodes memory path ((base?.getD {}).applyAll done)

theorem documentOf_text (text : String) :
    documentOf (.ok text.toUTF8) = (Document.parse? text).getD {} := by
  rw [documentOf, textOf, Text.fromUTF8?_toUTF8, documentFrom]

section

variable {path : String} {base? : Option Document} {done changes : List Change}
  {memory after : Memory} {request : Request} {reply : Reply request} {phase : Phase}

/-- What a reader finds. -/
theorem Carries.documentOf_read (h : Carries path base? done memory)
    (hwell : memory.tree.WellFormed) :
    documentOf (memory.tree.read memory.current path) = (base?.getD {}).applyAll done := by
  rcases h with ⟨hmissing, rfl, rfl⟩ | ⟨text, hread, hparse⟩
  · cases hread : memory.tree.read memory.current path with
    | error fault => rfl
    | ok content =>
      obtain ⟨parent, name, hleads, hnode⟩ := Memory.hasFile_of_read hwell hread
      exact absurd hnode (hmissing memory.tree parent name (fun _ => id) hleads content)
  · rw [hread, documentOf_text, hparse]
    rfl

/-! ## What requests leave alone -/

/-- A request changes and creates no file where the path may lead. -/
theorem Carries.spared (h : Carries path base? done memory) (hwell : memory.tree.WellFormed)
    (hserves : Serves memory request reply after)
    (hspares : ∀ tree parent name, Tree.KeepsDirectories after.tree tree →
      tree.LeadsTo memory.current path parent name →
      ¬ request.Touches memory (parent ++ [name]) ∧ ¬ request.Opens memory (parent ++ [name])) :
    Carries path base? done after := by
  have hchanges := hserves.changes
  rcases h with ⟨hmissing, hbase, hdone⟩ | ⟨text, hread, hparse⟩
  · refine Or.inl ⟨?_, hbase, hdone⟩
    intro tree parent name hkeeps hleads content hnode
    rw [hchanges.current] at hleads
    obtain ⟨htouches, hopens⟩ := hspares tree parent name hkeeps hleads
    have hkeeps' : Tree.KeepsDirectories memory.tree tree := fun place hdir =>
      hkeeps place (hchanges.directories place hdir)
    exact hmissing tree parent name hkeeps' hleads content
      (hserves.became.file_before htouches hopens hnode)
  · have hfile := hchanges.hasFile (Memory.hasFile_of_read hwell hread)
    refine Or.inr ⟨text, (hfile ?_).read, hparse⟩
    intro parent name hleads
    exact (hspares after.tree parent name (fun _ => id) (hleads.keeps hchanges.directories)).1

/-- Where a request goes that changes a file: to the temporary file, unless
it is a rename. -/
theorem leadsTo_of_touches (hwell : memory.tree.WellFormed)
    (hallows : phase.Allows path changes request) {place : Place}
    (htouches : request.Touches memory place) :
    (∃ parent name processId, place = parent ++ [name] ∧
      memory.tree.LeadsTo memory.current (temporaryName path processId) parent name) ∨
      ∃ source parent name, request = .rename source path ∧ place = parent ++ [name] ∧
        memory.tree.LeadsTo memory.current path parent name := by
  cases request with
  | write target content =>
    obtain ⟨document, processId, -, rfl, -⟩ := hallows
    obtain ⟨parent, name, hleads, hplace, -⟩ := Tree.openPlace_ok htouches
    exact Or.inl ⟨parent, name, processId, hplace, hleads⟩
  | remove target =>
    obtain ⟨document, processId, -, rfl⟩ := hallows
    obtain ⟨hlocate, hfree⟩ := Memory.not_isDirectory_of_filePlace htouches
    obtain ⟨parent, name, hplace, hleads⟩ := hwell.leadsTo hlocate hfree
    exact Or.inl ⟨parent, name, processId, hplace, hleads⟩
  | rename source target =>
    obtain ⟨document, processId, -, hsource, rfl, -⟩ := hallows
    rcases htouches with hfrom | hto
    · obtain ⟨hlocate, hfree⟩ := Memory.not_isDirectory_of_filePlace hfrom
      obtain ⟨parent, name, hplace, hleads⟩ := hwell.leadsTo hlocate hfree
      exact Or.inl ⟨parent, name, processId, hplace, hsource ▸ hleads⟩
    · obtain ⟨parent, name, hleads, hplace, -⟩ := Tree.renamePlace_ok hto
      exact Or.inr ⟨source, parent, name, rfl, hplace, hleads⟩
  | createDirs path => exact htouches.elim
  | lock target mode timeoutMs => exact htouches.elim
  | release ticket => exact htouches.elim
  | «exists» path => exact htouches.elim
  | read target => exact htouches.elim
  | realPath path => exact htouches.elim
  | currentDir => exact htouches.elim
  | processId => exact htouches.elim
  | ask question => exact htouches.elim
  | warn warning => exact htouches.elim

/-- Only a rename changes the preference file. -/
theorem Carries.served (h : Carries path base? done memory) (hwell : memory.tree.WellFormed)
    (hallows : phase.Allows path changes request) (hserves : Serves memory request reply after)
    (hrename : ∀ source, request ≠ .rename source path) : Carries path base? done after := by
  have hdirectories := hserves.changes.directories
  apply h.spared hwell hserves
  intro tree parent name hkeeps hleads
  have hkeeps' : Tree.KeepsDirectories memory.tree tree := fun place hdir =>
    hkeeps place (hdirectories place hdir)
  constructor
  · intro htouches
    rcases leadsTo_of_touches hwell hallows htouches with
      ⟨other, last, processId, hplace, htemporary⟩ | ⟨source, -, -, hrequest, -⟩
    · exact hleads.ne_temporary (htemporary.keeps hkeeps') hplace
    · exact hrename source hrequest
  · intro hopens
    cases request with
    | lock target mode timeoutMs =>
      obtain ⟨-, rfl⟩ := hallows
      obtain ⟨other, last, hlock, hplace, -⟩ := Tree.openPlace_ok hopens
      exact hleads.ne_preferenceLock (hlock.keeps hkeeps') hplace
    | _ => exact hopens.elim

/-! ## Locks -/

/-- Whether the lock of a preference file is held under a ticket. -/
def HoldsLock (memory : Memory) (path : String) (ticket : Nat) (mode : LockMode) : Prop :=
  ∃ parent name,
    memory.tree.LeadsTo memory.current (StatePaths.preferenceLock path) parent name ∧
    ⟨ticket, some (parent ++ [name]), mode⟩ ∈ memory.holds

/-- No request but its release gives up a lock. -/
theorem HoldsLock.served {ticket : Nat} {mode : LockMode} (h : HoldsLock memory path ticket mode)
    (hwell : memory.tree.WellFormed) (hallows : phase.Allows path changes request)
    (hserves : Serves memory request reply after) (hrelease : request ≠ .release ticket) :
    HoldsLock after path ticket mode := by
  refine Memory.HoldsLock.served h hserves ?_ hrelease
  rintro place ⟨parent, name, hleads, rfl⟩ htouches
  rcases leadsTo_of_touches hwell hallows htouches with
    ⟨other, last, processId, hplace, htemporary⟩ | ⟨source, other, last, -, hplace, hpath⟩
  · exact hleads.lock_ne_temporary htemporary hplace
  · exact hpath.ne_preferenceLock hleads hplace.symm

/-- A lock that is granted is held with no other lock, unless both are
shared. -/
theorem HoldsLock.granted {mode mode' : LockMode} {timeoutMs ticket ticket' : Nat}
    (h : HoldsLock memory path ticket' mode')
    (hserves : Serves memory (.lock (StatePaths.preferenceLock path) mode timeoutMs)
      (Except.ok ticket) after) : mode = .shared ∧ mode' = .shared :=
  Memory.HoldsLock.granted h hserves

theorem holdsLock_of_granted {mode : LockMode} {timeoutMs ticket : Nat}
    (hserves : Serves memory (.lock (StatePaths.preferenceLock path) mode timeoutMs)
      (Except.ok ticket) after) : HoldsLock after path ticket mode :=
  Memory.holdsLock_of_granted hserves

/-- An instance keeps its ticket until it is granted a new one. -/
theorem ticket?_next (hallows : phase.Allows path changes request)
    (hserves : Serves memory request reply after) :
    (phase.next request reply).ticket? = phase.ticket? ∨
      (phase.next request reply).ticket? = some memory.nextTicket := by
  cases request with
  | lock target mode timeoutMs =>
    cases reply with
    | ok ticket =>
      obtain ⟨rfl, -⟩ := hserves.lock_ok
      exact Or.inr rfl
    | error fault => exact Or.inl rfl
  | _ => exact Or.inl (hallows.next_kept reply (by simp)).1

/-! ## One instance -/

/-- What an instance that holds the lock knows of the file, and of the file
beside it. -/
def Knows (base? : Option Document) (done : List Change) (memory : Memory)
    (changes : List Change) : Stage → Prop
  | .seen _ document => document = (base?.getD {}).applyAll done
  | .written document temporary => document = (base?.getD {}).applyAll done ∧
      HasFile memory temporary (fileText (document.applyAll changes)).toUTF8
  | _ => True

/-- What holds of an instance in some phase that is about to save some
changes. -/
structure Sound (path : String) (base? : Option Document) (done : List Change) (memory : Memory)
    (changes : List Change) (phase : Phase) : Prop where
  /-- Tickets are handed out in order. -/
  issued : ∀ ticket, phase.ticket? = some ticket → ticket < memory.nextTicket
  held : ∀ mode, phase.stage.mode? = some mode →
    ∃ ticket, phase.ticket? = some ticket ∧ HoldsLock memory path ticket mode
  knows : Knows base? done memory changes phase.stage

/-- Whether two phases have different tickets and hold the lock together only
to read. -/
structure Apart (phase other : Phase) : Prop where
  tickets : ∀ ticket, phase.ticket? = some ticket → other.ticket? ≠ some ticket
  modes : ∀ mode mode', phase.stage.mode? = some mode → other.stage.mode? = some mode' →
    mode = .shared ∧ mode' = .shared

section

variable {done' mine : List Change} {mover other : Phase} {stage : Stage}

/-- Without the lock nothing is known. -/
theorem Knows.of_free (h : stage.mode? = none) : Knows base? done memory changes stage := by
  cases stage with
  | seen mode document => cases h
  | written document temporary => cases h
  | before => trivial
  | locked mode => trivial
  | replaced => trivial
  | after changed => trivial

/-- What is known stays true while no file changes. -/
theorem Knows.quiet (h : Knows base? done memory changes stage)
    (hserves : Serves memory request reply after)
    (hquiet : ∀ place, ¬ request.Touches memory place) :
    Knows base? done after changes stage := by
  cases stage with
  | written document temporary =>
    exact ⟨h.1, hserves.changes.hasFile h.2 fun _ _ _ => hquiet _⟩
  | seen mode document => exact h
  | before => trivial
  | locked mode => trivial
  | replaced => trivial
  | after changed => trivial

theorem Sound.start : Sound path base? done memory changes {} where
  issued := fun _ h => nomatch h
  held := fun _ h => nomatch h
  knows := trivial

/-- A request of whatever instance leaves the locks of an instance to it. -/
theorem Sound.served (h : Sound path base? done memory changes phase)
    (hwell : memory.tree.WellFormed) (hallows : mover.Allows path mine request)
    (hserves : Serves memory request reply after)
    (hrelease : ∀ ticket, phase.ticket? = some ticket → request ≠ .release ticket)
    (hmode : ∀ mode, stage.mode? = some mode → phase.stage.mode? = some mode)
    (hknows : Knows base? done' after changes stage) :
    Sound path base? done' after changes { phase with stage } := by
  refine ⟨?_, ?_, hknows⟩
  · intro ticket hticket
    exact Nat.lt_of_lt_of_le (h.issued ticket hticket) hserves.nextTicket_le
  · intro mode hsome
    obtain ⟨ticket, hticket, hlock⟩ := h.held mode (hmode mode hsome)
    exact ⟨ticket, hticket, hlock.served hwell hallows hserves (hrelease ticket hticket)⟩

theorem Apart.symm (h : Apart phase other) : Apart other phase where
  tickets := fun ticket hother hticket => h.tickets ticket hticket hother
  modes := fun mode mode' hother hmode => (h.modes mode' mode hmode hother).symm

theorem Apart.start : Apart {} phase where
  tickets := fun _ h => nomatch h
  modes := fun _ _ h => nomatch h

/-- Nobody else has the lock while one instance has it for itself. -/
theorem Apart.free (h : Apart phase other) (hmode : phase.stage.mode? = some .exclusive) :
    other.stage.mode? = none := by
  cases hother : other.stage.mode? with
  | none => rfl
  | some mode => cases (h.modes _ mode hmode hother).1

end

/-! ## All instances -/

/-- Some instances on one file: each in a phase of its own, with the changes
it is about to save. -/
structure Shared (path : String) (base? : Option Document) (done : List Change) (memory : Memory)
    (phases : Nat → Phase) (changes : Nat → List Change) : Prop where
  wellFormed : memory.tree.WellFormed
  file : Carries path base? done memory
  each : ∀ i, Sound path base? done memory (changes i) (phases i)
  apart : ∀ i j, i ≠ j → Apart (phases i) (phases j)

namespace Shared

variable {done' : List Change} {phases : Nat → Phase} {changes changes' : Nat → List Change}
  {i : Nat} {phase' : Phase} {stage : Stage}

theorem start (hwell : memory.tree.WellFormed) (hfile : Carries path base? [] memory)
    (changes : Nat → List Change) : Shared path base? [] memory (fun _ => {}) changes where
  wellFormed := hwell
  file := hfile
  each := fun _ => .start
  apart := fun _ _ _ => .start

/-- One instance changes its phase. -/
theorem update (h : Shared path base? done memory phases changes)
    (hwell : after.tree.WellFormed) (hfile : Carries path base? done' after)
    (hself : Sound path base? done' after (changes' i) phase')
    (hothers : ∀ j, j ≠ i → Sound path base? done' after (changes' j) (phases j))
    (hapart : ∀ j, j ≠ i → Apart phase' (phases j)) :
    Shared path base? done' after (Function.update phases i phase') changes' := by
  refine ⟨hwell, hfile, ?_, pairwise_update Apart .symm h.apart hapart⟩
  rw [Function.forall_update_iff phases
    fun j phase => Sound path base? done' after (changes' j) phase]
  exact ⟨hself, hothers⟩

/-- An instance may start over, with other changes. -/
theorem restart (h : Shared path base? done memory phases changes)
    (hothers : ∀ j, j ≠ i → changes' j = changes j) :
    Shared path base? done memory (Function.update phases i {}) changes' := by
  refine h.update h.wellFormed h.file .start ?_ fun j hj => .start
  intro j hj
  rw [hothers j hj]
  exact h.each j

/-! ## One request -/

/-- One instance makes a request, and the others keep their phases. -/
theorem advance (h : Shared path base? done memory phases changes)
    (hallows : (phases i).Allows path (changes i) request)
    (hserves : Serves memory request reply after) (hfile : Carries path base? done' after)
    (hothers : ∀ j, j ≠ i → Knows base? done' after (changes j) (phases j).stage)
    (hself : Sound path base? done' after (changes i) phase')
    (hapart : ∀ j, j ≠ i → Apart phase' (phases j)) :
    Shared path base? done' after (Function.update phases i phase') changes := by
  refine h.update (hserves.changes.wellFormed h.wellFormed) hfile hself ?_ hapart
  intro j hj
  refine (h.each j).served h.wellFormed hallows hserves ?_ (fun _ => id) (hothers j hj)
  rintro ticket hticket rfl
  exact (h.apart j i hj).tickets ticket hticket hallows.1

/-- A request under which an instance keeps its ticket, and takes no lock. -/
theorem keep (h : Shared path base? done memory phases changes)
    (hallows : (phases i).Allows path (changes i) request)
    (hserves : Serves memory request reply after) (hfile : Carries path base? done' after)
    (hothers : ∀ j, j ≠ i → Knows base? done' after (changes j) (phases j).stage)
    (hrelease : ∀ ticket, request ≠ .release ticket)
    (hmode : ∀ mode, stage.mode? = some mode → (phases i).stage.mode? = some mode)
    (hknows : Knows base? done' after (changes i) stage) :
    Shared path base? done' after (Function.update phases i { phases i with stage })
      changes := by
  refine h.advance hallows hserves hfile hothers ?_ ?_
  · exact (h.each i).served h.wellFormed hallows hserves (fun ticket _ => hrelease ticket) hmode
      hknows
  · intro j hj
    have hapart := h.apart i j (Ne.symm hj)
    exact ⟨hapart.tickets, fun mode mode' hsome => hapart.modes mode mode' (hmode mode hsome)⟩

/-- A request that changes no file and no phase. -/
theorem quiet (h : Shared path base? done memory phases changes)
    (hallows : (phases i).Allows path (changes i) request)
    (hserves : Serves memory request reply after)
    (hquiet : ∀ place, ¬ request.Touches memory place)
    (hrename : ∀ source, request ≠ .rename source path)
    (hrelease : ∀ ticket, request ≠ .release ticket) :
    Shared path base? done after (Function.update phases i (phases i)) changes := by
  have hfile := h.file.served h.wellFormed hallows hserves hrename
  refine h.keep hallows hserves hfile ?_ hrelease (fun _ => id) ?_
  · exact fun j _ => (h.each j).knows.quiet hserves hquiet
  · exact (h.each i).knows.quiet hserves hquiet

/-- The lock is granted. -/
theorem lock {mode : LockMode} {timeoutMs ticket : Nat} {target : String}
    (h : Shared path base? done memory phases changes)
    (hallows : (phases i).Allows path (changes i) (.lock target mode timeoutMs))
    (hserves : Serves memory (.lock target mode timeoutMs) (Except.ok ticket) after) :
    Shared path base? done after (Function.update phases i ⟨some ticket, .locked mode⟩)
      changes := by
  have hfile := h.file.served h.wellFormed hallows hserves (by simp)
  obtain ⟨hticket, hnext, -⟩ := hserves.lock_ok
  refine h.advance hallows hserves hfile ?_ ⟨?_, ?_, trivial⟩ ?_
  · exact fun j _ => (h.each j).knows.quiet hserves fun _ => id
  · rintro _ ⟨⟩
    omega
  · rintro _ ⟨⟩
    rw [hallows.2] at hserves
    exact ⟨ticket, rfl, holdsLock_of_granted hserves⟩
  · intro j hj
    constructor
    · rintro _ ⟨⟩ hsome
      have hlt := (h.each j).issued ticket hsome
      omega
    · rintro _ mode' ⟨⟩ hmode'
      obtain ⟨ticket', -, hlock⟩ := (h.each j).held mode' hmode'
      rw [hallows.2] at hserves
      exact hlock.granted hserves

/-- The file is read under the lock. -/
theorem read {mode : LockMode} {reply : Reply (.read path)}
    (h : Shared path base? done memory phases changes)
    (hstage : (phases i).stage = .locked mode)
    (hserves : Serves memory (.read path) reply after) :
    Shared path base? done after (Function.update phases i
      { phases i with stage := .seen mode (documentOf reply) }) changes := by
  have hallows : (phases i).Allows path (changes i) (.read path) := rfl
  have hfile := h.file.served h.wellFormed hallows hserves (by simp)
  refine h.keep hallows hserves hfile ?_ (by simp) ?_ ?_
  · exact fun j _ => (h.each j).knows.quiet hserves fun _ => id
  · rw [hstage]
    exact fun _ => id
  · show documentOf reply = _
    rw [hserves.read_eq.1, h.file.documentOf_read h.wellFormed]

/-- The lock is given back. -/
theorem release {ticket : Nat} {reply : Reply (.release ticket)}
    (h : Shared path base? done memory phases changes)
    (hallows : (phases i).Allows path (changes i) (.release ticket))
    (hserves : Serves memory (.release ticket) reply after) (changed : Bool) :
    Shared path base? done after (Function.update phases i
      { phases i with stage := .after changed }) changes := by
  have hfile := h.file.served h.wellFormed hallows hserves (by simp)
  refine h.advance hallows hserves hfile ?_ ⟨?_, ?_, trivial⟩ ?_
  · exact fun j _ => (h.each j).knows.quiet hserves fun _ => id
  · intro ticket hticket
    exact Nat.lt_of_lt_of_le ((h.each i).issued ticket hticket) hserves.nextTicket_le
  · rintro _ ⟨⟩
  · intro j hj
    exact ⟨(h.apart i j (Ne.symm hj)).tickets, fun _ _ hmode => nomatch hmode⟩

/-- A request of an instance that has the lock for itself. -/
theorem work (h : Shared path base? done memory phases changes)
    (hallows : (phases i).Allows path (changes i) request)
    (hserves : Serves memory request reply after) (hfile : Carries path base? done' after)
    (hmode : (phases i).stage.mode? = some .exclusive)
    (hrelease : ∀ ticket, request ≠ .release ticket) (hstage : stage.mode? = some .exclusive)
    (hknows : Knows base? done' after (changes i) stage) :
    Shared path base? done' after (Function.update phases i { phases i with stage })
      changes := by
  refine h.keep hallows hserves hfile ?_ hrelease ?_ hknows
  · exact fun j hj => .of_free ((h.apart i j (Ne.symm hj)).free hmode)
  · rw [hmode, hstage]
    exact fun _ => id

/-- A file is written beside the preference file. -/
theorem write {target : String} {content : ByteArray} {reply : Reply (.write target content)}
    (h : Shared path base? done memory phases changes)
    (hallows : (phases i).Allows path (changes i) (.write target content))
    (hserves : Serves memory (.write target content) reply after) :
    Shared path base? done after (Function.update phases i
      ((phases i).next (.write target content) reply)) changes := by
  have hfile := h.file.served h.wellFormed hallows hserves (by simp)
  obtain ⟨document, processId, hstage, -, hcontent⟩ := id hallows
  have hmode : (phases i).stage.mode? = some .exclusive := by rw [hstage]; rfl
  have hknows := (h.each i).knows
  rw [hstage] at hknows
  cases reply with
  | error fault =>
    rw [Phase.next_write_error hstage]
    refine h.work hallows hserves hfile hmode (by simp) hmode ?_
    rw [hstage]
    exact hknows
  | ok written =>
    rw [Phase.next_write_ok hstage]
    refine h.work hallows hserves hfile hmode (by simp) rfl ⟨hknows, ?_⟩
    rw [← hcontent]
    exact hserves.write_ok

/-- The file beside the preference file is removed. -/
theorem remove {target : String} {reply : Reply (.remove target)}
    (h : Shared path base? done memory phases changes)
    (hallows : (phases i).Allows path (changes i) (.remove target))
    (hserves : Serves memory (.remove target) reply after) :
    Shared path base? done after (Function.update phases i (phases i)) changes := by
  have hfile := h.file.served h.wellFormed hallows hserves (by simp)
  obtain ⟨document, processId, hstage, -⟩ := id hallows
  have hmode : (phases i).stage.mode? = some .exclusive := by rw [hstage]; rfl
  have hknows := (h.each i).knows
  refine h.work hallows hserves hfile hmode (by simp) hmode ?_
  rw [hstage] at hknows ⊢
  exact hknows

/-- The file is replaced, or stays as it is. -/
theorem rename {source target : String} {reply : Reply (.rename source target)}
    (h : Shared path base? done memory phases changes)
    (hallows : (phases i).Allows path (changes i) (.rename source target))
    (hserves : Serves memory (.rename source target) reply after) :
    Shared path base?
      (if replaces path (.rename source target) reply then done ++ changes i else done) after
      (Function.update phases i ((phases i).next (.rename source target) reply)) changes := by
  obtain ⟨document, processId, hstage, -, rfl, -⟩ := id hallows
  have hmode : (phases i).stage.mode? = some .exclusive := by rw [hstage]; rfl
  have hknows := (h.each i).knows
  rw [hstage] at hknows
  obtain ⟨hdocument, hwritten⟩ := hknows
  cases reply with
  | error fault =>
    have hsame := hserves.rename_error
    subst hsame
    rw [Phase.next_rename_error hstage, if_neg (by simp [replaces])]
    exact h.work hallows hserves h.file hmode (by simp) rfl hdocument
  | ok moved =>
    rw [Phase.next_rename_ok hstage, if_pos (by simp [replaces])]
    have hfile : Carries target base? (done ++ changes i) after := by
      refine Or.inr ⟨_, (hserves.rename_ok hwritten).read, ?_⟩
      rw [parse?_fileText, hdocument, Document.applyAll_append]
    exact h.work hallows hserves hfile hmode (by simp) rfl trivial

/-- Whatever an instance requests, if it is due, the file carries the changes
of all that replaced it. -/
theorem step (h : Shared path base? done memory phases changes)
    (hallows : (phases i).Allows path (changes i) request)
    (hserves : Serves memory request reply after) :
    Shared path base? (if replaces path request reply then done ++ changes i else done) after
      (Function.update phases i ((phases i).next request reply)) changes := by
  cases request with
  | rename source target => exact h.rename hallows hserves
  | write target content => exact h.write hallows hserves
  | remove target => exact h.remove hallows hserves
  | release ticket => exact h.release hallows hserves _
  | lock target mode timeoutMs =>
    cases reply with
    | ok ticket => exact h.lock hallows hserves
    | error fault => exact h.quiet hallows hserves (fun _ => id) (by simp) (by simp)
  | read target =>
    have htarget : target = path := hallows
    subst htarget
    cases hstage : (phases i).stage with
    | locked mode =>
      rw [Phase.next_read hstage]
      exact h.read hstage hserves
    | _ =>
      have hnext : (phases i).next (.read target) reply = phases i := by
        rw [Phase.next, hstage]
      rw [hnext]
      exact h.quiet hallows hserves (fun _ => id) (by simp) (by simp)
  | createDirs path => exact h.quiet hallows hserves (fun _ => id) (by simp) (by simp)
  | «exists» path => exact h.quiet hallows hserves (fun _ => id) (by simp) (by simp)
  | realPath path => exact h.quiet hallows hserves (fun _ => id) (by simp) (by simp)
  | currentDir => exact h.quiet hallows hserves (fun _ => id) (by simp) (by simp)
  | processId => exact h.quiet hallows hserves (fun _ => id) (by simp) (by simp)
  | ask question => exact h.quiet hallows hserves (fun _ => id) (by simp) (by simp)
  | warn warning => exact h.quiet hallows hserves (fun _ => id) (by simp) (by simp)

end Shared

end

end TestSkeleton.Preferences
