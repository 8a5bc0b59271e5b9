import TestSkeleton.Proofs.Preferences.SavedFile
import TestSkeleton.Proofs.Generation.Writing

/-!
# A generation in which any step may fail

The steps of a generation up to the test file only look at the files, and the
two writes at its end are guarded.  Whatever fails, what the files hold
afterwards can be told from the step that failed.

* `Discerning` says that a look for a file is answered right, at least where
  the file could be written.  Otherwise a file that exists may be taken for
  one that does not.
* `Writes` tells the ways to write a case apart.  `Decides` is the text that a
  case is written with and why, and `runs_writeCase` that a case is written
  completely or not at all.  `Decides.madeFrom` is what was at the place of
  the file before.
* `runs_commit` is the same for the remembered directory.
* `Planned` is what a generation has found out when it starts to write, and
  `Planned.finish` what it does then.  `runs_generate_planned` and
  `runs_generate` say that it has written nothing before.
-/

namespace TestSkeleton.Generation

open Files
open Files.Action (Runs runs_done runs_step runs_andThen)
open Memory (Attempts Frames Leads HasFile)

variable {serves : Behaviour} {store store' : TestStore} {memory after : Memory}

/-! ## Looking for a file -/

/-- What may become of a request where a look whether something exists does
not fail. -/
def Sees : Behaviour := fun memory request reply after =>
  Attempts memory request reply after ∧
    ∀ path, request = .exists path → (reply, after) = Memory.serve request memory

theorem sees_serve (memory : Memory) (request : Request) :
    Sees memory request (memory.serve request).1 (memory.serve request).2 :=
  ⟨Memory.attempts_serve memory request, fun _ _ => rfl⟩

theorem sees_refines : Refines Sees Attempts :=
  fun _ _ _ _ h => h.1

/-- Whether a look at a path is answered right if the path can be seen, and no
file gets a name that cannot be seen.  The way to such a path is closed to the
process. -/
def Discerns (unseen : String → Prop) (memory : Memory) :
    (request : Request) → Reply request → Prop
  | .exists path, found => unseen path ∨ found = memory.tree.contains memory.current path
  | .rename _ target, renamed => unseen target → ∃ fault : Fault, renamed = Except.error fault
  | _, _ => True

/-- What may become of a request where some paths cannot be seen. -/
def SeesBut (unseen : String → Prop) : Behaviour := fun memory request reply after =>
  Attempts memory request reply after ∧ Discerns unseen memory request reply

/-- Whether a look that fails is told apart from the file not being there, as
far as something can be renamed to its path. -/
def Discerning (serves : Behaviour) : Prop :=
  ∃ unseen, Refines serves (SeesBut unseen)

/-- Where no look fails, every path is seen. -/
theorem discerning_of_refines (h : Refines serves Sees) : Discerning serves := by
  refine ⟨fun _ => False, fun memory request reply after hserve => ?_⟩
  have hsees := h _ _ _ _ hserve
  refine ⟨hsees.1, ?_⟩
  cases request with
  | «exists» path => exact Or.inr (congrArg Prod.fst (hsees.2 path rfl))
  | rename source target => exact False.elim
  | _ => trivial

theorem carriesOut_refines_sees : Refines CarriesOut Sees :=
  fun _ _ _ _ h => ⟨Or.inl h, fun _ _ => h⟩

/-- A file that is replaced can be seen. -/
theorem not_unseen_of_replaces {unseen : String → Prop} (hserves : Refines serves (SeesBut unseen))
    {path temporary : String} {content : ByteArray}
    (h : Memory.Replaces serves path temporary content memory (.ok ()) after) : ¬ unseen path := by
  intro hunseen
  cases h with
  | moved hmade hwrite hrename =>
    obtain ⟨fault, hfault⟩ := (hserves _ _ _ _ hrename).2 hunseen
    cases hfault

/-- A path that is looked up in vain, and to which a file is written then, led
nowhere. -/
theorem Discerning.contains_eq (h : Discerning serves) {looked seen : Memory}
    {path temporary : String} {content : ByteArray}
    (hlook : serves looked (.exists path) false seen)
    (hreplaces : Memory.Replaces serves path temporary content memory (.ok ()) after) :
    looked.tree.contains looked.current path = false := by
  obtain ⟨unseen, hserves⟩ := h
  rcases (hserves _ _ _ _ hlook).2 with hunseen | hfound
  · exact absurd hunseen (not_unseen_of_replaces hserves hreplaces)
  · exact hfound.symm

/-! ## The test file -/

/-- A text that was read is in the file. -/
theorem runs_readText_ok {path text : String}
    (h : Runs Attempts memory (Action.readText path) (.ok text) after) :
    memory.tree.read memory.current path = .ok text.toUTF8 ∧ after = memory := by
  rw [Action.readText, Action.bind_eq, runs_andThen] at h
  obtain ⟨reply, between, hread, hrest⟩ := h
  obtain ⟨content, system, hserves, hdone⟩ := runs_step.1 hread
  obtain ⟨rfl, rfl⟩ := runs_done.1 hdone
  cases reply with
  | error fault =>
    obtain ⟨hresult, -⟩ := runs_done.1 hrest
    cases hresult
  | ok content =>
    have hcontent : String.fromUTF8? content = some text ∧ after = between := by
      revert hrest
      simp only
      split
      · rename_i found hfound
        intro hrest
        obtain ⟨hresult, hafter⟩ := runs_done.1 hrest
        cases hresult
        exact ⟨hfound, hafter⟩
      · intro hrest
        obtain ⟨hresult, -⟩ := runs_done.1 hrest
        cases hresult
    obtain ⟨htext, rfl⟩ := hcontent
    rcases hserves with hserve | ⟨fault, hfault, -⟩ | ⟨-, hdeparts⟩
    · rw [← Text.eq_toUTF8_of_fromUTF8? htext]
      exact ⟨(congrArg Prod.fst hserve).symm, congrArg Prod.snd hserve⟩
    · cases hfault
    · exact hdeparts.elim

/-- A warning changes no file. -/
theorem runs_warnIf (hserves : Refines serves Attempts) {α : Type} {condition : Prop}
    [Decidable condition] {warning : Warning} {action : Action α} {result : α}
    (h : Runs serves memory
      (if condition then (Action.warn warning).andThen fun _ => action else action) result after) :
    ∃ warned, Frames [] [] memory warned ∧ Runs serves warned action result after := by
  split at h
  · obtain ⟨told, warned, hwarn, hrest⟩ := runs_andThen.1 h
    have hquiet : (Action.warn warning).IsQuiet := isQuiet_ofRequest trivial
    exact ⟨warned, .of_isQuiet hquiet (hwarn.mono hserves), hrest⟩
  · exact ⟨memory, .refl _ _ memory, h⟩

/-- How a case is added to a file, told by the step that failed. -/
inductive Appends (serves : Behaviour) (path caseText : String) (memory : Memory) :
    Except Failure Unit → Memory → Prop where
  | unread {after : Memory} {fault : Fault}
      (hread : Runs serves memory (Action.readText path) (.error fault) after) :
      Appends serves path caseText memory (.error (.fileRead path fault)) after
  | malformed {after : Memory} {front : String} {malformed : TestFile.Malformed}
      (hread : memory.tree.read memory.current path = .ok front.toUTF8)
      (hlooked : Frames [] [] memory after)
      (hinsert : TestFile.insertCase front.toList caseText.toList = .error malformed) :
      Appends serves path caseText memory (.error (.malformedTestFile path malformed.reason)) after
  | written {looked after : Memory} {front text : String} {result : Except Failure Unit}
      (hread : memory.tree.read memory.current path = .ok front.toUTF8)
      (hlooked : Frames [] [] memory looked)
      (hinsert : TestFile.insertCase front.toList caseText.toList = .ok text.toList)
      (hreplace : Runs serves looked (replace path text.toUTF8) result after) :
      Appends serves path caseText memory result after

theorem runs_appendCase_cases (hserves : Refines serves Attempts)
    {path caseName caseText : String} {result : Except Failure Unit}
    (h : Runs serves memory (appendCase path caseName caseText) result after) :
    Appends serves path caseText memory result after := by
  rw [appendCase, Action.bind_eq, runs_andThen] at h
  obtain ⟨reply, read, hread, hrest⟩ := h
  have hlooked := Frames.of_isQuiet (isQuiet_readText path) (hread.mono hserves)
  cases reply with
  | error fault =>
    obtain ⟨rfl, rfl⟩ := runs_done.1 hrest
    exact .unread hread
  | ok front =>
    obtain ⟨hfront, rfl⟩ := runs_readText_ok (hread.mono hserves)
    obtain ⟨warned, hwarned, hwrite⟩ := runs_warnIf hserves hrest
    have hbefore := hlooked.trans hwarned
    cases hinsert : TestFile.insertCase front.toList caseText.toList with
    | error malformed =>
      rw [hinsert] at hwrite
      obtain ⟨rfl, rfl⟩ := runs_done.1 hwrite
      exact .malformed hfront hbefore hinsert
    | ok updated =>
      rw [hinsert] at hwrite
      have hinsert' : TestFile.insertCase front.toList caseText.toList =
          .ok (String.ofList updated).toList := by
        rw [String.toList_ofList]
        exact hinsert
      exact .written hfront hbefore hinsert' hwrite

/-- A case is added completely or not at all. -/
theorem runs_appendCase {path caseName caseText : String} {result : Except Failure Unit}
    (h : Runs Attempts memory (appendCase path caseName caseText) result after) :
    (∃ failure, result = .error failure ∧
      Frames [temporaryName path memory.processId] [] memory after) ∨
    ∃ front text : String, result = .ok () ∧
      memory.tree.read memory.current path = .ok front.toUTF8 ∧
      TestFile.insertCase front.toList caseText.toList = .ok text.toList ∧
      HasFile after path text.toUTF8 ∧
      Frames [path, temporaryName path memory.processId] [] memory after := by
  cases runs_appendCase_cases (.refl _) h with
  | unread hread =>
    have hlooked := Frames.of_isQuiet (isQuiet_readText path) hread
    exact Or.inl ⟨_, rfl, hlooked.mono (by simp) (by simp)⟩
  | malformed hread hlooked hinsert => exact Or.inl ⟨_, rfl, hlooked.mono (by simp) (by simp)⟩
  | @written looked _ front text _ hread hlooked hinsert hreplace =>
    have hends := Memory.runs_replace hreplace
    rw [hlooked.changes.processId] at hends
    rcases hends with ⟨rfl, hfile, hframes⟩ | ⟨failure, rfl, hframes⟩
    · exact Or.inr ⟨front, text, rfl, hread, hinsert, hfile,
        (hlooked.mono (by simp) (by simp)).trans hframes⟩
    · exact Or.inl ⟨failure, rfl, (hlooked.mono (by simp) (by simp)).trans hframes⟩

/-- The text that a case is written with, and the system in which that was
decided.  Until then nothing was written, and after it only the case. -/
inductive Decides (serves : Behaviour) (store : TestStore) (path document caseText : String)
    (memory after : Memory) : WriteOutcome → String → Prop where
  /-- The path was looked up in vain.  It led nowhere, unless the look was
  answered wrong. -/
  | created {looked : Memory}
      (hlooked : Frames [] [StatePaths.lockFile store.lockDir path] memory looked)
      (hwritten : Frames [path, temporaryName path memory.processId]
        [StatePaths.lockFile store.lockDir path] looked after)
      (hmissing : Discerning serves → looked.tree.contains looked.current path = false) :
      Decides serves store path document caseText memory after .created document
  /-- The file was read, and takes the case. -/
  | appended {looked : Memory} {front text : String}
      (hlooked : Frames [] [StatePaths.lockFile store.lockDir path] memory looked)
      (hwritten : Frames [path, temporaryName path memory.processId]
        [StatePaths.lockFile store.lockDir path] looked after)
      (hread : looked.tree.read looked.current path = .ok front.toUTF8)
      (hinsert : TestFile.insertCase front.toList caseText.toList = .ok text.toList) :
      Decides serves store path document caseText memory after .appended text

/-- Nothing else is written with a case. -/
theorem Decides.frames {path document caseText text : String} {outcome : WriteOutcome}
    (h : Decides serves store path document caseText memory after outcome text) :
    Frames [path, temporaryName path memory.processId]
      [StatePaths.lockFile store.lockDir path] memory after := by
  cases h with
  | created hlooked hwritten => exact (hlooked.mono (List.nil_subset _) (by simp)).trans hwritten
  | appended hlooked hwritten => exact (hlooked.mono (List.nil_subset _) (by simp)).trans hwritten

/-- What the text that a case is written with is made from, told by what was
at the place of the file before. -/
inductive MadeFrom (discerning : Prop) (path document caseText : String) (before : Memory)
    (place : Place) : WriteOutcome → String → Prop where
  /-- Nothing was there.  Or the path goes up and did not lead there, or the
  file was not seen. -/
  | created (hfree : discerning → before.tree.node? place = none ∨
        ".." ∈ Path.steps path ∧ ¬ Leads before path place) :
      MadeFrom discerning path document caseText before place .created document
  /-- A text was there, and the case is put into it. -/
  | appended {front text : String} (hfound : before.tree.node? place = some (.file front.toUTF8))
      (hinsert : TestFile.insertCase front.toList caseText.toList = .ok text.toList) :
      MadeFrom discerning path document caseText before place .appended text

/-- What only looks leaves what a text is made from. -/
theorem MadeFrom.earlier {discerning : Prop} {path document caseText text : String}
    {before between : Memory} {place : Place} {outcome : WriteOutcome}
    (h : MadeFrom discerning path document caseText between place outcome text)
    (hframes : Frames [] [] before between) :
    MadeFrom discerning path document caseText before place outcome text := by
  cases h with
  | created hfree =>
    refine .created fun hdiscerning => (hfree hdiscerning).imp (fun hnone => ?_) ?_
    · refine Option.eq_none_iff_forall_ne_some.2 fun node hnode => ?_
      rw [(hframes.changes.node place (by simp)).eq_of_some hnode] at hnone
      cases hnone
    · exact fun hup => ⟨hup.1, fun hleads => hup.2 (hleads.keeps hframes.changes)⟩
  | appended hfound hinsert => exact .appended ((hframes.file_iff (by simp) _).1 hfound) hinsert

/-- A case is added to the text that was at the place of its file.  A new
document is written where nothing was. -/
theorem Decides.madeFrom {path document caseText text : String} {outcome : WriteOutcome}
    {place : Place} (hwell : memory.tree.WellFormed)
    (h : Decides serves store path document caseText memory after outcome text)
    (hleads : Leads after path place) :
    MadeFrom (Discerning serves) path document caseText memory place outcome text := by
  cases h with
  | @created looked hlooked hwritten hmissing =>
    refine .created fun hdiscerning => or_iff_not_imp_left.2 fun hused => ?_
    -- what was there would have been found on the way to it
    obtain ⟨node, hnode⟩ := Option.ne_none_iff_exists'.1 hused
    have hnode' := (hlooked.changes.node place (by simp)).eq_of_some hnode
    have hnot : looked.tree.locate looked.current path ≠ .ok place := by
      intro hlocate
      have hcontains := hmissing hdiscerning
      rw [Tree.contains, hlocate] at hcontains
      cases hcontains
    constructor
    · refine Classical.byContradiction fun hup => ?_
      obtain ⟨parent, name, hname, rfl⟩ := hleads
      rw [hwritten.changes.current] at hname
      refine hnot ((hlooked.changes.wellFormed hwell).locate hname hup ?_)
      rw [hnode']
      rfl
    · intro hbefore
      obtain ⟨parent, name, hname, rfl⟩ := hbefore.keeps hlooked.changes
      refine hnot (hname.locate ?_)
      rw [hnode']
      rfl
  | @appended looked front _ hlooked hwritten hread hinsert =>
    obtain ⟨place', hleads', hfront⟩ :=
      (Memory.hasFile_of_read (hlooked.changes.wellFormed hwell) hread).leads
    obtain rfl := hleads.unique (hleads'.keeps hwritten.changes)
    rcases (hlooked.changes.node _ (by simp)).eq_of_file hfront with hfound | ⟨-, hempty⟩
    · exact .appended hfound hinsert
    · -- a lock file that is new takes no case
      have hnil : front = "" := String.toByteArray_inj.1 hempty
      rw [hnil] at hinsert
      cases hinsert

/-- How a case is written, told by the step that failed.  Whether it is added
to a file is decided while the lock for the file is held. -/
inductive Writes (serves : Behaviour) (store : TestStore)
    (path document caseName caseText : String) (memory : Memory) :
    Except Failure WriteOutcome → Memory → Prop where
  | refused {after : Memory} {failure : Failure}
      (hlock : Runs serves memory (acquire (StatePaths.lockFile store.lockDir path) .exclusive
        store.timeoutMs) (.error failure) after) :
      Writes serves store path document caseName caseText memory (.error failure) after
  | creates {locked looked last after : Memory} {ticket : Nat} {written : Except Failure Unit}
      (hlock : Runs serves memory (acquire (StatePaths.lockFile store.lockDir path) .exclusive
        store.timeoutMs) (.ok ticket) locked)
      (hlook : serves locked (.exists path) false looked)
      (hwrite : Runs serves looked (replace path document.toUTF8) written last)
      (hrelease : serves last (.release ticket) () after) :
      Writes serves store path document caseName caseText memory
        (written.map fun () => .created) after
  | appends {locked looked last after : Memory} {ticket : Nat} {written : Except Failure Unit}
      (hlock : Runs serves memory (acquire (StatePaths.lockFile store.lockDir path) .exclusive
        store.timeoutMs) (.ok ticket) locked)
      (hlook : serves locked (.exists path) true looked)
      (hwrite : Runs serves looked (appendCase path caseName caseText) written last)
      (hrelease : serves last (.release ticket) () after) :
      Writes serves store path document caseName caseText memory
        (written.map fun () => .appended) after

theorem runs_writeCase_cases {path document caseName caseText : String}
    {result : Except Failure WriteOutcome}
    (h : Runs serves memory (store.writeCase path document caseName caseText) result after) :
    Writes serves store path document caseName caseText memory result after := by
  obtain ⟨reply, locked, hacquire, hrest⟩ := Memory.runs_withLock h
  rcases hrest with ⟨failure, rfl, rfl, rfl⟩ | ⟨ticket, last, rfl, hbody, hrelease⟩
  · exact .refused hacquire
  obtain ⟨found, looked, hexists, hwrite⟩ := runs_andThen.1 hbody
  obtain ⟨answer, system, hanswer, hdone⟩ := runs_step.1 hexists
  obtain ⟨rfl, rfl⟩ := runs_done.1 hdone
  cases found with
  | true =>
    obtain ⟨appended, written, happend, hend⟩ := runs_andThen.1 hwrite
    obtain ⟨rfl, rfl⟩ := runs_done.1 hend
    exact .appends hacquire hanswer happend hrelease
  | false =>
    obtain ⟨replaced, written, hreplace, hend⟩ := runs_andThen.1 hwrite
    obtain ⟨rfl, rfl⟩ := runs_done.1 hend
    exact .creates hacquire hanswer hreplace hrelease

/-- A case is written completely or not at all. -/
theorem runs_writeCase (hserves : Refines serves Attempts)
    {path document caseName caseText : String} {result : Except Failure WriteOutcome}
    (h : Runs serves memory (store.writeCase path document caseName caseText) result after) :
    (∃ failure, result = .error failure ∧ Frames [temporaryName path memory.processId]
      [StatePaths.lockFile store.lockDir path] memory after) ∨
    ∃ outcome text, result = .ok outcome ∧
      Decides serves store path document caseText memory after outcome text ∧
      HasFile after path text.toUTF8 := by
  have hacquired {reply : Except Failure Nat} {locked : Memory}
      (hlock : Runs serves memory (acquire (StatePaths.lockFile store.lockDir path) .exclusive
        store.timeoutMs) reply locked) := Memory.frames_acquire (hlock.mono hserves)
  have hquiet {before later : Memory} {request : Request} {reply : Reply request}
      (hrequest : serves before request reply later) (hisQuiet : request.IsQuiet) :
      Frames [] [StatePaths.lockFile store.lockDir path] before later :=
    (Memory.frames_of_isQuiet (hserves _ _ _ _ hrequest) hisQuiet).mono (by simp) (by simp)
  have hreleased {changed : List String} {before last : Memory} {ticket : Nat}
      (hwritten : Frames changed [] before last) (hrelease : serves last (.release ticket) () after) :
      Frames changed [StatePaths.lockFile store.lockDir path] before after :=
    (hwritten.mono (List.Subset.refl _) (List.nil_subset _)).trans
      ((hquiet hrelease trivial).mono (List.nil_subset _) (List.Subset.refl _))
  cases runs_writeCase_cases h with
  | refused hlock => exact Or.inl ⟨_, rfl, (hacquired hlock).mono (by simp) (by simp)⟩
  | creates hlock hlook hwrite hrelease =>
    have hlooked := (hacquired hlock).trans (hquiet hlook trivial)
    have hreplaces := Memory.runs_replace_cases hserves hwrite
    have hends := Memory.runs_replace (hwrite.mono hserves)
    rw [hlooked.changes.processId] at hends
    rcases hends with ⟨rfl, hfile, hwritten⟩ | ⟨failure, rfl, hwritten⟩
    · have hafter := ((hquiet hlook trivial).mono (List.nil_subset _) (List.Subset.refl _)).trans
        (hreleased hwritten hrelease)
      exact Or.inr ⟨.created, document, rfl,
        .created (hacquired hlock) hafter fun hdiscerning =>
          hdiscerning.contains_eq hlook hreplaces,
        (hquiet hrelease trivial).hasFile hfile (by simp)⟩
    · exact Or.inl ⟨failure, rfl, (hlooked.mono (by simp) (by simp)).trans
        (hreleased hwritten hrelease)⟩
  | appends hlock hlook hwrite hrelease =>
    have hlooked := (hacquired hlock).trans (hquiet hlook trivial)
    have hends := runs_appendCase (hwrite.mono hserves)
    rw [hlooked.changes.processId] at hends
    rcases hends with ⟨failure, rfl, hwritten⟩ | ⟨front, text, rfl, hread, hinsert, hfile, hwritten⟩
    · exact Or.inl ⟨failure, rfl, (hlooked.mono (by simp) (by simp)).trans
        (hreleased hwritten hrelease)⟩
    · exact Or.inr ⟨.appended, text, rfl,
        .appended hlooked (hreleased hwritten hrelease) hread hinsert,
        (hquiet hrelease trivial).hasFile hfile (by simp)⟩

/-- Whether or not a case is written, nothing but the file at the path
changes. -/
theorem frames_writeCase {path document caseName caseText : String}
    {result : Except Failure WriteOutcome}
    (h : Runs Attempts memory (store.writeCase path document caseName caseText) result after) :
    Frames [path, temporaryName path memory.processId]
      [StatePaths.lockFile store.lockDir path] memory after := by
  rcases runs_writeCase (.refl _) h with ⟨failure, -, hframes⟩ | ⟨outcome, text, -, hdecides, -⟩
  · exact hframes.mono (by simp) (List.Subset.refl _)
  · exact hdecides.frames

/-! ## The remembered directory -/

/-- The paths that saving the preferences may change. -/
def TestStore.savePaths (store : TestStore) (processId : Nat) : List String :=
  match store.preferences with
  | .memory _ => []
  | .file file => [file.path, temporaryName file.path processId]

/-- The lock file for the preferences. -/
def TestStore.saveLocks (store : TestStore) : List String :=
  match store.preferences with
  | .memory _ => []
  | .file file => [file.lockPath]

/-- Recorded changes show and are pending. -/
theorem recordAll_file (file : Preferences.FileStore) (changes : List Preferences.Change) :
    (Preferences.Store.file file).recordAll changes =
      .file { file with
        document := file.document.applyAll changes, pending := file.pending ++ changes } := by
  induction changes generalizing file with
  | nil => simp [Preferences.Store.recordAll]
  | cons change changes ih =>
    show (Preferences.Store.file (file.record change)).recordAll changes = _
    rw [ih]
    simp [Preferences.FileStore.record]

/-- A directory is saved completely or not at all, and only preferences in a
file can fail to save it.  Then they still show it. -/
theorem runs_commit {pending : Option PendingOutput} {result : Except Failure Unit × TestStore}
    (h : Runs Attempts memory (store.commit pending) result after) :
    (result.1 = .ok () ∧
      Frames (store.savePaths memory.processId) store.saveLocks memory after) ∨
    ∃ failure file output, result.1 = .error failure ∧ store.preferences = .file file ∧
      pending = some output ∧
      result.2.preferences.document = remembered store.preferences.document pending ∧
      Frames [temporaryName file.path memory.processId] [file.lockPath] memory after := by
  cases pending with
  | none =>
    obtain ⟨rfl, rfl⟩ := runs_done.1 h
    exact Or.inl ⟨rfl, .refl _ _ after⟩
  | some pending =>
    obtain ⟨saved, last, hremember, hend⟩ := runs_andThen.1 h
    rw [Preferences.Outputs.remember_ofText] at hremember
    cases hstore : store.preferences with
    | memory document =>
      rw [hstore, recordAll_memory] at hremember
      obtain ⟨rfl, rfl⟩ := runs_done.1 hremember
      obtain ⟨rfl, rfl⟩ := runs_done.1 hend
      exact Or.inl ⟨rfl, .refl _ _ after⟩
    | file file =>
      rw [hstore, recordAll_file] at hremember
      obtain ⟨reply, written, hsave, hdone⟩ := runs_andThen.1 hremember
      obtain ⟨rfl, rfl⟩ := runs_done.1 hdone
      obtain ⟨rfl, rfl⟩ := runs_done.1 hend
      rcases Preferences.runs_save (.refl _) hsave with ⟨hok, -, hframes⟩ | ⟨failure, rfl, hframes⟩
      · rw [TestStore.savePaths, TestStore.saveLocks, hstore]
        exact Or.inl ⟨hok, hframes⟩
      · exact Or.inr ⟨failure, file, pending, rfl, rfl, rfl, rfl, hframes⟩

/-- Whether or not a directory is remembered, nothing but the preferences
changes. -/
theorem frames_commit {pending : Option PendingOutput} {result : Except Failure Unit × TestStore}
    (h : Runs Attempts memory (store.commit pending) result after) :
    Frames (store.savePaths memory.processId) store.saveLocks memory after := by
  rcases runs_commit h with ⟨-, hframes⟩ | ⟨failure, file, output, -, hstore, -, -, hframes⟩
  · exact hframes
  · rw [TestStore.savePaths, TestStore.saveLocks, hstore]
    exact hframes.mono (by simp) (by simp)

/-! ## The way to the test file -/

theorem isQuiet_selectedLine (context : Source.Context) : context.selectedLine.IsQuiet := by
  rw [Source.Context.selectedLine]
  split
  · trivial
  · trivial
  · split
    · trivial
    · rw [Action.bind_eq]
      refine (isQuiet_readText _).andThen fun reply => ?_
      split <;> trivial

theorem isQuiet_absoluteSource (source : String) : (absoluteSource source).IsQuiet := by
  rw [absoluteSource, Action.bind_eq]
  refine Action.IsQuiet.andThen (isQuiet_ofRequest trivial) fun reply => ?_
  split
  · trivial
  · split
    · trivial
    · split
      · trivial
      · rw [Action.bind_eq]
        refine Action.IsQuiet.andThen (isQuiet_ofRequest trivial) fun reply => ?_
        split <;> trivial

theorem isQuiet_choose (prompt : Source.FolderPrompt) (source : String) :
    (prompt.choose source).IsQuiet := by
  cases prompt with
  | fixed directory => trivial
  | declined => trivial
  | interactive =>
    rw [Source.FolderPrompt.choose, Action.bind_eq]
    refine Action.IsQuiet.andThen (isQuiet_ofRequest trivial) fun reply => ?_
    split
    · exact Action.IsQuiet.andThen (isQuiet_ofRequest trivial) fun _ => trivial
    · trivial

theorem isQuiet_absoluteOrSame (directory : String) :
    (TestStore.absoluteOrSame directory).IsQuiet := by
  rw [TestStore.absoluteOrSame]
  split
  · trivial
  · split
    · trivial
    · rw [Action.bind_eq]
      refine Action.IsQuiet.andThen (isQuiet_ofRequest trivial) fun reply => ?_
      split <;> trivial

theorem isQuiet_resolve (store : TestStore) (source : String) (prompt : Source.FolderPrompt) :
    (store.resolve source prompt).IsQuiet := by
  rw [TestStore.resolve]
  simp only
  split
  · trivial
  · rw [Action.bind_eq]
    refine (isQuiet_choose prompt source).andThen fun answer => ?_
    split
    · exact (isQuiet_absoluteOrSame _).andThen fun _ => trivial
    · trivial

/-- What a generation knows when it is about to write. -/
structure Planned (serves : Behaviour) (store : TestStore) (settings : Settings)
    (context : Source.Context) (prompt : Source.FolderPrompt) (memory : Memory) where
  source : String
  line : String
  plan : Plan
  absolute : String
  resolved : ResolvedOutput
  /-- The system after the line was read. -/
  selected : Memory
  /-- The system after the source file was found. -/
  located : Memory
  /-- The system after the directory was chosen. -/
  asked : Memory
  isPath : context.path = .ok source
  isSource : settings.naming.isSource source = true
  selects : Runs serves memory context.selectedLine (.ok line) selected
  plans : Generation.plan settings source line = .ok plan
  locates : Runs serves selected (absoluteSource source) (.ok absolute) located
  resolves : Runs serves located (store.resolve absolute prompt) resolved asked

section

variable {settings : Settings} {context : Source.Context} {prompt : Source.FolderPrompt}
  {dryRun : Bool}

/-- The path of the test file. -/
def Planned.testFile (planned : Planned serves store settings context prompt memory) : String :=
  Path.join planned.resolved.directory planned.plan.fileName

/-- Nothing is written on the way to the test file. -/
theorem Planned.frames (planned : Planned serves store settings context prompt memory)
    (hserves : Refines serves Attempts) : Frames [] [] memory planned.asked :=
  ((Frames.of_isQuiet (isQuiet_selectedLine context) (planned.selects.mono hserves)).trans
    (.of_isQuiet (isQuiet_absoluteSource _) (planned.locates.mono hserves))).trans
    (.of_isQuiet (isQuiet_resolve store _ prompt) (planned.resolves.mono hserves))

/-- What is left of a generation when the directory is chosen. -/
def Planned.finish (planned : Planned serves store settings context prompt memory)
    (dryRun : Bool) : Action (Except Failure Generated × TestStore) := do
  if dryRun then return (.ok (← preview planned.plan planned.resolved planned.testFile), store)
  else carryOut store planned.plan planned.resolved planned.testFile

/-- A generation is refused while it only looks, or goes on to its end. -/
theorem runs_generate_planned (hserves : Refines serves Attempts)
    {result : Except Failure Generated × TestStore}
    (h : Runs serves memory (generate store settings context prompt dryRun) result after) :
    (∃ failure, result = (.error failure, store) ∧ Frames [] [] memory after) ∨
    ∃ planned : Planned serves store settings context prompt memory,
      Runs serves planned.asked (planned.finish dryRun) result after := by
  rw [generate] at h
  cases hpath : context.path with
  | error failure =>
    rw [hpath] at h
    obtain ⟨rfl, rfl⟩ := runs_done.1 h
    exact Or.inl ⟨failure, rfl, .refl _ _ after⟩
  | ok source =>
    rw [hpath] at h
    simp only at h
    split at h
    · obtain ⟨rfl, rfl⟩ := runs_done.1 h
      exact Or.inl ⟨_, rfl, .refl _ _ after⟩
    rename_i hsource
    obtain ⟨reply, selected, hselect, hrest⟩ := runs_andThen.1 h
    have hselected := Frames.of_isQuiet (isQuiet_selectedLine context) (hselect.mono hserves)
    cases reply with
    | error failure =>
      obtain ⟨rfl, rfl⟩ := runs_done.1 hrest
      exact Or.inl ⟨failure, rfl, hselected⟩
    | ok line =>
      cases hplan : plan settings source line with
      | error failure =>
        simp only [hplan] at hrest
        obtain ⟨rfl, rfl⟩ := runs_done.1 hrest
        exact Or.inl ⟨failure, rfl, hselected⟩
      | ok planned =>
        simp only [hplan] at hrest
        obtain ⟨found, located, hlocate, hresolve⟩ := runs_andThen.1 hrest
        cases found with
        | error fault =>
          obtain ⟨rfl, rfl⟩ := runs_done.1 hresolve
          exact Or.inl ⟨_, rfl, hselected.trans
            (.of_isQuiet (isQuiet_absoluteSource source) (hlocate.mono hserves))⟩
        | ok absolute =>
          obtain ⟨resolved, asked, hchosen, hfinish⟩ := runs_andThen.1 hresolve
          exact Or.inr ⟨⟨source, line, planned, absolute, resolved, selected, located, asked,
            hpath, by simpa using hsource, hselect, hplan, hlocate, hchosen⟩, hfinish⟩

/-- A generation that succeeds goes on to its end. -/
theorem runs_generate_ok (hserves : Refines serves Attempts) {generated : Generated}
    (h : Runs serves memory (generate store settings context prompt dryRun)
      (.ok generated, store') after) :
    ∃ planned : Planned serves store settings context prompt memory,
      Runs serves planned.asked (planned.finish dryRun) (.ok generated, store') after := by
  rcases runs_generate_planned hserves h with ⟨failure, hfailed, -⟩ | hplanned
  · cases hfailed
  · exact hplanned

/-- A dry run looks, and changes nothing. -/
theorem Planned.runs_finish_dry (hserves : Refines serves Attempts)
    {planned : Planned serves store settings context prompt memory}
    {result : Except Failure Generated × TestStore}
    (h : Runs serves planned.asked (planned.finish true) result after) :
    result.2 = store ∧ Frames [] [] memory after ∧
      ∃ generated, result.1 = .ok generated ∧
        generated.firstTime = planned.resolved.firstTime ∧
        generated.testFile = planned.testFile := by
  obtain ⟨shown, last, hpreview, hend⟩ := runs_andThen.1 h
  obtain ⟨rfl, rfl⟩ := runs_done.1 hend
  have hquiet : (preview planned.plan planned.resolved planned.testFile).IsQuiet :=
    Action.IsQuiet.andThen (isQuiet_ofRequest trivial) fun _ => trivial
  have hframes := (planned.frames hserves).trans (.of_isQuiet hquiet (hpreview.mono hserves))
  obtain ⟨found, looked, -, hshown⟩ := runs_andThen.1 hpreview
  obtain ⟨rfl, -⟩ := runs_done.1 hshown
  exact ⟨rfl, hframes, _, rfl, rfl, rfl⟩

/-- A generation that succeeds, and is no dry run, wrote its case and then
remembered the directory. -/
theorem Planned.runs_finish_written
    {planned : Planned serves store settings context prompt memory} {generated : Generated}
    (h : Runs serves planned.asked (planned.finish false) (.ok generated, store') after) :
    ∃ outcome written, Runs serves planned.asked (store.writeCase planned.testFile
        planned.plan.document planned.plan.caseName planned.plan.caseText) (.ok outcome) written ∧
      Runs serves written (store.commit planned.resolved.pending) (.ok (), store') after ∧
      generated.firstTime = planned.resolved.firstTime ∧
      generated.testFile = planned.testFile := by
  have hcarry : Runs serves planned.asked (carryOut store planned.plan planned.resolved
      planned.testFile) (.ok generated, store') after := h
  obtain ⟨wrote, written, hwrite, hrest⟩ := runs_andThen.1 hcarry
  cases wrote with
  | error failure => cases (runs_done.1 hrest).1
  | ok outcome =>
    obtain ⟨⟨committed, last⟩, saved, hcommit, hend⟩ := runs_andThen.1 hrest
    cases committed with
    | error failure => cases (runs_done.1 hend).1
    | ok done =>
      obtain ⟨hresult, rfl⟩ := runs_done.1 hend
      cases hresult
      exact ⟨outcome, written, hwrite, hcommit, rfl, rfl⟩

/-- A generation ends without a change, or with the two writes. -/
theorem runs_generate (hserves : Refines serves Attempts)
    {result : Except Failure Generated × TestStore}
    (h : Runs serves memory (generate store settings context prompt dryRun) result after) :
    (result.2 = store ∧ Frames [] [] memory after ∧
      ∀ generated, result.1 = .ok generated → dryRun = true) ∨
    ∃ planned : Planned serves store settings context prompt memory, dryRun = false ∧
      Runs serves planned.asked (carryOut store planned.plan planned.resolved planned.testFile)
        result after := by
  rcases runs_generate_planned hserves h with ⟨failure, rfl, hframes⟩ | ⟨planned, hfinish⟩
  · exact Or.inl ⟨rfl, hframes, fun generated hok => by cases hok⟩
  cases dryRun with
  | true =>
    obtain ⟨hstore, hframes, -⟩ := Planned.runs_finish_dry hserves hfinish
    exact Or.inl ⟨hstore, hframes, fun _ _ => rfl⟩
  | false => exact Or.inr ⟨planned, rfl, hfinish⟩

end

end TestSkeleton.Generation
