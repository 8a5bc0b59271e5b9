import TestSkeleton.Proofs.Generation.Extending
import TestSkeleton.Proofs.TestFile.OwnHeaders

/-!
# Generating a case again

A case that the test file has already is added once more, and the user is
told.  Whether the file has it is found out from the headers in it, so a case
is noticed if its own header is found again.

* `Memory.Tells` says that a run tells the user something, whatever else it
  tells.  `warnings_of_runs` is that a run takes back no warning.
* `runs_generate_written` and `runs_generate_tells` are the two generations:
  the first one leaves the case in its file, and the second one finds it.
* `runs_generate_again` is the result, with the exact condition on the names,
  and `unnoticed_dashed` a file that does not meet it.
-/

namespace TestSkeleton

namespace Files.Memory

open Files.Action (Runs runs_done runs_step)

variable {memory after : Memory} {request : Request} {reply : Reply request}

/-! ## Warnings -/

/-- What the user was told is not taken back. -/
theorem warnings_of_runs {α : Type} {action : Action α} {result : α}
    (h : Runs Attempts memory action result after) : memory.warnings <+: after.warnings := by
  induction h with
  | done result memory => exact List.prefix_rfl
  | step hserves _ ih =>
    refine List.IsPrefix.trans ?_ ih
    obtain ⟨part, -, heffect⟩ := hserves.became.effect
    exact heffect.warnings

/-- Whether a warning was given on the way from one system to another. -/
def Tells (memory after : Memory) (warning : Warning) : Prop :=
  ∃ told, after.warnings = memory.warnings ++ told ∧ warning ∈ told

theorem Tells.within {warning : Warning} {before later : Memory} (h : Tells memory after warning)
    (hbefore : before.warnings <+: memory.warnings) (hlater : after.warnings <+: later.warnings) :
    Tells before later warning := by
  obtain ⟨told, htold, hmem⟩ := h
  obtain ⟨front, hfront⟩ := hbefore
  obtain ⟨back, hback⟩ := hlater
  refine ⟨front ++ told ++ back, ?_, ?_⟩
  · rw [← hback, htold, ← hfront, List.append_assoc, List.append_assoc, List.append_assoc]
  · exact List.mem_append_left _ (List.mem_append_right _ hmem)

/-- Giving a warning does not fail. -/
theorem tells_of_warn {warning : Warning} {result : Unit}
    (h : Runs Attempts memory (Action.warn warning) result after) :
    Tells memory after warning := by
  obtain ⟨reply, system, hserves, hdone⟩ := runs_step.1 h
  obtain ⟨-, rfl⟩ := runs_done.1 hdone
  rcases hserves with hserve | hmisses | ⟨-, hdeparts⟩
  · exact ⟨[warning], congrArg (fun served => served.2.warnings) hserve, List.mem_singleton_self _⟩
  · exact hmisses.elim
  · exact hdeparts.elim

end Files.Memory

namespace Generation

open Files
open Files.Action (Runs runs_done runs_step runs_andThen)
open Memory (Attempts Frames Leads HasFile Tells warnings_of_runs tells_of_warn)

variable {serves : Behaviour} {store store' : TestStore} {settings : Settings}
  {context : Source.Context} {prompt : Source.FolderPrompt} {memory after : Memory}
  {source path document caseName caseText text : String} {signature : Signature}
  {generated : Generated} {outcome : WriteOutcome}

/-! ## Adding a case that is there -/

/-- A case is added with a warning to a file that has its name. -/
theorem runs_appendCase_tells (hserves : Refines serves Attempts)
    (h : Runs serves memory (appendCase path caseName caseText) (.ok ()) after)
    (hfile : HasFile memory path text.toUTF8)
    (hname : caseName.toList ∈ TestFile.caseNames text.toList) :
    Tells memory after .caseExists := by
  rw [appendCase, Action.bind_eq, runs_andThen] at h
  obtain ⟨reply, read, hread, hrest⟩ := h
  cases reply with
  | error fault => cases (runs_done.1 hrest).1
  | ok front =>
    obtain ⟨hfront, rfl⟩ := runs_readText_ok (hread.mono hserves)
    rw [hfile.read, Except.ok.injEq] at hfront
    obtain rfl : text = front := String.toByteArray_inj.1 hfront
    simp only [List.contains_iff_mem, hname, if_true] at hrest
    obtain ⟨told, warned, hwarn, hwrite⟩ := runs_andThen.1 hrest
    exact (tells_of_warn (hwarn.mono hserves)).within List.prefix_rfl
      (warnings_of_runs (hwrite.mono hserves))

/-- A case is written with a warning if its file has its name. -/
theorem runs_writeCase_tells
    (h : Runs Sees memory (store.writeCase path document caseName caseText) (.ok outcome) after)
    (hfile : HasFile memory path text.toUTF8)
    (hname : caseName.toList ∈ TestFile.caseNames text.toList) :
    Tells memory after .caseExists := by
  have hlocked {locked : Memory} {reply : Except Failure Nat}
      (hlock : Runs Sees memory (acquire (StatePaths.lockFile store.lockDir path) .exclusive
        store.timeoutMs) reply locked) : HasFile locked path text.toUTF8 :=
    (Memory.frames_acquire (hlock.mono sees_refines)).hasFile hfile (by simp)
  generalize hresult : (Except.ok outcome : Except Failure WriteOutcome) = result at h
  cases runs_writeCase_cases h with
  | refused hlock => cases hresult
  | creates hlock hlook hwrite hrelease =>
    -- the file is there, and a look at it is answered right
    obtain ⟨place, hlocate, -⟩ := Memory.read_ok (hlocked hlock).read
    exact absurd hlocate (not_locate_of_sees hlook place)
  | @appends locked looked last _ _ written hlock hlook hwrite hrelease =>
    have hlooked : Runs Attempts locked (Action.pathExists path) true looked :=
      .step hlook.1 (.done true looked)
    have hfile' : HasFile looked path text.toUTF8 :=
      (Memory.frames_of_isQuiet hlook.1 trivial).hasFile (hlocked hlock) (by simp)
    have hreleased : Runs Attempts last (Action.release _) () after :=
      .step hrelease.1 (.done () after)
    cases written with
    | error failure => cases hresult
    | ok done =>
      exact (runs_appendCase_tells sees_refines hwrite hfile' hname).within
        ((warnings_of_runs (hlock.mono sees_refines)).trans (warnings_of_runs hlooked))
        (warnings_of_runs hreleased)

/-- A written case is found again in its file if it is found in its own
text. -/
theorem Decides.mem_caseNames {name : List Char}
    (h : Decides serves store path (planFor settings source signature).document
      (planFor settings source signature).caseText memory after outcome text)
    (hname : name ∈ TestFile.caseNames (planFor settings source signature).caseText.toList) :
    name ∈ TestFile.caseNames text.toList := by
  cases h with
  | created =>
    rw [planFor, TestFile.caseNames_document]
    exact List.mem_append_right _ hname
  | appended hlooked hwritten hread hinsert =>
    exact TestFile.mem_caseNames_insertCase settings.template hinsert hname

/-! ## Two generations -/

/-- A line that was read is the selected one. -/
theorem runs_selectedLine_ok {line : String}
    (h : Runs Attempts memory context.selectedLine (.ok line) after) :
    (memory.run context.selectedLine).1 = .ok line := by
  rw [Source.Context.selectedLine] at h ⊢
  split at h
  · exact (runs_done.1 h).1.symm
  · cases (runs_done.1 h).1
  · split at h
    · cases (runs_done.1 h).1
    · rename_i number hpath path hsame
      obtain ⟨reply, read, hread, hrest⟩ := runs_andThen.1 h
      cases reply with
      | error fault => cases (runs_done.1 hrest).1
      | ok text =>
        obtain ⟨htext, -⟩ := runs_readText_ok hread
        obtain ⟨hline, -⟩ := runs_done.1 hrest
        rw [hline, Action.bind_eq, Memory.run_andThen, Memory.run_readText, htext]
        simp only [Text.fromUTF8?_toUTF8]
        rfl

/-- A generation plans the case for the signature that was selected. -/
theorem Planned.plan_eq (hserves : Refines serves Attempts)
    (planned : Planned serves store settings context prompt memory)
    (h : subject? settings context memory = some (source, signature)) :
    planned.plan = planFor settings source signature := by
  have hline := runs_selectedLine_ok (planned.selects.mono hserves)
  have hplan := planned.plans
  rw [subject?, planned.isPath] at h
  simp only [planned.isSource, Bool.not_true, Bool.false_eq_true, if_false, hline] at h
  rw [Generation.plan] at hplan
  cases hread : Signature.read planned.line with
  | error refusal =>
    rw [hread] at h
    cases h
  | ok found =>
    rw [hread, Except.ok.injEq] at hplan
    rw [hread, Option.some.injEq, Prod.mk.injEq] at h
    rw [← hplan, h.1, h.2]

/-- A generation that succeeds leaves its case in the test file, unless the
preferences are saved over it. -/
theorem runs_generate_written (hserves : Refines serves Attempts)
    (h : Runs serves memory (generate store settings context prompt false)
      (.ok generated, store') after)
    (hsubject : subject? settings context memory = some (source, signature))
    (hspares : ∀ path ∈ store.savePaths memory.processId, ∀ place,
      Leads after generated.testFile place → ¬ Leads after path place)
    {name : List Char}
    (hname : name ∈ TestFile.caseNames (planFor settings source signature).caseText.toList) :
    ∃ text : String, HasFile after generated.testFile text.toUTF8 ∧
      name ∈ TestFile.caseNames text.toList := by
  obtain ⟨planned, hfinish⟩ := runs_generate_ok hserves h
  obtain ⟨outcome, written, hwrite, hcommit, -, htestFile⟩ := Planned.runs_finish_written hfinish
  rw [planned.plan_eq hserves hsubject] at hwrite
  rw [htestFile] at hspares ⊢
  rcases runs_writeCase hserves hwrite with ⟨failure, hfailed, -⟩ | ⟨_, text, -, hdecides, hfile⟩
  · cases hfailed
  · have hsaved := frames_commit (hcommit.mono hserves)
    rw [hdecides.frames.changes.processId, (planned.frames hserves).changes.processId] at hsaved
    exact ⟨text, hsaved.hasFile hfile fun other hother place hleads =>
      hspares other hother place hleads, hdecides.mem_caseNames hname⟩

/-- A generation for a test file that has the case warns. -/
theorem runs_generate_tells
    (h : Runs Sees memory (generate store settings context prompt false)
      (.ok generated, store') after)
    (hsubject : subject? settings context memory = some (source, signature))
    (hfile : HasFile memory generated.testFile text.toUTF8)
    (hname : (planFor settings source signature).caseName.toList ∈
      TestFile.caseNames text.toList) : Tells memory after .caseExists := by
  obtain ⟨planned, hfinish⟩ := runs_generate_ok sees_refines h
  obtain ⟨outcome, written, hwrite, hcommit, -, htestFile⟩ := Planned.runs_finish_written hfinish
  have hlooked : memory.warnings <+: planned.asked.warnings :=
    ((warnings_of_runs (planned.selects.mono sees_refines)).trans
      (warnings_of_runs (planned.locates.mono sees_refines))).trans
      (warnings_of_runs (planned.resolves.mono sees_refines))
  rw [htestFile] at hfile
  rw [← planned.plan_eq sees_refines hsubject] at hname
  have hasked := (planned.frames sees_refines).hasFile hfile (by simp)
  exact (runs_writeCase_tells hwrite hasked hname).within hlooked
    (warnings_of_runs (hcommit.mono sees_refines))

/-- With the default settings, two generations in turn of the same case in one
file end with a warning if the case is found again in its own text.  For a
class without marks of a header that means that the class is a name, up to
blanks around it, and that the method is made of word characters.  Any request
may fail on the way but a look whether something exists, and the test file is
not the one that the preferences are saved in. -/
theorem runs_generate_again {source : String} {signature : Signature} :
    let plan := planFor {} source signature
    let fixture := ({} : Naming).fixtureOf (({} : Naming).headerOf source)
    ('(' ∉ fixture.toList → ',' ∉ fixture.toList →
      (plan.caseName.toList ∈ TestFile.caseNames plan.caseText.toList ↔
        TestFile.IsName (Text.trim fixture.toList) ∧
          ∀ c ∈ signature.unqualifiedName.toList, Text.isWord c = true)) ∧
    (plan.caseName.toList ∈ TestFile.caseNames plan.caseText.toList →
      ∀ (store store' other other' : TestStore) (context context' : Source.Context)
        (prompt prompt' : Source.FolderPrompt) (memory between after : Memory)
        (first second : Generated),
      subject? {} context memory = some (source, signature) →
      Runs Sees memory (generate store {} context prompt false) (.ok first, store') between →
      subject? {} context' between = some (source, signature) →
      Runs Sees between (generate other {} context' prompt' false) (.ok second, other') after →
      second.testFile = first.testFile →
      (∀ path ∈ store.savePaths memory.processId, ∀ place,
        Leads between first.testFile place → ¬ Leads between path place) →
      Tells between after .caseExists) := by
  intro plan fixture
  refine ⟨?_, ?_⟩
  · intro hopen hcomma
    exact TestFile.mem_caseNames_caseText_iff {} signature.unqualifiedName
      (fun _ => Argument.comma_not_mem_declaration Argument.hasNoComma_defaultInitializers)
      hopen hcomma
  · intro hname store store' other other' context context' prompt prompt' memory between after
      first second hsubject hfirst hsubject' hsecond hsame hspares
    obtain ⟨text, hfile, htext⟩ :=
      runs_generate_written sees_refines hfirst hsubject hspares hname
    rw [← hsame] at hfile
    exact runs_generate_tells hsecond hsubject' hfile htext

/-! ## A file with a dash -/

/-- A system with a test file of some name that has no case yet. -/
def memoryWith (name : String) : Memory where
  tree := ⟨[(["src"], .directory), (["src", name], .file detourText.toUTF8)]⟩

/-- A generation for a method without parameters. -/
def generateRun (store : TestStore) (source : String) :
    Action (Except Failure Generated × TestStore) :=
  generate store {} ⟨some source, .text "void Run();"⟩ .declined false

/-- Whether two generations in turn write one file and end with some warnings,
all of them told by the second one. -/
def repeatsWith (memory : Memory) (source : String) (warnings : List Warning) : Bool :=
  let (first, between) := memory.run (generateRun detourStore source)
  let (second, after) := between.run (generateRun first.2 source)
  match first.1, second.1 with
  | .ok first, .ok second =>
    first.testFile == second.testFile && between.warnings.isEmpty && after.warnings == warnings
  | _, _ => false

theorem exists_runs_of_repeatsWith {source : String} {warnings : List Warning}
    (h : repeatsWith memory source warnings = true) :
    ∃ first store' between second other' after,
      memory.run (generateRun detourStore source) = ((.ok first, store'), between) ∧
      between.run (generateRun store' source) = ((.ok second, other'), after) ∧
      second.testFile = first.testFile ∧ between.warnings = [] ∧ after.warnings = warnings := by
  rw [repeatsWith] at h
  cases hfirst : memory.run (generateRun detourStore source) with
  | mk reply between =>
    obtain ⟨first, store'⟩ := reply
    rw [hfirst] at h
    cases hsecond : between.run (generateRun store' source) with
    | mk reply after =>
      obtain ⟨second, other'⟩ := reply
      simp only [hsecond] at h
      cases first with
      | error failure => cases h
      | ok first =>
        cases second with
        | error failure => cases h
        | ok second =>
          simp only [Bool.and_eq_true, beq_iff_eq, List.isEmpty_iff] at h
          exact ⟨first, store', between, second, other', after, rfl, hsecond, h.1.1.symm, h.1.2,
            h.2⟩

/-- What the theorem says about a file with a plain name. -/
theorem runs_generate_again_job :
    ∃ first store' between second other' after,
      Runs Sees (memoryWith "JobTest.cpp") (generateRun detourStore "/src/Job.cpp")
        (.ok first, store') between ∧
      Runs Sees between (generateRun store' "/src/Job.cpp") (.ok second, other') after ∧
      second.testFile = first.testFile ∧ Tells between after .caseExists := by
  have hrepeats : repeatsWith (memoryWith "JobTest.cpp") "/src/Job.cpp" [.caseExists] = true := by
    decide +kernel
  obtain ⟨first, store', between, second, other', after, hfirst, hsecond, hsame, -, -⟩ :=
    exists_runs_of_repeatsWith hrepeats
  have hruns := Action.runs_run sees_serve (generateRun detourStore "/src/Job.cpp")
    (memoryWith "JobTest.cpp")
  have hruns' := Action.runs_run sees_serve (generateRun store' "/src/Job.cpp") between
  rw [hfirst] at hruns
  rw [hsecond] at hruns'
  obtain ⟨hiff, htells⟩ := @runs_generate_again "/src/Job.cpp" ⟨"Run", ""⟩
  have hname := (hiff (by decide) (by decide)).2
    ⟨by decide, List.forall_mem_cons.2 ⟨rfl, List.forall_mem_cons.2 ⟨rfl,
      List.forall_mem_cons.2 ⟨rfl, fun _ hc => nomatch hc⟩⟩⟩⟩
  refine ⟨first, store', between, second, other', after, hruns, hruns', hsame, ?_⟩
  exact htells hname _ _ _ _ _ _ _ _ _ _ _ _ _ rfl hruns rfl hruns' hsame
    fun path hpath => nomatch hpath

/-- A dash in the name of the source file keeps the case from being found:
the same case is added again without a word. -/
theorem unnoticed_dashed :
    ∃ first store' between second other' after,
      (memoryWith "my-jobTest.cpp").run (generateRun detourStore "/src/my-job.cpp") =
        ((.ok first, store'), between) ∧
      between.run (generateRun store' "/src/my-job.cpp") = ((.ok second, other'), after) ∧
      second.testFile = first.testFile ∧ ¬ Tells between after .caseExists ∧
      let plan := planFor {} "/src/my-job.cpp" ⟨"Run", ""⟩
      plan.caseName.toList ∉ TestFile.caseNames plan.caseText.toList := by
  have hrepeats : repeatsWith (memoryWith "my-jobTest.cpp") "/src/my-job.cpp" [] = true := by
    decide +kernel
  have hnames : TestFile.caseNames (planFor {} "/src/my-job.cpp" ⟨"Run", ""⟩).caseText.toList =
      [] := by decide +kernel
  obtain ⟨first, store', between, second, other', after, hfirst, hsecond, hsame, -, hafter⟩ :=
    exists_runs_of_repeatsWith hrepeats
  refine ⟨first, store', between, second, other', after, hfirst, hsecond, hsame, ?_, ?_⟩
  · rintro ⟨told, htold, hmem⟩
    rw [hafter, eq_comm, List.append_eq_nil_iff] at htold
    rw [htold.2] at hmem
    cases hmem
  · intro plan
    rw [hnames]
    exact List.not_mem_nil

end Generation

end TestSkeleton
