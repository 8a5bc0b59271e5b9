import TestSkeleton.Proofs.Generation.Attempting

/-!
# Files that are extended

What becomes of a file that exists when a generation starts.  It stays as it
is unless it is the test file, and then the case is added to it.

A test file is replaced by a new document in one situation only, in which its
path leads nowhere at first: it goes up with `..` from a directory that the
generation has yet to make.  `runs_generate_file` says so, for a system in
which any request may fail but a look at a path is answered right, and
`replaces_detour` is such a generation.
-/

namespace TestSkeleton.Generation

open Files
open Files.Action (Runs)
open Memory (Attempts Frames Leads HasFile)

variable {store store' : TestStore} {settings : Settings} {context : Source.Context}
  {prompt : Source.FolderPrompt} {dryRun : Bool} {memory after : Memory}
  {result : Except Failure Generated × TestStore} {place : Place} {content : ByteArray}
  {path document caseText text : String} {outcome : WriteOutcome}

/-- What is looked up in vain cannot be found. -/
theorem not_locate_of_sees {looked seen : Memory} (h : Sees looked (.exists path) false seen)
    (place : Place) : looked.tree.locate looked.current path ≠ .ok place := by
  intro hlocate
  have hfound : looked.tree.contains looked.current path = true := by
    rw [Tree.contains, hlocate]
    rfl
  have hreply : false = looked.tree.contains looked.current path :=
    congrArg Prod.fst (h.2 path rfl)
  rw [hfound] at hreply
  cases hreply

/-- What a written case makes of the file that was at its place before: the
file with the case in it, or a new document if the path went up and did not
lead to the file. -/
theorem Decides.file (h : Decides Sees store path document caseText memory after outcome text)
    (hwell : memory.tree.WellFormed) (hfile : memory.tree.node? place = some (.file content))
    (hleads : Leads after path place) :
    (∃ front : String, content = front.toUTF8 ∧
      TestFile.insertCase front.toList caseText.toList = .ok text.toList) ∨
    text = document ∧ ".." ∈ Path.steps path ∧ ¬ Leads memory path place := by
  cases h.madeFrom hwell hleads with
  | created hfree =>
    refine Or.inr ⟨rfl, (hfree (discerning_of_refines (.refl Sees))).resolve_left fun hnone => ?_⟩
    rw [hfile] at hnone
    cases hnone
  | @appended front text hfound hinsert =>
    rw [hfile] at hfound
    cases hfound
    exact Or.inl ⟨front, rfl, hinsert⟩

/-- A file that existed before a generation, and is no file of the
preferences, is as it was, or it is the test file and has the case in it.
The temporary file beside the test file is not looked at.  A test file whose
path goes up and did not lead to it before is replaced by a new document. -/
theorem runs_generate_file (hwell : memory.tree.WellFormed)
    (h : Runs Sees memory (generate store settings context prompt dryRun) result after)
    (hfile : memory.tree.node? place = some (.file content))
    (hpreferences : ∀ path ∈ store.savePaths memory.processId, ¬ Leads after path place) :
    after.tree.node? place = some (.file content) ∨
    ∃ planned : Planned Sees store settings context prompt memory, dryRun = false ∧
      (Leads after (temporaryName planned.testFile memory.processId) place ∨
        Leads after planned.testFile place ∧
          ((∃ front text : String, content = front.toUTF8 ∧
              TestFile.insertCase front.toList planned.plan.caseText.toList = .ok text.toList ∧
              after.tree.node? place = some (.file text.toUTF8)) ∨
            (".." ∈ Path.steps planned.testFile ∧ ¬ Leads memory planned.testFile place ∧
              after.tree.node? place = some (.file planned.plan.document.toUTF8)))) := by
  rcases runs_generate sees_refines h with ⟨-, hframes, -⟩ | ⟨planned, hdry, hcarry⟩
  · exact Or.inl (hframes.eq_of_file (by simp) hfile)
  have hasked := planned.frames sees_refines
  have hfile' := hasked.eq_of_file (by simp) hfile
  have hprocess := hasked.changes.processId
  obtain ⟨reply, written, hwrite, hrest⟩ := Action.runs_andThen.1 hcarry
  have hends := runs_writeCase sees_refines hwrite
  rw [hprocess] at hends
  rcases hends with ⟨reason, rfl, hwritten⟩ | ⟨outcome, text, rfl, hdecides, htext⟩
  · obtain ⟨-, rfl⟩ := Action.runs_done.1 hrest
    by_cases htemporary : Leads after (temporaryName planned.testFile memory.processId) place
    · exact Or.inr ⟨planned, hdry, Or.inl htemporary⟩
    · exact Or.inl (hwritten.eq_of_file (by simpa using htemporary) hfile')
  · obtain ⟨⟨committed, last⟩, saved, hcommit, hend⟩ := Action.runs_andThen.1 hrest
    have hsaved := frames_commit (hcommit.mono sees_refines)
    rw [hdecides.frames.changes.processId, hprocess] at hsaved
    obtain rfl : after = saved := by
      cases committed <;> exact (Action.runs_done.1 hend).2
    by_cases htemporary : Leads after (temporaryName planned.testFile memory.processId) place
    · exact Or.inr ⟨planned, hdry, Or.inl htemporary⟩
    by_cases htest : Leads after planned.testFile place
    · obtain ⟨place', hleads, hnode⟩ := htext.leads
      obtain rfl := htest.unique (hleads.keeps hsaved.changes)
      have hafter := hsaved.eq_of_file hpreferences hnode
      refine Or.inr ⟨planned, hdry, Or.inr ⟨htest, ?_⟩⟩
      rcases hdecides.file (hasked.changes.wellFormed hwell) hfile' hleads with
        ⟨front, hfront, hinsert⟩ | ⟨rfl, hup, hnot⟩
      · exact Or.inl ⟨front, text, hfront, hinsert, hafter⟩
      · exact Or.inr ⟨hup, fun hbefore => hnot (hbefore.keeps hasked.changes), hafter⟩
    · have hplace : ∀ path ∈ [planned.testFile, temporaryName planned.testFile memory.processId],
          ¬ Leads written path place := by
        intro path hpath hleads
        have hleads' := hleads.keeps hsaved.changes
        simp only [List.mem_cons, List.not_mem_nil, or_false] at hpath
        rcases hpath with rfl | rfl
        · exact htest hleads'
        · exact htemporary hleads'
      have hframes := hdecides.frames
      rw [hprocess] at hframes
      exact Or.inl (hsaved.eq_of_file hpreferences (hframes.eq_of_file hplace hfile'))

/-! ## The situation in which a test file is replaced -/

/-- A test file without a case. -/
def detourText : String := "namespace unittest \x7b\n\x7d\n"

/-- A system with that test file. -/
def detourMemory : Memory where
  tree := ⟨[(["src"], .directory), (["src", "JobTest.cpp"], .file detourText.toUTF8)]⟩

/-- A store in memory that knows nothing. -/
def detourStore : TestStore where
  preferences := .memory {}
  lockDir := "/locks"

/-- The answer goes up from a directory that does not exist. -/
def detourGeneration : Action (Except Failure Generated × TestStore) :=
  generate detourStore {} ⟨some "/src/Job.cpp", .text "void Run();"⟩ (.fixed "/new/../src") false

/-- The plan of that generation. -/
def detourPlan : Plan := planFor {} "/src/Job.cpp" ⟨"Run", ""⟩

/-- Whether a generation created its file at a place that its path leads to. -/
def createsAt (path : String) (place : Place) :
    (Except Failure Generated × TestStore) × Memory → Bool
  | ((.ok generated, _), after) =>
    generated.outcome == some .created && generated.testFile == path &&
      (after.tree.locate after.current path).toOption == some place
  | _ => false

theorem createsAt_detourGeneration : createsAt "/new/../src/JobTest.cpp" ["src", "JobTest.cpp"]
    (detourMemory.run detourGeneration) = true := by
  decide +kernel

theorem head?_document (header fixture method : String) (arguments : List Argument) :
    (({} : Template).document header fixture method arguments).toList.head? = some '#' := by
  have hfirst : (String.join ((({} : Template).preamble header fixture).includes.map
      Preamble.includeLine)).toList.head? = some '#' := by
    show (String.join (["pch.h", "iostream", "gtest/gtest.h", "gmock/gmock.h"].map
      Preamble.includeLine)).toList.head? = some '#'
    decide +kernel
  simp only [Template.document, Template.declaration, Preamble.render, String.toList_append,
    List.head?_append, hfirst, Option.some_or]

theorem insertCase_detourText (caseText : List Char) :
    TestFile.insertCase detourText.toList caseText =
      .ok ("namespace unittest \x7b\n\n".toList ++ caseText ++ "\n\x7d\n".toList) := by
  rfl

/-- The test file is replaced by a new document, which is neither what it
held nor that with the case in it. -/
theorem replaces_detour :
    ∃ generated store' after, detourMemory.run detourGeneration = ((.ok generated, store'), after) ∧
      detourMemory.tree.node? ["src", "JobTest.cpp"] = some (.file detourText.toUTF8) ∧
      after.tree.node? ["src", "JobTest.cpp"] = some (.file detourPlan.document.toUTF8) ∧
      detourPlan.document ≠ detourText ∧
      ∃ out, TestFile.insertCase detourText.toList detourPlan.caseText.toList = .ok out ∧
        detourPlan.document.toList ≠ out := by
  have hhead : detourPlan.document.toList.head? = some '#' := head?_document _ _ _ _
  have hcreates := createsAt_detourGeneration
  cases hrun : detourMemory.run detourGeneration with
  | mk reply after =>
    obtain ⟨result, store'⟩ := reply
    rw [hrun] at hcreates
    cases result with
    | error failure => cases hcreates
    | ok generated =>
      simp only [createsAt, Bool.and_eq_true, beq_iff_eq] at hcreates
      obtain ⟨⟨hcreated, htestFile⟩, hplace⟩ := hcreates
      refine ⟨generated, store', after, rfl, rfl, ?_, ?_, _, insertCase_detourText _, ?_⟩
      · rcases generate_ends rfl false hrun with ⟨hnone, -⟩ |
          ⟨wrote, written, hwrite, hwritten, hpath, houtcome, -⟩
        · rw [hnone generated rfl] at hcreated
          cases hcreated
        · cases hwritten
          have hsubject : some (wrote.source, wrote.signature) =
              some ("/src/Job.cpp", (⟨"Run", ""⟩ : Signature)) := by
            rw [← wrote.subject]
            rfl
          have hplan : wrote.plan = detourPlan := by
            rw [Option.some.injEq, Prod.mk.injEq] at hsubject
            rw [Wrote.plan, hsubject.1, hsubject.2]
            rfl
          rw [houtcome, Option.some.injEq] at hcreated
          obtain ⟨text, hread, ⟨-, rfl⟩ | ⟨front, happended, -⟩⟩ := TestStore.read_writeCase hwrite
          · rw [← hpath, htestFile, hplan] at hread
            obtain ⟨place, hlocate, hnode⟩ := Memory.read_ok hread
            rw [hlocate] at hplace
            cases hplace
            exact hnode
          · rw [hcreated] at happended
            cases happended
      · intro hsame
        rw [hsame] at hhead
        cases hhead
      · intro hsame
        rw [hsame] at hhead
        cases hhead

theorem wellFormed_detourMemory : detourMemory.tree.WellFormed :=
  Tree.wellFormed_of_all rfl

/-- What the theorem says about that test file. -/
theorem runs_generate_file_detour :
    ∃ result after, Runs Sees detourMemory detourGeneration result after ∧
      (after.tree.node? ["src", "JobTest.cpp"] = some (.file detourText.toUTF8) ∨
      ∃ planned : Planned Sees detourStore {} ⟨some "/src/Job.cpp", .text "void Run();"⟩
          (.fixed "/new/../src") detourMemory, false = false ∧
        (Leads after (temporaryName planned.testFile 1) ["src", "JobTest.cpp"] ∨
          Leads after planned.testFile ["src", "JobTest.cpp"] ∧
            ((∃ front text : String, detourText.toUTF8 = front.toUTF8 ∧
                TestFile.insertCase front.toList planned.plan.caseText.toList = .ok text.toList ∧
                after.tree.node? ["src", "JobTest.cpp"] = some (.file text.toUTF8)) ∨
              (".." ∈ Path.steps planned.testFile ∧
                ¬ Leads detourMemory planned.testFile ["src", "JobTest.cpp"] ∧
                after.tree.node? ["src", "JobTest.cpp"] =
                  some (.file planned.plan.document.toUTF8))))) := by
  have hruns := Action.runs_run sees_serve detourGeneration detourMemory
  have hpreferences : ∀ path ∈ detourStore.savePaths detourMemory.processId,
      ¬ Leads (detourMemory.run detourGeneration).2 path ["src", "JobTest.cpp"] :=
    fun path hpath => nomatch hpath
  exact ⟨_, _, hruns, runs_generate_file wellFormed_detourMemory hruns rfl hpreferences⟩

end TestSkeleton.Generation
