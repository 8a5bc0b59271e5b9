import TestSkeleton.Proofs.Generation.Writing
import TestSkeleton.Proofs.Path.SourceNames

/-!
# Extending the own output

Whether a test file takes the next case depends only on the name and the
declarations that the last case was written with.

* `TakesCase` says that the file at a path takes a case.
* `planFor_takesCase_iff` is the exact condition on a signature: the new file
  and every extended file take the next case if and only if the declarations
  keep their blocks.
* `bracedDefault` is a signature that does not meet it.  A default value is
  dropped up to the next comma only, so the end of a braced list is left.
-/

namespace TestSkeleton.Generation

open Files

/-! ## Names that are identifiers -/

theorem isAsciiWord_of_isIdentifier {name : List Char} (h : Settings.isIdentifier name = true)
    {c : Char} (hc : c ∈ name) : Text.isAsciiWord c = true := by
  cases name with
  | nil => cases hc
  | cons first rest =>
    obtain ⟨hfirst, hrest⟩ := Bool.and_eq_true_iff.1 h
    rcases List.mem_cons.1 hc with rfl | hc
    · exact Text.isAsciiWord_of_isNameStart hfirst
    · exact List.all_eq_true.1 hrest c hc

theorem ne_nil_of_isIdentifier {name : List Char} (h : Settings.isIdentifier name = true) :
    name ≠ [] := by
  rintro rfl
  cases h

theorem isPlain_of_isIdentifier {name : List Char} (h : Settings.isIdentifier name = true) :
    TestFile.IsPlain name :=
  fun _ hc => TestFile.isMark_of_isAsciiWord (isAsciiWord_of_isIdentifier h hc)

theorem isQuotable_of_isIdentifier {name : List Char} (h : Settings.isIdentifier name = true) :
    TestFile.IsQuotable name := by
  intro c hc
  have hword := isAsciiWord_of_isIdentifier h hc
  refine ⟨?_, ?_, ?_⟩ <;>
  · rintro rfl
    cases hword

/-- With the default settings an identifier keeps the preamble in shape. -/
theorem isPlain_preamble {source : String}
    (hstem : Settings.isIdentifier (Path.stem source.toList) = true) :
    let naming : Naming := {}
    (({} : Template).preamble (naming.headerOf source)
      (naming.fixtureOf (naming.headerOf source))).IsPlain := by
  intro naming
  have hfixture : naming.fixtureOf (naming.headerOf source) = Naming.stemOf source ++ "Test" :=
    Naming.fixtureOf_headerOf (ne_nil_of_isIdentifier hstem) (by decide)
  refine ⟨?_, ?_, ?_, ?_, ?_, ?_⟩
  · show ∀ name ∈ ["pch.h", "iostream", "gtest/gtest.h", "gmock/gmock.h"],
      TestFile.IsQuotable name.toList
    decide
  · show TestFile.IsQuotable (naming.headerOf source).toList
    have hheader : (naming.headerOf source).toList = Path.stem source.toList ++ ".h".toList := by
      simp [naming, Naming.headerOf, Naming.stemOf]
    rw [hheader]
    intro c hc
    rcases List.mem_append.1 hc with hc | hc
    · exact isQuotable_of_isIdentifier hstem c hc
    · have hend : TestFile.IsQuotable ".h".toList := by decide
      exact hend c hc
  · show TestFile.IsPlain "unittest".toList
    decide
  · show TestFile.IsPlain (naming.fixtureOf (naming.headerOf source)).toList
    rw [hfixture, String.toList_append, TestFile.isPlain_append, Naming.stemOf,
      String.toList_ofList]
    exact ⟨isPlain_of_isIdentifier hstem, by decide⟩
  · show TestFile.IsPlain "public testing::Test".toList
    decide
  · show TestFile.IsPlain "bool".toList
    decide

/-! ## The next case -/

/-- Whether the file at a path takes a case. -/
def TakesCase (memory : Memory) (path : String) : Prop :=
  ∃ (text : String) (offset : Nat), memory.tree.read memory.current path = .ok text.toUTF8 ∧
    TestFile.insertionPoint text.toList = .ok offset

/-- Whether the case for a signature closes the blocks that it opens, and
ends as code. -/
def keepsBlocks (settings : Settings) (signature : Signature) : Bool :=
  TestFile.keepsBlocks signature.unqualifiedName
    (Argument.bind settings.initializers signature.parameters)

section

variable {source : String} {signature : Signature}

/-- A new file takes a case in front of its last brace. -/
theorem insertionPoint_planFor_iff
    (hstem : Settings.isIdentifier (Path.stem source.toList) = true) :
    let document := (planFor {} source signature).document.toList
    TestFile.insertionPoint document = .ok (Text.byteLength document - 2) ↔
      keepsBlocks {} signature = true := by
  intro document
  exact TestFile.insertionPoint_ofTemplate_iff (isPlain_preamble hstem).fits
    signature.unqualifiedName (Argument.bind ({} : Settings).initializers signature.parameters)

/-- A file that takes a case takes another one after it. -/
theorem insertCase_planFor_iff
    (hstem : Settings.isIdentifier (Path.stem source.toList) = true) :
    (∀ text offset, TestFile.insertionPoint text = .ok offset → ∃ out offset',
      TestFile.insertCase text (planFor {} source signature).caseText.toList = .ok out ∧
        TestFile.insertionPoint out = .ok offset') ↔ keepsBlocks {} signature = true := by
  rw [TestFile.forall_insertCase_iff]
  exact TestFile.returns_caseText_iff {} (isPlain_preamble hstem).fixture
    signature.unqualifiedName (Argument.bind ({} : Settings).initializers signature.parameters)

/-- A case that keeps its blocks leaves a file that takes a case. -/
theorem takesCase_writeCase
    (hstem : Settings.isIdentifier (Path.stem source.toList) = true)
    (hkeeps : keepsBlocks {} signature = true) {store : TestStore} {path : String}
    {memory after : Memory} {outcome : WriteOutcome}
    (h : memory.run (store.writeCase path (planFor {} source signature).document
      (planFor {} source signature).caseName (planFor {} source signature).caseText) =
        (.ok outcome, after)) : TakesCase after path := by
  obtain ⟨text, hread, ⟨-, rfl⟩ | ⟨front, -, hinsert⟩⟩ := TestStore.read_writeCase h
  · exact ⟨_, _, hread, (insertionPoint_planFor_iff hstem).2 hkeeps⟩
  · obtain ⟨offset, hpoint⟩ := TestFile.insertionPoint_of_insertCase hinsert
    obtain ⟨out, offset', hout, hnext⟩ :=
      (insertCase_planFor_iff hstem).2 hkeeps front.toList offset hpoint
    rw [hinsert, Except.ok.injEq] at hout
    rw [← hout] at hnext
    exact ⟨text, offset', hread, hnext⟩

/-- The tool can extend its own output if and only if the declarations of the
signature keep their blocks: then a new file takes the next case in front of
its last brace, every file that takes the case takes another one, and so does
the file that a generation leaves. -/
theorem planFor_takesCase_iff
    (hstem : Settings.isIdentifier (Path.stem source.toList) = true) :
    let plan := planFor {} source signature
    (TestFile.insertionPoint plan.document.toList =
        .ok (Text.byteLength plan.document.toList - 2) ↔ keepsBlocks {} signature = true) ∧
      ((∀ text offset, TestFile.insertionPoint text = .ok offset → ∃ out offset',
          TestFile.insertCase text plan.caseText.toList = .ok out ∧
            TestFile.insertionPoint out = .ok offset') ↔ keepsBlocks {} signature = true) ∧
      (keepsBlocks {} signature = true →
        ∀ (store store' : TestStore) (document : Preferences.Document)
          (context : Source.Context) (prompt : Source.FolderPrompt) (dryRun : Bool)
          (memory after : Memory) (generated : Generated),
        store.preferences = .memory document →
        subject? {} context memory = some (source, signature) →
        memory.run (generate store {} context prompt dryRun) = ((.ok generated, store'), after) →
        generated.outcome ≠ none → TakesCase after generated.testFile) := by
  intro plan
  refine ⟨insertionPoint_planFor_iff hstem, insertCase_planFor_iff hstem, ?_⟩
  intro hkeeps store store' document context prompt dryRun memory after generated hstore hsubject
    hrun houtcome
  rcases generate_ends hstore dryRun hrun with
    ⟨hnone, -, -⟩ | ⟨wrote, generated', hwrite, hresult, hfile, -, -⟩
  · exact absurd (hnone generated rfl) houtcome
  · -- the case is the one for the signature that was read
    have hsame := wrote.subject
    rw [hsubject, Option.some.injEq, Prod.mk.injEq] at hsame
    obtain ⟨hsource, hsignature⟩ := hsame
    rw [Wrote.plan, ← hsource, ← hsignature] at hwrite
    rw [Except.ok.injEq] at hresult
    rw [hresult, hfile]
    exact takesCase_writeCase hstem hkeeps hwrite

/-- A signature with a plain parameter. -/
theorem planFor_takesCase_iff_plain :
    let plan := planFor {} "src/Job.cpp" ⟨"Run", "int a"⟩
    Settings.isIdentifier (Path.stem "src/Job.cpp".toList) = true ∧
      keepsBlocks {} ⟨"Run", "int a"⟩ = true ∧
      TestFile.insertionPoint plan.document.toList =
        .ok (Text.byteLength plan.document.toList - 2) := by
  have hstem : Settings.isIdentifier (Path.stem "src/Job.cpp".toList) = true := by decide
  have hkeeps : keepsBlocks {} ⟨"Run", "int a"⟩ = true := by decide +kernel
  exact ⟨hstem, hkeeps, (planFor_takesCase_iff hstem).1.2 hkeeps⟩

/-! ## A default value in braces -/

/-- A line whose default value holds a comma between braces. -/
def bracedDefault : String := "void Run(std::vector<int> v = \x7b1, 2\x7d);"

/-- The end of the list is taken for one more parameter, and its brace closes
the body of the case: the new file takes no case, and other files take none
after this one. -/
theorem not_keepsBlocks_bracedDefault :
    ∃ signature, Signature.read bracedDefault = .ok signature ∧
      Settings.isIdentifier (Path.stem "Job.cpp".toList) = true ∧
      let plan := planFor {} "Job.cpp" signature
      TestFile.insertionPoint plan.document.toList ≠
          .ok (Text.byteLength plan.document.toList - 2) ∧
        ¬ ∀ text offset, TestFile.insertionPoint text = .ok offset → ∃ out offset',
          TestFile.insertCase text plan.caseText.toList = .ok out ∧
            TestFile.insertionPoint out = .ok offset' := by
  have hstem : Settings.isIdentifier (Path.stem "Job.cpp".toList) = true := by decide
  have hbreaks : ¬ keepsBlocks {} ⟨"Run", "std::vector<int> v = \x7b1, 2\x7d"⟩ = true := by
    decide +kernel
  refine ⟨⟨"Run", "std::vector<int> v = \x7b1, 2\x7d"⟩, rfl, hstem, ?_, ?_⟩
  · exact fun hpoint => hbreaks ((insertionPoint_planFor_iff hstem).1 hpoint)
  · exact fun hall => hbreaks ((insertCase_planFor_iff hstem).1 hall)

end

end TestSkeleton.Generation
