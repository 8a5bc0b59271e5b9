import TestSkeleton.Proofs.Generation.Choosing
import TestSkeleton.Proofs.Generation.Writing
import TestSkeleton.Proofs.Preferences.Replay

/-!
# Paths of test files

The path of a test file comes from the source path, the current directory,
an answer or the preferences.  If none of them goes up with `..` then neither
does the path of the test file, and the test file is at the place that can be
read off its path.

* `isDirect_absoluteSource` and `isDirect_resolve` follow the path through
  the steps of a generation.
* `RemembersDirect` is what the preferences keep up, by
  `RemembersDirect.remembered`.
* `Wrote.testFile_spec` is the result for a generation that wrote.
-/

namespace TestSkeleton.Generation

open Files
open Files.Action (Runs)

variable {serves : Behaviour} {store : TestStore} {settings : Settings} {context : Source.Context}
  {prompt : Source.FolderPrompt} {memory after : Memory}

/-! ## The source file -/

theorem isDirect_absoluteSource {source absolute : String} (hserves : Locates serves)
    (h : Runs serves memory (absoluteSource source) (.ok absolute) after)
    (hsource : Path.IsDirect source) (hcurrent : ∀ name ∈ memory.current, Path.IsName name) :
    Path.IsDirect absolute := by
  rcases runs_absoluteSource hserves h with ⟨tree, place, hlocate, rfl⟩ | rfl
  · exact Path.isDirect_pathOf (Tree.isName_of_locate hlocate hcurrent)
  · exact hsource.absolute fun _ => Path.isDirect_pathOf hcurrent

/-! ## The directory -/

/-- Whether no directory that a document remembers goes up. -/
def RemembersDirect (document : Preferences.Document) : Prop :=
  ∀ source directory,
    document.getString? Preferences.Outputs.rootCollection source = some directory →
      Path.IsDirect directory

theorem remembersDirect_empty : RemembersDirect {} := by
  intro source directory h
  cases h

theorem RemembersDirect.remembered {document : Preferences.Document}
    (h : RemembersDirect document) {pending : Option PendingOutput}
    (hpending : ∀ output, pending = some output → Path.IsDirect output.directory) :
    RemembersDirect (remembered document pending) := by
  cases pending with
  | none => exact h
  | some output =>
    intro source directory hstring
    rw [Generation.remembered, Preferences.Outputs.getString?_rememberChanges] at hstring
    split at hstring
    · cases hstring
      exact hpending output rfl
    · exact h source directory hstring

theorem isDirect_resolve {absolute : String} {resolved : ResolvedOutput} (hserves : Locates serves)
    (h : Runs serves memory (store.resolve absolute prompt) resolved after)
    (hstore : RemembersDirect store.preferences.document) (habsolute : Path.IsDirect absolute)
    (hcurrent : ∀ name ∈ memory.current, Path.IsName name)
    (hanswer : ∀ directory asked,
      Runs serves memory (prompt.choose absolute) (some directory) asked →
        Path.IsDirect directory) :
    Path.IsDirect resolved.directory ∧
      ∀ output, resolved.pending = some output → Path.IsDirect output.directory := by
  have hdirectory : Path.IsDirect resolved.directory := by
    have hchoice := choice_of_runs hserves h
    generalize resolved.directory = directory at hchoice ⊢
    cases hchoice with
    | beside => exact habsolute.containingDir
    | remembered hlookup hdirectory =>
      exact hstore absolute _ (getString?_of_lookup? hlookup hdirectory)
    | same hchoose hrelative => exact hanswer _ _ hchoose
    | answered hchoose =>
      exact (hanswer _ _ hchoose).absolute fun _ => Path.isDirect_pathOf hcurrent
  refine ⟨hdirectory, fun output hpending => ?_⟩
  rcases runs_resolve h with ⟨-, -, hnone⟩ | ⟨-, -, hsome⟩
  · rw [hnone] at hpending
    cases hpending
  · rw [hsome, Option.some.injEq] at hpending
    rw [← hpending]
    exact hdirectory

/-! ## The test file -/

theorem isSource_of_subject {source : String} {signature : Signature}
    (h : subject? settings context memory = some (source, signature)) :
    context.source = some source ∧ settings.naming.isSource source = true := by
  rw [subject?] at h
  cases hpath : context.path with
  | error failure =>
    rw [hpath] at h
    cases h
  | ok path =>
    rw [hpath] at h
    simp only at h
    split at h
    · cases h
    rename_i hsource
    split at h
    · cases h
    split at h
    · cases h
    cases h
    rw [Source.Context.path] at hpath
    split at hpath
    · rename_i found
      split at hpath
      · cases hpath
      · cases hpath
        exact ⟨by assumption, by simpa using hsource⟩
    · cases hpath

/-- The name of a test file has no slash if the suffix has none. -/
theorem isSegment_testFileOf {naming : Naming} {source : String}
    (hsource : naming.isSource source = true) (hsuffix : '/' ∉ naming.testSuffix.toList) :
    Path.IsSegment (naming.testFileOf source) := by
  have hext : (Path.extension? source.toList).map String.ofList = some naming.sourceExtension :=
    beq_iff_eq.1 hsource
  obtain ⟨ext, hext, hsame⟩ := Option.map_eq_some_iff.1 hext
  intro hslash
  simp only [Naming.testFileOf, Naming.stemOf, ← hsame, String.toList_append, String.toList_ofList,
    List.mem_append] at hslash
  rcases hslash with ((hstem | hslash) | hdot) | hext'
  · have := Path.not_isNameSeparator_of_mem_stem hstem
    cases this
  · exact hsuffix hslash
  · cases hdot with
    | tail _ hnil => cases hnil
  · have := Path.not_isNameSeparator_of_mem_extension hext hext'
    cases this

/-- A test file is no temporary file if their extensions differ. -/
theorem not_isTemporary_of_isSource {naming : Naming} {source : String} {place : Place}
    (hsource : naming.isSource source = true)
    (hlast : place.getLast? = some (naming.testFileOf source))
    (hext : naming.sourceExtension ≠ "tmp") (current : Place) (path : String) (processId : Nat) :
    ¬ IsTemporary current path processId place := by
  intro h
  have htemporary := h.getLast?
  generalize (Path.lastName? path).getD "out" = name at htemporary
  have hmap : (Path.extension? source.toList).map String.ofList = some naming.sourceExtension :=
    beq_iff_eq.1 hsource
  obtain ⟨ext, hfound, hsame⟩ := Option.map_eq_some_iff.1 hmap
  have htext := congrArg String.toList (Option.some.inj (hlast.symm.trans htemporary))
  have hcut : (Naming.stemOf source ++ naming.testSuffix).toList ++ '.' :: ext =
      ("." ++ name ++ "." ++ toString processId).toList ++ '.' :: ['t', 'm', 'p'] := by
    rw [Naming.testFileOf, temporaryLast, ← hsame] at htext
    simp only [String.toList_append, String.toList_ofList, List.append_assoc] at htext ⊢
    exact htext
  have hends := Path.append_dot_inj hcut (fun c hc => Path.ne_dot_of_mem_extension hfound hc)
    (by simp)
  apply hext
  rw [← hsame, hends]

/-- A case that was written is in a file whose path does not go up, and the
file has the name of the test file. -/
theorem Wrote.testFile_spec (wrote : Wrote store settings context prompt memory)
    {document caseName caseText : String} {outcome : WriteOutcome} {after : Memory}
    (hrun : wrote.asked.run (store.writeCase wrote.testFile document caseName caseText) =
      (.ok outcome, after))
    (hdirectory : Path.IsDirect wrote.resolved.directory)
    (hsuffix : '/' ∉ settings.naming.testSuffix.toList) :
    Path.IsDirect wrote.testFile ∧
      (Tree.lexical wrote.asked.current wrote.testFile).getLast? =
        some (settings.naming.testFileOf wrote.source) := by
  have hsegment := isSegment_testFileOf (isSource_of_subject wrote.subject).2 hsuffix
  obtain ⟨tree, parent, name, hleads⟩ := TestStore.writeCase_ok hrun
  obtain ⟨front, hsegments, -⟩ := hleads.walk
  have hlast := Path.getLast?_segments_join wrote.resolved.directory hsegment
  change (Path.segments wrote.testFile).getLast? = _ at hlast
  rw [hsegments, List.getLast?_concat, Option.some.injEq] at hlast
  -- the name `..` is no name for a file
  have hdirect : Path.IsDirect wrote.testFile :=
    hdirectory.join hsegment fun hup => hleads.isName.2 (hlast.trans hup)
  refine ⟨hdirect, ?_⟩
  rw [← hleads.eq_lexical hdirect, List.getLast?_concat, hlast]

end TestSkeleton.Generation
