import TestSkeleton.Settings.Basic

/-!
# The names behind a source path

Four names are read off one path.  The fixture class is named after the
header, which is named after the source file, so that its name goes through
two cuts; the test file is named after the source file at once.

* `SourcePath` is a path in its parts: a directory that ends with a
  separator, and a stem without separators.  `isSource_iff` says that these
  are the paths of source files.
* `stem_text` is the one cut that all names go through.  It does not ask
  anything of the dots in the directory and in the stem.
* `names_agree` tells all names from the parts, for all settings without a
  fault.
-/

namespace TestSkeleton

/-- A path of a source file in its parts, without its extension. -/
structure SourcePath where
  directory : String
  stem : String
  /-- There is no directory, or a separator ends it. -/
  isDirectory : ∀ c ∈ directory.toList.getLast?, Path.isNameSeparator c = true
  stem_ne_empty : stem ≠ ""
  isName : ∀ c ∈ stem.toList, Path.isNameSeparator c = false

/-- The path with an extension. -/
def SourcePath.text (parts : SourcePath) (ext : String) : String :=
  parts.directory ++ parts.stem ++ "." ++ ext

namespace SourcePath

variable {parts : SourcePath} {ext : String}

theorem toList_text (parts : SourcePath) (ext : String) :
    (parts.text ext).toList =
      parts.directory.toList ++ (parts.stem.toList ++ '.' :: ext.toList) := by
  simp [text]

theorem splitExtension_text (parts : SourcePath)
    (hext : Settings.isBareExtension ext = true) :
    Path.splitExtension (Path.fileName (parts.text ext).toList) =
      (parts.stem.toList, some ext.toList) := by
  rw [toList_text]
  exact Path.splitExtension_fileName_append parts.isDirectory
    (mt String.toList_eq_nil_iff.1 parts.stem_ne_empty) parts.isName
    fun c hc => Settings.of_mem_bareExtension hext hc

/-- The stem of a path is the stem among its parts. -/
theorem stem_text (parts : SourcePath) (hext : Settings.isBareExtension ext = true) :
    Path.stem (parts.text ext).toList = parts.stem.toList := by
  rw [Path.stem, parts.splitExtension_text hext]

/-- Every path with an extension has such parts. -/
theorem exists_text {path ext : String} (h : Path.extension? path.toList = some ext.toList) :
    ∃ parts : SourcePath, path = parts.text ext := by
  obtain ⟨directory, hdirectory, hpath⟩ := Path.exists_append_fileName path.toList
  have hname := Path.fileName_eq_append h
  refine ⟨⟨String.ofList directory, String.ofList (Path.stem path.toList), ?_, ?_, ?_⟩, ?_⟩
  · simpa using hdirectory
  · intro hempty
    exact Path.stem_ne_nil h (by simpa using congrArg String.toList hempty)
  · intro c hc
    rw [String.toList_ofList] at hc
    exact Path.not_isNameSeparator_of_mem_stem hc
  · apply String.toList_injective
    simp only [toList_text, String.toList_ofList, ← hname]
    exact hpath

end SourcePath

namespace Naming

/-- The source files are the paths with a stem and the extension. -/
theorem isSource_iff {naming : Naming} {path : String}
    (hext : Settings.isBareExtension naming.sourceExtension = true) :
    naming.isSource path = true ↔
      ∃ parts : SourcePath, path = parts.text naming.sourceExtension := by
  have hsource : naming.isSource path = true ↔
      Path.extension? path.toList = some naming.sourceExtension.toList := by
    rw [isSource, beq_iff_eq, Option.map_eq_some_iff]
    constructor
    · rintro ⟨cs, hcs, hsame⟩
      rw [hcs, ← hsame, String.toList_ofList]
    · intro h
      exact ⟨_, h, String.ofList_toList⟩
  rw [hsource]
  constructor
  · exact SourcePath.exists_text
  · rintro ⟨parts, rfl⟩
    rw [Path.extension?, parts.splitExtension_text hext]

/-- The stem that the name of a header is made of is cut off again. -/
theorem fixtureOf_headerOf {naming : Naming} {source : String}
    (hstem : Path.stem source.toList ≠ [])
    (hbare : Settings.isBareExtension naming.headerExtension = true) :
    naming.fixtureOf (naming.headerOf source) = stemOf source ++ naming.testSuffix := by
  have hheader : (naming.headerOf source).toList =
      Path.stem source.toList ++ '.' :: naming.headerExtension.toList := by
    simp [headerOf, stemOf]
  have hcut : Path.stem (naming.headerOf source).toList = Path.stem source.toList := by
    rw [hheader]
    exact Path.stem_append hstem (fun c hc => Path.not_isNameSeparator_of_mem_stem hc)
      (fun c hc => (Settings.of_mem_bareExtension hbare hc).1)
      fun c hc => (Settings.of_mem_bareExtension hbare hc).2
  rw [fixtureOf, stemOf, hcut, stemOf]

/-- With settings that are accepted, a path is a source path exactly if it is
put together from a directory, a stem and the extension.  Its header, its
fixture class and its test file are then named after this stem, and the test
file is named after the fixture class. -/
theorem names_agree {settings : Settings} (h : settings.fault? = none) :
    let naming := settings.naming
    (∀ path, naming.isSource path = true ↔
      ∃ parts : SourcePath, path = parts.text naming.sourceExtension) ∧
    ∀ parts : SourcePath,
      let source := parts.text naming.sourceExtension
      naming.headerOf source = parts.stem ++ "." ++ naming.headerExtension ∧
      naming.fixtureOf (naming.headerOf source) = parts.stem ++ naming.testSuffix ∧
      naming.testFileOf source =
        naming.fixtureOf (naming.headerOf source) ++ "." ++ naming.sourceExtension := by
  intro naming
  have haccepted := Settings.fault?_eq_none_iff.1 h
  refine ⟨fun path => isSource_iff haccepted.sourceExtension, fun parts => ?_⟩
  intro source
  have hcut : Path.stem source.toList = parts.stem.toList :=
    parts.stem_text haccepted.sourceExtension
  have hstem : stemOf source = parts.stem := by
    rw [stemOf, hcut, String.ofList_toList]
  have hne : Path.stem source.toList ≠ [] := by
    rw [hcut]
    exact mt String.toList_eq_nil_iff.1 parts.stem_ne_empty
  have hfixture := fixtureOf_headerOf hne haccepted.headerExtension
  refine ⟨?_, ?_, ?_⟩
  · rw [headerOf, hstem]
  · rw [hfixture, hstem]
  · rw [hfixture, testFileOf]

/-- A hidden file with inner dots, behind both separators. -/
theorem names_agree_dotted :
    let naming : Naming := ⟨"cc", "hh", ".Test"⟩
    let path := "C:\\my.lib/src\\.a..b.cc"
    ({ naming := naming } : Settings).fault? = none ∧
      naming.isSource path = true ∧
      naming.headerOf path = ".a..b.hh" ∧
      naming.fixtureOf (naming.headerOf path) = ".a..b.Test" ∧
      naming.testFileOf path = ".a..b.Test.cc" := by
  intro naming path
  have hfault : ({ naming := naming } : Settings).fault? = none := by decide
  obtain ⟨hsource, hnames⟩ := names_agree hfault
  let parts : SourcePath := ⟨"C:\\my.lib/src\\", ".a..b", by simp [Path.isNameSeparator],
    by decide, by simp [Path.isNameSeparator]⟩
  obtain ⟨hheader, hfixture, htestFile⟩ := hnames parts
  exact ⟨hfault, (hsource path).2 ⟨parts, rfl⟩, hheader, hfixture,
    htestFile.trans (congrArg (· ++ "." ++ naming.sourceExtension) hfixture)⟩

end Naming

end TestSkeleton
