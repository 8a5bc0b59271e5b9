import TestSkeleton.Files.Memory
import TestSkeleton.Settings.Search
import TestSkeleton.Text.Utf8
import TestSkeleton.Proofs.Settings.Checks
import TestSkeleton.Proofs.Settings.Stating

/-!
# Settings files override the defaults

A settings file is accepted just if what it gives has the right types and the
settings that it states are usable.

* `HasTypes` is about types, field by field, and `exists_states_iff` says that
  nothing else keeps a document from stating settings.
* `SameSettings` compares two documents in the names that are known.
* `Writes` relates a text to its document, and `Writes.parse_eq_ok_iff` says
  when it is read as settings.
* `fault?_of_loadFrom` and `fault?_of_load` are about every run that ends well,
  whatever the system answers.
* `loadFrom_overrides` puts them together.
-/

namespace TestSkeleton.Settings

open Files (Action Memory Request Reply)
open Toml (Table entriesFit)

/-! ## Types -/

/-- The settings that are texts, with their groups. -/
def textFields : List (String × String) :=
  [("naming", "source_extension"), ("naming", "header_extension"), ("naming", "test_suffix"),
    ("template", "namespace"), ("template", "base_class"), ("template", "type_list")]

/-- The settings that are truth values, with their groups. -/
def flagFields : List (String × String) :=
  [("template", "strict_syntax"), ("prompt", "interactive")]

/-- The setting that is a list of texts, with its group. -/
def includesField : String × String :=
  ("template", "includes")

/-- What a document gives for a setting. -/
def field? (document : Table) (field : String × String) : Option Toml :=
  given? (tableOf? document field.1) field.2

/-- Whether every setting that a document gives has its type. -/
structure HasTypes (document : Table) : Prop where
  texts : ∀ field ∈ textFields, ∀ given, field? document field = some given →
    ∃ text, given = .string text
  flags : ∀ field ∈ flagFields, ∀ given, field? document field = some given →
    ∃ value, given = .bool value
  includes : ∀ given, field? document includesField = some given → ∃ texts, given = textArray texts
  initializers : ∀ entries, tableOf? document "initializers" = some entries →
    ∀ entry ∈ entries, ∃ text, entry.2 = .string text

theorem exists_overrides_iff {α : Type} {write : α → Toml} {default : α} {given? : Option Toml} :
    (∃ value, Overrides write default given? value) ↔
      ∀ given, given? = some given → ∃ value, given = write value := by
  cases given? with
  | none => exact ⟨fun _ _ h => (nomatch h), fun _ => ⟨default, rfl⟩⟩
  | some given => simp [Overrides]

theorem isDistinct_of_tableOf? {document entries : Table} {name : String}
    (h : document.IsDistinct) (htable : tableOf? document name = some entries) :
    entries.IsDistinct := by
  rw [tableOf?] at htable
  split at htable
  · rename_i hlookup
    cases htable
    exact Toml.distinct_table_iff.1 (h.lookup hlookup)
  · cases htable

theorem exists_statesInitializers_iff {table : Option Table}
    (h : ∀ entries, table = some entries → Table.IsDistinct entries) :
    (∃ initializers, StatesInitializers table initializers) ↔
      ∀ entries, table = some entries → ∀ entry ∈ entries, ∃ text, entry.2 = .string text := by
  cases table with
  | none => exact ⟨fun _ _ hnone => (nomatch hnone), fun _ => ⟨_, rfl⟩⟩
  | some entries =>
    have hread (initializers : Entries String) :=
      @textTable?_eq_some_iff .header entries (h entries rfl) initializers
    simp only [← hread, textTable?_eq_some_iff_exists, Option.some.injEq, forall_eq',
      ← exists_map_textEntry_iff]
    exact ⟨fun ⟨_, pairs, hpairs, _⟩ => ⟨pairs, hpairs⟩, fun ⟨pairs, hpairs⟩ =>
      ⟨_, pairs, hpairs, rfl⟩⟩

/-- A document states settings if it has the right types. -/
theorem exists_states_iff {document : Table} (h : document.IsDistinct) :
    (∃ settings, States document settings) ↔ HasTypes document := by
  have hinitializers := exists_statesInitializers_iff fun entries =>
    @isDistinct_of_tableOf? document entries "initializers" h
  constructor
  · rintro ⟨settings, hnaming, htemplate, hstated, hinteractive⟩
    refine ⟨?_, ?_, exists_overrides_iff.1 ⟨_, htemplate.includes⟩, hinitializers.1 ⟨_, hstated⟩⟩
    · intro field hfield
      simp only [textFields, List.mem_cons, List.not_mem_nil, or_false] at hfield
      rcases hfield with rfl | rfl | rfl | rfl | rfl | rfl
      · exact exists_overrides_iff.1 ⟨_, hnaming.sourceExtension⟩
      · exact exists_overrides_iff.1 ⟨_, hnaming.headerExtension⟩
      · exact exists_overrides_iff.1 ⟨_, hnaming.testSuffix⟩
      · exact exists_overrides_iff.1 ⟨_, htemplate.namespaceName⟩
      · exact exists_overrides_iff.1 ⟨_, htemplate.baseClass⟩
      · exact exists_overrides_iff.1 ⟨_, htemplate.typeList⟩
    · intro field hfield
      simp only [flagFields, List.mem_cons, List.not_mem_nil, or_false] at hfield
      rcases hfield with rfl | rfl
      · exact exists_overrides_iff.1 ⟨_, htemplate.strict⟩
      · exact exists_overrides_iff.1 ⟨_, hinteractive⟩
  · intro htypes
    have htext (default : String) {field : String × String} (hfield : field ∈ textFields) :
        ∃ text, Overrides .string default (field? document field) text :=
      exists_overrides_iff.2 (htypes.texts field hfield)
    have hflag (default : Bool) {field : String × String} (hfield : field ∈ flagFields) :
        ∃ value, Overrides .bool default (field? document field) value :=
      exists_overrides_iff.2 (htypes.flags field hfield)
    obtain ⟨source, hsource⟩ := htext "cpp" (by decide : ("naming", "source_extension") ∈ _)
    obtain ⟨header, hheader⟩ := htext "h" (by decide : ("naming", "header_extension") ∈ _)
    obtain ⟨suffix, hsuffix⟩ := htext "Test" (by decide : ("naming", "test_suffix") ∈ _)
    obtain ⟨includes, hincludes⟩ := (@exists_overrides_iff _ textArray _ _).2 htypes.includes
    obtain ⟨namespaceName, hnamespace⟩ :=
      htext "unittest" (by decide : ("template", "namespace") ∈ _)
    obtain ⟨baseClass, hbase⟩ :=
      htext "public testing::Test" (by decide : ("template", "base_class") ∈ _)
    obtain ⟨typeList, htypeList⟩ := htext "bool" (by decide : ("template", "type_list") ∈ _)
    obtain ⟨strict, hstrict⟩ := hflag false (by decide : ("template", "strict_syntax") ∈ _)
    obtain ⟨interactive, hinteractive⟩ := hflag true (by decide : ("prompt", "interactive") ∈ _)
    obtain ⟨initializers, hstated⟩ := hinitializers.2 htypes.initializers
    exact ⟨⟨⟨source, header, suffix⟩, ⟨includes, namespaceName, baseClass, typeList, strict⟩,
      initializers, interactive⟩, ⟨hsource, hheader, hsuffix⟩,
      ⟨hincludes, hnamespace, hbase, htypeList, hstrict⟩, hstated, hinteractive⟩

/-! ## Unknown names -/

/-- Whether two documents give the same for every setting. -/
structure SameSettings (document other : Table) : Prop where
  fields : ∀ field ∈ includesField :: (textFields ++ flagFields),
    field? document field = field? other field
  initializers : tableOf? document "initializers" = tableOf? other "initializers"

theorem SameSettings.symm {document other : Table} (h : SameSettings document other) :
    SameSettings other document :=
  ⟨fun field hfield => (h.fields field hfield).symm, h.initializers.symm⟩

theorem SameSettings.overrides {document other : Table} (h : SameSettings document other)
    {α : Type} {write : α → Toml} {default value : α} {field : String × String}
    (hfield : field ∈ includesField :: (textFields ++ flagFields))
    (hvalue : Overrides write default (field? document field) value) :
    Overrides write default (field? other field) value :=
  h.fields field hfield ▸ hvalue

/-- What else a document has does not count. -/
theorem SameSettings.states {document other : Table} (h : SameSettings document other)
    {settings : Settings} (hstates : States document settings) : States other settings := by
  obtain ⟨hnaming, htemplate, hinitializers, hinteractive⟩ := hstates
  refine ⟨⟨?_, ?_, ?_⟩, ⟨?_, ?_, ?_, ?_, ?_⟩, h.initializers ▸ hinitializers, ?_⟩
  · exact h.overrides (by decide : ("naming", "source_extension") ∈ _) hnaming.sourceExtension
  · exact h.overrides (by decide : ("naming", "header_extension") ∈ _) hnaming.headerExtension
  · exact h.overrides (by decide : ("naming", "test_suffix") ∈ _) hnaming.testSuffix
  · exact h.overrides (by decide : includesField ∈ _) htemplate.includes
  · exact h.overrides (by decide : ("template", "namespace") ∈ _) htemplate.namespaceName
  · exact h.overrides (by decide : ("template", "base_class") ∈ _) htemplate.baseClass
  · exact h.overrides (by decide : ("template", "type_list") ∈ _) htemplate.typeList
  · exact h.overrides (by decide : ("template", "strict_syntax") ∈ _) htemplate.strict
  · exact h.overrides (by decide : ("prompt", "interactive") ∈ _) hinteractive

/-! ## What is read of a text -/

/-- Whether a text is a document with groups, whose numbers can be
represented. -/
structure Writes (text : String) (document : Table) : Prop where
  parse : Toml.parse? text = some document
  fits : entriesFit document = true
  groups : HasGroups document

theorem parse_of_ofToml? {text : String} {document : Table}
    (h : Toml.parse? text = some document) :
    Settings.parse text =
      match ofToml? document with
      | none => .error .toml
      | some settings =>
        match settings.fault? with
        | none => .ok settings
        | some fault => .error fault.toFailure := by
  rw [Settings.parse, h, Option.bind_some]
  cases ofToml? document with
  | none => rfl
  | some settings =>
    simp only [check]
    cases settings.fault? <;> rfl

namespace Writes

variable {text : String} {document : Table} {settings : Settings}

theorem ofToml?_iff (h : Writes text document) :
    ofToml? document = some settings ↔ States document settings := by
  rw [ofToml?_eq_some_iff (Toml.isDistinct_of_parse? h.parse) h.groups]
  exact and_iff_right h.fits

theorem exists_states_iff (h : Writes text document) :
    (∃ settings, States document settings) ↔ HasTypes document :=
  Settings.exists_states_iff (Toml.isDistinct_of_parse? h.parse)

/-- Settings with a fault are refused for it. -/
theorem parse_of_states (h : Writes text document) (hstates : States document settings) :
    Settings.parse text =
      match settings.fault? with
      | none => .ok settings
      | some fault => .error fault.toFailure := by
  rw [parse_of_ofToml? h.parse, h.ofToml?_iff.2 hstates]

/-- A value of another type is refused like a text that is no document. -/
theorem parse_of_not_hasTypes (h : Writes text document) (htypes : ¬ HasTypes document) :
    Settings.parse text = .error .toml := by
  have hnone : ofToml? document = none := by
    rw [Option.eq_none_iff_forall_ne_some]
    intro settings hread
    exact htypes (h.exists_states_iff.1 ⟨settings, h.ofToml?_iff.1 hread⟩)
  rw [parse_of_ofToml? h.parse, hnone]

theorem parse_eq_ok_iff (h : Writes text document) :
    Settings.parse text = .ok settings ↔
      HasTypes document ∧ States document settings ∧ settings.IsUsable := by
  constructor
  · intro hparse
    have htypes : HasTypes document := by
      by_contra htypes
      rw [h.parse_of_not_hasTypes htypes] at hparse
      cases hparse
    obtain ⟨stated, hstates⟩ := h.exists_states_iff.2 htypes
    rw [h.parse_of_states hstates] at hparse
    cases hfault : stated.fault? with
    | none =>
      rw [hfault] at hparse
      cases hparse
      exact ⟨htypes, hstates, fault?_eq_none_iff_isUsable.1 hfault⟩
    | some fault =>
      rw [hfault] at hparse
      cases hparse
  · rintro ⟨-, hstates, husable⟩
    rw [h.parse_of_states hstates, fault?_eq_none_iff_isUsable.2 husable]

/-- Settings that are not usable are refused for their first fault. -/
theorem exists_firstFault_of_states (h : Writes text document) (hstates : States document settings)
    (hunusable : ¬ settings.IsUsable) :
    ∃ fault, settings.FirstFault fault ∧
      Settings.parse text = .error (.settings fault.message) := by
  cases hfault : settings.fault? with
  | none => exact absurd (fault?_eq_none_iff_isUsable.1 hfault) hunusable
  | some fault =>
    refine ⟨fault, fault?_eq_some_iff.1 hfault, ?_⟩
    rw [h.parse_of_states hstates, hfault]
    rfl

/-- Texts that give the same settings are read as the same. -/
theorem parse_eq_of_same (h : Writes text document) {other : String} {otherDocument : Table}
    (hother : Writes other otherDocument) (hsame : SameSettings document otherDocument) :
    Settings.parse text = Settings.parse other := by
  by_cases htypes : HasTypes document
  · obtain ⟨settings, hstates⟩ := h.exists_states_iff.2 htypes
    rw [h.parse_of_states hstates, hother.parse_of_states (hsame.states hstates)]
  · have hotherTypes : ¬ HasTypes otherDocument := by
      intro hotherTypes
      obtain ⟨settings, hstates⟩ := hother.exists_states_iff.2 hotherTypes
      exact htypes (h.exists_states_iff.1 ⟨settings, hsame.symm.states hstates⟩)
    rw [h.parse_of_not_hasTypes htypes, hother.parse_of_not_hasTypes hotherTypes]

end Writes

/-- A document with a number that cannot be represented is refused. -/
theorem parse_of_not_fits {text : String} {document : Table}
    (h : Toml.parse? text = some document) (hgroups : HasGroups document)
    (hfits : entriesFit document = false) : Settings.parse text = .error .toml := by
  have hnone : ofToml? document = none := by
    rw [Option.eq_none_iff_forall_ne_some]
    intro settings hread
    rw [ofToml?_eq_some_iff (Toml.isDistinct_of_parse? h) hgroups, hfits] at hread
    cases hread.1
  rw [parse_of_ofToml? h, hnone]

theorem fault?_of_parse {text : String} {settings : Settings}
    (h : Settings.parse text = .ok settings) : settings.fault? = none := by
  rw [Settings.parse] at h
  split at h
  · cases h
  · split at h
    · rename_i stated checked hcheck
      cases h
      rw [check] at hcheck
      split at hcheck
      · cases hcheck
      · rename_i hfault
        cases hcheck
        exact hfault
    · cases h

/-! ## Runs -/

section

variable {σ : Type} {serve : (request : Request) → σ → Reply request × σ} {state after : σ}

/-- A file is read as its text. -/
theorem run_loadFrom {path text : String} (h : serve (.read path) state = (.ok text.toUTF8, after)) :
    Action.run serve (loadFrom path) state = (Settings.parse text, after) := by
  have hread : Action.run serve (Action.read path) state = (.ok text.toUTF8, after) := h
  have htext : Action.run serve (Action.readText path) state = (.ok text, after) := by
    rw [Action.readText, Action.bind_eq, Action.run_andThen, hread]
    simp only [Text.fromUTF8?_toUTF8]
    rfl
  rw [loadFrom, Action.bind_eq, Action.run_andThen, htext]
  rfl

theorem fault?_of_loadFrom {path : String} {settings : Settings}
    (h : Action.run serve (loadFrom path) state = (.ok settings, after)) :
    settings.fault? = none := by
  rw [loadFrom, Action.bind_eq, Action.run_andThen] at h
  split at h
  · cases congrArg Prod.fst h
  · exact fault?_of_parse (congrArg Prod.fst h)

theorem fault?_of_loadFirst {paths : List String} {settings : Settings}
    (h : Action.run serve (loadFirst paths) state = (.ok settings, after)) :
    settings.fault? = none := by
  induction paths generalizing state with
  | nil =>
    cases congrArg Prod.fst h
    decide
  | cons path paths ih =>
    rw [loadFirst, Action.bind_eq, Action.run_andThen] at h
    split at h
    · exact fault?_of_loadFrom h
    · exact ih h

theorem fault?_of_load {userDir : Option String} {settings : Settings}
    (h : Action.run serve (load userDir) state = (.ok settings, after)) :
    settings.fault? = none := by
  rw [load, Action.bind_eq, Action.run_andThen] at h
  exact fault?_of_loadFirst h

/-- A settings file that is a document is accepted just if what it gives has
the right types and the settings that it states are usable; else it is refused
for the first fault, or for its types.  What it holds beyond the settings does
not count, unless it is a number that cannot be represented.  Settings that are
loaded pass the check, wherever they come from. -/
theorem loadFrom_overrides (serve : (request : Request) → σ → Reply request × σ)
    (state after : σ) (path : String) :
    (∀ text document, serve (.read path) state = (.ok text.toUTF8, after) →
      Writes text document →
        (∀ settings, Action.run serve (loadFrom path) state = (.ok settings, after) ↔
          HasTypes document ∧ States document settings ∧ settings.IsUsable) ∧
        ((∃ settings, States document settings) ↔ HasTypes document) ∧
        (∀ settings, States document settings → ¬ settings.IsUsable →
          ∃ fault, settings.FirstFault fault ∧
            Action.run serve (loadFrom path) state = (.error (.settings fault.message), after)) ∧
        (¬ HasTypes document → Action.run serve (loadFrom path) state = (.error .toml, after)) ∧
        ∀ otherState otherAfter other otherDocument,
          serve (.read path) otherState = (.ok other.toUTF8, otherAfter) →
          Writes other otherDocument → SameSettings document otherDocument →
            (Action.run serve (loadFrom path) otherState).1 =
              (Action.run serve (loadFrom path) state).1) ∧
      (∀ text document, serve (.read path) state = (.ok text.toUTF8, after) →
        Toml.parse? text = some document → HasGroups document → entriesFit document = false →
          Action.run serve (loadFrom path) state = (.error .toml, after)) ∧
      (∀ settings, Action.run serve (loadFrom path) state = (.ok settings, after) →
        settings.fault? = none) ∧
      ∀ userDir settings, Action.run serve (load userDir) state = (.ok settings, after) →
        settings.fault? = none := by
  refine ⟨fun text document hread hwrites => ?_, fun text document hread hparse hgroups hfits => ?_,
    fun settings => fault?_of_loadFrom, fun userDir settings => fault?_of_load⟩
  · rw [run_loadFrom hread]
    refine ⟨fun settings => ?_, hwrites.exists_states_iff, fun settings hstates hunusable => ?_,
      fun htypes => ?_, fun otherState otherAfter other otherDocument hother hotherWrites hsame => ?_⟩
    · rw [Prod.mk.injEq, and_iff_left rfl]
      exact hwrites.parse_eq_ok_iff
    · obtain ⟨fault, hfault, hparse⟩ := hwrites.exists_firstFault_of_states hstates hunusable
      exact ⟨fault, hfault, by rw [hparse]⟩
    · rw [hwrites.parse_of_not_hasTypes htypes]
    · rw [run_loadFrom hother]
      exact (hwrites.parse_eq_of_same hotherWrites hsame).symm
  · rw [run_loadFrom hread, parse_of_not_fits hparse hgroups hfits]

end

/-- A file with one name, the initializers and a name that is not known. -/
def partialText : String :=
  "[naming]\ntest_suffix = \"Spec\"\nwidth = 80\n[initializers]\nlong = \"0L\"\nint = \"1\""

/-- A system with such a file. -/
def partialMemory : Memory where
  tree := ⟨[(["settings.toml"], .file partialText.toUTF8)]⟩

/-- The document of the file. -/
def partialDocument : Table :=
  [("naming", .table .header [("test_suffix", .string "Spec"), ("width", .number true)]),
    ("initializers", .table .header [("long", .string "0L"), ("int", .string "1")])]

theorem writes_partialText : Writes partialText partialDocument := by
  refine ⟨rfl, rfl, fun name hname given hgiven => ?_⟩
  simp only [List.mem_cons, List.not_mem_nil, or_false] at hname
  rcases hname with rfl | rfl | rfl | rfl
  · cases hgiven
    exact ⟨_, _, rfl⟩
  · cases hgiven
  · cases hgiven
    exact ⟨_, _, rfl⟩
  · cases hgiven

/-- One name is overridden, and the initializers are replaced as a whole. -/
theorem loadFrom_overrides_partial :
    Writes partialText partialDocument ∧
      partialMemory.run (loadFrom "/settings.toml") =
        (.ok {
          naming := { testSuffix := "Spec" }
          initializers := .ofList [("int", "1"), ("long", "0L")] }, partialMemory) := by
  have hread : partialMemory.serve (.read "/settings.toml") =
      (.ok partialText.toUTF8, partialMemory) := by
    rfl
  have hinitializers : StatesInitializers (tableOf? partialDocument "initializers")
      (.ofList [("int", "1"), ("long", "0L")]) := by
    refine ⟨?_, by decide⟩
    exact List.Perm.swap _ _ []
  have hstates : States partialDocument {
      naming := { testSuffix := "Spec" }
      initializers := .ofList [("int", "1"), ("long", "0L")] } :=
    ⟨⟨rfl, rfl, rfl⟩, ⟨rfl, rfl, rfl, rfl, rfl⟩, hinitializers, rfl⟩
  obtain ⟨haccepted, htypes, -⟩ :=
    (loadFrom_overrides Memory.serve partialMemory partialMemory "/settings.toml").1 partialText
      partialDocument hread writes_partialText
  refine ⟨writes_partialText, (haccepted _).2 ⟨htypes.1 ⟨_, hstates⟩, hstates, ?_⟩⟩
  exact fault?_eq_none_iff_isUsable.1 (by decide)

end TestSkeleton.Settings
