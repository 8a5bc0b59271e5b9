import TestSkeleton.Proofs.Generation.OwnOutput
import TestSkeleton.Proofs.Signature.NormalForm

/-!
# Settings that are pasted into a document

The check of the settings is about names: the extensions, the suffix, the
namespace and the types of the initializers.  The other texts go into a
document as they are.

* `Settings.KeepsLines` is what they have to keep to: each one, read at its
  place, ends its line as code and leaves open what was open.  It can be
  decided for given settings.
* `fits_preamble` and `fitsArgument_of_mem_bind` bring the check, the
  identifiers and this condition together.
* `insertionPoint_of_accepted` is the result: the document takes a case in
  front of its last brace, and goes on taking cases.
* `bracedBase` is accepted and does not keep its lines.  Its base class opens
  a block that nothing closes.
-/

namespace TestSkeleton

open TestFile (EndsLine FitsArgument)

/-- What settings paste into a document ends its line as code, with the blocks
that were open in front of it. -/
structure Settings.KeepsLines (settings : Settings) : Prop where
  includes : ∀ name ∈ settings.template.includes,
    EndsLine (.literal '"' false) 0 (name.toList ++ ['"'])
  headerExtension :
    EndsLine (.literal '"' false) 0 (settings.naming.headerExtension.toList ++ ['"'])
  testSuffix : TestFile.IsPlain settings.naming.testSuffix.toList
  baseClass : EndsLine (.code []) 1 settings.template.baseClass.toList
  typeList : EndsLine (.code []) 1 (settings.template.typeList.toList ++ ['>', ';'])
  initializers : ∀ entry ∈ settings.initializers.toList,
    EndsLine (.code []) 2 (entry.2.toList ++ [';'])

/-- Whether nothing but identifiers stands between the commas of a parameter
list. -/
def AreIdentifiers (parameters : String) : Prop :=
  ∀ piece ∈ Text.fields (fun c => c == ',') parameters.toList,
    ∀ word ∈ Text.words piece, Settings.isIdentifier word = true

instance (parameters : String) : Decidable (AreIdentifiers parameters) :=
  inferInstanceAs (Decidable (∀ piece ∈ Text.fields (fun c => c == ',') parameters.toList,
    ∀ word ∈ Text.words piece, Settings.isIdentifier word = true))

namespace Generation

variable {settings : Settings}

/-! ## The preamble -/

/-- Nothing but colons is taken out between the scopes of a name. -/
theorem mem_flatten_scopes {cs : List Char} {c : Char} (h : c ∈ cs) :
    c = ':' ∨ c ∈ (Settings.scopes cs).flatten := by
  induction cs using Settings.scopes.induct with
  | case1 rest ih =>
    rw [Settings.scopes]
    rcases List.mem_cons.1 h with rfl | h
    · exact Or.inl rfl
    rcases List.mem_cons.1 h with rfl | h
    · exact Or.inl rfl
    · exact ih h
  | case2 d rest hcolons ih =>
    rw [Settings.scopes.eq_2 d rest hcolons, Text.flatten_consField, List.mem_cons]
    rcases List.mem_cons.1 h with rfl | h
    · exact Or.inr (Or.inl rfl)
    · exact (ih h).imp_right Or.inr
  | case3 => cases h

theorem isPlain_of_isNamespaceName {name : String} (h : Settings.isNamespaceName name = true) :
    TestFile.IsPlain name.toList := by
  intro c hc
  rcases mem_flatten_scopes hc with rfl | hc
  · rfl
  · obtain ⟨scope, hscope, hc⟩ := List.mem_flatten.1 hc
    exact isPlain_of_isIdentifier (List.all_eq_true.1 h scope hscope) c hc

/-- The preamble of a source file whose stem is an identifier. -/
theorem fits_preamble (haccepted : settings.IsAccepted) (hlines : settings.KeepsLines)
    {source : String} (hstem : Settings.isIdentifier (Path.stem source.toList) = true) :
    let header := settings.naming.headerOf source
    (settings.template.preamble header (settings.naming.fixtureOf header)).Fits := by
  intro header
  refine ⟨hlines.includes, ?_, isPlain_of_isNamespaceName haccepted.namespaceName, ?_,
    hlines.baseClass, hlines.typeList⟩
  · -- the stem stays in the literal that the extension ends
    have hquotable : TestFile.IsQuotable (Path.stem source.toList ++ ['.']) := by
      intro c hc
      rcases List.mem_append.1 hc with hc | hc
      · exact isQuotable_of_isIdentifier hstem c hc
      · rw [List.mem_singleton.1 hc]
        decide
    obtain ⟨hmode, hdepth⟩ := hquotable.literal 0
    have hheader : header.toList ++ ['"'] ++ ['\n'] = (Path.stem source.toList ++ ['.']) ++
        (settings.naming.headerExtension.toList ++ ['"'] ++ ['\n']) := by
      simp [header, Naming.headerOf, Naming.stemOf]
    show (TestFile.Mode.literal '"' false).EndsAt 0 (header.toList ++ ['"'] ++ ['\n']) 0
    rw [hheader]
    constructor
    · rw [TestFile.Mode.after_append, hmode, hlines.headerExtension.isCode]
    · rw [TestFile.Mode.depth?_append, hdepth, hmode]
      exact hlines.headerExtension.depth
  · show TestFile.IsPlain (settings.naming.fixtureOf header).toList
    rw [Naming.fixtureOf_headerOf (ne_nil_of_isIdentifier hstem) haccepted.headerExtension,
      Naming.stemOf, String.toList_append, String.toList_ofList, TestFile.isPlain_append]
    exact ⟨isPlain_of_isIdentifier hstem, hlines.testSuffix⟩

/-! ## The declarations -/

theorem isPlain_positionalName (position : Nat) :
    TestFile.IsPlain (Argument.positionalName position).toList := by
  intro c hc
  have hletters : TestFile.IsPlain ['a', 'r', 'g'] := by decide
  rcases Argument.mem_positionalName hc with hc | hdigit
  · exact hletters c hc
  · exact TestFile.isMark_of_isAsciiWord (by simp [Text.isAsciiWord, Char.isAlphanum, hdigit])

/-- Variables that are declared with identifiers only. -/
theorem fitsArgument_of_mem_bind (hlines : settings.KeepsLines) {parameters : String}
    (hparameters : AreIdentifiers parameters) {argument : Argument}
    (h : argument ∈ Argument.bind settings.initializers parameters) : FitsArgument argument := by
  obtain ⟨place, piece, hpiece, hvariable⟩ := Argument.exists_piece_of_mem_bind h
  have hdeclares := Argument.declares_ofPiece? settings.initializers place piece
  rw [hvariable] at hdeclares
  have hwords : ∀ word ∈ Argument.declaredWords piece, ∀ c ∈ word, TestFile.isMark c = false := by
    intro word hword c hc
    -- a word in front of a default value is part of a word of the piece
    have hblank := (Argument.isSolid_of_mem_declaredWords hword).2 c hc
    obtain ⟨whole, hwhole, hmem⟩ :=
      Text.exists_mem_words (Argument.of_mem_declaredWords hword hc).1 hblank
    exact isPlain_of_isIdentifier (hparameters piece hpiece whole hwhole) c hmem
  obtain ⟨htype, hidentifier⟩ := hdeclares.forall_mem hwords rfl (isPlain_positionalName place)
  refine ⟨htype, hidentifier, fun value hvalue => ?_⟩
  rw [(Argument.isNormal_of_mem_bind h).initializer] at hvalue
  exact hlines.initializers _ (Entries.mem_of_get? hvalue)

theorem keepsBlocks_of_identifiers (hlines : settings.KeepsLines) {method parameters : String}
    (hmethod : Settings.isIdentifier method.toList = true)
    (hparameters : AreIdentifiers parameters) :
    TestFile.keepsBlocks method (Argument.bind settings.initializers parameters) = true :=
  TestFile.keepsBlocks_of_fits (isPlain_of_isIdentifier hmethod) fun _ hargument =>
    fitsArgument_of_mem_bind hlines hparameters hargument

/-! ## The document -/

/-- With settings that are accepted and keep their lines, identifiers make a
document that takes a case in front of its last brace.  Every case that is
made of identifiers goes into every text that takes cases, so into this
document, and leaves a text that takes cases. -/
theorem insertionPoint_of_accepted (haccepted : settings.fault? = none)
    (hlines : settings.KeepsLines) {source : String}
    (hstem : Settings.isIdentifier (Path.stem source.toList) = true)
    {method parameters : String} (hmethod : Settings.isIdentifier method.toList = true)
    (hparameters : AreIdentifiers parameters) :
    let header := settings.naming.headerOf source
    let fixture := settings.naming.fixtureOf header
    let document := (settings.template.document header fixture method
      (Argument.bind settings.initializers parameters)).toList
    TestFile.insertionPoint document = .ok (Text.byteLength document - 2) ∧
      ∀ next nextParameters, Settings.isIdentifier next.toList = true →
        AreIdentifiers nextParameters →
        ∀ text offset, TestFile.insertionPoint text = .ok offset → ∃ out offset',
          TestFile.insertCase text (settings.template.caseText fixture next
            (Argument.bind settings.initializers nextParameters)).toList = .ok out ∧
          TestFile.insertionPoint out = .ok offset' := by
  intro header fixture document
  have hpreamble := fits_preamble (Settings.fault?_eq_none_iff.1 haccepted) hlines hstem
  refine ⟨?_, fun next nextParameters hnext hnextParameters => ?_⟩
  · exact (TestFile.insertionPoint_ofTemplate_iff hpreamble _ _).2
      (keepsBlocks_of_identifiers hlines hmethod hparameters)
  · have hreturns := (TestFile.returns_caseText_iff settings.template hpreamble.fixture next
      (Argument.bind settings.initializers nextParameters)).2
        (keepsBlocks_of_identifiers hlines hnext hnextParameters)
    exact TestFile.forall_insertCase_iff.2 hreturns

/-- Settings with braces, quotes and comments in the texts that are pasted. -/
def markedSettings : Settings where
  naming := ⟨"cc", "h\x7b", "_Test"⟩
  template := {
    includes := ["gtest/gtest.h", "a\x7b.h\" // \x7b"]
    namespaceName := "proj::unit"
    baseClass := "public Base<'\x7b'> /* \x7b */"
    typeList := "std::array<char, sizeof \"\x7d\">, int\x7b\x7d"
    strict := true }
  initializers := Entries.ofList [("Point", "\x7b0, '\x7d'\x7d"), ("int", "1'000")]

theorem insertionPoint_markedSettings :
    markedSettings.fault? = none ∧ markedSettings.KeepsLines ∧
      AreIdentifiers "const Point p, int , unsigned long n" ∧
      let header := markedSettings.naming.headerOf "src/Job.cc"
      let document := (markedSettings.template.document header
        (markedSettings.naming.fixtureOf header) "Run"
        (Argument.bind markedSettings.initializers "const Point p, int , unsigned long n")).toList
      TestFile.insertionPoint document = .ok (Text.byteLength document - 2) := by
  have haccepted : markedSettings.fault? = none := by decide
  have hlines : markedSettings.KeepsLines :=
    ⟨by decide, by decide, by decide, by decide, by decide, by decide⟩
  have hparameters : AreIdentifiers "const Point p, int , unsigned long n" := by decide
  have hstem : Settings.isIdentifier (Path.stem "src/Job.cc".toList) = true := by decide
  have hmethod : Settings.isIdentifier "Run".toList = true := by decide
  exact ⟨haccepted, hlines, hparameters,
    (insertionPoint_of_accepted haccepted hlines hstem hmethod hparameters).1⟩

/-! ## A base class that opens a block -/

/-- Settings with a brace behind the base class. -/
def bracedBase : Settings where
  template := { baseClass := "public testing::Test \x7b" }

/-- The settings are accepted, and what they write takes no case. -/
theorem leftOpen_bracedBase :
    bracedBase.fault? = none ∧
      Settings.isIdentifier (Path.stem "Job.cpp".toList) = true ∧
      Settings.isIdentifier "Run".toList = true ∧ AreIdentifiers "int a" ∧
      let header := bracedBase.naming.headerOf "Job.cpp"
      TestFile.insertionPoint (bracedBase.template.document header
        (bracedBase.naming.fixtureOf header) "Run"
        (Argument.bind bracedBase.initializers "int a")).toList = .error (.leftOpen 1) := by
  refine ⟨by decide, by decide, by decide, by decide, ?_⟩
  -- the document as a list of characters, which is run without building the text
  delta Template.document Template.declaration Template.caseText Preamble.render Preamble.suite
    Preamble.fixtureClass TestCase.render
  simp only [String.toList_append, String.toList_join, apply_ite String.toList]
  decide +kernel

end Generation

end TestSkeleton
