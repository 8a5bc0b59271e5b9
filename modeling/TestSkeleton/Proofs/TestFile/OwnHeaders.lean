import Mathlib.Data.List.Basic
import TestSkeleton.Skeleton
import TestSkeleton.Proofs.Signature.NormalForm
import TestSkeleton.Proofs.TestFile.Headers

/-!
# The header of a written case

A case is written with a header, and cases are found by their headers.  Here
the two are compared: which of the names that cases are written with are
found again.

* `comma_not_mem_declaration` says that the declarations of a case have no comma.
  So only the first line of a case can hold a header (`caseNames_caseText`).
* `mem_caseNames_headerChars_iff` is when a header that is put together from
  any two texts is one.
* `caseNames_document` and `mem_caseNames_insertCase` take a case into a new
  file and into one that exists.
-/

namespace TestSkeleton

/-! ## Declarations -/

namespace Argument

/-- Whether no first value in a table has a comma. -/
def Initializers.HasNoComma (table : Initializers) : Prop :=
  ∀ pair ∈ table.toList, ',' ∉ pair.2.toList

theorem hasNoComma_defaultInitializers : Initializers.HasNoComma defaultInitializers := by
  have htable : defaultInitializers.toList =
      [("int", "0"), ("DWORD", "0"), ("string", "\"\""), ("wstring", "L\"\"")] := by decide
  rw [Initializers.HasNoComma, htable]
  simp only [List.forall_mem_cons]
  refine ⟨by decide, by decide, by decide, by decide, fun pair hpair => ?_⟩
  cases hpair

/-- The parameter list is cut at its commas. -/
theorem comma_not_mem_declaration {table : Initializers} (htable : table.HasNoComma)
    {parameters : String} {argument : Argument} (h : argument ∈ bind table parameters) :
    ',' ∉ argument.declaration.toList := by
  have hnormal := isNormal_of_mem_bind h
  have htype : ',' ∉ argument.typeName.toList :=
    fun hcomma => hnormal.typeName_isFree ',' hcomma (by decide)
  have hidentifier : ',' ∉ argument.identifier.toList :=
    fun hcomma => hnormal.identifier_isFree ',' hcomma (by decide)
  rw [declaration]
  split
  · rename_i value hvalue
    rw [hnormal.initializer] at hvalue
    have hvalue : ',' ∉ value.toList := htable _ (Entries.mem_of_get? hvalue)
    simp only [String.toList_append, List.mem_append, not_or]
    exact ⟨⟨⟨⟨⟨htype, by decide⟩, hidentifier⟩, by decide⟩, hvalue⟩, by decide⟩
  · simp only [String.toList_append, List.mem_append, not_or]
    exact ⟨⟨⟨htype, by decide⟩, hidentifier⟩, by decide⟩

end Argument

/-! ## Cases -/

namespace TestCase

/-- The body of a case, from the end of its first line on. -/
def bodyChars (testCase : TestCase) : List Char :=
  '\n' :: (testCase.argumentLines ++ testCase.assertionLines).flatMap
    fun line => (bodyLine line).toList

theorem toList_render (testCase : TestCase) : testCase.render.toList =
    TestFile.caseChars testCase.fixture.toList testCase.name.toList testCase.bodyChars := by
  have hbody : (String.join ((testCase.argumentLines ++ testCase.assertionLines).map
      bodyLine)).toList = (testCase.argumentLines ++ testCase.assertionLines).flatMap
        fun line => (bodyLine line).toList := by
    rw [String.toList_join, List.flatMap_map]
  delta render
  simp only [String.toList_append, hbody, TestFile.caseChars, TestFile.headerChars, bodyChars,
    List.append_assoc, List.cons_append]
  rfl

end TestCase

namespace TestFile

variable {fixture name method : List Char}

/-- A name has no blanks to trim. -/
theorem IsName.trim_eq (h : IsName name) : Text.trim name = name :=
  Text.trim_of_ends
    (fun c hc => Text.isBlank_of_isWord (h.isWord c (List.mem_of_head? hc)))
    (fun c hc => Text.isBlank_of_isWord (h.isWord c (List.mem_of_getLast? hc)))

theorem IsName.not_mem (h : IsName name) {p : Char} (hp : Text.isWord p = false) : p ∉ name := by
  intro hmem
  rw [h.isWord p hmem] at hp
  cases hp

theorem Header.comma_mem_chars (header : Header) : ',' ∈ header.chars := by
  simp [chars]

/-- The assertions of a new case hold no header, and what stands before them
does not go on in them. -/
theorem caseNames_append_assertions (cs : List Char) (strict : Bool) :
    caseNames (cs ++ (Template.placeholderAssertions strict).flatMap
      fun line => (TestCase.bodyLine line).toList) = caseNames cs := by
  have hblank : Text.AreBlanks ['\t'] := by decide
  have hname : IsName "EXPECT_TRUE".toList := by decide
  obtain ⟨rest, hrest, hnone⟩ : ∃ rest, ((Template.placeholderAssertions strict).flatMap
      fun line => (TestCase.bodyLine line).toList) =
        ['\t'] ++ ("EXPECT_TRUE".toList ++ '(' :: rest) ∧
      caseNames (['\t'] ++ ("EXPECT_TRUE".toList ++ '(' :: rest)) = [] := by
    cases strict with
    | false => exact ⟨_, rfl, by decide +kernel⟩
    | true => exact ⟨_, rfl, by decide +kernel⟩
  rw [hrest, caseNames_append (interrupts_call hblank (by decide) hname rest), hnone,
    List.append_nil]

/-- The names in a new case are those in its header. -/
theorem caseNames_caseText (template : Template) (fixture method : String)
    {arguments : List Argument}
    (h : ∀ argument ∈ arguments, ',' ∉ argument.declaration.toList) :
    caseNames (template.caseText fixture method arguments).toList =
      caseNames (headerChars fixture.toList (TestCase.nameFor method).toList) := by
  have hbody : (template.testCase fixture method arguments).bodyChars =
      ('\n' :: (arguments.map Argument.declaration).flatMap
        fun line => (TestCase.bodyLine line).toList) ++
      (Template.placeholderAssertions template.strict).flatMap
        fun line => (TestCase.bodyLine line).toList := by
    rw [TestCase.bodyChars, List.flatMap_append]
    rfl
  have hlines : caseNames ('\n' :: (arguments.map Argument.declaration).flatMap
      fun line => (TestCase.bodyLine line).toList) = [] := by
    refine caseNames_eq_nil fun header hwithin => ?_
    have hcomma := hwithin.subset header.comma_mem_chars
    simp only [List.mem_cons, List.mem_flatMap, List.mem_map, TestCase.bodyLine,
      String.toList_append, List.mem_append] at hcomma
    rcases hcomma with hcomma | ⟨line, ⟨argument, hargument, rfl⟩, (hcomma | hcomma) | hcomma⟩
    · cases hcomma
    · exact absurd hcomma (by decide)
    · exact h argument hargument hcomma
    · exact absurd hcomma (by decide)
  rw [Template.caseText, TestCase.toList_render, caseNames_caseChars, hbody,
    caseNames_append_assertions, hlines, List.append_nil]
  rfl

/-- A header within one that is put together from two texts has the first text
for its class, up to blanks around it. -/
theorem trim_of_header_isInfix {header : Header} (hopen : '(' ∉ fixture) (hcomma : ',' ∉ fixture)
    (h : header.chars <:+: headerChars fixture header.name) :
    Text.trim fixture = header.fixture := by
  obtain ⟨front, back, heq⟩ := h
  have hbefore : '(' ∉ headerKeyword := isName_headerKeyword.not_mem rfl
  have hbehind : '(' ∉ fixture ++ ',' :: (header.name ++ [')']) := by
    simp [hopen, header.isName.not_mem (p := '(') rfl]
  have hgaps : ',' ∉ header.beforeFixture.1 ++ header.fixture ++ header.beforeComma.1 := by
    simp only [List.mem_append, not_or]
    exact ⟨⟨Text.not_mem_of_areBlanks header.beforeFixture.2 rfl, header.isFixture.not_mem rfl⟩,
      Text.not_mem_of_areBlanks header.beforeComma.2 rfl⟩
  have hchars : headerKeyword ++ '(' :: (fixture ++ ',' :: (header.name ++ [')'])) =
      (front ++ headerKeyword ++ header.beforeOpen.1) ++ '(' ::
        ((header.beforeFixture.1 ++ header.fixture ++ header.beforeComma.1) ++ ',' ::
          (header.beforeName.1 ++ (header.name ++ (header.beforeClose.1 ++ ')' :: back)))) := by
    simpa [Header.chars, headerChars] using heq.symm
  -- there is one open parenthesis, and the first comma is behind it
  obtain ⟨-, -, hinside⟩ := (List.append_cons_inj_of_notMem hbefore hbehind).1 hchars
  obtain ⟨hcut, -⟩ := Text.cut_inj hcomma hgaps hinside
  rw [hcut, Text.trim_padded header.beforeFixture.2 header.beforeComma.2,
    header.isFixture.trim_eq]

/-- Two texts without another mark make a header if they are names, the first
one up to blanks around it. -/
theorem mem_caseNames_headerChars_iff (hopen : '(' ∉ fixture) (hcomma : ',' ∉ fixture) :
    name ∈ caseNames (headerChars fixture name) ↔ IsName (Text.trim fixture) ∧ IsName name := by
  constructor
  · intro h
    obtain ⟨header, rfl, hwithin⟩ := exists_header_of_mem h
    rw [trim_of_header_isInfix hopen hcomma hwithin]
    exact ⟨header.isFixture, header.isName⟩
  · rintro ⟨hfixture, hname⟩
    obtain ⟨before, after, hbefore, hafter, hcut⟩ := Text.exists_trim fixture
    have hheader := caseNames_of_header
      { beforeFixture := ⟨before, hbefore⟩, fixture := Text.trim fixture
        beforeComma := ⟨after, hafter⟩, name := name, isFixture := hfixture, isName := hname } []
    have hchars : headerKeyword ++ '(' :: (before ++ (Text.trim fixture ++
        (after ++ ',' :: (name ++ [')'])))) = headerChars fixture name := by
      rw [headerChars, ← List.append_assoc before, ← List.append_assoc _ after, ← hcut]
    rw [← hchars]
    rw [List.append_nil] at hheader
    exact hheader ▸ List.mem_cons_self

theorem isName_nameFor (method : String) :
    IsName (TestCase.nameFor method).toList ↔ ∀ c ∈ method.toList, Text.isWord c = true := by
  have hname : (TestCase.nameFor method).toList = 'S' :: ("hould".toList ++ method.toList) := by
    rw [TestCase.nameFor, String.toList_append]
    rfl
  have hprefix : IsName "hould".toList := by decide
  rw [hname]
  constructor
  · exact fun h c hc => h.2 c (List.mem_append_right _ hc)
  · intro h
    refine ⟨rfl, fun c hc => ?_⟩
    rcases List.mem_append.1 hc with hc | hc
    · exact hprefix.isWord c hc
    · exact h c hc

/-- A case with a plain class is found again if the class and the method are
words. -/
theorem mem_caseNames_caseText_iff (template : Template) {fixture : String} (method : String)
    {arguments : List Argument}
    (h : ∀ argument ∈ arguments, ',' ∉ argument.declaration.toList)
    (hopen : '(' ∉ fixture.toList) (hcomma : ',' ∉ fixture.toList) :
    (TestCase.nameFor method).toList ∈
        caseNames (template.caseText fixture method arguments).toList ↔
      IsName (Text.trim fixture.toList) ∧ ∀ c ∈ method.toList, Text.isWord c = true := by
  rw [caseNames_caseText template fixture method h, mem_caseNames_headerChars_iff hopen hcomma,
    isName_nameFor]

/-! ## Test files -/

theorem exists_fixtureClass_eq (preamble : Preamble) :
    ∃ front, preamble.fixtureClass.toList = front ++ ['\n'] := by
  have hend : "()\x7b\n\x7d\n\x7d;\n".toList = "()\x7b\n\x7d\n\x7d;".toList ++ ['\n'] := rfl
  delta Preamble.fixtureClass
  rw [String.toList_append, hend, ← List.append_assoc]
  exact ⟨_, rfl⟩

theorem exists_declaration_eq (template : Template) (header fixture : String) :
    ∃ front, (template.declaration header fixture).toList = front ++ ['\n'] := by
  obtain ⟨front, hfront⟩ := exists_fixtureClass_eq (template.preamble header fixture)
  delta Template.declaration Preamble.render
  rw [String.toList_append, hfront, ← List.append_assoc]
  exact ⟨_, rfl⟩

/-- A new file has the names in the text before its case and those in the
case. -/
theorem caseNames_document (template : Template) (header fixture method : String)
    (arguments : List Argument) :
    caseNames (template.document header fixture method arguments).toList =
      caseNames (template.declaration header fixture).toList ++
        caseNames (template.caseText fixture method arguments).toList := by
  obtain ⟨front, hfront⟩ := exists_declaration_eq template header fixture
  have hlineEnd : Text.AreBlanks ['\n'] := by decide
  have hclose : "\n\x7d\n".toList = ['\n'] ++ '\x7d' :: ['\n'] := rfl
  have hnone : caseNames ['\x7d', '\n'] = [] := by decide +kernel
  rw [Template.document, String.toList_append, String.toList_append, hfront, hclose,
    ← List.append_assoc, caseNames_closingLine, hnone, List.append_nil, List.append_assoc,
    Template.caseText, TestCase.toList_render,
    caseNames_append (interrupts_caseChars hlineEnd (by decide) _ _ _),
    caseNames_append (interrupts_of_areBlanks hlineEnd) front]
  show _ ++ caseNames ('\n' :: _) = _
  rw [caseNames_cons (by decide)]
  exact congrArg (· ++ _) (List.append_nil _).symm

/-- A file that takes a case has the names in it. -/
theorem mem_caseNames_insertCase (template : Template) {fixture method : String}
    {arguments : List Argument} {text out : List Char}
    (h : insertCase text (template.caseText fixture method arguments).toList = .ok out)
    (hname : name ∈ caseNames (template.caseText fixture method arguments).toList) :
    name ∈ caseNames out := by
  obtain ⟨offset, hpoint⟩ := insertionPoint_of_insertCase h
  obtain ⟨front, back, rfl, -, hfront, hback⟩ := insertionPoint_eq_ok_iff.1 hpoint
  rw [insertCase_eq hfront hback, Except.ok.injEq] at h
  rw [Template.caseText, TestCase.toList_render] at h hname
  rw [← h, caseNames_insert]
  exact List.mem_append_left _ (List.mem_append_right _ hname)

end TestFile

end TestSkeleton
