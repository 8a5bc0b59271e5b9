import TestSkeleton.Proofs.TestFile.Lines
import TestSkeleton.Skeleton

/-!
# Generated text takes cases

What a template writes is put together from lines, with text from the
settings and from a signature pasted into them.

* `Preamble.Fits` and `FitsArgument` say which text may be pasted into a
  preamble and into a declaration, and `Preamble.Fits.render` and
  `FitsArgument.endsAt` read the lines.  Text without marks fits.
* `Returns` says that a case leads back to code at the depth at which it
  stands.  `forall_insertCase_iff` shows that this is exactly what lets the
  case go into every text that takes one, and `insertionPoint_document_iff`
  that it is exactly what lets a new file take the next case.
* `keepsBlocks` decides `Returns` from the name of the method and the
  declarations alone (`returns_caseText_iff`), and so whether a new file
  takes the next case (`insertionPoint_ofTemplate_iff`).
-/

/-! ## The preamble -/

namespace TestSkeleton.Preamble

open TestFile (Mode StaysCode EndsLine IsQuotable isPlain_append)

/-- Whether what is pasted into a preamble keeps the shape of its lines. -/
structure Fits (preamble : Preamble) : Prop where
  includes : ∀ name ∈ preamble.includes, EndsLine (.literal '"' false) 0 (name.toList ++ ['"'])
  header : EndsLine (.literal '"' false) 0 (preamble.header.toList ++ ['"'])
  namespaceName : TestFile.IsPlain preamble.namespaceName.toList
  fixture : TestFile.IsPlain preamble.fixture.toList
  baseClass : EndsLine (.code []) 1 preamble.baseClass.toList
  typeList : EndsLine (.code []) 1 (preamble.typeList.toList ++ ['>', ';'])

/-- Whether what is pasted into a preamble holds no marks. -/
structure IsPlain (preamble : Preamble) : Prop where
  includes : ∀ name ∈ preamble.includes, IsQuotable name.toList
  header : IsQuotable preamble.header.toList
  namespaceName : TestFile.IsPlain preamble.namespaceName.toList
  fixture : TestFile.IsPlain preamble.fixture.toList
  baseClass : TestFile.IsPlain preamble.baseClass.toList
  typeList : TestFile.IsPlain preamble.typeList.toList

variable {preamble : Preamble}

theorem IsPlain.fits (h : preamble.IsPlain) : preamble.Fits where
  includes name hname := (h.includes name hname).endsLine 0
  header := h.header.endsLine 0
  namespaceName := h.namespaceName
  fixture := h.fixture
  baseClass := (StaysCode.of_plain h.baseClass 1).endsLine []
  typeList := ((StaysCode.of_plain h.typeList 1).append (.of_plain (by decide) 1)).endsLine []

theorem endsAt_includeLine {name : String}
    (h : EndsLine (.literal '"' false) 0 (name.toList ++ ['"'])) :
    (Mode.code []).EndsAt 0 (includeLine name).toList 0 := by
  have hfront : StaysCode 0 "#include ".toList 0 := .of_bracesDepth? rfl
  have htext : (includeLine name).toList =
      "#include ".toList ++ '"' :: (name.toList ++ ['"'] ++ ['\n']) := by
    simp [includeLine]
  rw [htext]
  exact .paste hfront (fun word => rfl) rfl h

theorem Fits.suite (h : preamble.Fits) : (Mode.code []).EndsAt 1 preamble.suite.toList 1 := by
  have halias : TestFile.IsPlain preamble.suiteAlias.toList := by
    rw [suiteAlias, String.toList_append, isPlain_append]
    exact ⟨h.fixture, by decide⟩
  have hlines (start macroArguments : List Char) (hstart : TestFile.IsPlain start)
      (harguments : TestFile.IsPlain macroArguments) : (Mode.code []).EndsAt 1
        (start ++ " = ::testing::Types".toList ++
          '<' :: (preamble.typeList.toList ++ ['>', ';'] ++ ['\n']) ++
          ("TYPED_TEST_SUITE(".toList ++ macroArguments ++ ");".toList ++ ['\n'])) 1 := by
    have hfront : StaysCode 1 (start ++ " = ::testing::Types".toList) 1 := by
      apply StaysCode.of_plain
      simp only [isPlain_append, hstart, true_and]
      decide
    have hmacro : StaysCode 1 ("TYPED_TEST_SUITE(".toList ++ macroArguments ++ ");".toList) 1 := by
      apply StaysCode.of_plain
      simp only [isPlain_append, harguments, and_true]
      decide
    exact (Mode.EndsAt.paste hfront (fun word => rfl) rfl h.typeList).append hmacro.endsAt
  rw [Preamble.suite]
  split
  · have hall := hlines ("using ".toList ++ preamble.suiteAlias.toList)
      (preamble.fixture.toList ++ ", ".toList ++ preamble.suiteAlias.toList)
      (isPlain_append.2 ⟨by decide, halias⟩)
      (isPlain_append.2 ⟨isPlain_append.2 ⟨h.fixture, by decide⟩, halias⟩)
    simpa using hall
  · have hall := hlines ("using".toList ++ preamble.suiteAlias.toList)
      (preamble.fixture.toList ++ preamble.suiteAlias.toList)
      (isPlain_append.2 ⟨by decide, halias⟩) (isPlain_append.2 ⟨h.fixture, halias⟩)
    simpa using hall

theorem Fits.fixtureClass (h : preamble.Fits) :
    (Mode.code []).EndsAt 1 preamble.fixtureClass.toList 1 := by
  have hfront : StaysCode 1 ("class ".toList ++ preamble.fixture.toList) 1 := by
    apply StaysCode.of_plain
    simp only [isPlain_append, h.fixture, and_true]
    decide
  have hbody : StaysCode 1 ("\x7b\npublic:\n".toList ++ preamble.fixture.toList ++
      "()\x7b\n\x7d\n~".toList ++ preamble.fixture.toList ++ "()\x7b\n\x7d\n\x7d;".toList) 1 :=
    (((StaysCode.append (.of_bracesDepth? rfl) (.of_plain h.fixture 2)).append
      (.of_bracesDepth? rfl)).append (.of_plain h.fixture 2)).append (.of_bracesDepth? rfl)
  have hall := (Mode.EndsAt.paste (c := ':') hfront (fun word => rfl) rfl h.baseClass).append
    hbody.endsAt
  simpa [Preamble.fixtureClass] using hall

/-- The preamble opens the block of its namespace and nothing else. -/
theorem Fits.render (h : preamble.Fits) :
    (Mode.code []).EndsAt 0 preamble.render.toList 1 := by
  have hincludes : (Mode.code []).EndsAt 0
      (String.join (preamble.includes.map includeLine)).toList 0 := by
    rw [String.toList_join, List.flatMap_map, List.flatMap_def]
    apply Mode.EndsAt.flatten
    intro line hline
    obtain ⟨name, hname, rfl⟩ := List.mem_map.1 hline
    exact endsAt_includeLine (h.includes name hname)
  have hnamespace : StaysCode 0 ("\nnamespace ".toList ++ preamble.namespaceName.toList ++
      " \x7b\n".toList) 1 :=
    (StaysCode.append (.of_bracesDepth? rfl) (.of_plain h.namespaceName 0)).append
      (.of_bracesDepth? rfl)
  have hempty (depth : Nat) : (Mode.code []).EndsAt depth ['\n'] depth := ⟨rfl, rfl⟩
  have hall := (((((hincludes.append (hempty 0)).append (endsAt_includeLine h.header)).append
    hnamespace.endsAt).append h.suite).append (hempty 1)).append h.fixtureClass
  simpa [Preamble.render] using hall

end TestSkeleton.Preamble

namespace TestSkeleton.TestFile

/-! ## Cases that lead back -/

/-- Whether a case, as lines of a block, leads back to code in that block. -/
structure Returns (caseText : List Char) : Prop where
  isCode : ((Mode.code []).after (caseText ++ ['\n'])).isCode = true
  depth : (Mode.code []).depth? 1 (caseText ++ ['\n']) = some 1

/-- Whether the quote of a literal is one that the machine knows. -/
def Mode.IsProper : Mode → Prop
  | .literal quote _ => quote = '"' ∨ quote = '\''
  | _ => True

namespace Mode

theorem IsProper.nextCode (word : List Char) (c : Char) : (nextCode word c).IsProper := by
  unfold Mode.nextCode
  split
  · trivial
  split
  · trivial
  split
  · split
    · exact Or.inr rfl
    · trivial
  split
  · exact Or.inl rfl
  · trivial

theorem IsProper.next {mode : Mode} (h : mode.IsProper) (c : Char) : (mode.next c).IsProper := by
  cases mode with
  | code word => exact nextCode word c
  | slash =>
    simp only [Mode.next]
    split
    · trivial
    split
    · trivial
    · exact nextCode [] c
  | lineComment =>
    simp only [Mode.next]
    split <;> trivial
  | blockComment star =>
    simp only [Mode.next]
    split <;> trivial
  | literal quote escaped =>
    simp only [Mode.next, Mode.nextLiteral]
    split
    · exact h
    split
    · exact h
    split
    · trivial
    · exact h

theorem IsProper.after {mode : Mode} (h : mode.IsProper) (cs : List Char) :
    (mode.after cs).IsProper := by
  induction cs generalizing mode with
  | nil => exact h
  | cons c cs ih => exact ih (h.next c)

/-- What a line end leaves open. -/
theorem IsProper.lineEnd {mode : Mode} (h : mode.IsProper) :
    mode.next '\n' = .code [] ∨ mode.next '\n' = .blockComment false ∨
      mode.next '\n' = .literal '"' false ∨ mode.next '\n' = .literal '\'' false := by
  cases mode with
  | code word => exact Or.inl rfl
  | slash => exact Or.inl rfl
  | lineComment => exact Or.inl rfl
  | blockComment star => exact Or.inr (Or.inl (by cases star <;> rfl))
  | literal quote escaped =>
    cases escaped with
    | true => rcases h with rfl | rfl <;> simp [Mode.next, nextLiteral]
    | false => rcases h with rfl | rfl <;> exact Or.inl rfl

/-- What a text that ends with a line end leaves open. -/
theorem after_line {mode : Mode} (h : mode.IsProper) (cs : List Char) :
    mode.after (cs ++ ['\n']) = .code [] ∨ mode.after (cs ++ ['\n']) = .blockComment false ∨
      mode.after (cs ++ ['\n']) = .literal '"' false ∨
      mode.after (cs ++ ['\n']) = .literal '\'' false := by
  rw [after_append]
  exact (h.after cs).lineEnd

end Mode

/-! ### Into every text -/

/-- A text whose end takes only code at depth one: the rest of its last line
is a comment to code, ends a block comment, and is part of a literal. -/
def probe : List Char := "\x7b\x7d//*/x".toList

theorem isFront_probe : IsFront ['\x7b'] := ⟨rfl, rfl⟩

theorem isTail_probe : IsTail "//*/x".toList := ⟨_, rfl, rfl⟩

/-- What has to stand in front of the end of the probe. -/
theorem isFront_of_probe {front : List Char} {offset : Nat}
    (h : insertionPoint (front ++ ['\n'] ++ "\x7d//*/x".toList) = .ok offset) :
    IsFront (front ++ ['\n']) := by
  rw [insertionPoint] at h
  split at h
  · cases h
  rename_i last hlast
  obtain ⟨before, hbefore, hrest⟩ := Scan.run_append_ok.1 hlast
  obtain ⟨hmode, -, hdepth⟩ := Scan.run_ok hbefore
  obtain ⟨hzero, -, hend⟩ := Scan.insertionPoint_eq_ok.1 h
  obtain ⟨mode, place, depth, close, trailing⟩ := before
  have hproper : (Mode.code []).IsProper := trivial
  rcases Mode.after_line hproper front with hcode | hcomment | hdouble | hsingle
  · change mode = (Mode.code []).after (front ++ ['\n']) at hmode
    rw [hcode] at hmode
    subst hmode
    rcases depth with _ | _ | depth
    · cases hrest
    · exact ⟨by rw [hcode]; rfl, hdepth⟩
    · cases hrest
      cases hzero
  · change mode = (Mode.code []).after (front ++ ['\n']) at hmode
    rw [hcomment] at hmode
    subst hmode
    cases hrest
    cases hend
  · change mode = (Mode.code []).after (front ++ ['\n']) at hmode
    rw [hdouble] at hmode
    subst hmode
    cases hrest
    cases hend
  · change mode = (Mode.code []).after (front ++ ['\n']) at hmode
    rw [hsingle] at hmode
    subst hmode
    cases hrest
    cases hend

/-- A case goes into every text that takes one if and only if it leads back. -/
theorem forall_insertCase_iff {caseText : List Char} :
    (∀ text offset, insertionPoint text = .ok offset →
        ∃ out offset', insertCase text caseText = .ok out ∧ insertionPoint out = .ok offset') ↔
      Returns caseText := by
  constructor
  · intro h
    have hprobe : insertionPoint probe = .ok 1 := rfl
    obtain ⟨out, offset, hout, hpoint⟩ := h probe 1 hprobe
    have heq := insertCase_eq isFront_probe isTail_probe caseText
    have hsame : out = ['\x7b', '\n', '\n'] ++ caseText ++ ['\n'] ++ "\x7d//*/x".toList := by
      rw [show probe = ['\x7b'] ++ '\x7d' :: "//*/x".toList by rfl, heq, Except.ok.injEq] at hout
      exact hout.symm
    rw [hsame] at hpoint
    obtain ⟨hcode, hdepth⟩ := isFront_of_probe hpoint
    rw [List.append_assoc] at hcode hdepth
    exact ⟨hcode, hdepth⟩
  · intro h text offset hpoint
    obtain ⟨front, back, rfl, rfl, hfront, hback⟩ := insertionPoint_eq_ok_iff.1 hpoint
    have hinsert := hfront.insert h.isCode h.depth
    exact ⟨_, _, insertCase_eq hfront hback caseText,
      insertionPoint_eq_ok_iff.2 ⟨_, back, rfl, rfl, hinsert, hback⟩⟩

/-! ### Into a new file -/

/-- A preamble and a case up to the line end behind the case. -/
theorem isFront_preamble_iff {preamble caseText : List Char}
    (hpreamble : (Mode.code []).EndsAt 0 preamble 1) :
    IsFront (preamble ++ caseText ++ ['\n']) ↔ Returns caseText := by
  rw [List.append_assoc]
  constructor
  · rintro ⟨hcode, hone⟩
    rw [Mode.after_append, hpreamble.isCode] at hcode
    rw [Mode.depth?_append, hpreamble.isCode, hpreamble.depth] at hone
    exact ⟨hcode, hone⟩
  · rintro ⟨hcode, hone⟩
    refine ⟨?_, ?_⟩
    · rw [Mode.after_append, hpreamble.isCode]
      exact hcode
    · rw [Mode.depth?_append, hpreamble.isCode, hpreamble.depth]
      exact hone

theorem isTail_lineEnd : IsTail ['\n'] := ⟨_, rfl, rfl⟩

/-- A new file takes a case in front of its last brace if and only if the
case that it was written with leads back. -/
theorem insertionPoint_document_iff {preamble caseText : List Char}
    (hpreamble : (Mode.code []).EndsAt 0 preamble 1) :
    insertionPoint (preamble ++ caseText ++ "\n\x7d\n".toList) =
        .ok (Text.byteLength (preamble ++ caseText ++ ['\n'])) ↔
      Returns caseText := by
  have hcut : preamble ++ caseText ++ "\n\x7d\n".toList =
      (preamble ++ caseText ++ ['\n']) ++ '\x7d' :: ['\n'] := by simp
  rw [hcut, ← isFront_preamble_iff hpreamble, insertionPoint_eq_ok_iff]
  constructor
  · rintro ⟨front, back, htext, hlength, hfront, hback⟩
    obtain ⟨hsame, -⟩ := Text.append_inj_of_byteLength htext hlength.symm
    rw [hsame]
    exact hfront
  · intro hfront
    exact ⟨_, ['\n'], rfl, rfl, hfront, isTail_lineEnd⟩

/-! ## Cases of a template -/

/-- Whether the machine is inside a block comment. -/
def Mode.inBlockComment : Mode → Bool
  | .blockComment _ => true
  | _ => false

/-- What a case takes from a signature, and the text between: the name, the
start of the body and the declarations. -/
def opening (method : String) (arguments : List Argument) : List Char :=
  method.toList ++ ")\x7b\n".toList ++
    (arguments.map fun argument => (TestCase.bodyLine argument.declaration).toList).flatten

/-- The rest of a case: the assertions and the end of the body. -/
def closing (strict : Bool) : List Char :=
  ((Template.placeholderAssertions strict).map fun line =>
    (TestCase.bodyLine line).toList).flatten ++ "\x7d\n".toList

/-- The mode after the text that the name of every case starts with. -/
def afterPrefix : Mode := .code TestCase.namePrefix.toList.reverse

/-- Whether a name and some declarations open the body of their case and
nothing else, and leave no block comment open. -/
def keepsBlocks (method : String) (arguments : List Argument) : Bool :=
  afterPrefix.depth? 1 (opening method arguments) == some 2 &&
    !(afterPrefix.after (opening method arguments)).inBlockComment

/-- The declarations end with a line end, and so does the start of the body. -/
theorem exists_opening (method : String) (arguments : List Argument) :
    ∃ init, opening method arguments = init ++ ['\n'] := by
  rcases List.eq_nil_or_concat arguments with rfl | ⟨front, last, rfl⟩
  · exact ⟨method.toList ++ [')', '\x7b'], by simp [opening]⟩
  · exact ⟨_, by
      simp only [opening, List.concat_eq_append, List.map_append, List.flatten_append,
        List.map_cons, List.map_nil, List.flatten_cons, List.flatten_nil, List.append_nil,
        TestCase.bodyLine, String.toList_append, ← List.append_assoc]
      rfl⟩

/-- The end of a case, after the declarations. -/
theorem closing_of_lineEnd {mode : Mode} (strict : Bool)
    (h : mode = .code [] ∨ mode = .literal '"' false ∨ mode = .literal '\'' false) (depth : Nat) :
    mode.after (closing strict) = .code [] ∧
      (mode.depth? depth (closing strict) = some 1 ↔ depth = 2) := by
  cases strict <;> rcases h with rfl | rfl | rfl <;> refine ⟨rfl, ?_⟩ <;>
  · cases depth with
    | zero =>
      constructor
      · intro h
        cases h
      · intro h
        cases h
    | succ depth =>
      show some depth = some 1 ↔ _
      simp

theorem closing_of_blockComment (strict : Bool) :
    (Mode.blockComment false).after (closing strict) = .blockComment false := by
  cases strict <;> rfl

/-- A case in a file: the part that only the settings decide comes first. -/
theorem exists_caseText_eq (template : Template) {fixture : String}
    (hfixture : IsPlain fixture.toList) (method : String) (arguments : List Argument) :
    ∃ front, (template.caseText fixture method arguments).toList ++ ['\n'] =
        front ++ opening method arguments ++ closing template.strict ∧
      (Mode.code []).after front = afterPrefix ∧ (Mode.code []).depth? 1 front = some 1 := by
  have hname : StaysCode 1 ("TYPED_TEST(".toList ++ fixture.toList) 1 :=
    .append (.of_plain (by decide) 1) (.of_plain hfixture 1)
  obtain ⟨⟨word, hmode⟩, hdepth⟩ := hname []
  refine ⟨"TYPED_TEST(".toList ++ fixture.toList ++ ",Should".toList, ?_, ?_, ?_⟩
  · delta Template.caseText TestCase.render
    simp only [Template.testCase, TestCase.nameFor, TestCase.namePrefix, opening, closing,
      String.toList_append, String.toList_join, List.flatMap_def, List.map_append, List.map_map,
      List.flatten_append, List.append_assoc]
    rfl
  · rw [Mode.after_append, hmode]
    rfl
  · rw [Mode.depth?_append, hmode, hdepth]
    rfl

/-- A case leads back if and only if its name and its declarations do. -/
theorem returns_caseText_iff (template : Template) {fixture : String}
    (hfixture : IsPlain fixture.toList) (method : String) (arguments : List Argument) :
    Returns (template.caseText fixture method arguments).toList ↔
      keepsBlocks method arguments = true := by
  obtain ⟨front, htext, hfront, hone⟩ := exists_caseText_eq template hfixture method arguments
  have hmode : (Mode.code []).after (front ++ opening method arguments ++ closing template.strict) =
      (afterPrefix.after (opening method arguments)).after (closing template.strict) := by
    rw [Mode.after_append, Mode.after_append, hfront]
  have hdepth : (Mode.code []).depth? 1
      (front ++ opening method arguments ++ closing template.strict) =
      (afterPrefix.depth? 1 (opening method arguments)).bind fun depth =>
        (afterPrefix.after (opening method arguments)).depth? depth (closing template.strict) := by
    rw [List.append_assoc, Mode.depth?_append, hone, hfront, Option.bind_some, Mode.depth?_append]
  obtain ⟨init, hinit⟩ := exists_opening method arguments
  have hproper : afterPrefix.IsProper := trivial
  have hline := Mode.after_line hproper init
  rw [← hinit] at hline
  simp only [keepsBlocks, Bool.and_eq_true, beq_iff_eq, Bool.not_eq_true']
  by_cases hcomment : afterPrefix.after (opening method arguments) = .blockComment false
  · constructor
    · rintro ⟨hcode, -⟩
      rw [htext, hmode, hcomment, closing_of_blockComment] at hcode
      cases hcode
    · rintro ⟨-, hopen⟩
      rw [hcomment] at hopen
      cases hopen
  · have hend : afterPrefix.after (opening method arguments) = .code [] ∨
        afterPrefix.after (opening method arguments) = .literal '"' false ∨
        afterPrefix.after (opening method arguments) = .literal '\'' false :=
      hline.imp_right fun h => h.resolve_left hcomment
    constructor
    · rintro ⟨-, hback⟩
      rw [htext, hdepth] at hback
      obtain ⟨depth, hd, hone⟩ := Option.bind_eq_some_iff.1 hback
      obtain ⟨-, hiff⟩ := closing_of_lineEnd template.strict hend depth
      have htwo : depth = 2 := hiff.1 hone
      rw [hd, htwo]
      refine ⟨rfl, ?_⟩
      rcases hend with h | h | h <;> rw [h] <;> rfl
    · rintro ⟨hd, -⟩
      obtain ⟨hcode, hiff⟩ := closing_of_lineEnd template.strict hend 2
      refine ⟨?_, ?_⟩
      · rw [htext, hmode, hcode]
        rfl
      · rw [htext, hdepth, hd, Option.bind_some]
        exact hiff.2 rfl

/-! ## Declarations that keep their lines -/

/-- Whether the declaration of a variable keeps the shape of its line. -/
structure FitsArgument (argument : Argument) : Prop where
  typeName : IsPlain argument.typeName.toList
  identifier : IsPlain argument.identifier.toList
  initializer : ∀ value, argument.initializer = some value →
    EndsLine (.code []) 2 (value.toList ++ [';'])

/-- Whether a declaration holds no marks, but for a default initializer. -/
structure IsPlainArgument (argument : Argument) : Prop where
  typeName : IsPlain argument.typeName.toList
  identifier : IsPlain argument.identifier.toList
  initializer : ∀ value, argument.initializer = some value →
    value ∈ Argument.defaultInitializers.toList.map Prod.snd

theorem endsLine_defaultInitializer : ∀ value ∈ Argument.defaultInitializers.toList.map Prod.snd,
    EndsLine (.code []) 2 (value.toList ++ [';']) := by
  decide

theorem IsPlainArgument.fits {argument : Argument} (h : IsPlainArgument argument) :
    FitsArgument argument where
  typeName := h.typeName
  identifier := h.identifier
  initializer value hvalue := endsLine_defaultInitializer value (h.initializer value hvalue)

theorem FitsArgument.endsAt {argument : Argument} (h : FitsArgument argument) :
    (Mode.code []).EndsAt 2 (TestCase.bodyLine argument.declaration).toList 2 := by
  have hname : StaysCode 2 ("\t".toList ++ (argument.typeName.toList ++ " ".toList ++
      argument.identifier.toList)) 2 := by
    apply StaysCode.of_plain
    simp only [isPlain_append, h.typeName, h.identifier, and_true]
    decide
  cases hvalue : argument.initializer with
  | none =>
    have hend : StaysCode 2 [';'] 2 := .of_plain (by decide) 2
    have hline := (hname.append hend).endsAt
    simpa [TestCase.bodyLine, Argument.declaration, hvalue] using hline
  | some value =>
    have hline := Mode.EndsAt.paste (c := '=') hname (fun word => rfl) rfl
      (h.initializer value hvalue)
    simpa [TestCase.bodyLine, Argument.declaration, hvalue] using hline

/-- A plain name and declarations that fit open the body of their case only. -/
theorem keepsBlocks_of_fits {method : String} {arguments : List Argument}
    (hmethod : IsPlain method.toList) (harguments : ∀ argument ∈ arguments,
      FitsArgument argument) : keepsBlocks method arguments = true := by
  have hlines : (Mode.code []).EndsAt 2 (arguments.map fun argument =>
      (TestCase.bodyLine argument.declaration).toList).flatten 2 := by
    apply Mode.EndsAt.flatten
    intro line hline
    obtain ⟨argument, hargument, rfl⟩ := List.mem_map.1 hline
    exact (harguments argument hargument).endsAt
  have hname : StaysCode 1 (TestCase.namePrefix.toList ++ method.toList ++ [')', '\x7b']) 2 :=
    (StaysCode.append (.of_plain (by decide) 1) (.of_plain hmethod 1)).append (.of_bracesDepth? rfl)
  have hopening := hname.endsAt.append hlines
  have htext : TestCase.namePrefix.toList ++ method.toList ++ [')', '\x7b'] ++ ['\n'] ++
      (arguments.map fun argument => (TestCase.bodyLine argument.declaration).toList).flatten =
        TestCase.namePrefix.toList ++ opening method arguments := by
    simp [opening]
  rw [htext] at hopening
  have hprefix : (Mode.code []).after TestCase.namePrefix.toList = afterPrefix := rfl
  have hmode := hopening.isCode
  have hdepth := hopening.depth
  rw [Mode.after_append, hprefix] at hmode
  rw [Mode.depth?_append, hprefix] at hdepth
  rw [keepsBlocks, hmode, show afterPrefix.depth? 1 (opening method arguments) = some 2 from hdepth]
  rfl

/-! ## New files -/

/-- A new file takes a case in front of its last brace if and only if the
declarations of its first case keep their blocks. -/
theorem insertionPoint_ofTemplate_iff {template : Template} {header fixture : String}
    (hpreamble : (template.preamble header fixture).Fits) (method : String)
    (arguments : List Argument) :
    let document := (template.document header fixture method arguments).toList
    insertionPoint document = .ok (Text.byteLength document - 2) ↔
      keepsBlocks method arguments = true := by
  intro document
  have hdocument : document = (template.preamble header fixture).render.toList ++
      (template.caseText fixture method arguments).toList ++ "\n\x7d\n".toList := by
    simp only [document, Template.document, Template.declaration, String.toList_append]
  have hlength : Text.byteLength document - 2 =
      Text.byteLength ((template.preamble header fixture).render.toList ++
        (template.caseText fixture method arguments).toList ++ ['\n']) := by
    have hend : Text.byteLength "\n\x7d\n".toList = 3 := rfl
    have hline : Text.byteLength ['\n'] = 1 := rfl
    rw [hdocument]
    simp only [Text.byteLength_append, hend, hline]
    rfl
  rw [← returns_caseText_iff template hpreamble.fixture, hlength, hdocument]
  exact insertionPoint_document_iff hpreamble.render

/-! ## Many cases -/

/-- A text up to its last visible character. -/
theorem trimEnd_lineEnd {cs : List Char} {c : Char} (hlast : cs.getLast? = some c)
    (hc : Text.isBlank c = false) : Text.trimEnd (cs ++ ['\n']) = cs := by
  obtain ⟨front, rfl⟩ := List.getLast?_eq_some_iff.1 hlast
  simp [Text.trimEnd, Text.dropEndWhile, hc, show Text.isBlank '\n' = true by rfl]

theorem getLast?_caseText (template : Template) (fixture method : String)
    (arguments : List Argument) :
    (template.caseText fixture method arguments).toList.getLast? = some '\x7d' := by
  delta Template.caseText TestCase.render
  rw [String.toList_append, List.getLast?_append]
  rfl

/-- A case after other text: an empty line stands between them. -/
theorem insertCase_lineEnd {front caseText : List Char} {c : Char}
    (hfront : IsFront (front ++ ['\n']))
    (hlast : front.getLast? = some c) (hc : Text.isBlank c = false) :
    insertCase (front ++ "\n\x7d\n".toList) caseText =
      .ok (front ++ ['\n', '\n'] ++ caseText ++ "\n\x7d\n".toList) := by
  have hcut : front ++ "\n\x7d\n".toList = (front ++ ['\n']) ++ '\x7d' :: ['\n'] := by simp
  rw [hcut, insertCase_eq hfront isTail_lineEnd, trimEnd_lineEnd hlast hc]
  simp

/-- A case that leads back can stand after other text in front of a brace. -/
theorem IsFront.addCase {front caseText : List Char} {c : Char} (hfront : IsFront (front ++ ['\n']))
    (hlast : front.getLast? = some c) (hc : Text.isBlank c = false) (hcase : Returns caseText) :
    IsFront (front ++ ['\n', '\n'] ++ caseText ++ ['\n']) := by
  have hinsert := hfront.insert hcase.isCode hcase.depth
  rw [trimEnd_lineEnd hlast hc] at hinsert
  exact hinsert

end TestSkeleton.TestFile
