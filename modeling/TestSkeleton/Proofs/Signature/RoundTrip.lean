import TestSkeleton.Proofs.Signature.Grammar

/-!
# Reading a written declaration

A line that declares a function is written here from its parts.  Reading the
line and binding its parameter list gives the name and the parameters back.

* `Declaration` is such a line up to its closing parenthesis: words in front,
  scopes and sigils at the name, and the parameters.
* `isBarePart_nameChars` says what is left of the name without its scopes and
  sigils, and `parts` are the parts of a line that starts with a declaration.
* `read_declaration` is the result, for any text behind the declaration.
-/

namespace TestSkeleton.Signature

/-! ## Declarations -/

/-- The name of a scope, which is followed by a double colon. -/
structure Scope where
  name : List Char
  isUnbroken : Text.IsUnbroken name
  isFree : IsFree ['(', ')'] name

/-- The text of a scope. -/
def Scope.chars (scope : Scope) : List Char :=
  scope.name ++ [':', ':']

/-- A function declaration up to its closing parenthesis. -/
structure Declaration where
  leading : Blanks
  /-- What stands in front of the name, such as a return type. -/
  front : List (Spaced ['(', ')'])
  scopes : List Scope
  name : Marked ['(', ')', ':']
  /-- The blanks between the name and the parenthesis. -/
  gap : Blanks
  /-- Blanks in front of the first parameter. -/
  inner : Blanks
  parameters : List Parameter

namespace Declaration

variable (declaration : Declaration)

/-- The name with its scopes and sigils. -/
def nameChars : List Char :=
  declaration.scopes.flatMap Scope.chars ++ declaration.name.chars

/-- The text in front of the parameter list. -/
def frontChars : List Char :=
  declaration.leading.chars ++
    (declaration.front.flatMap Spaced.chars ++ declaration.nameChars) ++ declaration.gap.chars

/-- The text of a declaration. -/
def chars : List Char :=
  declaration.frontChars ++
    '(' :: (listText declaration.inner declaration.parameters ++ [')'])

/-! ## The name -/

theorem isSolid_nameChars : Text.IsSolid declaration.nameChars := by
  refine ⟨?_, ?_⟩
  · rw [nameChars]
    simp [declaration.name.isSolid.1]
  · intro c hc
    rcases List.mem_append.1 hc with hc | hc
    · obtain ⟨scope, -, hc⟩ := List.mem_flatMap.1 hc
      rcases List.mem_append.1 hc with hc | hc
      · exact scope.isUnbroken c hc
      · have hcolons : Text.IsUnbroken [':', ':'] := by decide
        exact hcolons c hc
    · exact declaration.name.isSolid.2 c hc

theorem not_mem_nameChars {c : Char} (hc : c ∈ ['(', ')']) : c ∉ declaration.nameChars := by
  obtain ⟨hsigil, hmark, hcolon⟩ :
      isSigil c = false ∧ c ∈ ['(', ')', ':'] ∧ c ∉ [':', ':'] := by
    simp only [List.mem_cons, List.not_mem_nil, or_false] at hc
    rcases hc with rfl | rfl <;> decide
  intro hmem
  rcases List.mem_append.1 hmem with hmem | hmem
  · obtain ⟨scope, -, hmem⟩ := List.mem_flatMap.1 hmem
    rcases List.mem_append.1 hmem with hmem | hmem
    · exact scope.isFree c hmem hc
    · exact hcolon hmem
  · exact declaration.name.not_mem_chars hsigil hmark hmem

/-- Behind the last double colon stand the sigils and the bare name. -/
theorem followsScopes_nameChars :
    FollowsScopes declaration.nameChars declaration.name.chars := by
  have hcolon : ':' ∉ declaration.name.chars :=
    declaration.name.not_mem_chars (by rfl) (by decide)
  rw [nameChars]
  rcases List.eq_nil_or_concat declaration.scopes with hnone | ⟨scopes, last, hscopes⟩
  · rw [hnone, List.flatMap_nil, List.nil_append]
    exact .plain _ fun hdouble => hcolon (hdouble.subset (by decide))
  · have hchars : declaration.scopes.flatMap Scope.chars ++ declaration.name.chars =
        scopes.flatMap Scope.chars ++ last.name ++ ':' :: ':' :: declaration.name.chars := by
      rw [hscopes, List.concat_eq_append]
      simp [Scope.chars]
    rw [hchars]
    refine .behind _ _ fun hdouble => ?_
    -- two colons do not fit where there is one
    have hcount : 2 ≤ (':' :: declaration.name.chars).count ':' :=
      hdouble.sublist.count_le ':'
    rw [List.count_cons_self, List.count_eq_zero.2 hcolon] at hcount
    omega

theorem isBarePart_nameChars :
    IsBarePart declaration.nameChars declaration.name.name.chars :=
  ⟨_, declaration.name.areSigils, declaration.followsScopes_nameChars, declaration.name.isBare⟩

theorem unqualify_nameChars :
    unqualify declaration.nameChars = declaration.name.name.chars :=
  unqualify_eq_iff.2 declaration.isBarePart_nameChars

/-! ## The line -/

theorem not_mem_frontChars {c : Char} (hc : c ∈ ['(', ')']) : c ∉ declaration.frontChars := by
  have hparens : Text.IsUnbroken ['(', ')'] := by decide
  have hblank := hparens c hc
  rw [frontChars, List.mem_append, List.mem_append, List.mem_append]
  rintro ((hmem | hmem | hmem) | hmem)
  · exact Text.not_mem_of_areBlanks declaration.leading.areBlanks hblank hmem
  · obtain ⟨spaced, -, hmem⟩ := List.mem_flatMap.1 hmem
    exact spaced.not_mem_chars hblank hc hmem
  · exact declaration.not_mem_nameChars hc hmem
  · exact Text.not_mem_of_areBlanks declaration.gap.areBlanks hblank hmem

/-- What stands in front of the name ends in a blank. -/
theorem isApart_front : ∀ c ∈ (declaration.leading.chars ++
    declaration.front.flatMap Spaced.chars).getLast?, Text.isBlank c = true := by
  intro c hc
  rcases List.eq_nil_or_concat declaration.front with hnone | ⟨front, last, hfront⟩
  · rw [hnone, List.flatMap_nil, List.append_nil] at hc
    exact declaration.leading.areBlanks c (List.mem_of_getLast? hc)
  · have hchars : declaration.leading.chars ++ declaration.front.flatMap Spaced.chars =
        declaration.leading.chars ++ front.flatMap Spaced.chars ++ last.token.chars ++
          last.blanks.chars := by
      rw [hfront, List.concat_eq_append]
      simp [Spaced.chars]
    rw [hchars, List.getLast?_append_of_ne_nil _ last.apart] at hc
    exact last.blanks.areBlanks c (List.mem_of_getLast? hc)

/-- The parts of a line that starts with a declaration. -/
def parts (rest : List Char) : Parts where
  front := declaration.leading.chars ++ declaration.front.flatMap Spaced.chars
  name := declaration.nameChars
  gap := declaration.gap.chars
  bare := declaration.name.name.chars
  isApart := declaration.isApart_front
  isSolid := declaration.isSolid_nameChars
  areBlanks := declaration.gap.areBlanks
  isBarePart := declaration.isBarePart_nameChars
  bare_ne_nil := declaration.name.name.isSolid.1
  isFree := by
    intro c hc hmark
    refine declaration.not_mem_frontChars hmark ?_
    rwa [frontChars, ← List.append_assoc]
  parameters := listText declaration.inner declaration.parameters
  isClosed := not_mem_listText declaration.inner declaration.parameters (by decide)
  rest := rest

theorem chars_parts (rest : List Char) :
    (declaration.parts rest).chars = declaration.chars ++ rest := by
  simp [Parts.chars, Named.chars, parts, chars, frontChars]

/-- Reading a line that starts with a declaration gives its name and the text
of its parameters. -/
theorem read_chars (rest : List Char) :
    read (String.ofList (declaration.chars ++ rest)) =
      .ok ⟨String.ofList declaration.nameChars,
        String.ofList (listText declaration.inner declaration.parameters)⟩ := by
  rw [read_parts (declaration.parts rest)
    (by rw [String.toList_ofList, declaration.chars_parts])]
  rfl

/-- Reading a line that starts with a declaration and binding its parameters
gives back the bare name of the function, and one variable for each parameter,
in order.  Only the list `void` declares nothing. -/
theorem read_declaration (rest : List Char) (table : Argument.Initializers) :
    ∃ signature, read (String.ofList (declaration.chars ++ rest)) = .ok signature ∧
      signature.name = String.ofList declaration.nameChars ∧
      signature.unqualifiedName = String.ofList declaration.name.name.chars ∧
      Argument.bind table signature.parameters =
        if isVoid declaration.parameters then []
        else declaration.parameters.mapIdx fun position parameter =>
          parameter.argument table position := by
  refine ⟨_, declaration.read_chars rest, rfl, ?_, ?_⟩
  · rw [unqualifiedName, String.toList_ofList, unqualify_nameChars]
  · exact bind_listText table declaration.inner declaration.parameters

/-- A declaration of a member function with a named parameter that has a
default value, a reference and an unnamed parameter. -/
def sample : Declaration where
  leading := ⟨['\t'], by decide⟩
  front := [⟨⟨"virtual".toList, by decide, by decide⟩, ⟨[' '], by decide⟩, by decide⟩,
    ⟨⟨"Job".toList, by decide, by decide⟩, ⟨[' ', ' '], by decide⟩, by decide⟩]
  scopes := [⟨"shop".toList, by decide, by decide⟩, ⟨"Line".toList, by decide, by decide⟩]
  name := ⟨['*'], ⟨"next".toList, by decide, by decide⟩, by decide, by decide⟩
  gap := ⟨[' '], by decide⟩
  inner := ⟨[], by decide⟩
  parameters :=
    [⟨⟨[], by decide⟩,
        .named ⟨⟨"int".toList, by decide, by decide⟩, ⟨[' '], by decide⟩, by decide⟩ []
          ⟨[], ⟨"count".toList, by decide, by decide⟩, by decide, by decide⟩,
        some ⟨⟨[' '], by decide⟩, " 3".toList, by decide⟩, ⟨[], by decide⟩⟩,
      ⟨⟨[' '], by decide⟩,
        .named ⟨⟨"const".toList, by decide, by decide⟩, ⟨[' '], by decide⟩, by decide⟩
          [⟨⟨"Part".toList, by decide, by decide⟩, ⟨['\t'], by decide⟩, by decide⟩]
          ⟨['&'], ⟨"part".toList, by decide, by decide⟩, by decide, by decide⟩,
        none, ⟨[' '], by decide⟩⟩,
      ⟨⟨[], by decide⟩, .unnamed ⟨"bool".toList, by decide, by decide⟩, none, ⟨[], by decide⟩⟩]

example : String.ofList sample.chars =
    "\tvirtual Job  shop::Line::*next (int count = 3, const Part\t&part ,bool)" := by
  decide

end Declaration

end TestSkeleton.Signature
