import TestSkeleton.Signature.Argument
import TestSkeleton.Proofs.Text.Words
import Mathlib.Data.List.Basic
import Mathlib.Data.List.TakeWhile

/-!
# Binding a written parameter list

A parameter list is written here from its parts: types, sigils, identifiers,
default values, and blanks wherever they may stand.  Binding the text gives
the parts back, without the default values and the blanks.

* `Token`, `Spaced` and `Marked` are the parts of which a declaration is
  written, and `Parameter` is one parameter with the blanks around it.
* `ofPiece?_padded` and `ofPieces_trim` say that blanks around a piece, and
  around the whole list, do not matter to `bind`.
* `bind_listText` is the result: one variable for each parameter, in order,
  unless the list is `void`.
-/

namespace TestSkeleton.Signature

/-! ## The parts of a declaration -/

/-- A run of blanks, which may be empty. -/
structure Blanks where
  chars : List Char
  areBlanks : Text.AreBlanks chars

/-- Whether no mark stands in some characters. -/
def IsFree (marks cs : List Char) : Prop :=
  ∀ c ∈ cs, c ∉ marks

instance (marks cs : List Char) : Decidable (IsFree marks cs) :=
  List.decidableBAll (fun c => c ∉ marks) cs

/-- Whether some characters are sigils, or there are none. -/
def AreSigils (cs : List Char) : Prop :=
  ∀ c ∈ cs, isSigil c = true

instance (cs : List Char) : Decidable (AreSigils cs) :=
  List.decidableBAll (fun c => isSigil c = true) cs

/-- Whether some characters start with no sigil. -/
def IsBare (cs : List Char) : Prop :=
  ∀ c ∈ cs.head?, isSigil c = false

instance (cs : List Char) : Decidable (IsBare cs) :=
  decidable_of_iff (cs.head?.all (fun c => !isSigil c) = true) (by cases cs <;> simp [IsBare])

/-- Characters that are read as one: no blanks, and none of the marks that
would end them. -/
structure Token (marks : List Char) where
  chars : List Char
  isSolid : Text.IsSolid chars
  isFree : IsFree marks chars

/-- A token and the blanks that keep it apart from the next one. -/
structure Spaced (marks : List Char) where
  token : Token marks
  blanks : Blanks
  apart : blanks.chars ≠ []

/-- The text of a token and its blanks. -/
def Spaced.chars {marks : List Char} (spaced : Spaced marks) : List Char :=
  spaced.token.chars ++ spaced.blanks.chars

/-- A name and the sigils that are glued to it.  The name itself starts with
none. -/
structure Marked (marks : List Char) where
  sigils : List Char
  name : Token marks
  areSigils : AreSigils sigils
  isBare : IsBare name.chars

/-- The text of a name and its sigils. -/
def Marked.chars {marks : List Char} (marked : Marked marks) : List Char :=
  marked.sigils ++ marked.name.chars

/-! ### Sigils in front of a name -/

theorem isBlank_of_isSigil {c : Char} (h : isSigil c = true) : Text.isBlank c = false := by
  simp only [isSigil, Bool.or_eq_true, beq_iff_eq] at h
  rcases h with rfl | rfl <;> rfl

theorem areSigils_takeWhile (cs : List Char) : AreSigils (cs.takeWhile isSigil) :=
  fun c hc => List.all_eq_true.1 List.all_takeWhile c hc

theorem isBare_dropWhile (cs : List Char) : IsBare (cs.dropWhile isSigil) := by
  intro c hc
  have hhead := List.head?_dropWhile_not isSigil cs
  rw [Option.mem_def.1 hc] at hhead
  exact hhead

section

variable {sigils name : List Char} (hsigils : AreSigils sigils) (hname : IsBare name)

include hsigils hname

/-- A text is cut into sigils and a bare name in one way. -/
theorem takeWhile_isSigil : (sigils ++ name).takeWhile isSigil = sigils := by
  rw [List.takeWhile_append_of_pos hsigils]
  cases name with
  | nil => simp
  | cons c cs => rw [List.takeWhile_cons_of_neg (by simp [hname c rfl]), List.append_nil]

theorem dropWhile_isSigil : (sigils ++ name).dropWhile isSigil = name := by
  rw [List.dropWhile_append_of_pos hsigils]
  cases name with
  | nil => rfl
  | cons c cs => rw [List.dropWhile_cons_of_neg (by simp [hname c rfl])]

end

namespace Marked

variable {marks : List Char} (marked : Marked marks)

theorem isSolid : Text.IsSolid marked.chars := by
  refine ⟨?_, ?_⟩
  · rw [chars]
    simp [marked.name.isSolid.1]
  · intro c hc
    rcases List.mem_append.1 hc with hc | hc
    · exact isBlank_of_isSigil (marked.areSigils c hc)
    · exact marked.name.isSolid.2 c hc

end Marked

/-- Tokens that are kept apart are the words of their text. -/
theorem words_spaced {marks : List Char} (tokens : List (Spaced marks)) {last : List Char}
    (h : Text.IsSolid last) :
    Text.words (tokens.flatMap Spaced.chars ++ last) =
      tokens.map (fun spaced => spaced.token.chars) ++ [last] := by
  induction tokens with
  | nil => exact Text.words_of_isSolid h
  | cons spaced tokens ih =>
    rw [List.flatMap_cons, Spaced.chars, List.append_assoc, List.append_assoc,
      Text.words_append_blanks spaced.blanks.areBlanks spaced.apart, ih,
      Text.words_of_isSolid spaced.token.isSolid]
    rfl

/-! ## Parameters -/

/-- The characters that mean something in a parameter list. -/
def parameterMarks : List Char :=
  [',', '=', '(', ')']

/-- What a parameter declares. -/
inductive Declarator where
  /-- A type of some tokens, and an identifier. -/
  | named (first : Spaced parameterMarks) (others : List (Spaced parameterMarks))
      (identifier : Marked parameterMarks)
  /-- A type of one token. -/
  | unnamed (type : Token parameterMarks)

/-- A default value, with its `=` and the blanks in front of it. -/
structure Default where
  blanks : Blanks
  value : List Char
  isFree : IsFree [',', '(', ')'] value

/-- A parameter and the blanks around it. -/
structure Parameter where
  before : Blanks
  declarator : Declarator
  default? : Option Default
  after : Blanks

/-- The text of a declarator. -/
def Declarator.chars : Declarator → List Char
  | .named first others identifier => (first :: others).flatMap Spaced.chars ++ identifier.chars
  | .unnamed type => type.chars

/-- The type that a declarator gives to its variable: its tokens with single
blanks, and the sigils of the identifier. -/
def Declarator.typeName : Declarator → List Char
  | .named first others identifier =>
    [' '].intercalate ((first :: others).map fun spaced => spaced.token.chars) ++ identifier.sigils
  | .unnamed type => type.chars

/-- The name of the variable, which is numbered if the parameter has none. -/
def Declarator.identifier (position : Nat) : Declarator → String
  | .named _ _ identifier => String.ofList identifier.name.chars
  | .unnamed _ => "arg" ++ toString position

/-- The text of a default value. -/
def Default.chars (default : Default) : List Char :=
  default.blanks.chars ++ '=' :: default.value

/-- The text of a parameter. -/
def Parameter.chars (parameter : Parameter) : List Char :=
  parameter.before.chars ++
    (parameter.declarator.chars ++ (parameter.default?.map Default.chars).getD []) ++
    parameter.after.chars

/-- The variable for the parameter at a position. -/
def Parameter.argument (table : Argument.Initializers) (position : Nat) (parameter : Parameter) :
    Argument where
  typeName := String.ofList parameter.declarator.typeName
  identifier := parameter.declarator.identifier position
  initializer := table.get? (String.ofList parameter.declarator.typeName)

/-- The text of a parameter list, without the parentheses. -/
def listText (inner : Blanks) (parameters : List Parameter) : List Char :=
  inner.chars ++ [','].intercalate (parameters.map Parameter.chars)

/-- Whether a list is the one type `void`. -/
def isVoid : List Parameter → Bool
  | [⟨_, .unnamed type, none, _⟩] => type.chars == "void".toList
  | _ => false

variable {parameters : List Parameter}

/-! ## The characters of a parameter -/

theorem Marked.not_mem_chars {marks : List Char} (marked : Marked marks) {c : Char}
    (hc : isSigil c = false) (hmark : c ∈ marks) : c ∉ marked.chars := by
  intro hmem
  rcases List.mem_append.1 hmem with hmem | hmem
  · rw [marked.areSigils c hmem] at hc
    cases hc
  · exact marked.name.isFree c hmem hmark

theorem Spaced.not_mem_chars {marks : List Char} (spaced : Spaced marks) {c : Char}
    (hc : Text.isBlank c = false) (hmark : c ∈ marks) : c ∉ spaced.chars := by
  intro hmem
  rcases List.mem_append.1 hmem with hmem | hmem
  · exact spaced.token.isFree c hmem hmark
  · exact Text.not_mem_of_areBlanks spaced.blanks.areBlanks hc hmem

theorem Declarator.not_mem_chars (declarator : Declarator) {c : Char} (hmark : c ∈ parameterMarks) :
    c ∉ declarator.chars := by
  obtain ⟨hblank, hsigil⟩ : Text.isBlank c = false ∧ isSigil c = false := by
    simp only [parameterMarks, List.mem_cons, List.not_mem_nil, or_false] at hmark
    rcases hmark with rfl | rfl | rfl | rfl <;> decide
  cases declarator with
  | named first others identifier =>
    intro hmem
    rcases List.mem_append.1 hmem with hmem | hmem
    · obtain ⟨spaced, -, hmem⟩ := List.mem_flatMap.1 hmem
      exact spaced.not_mem_chars hblank hmark hmem
    · exact identifier.not_mem_chars hsigil hmark hmem
  | unnamed type => exact fun hmem => type.isFree c hmem hmark

theorem Default.not_mem_chars (default : Default) {c : Char} (hmark : c ∈ [',', '(', ')']) :
    c ∉ default.chars := by
  obtain ⟨hblank, hequals⟩ : Text.isBlank c = false ∧ c ≠ '=' := by
    simp only [List.mem_cons, List.not_mem_nil, or_false] at hmark
    rcases hmark with rfl | rfl | rfl <;> decide
  intro hmem
  rcases List.mem_append.1 hmem with hmem | hmem
  · exact Text.not_mem_of_areBlanks default.blanks.areBlanks hblank hmem
  · rcases List.mem_cons.1 hmem with rfl | hmem
    · exact hequals rfl
    · exact default.isFree c hmem hmark

/-- No comma and no parenthesis stands in a parameter. -/
theorem Parameter.not_mem_chars (parameter : Parameter) {c : Char} (hmark : c ∈ [',', '(', ')']) :
    c ∉ parameter.chars := by
  obtain ⟨hblank, hparameter⟩ : Text.isBlank c = false ∧ c ∈ parameterMarks := by
    simp only [List.mem_cons, List.not_mem_nil, or_false] at hmark
    rcases hmark with rfl | rfl | rfl <;> decide
  rw [chars, List.mem_append, List.mem_append, List.mem_append]
  rintro ((hmem | hmem | hmem) | hmem)
  · exact Text.not_mem_of_areBlanks parameter.before.areBlanks hblank hmem
  · exact parameter.declarator.not_mem_chars hparameter hmem
  · cases hdefault : parameter.default? with
    | none =>
      rw [hdefault] at hmem
      cases hmem
    | some default =>
      rw [hdefault] at hmem
      exact default.not_mem_chars hmark hmem
  · exact Text.not_mem_of_areBlanks parameter.after.areBlanks hblank hmem

/-- A parenthesis that stands in a list stands in one of its parameters. -/
theorem not_mem_listText (inner : Blanks) (parameters : List Parameter) {c : Char}
    (hmark : c ∈ ['(', ')']) : c ∉ listText inner parameters := by
  obtain ⟨hblank, hparameter, hcomma⟩ :
      Text.isBlank c = false ∧ c ∈ [',', '(', ')'] ∧ c ≠ ',' := by
    simp only [List.mem_cons, List.not_mem_nil, or_false] at hmark
    rcases hmark with rfl | rfl <;> decide
  rw [listText, List.mem_append]
  rintro (hmem | hmem)
  · exact Text.not_mem_of_areBlanks inner.areBlanks hblank hmem
  · rcases Text.mem_intercalate hmem with hmem | ⟨piece, hpiece, hmem⟩
    · exact hcomma (List.mem_singleton.1 hmem)
    · obtain ⟨parameter, -, rfl⟩ := List.mem_map.1 hpiece
      exact parameter.not_mem_chars hparameter hmem

/-! ## One piece -/

theorem Declarator.head?_chars (declarator : Declarator) :
    ∀ c ∈ declarator.chars.head?, Text.isBlank c = false := by
  intro c hc
  cases declarator with
  | named first others identifier =>
    have hne := first.token.isSolid.1
    rw [chars, List.flatMap_cons, Spaced.chars, List.append_assoc, List.append_assoc,
      List.head?_append_of_ne_nil _ hne] at hc
    exact first.token.isSolid.2 c (List.mem_of_mem_head? hc)
  | unnamed type => exact type.isSolid.2 c (List.mem_of_mem_head? hc)

theorem Declarator.getLast?_chars (declarator : Declarator) :
    ∀ c ∈ declarator.chars.getLast?, Text.isBlank c = false := by
  intro c hc
  cases declarator with
  | named first others identifier =>
    have hne := identifier.isSolid.1
    rw [chars, List.getLast?_append_of_ne_nil _ hne] at hc
    exact identifier.isSolid.2 c (List.mem_of_mem_getLast? hc)
  | unnamed type => exact type.isSolid.2 c (List.mem_of_mem_getLast? hc)

theorem Declarator.chars_ne_nil (declarator : Declarator) : declarator.chars ≠ [] := by
  cases declarator with
  | named first others identifier =>
    have hne := identifier.isSolid.1
    rw [chars]
    simp [hne]
  | unnamed type => exact type.isSolid.1

theorem Declarator.trim_chars (declarator : Declarator) :
    Text.trim declarator.chars = declarator.chars :=
  Text.trim_of_ends declarator.head?_chars declarator.getLast?_chars

/-- The last of several words names the variable, and one word is a type. -/
theorem typeAndIdentifier_chars (declarator : Declarator) :
    Argument.typeAndIdentifier declarator.chars =
      (declarator.typeName, match declarator with
        | .named _ _ identifier => identifier.name.chars
        | .unnamed _ => []) := by
  cases declarator with
  | named first others identifier =>
    have hwords := words_spaced (first :: others) identifier.isSolid
    rw [Declarator.chars, Argument.typeAndIdentifier_concat (by simp) hwords]
    rw [Marked.chars, takeWhile_isSigil identifier.areSigils identifier.isBare,
      dropWhile_isSigil identifier.areSigils identifier.isBare]
    simp only [Declarator.typeName, List.map_cons]
  | unnamed type =>
    exact Argument.typeAndIdentifier_singleton (Text.words_of_isSolid type.isSolid)

/-- Blanks around a piece do not matter. -/
theorem ofPiece?_padded {before after : List Char} (hbefore : Text.AreBlanks before)
    (hafter : Text.AreBlanks after) (table : Argument.Initializers) (position : Nat)
    (piece : List Char) :
    Argument.ofPiece? table position (before ++ piece ++ after) =
      Argument.ofPiece? table position piece := by
  have hkeeps : ∀ {blanks : List Char}, Text.AreBlanks blanks →
      ∀ c ∈ blanks, (fun c => c != '=') c = true := by
    intro blanks hblanks c hc
    exact bne_iff_ne.2 fun hequals => Text.not_mem_of_areBlanks hblanks (by rfl) (hequals ▸ hc)
  have hcut : Text.trim ((before ++ piece ++ after).takeWhile (fun c => c != '=')) =
      Text.trim (piece.takeWhile (fun c => c != '=')) := by
    rw [List.append_assoc, List.takeWhile_append_of_pos (hkeeps hbefore), List.takeWhile_append]
    split
    · -- no `=` stands in the piece
      rename_i hall
      have hpiece := (List.takeWhile_prefix fun c => c != '=').eq_of_length hall
      rw [List.takeWhile_eq_self_iff.2 (hkeeps hafter), hpiece, ← List.append_assoc,
        Text.trim_padded hbefore hafter]
    · have hpadded := Text.trim_padded hbefore Text.areBlanks_nil
        (piece.takeWhile fun c => c != '=')
      rwa [List.append_nil] at hpadded
  rw [Argument.ofPiece?, Argument.ofPiece?, hcut]

/-- What stands in front of the `=` is the declarator. -/
theorem trim_takeWhile_chars (declarator : Declarator) (default? : Option Default) :
    Text.trim ((declarator.chars ++ (default?.map Default.chars).getD []).takeWhile
      (fun c => c != '=')) = declarator.chars := by
  have hfree : ∀ c ∈ declarator.chars, (fun c => c != '=') c = true := by
    intro c hc
    refine bne_iff_ne.2 ?_
    rintro rfl
    exact declarator.not_mem_chars (by decide) hc
  rw [List.takeWhile_append_of_pos hfree]
  cases default? with
  | none =>
    rw [Option.map_none, Option.getD_none, List.takeWhile_nil, List.append_nil,
      declarator.trim_chars]
  | some default =>
    have hblanks : ∀ c ∈ default.blanks.chars, (fun c => c != '=') c = true := by
      intro c hc
      refine bne_iff_ne.2 ?_
      rintro rfl
      exact Text.not_mem_of_areBlanks default.blanks.areBlanks (by rfl) hc
    have hpadded := Text.trim_padded Text.areBlanks_nil default.blanks.areBlanks declarator.chars
    rw [Option.map_some, Option.getD_some, Default.chars, List.takeWhile_append_of_pos hblanks,
      List.takeWhile_cons_of_neg (by simp), List.append_nil]
    rwa [List.nil_append, declarator.trim_chars] at hpadded

/-- A parameter declares its variable. -/
theorem ofPiece?_chars (table : Argument.Initializers) (position : Nat) (parameter : Parameter) :
    Argument.ofPiece? table position parameter.chars =
      some (parameter.argument table position) := by
  rw [Parameter.chars, ofPiece?_padded parameter.before.areBlanks parameter.after.areBlanks,
    Argument.ofPiece?, trim_takeWhile_chars, if_neg]
  · rw [typeAndIdentifier_chars]
    cases hdeclarator : parameter.declarator with
    | named first others identifier =>
      have hne := identifier.name.isSolid.1
      simp [Parameter.argument, hdeclarator, Declarator.identifier, hne]
    | unnamed type =>
      simp [Parameter.argument, hdeclarator, Declarator.identifier]
  · simpa using parameter.declarator.chars_ne_nil

/-! ## The list -/

theorem ofPieces_chars (table : Argument.Initializers) (position : Nat)
    (parameters : List Parameter) :
    Argument.ofPieces table position (parameters.map Parameter.chars) =
      parameters.mapIdx fun i parameter => parameter.argument table (position + i) := by
  induction parameters generalizing position with
  | nil => rfl
  | cons parameter rest ih =>
    rw [List.map_cons, Argument.ofPieces, ofPiece?_chars, List.mapIdx_cons]
    simp only [ih, Nat.add_assoc, Nat.add_comm 1, Nat.add_zero]

theorem ofPieces_append_last (front : List (List Char)) {piece piece' : List Char}
    {table : Argument.Initializers}
    (h : ∀ position, Argument.ofPiece? table position piece =
      Argument.ofPiece? table position piece') (position : Nat) :
    Argument.ofPieces table position (front ++ [piece]) =
      Argument.ofPieces table position (front ++ [piece']) := by
  induction front generalizing position with
  | nil =>
    simp only [List.nil_append, Argument.ofPieces, h position]
  | cons first front ih =>
    rw [List.cons_append, List.cons_append, Argument.ofPieces, Argument.ofPieces, ih]

/-- Blanks around a list do not matter. -/
theorem ofPieces_fields_padded {before after : List Char} (hbefore : Text.AreBlanks before)
    (hafter : Text.AreBlanks after) (table : Argument.Initializers) (cs : List Char) :
    Argument.ofPieces table 0 (Text.fields (fun c => c == ',') (before ++ cs ++ after)) =
      Argument.ofPieces table 0 (Text.fields (fun c => c == ',') cs) := by
  have hcomma : ∀ {blanks : List Char}, Text.AreBlanks blanks →
      ∀ c ∈ blanks, (fun c => c == ',') c = false := by
    intro blanks hblanks c hc
    exact beq_eq_false_iff_ne.2 fun hcomma =>
      Text.not_mem_of_areBlanks hblanks (by rfl) (hcomma ▸ hc)
  obtain ⟨front, last, hfields, hlonger⟩ :=
    Text.exists_fields_append (p := fun c => c == ',') (hcomma hafter) (before ++ cs)
  have hlast : ∀ position, Argument.ofPiece? table position (last ++ after) =
      Argument.ofPiece? table position last :=
    fun position => ofPiece?_padded Text.areBlanks_nil hafter table position last
  have hend := ofPieces_append_last front hlast 0
  obtain ⟨first, rest, hcs, hpadded⟩ :=
    Text.exists_fields_prepend (p := fun c => c == ',') (hcomma hbefore) cs
  have hpiece := ofPiece?_padded hbefore Text.areBlanks_nil table 0 first
  rw [List.append_nil] at hpiece
  rw [hlonger, hend, ← hfields, hpadded, hcs, Argument.ofPieces, Argument.ofPieces, hpiece]

theorem ofPieces_trim (table : Argument.Initializers) (cs : List Char) :
    Argument.ofPieces table 0 (Text.fields (fun c => c == ',') (Text.trim cs)) =
      Argument.ofPieces table 0 (Text.fields (fun c => c == ',') cs) := by
  obtain ⟨before, after, hbefore, hafter, hcs⟩ := Text.exists_trim cs
  have hpadded := ofPieces_fields_padded hbefore hafter table (Text.trim cs)
  rw [← hcs] at hpadded
  exact hpadded.symm

theorem trim_chars (parameter : Parameter) :
    Text.trim parameter.chars =
      Text.trim (parameter.declarator.chars ++ (parameter.default?.map Default.chars).getD []) :=
  Text.trim_padded parameter.before.areBlanks parameter.after.areBlanks _

theorem trim_listText_nil (inner : Blanks) : Text.trim (listText inner []) = [] := by
  have hpadded := Text.trim_padded inner.areBlanks Text.areBlanks_nil []
  have htext : listText inner [] = inner.chars ++ [] ++ [] := by simp [listText]
  rw [htext, hpadded]
  rfl

/-- A list is the one word `void` only if that is its one type. -/
theorem trim_listText_eq_void {inner : Blanks} :
    Text.trim (listText inner parameters) = "void".toList ↔ isVoid parameters = true := by
  have hmark : ∀ {c : Char}, c ∈ [',', '='] → c ∈ listText inner parameters →
      Text.trim (listText inner parameters) ≠ "void".toList := by
    intro c hc hmem hvoid
    obtain ⟨hblank, hnot⟩ : Text.isBlank c = false ∧ c ∉ "void".toList := by
      simp only [List.mem_cons, List.not_mem_nil, or_false] at hc
      rcases hc with rfl | rfl <;> decide
    exact hnot (hvoid ▸ Text.mem_trim hmem hblank)
  rcases parameters with _ | ⟨⟨before, declarator, default?, after⟩, _ | ⟨next, rest⟩⟩
  · rw [trim_listText_nil]
    decide
  · cases default? with
    | some default =>
      refine iff_of_false (hmark (c := '=') (by simp) ?_) (by simp [isVoid])
      simp [listText, Parameter.chars, Default.chars]
    | none =>
      have hpadded := Text.trim_padded inner.areBlanks Text.areBlanks_nil
        (Parameter.chars ⟨before, declarator, none, after⟩)
      rw [List.append_nil, trim_chars, Option.map_none, Option.getD_none, List.append_nil,
        declarator.trim_chars] at hpadded
      rw [listText, List.map_cons, List.map_nil, List.intercalate_singleton, hpadded]
      cases declarator with
      | unnamed type => simp [isVoid, Declarator.chars]
      | named first others identifier =>
        refine iff_of_false ?_ (by simp [isVoid])
        intro hvoid
        have hwords := congrArg (fun cs => (Text.words cs).length) hvoid
        have hone : (Text.words "void".toList).length = 1 := by decide
        rw [Declarator.chars, words_spaced (first :: others) identifier.isSolid, hone] at hwords
        simp at hwords
  · refine iff_of_false (hmark (c := ',') (by simp) ?_) (by simp [isVoid])
    simp [listText, List.intercalate_cons_cons]

/-- Binding a list that was written gives one variable for each parameter, in
order.  The list `void` declares nothing. -/
theorem bind_listText (table : Argument.Initializers) (inner : Blanks)
    (parameters : List Parameter) :
    Argument.bind table (String.ofList (listText inner parameters)) =
      if isVoid parameters then []
      else parameters.mapIdx fun position parameter => parameter.argument table position := by
  rw [Argument.bind, String.toList_ofList]
  by_cases hvoid : isVoid parameters = true
  · rw [trim_listText_eq_void.2 hvoid, if_pos hvoid]
    rfl
  have hnot : Text.trim (listText inner parameters) ≠ "void".toList :=
    mt trim_listText_eq_void.1 hvoid
  rw [if_neg hvoid]
  cases parameters with
  | nil =>
    rw [trim_listText_nil]
    rfl
  | cons parameter rest =>
    have hne : Text.trim (listText inner (parameter :: rest)) ≠ [] := by
      obtain ⟨c, cs, hchars⟩ := List.exists_cons_of_ne_nil parameter.declarator.chars_ne_nil
      have hc := parameter.declarator.head?_chars c (by rw [hchars]; rfl)
      have hmem : c ∈ listText inner (parameter :: rest) := by
        cases rest <;> simp [listText, Parameter.chars, hchars, List.intercalate_cons_cons]
      exact List.ne_nil_of_mem (Text.mem_trim hmem hc)
    have hcomma : ∀ piece ∈ (parameter :: rest).map Parameter.chars,
        ∀ c ∈ piece, (fun c => c == ',') c = false := by
      intro piece hpiece c hc
      obtain ⟨other, -, rfl⟩ := List.mem_map.1 hpiece
      refine beq_eq_false_iff_ne.2 ?_
      rintro rfl
      exact other.not_mem_chars (by decide) hc
    have hlist := ofPieces_fields_padded inner.areBlanks Text.areBlanks_nil table
      ([','].intercalate ((parameter :: rest).map Parameter.chars))
    rw [List.append_nil, Text.fields_intercalate (by rfl) (by simp) hcomma, ofPieces_chars] at hlist
    have hlisted : ¬ ((Text.trim (listText inner (parameter :: rest))).isEmpty ||
        Text.trim (listText inner (parameter :: rest)) == ['v', 'o', 'i', 'd']) = true := by
      rw [Bool.or_eq_true, List.isEmpty_iff, beq_iff_eq, not_or]
      exact ⟨hne, hnot⟩
    rw [if_neg hlisted, ofPieces_trim, listText, hlist]
    simp only [Nat.zero_add]

end TestSkeleton.Signature
