import TestSkeleton.Proofs.Signature.Binding

/-!
# Variables in normal form

Binding takes any text for a parameter list, and whatever the text is, the
variables that it gives have one form.

* `Declares` is what the words of a piece declare, one constructor for each
  way to name a variable.  `declares_ofPiece?` says that a piece declares in
  one of these ways, so no later proof takes a piece apart.
* `IsNormal` is the form of a variable: a type of words with one space between
  them, a bare identifier, and the first value that the table has for the
  type.
* `parameterList` writes variables as a parameter list, and
  `bind_parameterList` is the way back for all variables in normal form.
* `bind_normalizes` is the result: binding gives variables in normal form,
  and binding their parameter list gives them again.
-/

namespace TestSkeleton.Argument

open Signature (AreSigils IsBare IsFree areSigils_takeWhile isBare_dropWhile)

variable {table : Initializers} {position : Nat} {piece : List Char} {argument : Argument}

/-! ## One piece -/

/-- The words of a piece that count: those in front of its default value. -/
def declaredWords (piece : List Char) : List (List Char) :=
  Text.words (piece.takeWhile (fun c => c != '='))

theorem isSolid_of_mem_declaredWords {word : List Char} (h : word ∈ declaredWords piece) :
    Text.IsSolid word :=
  Text.isSolid_of_mem_words h

/-- The words come from the piece, and no equals sign stands in them. -/
theorem of_mem_declaredWords {word : List Char} (h : word ∈ declaredWords piece) {c : Char}
    (hc : c ∈ word) : c ∈ piece ∧ c ≠ '=' := by
  have hmem := Text.mem_of_mem_words h hc
  refine ⟨List.takeWhile_subset _ hmem, ?_⟩
  simpa using List.all_eq_true.1 List.all_takeWhile c hmem

/-- The name of a variable that has none in the text. -/
def positionalName (position : Nat) : String :=
  "arg" ++ toString position

/-- The variable with a type and an identifier. -/
def ofType (table : Initializers) (typeName : List Char) (identifier : String) : Argument where
  typeName := String.ofList typeName
  identifier := identifier
  initializer := table.get? (String.ofList typeName)

/-- What the words of the piece at a position declare. -/
inductive Declares (table : Initializers) (position : Nat) :
    List (List Char) → Option Argument → Prop where
  | nothing : Declares table position [] none
  /-- One word is a type. -/
  | unnamed (word : List Char) :
    Declares table position [word] (some (ofType table word (positionalName position)))
  /-- The last of several words has nothing but sigils. -/
  | detached (front : List (List Char)) (sigils : List Char) (apart : front ≠ [])
      (areSigils : AreSigils sigils) :
    Declares table position (front ++ [sigils])
      (some (ofType table ([' '].intercalate front ++ sigils) (positionalName position)))
  /-- The last of several words is an identifier behind its sigils. -/
  | named (front : List (List Char)) (sigils name : List Char) (apart : front ≠ [])
      (areSigils : AreSigils sigils) (isName : name ≠ []) (isBare : IsBare name) :
    Declares table position (front ++ [sigils ++ name])
      (some (ofType table ([' '].intercalate front ++ sigils) (String.ofList name)))

/-- What is left of the last word without its sigils names the variable. -/
theorem declares_concat (table : Initializers) (position : Nat) {front : List (List Char)}
    {sigils name : List Char} (hfront : front ≠ []) (hsigils : AreSigils sigils)
    (hname : IsBare name) :
    Declares table position (front ++ [sigils ++ name])
      (some (ofType table ([' '].intercalate front ++ sigils)
        (if name.isEmpty then positionalName position else String.ofList name))) := by
  cases name with
  | nil =>
    rw [List.append_nil]
    exact .detached front sigils hfront hsigils
  | cons c rest => exact .named front sigils (c :: rest) hfront hsigils (by simp) hname

/-- Every piece declares in one of the ways. -/
theorem declares_ofPiece? (table : Initializers) (position : Nat) (piece : List Char) :
    Declares table position (declaredWords piece) (ofPiece? table position piece) := by
  rw [ofPiece?, declaredWords]
  generalize piece.takeWhile (fun c => c != '=') = text
  rcases List.eq_nil_or_concat (Text.words text) with hnone | ⟨front, last, hwords⟩
  · have htrim : Text.trim text = [] := by
      have hpadded := Text.trim_padded (Text.words_eq_nil_iff.1 hnone) Text.areBlanks_nil []
      rwa [List.append_nil, List.append_nil] at hpadded
    rw [hnone, htrim]
    exact .nothing
  · rw [List.concat_eq_append] at hwords
    have htrimmed : Text.words (Text.trim text) = front ++ [last] := by
      rw [Text.words_trim, hwords]
    have hne : (Text.trim text).isEmpty = false := by
      rw [List.isEmpty_eq_false_iff]
      intro htrim
      rw [htrim, Text.words_nil] at htrimmed
      exact absurd htrimmed.symm (List.append_ne_nil_of_right_ne_nil _ (by simp))
    rw [hwords]
    simp only [hne, Bool.false_eq_true, if_false]
    by_cases hfront : front = []
    · subst hfront
      rw [typeAndIdentifier_singleton htrimmed, Text.trim_of_words_singleton hwords]
      exact .unnamed last
    · rw [typeAndIdentifier_concat hfront htrimmed]
      have hdeclares := declares_concat table position hfront (areSigils_takeWhile last)
        (isBare_dropWhile last)
      rwa [List.takeWhile_append_dropWhile] at hdeclares

/-- What holds of the characters of the words, of the space between two words
and of the characters of positional names holds of type and identifier. -/
theorem Declares.forall_mem {words : List (List Char)}
    (h : Declares table position words (some argument)) {p : Char → Prop}
    (hwords : ∀ word ∈ words, ∀ c ∈ word, p c) (hspace : p ' ')
    (hposition : ∀ c ∈ (positionalName position).toList, p c) :
    (∀ c ∈ argument.typeName.toList, p c) ∧ ∀ c ∈ argument.identifier.toList, p c := by
  have hjoined : ∀ front : List (List Char), (∀ word ∈ front, ∀ c ∈ word, p c) →
      ∀ c ∈ [' '].intercalate front, p c := by
    intro front hfront c hc
    rcases Text.mem_intercalate hc with hc | ⟨word, hword, hc⟩
    · rw [List.mem_singleton.1 hc]
      exact hspace
    · exact hfront word hword c hc
  cases h with
  | unnamed word =>
    exact ⟨by simpa [ofType] using hwords word List.mem_cons_self, hposition⟩
  | detached front sigils =>
    have hfront := hjoined front fun word hword => hwords word (List.mem_append_left _ hword)
    have hlast := hwords sigils (by simp)
    refine ⟨?_, hposition⟩
    simp only [ofType, String.toList_ofList, List.mem_append]
    exact fun c hc => hc.elim (hfront c) (hlast c)
  | named front sigils name =>
    have hfront := hjoined front fun word hword => hwords word (List.mem_append_left _ hword)
    have hlast := hwords (sigils ++ name) (by simp)
    simp only [ofType, String.toList_ofList, List.mem_append]
    exact ⟨fun c hc => hc.elim (hfront c) fun hc => hlast c (List.mem_append_left _ hc),
      fun c hc => hlast c (List.mem_append_right _ hc)⟩

/-! ## The form of a variable -/

/-- Whether a text is some words with one space between two of them. -/
def IsSpacedOnce (cs : List Char) : Prop :=
  cs ≠ [] ∧ [' '].intercalate (Text.words cs) = cs

instance (cs : List Char) : Decidable (IsSpacedOnce cs) :=
  inferInstanceAs (Decidable (cs ≠ [] ∧ [' '].intercalate (Text.words cs) = cs))

theorem isSpacedOnce_intercalate {words : List (List Char)} (hne : words ≠ [])
    (h : ∀ word ∈ words, Text.IsSolid word) : IsSpacedOnce ([' '].intercalate words) := by
  have hwords := Text.words_intercalate h
  refine ⟨?_, by rw [hwords]⟩
  intro hnil
  rw [hnil, Text.words_nil] at hwords
  exact hne hwords.symm

/-- The sigils of an identifier belong to the last word of its type. -/
theorem isSpacedOnce_append_sigils {words : List (List Char)} {sigils : List Char}
    (hne : words ≠ []) (h : ∀ word ∈ words, Text.IsSolid word) (hsigils : AreSigils sigils) :
    IsSpacedOnce ([' '].intercalate words ++ sigils) := by
  obtain ⟨front, last, rfl⟩ := (List.eq_nil_or_concat' words).resolve_left hne
  rw [Text.intercalate_append_last]
  refine isSpacedOnce_intercalate (by simp) fun word hword => ?_
  rcases List.mem_append.1 hword with hword | hword
  · exact h word (List.mem_append_left _ hword)
  · obtain ⟨hlast, hunbroken⟩ := h last (by simp)
    rw [List.mem_singleton.1 hword]
    refine ⟨by simp [hlast], fun c hc => ?_⟩
    rcases List.mem_append.1 hc with hc | hc
    · exact hunbroken c hc
    · exact Signature.isBlank_of_isSigil (hsigils c hc)

/-- A positional name has letters and digits only. -/
theorem mem_positionalName {position : Nat} {c : Char}
    (h : c ∈ (positionalName position).toList) : c ∈ ['a', 'r', 'g'] ∨ c.isDigit = true := by
  rw [positionalName, String.toList_append, List.mem_append] at h
  exact h.imp_right Text.isDigit_of_mem_toString

theorem isSolid_positionalName (position : Nat) :
    Text.IsSolid (positionalName position).toList := by
  refine ⟨by simp [positionalName], fun c hc => ?_⟩
  have hletters : Text.IsUnbroken ['a', 'r', 'g'] := by decide
  exact (mem_positionalName hc).elim (hletters c) Text.isBlank_of_isDigit

theorem isFree_positionalName (position : Nat) :
    IsFree [',', '='] (positionalName position).toList := by
  have hletters : IsFree [',', '='] ['a', 'r', 'g'] := by decide
  intro c hc hmark
  rcases mem_positionalName hc with hc | hc
  · exact hletters c hc hmark
  · simp only [List.mem_cons, List.not_mem_nil, or_false] at hmark
    rcases hmark with rfl | rfl <;> cases hc

theorem isBare_positionalName (position : Nat) : IsBare (positionalName position).toList := by
  intro c hc
  have hhead : (positionalName position).toList.head? = some 'a' := by simp [positionalName]
  rw [hhead] at hc
  cases hc
  rfl

/-- The form of the variables that a table of first values goes with. -/
structure IsNormal (table : Initializers) (argument : Argument) : Prop where
  typeName : IsSpacedOnce argument.typeName.toList
  typeName_isFree : IsFree [',', '='] argument.typeName.toList
  identifier : Text.IsSolid argument.identifier.toList
  identifier_isFree : IsFree [',', '='] argument.identifier.toList
  identifier_isBare : IsBare argument.identifier.toList
  initializer : argument.initializer = table.get? argument.typeName

/-- What words declare is in normal form. -/
theorem Declares.isNormal {words : List (List Char)}
    (h : Declares table position words (some argument))
    (hwords : ∀ word ∈ words, Text.IsSolid word ∧ IsFree [',', '='] word) :
    IsNormal table argument := by
  obtain ⟨htype, hidentifier⟩ := h.forall_mem (p := fun c => c ∉ [',', '='])
    (fun word hword => (hwords word hword).2) (by decide) (isFree_positionalName position)
  cases h with
  | unnamed word =>
    refine ⟨?_, htype, isSolid_positionalName position, hidentifier,
      isBare_positionalName position, rfl⟩
    have hspaced : IsSpacedOnce ([' '].intercalate [word]) :=
      isSpacedOnce_intercalate (by simp) fun word hword => (hwords word hword).1
    rw [List.intercalate_singleton] at hspaced
    simpa [ofType] using hspaced
  | detached front sigils apart areSigils =>
    refine ⟨?_, htype, isSolid_positionalName position, hidentifier,
      isBare_positionalName position, rfl⟩
    have hspaced := isSpacedOnce_append_sigils apart
      (fun word hword => (hwords word (List.mem_append_left _ hword)).1) areSigils
    simpa [ofType] using hspaced
  | named front sigils name apart areSigils isName isBare =>
    have hspaced := isSpacedOnce_append_sigils apart
      (fun word hword => (hwords word (List.mem_append_left _ hword)).1) areSigils
    have hlast := (hwords (sigils ++ name) (by simp)).1.2
    have hname : Text.IsSolid name :=
      ⟨isName, fun c hc => hlast c (List.mem_append_right _ hc)⟩
    refine ⟨by simpa [ofType] using hspaced, htype, ?_, hidentifier, ?_, rfl⟩
    · simpa [ofType] using hname
    · simpa [ofType] using isBare

/-- A variable of a piece is in normal form. -/
theorem isNormal_of_piece (hpiece : ',' ∉ piece)
    (h : ofPiece? table position piece = some argument) : IsNormal table argument := by
  have hdeclares := declares_ofPiece? table position piece
  rw [h] at hdeclares
  refine hdeclares.isNormal fun word hword => ⟨isSolid_of_mem_declaredWords hword, ?_⟩
  intro c hc
  obtain ⟨hmem, hequals⟩ := of_mem_declaredWords hword hc
  have hcomma : c ≠ ',' := fun hcomma => hpiece (hcomma ▸ hmem)
  simp [hcomma, hequals]

/-! ## The list -/

/-- A list that is not `void` is cut at its commas. -/
theorem bind_eq (table : Initializers) (parameters : String) :
    bind table parameters =
      if Text.trim parameters.toList = "void".toList then []
      else ofPieces table 0 (Text.fields (fun c => c == ',') parameters.toList) := by
  rw [bind, ← Signature.ofPieces_trim table parameters.toList]
  generalize Text.trim parameters.toList = text
  cases text with
  | nil => rfl
  | cons c rest => simp

/-- A variable in a list is the one of a piece. -/
theorem exists_piece_of_mem {pieces : List (List Char)}
    (h : argument ∈ ofPieces table position pieces) :
    ∃ place, ∃ piece ∈ pieces, ofPiece? table place piece = some argument := by
  induction pieces generalizing position with
  | nil => cases h
  | cons piece rest ih =>
    have hrest : argument ∈ ofPieces table (position + 1) rest →
        ∃ place, ∃ other ∈ piece :: rest, ofPiece? table place other = some argument := by
      intro hmem
      obtain ⟨place, other, hother, hvariable⟩ := ih hmem
      exact ⟨place, other, List.mem_cons_of_mem piece hother, hvariable⟩
    rw [ofPieces] at h
    split at h
    · rename_i first hfirst
      rcases List.mem_cons.1 h with rfl | h
      · exact ⟨position, piece, List.mem_cons_self, hfirst⟩
      · exact hrest h
    · exact hrest h

theorem exists_piece_of_mem_bind {parameters : String} (h : argument ∈ bind table parameters) :
    ∃ place, ∃ piece ∈ Text.fields (fun c => c == ',') parameters.toList,
      ofPiece? table place piece = some argument := by
  rw [bind_eq] at h
  split at h
  · cases h
  · exact exists_piece_of_mem h

theorem isNormal_of_mem_bind {parameters : String} (h : argument ∈ bind table parameters) :
    IsNormal table argument := by
  obtain ⟨place, piece, hpiece, hvariable⟩ := exists_piece_of_mem_bind h
  refine isNormal_of_piece (fun hcomma => ?_) hvariable
  cases Text.not_mem_of_mem_fields hpiece ',' hcomma

/-! ## Writing a parameter list -/

/-- A variable as a parameter: its type, a space and its identifier. -/
def parameterChars (argument : Argument) : List Char :=
  argument.typeName.toList ++ ' ' :: argument.identifier.toList

/-- Variables as a parameter list. -/
def parameterList (arguments : List Argument) : String :=
  String.ofList ([',', ' '].intercalate (arguments.map parameterChars))

theorem IsSpacedOnce.words_ne_nil {cs : List Char} (h : IsSpacedOnce cs) : Text.words cs ≠ [] := by
  obtain ⟨hne, hspaced⟩ := h
  intro hnil
  rw [hnil] at hspaced
  exact hne hspaced.symm

/-- The first word of a text stands at its start. -/
theorem IsSpacedOnce.head?_isBlank {cs : List Char} (h : IsSpacedOnce cs) :
    ∀ c ∈ cs.head?, Text.isBlank c = false := by
  obtain ⟨first, others, hwords⟩ := List.exists_cons_of_ne_nil h.words_ne_nil
  have hfirst : Text.IsSolid first :=
    Text.isSolid_of_mem_words (by rw [hwords]; exact List.mem_cons_self)
  obtain ⟨d, rest, rfl⟩ := List.exists_cons_of_ne_nil hfirst.1
  intro c hc
  rw [← h.2, hwords, List.intercalate_cons_cons_left, List.head?_cons, Option.mem_some_iff] at hc
  exact hfirst.2 c (hc ▸ List.mem_cons_self)

namespace IsNormal

variable (h : IsNormal table argument)

include h

/-- No comma and no equals sign stands in a written variable. -/
theorem isFree_parameterChars : IsFree [',', '='] argument.parameterChars := by
  intro c hc
  rcases List.mem_append.1 hc with hc | hc
  · exact h.typeName_isFree c hc
  · rcases List.mem_cons.1 hc with rfl | hc
    · decide
    · exact h.identifier_isFree c hc

theorem words_parameterChars : Text.words argument.parameterChars =
    Text.words argument.typeName.toList ++ [argument.identifier.toList] := by
  rw [parameterChars, Text.words_append_blank (by rfl), Text.words_of_isSolid h.identifier]

/-- A written variable starts and ends with a word. -/
theorem trim_parameterChars : Text.trim argument.parameterChars = argument.parameterChars := by
  refine Text.trim_of_ends (fun c hc => ?_) fun c hc => ?_
  · rw [parameterChars, List.head?_append_of_ne_nil _ h.typeName.1] at hc
    exact h.typeName.head?_isBlank c hc
  · have hcut : argument.parameterChars =
        argument.typeName.toList ++ [' '] ++ argument.identifier.toList := by
      simp [parameterChars]
    rw [hcut, List.getLast?_append_of_ne_nil _ h.identifier.1] at hc
    exact h.identifier.2 c (List.mem_of_mem_getLast? hc)

/-- A written variable declares itself. -/
theorem ofPiece?_parameterChars (position : Nat) :
    ofPiece? table position argument.parameterChars = some argument := by
  have hkeep : argument.parameterChars.takeWhile (fun c => c != '=') = argument.parameterChars := by
    refine List.takeWhile_eq_self_iff.2 fun c hc => ?_
    exact bne_iff_ne.2 fun hequals => h.isFree_parameterChars c hc (by simp [hequals])
  -- the identifier has no sigils to move
  have htake := @Signature.takeWhile_isSigil [] _ (List.forall_mem_nil _) h.identifier_isBare
  have hdrop := @Signature.dropWhile_isSigil [] _ (List.forall_mem_nil _) h.identifier_isBare
  rw [List.nil_append] at htake hdrop
  have hparts : typeAndIdentifier argument.parameterChars =
      (argument.typeName.toList, argument.identifier.toList) := by
    rw [typeAndIdentifier_concat h.typeName.words_ne_nil h.words_parameterChars, htake, hdrop,
      List.append_nil, h.typeName.2]
  have hne : argument.parameterChars.isEmpty = false := by simp [parameterChars]
  have hnamed : argument.identifier.toList.isEmpty = false := by simpa using h.identifier.1
  rw [ofPiece?, hkeep, h.trim_parameterChars, hparts]
  simp only [hne, hnamed, Bool.false_eq_true, if_false, String.ofList_toList, ← h.initializer]

/-- A text that starts with a written variable has several words. -/
theorem two_le_length_words (rest : List Char) :
    2 ≤ (Text.words (argument.parameterChars ++ rest)).length := by
  have htype := List.length_pos_iff.2 h.typeName.words_ne_nil
  have hback : Text.words (argument.identifier.toList ++ rest) ≠ [] := by
    rw [ne_eq, Text.words_eq_nil_iff]
    intro hblanks
    obtain ⟨c, cs, hidentifier⟩ := List.exists_cons_of_ne_nil h.identifier.1
    have hc := h.identifier.2 c (by rw [hidentifier]; exact List.mem_cons_self)
    exact Text.not_mem_of_areBlanks hblanks hc (by rw [hidentifier]; exact List.mem_cons_self)
  have hrest := List.length_pos_iff.2 hback
  rw [parameterChars, List.append_assoc, List.cons_append, Text.words_append_blank (by rfl),
    List.length_append]
  omega

end IsNormal

/-- Written variables declare themselves, at whatever position. -/
theorem ofPieces_parameterChars {arguments : List Argument}
    (h : ∀ argument ∈ arguments, IsNormal table argument) (position : Nat) :
    ofPieces table position (arguments.map fun argument => ' ' :: argument.parameterChars) =
      arguments := by
  induction arguments generalizing position with
  | nil => rfl
  | cons argument rest ih =>
    have hspace : Text.AreBlanks [' '] := by decide
    have hpadded := Signature.ofPiece?_padded hspace Text.areBlanks_nil table position
      argument.parameterChars
    rw [List.append_nil, List.singleton_append,
      (h argument List.mem_cons_self).ofPiece?_parameterChars] at hpadded
    rw [List.map_cons, ofPieces, hpadded]
    simp only
    rw [ih fun other hother => h other (List.mem_cons_of_mem argument hother)]

/-- Binding the parameter list of variables in normal form gives them again. -/
theorem bind_parameterList {arguments : List Argument}
    (h : ∀ argument ∈ arguments, IsNormal table argument) :
    bind table (parameterList arguments) = arguments := by
  cases arguments with
  | nil => rfl
  | cons first rest =>
    have hfree : ∀ argument ∈ first :: rest, ∀ c ∈ argument.parameterChars,
        (fun c => c == ',') c = false := by
      intro argument hargument c hc
      refine beq_eq_false_iff_ne.2 ?_
      rintro rfl
      exact (h argument hargument).isFree_parameterChars ',' hc (by decide)
    have hfields : Text.fields (fun c => c == ',')
        ([',', ' '].intercalate ((first :: rest).map parameterChars)) =
          first.parameterChars :: (rest.map fun argument => ' ' :: argument.parameterChars) := by
      rw [List.map_cons, Text.fields_intercalate_pair (by rfl) (by rfl)
        (hfree first List.mem_cons_self), List.map_map]
      · rfl
      · intro piece hpiece
        obtain ⟨argument, hargument, rfl⟩ := List.mem_map.1 hpiece
        exact hfree argument (List.mem_cons_of_mem first hargument)
    obtain ⟨more, hmore⟩ : ∃ more, [',', ' '].intercalate ((first :: rest).map parameterChars) =
        first.parameterChars ++ more := by
      cases rest with
      | nil => exact ⟨[], by simp⟩
      | cons next rest =>
        exact ⟨_, by rw [List.map_cons, List.map_cons, List.intercalate_cons_cons,
          List.append_assoc]⟩
    have hlong := (h first List.mem_cons_self).two_le_length_words more
    have hvoid : Text.trim ([',', ' '].intercalate ((first :: rest).map parameterChars)) ≠
        "void".toList := by
      intro htrim
      have hone : (Text.words "void".toList).length = 1 := by decide
      rw [← hmore, ← Text.words_trim, htrim, hone] at hlong
      omega
    rw [bind_eq, parameterList, String.toList_ofList, if_neg hvoid, hfields, ofPieces,
      (h first List.mem_cons_self).ofPiece?_parameterChars]
    simp only
    rw [ofPieces_parameterChars fun other hother => h other (List.mem_cons_of_mem first hother)]

/-- Binding gives variables in normal form, and binding the parameter list of
these variables gives them again. -/
theorem bind_normalizes (table : Initializers) (parameters : String) :
    (∀ argument ∈ bind table parameters, IsNormal table argument) ∧
      bind table (parameterList (bind table parameters)) = bind table parameters :=
  ⟨fun _ h => isNormal_of_mem_bind h, bind_parameterList fun _ h => isNormal_of_mem_bind h⟩

/-- A default value, an empty piece, a bare type and a detached sigil. -/
theorem bind_normalizes_sample :
    let arguments := bind defaultInitializers "const\t Foo *p = 0,, int , Bar &"
    arguments = [⟨"const Foo*", "p", none⟩, ⟨"int", "arg2", some "0"⟩, ⟨"Bar&", "arg3", none⟩] ∧
      IsNormal defaultInitializers ⟨"int", "arg2", some "0"⟩ ∧
      parameterList arguments = "const Foo* p, int arg2, Bar& arg3" ∧
      bind defaultInitializers (parameterList arguments) = arguments := by
  intro arguments
  have harguments : arguments =
      [⟨"const Foo*", "p", none⟩, ⟨"int", "arg2", some "0"⟩, ⟨"Bar&", "arg3", none⟩] := by
    decide +kernel
  obtain ⟨hnormal, hagain⟩ :=
    bind_normalizes defaultInitializers "const\t Foo *p = 0,, int , Bar &"
  refine ⟨harguments, hnormal _ ?_, ?_, hagain⟩
  · show _ ∈ arguments
    rw [harguments]
    simp
  · rw [harguments]
    decide

end TestSkeleton.Argument
