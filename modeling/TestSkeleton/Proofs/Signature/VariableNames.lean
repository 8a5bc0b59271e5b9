import TestSkeleton.Proofs.Signature.NormalForm
import Mathlib.Data.List.Nodup

/-!
# Names of variables

A parameter is named in the text or by its position.  Nothing compares the
two kinds of names, so a written name may be the one that another parameter
gets by its position.

* `PieceName` is what a piece says about the name, and `names` are the names
  for the pieces of a list.  `map_identifier_bind` says that these are the
  names that binding gives.
* `names_perm` puts the written names first, and `nodup_positionalNames` says
  that positions alone never give a name twice.
* `nodup_identifiers_iff` is the result: the names differ exactly if the
  written ones do and no unnamed parameter has the number of one of them.
* `not_nodup_identifiers_arg1` is a list with distinct written names that
  does not meet this.
-/

namespace TestSkeleton.Argument

/-! ## What a list says about names -/

/-- What a piece of a parameter list says about the name of its variable. -/
inductive PieceName where
  /-- The piece declares nothing. -/
  | absent
  /-- A type without an identifier. -/
  | unnamed
  | written (name : String)
deriving DecidableEq, Repr

/-- The name of a piece with the given words: what the last of several words
has behind its sigils. -/
def PieceName.ofWords (words : List (List Char)) : PieceName :=
  match words.getLast? with
  | none => .absent
  | some last =>
    if words.dropLast = [] ∨ last.dropWhile isSigil = [] then .unnamed
    else .written (String.ofList (last.dropWhile isSigil))

/-- What the pieces of a parameter list say.  The list `void` has none. -/
def pieceNames (parameters : String) : List PieceName :=
  if Text.trim parameters.toList = "void".toList then []
  else (Text.fields (fun c => c == ',') parameters.toList).map fun piece =>
    .ofWords (declaredWords piece)

/-- The names in the text, in order. -/
def writtenNames : List PieceName → List String
  | [] => []
  | .written name :: rest => name :: writtenNames rest
  | _ :: rest => writtenNames rest

/-- The positions of the parameters without a name, the first of which has
the given position. -/
def unnamedPositions (position : Nat) : List PieceName → List Nat
  | [] => []
  | .unnamed :: rest => position :: unnamedPositions (position + 1) rest
  | _ :: rest => unnamedPositions (position + 1) rest

/-- The names of the variables. -/
def names (position : Nat) : List PieceName → List String
  | [] => []
  | .absent :: rest => names (position + 1) rest
  | .unnamed :: rest => positionalName position :: names (position + 1) rest
  | .written name :: rest => name :: names (position + 1) rest

/-! ## The names that binding gives -/

variable {table : Initializers} {position : Nat}

theorem PieceName.ofWords_concat (front : List (List Char)) (last : List Char) :
    ofWords (front ++ [last]) =
      if front = [] ∨ last.dropWhile isSigil = [] then .unnamed
      else .written (String.ofList (last.dropWhile isSigil)) := by
  rw [ofWords, List.getLast?_concat, List.dropLast_concat]

theorem Declares.map_identifier {words : List (List Char)} {declared : Option Argument}
    (h : Declares table position words declared) (rest : List PieceName) :
    (declared.map identifier).toList ++ names (position + 1) rest =
      names position (.ofWords words :: rest) := by
  cases h with
  | nothing => rfl
  | unnamed word => rfl
  | detached front sigils apart areSigils =>
    have hname : sigils.dropWhile isSigil = [] := List.dropWhile_eq_nil_iff.2 areSigils
    rw [PieceName.ofWords_concat, if_pos (Or.inr hname)]
    rfl
  | named front sigils name apart areSigils isName isBare =>
    have hname := Signature.dropWhile_isSigil areSigils isBare
    rw [PieceName.ofWords_concat, hname, if_neg (by simp [apart, isName])]
    rfl

theorem map_identifier_ofPieces (table : Initializers) (position : Nat)
    (pieces : List (List Char)) :
    (ofPieces table position pieces).map identifier =
      names position (pieces.map fun piece => .ofWords (declaredWords piece)) := by
  induction pieces generalizing position with
  | nil => rfl
  | cons piece rest ih =>
    have hname := (declares_ofPiece? table position piece).map_identifier
      (rest.map fun piece => .ofWords (declaredWords piece))
    rw [← ih] at hname
    rw [List.map_cons, ← hname, ofPieces]
    cases ofPiece? table position piece <;> rfl

/-- The names of the variables are read off the pieces. -/
theorem map_identifier_bind (table : Initializers) (parameters : String) :
    (bind table parameters).map identifier = names 0 (pieceNames parameters) := by
  rw [bind_eq, pieceNames]
  split
  · rfl
  · exact map_identifier_ofPieces table 0 _

/-! ## Distinct names -/

theorem positionalName_injective : Function.Injective positionalName := by
  intro n m h
  have hchars := congrArg String.toList h
  rw [positionalName, positionalName, String.toList_append, String.toList_append] at hchars
  exact Text.toString_injective (String.toList_inj.1 (List.append_cancel_left hchars))

theorem le_of_mem_unnamedPositions {pieces : List PieceName} {n : Nat}
    (h : n ∈ unnamedPositions position pieces) : position ≤ n := by
  induction pieces generalizing position with
  | nil => cases h
  | cons piece rest ih =>
    cases piece with
    | unnamed =>
      rcases List.mem_cons.1 h with rfl | h
      · exact Nat.le_refl _
      · exact Nat.le_of_succ_le (ih h)
    | absent => exact Nat.le_of_succ_le (ih h)
    | written name => exact Nat.le_of_succ_le (ih h)

/-- No two parameters get the same name by their positions. -/
theorem nodup_positionalNames (position : Nat) (pieces : List PieceName) :
    ((unnamedPositions position pieces).map positionalName).Nodup := by
  rw [List.nodup_map_iff positionalName_injective]
  induction pieces generalizing position with
  | nil => exact List.nodup_nil
  | cons piece rest ih =>
    cases piece with
    | unnamed =>
      refine List.nodup_cons.2 ⟨fun hmem => ?_, ih (position + 1)⟩
      have hle := le_of_mem_unnamedPositions hmem
      omega
    | absent => exact ih (position + 1)
    | written name => exact ih (position + 1)

/-- The names are the written ones and those by position. -/
theorem names_perm (position : Nat) (pieces : List PieceName) :
    (names position pieces).Perm
      (writtenNames pieces ++ (unnamedPositions position pieces).map positionalName) := by
  induction pieces generalizing position with
  | nil => exact .nil
  | cons piece rest ih =>
    cases piece with
    | absent => exact ih (position + 1)
    | unnamed => exact ((ih (position + 1)).cons _).trans List.perm_middle.symm
    | written name => exact (ih (position + 1)).cons _

/-- The variables of a parameter list have distinct names exactly if the names
in the text are distinct and none of them is the name that an unnamed
parameter gets by its position. -/
theorem nodup_identifiers_iff (table : Initializers) (parameters : String) :
    ((bind table parameters).map identifier).Nodup ↔
      (writtenNames (pieceNames parameters)).Nodup ∧
        ∀ position ∈ unnamedPositions 0 (pieceNames parameters),
          positionalName position ∉ writtenNames (pieceNames parameters) := by
  rw [map_identifier_bind, (names_perm 0 _).nodup_iff, List.nodup_append']
  constructor
  · rintro ⟨hwritten, -, hapart⟩
    refine ⟨hwritten, fun position hposition hmem => ?_⟩
    exact hapart hmem (List.mem_map_of_mem hposition)
  · rintro ⟨hwritten, hapart⟩
    refine ⟨hwritten, nodup_positionalNames 0 _, fun name hmem hpositional => ?_⟩
    obtain ⟨position, hposition, rfl⟩ := List.mem_map.1 hpositional
    exact hapart position hposition hmem

/-- The second parameter gets the name by its position that the first one has
in the text. -/
theorem not_nodup_identifiers_arg1 :
    (writtenNames (pieceNames "int arg1, int")).Nodup ∧
      ¬ ((bind defaultInitializers "int arg1, int").map identifier).Nodup := by
  decide +kernel

end TestSkeleton.Argument
