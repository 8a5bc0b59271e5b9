import TestSkeleton.Entries

/-!
# Preference documents

Preferences are grouped in named collections, and a collection holds strings
and truth values under names of their own.

* `Document.getString?`, `getBool?`, `contains` and `stringKeys` read a
  document.
* A `Change` is one write, and `Document.apply` carries it out.  Writing to a
  collection creates it.
-/

namespace TestSkeleton.Preferences

/-- A group of preferences. -/
structure Collection where
  strings : Entries String := .empty
  bools : Entries Bool := .empty
deriving DecidableEq

instance : Inhabited Collection := ⟨{}⟩

/-- All preferences. -/
structure Document where
  collections : Entries Collection := .empty
deriving DecidableEq

instance : Inhabited Document := ⟨{}⟩

/-- One write to a document. -/
inductive Change where
  | create (collection : String)
  | setString (collection key value : String)
  | setBool (collection key : String) (value : Bool)
deriving DecidableEq, Inhabited, Repr

namespace Document

/-! ## Reading -/

/-- Whether a collection exists. -/
def contains (document : Document) (collection : String) : Bool :=
  document.collections.contains collection

/-- A string in a collection. -/
def getString? (document : Document) (collection key : String) : Option String :=
  (document.collections.get? collection).bind fun c => c.strings.get? key

/-- A truth value in a collection. -/
def getBool? (document : Document) (collection key : String) : Option Bool :=
  (document.collections.get? collection).bind fun c => c.bools.get? key

/-- The names of the strings in a collection, in order. -/
def stringKeys (document : Document) (collection : String) : List String :=
  match document.collections.get? collection with
  | some c => c.strings.keys
  | none => []

/-! ## Writing -/

/-- A collection as it is, or an empty one. -/
def collectionD (document : Document) (collection : String) : Collection :=
  (document.collections.get? collection).getD {}

/-- Carries out one write. -/
def apply (document : Document) : Change → Document
  | .create collection =>
    ⟨document.collections.set collection (document.collectionD collection)⟩
  | .setString collection key value =>
    let c := document.collectionD collection
    ⟨document.collections.set collection { c with strings := c.strings.set key value }⟩
  | .setBool collection key value =>
    let c := document.collectionD collection
    ⟨document.collections.set collection { c with bools := c.bools.set key value }⟩

/-- Carries out some writes in order. -/
def applyAll (document : Document) (changes : List Change) : Document :=
  changes.foldl apply document

end Document

end TestSkeleton.Preferences
