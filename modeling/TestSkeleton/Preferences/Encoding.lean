import TestSkeleton.Preferences.Document
import TestSkeleton.Json.Value
import TestSkeleton.Json.Layout

/-!
# Preference documents as JSON

A document is an object with the field `collections`, and a collection is an
object with the fields `strings` and `bools`, each left out if it is empty.

The reader is lenient: a document or a collection may also be an array of its
fields, missing fields are empty, and unknown fields are skipped.  A field
that occurs twice is refused, while a name that occurs twice in a table keeps
its place and takes the later value.
-/

namespace TestSkeleton.Preferences

open Json (Layout)

/-! ## Writing -/

/-- The members of a table, with a layout for each value. -/
def tableLayout {α : Type} (layout : α → Layout) (entries : Entries α) : Layout :=
  .object (entries.toList.map fun (name, value) => (name, layout value))

/-- A field that is left out if its table is empty. -/
def fieldLayout {α : Type} (name : String) (layout : α → Layout) (entries : Entries α) :
    List (String × Layout) :=
  if entries.isEmpty then [] else [(name, tableLayout layout entries)]

/-- A collection as JSON. -/
def Collection.layout (collection : Collection) : Layout :=
  .object (fieldLayout "strings" Layout.string collection.strings ++
    fieldLayout "bools" Layout.bool collection.bools)

/-- A document as JSON. -/
def Document.layout (document : Document) : Layout :=
  .object [("collections", tableLayout Collection.layout document.collections)]

/-- The text of a document. -/
def Document.render (document : Document) : String :=
  document.layout.render

/-! ## Reading -/

/-- A string. -/
def readString? : Json → Option String
  | .string text => text
  | _ => none

/-- A truth value. -/
def readBool? : Json → Option Bool
  | .bool value => some value
  | _ => none

/-- The members of a table, set in order on top of `entries`. -/
def readMembers? {α : Type} (read? : Json → Option α) (entries : Entries α) :
    List (Option String × Json) → Option (Entries α)
  | [] => some entries
  | (name, value) :: rest => do
    let name ← name
    let value ← read? value
    readMembers? read? (entries.set name value) rest

/-- A table whose values are read by `read?`. -/
def readTable? {α : Type} (read? : Json → Option α) : Json → Option (Entries α)
  | .object members => readMembers? read? .empty members
  | _ => none

/-- The value of the field `name`, read by `read?`; `missing` without that
field.  The field may occur once only. -/
def readField? {α : Type} (name : String) (missing : α) (read? : Json → Option α)
    (members : List (Option String × Json)) : Option α :=
  match members.filter (fun member => member.1 == some name) with
  | [] => some missing
  | [(_, value)] => read? value
  | _ => none

/-- Whether the name of every member is a text. -/
def namesAreTexts (members : List (Option String × Json)) : Bool :=
  members.all (fun member => member.1.isSome)

/-- A collection from its JSON. -/
def readCollection? : Json → Option Collection
  | .object members =>
    if namesAreTexts members then do
      let strings ← readField? "strings" .empty (readTable? readString?) members
      let bools ← readField? "bools" .empty (readTable? readBool?) members
      pure { strings, bools }
    else none
  | .array [] => some {}
  | .array [strings] => do
    let strings ← readTable? readString? strings
    pure { strings }
  | .array [strings, bools] => do
    let strings ← readTable? readString? strings
    let bools ← readTable? readBool? bools
    pure { strings, bools }
  | _ => none

/-- A document from its JSON. -/
def readDocument? : Json → Option Document
  | .object members =>
    if namesAreTexts members then do
      let collections ← readField? "collections" .empty (readTable? readCollection?) members
      pure { collections }
    else none
  | .array [] => some {}
  | .array [collections] => do
    let collections ← readTable? readCollection? collections
    pure { collections }
  | _ => none

/-- The document that a text writes. -/
def Document.parse? (text : String) : Option Document :=
  (Json.parse? text).bind readDocument?

end TestSkeleton.Preferences
