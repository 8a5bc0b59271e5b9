import TestSkeleton.Toml.Value

/-!
# Tables from statements

The statements of a document build up its table.  A header names the table
that the values below it go to.  No value and no table is defined twice:

* a dotted key adds to tables that dotted keys made, and to no others;
* a header defines a table that is new, or so far only implied by other
  headers;
* a table between braces is complete.

`Document.ofStatements?` gives the table, or nothing if a statement defines
something again.
-/

namespace TestSkeleton.Toml

/-- The entries of a table. -/
abbrev Table := List (String × Toml)

/-- The entries with the value of a key replaced. -/
def replaceEntry (key : String) (value : Toml) : Table → Table
  | [] => []
  | (k, v) :: rest => if k = key then (k, value) :: rest else (k, v) :: replaceEntry key value rest

/-- Changes the table at the end of a path.  Tables that are missing on the
way are made, by a dotted key or by a header; `change` also sees how the
table at the end came about. -/
def changeAt (byDottedKey : Bool) (change : Origin → Table → Option Table) :
    List String → Origin → Table → Option Table
  | [], origin, entries => change origin entries
  | step :: path, _, entries =>
    match entries.lookup step with
    | none =>
      let origin := if byDottedKey then Origin.dotted else .implied
      (changeAt byDottedKey change path origin []).map fun inner =>
        entries ++ [(step, .table origin inner)]
    | some (.table origin inner) =>
      if origin = .inline || (byDottedKey && origin = .header) then none
      else
        (changeAt byDottedKey change path origin inner).map fun inner =>
          replaceEntry step (.table origin inner) entries
    | some (.tables items) =>
      match items.getLast? with
      | none => none
      | some last =>
        (changeAt byDottedKey change path .header last).map fun last =>
          replaceEntry step (.tables (items.dropLast ++ [last])) entries
    | some _ => none

/-- Adds a value that is not there yet. -/
def addNew (key : String) (value : Toml) (entries : Table) : Option Table :=
  match entries.lookup key with
  | none => some (entries ++ [(key, value)])
  | some _ => none

/-- Gives a dotted key its value.  The last table on the way has to belong
to dotted keys, unless the key has no dots. -/
def assign (path : List String) (key : String) (value : Toml) (entries : Table) : Option Table :=
  changeAt true
    (fun origin entries =>
      if path.isEmpty || origin = .dotted then addNew key value entries else none)
    path .header entries

/-- Defines the table of a header. -/
def defineTable (key : String) (entries : Table) : Option Table :=
  match entries.lookup key with
  | none => some (entries ++ [(key, .table .header [])])
  | some (.table .implied inner) => some (replaceEntry key (.table .header inner) entries)
  | some _ => none

/-- Adds a table to the tables of a double-bracket header. -/
def defineElement (key : String) (entries : Table) : Option Table :=
  match entries.lookup key with
  | none => some (entries ++ [(key, .tables [[]])])
  | some (.tables items) => some (replaceEntry key (.tables (items ++ [[]])) entries)
  | some _ => none

/-- A document that is being read: the table so far, and the path of the
header that the next values belong to. -/
structure Document where
  entries : Table := []
  current : List String := []
deriving Inhabited, Repr

namespace Document

/-- Reads one statement. -/
def read (document : Document) : Statement → Option Document
  | .header path key =>
    (changeAt false (fun _ => defineTable key) path .header document.entries).map fun entries =>
      ⟨entries, path ++ [key]⟩
  | .arrayHeader path key =>
    (changeAt false (fun _ => defineElement key) path .header document.entries).map fun entries =>
      ⟨entries, path ++ [key]⟩
  | .assign path key value =>
    (changeAt false (fun _ => assign path key value) document.current .header
      document.entries).map fun entries => { document with entries }

/-- The table that some statements define. -/
def ofStatements? (statements : List Statement) : Option Table :=
  (statements.foldlM read {}).map Document.entries

end Document

/-- The table between braces. -/
def inlineTable? (values : List (List String × String × Toml)) : Option Toml :=
  (values.foldlM (fun entries (path, key, value) => assign path key value entries) []).map
    (.table .inline)

end TestSkeleton.Toml
