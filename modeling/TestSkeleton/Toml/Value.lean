/-!
# TOML values

A TOML document is a table.  While a document is read, every table remembers
how it came about, because that decides what may still be added to it.

A number may be well formed and yet have no value, for instance because it is
too large.  `Toml.fits` says that a value holds no such number.
-/

namespace TestSkeleton

/-- How a table came about. -/
inductive Toml.Origin where
  /-- On the way to the table of a header. -/
  | implied
  /-- On the way to the value of a dotted key. -/
  | dotted
  /-- By a header of its own. -/
  | header
  /-- Between braces. -/
  | inline
deriving DecidableEq, Inhabited, Repr

/-- A TOML value.  Numbers are told apart only by whether they can be
represented, and a date or time is kept as its text. -/
inductive Toml where
  | string (text : String)
  | number (representable : Bool)
  | bool (value : Bool)
  | dateTime (text : String)
  | array (items : List Toml)
  | table (origin : Toml.Origin) (entries : List (String × Toml))
  /-- The tables of the double-bracket headers of one name. -/
  | tables (items : List (List (String × Toml)))
deriving Inhabited, Repr

namespace Toml

mutual

/-- Whether every number in a value can be represented. -/
def fits : Toml → Bool
  | .number representable => representable
  | .array items => allFit items
  | .table _ entries => entriesFit entries
  | .tables items => tablesFit items
  | _ => true

/-- Whether every number in some values can be represented. -/
def allFit : List Toml → Bool
  | [] => true
  | item :: rest => item.fits && allFit rest

/-- Whether every number in the entries of a table can be represented. -/
def entriesFit : List (String × Toml) → Bool
  | [] => true
  | (_, value) :: rest => value.fits && entriesFit rest

/-- Whether every number in some tables can be represented. -/
def tablesFit : List (List (String × Toml)) → Bool
  | [] => true
  | entries :: rest => entriesFit entries && tablesFit rest

end

/-- A line of a document: a header, or a value for a dotted key. -/
inductive Statement where
  | header (path : List String) (key : String)
  | arrayHeader (path : List String) (key : String)
  | assign (path : List String) (key : String) (value : Toml)
deriving Inhabited, Repr

end Toml

end TestSkeleton
