/-!
# Writing JSON

A value is written over several lines, with two more blanks at every level.
A `Layout` is a value ready to be written: the text that it has on a line
with a given indentation.

* `quote` writes a string.  Quotes, backslashes and controls are escaped, and
  everything else is written as it is.
* `array` and `object` put every element on a line of its own; an empty one
  is a pair of brackets.
-/

namespace TestSkeleton.Json

/-- A digit of an escape. -/
def hexDigit (n : Nat) : Char :=
  Nat.digitChar (n % 16)

/-- One character of a string. -/
def escape (c : Char) : List Char :=
  if c == '"' then ['\\', '"']
  else if c == '\\' then ['\\', '\\']
  else if c == '\x08' then ['\\', 'b']
  else if c == '\x0c' then ['\\', 'f']
  else if c == '\n' then ['\\', 'n']
  else if c == '\r' then ['\\', 'r']
  else if c == '\t' then ['\\', 't']
  else if c.toNat < 0x20 then
    ['\\', 'u', '0', '0', hexDigit (c.toNat / 16), hexDigit c.toNat]
  else [c]

/-- A string between quotes. -/
def quote (text : String) : List Char :=
  '"' :: text.toList.flatMap escape ++ ['"']

/-- The text of a value for the indentation of its line. -/
abbrev Layout := Nat → List Char

namespace Layout

/-- The blanks in front of a line. -/
def indent (depth : Nat) : List Char :=
  List.replicate (2 * depth) ' '

/-- A string. -/
def string (text : String) : Layout :=
  fun _ => quote text

/-- A truth value. -/
def bool (value : Bool) : Layout :=
  fun _ => if value then ['t', 'r', 'u', 'e'] else ['f', 'a', 'l', 's', 'e']

/-- The lines of some elements, each but the last with a comma. -/
def lines (depth : Nat) : List Layout → List Char
  | [] => []
  | [element] => '\n' :: indent depth ++ element depth
  | element :: rest => '\n' :: indent depth ++ element depth ++ ',' :: lines depth rest

/-- Some elements between two brackets. -/
def block (opening closing : Char) (elements : List Layout) : Layout := fun depth =>
  if elements.isEmpty then [opening, closing]
  else opening :: lines (depth + 1) elements ++ '\n' :: indent depth ++ [closing]

/-- An array. -/
def array (items : List Layout) : Layout :=
  block '[' ']' items

/-- A name and its value. -/
def member (name : String) (value : Layout) : Layout := fun depth =>
  quote name ++ [':', ' '] ++ value depth

/-- An object. -/
def object (members : List (String × Layout)) : Layout :=
  block '\x7b' '\x7d' (members.map fun (name, value) => member name value)

/-- The text of a value on its own. -/
def render (layout : Layout) : String :=
  String.ofList (layout 0)

end Layout

end TestSkeleton.Json
