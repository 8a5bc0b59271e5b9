import TestSkeleton.Json.Token

/-!
# JSON values

A value is read from its tokens by a machine that keeps the open arrays and
objects on a stack and reads one token at a time.

* `Json.ofTokens?` reads exactly one value.
* `Json.parse?` reads the text of a value.
* Members keep their order, and a repeated name is kept each time: what a
  repetition means is for the reader of the value.
-/

namespace TestSkeleton

/-- A JSON value.  Numbers are not told apart, and a string or a name is
`none` if its escapes name no text. -/
inductive Json where
  | null
  | bool (value : Bool)
  | number
  | string (text : Option String)
  | array (items : List Json)
  | object (members : List (Option String × Json))
deriving Inhabited, Repr

namespace Json

/-- An array or object that is not closed yet, with its contents so far, last
first. -/
inductive Frame where
  | array (done : List Json)
  | object (done : List (Option String × Json))
  /-- An object whose next value belongs to `name`. -/
  | member (done : List (Option String × Json)) (name : Option String)
deriving Inhabited, Repr

/-- What may come next. -/
inductive Expected where
  | value
  | valueOrClose
  | name
  | nameOrClose
  | colon (name : Option String)
  /-- The value is complete; a comma or a closing mark follows. -/
  | after (value : Json)
deriving Inhabited, Repr

/-- What a token that stands for a whole value stands for. -/
def scalar? : Token → Option Json
  | .null => some .null
  | .bool value => some (.bool value)
  | .number => some .number
  | .string text => some (.string text)
  | _ => none

/-- The state after the first token of a value. -/
def startValue (token : Token) (stack : List Frame) : Option (Expected × List Frame) :=
  match token with
  | .openArray => some (.valueOrClose, .array [] :: stack)
  | .openObject => some (.nameOrClose, .object [] :: stack)
  | token => (scalar? token).map fun value => (.after value, stack)

/-- The state after a token that follows a complete value. -/
def continueAfter (value : Json) (token : Token) :
    List Frame → Option (Expected × List Frame)
  | .array done :: stack =>
    match token with
    | .comma => some (.value, .array (value :: done) :: stack)
    | .closeArray => some (.after (.array (value :: done).reverse), stack)
    | _ => none
  | .member done name :: stack =>
    match token with
    | .comma => some (.name, .object ((name, value) :: done) :: stack)
    | .closeObject => some (.after (.object ((name, value) :: done).reverse), stack)
    | _ => none
  | _ => none

/-- The state after one token. -/
def advance (expected : Expected) (stack : List Frame) (token : Token) :
    Option (Expected × List Frame) :=
  match expected, token, stack with
  | .value, token, stack => startValue token stack
  | .valueOrClose, .closeArray, .array _ :: stack => some (.after (.array []), stack)
  | .valueOrClose, token, stack => startValue token stack
  | .name, .string name, stack => some (.colon name, stack)
  | .nameOrClose, .string name, stack => some (.colon name, stack)
  | .nameOrClose, .closeObject, .object _ :: stack => some (.after (.object []), stack)
  | .colon name, .colon, .object done :: stack => some (.value, .member done name :: stack)
  | .after value, token, stack => continueAfter value token stack
  | _, _, _ => none

/-- Reads the rest of a value. -/
def readRest (expected : Expected) (stack : List Frame) : List Token → Option Json
  | [] =>
    match expected, stack with
    | .after value, [] => some value
    | _, _ => none
  | token :: rest =>
    match advance expected stack token with
    | some (expected, stack) => readRest expected stack rest
    | none => none

/-- The value that some tokens write. -/
def ofTokens? (tokens : List Token) : Option Json :=
  readRest .value [] tokens

/-- The value that a text writes. -/
def parse? (text : String) : Option Json :=
  (tokens text.toList).bind ofTokens?

end Json

end TestSkeleton
