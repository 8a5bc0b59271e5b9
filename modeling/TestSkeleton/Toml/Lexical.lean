import TestSkeleton.Toml.Value

/-!
# Lexical forms of TOML

Blanks, comments, strings and keys.  Each reader takes a text and gives what
it read together with the text after it, or nothing if the text does not
start with that form.

* `skipFiller` skips blanks, line ends and comments.
* `endOfLine?` reads what may follow a statement on its line.
* `readString?` reads any of the four kinds of strings.
* `readKey?` reads a dotted key of at most `maxKeyParts` parts.
-/

namespace TestSkeleton.Toml

/-! ## Blanks, line ends and comments -/

/-- The blanks inside a line. -/
def isSpace (c : Char) : Bool :=
  c == ' ' || c == '\t'

/-- The text after the blanks in front. -/
def skipSpace (cs : List Char) : List Char :=
  cs.dropWhile isSpace

/-- The characters that text may hold as they are: the tab, and everything
that is not a control. -/
def isPlain (c : Char) : Bool :=
  c == '\t' || (0x20 ≤ c.toNat && c.toNat != 0x7F)

/-- The text after a line end. -/
def newline? : List Char → Option (List Char)
  | '\n' :: rest => some rest
  | '\x0d' :: '\n' :: rest => some rest
  | _ => none

/-- The text after blanks, line ends and comments.  `inComment` says whether
the text starts inside a comment. -/
def skipFiller (inComment : Bool) : List Char → Option (List Char)
  | [] => some []
  | '\n' :: rest => skipFiller false rest
  | '\x0d' :: '\n' :: rest => skipFiller false rest
  | c :: rest =>
    if inComment then if isPlain c then skipFiller true rest else none
    else if isSpace c then skipFiller false rest
    else if c == '#' then skipFiller true rest
    else some (c :: rest)

/-- The text after a comment at its start. -/
def skipComment : List Char → List Char
  | '#' :: rest => rest.dropWhile isPlain
  | cs => cs

/-- The text after the end of a line, in front of which there may be blanks
and a comment. -/
def endOfLine? (cs : List Char) : Option (List Char) :=
  match skipComment (skipSpace cs) with
  | [] => some []
  | cs => newline? cs

/-! ## Escapes -/

/-- The value of a hexadecimal digit. -/
def hexValue? (c : Char) : Option Nat :=
  if c.isDigit then some (c.toNat - '0'.toNat)
  else if 'a' ≤ c && c ≤ 'f' then some (c.toNat - 'a'.toNat + 10)
  else if 'A' ≤ c && c ≤ 'F' then some (c.toNat - 'A'.toNat + 10)
  else none

/-- The character whose code point some hexadecimal digits write. -/
def codePoint? (digits : List Char) : Option Char := do
  let n ← digits.foldlM (fun n c => (hexValue? c).map (n * 16 + ·)) 0
  if n.isValidChar then some (Char.ofNat n) else none

/-- The character for a backslash and one other character. -/
def shortEscape? (c : Char) : Option Char :=
  if c == '"' || c == '\\' then some c
  else if c == 'b' then some '\x08'
  else if c == 't' then some '\t'
  else if c == 'n' then some '\n'
  else if c == 'f' then some '\x0c'
  else if c == 'r' then some '\r'
  else if c == 'e' then some '\x1b'
  else none

/-- A character in front of a text that was read, if both were. -/
def cons? (c : Option Char) (read : Option (List Char × List Char)) :
    Option (List Char × List Char) :=
  match c, read with
  | some c, some (text, rest) => some (c :: text, rest)
  | _, _ => none

/-! ## Strings on one line -/

/-- A string with escapes, after its opening quote. -/
def basicString? : List Char → Option (List Char × List Char)
  | [] => none
  | '"' :: rest => some ([], rest)
  | '\\' :: 'x' :: a :: b :: rest => cons? (codePoint? [a, b]) (basicString? rest)
  | '\\' :: 'u' :: a :: b :: c :: d :: rest => cons? (codePoint? [a, b, c, d]) (basicString? rest)
  | '\\' :: 'U' :: a :: b :: c :: d :: e :: f :: g :: h :: rest =>
    cons? (codePoint? [a, b, c, d, e, f, g, h]) (basicString? rest)
  | '\\' :: c :: rest => cons? (shortEscape? c) (basicString? rest)
  | c :: rest => if isPlain c && c != '\\' then cons? (some c) (basicString? rest) else none

/-- A string without escapes, after its opening quote. -/
def literalString? : List Char → Option (List Char × List Char)
  | [] => none
  | '\'' :: rest => some ([], rest)
  | c :: rest => if isPlain c then cons? (some c) (literalString? rest) else none

/-! ## Strings over several lines -/

/-- Where the reader of a string over several lines is. -/
inductive Continuation where
  /-- Inside a line. -/
  | none
  /-- After a backslash that has to end its line. -/
  | toLineEnd
  /-- After such a line end; blanks and line ends are left out. -/
  | toText
deriving DecidableEq, Inhabited, Repr

/-- The blanks and line ends that a backslash at the end of a line leaves
out. -/
def isLeftOut (continuation : Continuation) (c : Char) (rest : List Char) : Bool :=
  continuation != .none &&
    (isSpace c || c == '\n' || (c == '\r' && rest.head? == some '\n'))

/-- The position after a character that is left out. -/
def Continuation.after (continuation : Continuation) (c : Char) : Continuation :=
  if c == '\n' then .toText else continuation

/-- Whether a backslash in front of this text ends its line. -/
def endsLine (rest : List Char) : Bool :=
  match rest with
  | c :: rest => isSpace c || c == '\n' || (c == '\r' && rest.head? == some '\n')
  | [] => false

/-- A string with escapes over several lines, after its first line end.  Up
to two quotes may stand in front of the three that close it. -/
def basicBlock? (continuation : Continuation) :
    List Char → Option (List Char × List Char)
  | [] => none
  | c :: rest =>
    if isLeftOut continuation c rest then basicBlock? (continuation.after c) rest
    else if continuation == .toLineEnd then none
    else
      match c, rest with
      | '"', '"' :: '"' :: '"' :: '"' :: rest => some (['"', '"'], rest)
      | '"', '"' :: '"' :: '"' :: rest => some (['"'], rest)
      | '"', '"' :: '"' :: rest => some ([], rest)
      | '\\', 'x' :: a :: b :: rest => cons? (codePoint? [a, b]) (basicBlock? .none rest)
      | '\\', 'u' :: a :: b :: c :: d :: rest =>
        cons? (codePoint? [a, b, c, d]) (basicBlock? .none rest)
      | '\\', 'U' :: a :: b :: c :: d :: e :: f :: g :: h :: rest =>
        cons? (codePoint? [a, b, c, d, e, f, g, h]) (basicBlock? .none rest)
      | '\\', d :: rest =>
        if endsLine (d :: rest) then basicBlock? .toLineEnd (d :: rest)
        else cons? (shortEscape? d) (basicBlock? .none rest)
      | '\x0d', '\n' :: rest => cons? (some '\r') (cons? (some '\n') (basicBlock? .none rest))
      | c, rest =>
        if c == '\n' || (isPlain c && c != '\\') then cons? (some c) (basicBlock? .none rest)
        else none

/-- A string without escapes over several lines, after its first line end. -/
def literalBlock? : List Char → Option (List Char × List Char)
  | [] => none
  | '\'' :: '\'' :: '\'' :: '\'' :: '\'' :: rest => some (['\'', '\''], rest)
  | '\'' :: '\'' :: '\'' :: '\'' :: rest => some (['\''], rest)
  | '\'' :: '\'' :: '\'' :: rest => some ([], rest)
  | '\x0d' :: '\n' :: rest => cons? (some '\r') (cons? (some '\n') (literalBlock? rest))
  | c :: rest =>
    if c == '\n' || isPlain c then cons? (some c) (literalBlock? rest) else none

/-- The text without a line end in front. -/
def dropNewline (cs : List Char) : List Char :=
  (newline? cs).getD cs

/-- Any string. -/
def readString? : List Char → Option (List Char × List Char)
  | '"' :: '"' :: '"' :: rest => basicBlock? .none (dropNewline rest)
  | '"' :: rest => basicString? rest
  | '\'' :: '\'' :: '\'' :: rest => literalBlock? (dropNewline rest)
  | '\'' :: rest => literalString? rest
  | _ => none

/-! ## Keys -/

/-- The characters of a key without quotes. -/
def isBareKey (c : Char) : Bool :=
  c.isAlphanum || c == '_' || c == '-'

/-- One part of a dotted key. -/
def keyPart? (cs : List Char) : Option (String × List Char) :=
  match cs with
  | '"' :: rest => (basicString? rest).map fun (text, rest) => (String.ofList text, rest)
  | '\'' :: rest => (literalString? rest).map fun (text, rest) => (String.ofList text, rest)
  | cs =>
    let part := cs.takeWhile isBareKey
    if part.isEmpty then none else some (String.ofList part, cs.dropWhile isBareKey)

/-- The parts of a dotted key of at most `count` parts, and the text after
it. -/
def keyParts? : Nat → List Char → Option (List String × List Char)
  | 0, _ => none
  | count + 1, cs => do
    let (part, rest) ← keyPart? cs
    match skipSpace rest with
    | '.' :: rest =>
      let (parts, rest) ← keyParts? count (skipSpace rest)
      some (part :: parts, rest)
    | _ => some ([part], rest)

/-- The most parts that a dotted key may have. -/
def maxKeyParts : Nat := 80

/-- A dotted key: the parts on the way, the last part, and the text after
the key. -/
def readKey? (cs : List Char) : Option ((List String × String) × List Char) := do
  let (parts, rest) ← keyParts? maxKeyParts cs
  let key ← parts.getLast?
  some ((parts.dropLast, key), rest)

end TestSkeleton.Toml
