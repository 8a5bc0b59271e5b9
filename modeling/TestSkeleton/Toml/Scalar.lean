import TestSkeleton.Text.Blank
import TestSkeleton.Toml.Value

/-!
# Numbers, dates and truth values in TOML

A value that is neither a string nor between brackets is one run of
characters without blanks and punctuation.  Only its form matters, and
whether it can be represented: an integer has to consist of digits of its
base and fit into 128 bits, and a decimal fraction has to round to a finite
number of 64 bits.

* `integer?` and `fraction?` check the form.  The form of an integer is looser
  than its digits: a base mark may have no digits after it, and an underscore
  only needs a hexadecimal digit on either side.  In both, the first underscore
  may also follow the sign.
* `dateTime?` reads a date or time and spells it out in full.
* `scalar?` is the value that a run of characters writes.
-/

namespace TestSkeleton.Toml

/-! ## Numbers -/

/-- Digits with single underscores between them, without the underscores. -/
def digits? (isDigit : Char → Bool) (cs : List Char) : Option (List Char) :=
  let groups := Text.fields (fun c => c == '_') cs
  if groups.all (fun group => !group.isEmpty && group.all isDigit) then some groups.flatten
  else none

/-- Decimal digits, of which the first of several is no zero. -/
def wholeDigits? (cs : List Char) : Option (List Char) := do
  let digits ← digits? Char.isDigit cs
  match digits with
  | '0' :: _ :: _ => none
  | digits => some digits

/-- The value of a digit in any base up to 16. -/
def digitValue (c : Char) : Nat :=
  if c.isDigit then c.toNat - '0'.toNat
  else if c.isLower then c.toNat - 'a'.toNat + 10
  else c.toNat - 'A'.toNat + 10

/-- The number that some digits write. -/
def numeral (base : Nat) (digits : List Char) : Nat :=
  digits.foldl (fun n c => n * base + digitValue c) 0

/-- Whether a character is a hexadecimal digit. -/
def isHexDigit (c : Char) : Bool :=
  c.isDigit || ('a' ≤ c && c ≤ 'f') || ('A' ≤ c && c ≤ 'F')

/-- Whether a character is an octal digit. -/
def isOctalDigit (c : Char) : Bool :=
  '0' ≤ c && c ≤ '7'

/-- Whether a character is a binary digit. -/
def isBinaryDigit (c : Char) : Bool :=
  c == '0' || c == '1'

/-- A sign at the start of a number, and the text after it. -/
def splitSign : List Char → Bool × List Char
  | '-' :: rest => (true, rest)
  | '+' :: rest => (false, rest)
  | cs => (false, cs)

/-- A number with its sign. -/
def withSign (negative : Bool) (n : Nat) : Int :=
  if negative then -Int.ofNat n else Int.ofNat n

/-- The digits after the mark of a base, of which there may be none. -/
def basedDigits? (isDigit : Char → Bool) (cs : List Char) : Option (List Char) :=
  if cs.isEmpty then some [] else digits? isDigit cs

/-- Whether the groups after the first underscore of an integer have a
hexadecimal digit beside every underscore.  The last group may end with
anything. -/
def groupsJoin : List (List Char) → Bool
  | [] => true
  | [last] => last.head?.any isHexDigit
  | group :: rest =>
    group.head?.any isHexDigit && group.getLast?.any isHexDigit && groupsJoin rest

/-- Whether a character makes a number a fraction. -/
def isFractionMark (c : Char) : Bool :=
  c == '.' || c == 'e' || c == 'E'

/-- The characters of a decimal integer without its sign and underscores.
Before the first underscore stand decimal digits, a sign or both. -/
def decimalDigits? (cs : List Char) : Option (List Char) :=
  match Text.fields (fun c => c == '_') cs with
  | [] => none
  | [whole] => wholeDigits? (splitSign whole).2
  | first :: rest =>
    let digits := (splitSign first).2
    if first.isEmpty || digits.head? == some '0' || !digits.all Char.isDigit then none
    else if groupsJoin rest && !cs.any isFractionMark then some (digits ++ rest.flatten)
    else none

/-- Whether an integer fits into 128 bits, with or without a sign. -/
def integerFits (n : Int) : Bool :=
  -Int.ofNat (Nat.pow 2 127) ≤ n && n < Int.ofNat (Nat.pow 2 128)

/-- Whether some characters are the digits of an integer that can be
represented. -/
def isRepresentable (base : Nat) (isDigit : Char → Bool) (negative : Bool)
    (digits : List Char) : Bool :=
  !digits.isEmpty && digits.all isDigit && integerFits (withSign negative (numeral base digits))

/-- Whether the integer that a text writes can be represented, if the text has
the form of an integer. -/
def integer? (cs : List Char) : Option Bool :=
  match cs with
  | '0' :: 'x' :: rest => (basedDigits? isHexDigit rest).map (isRepresentable 16 isHexDigit false)
  | '0' :: 'o' :: rest =>
    (basedDigits? isOctalDigit rest).map (isRepresentable 8 isOctalDigit false)
  | '0' :: 'b' :: rest =>
    (basedDigits? isBinaryDigit rest).map (isRepresentable 2 isBinaryDigit false)
  | cs => (decimalDigits? cs).map (isRepresentable 10 Char.isDigit (splitSign cs).1)

/-- A decimal fraction: its digits, and the power of ten that they are
counted in. -/
structure Fraction where
  digits : List Char
  exponent : Int
deriving DecidableEq, Inhabited, Repr

/-- The exponent that a text writes. -/
def exponent? (cs : List Char) : Option Int :=
  let (negative, rest) := splitSign cs
  (digits? Char.isDigit rest).map fun ds => withSign negative (numeral 10 ds)

/-- The digits before the point of a fraction, without their sign.  After a
sign and an underscore they may start with zeros. -/
def mantissaDigits? (cs : List Char) : Option (List Char) :=
  match cs with
  | sign :: '_' :: digits =>
    if sign == '+' || sign == '-' then digits? Char.isDigit digits else wholeDigits? cs
  | cs => wholeDigits? (splitSign cs).2

/-- The decimal fraction that a text writes, which has a point, an exponent
or both. -/
def fraction? (cs : List Char) : Option Fraction :=
  let isMark := fun c => c == 'e' || c == 'E'
  let mantissa := cs.takeWhile (fun c => !isMark c)
  match cs.dropWhile (fun c => !isMark c) with
  | _ :: exponent => do
    let exponent ← exponent? exponent
    match Text.fields (fun c => c == '.') mantissa with
    | [whole] => some ⟨← mantissaDigits? whole, exponent⟩
    | [whole, part] =>
      let part ← digits? Char.isDigit part
      some ⟨(← mantissaDigits? whole) ++ part, exponent - part.length⟩
    | _ => none
  | [] =>
    match Text.fields (fun c => c == '.') mantissa with
    | [whole, part] => do
      let part ← digits? Char.isDigit part
      some ⟨(← mantissaDigits? whole) ++ part, -part.length⟩
    | _ => none

/-- The least number that rounds to no finite number of 64 bits. -/
def overflowBound : Nat :=
  Nat.pow 2 1024 - Nat.pow 2 970

/-- Whether a fraction rounds to a finite number of 64 bits.  The number of
digits decides unless the fraction is near the bound. -/
def Fraction.fits (fraction : Fraction) : Bool :=
  let digits := fraction.digits.dropWhile (fun c => c == '0')
  let magnitude := digits.length + fraction.exponent
  if digits.isEmpty || magnitude < 309 then true
  else if 309 < magnitude then false
  else if 0 ≤ fraction.exponent then
    numeral 10 digits * Nat.pow 10 fraction.exponent.toNat < overflowBound
  else numeral 10 digits < overflowBound * Nat.pow 10 (-fraction.exponent).toNat

/-- Whether a text is one of the numbers that have no digits. -/
def isSpecial (cs : List Char) : Bool :=
  let name := (splitSign cs).2
  name == ['i', 'n', 'f'] || name == ['n', 'a', 'n']

/-! ## Dates and times -/

/-- The number that exactly `count` digits at the start of a text write, and
the text after them. -/
def fixed? (count : Nat) (cs : List Char) : Option (Nat × List Char) :=
  let digits := cs.take count
  if digits.length == count && digits.all Char.isDigit then some (numeral 10 digits, cs.drop count)
  else none

/-- The text after a character that has to be `c`. -/
def expect? (c : Char) : List Char → Option (List Char)
  | d :: rest => if d == c then some rest else none
  | [] => none

/-- The number of days of a month. -/
def daysIn (year month : Nat) : Nat :=
  if month == 2 then
    if year % 4 == 0 && (year % 100 != 0 || year % 400 == 0) then 29 else 28
  else if month == 4 || month == 6 || month == 9 || month == 11 then 30
  else 31

/-- A number with at least `count` digits. -/
def padded (count n : Nat) : List Char :=
  let digits := Nat.toDigits 10 n
  List.replicate (count - digits.length) '0' ++ digits

/-- A date, spelled out in full, and the text after it. -/
def date? (cs : List Char) : Option (List Char × List Char) := do
  let (year, cs) ← fixed? 4 cs
  let cs ← expect? '-' cs
  let (month, cs) ← fixed? 2 cs
  let cs ← expect? '-' cs
  let (day, cs) ← fixed? 2 cs
  if 1 ≤ month && month ≤ 12 && 1 ≤ day && day ≤ daysIn year month then
    some (padded 4 year ++ '-' :: padded 2 month ++ '-' :: padded 2 day, cs)
  else none

/-- A fraction of a second without trailing zeros, of nine digits at most. -/
def secondFraction (digits : List Char) : List Char :=
  match Text.dropEndWhile (fun c => c == '0') (digits.take 9) with
  | [] => []
  | digits => '.' :: digits

/-- The seconds of a time, which may be missing, and the text after them. -/
def seconds? (cs : List Char) : Option (List Char × List Char) :=
  match cs with
  | ':' :: rest => do
    let (second, rest) ← fixed? 2 rest
    if 60 < second then none
    else
      match rest with
      | '.' :: rest =>
        let digits := rest.takeWhile Char.isDigit
        if digits.isEmpty then none
        else
          some (':' :: padded 2 second ++ secondFraction digits, rest.dropWhile Char.isDigit)
      | rest => some (':' :: padded 2 second, rest)
  | cs => some ([':', '0', '0'], cs)

/-- A time of day, spelled out in full, and the text after it. -/
def time? (cs : List Char) : Option (List Char × List Char) := do
  let (hour, cs) ← fixed? 2 cs
  let cs ← expect? ':' cs
  let (minute, cs) ← fixed? 2 cs
  if 23 < hour || 59 < minute then none
  else
    let (seconds, cs) ← seconds? cs
    some (padded 2 hour ++ ':' :: padded 2 minute ++ seconds, cs)

/-- An offset from universal time, spelled out; nothing is no offset.  An
offset of zero has a plus sign. -/
def offset? (cs : List Char) : Option (List Char) :=
  match cs with
  | [] => some []
  | ['Z'] => some ['Z']
  | ['z'] => some ['Z']
  | sign :: rest => do
    let (hour, rest) ← fixed? 2 rest
    let rest ← expect? ':' rest
    let (minute, rest) ← fixed? 2 rest
    if (sign == '+' || sign == '-') && rest.isEmpty && hour ≤ 23 && minute ≤ 59 then
      let sign := if hour == 0 && minute == 0 then '+' else sign
      some (sign :: padded 2 hour ++ ':' :: padded 2 minute)
    else none

/-- A date, a time or both, spelled out in full. -/
def dateTime? (cs : List Char) : Option (List Char) :=
  match date? cs with
  | some (date, []) => some date
  | some (date, mark :: rest) =>
    if mark == 'T' || mark == 't' || mark == ' ' then do
      let (time, rest) ← time? rest
      let offset ← offset? rest
      some (date ++ 'T' :: time ++ offset)
    else none
  | none =>
    match time? cs with
    | some (time, []) => some time
    | _ => none

/-! ## Any of them -/

/-- The characters that end a value without quotes and brackets. -/
def endsScalar (c : Char) : Bool :=
  c == '=' || c == ',' || c == '[' || c == ']' || c == '\x7b' || c == '\x7d' || c == '#' ||
    c == ' ' || c == '\t' || c == '\r' || c == '\n'

/-- The characters of a value without quotes and brackets. -/
def isScalarChar (c : Char) : Bool :=
  !endsScalar c

/-- The run of characters that a value consists of, and the text after it.
One blank may stand between a date and a time. -/
def scalarText (cs : List Char) : List Char × List Char :=
  let first := cs.takeWhile isScalarChar
  let rest := cs.dropWhile isScalarChar
  match date? first, rest with
  | some (_, []), ' ' :: c :: tail =>
    if c.isDigit then
      (first ++ ' ' :: (c :: tail).takeWhile isScalarChar, (c :: tail).dropWhile isScalarChar)
    else (first, rest)
  | _, _ => (first, rest)

/-- The value that a run of characters writes. -/
def scalar? (cs : List Char) : Option Toml :=
  if cs == ['t', 'r', 'u', 'e'] then some (.bool true)
  else if cs == ['f', 'a', 'l', 's', 'e'] then some (.bool false)
  else if isSpecial cs then some (.number true)
  else
    match integer? cs with
    | some representable => some (.number representable)
    | none =>
      match fraction? cs with
      | some fraction => some (.number fraction.fits)
      | none => (dateTime? cs).map fun text => .dateTime (String.ofList text)

end TestSkeleton.Toml
