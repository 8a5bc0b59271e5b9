/-!
# Tokens of JSON

The text of a JSON value is a sequence of punctuation marks, strings,
numbers and three words, with blanks between them.

* `Json.readString` reads a string after its opening quote.  A string whose
  escapes hold half a surrogate pair is well formed and yet names no text.
* `Json.readNumber` reads a number; only its shape matters here.
* `Json.tokens` reads a whole text, and gives nothing if the text holds
  anything else.
-/

namespace TestSkeleton.Json

/-- The units of a JSON text. -/
inductive Token where
  | openObject
  | closeObject
  | openArray
  | closeArray
  | colon
  | comma
  | null
  | bool (value : Bool)
  | number
  /-- A string; `none` if its escapes name no text. -/
  | string (text : Option String)
deriving DecidableEq, Inhabited, Repr

/-! ## Strings -/

/-- One element of a string as it is written: a character, or a unit of
UTF-16 in an escape. -/
inductive Piece where
  | char (c : Char)
  | escaped (unit : Nat)
deriving DecidableEq, Inhabited, Repr

/-- The value of a hexadecimal digit. -/
def hexValue? (c : Char) : Option Nat :=
  if c.isDigit then some (c.toNat - '0'.toNat)
  else if 'a' ≤ c && c ≤ 'f' then some (c.toNat - 'a'.toNat + 10)
  else if 'A' ≤ c && c ≤ 'F' then some (c.toNat - 'A'.toNat + 10)
  else none

/-- The value of four hexadecimal digits. -/
def unit? (a b c d : Char) : Option Nat := do
  let a ← hexValue? a
  let b ← hexValue? b
  let c ← hexValue? c
  let d ← hexValue? d
  pure (((a * 16 + b) * 16 + c) * 16 + d)

/-- The character that a backslash and one other character stand for. -/
def shortEscape? (c : Char) : Option Char :=
  if c == '"' || c == '\\' || c == '/' then some c
  else if c == 'b' then some '\x08'
  else if c == 'f' then some '\x0c'
  else if c == 'n' then some '\n'
  else if c == 'r' then some '\r'
  else if c == 't' then some '\t'
  else none

/-- The pieces of a string up to its closing quote, and the text after it.
Controls have to be escaped. -/
def readPieces : List Char → Option (List Piece × List Char)
  | [] => none
  | '"' :: rest => some ([], rest)
  | '\\' :: 'u' :: a :: b :: c :: d :: rest => do
    let unit ← unit? a b c d
    let (pieces, rest) ← readPieces rest
    pure (.escaped unit :: pieces, rest)
  | '\\' :: c :: rest => do
    let c ← shortEscape? c
    let (pieces, rest) ← readPieces rest
    pure (.char c :: pieces, rest)
  | c :: rest =>
    if c.toNat < 0x20 || c == '\\' then none
    else do
      let (pieces, rest) ← readPieces rest
      pure (.char c :: pieces, rest)

/-- The text of some pieces.  A first half of a surrogate pair has to be
followed by a second half. -/
def decode : List Piece → Option (List Char)
  | [] => some []
  | .char c :: rest => (decode rest).map (c :: ·)
  | .escaped high :: .escaped low :: rest =>
    if 0xD800 ≤ high && high < 0xDC00 then
      if 0xDC00 ≤ low && low < 0xE000 then
        (decode rest).map (Char.ofNat (0x10000 + (high - 0xD800) * 0x400 + (low - 0xDC00)) :: ·)
      else none
    else if 0xDC00 ≤ high && high < 0xE000 then none
    else (decode (.escaped low :: rest)).map (Char.ofNat high :: ·)
  | .escaped unit :: rest =>
    if 0xD800 ≤ unit && unit < 0xE000 then none
    else (decode rest).map (Char.ofNat unit :: ·)

/-- A string after its opening quote, and the text after it. -/
def readString (cs : List Char) : Option (Option String × List Char) := do
  let (pieces, rest) ← readPieces cs
  pure ((decode pieces).map String.ofList, rest)

theorem length_of_readPieces {cs rest : List Char} {pieces : List Piece}
    (h : readPieces cs = some (pieces, rest)) : rest.length < cs.length := by
  fun_induction readPieces cs generalizing pieces rest with
  | case1 => cases h
  | case2 tail =>
    simp only [Option.some.injEq, Prod.mk.injEq] at h
    rw [← h.2]
    simp
  | case3 a b c d tail ih =>
    cases hu : unit? a b c d with
    | none => simp [hu] at h
    | some unit =>
      cases hr : readPieces tail with
      | none => simp [hu, hr] at h
      | some p =>
        simp only [hu, hr, Option.pure_def, Option.bind_eq_bind, Option.bind_some,
          Option.some.injEq, Prod.mk.injEq] at h
        have := ih hr
        rw [← h.2]
        simp only [List.length_cons]
        omega
  | case4 c tail _ ih =>
    cases hu : shortEscape? c with
    | none => simp [hu] at h
    | some e =>
      cases hr : readPieces tail with
      | none => simp [hu, hr] at h
      | some p =>
        simp only [hu, hr, Option.pure_def, Option.bind_eq_bind, Option.bind_some,
          Option.some.injEq, Prod.mk.injEq] at h
        have := ih hr
        rw [← h.2]
        simp only [List.length_cons]
        omega
  | case5 => cases h
  | case6 c tail _ _ _ _ ih =>
    cases hr : readPieces tail with
    | none => simp [hr] at h
    | some p =>
      simp only [hr, Option.pure_def, Option.bind_eq_bind, Option.bind_some,
        Option.some.injEq, Prod.mk.injEq] at h
      have := ih hr
      rw [← h.2]
      simp only [List.length_cons]
      omega

theorem length_of_readString {cs rest : List Char} {text : Option String}
    (h : readString cs = some (text, rest)) : rest.length < cs.length := by
  unfold readString at h
  cases hr : readPieces cs with
  | none => simp [hr] at h
  | some p =>
    simp only [hr, Option.pure_def, Option.bind_eq_bind, Option.bind_some,
      Option.some.injEq, Prod.mk.injEq] at h
    rw [← h.2]
    exact length_of_readPieces hr

/-! ## Numbers -/

/-- The text after one or more digits. -/
def digits? (cs : List Char) : Option (List Char) :=
  match cs with
  | c :: rest => if c.isDigit then some (rest.dropWhile Char.isDigit) else none
  | [] => none

/-- The text after the integer part of a number.  Only zero itself starts
with a zero. -/
def integerPart? : List Char → Option (List Char)
  | '0' :: rest => some rest
  | cs => digits? cs

/-- The text after the fraction of a number, which may be missing. -/
def fractionPart? : List Char → Option (List Char)
  | '.' :: rest => digits? rest
  | cs => some cs

/-- The text after the exponent of a number, which may be missing. -/
def exponentPart? : List Char → Option (List Char)
  | c :: rest =>
    if c == 'e' || c == 'E' then
      match rest with
      | '+' :: rest => digits? rest
      | '-' :: rest => digits? rest
      | rest => digits? rest
    else some (c :: rest)
  | [] => some []

/-- The text after a number without a sign. -/
def readNumber (cs : List Char) : Option (List Char) := do
  let cs ← integerPart? cs
  let cs ← fractionPart? cs
  exponentPart? cs

theorem length_of_digits? {cs rest : List Char} (h : digits? cs = some rest) :
    rest.length < cs.length := by
  cases cs with
  | nil => cases h
  | cons c cs =>
    simp only [digits?] at h
    split at h
    · cases h
      exact Nat.lt_succ_of_le (List.dropWhile_sublist _).length_le
    · cases h

theorem length_of_integerPart? {cs rest : List Char} (h : integerPart? cs = some rest) :
    rest.length < cs.length := by
  unfold integerPart? at h
  split at h
  · cases h
    simp
  · exact length_of_digits? h

theorem length_of_fractionPart? {cs rest : List Char} (h : fractionPart? cs = some rest) :
    rest.length ≤ cs.length := by
  unfold fractionPart? at h
  split at h
  · have := length_of_digits? h
    simp only [List.length_cons]
    omega
  · cases h
    exact Nat.le_refl _

theorem length_of_exponentPart? {cs rest : List Char} (h : exponentPart? cs = some rest) :
    rest.length ≤ cs.length := by
  unfold exponentPart? at h
  split at h
  · split at h
    · split at h <;> have := length_of_digits? h <;> simp only [List.length_cons] <;> omega
    · cases h
      exact Nat.le_refl _
  · cases h
    exact Nat.le_refl _

theorem length_of_readNumber {cs rest : List Char} (h : readNumber cs = some rest) :
    rest.length < cs.length := by
  unfold readNumber at h
  cases hi : integerPart? cs with
  | none => simp [hi] at h
  | some c1 =>
    cases hf : fractionPart? c1 with
    | none => simp [hi, hf] at h
    | some c2 =>
      simp only [hi, hf, Option.bind_eq_bind, Option.bind_some] at h
      have h1 := length_of_integerPart? hi
      have h2 := length_of_fractionPart? hf
      have h3 := length_of_exponentPart? h
      omega

/-! ## Tokens -/

/-- The blanks of JSON. -/
def isSpace (c : Char) : Bool :=
  c == ' ' || c == '\n' || c == '\t' || c == '\r'

/-- The mark that a character is. -/
def mark? (c : Char) : Option Token :=
  if c == '\x7b' then some .openObject
  else if c == '\x7d' then some .closeObject
  else if c == '[' then some .openArray
  else if c == ']' then some .closeArray
  else if c == ':' then some .colon
  else if c == ',' then some .comma
  else none

/-- A token at the start of a text that does not start with a blank, and
the text after it. -/
def token? : List Char → Option (Token × List Char)
  | 't' :: 'r' :: 'u' :: 'e' :: rest => some (.bool true, rest)
  | 'f' :: 'a' :: 'l' :: 's' :: 'e' :: rest => some (.bool false, rest)
  | 'n' :: 'u' :: 'l' :: 'l' :: rest => some (.null, rest)
  | '"' :: rest => do
    let (text, rest) ← readString rest
    pure (.string text, rest)
  | '-' :: rest => (readNumber rest).map fun rest => (.number, rest)
  | c :: rest =>
    match mark? c with
    | some mark => some (mark, rest)
    | none => (readNumber (c :: rest)).map fun rest => (.number, rest)
  | [] => none

theorem length_of_token? {cs rest : List Char} {token : Token}
    (h : token? cs = some (token, rest)) : rest.length < cs.length := by
  unfold token? at h
  split at h
  · cases h; simp only [List.length_cons]; omega
  · cases h; simp only [List.length_cons]; omega
  · cases h; simp only [List.length_cons]; omega
  · rename_i tail
    cases hs : readString tail with
    | none => simp [hs] at h
    | some p =>
      simp only [hs, Option.pure_def, Option.bind_eq_bind, Option.bind_some,
        Option.some.injEq, Prod.mk.injEq] at h
      have := length_of_readString hs
      rw [← h.2]
      simp only [List.length_cons]
      omega
  · rename_i tail
    cases hn : readNumber tail with
    | none => simp [hn] at h
    | some r =>
      simp only [hn, Option.map_some, Option.some.injEq, Prod.mk.injEq] at h
      have := length_of_readNumber hn
      rw [← h.2]
      simp only [List.length_cons]
      omega
  · rename_i c tail _ _ _ _ _
    split at h
    · cases h; simp
    · cases hn : readNumber (c :: tail) with
      | none => simp [hn] at h
      | some r =>
        simp only [hn, Option.map_some, Option.some.injEq, Prod.mk.injEq] at h
        have := length_of_readNumber hn
        rw [← h.2]
        exact this
  · cases h

/-- The tokens of a text. -/
def tokens : List Char → Option (List Token)
  | [] => some []
  | c :: cs =>
    if isSpace c then tokens cs
    else
      match _h : token? (c :: cs) with
      | none => none
      | some (token, rest) => (tokens rest).map (token :: ·)
termination_by cs => cs.length
decreasing_by
  · simp
  · exact length_of_token? _h

end TestSkeleton.Json
