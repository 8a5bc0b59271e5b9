import TestSkeleton.Text.Utf8

/-!
# Paths that are no text

To the system a path is a string of bytes.  The program compares, shows and
stores a path as text, and the parts of it that are no text are then replaced
by U+FFFD, each part as long as it can be.

* `replaced` reads bytes as characters and replaces what is none.  It goes on
  with a byte that does not continue a character as with a new one.
* `SystemPath.text` is the text of a path.  `SystemPath.text_ofText` says that
  a path that is a text is that text, and `SystemPath.ofText_text_iff` that
  any other path is not told by its text.

In the other modules a path is taken as text from the start.  Only where a
directory is stored (`Preferences.Outputs.remember`) is it a `SystemPath`.
-/

namespace TestSkeleton.Path

/-! ## Bytes as characters -/

/-- The character for bytes that are none. -/
def replacement : Char := '\uFFFD'

/-- A character of which some bytes are read. -/
structure Started where
  bits : Nat
  /-- The number of bytes after the next one. -/
  further : Nat
  /-- The bounds of the next byte. -/
  low : UInt8
  high : UInt8
deriving DecidableEq, Inhabited, Repr

/-- What the first byte of a character says, if it is not the only one.  The
bounds leave out what is written with more bytes than needed, the surrogates,
and what is above the last character. -/
def startOf? (byte : UInt8) : Option Started :=
  if 0xC2 ≤ byte ∧ byte ≤ 0xDF then some ⟨byte.toNat - 0xC0, 0, 0x80, 0xBF⟩
  else if byte = 0xE0 then some ⟨0x0, 1, 0xA0, 0xBF⟩
  else if byte = 0xED then some ⟨0xD, 1, 0x80, 0x9F⟩
  else if 0xE1 ≤ byte ∧ byte ≤ 0xEF then some ⟨byte.toNat - 0xE0, 1, 0x80, 0xBF⟩
  else if byte = 0xF0 then some ⟨0, 2, 0x90, 0xBF⟩
  else if 0xF1 ≤ byte ∧ byte ≤ 0xF3 then some ⟨byte.toNat - 0xF0, 2, 0x80, 0xBF⟩
  else if byte = 0xF4 then some ⟨4, 2, 0x80, 0x8F⟩
  else none

/-- The character that a byte ends and the one that it starts, where none is
started. -/
def readFirst (byte : UInt8) : List Char × Option Started :=
  if byte < 0x80 then ([Char.ofNat byte.toNat], none)
  else
    match startOf? byte with
    | some started => ([], some started)
    | none => ([replacement], none)

/-- The characters that a byte ends and the one that it starts or goes on
with. -/
def readByte (started? : Option Started) (byte : UInt8) : List Char × Option Started :=
  match started? with
  | none => readFirst byte
  | some started =>
    if started.low ≤ byte ∧ byte ≤ started.high then
      let bits := started.bits * 0x40 + (byte.toNat - 0x80)
      match started.further with
      | 0 => ([Char.ofNat bits], none)
      | further + 1 => ([], some ⟨bits, further, 0x80, 0xBF⟩)
    else
      let (chars, next) := readFirst byte
      (replacement :: chars, next)

/-- The characters of some bytes, after a character that is started. -/
def replacedFrom : Option Started → List UInt8 → List Char
  | none, [] => []
  | some _, [] => [replacement]
  | started?, byte :: bytes =>
    let (chars, next) := readByte started? byte
    chars ++ replacedFrom next bytes

/-- The characters of some bytes. -/
def replaced (bytes : List UInt8) : List Char :=
  replacedFrom none bytes

/-! ## Paths -/

/-- A path as the system knows it. -/
structure SystemPath where
  bytes : List UInt8
deriving DecidableEq, Inhabited, Repr

namespace SystemPath

/-- The path that is a text. -/
def ofText (text : String) : SystemPath :=
  ⟨text.toUTF8.data.toList⟩

/-- The text of a path. -/
def text (path : SystemPath) : String :=
  match String.fromUTF8? ⟨path.bytes.toArray⟩ with
  | some text => text
  | none => String.ofList (replaced path.bytes)

@[simp] theorem text_ofText (text : String) : (ofText text).text = text := by
  have hbytes : (⟨(ofText text).bytes.toArray⟩ : ByteArray) = text.toUTF8 := rfl
  rw [SystemPath.text, hbytes, Text.fromUTF8?_toUTF8]

/-- Whether a path is a text. -/
def IsText (path : SystemPath) : Prop :=
  ∃ text, path = ofText text

/-- The text of a path is the path itself only if it is a text. -/
theorem ofText_text_iff {path : SystemPath} : ofText path.text = path ↔ path.IsText := by
  constructor
  · exact fun h => ⟨path.text, h.symm⟩
  · rintro ⟨text, rfl⟩
    rw [text_ofText]

end SystemPath

end TestSkeleton.Path
