import TestSkeleton.Text.Ranges
import TestSkeleton.Text.WordTable

/-!
# Word characters

Names in a test file start with an ASCII letter or underscore and go on with
word characters of any script.
-/

namespace TestSkeleton.Text

/-- The ASCII letters and the underscore. -/
def isNameStart (c : Char) : Bool :=
  c.isAlpha || c == '_'

/-- The ASCII letters, the ASCII digits and the underscore. -/
def isAsciiWord (c : Char) : Bool :=
  c.isAlphanum || c == '_'

/-- The word characters of Unicode: Alphabetic, Mark, Decimal_Number,
Connector_Punctuation and Join_Control. -/
def isWord (c : Char) : Bool :=
  isAsciiWord c || inRanges c.toNat wordRanges

theorem isAsciiWord_of_isNameStart {c : Char} (h : isNameStart c = true) :
    isAsciiWord c = true := by
  rcases Bool.or_eq_true_iff.1 h with h | h
  · exact Bool.or_eq_true_iff.2 (Or.inl (Bool.or_eq_true_iff.2 (Or.inl h)))
  · exact Bool.or_eq_true_iff.2 (Or.inr h)

/-- A name starts with a word character. -/
theorem isWord_of_isNameStart {c : Char} (h : isNameStart c = true) : isWord c = true :=
  Bool.or_eq_true_iff.2 (Or.inl (isAsciiWord_of_isNameStart h))

end TestSkeleton.Text
