/-!
# Offsets in UTF-8

A place in a text is reported as the number of bytes in front of it.
`byteLength` counts the bytes of some characters, and `splitAtByte` cuts a
text at such an offset; `splitAtByte_append` says that the two fit together.
-/

namespace TestSkeleton.Text

/-- The number of bytes of some characters in UTF-8. -/
def byteLength : List Char → Nat
  | [] => 0
  | c :: cs => c.utf8Size + byteLength cs

@[simp] theorem byteLength_nil : byteLength [] = 0 := rfl

@[simp] theorem byteLength_cons (c : Char) (cs : List Char) :
    byteLength (c :: cs) = c.utf8Size + byteLength cs := rfl

@[simp] theorem byteLength_append (cs ds : List Char) :
    byteLength (cs ++ ds) = byteLength cs + byteLength ds := by
  induction cs with
  | nil => simp
  | cons c cs ih => rw [List.cons_append, byteLength_cons, byteLength_cons, ih, Nat.add_assoc]

/-- The characters that start below the byte offset `n`, and the rest. -/
def splitAtByte (n : Nat) : List Char → List Char × List Char
  | [] => ([], [])
  | c :: cs =>
    if n = 0 then ([], c :: cs)
    else
      let (before, after) := splitAtByte (n - c.utf8Size) cs
      (c :: before, after)

/-- The cut after `cs` gives `cs` back. -/
theorem splitAtByte_append (cs ds : List Char) :
    splitAtByte (byteLength cs) (cs ++ ds) = (cs, ds) := by
  induction cs with
  | nil => cases ds <;> simp [splitAtByte]
  | cons c cs ih =>
    have hc : 0 < c.utf8Size := c.utf8Size_pos
    have hn : c.utf8Size + byteLength cs ≠ 0 := by omega
    rw [byteLength_cons, List.cons_append, splitAtByte, if_neg hn, Nat.add_sub_cancel_left, ih]

/-- A text is cut at an offset in one way only. -/
theorem append_inj_of_byteLength {cs cs' ds ds' : List Char} (h : cs ++ ds = cs' ++ ds')
    (hlength : byteLength cs = byteLength cs') : cs = cs' ∧ ds = ds' := by
  have hcut := splitAtByte_append cs ds
  rw [h, hlength, splitAtByte_append] at hcut
  exact ⟨(Prod.mk.inj hcut).1.symm, (Prod.mk.inj hcut).2.symm⟩

/-! ## Bytes -/

/-- The bytes of a text are read as that text. -/
theorem fromUTF8?_toUTF8 (s : String) : String.fromUTF8? s.toUTF8 = some s := by
  have hvalid : s.toUTF8.IsValidUTF8 := s.isValidUTF8
  rw [String.fromUTF8?, dif_pos hvalid]
  rfl

/-- Only its own bytes are read as a text. -/
theorem eq_toUTF8_of_fromUTF8? {bytes : ByteArray} {s : String}
    (h : String.fromUTF8? bytes = some s) : bytes = s.toUTF8 := by
  rw [String.fromUTF8?] at h
  split at h
  · cases h
    rfl
  · cases h

end TestSkeleton.Text
