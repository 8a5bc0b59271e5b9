/-!
# Blank characters, words and fields

Text is cut in two ways: at blank characters into words, and at one
separator into fields.  Both work on a list of characters.

* `isBlank` is the Unicode property White_Space.
* `trimStart`, `trimEnd` and `trim` drop blanks at the ends.
* `fields` cuts at every character of a class, so there is always at least
  one field, possibly an empty one.
* `words` are the non-empty fields between blanks.
-/

namespace TestSkeleton.Text

/-- The characters of the Unicode property White_Space. -/
def isBlank (c : Char) : Bool :=
  let n := c.toNat
  (9 ≤ n && n ≤ 13) || n == 0x20 || n == 0x85 || n == 0xA0 || n == 0x1680 ||
    (0x2000 ≤ n && n ≤ 0x200A) || n == 0x2028 || n == 0x2029 || n == 0x202F ||
    n == 0x205F || n == 0x3000

/-! ## Trimming -/

/-- The text without its leading blanks. -/
def trimStart (cs : List Char) : List Char :=
  cs.dropWhile isBlank

/-- The text without its trailing characters of the class `p`. -/
def dropEndWhile (p : Char → Bool) (cs : List Char) : List Char :=
  (cs.reverse.dropWhile p).reverse

/-- The text without its trailing blanks. -/
def trimEnd (cs : List Char) : List Char :=
  dropEndWhile isBlank cs

/-- The text without blanks at either end. -/
def trim (cs : List Char) : List Char :=
  trimEnd (trimStart cs)

/-- `trim` on strings. -/
def trimmed (s : String) : String :=
  String.ofList (trim s.toList)

/-- What `dropEndWhile` drops is a run of the class. -/
theorem exists_dropEndWhile_append (p : Char → Bool) (cs : List Char) :
    ∃ dropped, (∀ c ∈ dropped, p c = true) ∧ cs = dropEndWhile p cs ++ dropped := by
  refine ⟨(cs.reverse.takeWhile p).reverse, ?_, ?_⟩
  · intro c hc
    exact List.all_eq_true.1 (List.all_takeWhile) c (List.mem_reverse.1 hc)
  · rw [dropEndWhile, ← List.reverse_append, List.takeWhile_append_dropWhile, List.reverse_reverse]

/-- What stays at the end is not of the class that is dropped there. -/
theorem getLast?_dropEndWhile (p : Char → Bool) (cs : List Char) :
    ∀ c ∈ (dropEndWhile p cs).getLast?, p c = false := by
  intro c hc
  rw [dropEndWhile, List.getLast?_reverse] at hc
  have hhead := List.head?_dropWhile_not p cs.reverse
  rw [Option.mem_def.1 hc] at hhead
  exact hhead

/-- What `trimEnd` drops is blank. -/
theorem exists_trimEnd_append (cs : List Char) :
    ∃ blanks, (∀ c ∈ blanks, isBlank c = true) ∧ cs = trimEnd cs ++ blanks :=
  exists_dropEndWhile_append isBlank cs

/-! ## Cutting -/

/-- Puts `c` in front of the first of some fields. -/
def consField (c : Char) : List (List Char) → List (List Char)
  | [] => [[c]]
  | field :: rest => (c :: field) :: rest

/-- The fields between the characters of the class `p`, in order.  A text
with `n` such characters has `n + 1` fields. -/
def fields (p : Char → Bool) (cs : List Char) : List (List Char) :=
  cs.foldr (fun c acc => if p c then [] :: acc else consField c acc) [[]]

/-- The words of a text: its longest runs without a blank. -/
def words (cs : List Char) : List (List Char) :=
  (fields isBlank cs).filter (fun word => !word.isEmpty)

@[simp] theorem fields_nil (p : Char → Bool) : fields p [] = [[]] := rfl

theorem fields_cons_of_pos {p : Char → Bool} {c : Char} (h : p c = true)
    (cs : List Char) : fields p (c :: cs) = [] :: fields p cs := by
  simp [fields, h]

theorem fields_cons_of_neg {p : Char → Bool} {c : Char} (h : p c = false)
    (cs : List Char) : fields p (c :: cs) = consField c (fields p cs) := by
  simp [fields, h]

/-- There is always at least one field. -/
theorem fields_ne_nil (p : Char → Bool) (cs : List Char) : fields p cs ≠ [] := by
  cases cs with
  | nil => simp
  | cons c cs =>
    cases h : p c with
    | true => simp [fields_cons_of_pos h]
    | false =>
      rw [fields_cons_of_neg h]
      cases fields p cs <;> simp [consField]

/-- A text cut at no separator is one field. -/
theorem fields_eq_singleton {p : Char → Bool} {cs : List Char}
    (h : ∀ c ∈ cs, p c = false) : fields p cs = [cs] := by
  induction cs with
  | nil => rfl
  | cons c cs ih =>
    rw [fields_cons_of_neg (h c (by simp)), ih (fun d hd => h d (by simp [hd]))]
    rfl

/-- A separator ends the field before it and starts the fields after it. -/
theorem fields_append_sep {p : Char → Bool} {cs : List Char} {c : Char}
    (h : ∀ d ∈ cs, p d = false) (hc : p c = true) (rest : List Char) :
    fields p (cs ++ c :: rest) = cs :: fields p rest := by
  induction cs with
  | nil => exact fields_cons_of_pos hc rest
  | cons d cs ih =>
    rw [List.cons_append, fields_cons_of_neg (h d (by simp)),
      ih (fun e he => h e (by simp [he]))]
    rfl

/-- A separator stands between the fields before it and the fields after
it. -/
theorem fields_append_cons {p : Char → Bool} {c : Char} (hc : p c = true) (cs rest : List Char) :
    fields p (cs ++ c :: rest) = fields p cs ++ fields p rest := by
  induction cs with
  | nil => exact fields_cons_of_pos hc rest
  | cons d cs ih =>
    rw [List.cons_append]
    cases hd : p d with
    | true => rw [fields_cons_of_pos hd, fields_cons_of_pos hd, ih, List.cons_append]
    | false =>
      rw [fields_cons_of_neg hd, fields_cons_of_neg hd, ih]
      obtain ⟨field, others, hfields⟩ := List.exists_cons_of_ne_nil (fields_ne_nil p cs)
      rw [hfields]
      rfl

/-- The last field ends where the text ends. -/
theorem exists_fields_concat {p : Char → Bool} {c : Char} (hc : p c = false) (cs : List Char) :
    ∃ front field, fields p (cs ++ [c]) = front ++ [field ++ [c]] := by
  induction cs with
  | nil => exact ⟨[], [], fields_eq_singleton (by simpa using hc)⟩
  | cons d cs ih =>
    obtain ⟨front, field, hfields⟩ := ih
    rw [List.cons_append]
    cases hd : p d with
    | true =>
      rw [fields_cons_of_pos hd, hfields]
      exact ⟨[] :: front, field, rfl⟩
    | false =>
      rw [fields_cons_of_neg hd, hfields]
      cases front with
      | nil => exact ⟨[], d :: field, rfl⟩
      | cons first front => exact ⟨(d :: first) :: front, field, rfl⟩

@[simp] theorem flatten_consField (c : Char) (fields : List (List Char)) :
    (consField c fields).flatten = c :: fields.flatten := by
  cases fields <;> rfl

/-- The separators are the only characters that the fields lack. -/
theorem flatten_fields (p : Char → Bool) (cs : List Char) :
    (fields p cs).flatten = cs.filter (fun c => !p c) := by
  induction cs with
  | nil => rfl
  | cons c cs ih =>
    cases h : p c with
    | true => rw [fields_cons_of_pos h, List.flatten_cons, List.nil_append, ih,
        List.filter_cons_of_neg (by simp [h])]
    | false => rw [fields_cons_of_neg h, flatten_consField, ih,
        List.filter_cons_of_pos (by simp [h])]

theorem not_mem_of_mem_fields {p : Char → Bool} {cs field : List Char}
    (h : field ∈ fields p cs) : ∀ c ∈ field, p c = false := by
  intro c hc
  have hmem : c ∈ (fields p cs).flatten := List.mem_flatten.2 ⟨field, h, hc⟩
  rw [flatten_fields] at hmem
  simpa using (List.mem_filter.1 hmem).2

end TestSkeleton.Text
