import TestSkeleton.Text.Blank

/-!
# Words between blanks

What cutting and trimming do to a text that is put together from its words,
fields and blanks.

* `words_append_blanks` cuts at a run of blanks, and `words_of_isSolid` is
  one word.  `words_intercalate` finds words again between single spaces.
* `exists_fields_prepend` and `exists_fields_append` say that text without a
  separator goes to the first or the last field, and `fields_intercalate`
  that fields are found again between their separators.  `mem_of_mem_fields`
  and `mem_intercalate` tell where a character comes from, and
  `exists_mem_words` where it goes.
* `cut_inj` cuts a text at the first place of a character.
* `trim_padded` and `trim_of_ends` trim a text, and `exists_trim` is what
  trimming takes away.
* `exists_last_word` and `words_append_last` find the last word, and
  `words_eq_nil_iff` says when there is none.
-/

namespace TestSkeleton.Text

/-- Whether no blank stands in some characters. -/
def IsUnbroken (cs : List Char) : Prop :=
  ∀ c ∈ cs, isBlank c = false

/-- Whether some characters are a word: at least one, and no blanks. -/
def IsSolid (cs : List Char) : Prop :=
  cs ≠ [] ∧ IsUnbroken cs

/-- Whether some characters are blanks, or there are none. -/
def AreBlanks (cs : List Char) : Prop :=
  ∀ c ∈ cs, isBlank c = true

instance (cs : List Char) : Decidable (IsUnbroken cs) :=
  List.decidableBAll (fun c => isBlank c = false) cs

instance (cs : List Char) : Decidable (IsSolid cs) :=
  inferInstanceAs (Decidable (cs ≠ [] ∧ IsUnbroken cs))

instance (cs : List Char) : Decidable (AreBlanks cs) :=
  List.decidableBAll (fun c => isBlank c = true) cs

theorem areBlanks_nil : AreBlanks [] :=
  fun _ hc => nomatch hc

theorem not_mem_of_areBlanks {blanks : List Char} (h : AreBlanks blanks) {c : Char}
    (hc : isBlank c = false) : c ∉ blanks := by
  intro hmem
  rw [h c hmem] at hc
  cases hc

variable {cs before after : List Char}

/-! ## Words -/

@[simp] theorem words_nil : words [] = [] := rfl

theorem words_append_blank {c : Char} (hc : isBlank c = true) (cs rest : List Char) :
    words (cs ++ c :: rest) = words cs ++ words rest := by
  rw [words, fields_append_cons hc, List.filter_append]
  rfl

theorem words_blanks_append (h : AreBlanks before) (cs : List Char) :
    words (before ++ cs) = words cs := by
  induction before with
  | nil => rfl
  | cons c before ih =>
    rw [List.cons_append]
    have hcut := words_append_blank (h c List.mem_cons_self) [] (before ++ cs)
    rw [List.nil_append, words_nil, List.nil_append] at hcut
    rw [hcut, ih fun d hd => h d (List.mem_cons_of_mem c hd)]

/-- Blanks end the words before them. -/
theorem words_append_blanks (h : AreBlanks before) (hne : before ≠ []) (cs rest : List Char) :
    words (cs ++ (before ++ rest)) = words cs ++ words rest := by
  obtain ⟨c, others, rfl⟩ := List.exists_cons_of_ne_nil hne
  rw [List.cons_append, words_append_blank (h c List.mem_cons_self),
    words_blanks_append fun d hd => h d (List.mem_cons_of_mem c hd)]

theorem words_blanks_end (h : AreBlanks after) (cs : List Char) :
    words (cs ++ after) = words cs := by
  by_cases hne : after = []
  · rw [hne, List.append_nil]
  · have hcut := words_append_blanks h hne cs []
    rwa [List.append_nil, words_nil, List.append_nil] at hcut

theorem words_of_isSolid (h : IsSolid cs) : words cs = [cs] := by
  rw [words, fields_eq_singleton h.2, List.filter_cons_of_pos, List.filter_nil]
  simpa using h.1

theorem isSolid_of_mem_words {word : List Char} (h : word ∈ words cs) : IsSolid word := by
  obtain ⟨hfield, hne⟩ := List.mem_filter.1 h
  exact ⟨by simpa using hne, not_mem_of_mem_fields hfield⟩

/-! ## Fields -/

/-- Text without a separator goes to the last field. -/
theorem exists_fields_append {p : Char → Bool} (hafter : ∀ c ∈ after, p c = false)
    (cs : List Char) : ∃ front last, fields p cs = front ++ [last] ∧
      fields p (cs ++ after) = front ++ [last ++ after] := by
  induction cs with
  | nil => exact ⟨[], [], rfl, fields_eq_singleton hafter⟩
  | cons c cs ih =>
    obtain ⟨front, last, hfields, hlonger⟩ := ih
    rw [List.cons_append]
    cases hc : p c with
    | true =>
      rw [fields_cons_of_pos hc, fields_cons_of_pos hc, hfields, hlonger]
      exact ⟨[] :: front, last, rfl, rfl⟩
    | false =>
      rw [fields_cons_of_neg hc, fields_cons_of_neg hc, hfields, hlonger]
      cases front with
      | nil => exact ⟨[], c :: last, rfl, rfl⟩
      | cons first front => exact ⟨(c :: first) :: front, last, rfl, rfl⟩

/-- Text without a separator goes to the first field. -/
theorem exists_fields_prepend {p : Char → Bool} (hbefore : ∀ c ∈ before, p c = false)
    (cs : List Char) : ∃ first rest, fields p cs = first :: rest ∧
      fields p (before ++ cs) = (before ++ first) :: rest := by
  obtain ⟨first, rest, hfields⟩ := List.exists_cons_of_ne_nil (fields_ne_nil p cs)
  refine ⟨first, rest, hfields, ?_⟩
  induction before with
  | nil => exact hfields
  | cons c before ih =>
    rw [List.cons_append, fields_cons_of_neg (hbefore c List.mem_cons_self),
      ih fun d hd => hbefore d (List.mem_cons_of_mem c hd)]
    rfl

/-- Fields are found again between their separators. -/
theorem fields_intercalate {p : Char → Bool} {c : Char} (hc : p c = true)
    {pieces : List (List Char)} (hne : pieces ≠ [])
    (hpieces : ∀ piece ∈ pieces, ∀ d ∈ piece, p d = false) :
    fields p ([c].intercalate pieces) = pieces := by
  induction pieces with
  | nil => exact absurd rfl hne
  | cons piece rest ih =>
    have hpiece := hpieces piece List.mem_cons_self
    cases rest with
    | nil =>
      rw [List.intercalate_singleton]
      exact fields_eq_singleton hpiece
    | cons next rest =>
      rw [List.intercalate_cons_cons, List.append_assoc, List.singleton_append,
        fields_append_sep hpiece hc,
        ih (by simp) fun other hother => hpieces other (List.mem_cons_of_mem piece hother)]

/-- Fields are found again behind separators with one more character, which
then starts every field but the first. -/
theorem fields_intercalate_pair {p : Char → Bool} {c d : Char} (hc : p c = true)
    (hd : p d = false) {first : List Char} {rest : List (List Char)}
    (hfirst : ∀ e ∈ first, p e = false) (hrest : ∀ piece ∈ rest, ∀ e ∈ piece, p e = false) :
    fields p ([c, d].intercalate (first :: rest)) = first :: rest.map (d :: ·) := by
  induction rest generalizing first with
  | nil =>
    rw [List.intercalate_singleton]
    exact fields_eq_singleton hfirst
  | cons next rest ih =>
    have hnext : ∀ e ∈ d :: next, p e = false :=
      List.forall_mem_cons.2 ⟨hd, hrest next List.mem_cons_self⟩
    rw [List.intercalate_cons_cons, List.append_assoc, List.cons_append, List.cons_append,
      List.nil_append, ← List.intercalate_cons_cons_left, fields_append_sep hfirst hc,
      ih hnext fun piece hpiece => hrest piece (List.mem_cons_of_mem next hpiece)]
    rfl

/-- Words are found again between single spaces. -/
theorem words_intercalate {pieces : List (List Char)} (h : ∀ word ∈ pieces, IsSolid word) :
    words ([' '].intercalate pieces) = pieces := by
  by_cases hne : pieces = []
  · rw [hne]
    rfl
  · rw [words, fields_intercalate (by rfl) hne fun word hword => (h word hword).2]
    refine List.filter_eq_self.2 fun word hword => ?_
    simpa using (h word hword).1

/-- Nothing is added to the fields. -/
theorem mem_of_mem_fields {p : Char → Bool} {field : List Char} (h : field ∈ fields p cs)
    {c : Char} (hc : c ∈ field) : c ∈ cs := by
  have hmem : c ∈ (fields p cs).flatten := List.mem_flatten.2 ⟨field, h, hc⟩
  rw [flatten_fields] at hmem
  exact (List.mem_filter.1 hmem).1

theorem mem_of_mem_words {word : List Char} (h : word ∈ words cs) {c : Char} (hc : c ∈ word) :
    c ∈ cs :=
  mem_of_mem_fields (List.mem_filter.1 h).1 hc

/-- Every visible character stands in a word. -/
theorem exists_mem_words {c : Char} (h : c ∈ cs) (hc : isBlank c = false) :
    ∃ word ∈ words cs, c ∈ word := by
  rw [← List.mem_flatten, words, List.flatten_filter_not_isEmpty, flatten_fields]
  exact List.mem_filter.2 ⟨h, by simp [hc]⟩

/-- What is joined comes from the pieces and from between them. -/
theorem mem_intercalate {between : List Char} {pieces : List (List Char)} {c : Char}
    (h : c ∈ between.intercalate pieces) : c ∈ between ∨ ∃ piece ∈ pieces, c ∈ piece := by
  induction pieces with
  | nil => cases h
  | cons piece rest ih =>
    cases rest with
    | nil =>
      rw [List.intercalate_singleton] at h
      exact Or.inr ⟨piece, List.mem_cons_self, h⟩
    | cons next rest =>
      rw [List.intercalate_cons_cons, List.mem_append, List.mem_append] at h
      rcases h with (h | h) | h
      · exact Or.inr ⟨piece, List.mem_cons_self, h⟩
      · exact Or.inl h
      · exact (ih h).imp_right fun ⟨other, hother, hc⟩ =>
          ⟨other, List.mem_cons_of_mem piece hother, hc⟩

/-- What follows joined pieces goes to the last of them. -/
theorem intercalate_append_last (between : List Char) (front : List (List Char))
    (last after : List Char) :
    between.intercalate (front ++ [last]) ++ after =
      between.intercalate (front ++ [last ++ after]) := by
  induction front with
  | nil => rw [List.nil_append, List.nil_append, List.intercalate_singleton,
      List.intercalate_singleton]
  | cons piece front ih =>
    rw [List.cons_append, List.cons_append, List.intercalate_cons_of_ne_nil (by simp),
      List.intercalate_cons_of_ne_nil (by simp), List.append_assoc, ih]

/-! ## Cutting at a character -/

theorem takeWhile_ne {a : Char} {front : List Char} (h : a ∉ front) (rest : List Char) :
    (front ++ a :: rest).takeWhile (fun c => c != a) = front := by
  rw [List.takeWhile_append_of_pos, List.takeWhile_cons_of_neg (by simp), List.append_nil]
  exact fun c hc => bne_iff_ne.2 fun hca => h (hca ▸ hc)

/-- A text is cut at the first place of a character in one way. -/
theorem cut_inj {a : Char} {front rest front' rest' : List Char} (h : a ∉ front)
    (h' : a ∉ front') (heq : front ++ a :: rest = front' ++ a :: rest') :
    front = front' ∧ rest = rest' := by
  have hfront : front = front' := by
    rw [← takeWhile_ne h rest, heq, takeWhile_ne h' rest']
  subst hfront
  exact ⟨rfl, (List.cons.inj (List.append_cancel_left heq)).2⟩

/-! ## Trimming -/

theorem trimStart_blanks_append (h : AreBlanks before) (cs : List Char) :
    trimStart (before ++ cs) = trimStart cs :=
  List.dropWhile_append_of_pos h

theorem trimEnd_append_blanks (h : AreBlanks after) (cs : List Char) :
    trimEnd (cs ++ after) = trimEnd cs := by
  rw [trimEnd, trimEnd, dropEndWhile, dropEndWhile, List.reverse_append,
    List.dropWhile_append_of_pos fun c hc => h c (List.mem_reverse.1 hc)]

/-- Blanks around a text are trimmed with those of the text. -/
theorem trim_padded (hbefore : AreBlanks before) (hafter : AreBlanks after) (cs : List Char) :
    trim (before ++ cs ++ after) = trim cs := by
  have hstart : trimStart (cs ++ after) = trimStart cs ++ after ∨
      trimStart (cs ++ after) = [] ∧ trimStart cs = [] := by
    rw [trimStart, trimStart, List.dropWhile_append]
    split
    · rename_i hnil
      have hblanks := trimStart_blanks_append hafter []
      rw [List.append_nil] at hblanks
      exact Or.inr ⟨hblanks, by simpa using hnil⟩
    · exact Or.inl rfl
  rw [List.append_assoc, trim, trim, trimStart_blanks_append hbefore]
  rcases hstart with hstart | ⟨hstart, hnil⟩
  · rw [hstart, trimEnd_append_blanks hafter]
  · rw [hstart, hnil]

theorem trimEnd_of_getLast? (h : ∀ c ∈ cs.getLast?, isBlank c = false) : trimEnd cs = cs := by
  rw [trimEnd, dropEndWhile]
  cases hcs : cs.reverse with
  | nil => rw [List.reverse_eq_nil_iff.1 hcs]; rfl
  | cons c rest =>
    have hc : isBlank c = false := by
      apply h c
      rw [List.getLast?_eq_head?_reverse, hcs]
      rfl
    rw [List.dropWhile_cons_of_neg (by simp [hc]), ← hcs, List.reverse_reverse]

/-- A text is trimmed if no blanks stand at its ends. -/
theorem trim_of_ends (hhead : ∀ c ∈ cs.head?, isBlank c = false)
    (hlast : ∀ c ∈ cs.getLast?, isBlank c = false) : trim cs = cs := by
  have hstart : trimStart cs = cs := by
    cases cs with
    | nil => rfl
    | cons c cs => exact List.dropWhile_cons_of_neg (by simp [hhead c rfl])
  rw [trim, hstart, trimEnd_of_getLast? hlast]

/-- What trimming takes away. -/
theorem exists_trim (cs : List Char) :
    ∃ before after, AreBlanks before ∧ AreBlanks after ∧ cs = before ++ trim cs ++ after := by
  obtain ⟨after, hafter, hcut⟩ := exists_trimEnd_append (trimStart cs)
  refine ⟨cs.takeWhile isBlank, after, ?_, hafter, ?_⟩
  · exact fun c hc => List.all_eq_true.1 List.all_takeWhile c hc
  · rw [trim, List.append_assoc, ← hcut, trimStart, List.takeWhile_append_dropWhile]

/-- Trimming keeps the words. -/
theorem words_trim (cs : List Char) : words (trim cs) = words cs := by
  obtain ⟨before, after, hbefore, hafter, hcs⟩ := exists_trim cs
  have hwords := words_blanks_end hafter (before ++ trim cs)
  rw [← hcs, words_blanks_append hbefore] at hwords
  exact hwords.symm

/-- Trimming takes away blanks only. -/
theorem mem_trim {c : Char} (h : c ∈ cs) (hc : isBlank c = false) : c ∈ trim cs := by
  obtain ⟨before, after, hbefore, hafter, hcs⟩ := exists_trim cs
  rw [hcs, List.mem_append, List.mem_append] at h
  rcases h with (h | h) | h
  · exact absurd h (not_mem_of_areBlanks hbefore hc)
  · exact h
  · exact absurd h (not_mem_of_areBlanks hafter hc)

/-! ## The last word -/

/-- A text with a word has a last one. -/
theorem exists_last_word (h : ¬ AreBlanks cs) : ∃ front word gap, cs = front ++ word ++ gap ∧
    (∀ c ∈ front.getLast?, isBlank c = true) ∧ IsSolid word ∧ AreBlanks gap := by
  obtain ⟨gap, hgap, hcs⟩ := exists_trimEnd_append cs
  obtain ⟨word, hword, hbody⟩ := exists_dropEndWhile_append (fun c => !isBlank c) (trimEnd cs)
  refine ⟨dropEndWhile (fun c => !isBlank c) (trimEnd cs), word, gap, ?_, ?_, ⟨?_, ?_⟩, hgap⟩
  · rw [← hbody, ← hcs]
  · intro c hc
    simpa using getLast?_dropEndWhile _ _ c hc
  · -- without a word the last character would be a blank and none at once
    rintro rfl
    rw [List.append_nil] at hbody
    cases hlast : (trimEnd cs).getLast? with
    | none =>
      rw [List.getLast?_eq_none_iff.1 hlast, List.nil_append] at hcs
      exact h (hcs ▸ hgap)
    | some c =>
      have hblank : isBlank c = false := getLast?_dropEndWhile isBlank cs c hlast
      have hno := getLast?_dropEndWhile (fun c => !isBlank c) (trimEnd cs) c
        (hbody ▸ Option.mem_def.2 hlast)
      rw [hblank] at hno
      cases hno
  · exact fun c hc => by simpa using hword c hc

/-- The last word comes after the words in front of it. -/
theorem words_append_last {front word gap : List Char}
    (hfront : ∀ c ∈ front.getLast?, isBlank c = true) (hword : IsSolid word)
    (hgap : AreBlanks gap) : words (front ++ word ++ gap) = words front ++ [word] := by
  rw [words_blanks_end hgap]
  rcases List.eq_nil_or_concat front with rfl | ⟨others, c, rfl⟩
  · rw [List.nil_append, words_of_isSolid hword]
    rfl
  · have hc : isBlank c = true := hfront c (by simp)
    rw [List.concat_eq_append, List.append_assoc, List.singleton_append, words_append_blank hc,
      words_append_blank hc, words_of_isSolid hword, words_nil, List.append_nil]

/-- The last of the words of a text. -/
theorem getLast?_words {front word gap : List Char}
    (hfront : ∀ c ∈ front.getLast?, isBlank c = true) (hword : IsSolid word)
    (hgap : AreBlanks gap) : (words (front ++ word ++ gap)).getLast? = some word := by
  rw [words_append_last hfront hword hgap, List.getLast?_concat]

theorem words_eq_nil_iff : words cs = [] ↔ AreBlanks cs := by
  constructor
  · intro h
    by_cases hblanks : AreBlanks cs
    · exact hblanks
    · obtain ⟨front, word, gap, rfl, hfront, hword, hgap⟩ := exists_last_word hblanks
      rw [words_append_last hfront hword hgap] at h
      exact absurd h (List.append_ne_nil_of_right_ne_nil _ (by simp))
  · intro h
    have hwords := words_blanks_append h []
    rwa [List.append_nil, words_nil] at hwords

/-- A text of one word is that word, up to the blanks around it. -/
theorem trim_of_words_singleton {word : List Char} (h : words cs = [word]) : trim cs = word := by
  have hblanks : ¬ AreBlanks cs := by
    intro hblanks
    rw [words_eq_nil_iff.2 hblanks] at h
    cases h
  obtain ⟨front, last, gap, rfl, hfront, hlast, hgap⟩ := exists_last_word hblanks
  rw [words_append_last hfront hlast hgap] at h
  change words front ++ [last] = [] ++ [word] at h
  obtain ⟨hnone, hsame⟩ := List.append_inj' h rfl
  rw [trim_padded (words_eq_nil_iff.1 hnone) hgap, List.singleton_inj.1 hsame]
  have hword : IsUnbroken word := List.singleton_inj.1 hsame ▸ hlast.2
  exact trim_of_ends (fun c hc => hword c (List.mem_of_mem_head? hc))
    fun c hc => hword c (List.mem_of_mem_getLast? hc)

/-! ## Numbers -/

theorem toString_injective : Function.Injective (toString : Nat → String) := by
  intro n m h
  have hdigits : Nat.toDigits 10 n = Nat.toDigits 10 m := by
    simpa only [Nat.toString_eq_repr, Nat.toList_repr] using congrArg String.toList h
  rw [← Nat.ofDigitChars_ten_toDigits (n := n), hdigits, Nat.ofDigitChars_ten_toDigits]

theorem isDigit_of_mem_toString {n : Nat} {c : Char} (h : c ∈ (toString n).toList) :
    c.isDigit = true := by
  rw [Nat.toString_eq_repr, Nat.toList_repr] at h
  exact Nat.isDigit_of_mem_toDigits (by decide) (by decide) h

theorem isBlank_of_isDigit {c : Char} (h : c.isDigit = true) : isBlank c = false := by
  have hbounds : 48 ≤ c.toNat ∧ c.toNat ≤ 57 := by
    simpa [Char.isDigit, UInt32.le_iff_toNat_le] using h
  simp [isBlank]
  omega

end TestSkeleton.Text
