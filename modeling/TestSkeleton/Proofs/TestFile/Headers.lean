import Mathlib.Data.List.TakeWhile
import TestSkeleton.TestFile.CaseNames
import TestSkeleton.Proofs.TestFile.Inserting
import TestSkeleton.Proofs.Text.Words

/-!
# The headers in a text

The names of the cases in a text are those of its headers, which are found
from left to right and do not overlap.

* `Header` is a header, and `header?_eq_some_iff` says that the reader takes
  what starts with one.
* `caseNames_induction` follows the search, header by header.
* `Interrupts` says that a text is in the way of every header that is not
  complete before it.  Joined at such a seam, two texts have the names of both
  (`caseNames_append`), whatever stands in front of the seam.
* A new case is put between two seams, so that its name is all that it adds
  (`caseNames_insertCase`).
-/

namespace TestSkeleton

namespace Text

/-- The code points of the blank characters. -/
def blankPoints : List Nat :=
  [9, 10, 11, 12, 13, 0x20, 0x85, 0xA0, 0x1680, 0x2000, 0x2001, 0x2002, 0x2003, 0x2004, 0x2005,
    0x2006, 0x2007, 0x2008, 0x2009, 0x200A, 0x2028, 0x2029, 0x202F, 0x205F, 0x3000]

theorem mem_blankPoints {c : Char} (h : isBlank c = true) : c.toNat ∈ blankPoints := by
  simp only [isBlank, Bool.or_eq_true, Bool.and_eq_true, decide_eq_true_eq, beq_iff_eq] at h
  simp only [blankPoints, List.mem_cons, List.not_mem_nil, or_false]
  omega

/-- No blank is part of a word. -/
theorem isWord_of_isBlank {c : Char} (h : isBlank c = true) : isWord c = false := by
  have hpoints : ∀ n ∈ blankPoints, isWord (Char.ofNat n) = false := by decide +kernel
  rw [← Char.ofNat_toNat c]
  exact hpoints _ (mem_blankPoints h)

theorem isBlank_of_isWord {c : Char} (h : isWord c = true) : isBlank c = false := by
  rw [Bool.eq_false_iff]
  intro hblank
  rw [isWord_of_isBlank hblank] at h
  cases h

theorem trimStart_eq_nil_iff {cs : List Char} : trimStart cs = [] ↔ AreBlanks cs :=
  List.dropWhile_eq_nil_iff

theorem trimStart_of_not_isBlank {c : Char} (h : isBlank c = false) (cs : List Char) :
    trimStart (c :: cs) = c :: cs :=
  List.dropWhile_cons_of_neg (by simp [h])

/-- Blanks at the start hide what follows, and any other text stays in front
of it. -/
theorem trimStart_append_cases (cs tail : List Char) :
    (AreBlanks cs ∧ trimStart (cs ++ tail) = trimStart tail) ∨
      ∃ c rest, trimStart cs = c :: rest ∧ trimStart (cs ++ tail) = c :: (rest ++ tail) := by
  cases hcs : trimStart cs with
  | nil =>
    have hblanks := trimStart_eq_nil_iff.1 hcs
    exact Or.inl ⟨hblanks, trimStart_blanks_append hblanks tail⟩
  | cons c rest =>
    refine Or.inr ⟨c, rest, rfl, ?_⟩
    rw [trimStart, List.dropWhile_append]
    rw [trimStart] at hcs
    rw [hcs]
    rfl

end Text

namespace TestFile

variable {cs rest tail name : List Char} {p : Char}

/-! ## Headers -/

/-- Whether some characters are a name: a letter or an underscore, and word
characters after it. -/
def IsName : List Char → Prop
  | [] => False
  | c :: cs => Text.isNameStart c = true ∧ ∀ d ∈ cs, Text.isWord d = true

instance : DecidablePred IsName
  | [] => inferInstanceAs (Decidable False)
  | c :: cs =>
    have := List.decidableBAll (fun d => Text.isWord d = true) cs
    inferInstanceAs (Decidable (Text.isNameStart c = true ∧ _))

theorem IsName.exists_cons (h : IsName name) : ∃ c rest, name = c :: rest ∧
    Text.isNameStart c = true ∧ ∀ d ∈ rest, Text.isWord d = true := by
  cases name with
  | nil => exact h.elim
  | cons c rest => exact ⟨c, rest, rfl, h⟩

theorem IsName.isWord (h : IsName name) : ∀ c ∈ name, Text.isWord c = true := by
  obtain ⟨c, rest, rfl, hstart, hrest⟩ := h.exists_cons
  intro d hd
  rcases List.mem_cons.1 hd with rfl | hd
  · exact Text.isWord_of_isNameStart hstart
  · exact hrest d hd

theorem isName_headerKeyword : IsName headerKeyword := by
  decide

/-- Blanks inside a header, or none. -/
abbrev Gap := { chars : List Char // Text.AreBlanks chars }

/-- A header: the keyword and, in parentheses, two names with a comma between
them. -/
structure Header where
  beforeOpen : Gap := ⟨[], Text.areBlanks_nil⟩
  beforeFixture : Gap := ⟨[], Text.areBlanks_nil⟩
  fixture : List Char
  beforeComma : Gap := ⟨[], Text.areBlanks_nil⟩
  beforeName : Gap := ⟨[], Text.areBlanks_nil⟩
  name : List Char
  beforeClose : Gap := ⟨[], Text.areBlanks_nil⟩
  isFixture : IsName fixture
  isName : IsName name

/-- The text of a header. -/
def Header.chars (header : Header) : List Char :=
  headerKeyword ++ (header.beforeOpen.1 ++ '(' :: (header.beforeFixture.1 ++ (header.fixture ++
    (header.beforeComma.1 ++ ',' :: (header.beforeName.1 ++ (header.name ++
      (header.beforeClose.1 ++ [')'])))))))

theorem headerKeyword_eq :
    headerKeyword = ['T', 'Y', 'P', 'E', 'D', '_', 'T', 'E', 'S', 'T'] := by
  decide

theorem Header.head?_chars (header : Header) : header.chars.head? = some 'T' := by
  rw [chars, headerKeyword_eq]
  rfl

theorem Header.chars_ne_nil (header : Header) : header.chars ≠ [] :=
  fun hnil => nomatch hnil ▸ header.head?_chars

/-! ## Reading a header -/

theorem after?_eq_some_iff {expected : List Char} :
    after? expected cs = some rest ↔ cs = expected ++ rest := by
  induction expected generalizing cs with
  | nil => simp [after?]
  | cons e expected ih =>
    cases cs with
    | nil => simp [after?]
    | cons c cs =>
      rw [after?]
      split
      · rename_i h
        simp [ih, h]
      · rename_i h
        simp [Ne.symm h]

theorem punctuation?_eq_some_iff (hp : Text.isBlank p = false) :
    punctuation? p cs = some rest ↔ ∃ blanks, Text.AreBlanks blanks ∧ cs = blanks ++ p :: rest := by
  rw [punctuation?, after?_eq_some_iff]
  constructor
  · intro h
    refine ⟨cs.takeWhile Text.isBlank, fun c hc => List.all_eq_true.1 List.all_takeWhile c hc, ?_⟩
    rw [Text.trimStart] at h
    rw [← List.singleton_append, ← h, List.takeWhile_append_dropWhile]
  · rintro ⟨blanks, hblanks, rfl⟩
    rw [Text.trimStart_blanks_append hblanks, Text.trimStart_of_not_isBlank hp]
    rfl

theorem name?_eq_some_iff : name? cs = some (name, rest) ↔
    IsName name ∧ cs = name ++ rest ∧ ∀ c ∈ rest.head?, Text.isWord c = false := by
  constructor
  · intro h
    cases cs with
    | nil => cases h
    | cons c cs =>
      rw [name?] at h
      split at h
      · rename_i hstart
        cases h
        refine ⟨⟨hstart, fun d hd => List.all_eq_true.1 List.all_takeWhile d hd⟩, ?_, ?_⟩
        · rw [List.cons_append, List.takeWhile_append_dropWhile]
        · intro d hd
          have hnot := List.head?_dropWhile_not Text.isWord cs
          rw [Option.mem_def.1 hd] at hnot
          simpa using hnot
      · cases h
  · rintro ⟨hname, rfl, hrest⟩
    obtain ⟨c, more, rfl, hstart, hmore⟩ := hname.exists_cons
    have hnone : rest.takeWhile Text.isWord = [] ∧ rest.dropWhile Text.isWord = rest := by
      cases rest with
      | nil => exact ⟨rfl, rfl⟩
      | cons d rest =>
        have hd := hrest d rfl
        simp [hd]
    rw [List.cons_append, name?, if_pos hstart, List.takeWhile_append_of_pos hmore,
      List.dropWhile_append_of_pos hmore, hnone.1, hnone.2, List.append_nil]

theorem nextName?_eq_some_iff : nextName? cs = some (name, rest) ↔
    ∃ blanks, Text.AreBlanks blanks ∧ IsName name ∧ cs = blanks ++ (name ++ rest) ∧
      ∀ c ∈ rest.head?, Text.isWord c = false := by
  rw [nextName?, name?_eq_some_iff]
  constructor
  · rintro ⟨hname, hcs, hrest⟩
    refine ⟨cs.takeWhile Text.isBlank, fun c hc => List.all_eq_true.1 List.all_takeWhile c hc,
      hname, ?_, hrest⟩
    rw [Text.trimStart] at hcs
    rw [← hcs, List.takeWhile_append_dropWhile]
  · rintro ⟨blanks, hblanks, hname, rfl, hrest⟩
    refine ⟨hname, ?_, hrest⟩
    obtain ⟨c, more, rfl, hstart, -⟩ := hname.exists_cons
    have hc := Text.isBlank_of_isWord (Text.isWord_of_isNameStart hstart)
    rw [Text.trimStart_blanks_append hblanks, List.cons_append, Text.trimStart_of_not_isBlank hc]

/-- A name ends where blanks or a mark follow. -/
theorem not_isWord_head?_gap {blanks : List Char} (hblanks : Text.AreBlanks blanks)
    (hp : Text.isWord p = false) (rest : List Char) :
    ∀ c ∈ (blanks ++ p :: rest).head?, Text.isWord c = false := by
  cases blanks with
  | nil => simpa using hp
  | cons b blanks => simpa using Text.isWord_of_isBlank (hblanks b List.mem_cons_self)

/-- A name and the mark after it. -/
def nameThen? (p : Char) (cs : List Char) : Option (List Char × List Char) :=
  (nextName? cs).bind fun (name, rest) => (punctuation? p rest).map fun rest => (name, rest)

theorem nameThen?_eq_some_iff (hp : Text.isBlank p = false) (hword : Text.isWord p = false) :
    nameThen? p cs = some (name, rest) ↔ ∃ before after : Gap, IsName name ∧
      cs = before.1 ++ (name ++ (after.1 ++ p :: rest)) := by
  rw [nameThen?, Option.bind_eq_some_iff]
  constructor
  · rintro ⟨⟨read, middle⟩, hread, hmark⟩
    obtain ⟨last, hlast, hsame⟩ := Option.map_eq_some_iff.1 hmark
    cases hsame
    obtain ⟨before, hbefore, hname, hcs, -⟩ := nextName?_eq_some_iff.1 hread
    obtain ⟨after, hafter, rfl⟩ := (punctuation?_eq_some_iff hp).1 hlast
    exact ⟨⟨before, hbefore⟩, ⟨after, hafter⟩, hname, hcs⟩
  · rintro ⟨before, after, hname, rfl⟩
    refine ⟨(name, after.1 ++ p :: rest), ?_, ?_⟩
    · exact nextName?_eq_some_iff.2
        ⟨before.1, before.2, hname, rfl, not_isWord_head?_gap after.2 hword rest⟩
    · exact Option.map_eq_some_iff.2
        ⟨rest, (punctuation?_eq_some_iff hp).2 ⟨after.1, after.2, rfl⟩, rfl⟩

theorem header?_eq (cs : List Char) : header? cs =
    (after? headerKeyword cs).bind fun cs => (punctuation? '(' cs).bind fun cs =>
      (nameThen? ',' cs).bind fun (_, cs) => nameThen? ')' cs := by
  simp only [header?, nameThen?, Option.bind_eq_bind, Option.pure_def, Option.bind_assoc,
    Option.map_eq_bind]
  rfl

/-- What is read as a header is one. -/
theorem header?_eq_some_iff : header? cs = some (name, rest) ↔
    ∃ header : Header, header.name = name ∧ cs = header.chars ++ rest := by
  rw [header?_eq, Option.bind_eq_some_iff]
  constructor
  · rintro ⟨cs₁, hkeyword, h⟩
    obtain ⟨cs₂, hopen, h⟩ := Option.bind_eq_some_iff.1 h
    obtain ⟨⟨fixture, cs₃⟩, hfixture, hname⟩ := Option.bind_eq_some_iff.1 h
    obtain rfl := after?_eq_some_iff.1 hkeyword
    obtain ⟨gap₁, hgap₁, rfl⟩ := (punctuation?_eq_some_iff (by rfl)).1 hopen
    obtain ⟨gap₂, gap₃, isFixture, rfl⟩ :=
      (nameThen?_eq_some_iff (by rfl) (by rfl)).1 hfixture
    obtain ⟨gap₄, gap₅, isName, rfl⟩ := (nameThen?_eq_some_iff (by rfl) (by rfl)).1 hname
    refine ⟨⟨⟨gap₁, hgap₁⟩, gap₂, fixture, gap₃, gap₄, name, gap₅, isFixture, isName⟩, rfl, ?_⟩
    simp [Header.chars]
  · rintro ⟨header, rfl, rfl⟩
    simp only [Header.chars, List.append_assoc, List.cons_append, List.nil_append]
    refine ⟨_, after?_eq_some_iff.2 rfl, ?_⟩
    rw [(punctuation?_eq_some_iff (by rfl)).2 ⟨_, header.beforeOpen.2, rfl⟩, Option.bind_some,
      (nameThen?_eq_some_iff (by rfl) (by rfl)).2 ⟨_, _, header.isFixture, rfl⟩, Option.bind_some]
    exact (nameThen?_eq_some_iff (by rfl) (by rfl)).2 ⟨_, _, header.isName, rfl⟩

/-! ## The search -/

theorem caseNamesFrom_eq (skip : Nat) (cs : List Char) :
    caseNamesFrom skip cs = caseNames (cs.drop skip) := by
  induction cs generalizing skip with
  | nil => rw [List.drop_nil]; rfl
  | cons c cs ih =>
    cases skip with
    | zero => rfl
    | succ skip => exact ih skip

/-- After a header the search goes on behind it. -/
theorem caseNames_of_header (header : Header) (rest : List Char) :
    caseNames (header.chars ++ rest) = header.name :: caseNames rest := by
  have hread : header? (header.chars ++ rest) = some (header.name, rest) :=
    header?_eq_some_iff.2 ⟨header, rfl, rfl⟩
  obtain ⟨c, chars, hchars⟩ := List.exists_cons_of_ne_nil header.chars_ne_nil
  rw [hchars, List.cons_append] at hread ⊢
  rw [caseNames, caseNamesFrom, hread]
  simp only
  rw [caseNamesFrom_eq, List.length_append, Nat.add_sub_cancel, List.drop_left]

/-- Without a header the search goes on behind the first character. -/
theorem caseNames_of_none {c : Char} (h : header? (c :: cs) = none) :
    caseNames (c :: cs) = caseNames cs := by
  rw [caseNames, caseNamesFrom, h]
  rfl

/-- Every text ends, starts with a header, or has no header at its first
character. -/
@[elab_as_elim]
theorem caseNames_induction {motive : List Char → Prop} (nil : motive [])
    (header : ∀ (header : Header) (rest : List Char), motive rest → motive (header.chars ++ rest))
    (other : ∀ c cs, header? (c :: cs) = none → motive cs → motive (c :: cs))
    (cs : List Char) : motive cs := by
  induction hlength : cs.length using Nat.strongRecOn generalizing cs with
  | ind n ih =>
    cases hread : header? cs with
    | some found =>
      obtain ⟨first, -, rfl⟩ := header?_eq_some_iff.1 hread
      have hpos := List.length_pos_iff.2 first.chars_ne_nil
      rw [List.length_append] at hlength
      exact header first found.2 (ih _ (by omega) _ rfl)
    | none =>
      cases cs with
      | nil => exact nil
      | cons c cs =>
        rw [List.length_cons] at hlength
        exact other c cs hread (ih _ (by omega) _ rfl)

/-- Every name is that of a header in the text. -/
theorem exists_header_of_mem (h : name ∈ caseNames cs) :
    ∃ header : Header, header.name = name ∧ header.chars <:+: cs := by
  induction cs using caseNames_induction with
  | nil => cases h
  | header first rest ih =>
    rw [caseNames_of_header] at h
    rcases List.mem_cons.1 h with rfl | h
    · exact ⟨first, rfl, (List.prefix_append _ _).isInfix⟩
    · obtain ⟨found, hname, hwithin⟩ := ih h
      exact ⟨found, hname, hwithin.trans (List.suffix_append _ _).isInfix⟩
  | other c cs hnone ih =>
    rw [caseNames_of_none hnone] at h
    obtain ⟨found, hname, hwithin⟩ := ih h
    exact ⟨found, hname, hwithin.trans (List.suffix_cons c cs).isInfix⟩

theorem caseNames_eq_nil (h : ∀ header : Header, ¬ header.chars <:+: cs) : caseNames cs = [] := by
  refine List.eq_nil_iff_forall_not_mem.2 fun name hname => ?_
  obtain ⟨header, -, hwithin⟩ := exists_header_of_mem hname
  exact h header hwithin

/-! ## Seams -/

/-- Whether a text is in the way of every header that is not complete before
it: no word goes on in it, and neither a mark of a header nor a name with such
a mark comes next. -/
structure Interrupts (tail : List Char) : Prop where
  word : ∀ c ∈ tail.head?, Text.isWord c = false
  mark : ∀ p ∈ ['(', ',', ')'], punctuation? p tail = none
  name : ∀ p ∈ [',', ')'], nameThen? p tail = none

theorem after?_append {expected : List Char} (htail : ∀ c ∈ tail.head?, Text.isWord c = false)
    (hexpected : ∀ e ∈ expected, Text.isWord e = true) (cs : List Char) :
    after? expected (cs ++ tail) = (after? expected cs).map (· ++ tail) := by
  induction expected generalizing cs with
  | nil => rfl
  | cons e expected ih =>
    cases cs with
    | cons c cs =>
      rw [List.cons_append, after?, after?]
      split
      · exact ih (fun d hd => hexpected d (List.mem_cons_of_mem e hd)) cs
      · rfl
    | nil =>
      -- the keyword would go on with what is no word
      cases tail with
      | nil => rfl
      | cons c tail =>
        have hne : e ≠ c := by
          rintro rfl
          have hc := htail e rfl
          rw [hexpected e List.mem_cons_self] at hc
          cases hc
        rw [List.nil_append]
        exact if_neg hne

theorem punctuation?_append (htail : punctuation? p tail = none) (cs : List Char) :
    punctuation? p (cs ++ tail) = (punctuation? p cs).map (· ++ tail) := by
  rw [punctuation?] at htail
  rw [punctuation?, punctuation?]
  rcases Text.trimStart_append_cases cs tail with ⟨hblanks, hcs⟩ | ⟨c, rest, hcs, happend⟩
  · rw [hcs, htail, Text.trimStart_eq_nil_iff.2 hblanks]
    rfl
  · rw [hcs, happend]
    by_cases hc : p = c <;> simp [after?, hc]

theorem name?_append (htail : ∀ c ∈ tail.head?, Text.isWord c = false) (c : Char)
    (cs : List Char) : name? (c :: (cs ++ tail)) =
      (name? (c :: cs)).map fun (name, rest) => (name, rest ++ tail) := by
  cases hread : name? (c :: cs) with
  | none =>
    have hstart : ¬ Text.isNameStart c = true := by
      intro hstart
      rw [name?, if_pos hstart] at hread
      cases hread
    rw [name?, if_neg hstart]
    rfl
  | some found =>
    obtain ⟨name, rest⟩ := found
    obtain ⟨hname, hcs, hrest⟩ := name?_eq_some_iff.1 hread
    refine name?_eq_some_iff.2 ⟨hname, ?_, ?_⟩
    · rw [← List.append_assoc, ← hcs, List.cons_append]
    · cases rest with
      | nil => exact htail
      | cons d rest => exact hrest

theorem nameThen?_append (h : Interrupts tail) (hp : p ∈ [',', ')']) (cs : List Char) :
    nameThen? p (cs ++ tail) =
      (nameThen? p cs).map fun (name, rest) => (name, rest ++ tail) := by
  have hnone := h.name p hp
  rw [nameThen?, nextName?] at hnone
  rw [nameThen?, nameThen?, nextName?, nextName?]
  rcases Text.trimStart_append_cases cs tail with ⟨hblanks, hcs⟩ | ⟨c, rest, hcs, happend⟩
  · rw [hcs, hnone, Text.trimStart_eq_nil_iff.2 hblanks]
    rfl
  · rw [hcs, happend, name?_append h.word]
    cases name? (c :: rest) with
    | none => rfl
    | some found =>
      simp only [Option.map_some, Option.bind_some]
      rw [punctuation?_append (h.mark p (List.mem_cons_of_mem _ hp)), Option.map_map,
        Option.map_map]
      rfl

/-- A header that is not complete before a seam is none. -/
theorem header?_append (h : Interrupts tail) (cs : List Char) :
    header? (cs ++ tail) = (header? cs).map fun (name, rest) => (name, rest ++ tail) := by
  rw [header?_eq, header?_eq, after?_append h.word isName_headerKeyword.isWord]
  cases after? headerKeyword cs with
  | none => rfl
  | some cs =>
    simp only [Option.map_some, Option.bind_some]
    rw [punctuation?_append (h.mark '(' (by decide))]
    cases punctuation? '(' cs with
    | none => rfl
    | some cs =>
      simp only [Option.map_some, Option.bind_some]
      rw [nameThen?_append h (by decide)]
      cases nameThen? ',' cs with
      | none => rfl
      | some found =>
        simp only [Option.map_some, Option.bind_some]
        exact nameThen?_append h (by decide) found.2

/-- The names on both sides of a seam. -/
theorem caseNames_append (h : Interrupts tail) (cs : List Char) :
    caseNames (cs ++ tail) = caseNames cs ++ caseNames tail := by
  induction cs using caseNames_induction with
  | nil => rfl
  | header header rest ih =>
    rw [List.append_assoc, caseNames_of_header, caseNames_of_header, ih, List.cons_append]
  | other c cs hnone ih =>
    have hnone' : header? (c :: (cs ++ tail)) = none := by
      rw [← List.cons_append, header?_append h, hnone]
      rfl
    rw [List.cons_append, caseNames_of_none hnone', caseNames_of_none hnone, ih]

/-- A character that is in no header. -/
structure IsForeign (c : Char) : Prop where
  isBlank : Text.isBlank c = false
  isWord : Text.isWord c = false
  isMark : c ∉ ['(', ',', ')']

theorem isForeign_openBrace : IsForeign '\x7b' :=
  ⟨rfl, rfl, by decide⟩

theorem isForeign_closeBrace : IsForeign '\x7d' :=
  ⟨rfl, rfl, by decide⟩

theorem IsForeign.interrupts {c : Char} (h : IsForeign c) (rest : List Char) :
    Interrupts (c :: rest) := by
  have htrim := Text.trimStart_of_not_isBlank h.isBlank rest
  refine ⟨?_, ?_, ?_⟩
  · simpa using h.isWord
  · intro p hp
    have hne : p ≠ c := fun hsame => h.isMark (hsame ▸ hp)
    rw [punctuation?, htrim]
    exact if_neg hne
  · intro p hp
    have hstart : ¬ Text.isNameStart c = true := by
      intro hstart
      have hword := h.isWord
      rw [Text.isWord_of_isNameStart hstart] at hword
      cases hword
    rw [nameThen?, nextName?, htrim, name?, if_neg hstart]
    rfl

theorem interrupts_of_areBlanks (h : Text.AreBlanks tail) : Interrupts tail := by
  have htrim := Text.trimStart_eq_nil_iff.2 h
  refine ⟨?_, ?_, ?_⟩
  · intro c hc
    exact Text.isWord_of_isBlank (h c (List.mem_of_head? hc))
  · intro p hp
    rw [punctuation?, htrim]
    rfl
  · intro p hp
    rw [nameThen?, nextName?, htrim]
    rfl

/-- A name that is followed by an open parenthesis goes on with no header. -/
theorem interrupts_call {blanks : List Char} (hblanks : Text.AreBlanks blanks)
    (hne : blanks ≠ []) (hname : IsName name) (rest : List Char) :
    Interrupts (blanks ++ (name ++ '(' :: rest)) := by
  refine ⟨?_, ?_, ?_⟩
  · obtain ⟨b, more, rfl⟩ := List.exists_cons_of_ne_nil hne
    simpa using Text.isWord_of_isBlank (hblanks b List.mem_cons_self)
  · intro p hp
    obtain ⟨c, more, rfl, hstart, -⟩ := hname.exists_cons
    have hword := Text.isWord_of_isNameStart hstart
    have hmark : Text.isWord p = false := by
      simp only [List.mem_cons, List.not_mem_nil, or_false] at hp
      rcases hp with rfl | rfl | rfl <;> rfl
    have hp' : p ≠ c := by
      rintro rfl
      rw [hmark] at hword
      cases hword
    rw [punctuation?, Text.trimStart_blanks_append hblanks, List.cons_append,
      Text.trimStart_of_not_isBlank (Text.isBlank_of_isWord hword)]
    exact if_neg hp'
  · intro p hp
    have hread : nextName? (blanks ++ (name ++ '(' :: rest)) = some (name, '(' :: rest) :=
      nextName?_eq_some_iff.2 ⟨blanks, hblanks, hname, rfl, by simp; rfl⟩
    have hp' : p ≠ '(' := by
      rintro rfl
      exact absurd hp (by decide)
    have hmark : punctuation? p ('(' :: rest) = none := by
      rw [punctuation?, Text.trimStart_of_not_isBlank (by rfl)]
      exact if_neg hp'
    simp only [nameThen?, hread, Option.bind_some, hmark, Option.map_none]

/-- Trailing blanks hold no part of a header. -/
theorem caseNames_trimEnd (cs : List Char) : caseNames (Text.trimEnd cs) = caseNames cs := by
  obtain ⟨blanks, hblanks, hcs⟩ := Text.exists_trimEnd_append cs
  have hnone : caseNames blanks = [] := by
    refine caseNames_eq_nil fun header hwithin => ?_
    cases hblanks 'T' (hwithin.subset (List.mem_of_head? header.head?_chars))
  have hjoin := caseNames_append (interrupts_of_areBlanks hblanks) (Text.trimEnd cs)
  rw [← hcs, hnone, List.append_nil] at hjoin
  exact hjoin.symm

theorem caseNames_cons {c : Char} (hc : c ≠ 'T') (cs : List Char) :
    caseNames (c :: cs) = caseNames cs := by
  refine caseNames_of_none (Option.eq_none_iff_forall_ne_some.2 fun found hread => ?_)
  obtain ⟨header, -, hcs⟩ := header?_eq_some_iff.1 hread
  have hhead := congrArg List.head? hcs
  rw [List.head?_append, header.head?_chars] at hhead
  exact hc (Option.some.inj hhead)

/-! ## A new case -/

/-- The text of a header without blanks, from any two texts. -/
def headerChars (fixture name : List Char) : List Char :=
  headerKeyword ++ '(' :: (fixture ++ ',' :: (name ++ [')']))

/-- The text of a case. -/
def caseChars (fixture name body : List Char) : List Char :=
  headerChars fixture name ++ '\x7b' :: (body ++ ['\x7d'])

variable {fixture body front back : List Char}

theorem caseNames_headerChars (hfixture : IsName fixture) (hname : IsName name) :
    caseNames (headerChars fixture name) = [name] := by
  have hheader := caseNames_of_header
    { fixture := fixture, name := name, isFixture := hfixture, isName := hname } []
  rw [List.append_nil] at hheader
  exact hheader

/-- The names in a case are those in its header and in its body. -/
theorem caseNames_caseChars (fixture name body : List Char) :
    caseNames (caseChars fixture name body) =
      caseNames (headerChars fixture name) ++ caseNames body := by
  rw [caseChars, caseNames_append (isForeign_openBrace.interrupts _),
    caseNames_cons (by decide), caseNames_append (isForeign_closeBrace.interrupts []),
    caseNames_cons (by decide)]
  exact congrArg _ (List.append_nil _)

theorem caseNames_front (front back : List Char) :
    caseNames (front ++ '\x7d' :: back) = caseNames front ++ caseNames ('\x7d' :: back) :=
  caseNames_append (isForeign_closeBrace.interrupts back) front

/-- A case that stands after blanks goes on with no header. -/
theorem interrupts_caseChars {blanks : List Char} (hblanks : Text.AreBlanks blanks)
    (hne : blanks ≠ []) (fixture name body : List Char) :
    Interrupts (blanks ++ caseChars fixture name body) := by
  have hcase : caseChars fixture name body = headerKeyword ++ '(' ::
      (fixture ++ ',' :: (name ++ [')']) ++ '\x7b' :: (body ++ ['\x7d'])) := by
    simp [caseChars, headerChars]
  rw [hcase]
  exact interrupts_call hblanks hne isName_headerKeyword _

/-- A brace at the start of a line. -/
theorem caseNames_closingLine (front back : List Char) :
    caseNames (front ++ ['\n'] ++ '\x7d' :: back) =
      caseNames front ++ caseNames ('\x7d' :: back) := by
  rw [caseNames_front, caseNames_append (interrupts_of_areBlanks (by decide)),
    caseNames_cons (by decide)]
  exact congrArg (· ++ _) (List.append_nil _)

/-- A case brings its names along, wherever it is put. -/
theorem caseNames_insert (front fixture name body back : List Char) :
    caseNames (Text.trimEnd front ++ ['\n', '\n'] ++ caseChars fixture name body ++ ['\n'] ++
        '\x7d' :: back) =
      caseNames front ++ caseNames (caseChars fixture name body) ++
        caseNames ('\x7d' :: back) := by
  have hlineEnds : Text.AreBlanks ['\n', '\n'] := by decide
  rw [caseNames_closingLine, List.append_assoc (Text.trimEnd front),
    caseNames_append (interrupts_caseChars hlineEnds (by decide) fixture name body),
    caseNames_trimEnd]
  show _ ++ caseNames ('\n' :: '\n' :: caseChars fixture name body) ++ _ = _
  rw [caseNames_cons (by decide), caseNames_cons (by decide)]

/-- Inserting a case whose body holds no header adds exactly its name, between
the names in front of the place of the case and those behind it.  It does not
matter how the text in front of that place ends, also if it ends in the middle
of a header. -/
theorem caseNames_insertCase {text : List Char} {offset : Nat}
    (h : insertionPoint text = .ok offset) (hfixture : IsName fixture) (hname : IsName name)
    (hbody : ∀ header : Header, ¬ header.chars <:+: body) :
    ∃ front back out, text = front ++ back ∧ Text.byteLength front = offset ∧
      insertCase text (caseChars fixture name body) = .ok out ∧
      caseNames out = caseNames front ++ [name] ++ caseNames back ∧
      caseNames text = caseNames front ++ caseNames back := by
  obtain ⟨front, back, rfl, hlength, hfront, hback⟩ := insertionPoint_eq_ok_iff.1 h
  refine ⟨front, '\x7d' :: back, _, rfl, hlength, insertCase_eq hfront hback _, ?_,
    caseNames_front front back⟩
  rw [caseNames_insert, caseNames_caseChars, caseNames_headerChars hfixture hname,
    caseNames_eq_nil hbody, List.append_nil]

/-- A text with a header that is broken off in front of the last brace, and
one in a comment behind it. -/
def cutHeader : List Char :=
  "namespace a \x7b\nTYPED_TEST(A,B)\nTYPED_TEST ( A,\n\x7d // TYPED_TEST(A,C)".toList

theorem caseNames_insertCase_cutHeader :
    insertionPoint cutHeader = .ok 46 ∧ IsName ['A'] ∧ IsName ['D'] ∧
      (∀ header : Header, ¬ header.chars <:+: "\n\tRun();\n".toList) ∧
      ∃ front back out, cutHeader = front ++ back ∧ Text.byteLength front = 46 ∧
        insertCase cutHeader (caseChars ['A'] ['D'] "\n\tRun();\n".toList) = .ok out ∧
        caseNames out = caseNames front ++ [['D']] ++ caseNames back ∧
        caseNames cutHeader = caseNames front ++ caseNames back := by
  have hpoint : insertionPoint cutHeader = .ok 46 := by decide +kernel
  have hfixture : IsName ['A'] := by decide
  have hname : IsName ['D'] := by decide
  have hbody : ∀ header : Header, ¬ header.chars <:+: "\n\tRun();\n".toList := by
    intro header hwithin
    exact absurd (hwithin.subset (List.mem_of_head? header.head?_chars)) (by decide)
  exact ⟨hpoint, hfixture, hname, hbody, caseNames_insertCase hpoint hfixture hname hbody⟩

example : caseNames cutHeader = [['B'], ['C']] := by
  decide +kernel

end TestFile

end TestSkeleton
