import TestSkeleton.Proofs.TestFile.Inserting

/-!
# Lines of code with pasted text

Generated text is code with a few braces and literals of known shape and,
pasted between them, text that comes from elsewhere.

* `StaysCode` is the composition of code: after any word it is read as code
  and leads from one depth to another.  Braces may stand in it, but no
  literals and no comments (`StaysCode.of_bracesDepth?`).
* `Mode.EndsAt` is the composition of lines.  `EndsLine` asks of pasted text
  only that its line ends as code, with the blocks that were open, so that it
  may hold literals and comments, and `Mode.EndsAt.paste` is a line with such
  text at its end.
* Text without marks and names between double quotes end their line
  (`StaysCode.endsLine`, `IsQuotable.endsLine`).
-/

namespace TestSkeleton.TestFile

/-! ## Text that stays code -/

/-- Whether a text that follows any word of code leads from `depth` to code
at `depth'`. -/
def StaysCode (depth : Nat) (cs : List Char) (depth' : Nat) : Prop :=
  ∀ word, (∃ word', (Mode.code word).after cs = .code word') ∧
    (Mode.code word).depth? depth cs = some depth'

/-- Whether a text holds no character that means something in code. -/
def IsPlain (cs : List Char) : Prop :=
  ∀ c ∈ cs, isMark c = false

instance (cs : List Char) : Decidable (IsPlain cs) :=
  List.decidableBAll (fun c => isMark c = false) cs

@[simp] theorem isPlain_append {cs ds : List Char} :
    IsPlain (cs ++ ds) ↔ IsPlain cs ∧ IsPlain ds := by
  simp only [IsPlain, List.mem_append, or_imp, forall_and]

/-- Whether a text may stand between double quotes as it is. -/
def IsQuotable (cs : List Char) : Prop :=
  ∀ c ∈ cs, c ≠ '"' ∧ c ≠ '\\' ∧ c ≠ '\n'

instance (cs : List Char) : Decidable (IsQuotable cs) :=
  List.decidableBAll (fun c => c ≠ '"' ∧ c ≠ '\\' ∧ c ≠ '\n') cs

/-- A literal goes on after such text. -/
theorem IsQuotable.literal {cs : List Char} (h : IsQuotable cs) (depth : Nat) :
    (Mode.literal '"' false).after cs = .literal '"' false ∧
      (Mode.literal '"' false).depth? depth cs = some depth := by
  induction cs with
  | nil => exact ⟨rfl, rfl⟩
  | cons c cs ih =>
    obtain ⟨hquote, hescape, hend⟩ := h c (by simp)
    have hnext : (Mode.literal '"' false).next c = .literal '"' false := by
      simp [Mode.next, Mode.nextLiteral, hquote, hescape, hend]
    rw [Mode.after_cons, Mode.depth?_cons, hnext]
    exact ih fun d hd => h d (by simp [hd])

/-- The number of open blocks after a text whose only marks are braces. -/
def bracesDepth? (depth : Nat) : List Char → Option Nat
  | [] => some depth
  | c :: cs =>
    if c == '/' || c == '\'' || c == '"' then none
    else ((Mode.effectCode c).depth? depth).bind fun depth => bracesDepth? depth cs

namespace StaysCode

theorem append {depth between depth' : Nat} {cs ds : List Char} (hcs : StaysCode depth cs between)
    (hds : StaysCode between ds depth') : StaysCode depth (cs ++ ds) depth' := by
  intro word
  obtain ⟨⟨word1, hmode1⟩, hdepth1⟩ := hcs word
  obtain ⟨⟨word2, hmode2⟩, hdepth2⟩ := hds word1
  refine ⟨⟨word2, ?_⟩, ?_⟩
  · rw [Mode.after_append, hmode1, hmode2]
  · rw [Mode.depth?_append, hdepth1, hmode1]
    exact hdepth2

theorem of_bracesDepth? {depth depth' : Nat} {cs : List Char}
    (h : bracesDepth? depth cs = some depth') : StaysCode depth cs depth' := by
  intro word
  induction cs generalizing depth word with
  | nil =>
    simp only [bracesDepth?, Option.some.injEq] at h
    exact ⟨⟨word, rfl⟩, by rw [Mode.depth?_nil, h]⟩
  | cons c cs ih =>
    simp only [bracesDepth?] at h
    split at h
    · cases h
    · rename_i hmark
      simp only [Bool.or_eq_true, beq_iff_eq, not_or] at hmark
      obtain ⟨⟨hslash, hsingle⟩, hdouble⟩ := hmark
      have hnext : ∃ word', (Mode.code word).next c = .code word' := by
        cases hw : Text.isAsciiWord c with
        | true => exact ⟨c :: word, by simp [Mode.next, Mode.nextCode, hw]⟩
        | false => exact ⟨[], by simp [Mode.next, Mode.nextCode, hw, hslash, hsingle, hdouble]⟩
      obtain ⟨word', hnext⟩ := hnext
      obtain ⟨between, hbetween, hrest⟩ := Option.bind_eq_some_iff.1 h
      have heffect : (Mode.code word).effect c = Mode.effectCode c := rfl
      rw [Mode.after_cons, Mode.depth?_cons, heffect, hbetween, hnext]
      exact ih hrest word'

theorem of_plain {cs : List Char} (h : IsPlain cs) (depth : Nat) : StaysCode depth cs depth := by
  apply of_bracesDepth?
  induction cs with
  | nil => rfl
  | cons c cs ih =>
    have hmark := h c (by simp)
    simp only [isMark, Bool.or_eq_false_iff] at hmark
    have heffect : (Mode.effectCode c).depth? depth = some depth := by
      simp only [Mode.effectCode, hmark]
      cases Text.isBlank c <;> rfl
    simp only [bracesDepth?, hmark, heffect]
    exact ih fun d hd => h d (by simp [hd])

end StaysCode

/-! ## Lines -/

/-- Whether a text leads from a mode at `depth` to code between two words at
`depth'`, as every text does that ends at the end of a line of code. -/
structure Mode.EndsAt (mode : Mode) (depth : Nat) (cs : List Char) (depth' : Nat) : Prop where
  isCode : mode.after cs = .code []
  depth : mode.depth? depth cs = some depth'

/-- Whether a line whose rest is read in `mode` ends as code, with the blocks
that are open in front of the rest. -/
def EndsLine (mode : Mode) (depth : Nat) (rest : List Char) : Prop :=
  mode.EndsAt depth (rest ++ ['\n']) depth

instance (mode : Mode) (depth : Nat) (cs : List Char) (depth' : Nat) :
    Decidable (mode.EndsAt depth cs depth') :=
  decidable_of_iff (mode.after cs = .code [] ∧ mode.depth? depth cs = some depth')
    ⟨fun h => ⟨h.1, h.2⟩, fun h => ⟨h.isCode, h.depth⟩⟩

instance (mode : Mode) (depth : Nat) (rest : List Char) : Decidable (EndsLine mode depth rest) :=
  inferInstanceAs (Decidable (mode.EndsAt depth (rest ++ ['\n']) depth))

namespace Mode.EndsAt

variable {mode : Mode} {depth between depth' : Nat} {cs ds : List Char}

theorem append (hcs : mode.EndsAt depth cs between) (hds : (Mode.code []).EndsAt between ds depth') :
    mode.EndsAt depth (cs ++ ds) depth' := by
  constructor
  · rw [Mode.after_append, hcs.isCode, hds.isCode]
  · rw [Mode.depth?_append, hcs.depth, hcs.isCode]
    exact hds.depth

/-- Lines that stand in one block, one after the other. -/
theorem flatten {lines : List (List Char)}
    (h : ∀ line ∈ lines, (Mode.code []).EndsAt depth line depth) :
    (Mode.code []).EndsAt depth lines.flatten depth := by
  induction lines with
  | nil => exact ⟨rfl, rfl⟩
  | cons line lines ih =>
    rw [List.flatten_cons]
    exact (h line (by simp)).append (ih fun other hother => h other (by simp [hother]))

/-- Pasted text behind text of code.  The character in front of it has to end
every word. -/
theorem paste {c : Char} (hcs : StaysCode depth cs between)
    (hc : ∀ word, (Mode.code word).next c = mode)
    (hplain : (Mode.effectCode c).depth? between = some between)
    (hds : mode.EndsAt between ds depth') :
    (Mode.code []).EndsAt depth (cs ++ c :: ds) depth' := by
  obtain ⟨⟨word, hmode⟩, hdepth⟩ := hcs []
  have heffect : (Mode.code word).effect c = Mode.effectCode c := rfl
  constructor
  · rw [Mode.after_append, hmode, Mode.after_cons, hc, hds.isCode]
  · rw [Mode.depth?_append, hdepth, hmode, Option.bind_some, Mode.depth?_cons, heffect, hplain, hc]
    exact hds.depth

end Mode.EndsAt

theorem StaysCode.endsLine {depth : Nat} {cs : List Char} (h : StaysCode depth cs depth)
    (word : List Char) : EndsLine (.code word) depth cs := by
  obtain ⟨⟨word', hmode⟩, hdepth⟩ := h word
  constructor
  · rw [Mode.after_append, hmode]
    rfl
  · rw [Mode.depth?_append, hdepth, hmode]
    rfl

/-- Text of code up to the end of a line. -/
theorem StaysCode.endsAt {depth depth' : Nat} {cs : List Char} (h : StaysCode depth cs depth') :
    (Mode.code []).EndsAt depth (cs ++ ['\n']) depth' := by
  obtain ⟨⟨word, hmode⟩, hdepth⟩ := h []
  constructor
  · rw [Mode.after_append, hmode]
    rfl
  · rw [Mode.depth?_append, hdepth, hmode]
    rfl

theorem IsQuotable.endsLine {cs : List Char} (h : IsQuotable cs) (depth : Nat) :
    EndsLine (.literal '"' false) depth (cs ++ ['"']) := by
  obtain ⟨hmode, hdepth⟩ := h.literal depth
  rw [EndsLine, List.append_assoc]
  constructor
  · rw [Mode.after_append, hmode]
    rfl
  · rw [Mode.depth?_append, hdepth, hmode]
    rfl

end TestSkeleton.TestFile
