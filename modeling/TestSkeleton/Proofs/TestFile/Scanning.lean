import TestSkeleton.TestFile.Insertion

/-!
# What a scan keeps of the text behind it

`Scan.read` mixes three things: which mode comes next, whether a brace is
counted, and what is recorded about it.  This module takes them apart.

* `Mode.next` and `Mode.effect` are the two parts that depend on the mode and
  the character alone, and `Scan.read_eq` puts `Scan.read` together again.
* `Mode.after` and `Mode.depth?` follow a whole text.  `Scan.run_ok` and
  `Scan.exists_run` say that they decide whether a text can be read, and in
  which mode and at which depth the reading ends.
* `Mode.depth?_add` moves a text to a deeper place, and `Scan.run_shift` to a
  later one.
* `Scan.exists_close_of_run` finds the brace behind `Scan.lastClose?`.
-/

namespace TestSkeleton.TestFile

/-- What a character does to the blocks. -/
inductive Effect where
  /-- A blank or a part of a comment. -/
  | silent
  /-- A character of code that is no brace. -/
  | plain
  | opens
  | closes
deriving DecidableEq, Inhabited, Repr

namespace Mode

/-! ## One character -/

/-- The mode after a character of code that follows `word`. -/
def nextCode (word : List Char) (c : Char) : Mode :=
  if Text.isAsciiWord c then .code (c :: word)
  else if c == '/' then .slash
  else if c == '\'' then
    if opensLiteral word then .literal '\'' false else .code (c :: word)
  else if c == '"' then .literal '"' false
  else .code []

/-- The effect of a character of code. -/
def effectCode (c : Char) : Effect :=
  if c == '\x7b' then .opens
  else if c == '\x7d' then .closes
  else if Text.isBlank c || c == '/' then .silent
  else .plain

/-- The mode after a character inside a literal. -/
def nextLiteral (quote : Char) (escaped : Bool) (c : Char) : Mode :=
  if escaped then .literal quote false
  else if c == '\\' then .literal quote true
  else if c == quote || c == '\n' then .code []
  else .literal quote false

/-- The mode after a character. -/
def next (mode : Mode) (c : Char) : Mode :=
  match mode with
  | .code word => nextCode word c
  | .slash =>
    if c == '/' then .lineComment
    else if c == '*' then .blockComment false
    else nextCode [] c
  | .lineComment => if c == '\n' then .code [] else .lineComment
  | .blockComment star => if star && c == '/' then .code [] else .blockComment (c == '*')
  | .literal quote escaped => nextLiteral quote escaped c

/-- The effect of a character.  A `/` counts as code once it is known that it
starts no comment, and the character after a backslash counts as part of the
backslash. -/
def effect (mode : Mode) (c : Char) : Effect :=
  match mode with
  | .code _ => effectCode c
  | .slash =>
    if c == '/' || c == '*' then .silent
    else if c == '\x7b' then .opens
    else if c == '\x7d' then .closes
    else .plain
  | .lineComment | .blockComment _ => .silent
  | .literal _ escaped => if escaped then .silent else .plain

/-- Whether the machine reads code.  A `/` may still turn out to start a
comment. -/
def isCode : Mode → Bool
  | .code _ | .slash => true
  | _ => false

end Mode

/-- Carries out the effect of a character on a scan that goes on in `mode`. -/
def Effect.carryOut (effect : Effect) (scan : Scan) (mode : Mode) : Except Nat Scan :=
  match effect with
  | .silent => .ok { scan with mode := mode }
  | .plain => .ok (scan.plain mode)
  | .opens => .ok { scan.openBlock with mode := mode }
  | .closes => scan.closeBlock.map fun next => { next with mode := mode }

/-! ## Classes of characters -/

theorem toNat_bounds_of_isAsciiWord {c : Char} (h : Text.isAsciiWord c = true) :
    48 ≤ c.toNat ∧ c.toNat ≤ 122 := by
  have hA : ('A' : Char).val.toNat = 65 := rfl
  have hZ : ('Z' : Char).val.toNat = 90 := rfl
  have ha : ('a' : Char).val.toNat = 97 := rfl
  have hz : ('z' : Char).val.toNat = 122 := rfl
  have h0 : ('0' : Char).val.toNat = 48 := rfl
  have h9 : ('9' : Char).val.toNat = 57 := rfl
  have hu : ('_' : Char).val.toNat = 95 := rfl
  have hword : Text.isAsciiWord c =
      (((decide (c.val ≥ 'A'.val ∧ c.val ≤ 'Z'.val) || (c.val ≥ 'a'.val && c.val ≤ 'z'.val)) ||
        (c.val ≥ '0'.val && c.val ≤ '9'.val)) || c == '_') := rfl
  rw [hword] at h
  simp only [Bool.or_eq_true, Bool.and_eq_true, decide_eq_true_eq, beq_iff_eq] at h
  simp only [Char.toNat, UInt32.le_iff_toNat_le, Char.ext_iff, ← UInt32.toNat_inj, ge_iff_le] at *
  omega

theorem isBlank_of_isAsciiWord {c : Char} (h : Text.isAsciiWord c = true) :
    Text.isBlank c = false := by
  have hc := toNat_bounds_of_isAsciiWord h
  simp [Text.isBlank]
  omega

/-- A class of characters tells its members from the others. -/
theorem ne_of_class {p : Char → Bool} {c d : Char} (h : p c = true) (hd : p d = false) :
    c ≠ d := by
  intro hcd
  rw [hcd, hd] at h
  cases h

/-- The characters that mean something in code. -/
def isMark (c : Char) : Bool :=
  c == '/' || c == '\'' || c == '"' || c == '\x7b' || c == '\x7d'

/-- A mark is neither a word character nor a blank. -/
theorem isMark_of_isAsciiWord {c : Char} (h : Text.isAsciiWord c = true) : isMark c = false := by
  simp [isMark, ne_of_class h (show Text.isAsciiWord '/' = false by decide),
    ne_of_class h (show Text.isAsciiWord '\'' = false by decide),
    ne_of_class h (show Text.isAsciiWord '"' = false by decide),
    ne_of_class h (show Text.isAsciiWord '\x7b' = false by decide),
    ne_of_class h (show Text.isAsciiWord '\x7d' = false by decide)]

theorem isMark_of_isBlank {c : Char} (h : Text.isBlank c = true) : isMark c = false := by
  simp [isMark, ne_of_class h (show Text.isBlank '/' = false by decide),
    ne_of_class h (show Text.isBlank '\'' = false by decide),
    ne_of_class h (show Text.isBlank '"' = false by decide),
    ne_of_class h (show Text.isBlank '\x7b' = false by decide),
    ne_of_class h (show Text.isBlank '\x7d' = false by decide)]

/-- The kinds of characters of code. -/
theorem code_cases (c : Char) :
    (Text.isAsciiWord c = true ∧ Text.isBlank c = false ∧ isMark c = false) ∨
      (Text.isAsciiWord c = false ∧ Text.isBlank c = true ∧ isMark c = false) ∨
      (Text.isAsciiWord c = false ∧ Text.isBlank c = false ∧ isMark c = false) ∨
      (c = '/' ∨ c = '\'' ∨ c = '"' ∨ c = '\x7b' ∨ c = '\x7d') := by
  cases hw : Text.isAsciiWord c with
  | true => exact Or.inl ⟨rfl, isBlank_of_isAsciiWord hw, isMark_of_isAsciiWord hw⟩
  | false =>
    cases hb : Text.isBlank c with
    | true => exact Or.inr (Or.inl ⟨rfl, rfl, isMark_of_isBlank hb⟩)
    | false =>
      cases hm : isMark c with
      | false => exact Or.inr (Or.inr (Or.inl ⟨rfl, rfl, rfl⟩))
      | true =>
        refine Or.inr (Or.inr (Or.inr ?_))
        simpa only [isMark, Bool.or_eq_true, beq_iff_eq, or_assoc] using hm

/-! ## The parts of one step -/

namespace Scan

private theorem readCode_eq (scan : Scan) (word : List Char) (c : Char) :
    scan.readCode word c = (Mode.effectCode c).carryOut scan (Mode.nextCode word c) := by
  rcases code_cases c with ⟨hw, hb, hm⟩ | ⟨hw, hb, hm⟩ | ⟨hw, hb, hm⟩ | hm
  · simp only [isMark, Bool.or_eq_false_iff] at hm
    simp [readCode, Mode.nextCode, Mode.effectCode, Effect.carryOut, hw, hb, hm]
  · simp only [isMark, Bool.or_eq_false_iff] at hm
    simp [readCode, Mode.nextCode, Mode.effectCode, Effect.carryOut, hw, hb, hm]
  · simp only [isMark, Bool.or_eq_false_iff] at hm
    simp [readCode, Mode.nextCode, Mode.effectCode, Effect.carryOut, hw, hb, hm]
  · rcases hm with rfl | rfl | rfl | rfl | rfl
    · rfl
    · cases h : opensLiteral word
      · simp only [readCode, Mode.nextCode, h]
        rfl
      · simp only [readCode, Mode.nextCode, h]
        rfl
    · rfl
    · rfl
    · obtain ⟨mode, offset, depth, last, trailing⟩ := scan
      match depth with
      | 0 => rfl
      | 1 => rfl
      | depth + 2 => rfl

/-- A step is the effect of the character and the mode after it. -/
theorem read_eq (scan : Scan) (c : Char) :
    scan.read c = (scan.mode.effect c).carryOut scan (scan.mode.next c) := by
  obtain ⟨mode, offset, depth, last, trailing⟩ := scan
  cases mode with
  | code word => exact readCode_eq _ word c
  | slash =>
    by_cases h1 : c = '/'
    · subst h1
      rfl
    by_cases h2 : c = '*'
    · subst h2
      rfl
    have hn : Mode.next .slash c = Mode.nextCode [] c := by simp [Mode.next, h1, h2]
    simp only [read, beq_iff_eq, h1, h2, if_false, readCode_eq, hn]
    by_cases h3 : c = '\x7b'
    · subst h3
      rfl
    by_cases h4 : c = '\x7d'
    · subst h4
      match depth with
      | 0 => rfl
      | 1 => rfl
      | depth + 2 => rfl
    simp only [Mode.effectCode, Mode.effect, beq_iff_eq, h1, h2, h3, h4, if_false, Bool.or_eq_true,
      or_false]
    cases Text.isBlank c <;> rfl
  | lineComment =>
    by_cases hc : c = '\n'
    · subst hc
      rfl
    · simp [read, Mode.next, Mode.effect, Effect.carryOut, hc]
  | blockComment star => rfl
  | literal quote escaped =>
    cases escaped with
    | true => rfl
    | false =>
      simp only [read, readLiteral, Mode.next, Mode.nextLiteral, Mode.effect, Effect.carryOut,
        Bool.false_eq_true, if_false]
      split
      · rfl
      · split <;> rfl

end Scan


/-! ## A whole text -/

/-- The number of open blocks after a character, unless it closes one of
none. -/
def Effect.depth? (effect : Effect) (depth : Nat) : Option Nat :=
  match effect, depth with
  | .opens, depth => some (depth + 1)
  | .closes, 0 => none
  | .closes, depth + 1 => some depth
  | .silent, depth | .plain, depth => some depth

namespace Mode

/-- The mode after a text. -/
def after (mode : Mode) (cs : List Char) : Mode :=
  cs.foldl next mode

/-- The number of open blocks after a text, unless one of its braces closes
nothing. -/
def depth? (mode : Mode) (depth : Nat) : List Char → Option Nat
  | [] => some depth
  | c :: cs => ((mode.effect c).depth? depth).bind fun depth => (mode.next c).depth? depth cs

@[simp] theorem after_nil (mode : Mode) : mode.after [] = mode := rfl

@[simp] theorem after_cons (mode : Mode) (c : Char) (cs : List Char) :
    mode.after (c :: cs) = (mode.next c).after cs := rfl

@[simp] theorem after_append (mode : Mode) (cs ds : List Char) :
    mode.after (cs ++ ds) = (mode.after cs).after ds :=
  List.foldl_append

@[simp] theorem depth?_nil (mode : Mode) (depth : Nat) : mode.depth? depth [] = some depth := rfl

@[simp] theorem depth?_cons (mode : Mode) (depth : Nat) (c : Char) (cs : List Char) :
    mode.depth? depth (c :: cs) =
      ((mode.effect c).depth? depth).bind fun depth => (mode.next c).depth? depth cs := rfl

theorem depth?_append (mode : Mode) (depth : Nat) (cs ds : List Char) :
    mode.depth? depth (cs ++ ds) =
      (mode.depth? depth cs).bind fun depth => (mode.after cs).depth? depth ds := by
  induction cs generalizing mode depth with
  | nil => rfl
  | cons c cs ih =>
    rw [List.cons_append, depth?_cons, depth?_cons, after_cons]
    cases (mode.effect c).depth? depth with
    | none => rfl
    | some depth => exact ih (mode.next c) depth

end Mode

/-- A deeper place allows the same characters. -/
theorem Effect.depth?_add {effect : Effect} {depth depth' : Nat}
    (h : effect.depth? depth = some depth') (k : Nat) :
    effect.depth? (depth + k) = some (depth' + k) := by
  cases effect with
  | silent | plain | opens =>
    simp only [Effect.depth?, Option.some.injEq] at h ⊢
    omega
  | closes =>
    cases depth with
    | zero => cases h
    | succ depth =>
      simp only [Effect.depth?, Option.some.injEq] at h
      rw [show depth + 1 + k = depth + k + 1 by omega, ← h]
      rfl

/-- A deeper place allows the same texts. -/
theorem Mode.depth?_add {mode : Mode} {depth depth' : Nat} {cs : List Char}
    (h : mode.depth? depth cs = some depth') (k : Nat) :
    mode.depth? (depth + k) cs = some (depth' + k) := by
  induction cs generalizing mode depth with
  | nil =>
    simp only [depth?_nil, Option.some.injEq] at h ⊢
    omega
  | cons c cs ih =>
    rw [depth?_cons] at h ⊢
    obtain ⟨next, hn, hr⟩ := Option.bind_eq_some_iff.1 h
    rw [Effect.depth?_add hn k]
    exact ih hr

/-- Only a closing brace of code closes a block. -/
theorem Mode.effect_eq_closes_iff {mode : Mode} {c : Char} :
    mode.effect c = .closes ↔ mode.isCode = true ∧ c = '\x7d' := by
  cases mode with
  | code word =>
    by_cases h1 : c = '\x7b'
    · subst h1
      simp [effect, effectCode]
    by_cases h2 : c = '\x7d'
    · subst h2
      simp [effect, effectCode, isCode]
    · simp only [effect, effectCode, beq_iff_eq, h1, h2, if_false, isCode, and_false, iff_false]
      split <;> simp
  | slash =>
    by_cases h1 : c = '\x7d'
    · subst h1
      simp [effect, isCode]
    · simp only [effect, beq_iff_eq, h1, if_false, isCode, and_false, iff_false]
      split
      · simp
      · split <;> simp
  | lineComment | blockComment => simp [effect, isCode]
  | literal quote escaped => cases escaped <;> simp [effect, isCode]

/-! ### Blanks -/

namespace Mode

theorem effect_of_isBlank (mode : Mode) {c : Char} (h : Text.isBlank c = true) :
    mode.effect c = .silent ∨ mode.effect c = .plain := by
  have hm := isMark_of_isBlank h
  simp only [isMark, Bool.or_eq_false_iff] at hm
  cases mode with
  | code word => simp [effect, effectCode, h, hm]
  | slash =>
    have hs : c ≠ '*' := ne_of_class h (by decide)
    simp [effect, hm, hs]
  | lineComment | blockComment => simp [effect]
  | literal quote escaped => cases escaped <;> simp [effect]

/-- Blanks open and close nothing. -/
theorem depth?_of_isBlank {cs : List Char} (h : ∀ c ∈ cs, Text.isBlank c = true) (mode : Mode)
    (depth : Nat) : mode.depth? depth cs = some depth := by
  induction cs generalizing mode with
  | nil => rfl
  | cons c cs ih =>
    rw [depth?_cons]
    rcases effect_of_isBlank mode (h c (by simp)) with he | he <;>
    · rw [he]
      exact ih (fun d hd => h d (by simp [hd])) (mode.next c)

/-- A text without a `/` ends no block comment. -/
theorem after_blockComment {cs : List Char} (h : ∀ c ∈ cs, c ≠ '/') (star : Bool) :
    ∃ star', (Mode.blockComment star).after cs = .blockComment star' := by
  induction cs generalizing star with
  | nil => exact ⟨star, rfl⟩
  | cons c cs ih =>
    have hn : (Mode.blockComment star).next c = .blockComment (c == '*') := by
      simp [next, h c (by simp)]
    rw [after_cons, hn]
    exact ih (fun d hd => h d (by simp [hd])) _

/-- Two line ends leave every mode but that of a block comment: the first may
be hidden by a backslash, and the second is not. -/
theorem after_lineEnds {mode : Mode} (h : ∀ star, mode ≠ .blockComment star) :
    mode.after ['\n', '\n'] = .code [] := by
  cases mode with
  | code word => rfl
  | slash => rfl
  | lineComment => rfl
  | blockComment star => exact absurd rfl (h star)
  | literal quote escaped =>
    cases escaped with
    | true => simp [next, nextLiteral]
    | false =>
      simp [next, nextLiteral]
      rfl

/-- If blanks lead to code then two line ends lead to code, too. -/
theorem after_lineEnds_of_isCode {mode : Mode} {cs : List Char}
    (h : ∀ c ∈ cs, Text.isBlank c = true) (hcode : (mode.after cs).isCode = true) :
    mode.after ['\n', '\n'] = .code [] := by
  apply after_lineEnds
  intro star hstar
  have hslash : ∀ c ∈ cs, c ≠ '/' := fun c hc => ne_of_class (h c hc) (by decide)
  obtain ⟨star', hafter⟩ := after_blockComment hslash star
  rw [hstar, hafter] at hcode
  cases hcode

end Mode

namespace Scan

/-- The state right after a brace that closes a top-level block. -/
def closedAt (offset : Nat) : Scan where
  mode := .code []
  offset := offset + 1
  depth := 0
  lastClose? := some offset
  trailing := false

theorem step_eq (scan : Scan) (c : Char) :
    scan.step c = ((scan.mode.effect c).carryOut scan (scan.mode.next c)).map
      fun next => { next with offset := scan.offset + c.utf8Size } := by
  rw [step, read_eq]
  cases (scan.mode.effect c).carryOut scan (scan.mode.next c) <;> rfl

/-- A brace of code that closes the only open block. -/
theorem step_close {scan : Scan} (hmode : scan.mode.isCode = true) (hdepth : scan.depth = 1) :
    scan.step '\x7d' = .ok (closedAt scan.offset) := by
  have heffect := Mode.effect_eq_closes_iff.2 ⟨hmode, rfl⟩
  have hnext : scan.mode.next '\x7d' = .code [] := by
    cases hm : scan.mode with
    | code word => rfl
    | slash => rfl
    | _ => simp [hm, Mode.isCode] at hmode
  obtain ⟨mode, offset, depth, last, trailing⟩ := scan
  subst hdepth
  rw [step_eq, heffect, hnext]
  rfl

/-- What a step does. -/
theorem step_ok {scan next : Scan} {c : Char} (h : scan.step c = .ok next) :
    next.mode = scan.mode.next c ∧ next.offset = scan.offset + c.utf8Size ∧
      (scan.mode.effect c).depth? scan.depth = some next.depth ∧
      (next.lastClose? = scan.lastClose? ∨
        scan.mode.isCode = true ∧ c = '\x7d' ∧ scan.depth = 1) := by
  rw [step_eq] at h
  obtain ⟨mode, offset, depth, last, trailing⟩ := scan
  cases he : mode.effect c with
  | silent | plain | opens =>
    simp only [he, Effect.carryOut, Except.map, Except.ok.injEq] at h
    subst h
    exact ⟨rfl, rfl, rfl, Or.inl rfl⟩
  | closes =>
    simp only [he, Effect.carryOut] at h
    match depth with
    | 0 => cases h
    | 1 =>
      obtain ⟨hcode, hc⟩ := Mode.effect_eq_closes_iff.1 he
      cases h
      exact ⟨rfl, rfl, rfl, Or.inr ⟨hcode, hc, rfl⟩⟩
    | depth + 2 =>
      cases h
      exact ⟨rfl, rfl, rfl, Or.inl rfl⟩

/-- A step fails only at a brace that closes nothing. -/
theorem exists_step (scan : Scan) {c : Char} {depth : Nat}
    (h : (scan.mode.effect c).depth? scan.depth = some depth) : ∃ next, scan.step c = .ok next := by
  rw [step_eq]
  obtain ⟨mode, offset, before, last, trailing⟩ := scan
  cases he : mode.effect c with
  | silent | plain | opens => exact ⟨_, rfl⟩
  | closes =>
    match before with
    | 0 =>
      simp only [he, Effect.depth?] at h
      cases h
    | 1 => exact ⟨_, rfl⟩
    | before + 2 => exact ⟨_, rfl⟩

/-! ### Reading a whole text -/

/-- What reading a text does. -/
theorem run_ok {scan last : Scan} {cs : List Char} (h : scan.run cs = .ok last) :
    last.mode = scan.mode.after cs ∧ last.offset = scan.offset + Text.byteLength cs ∧
      scan.mode.depth? scan.depth cs = some last.depth := by
  induction cs generalizing scan with
  | nil =>
    cases h
    exact ⟨rfl, rfl, rfl⟩
  | cons c cs ih =>
    rw [run_cons] at h
    cases hs : scan.step c with
    | error offset =>
      rw [hs] at h
      cases h
    | ok next =>
      rw [hs] at h
      obtain ⟨hmode, hoffset, hdepth, -⟩ := step_ok hs
      obtain ⟨imode, ioffset, idepth⟩ := ih h
      refine ⟨?_, ?_, ?_⟩
      · rw [imode, hmode, Mode.after_cons]
      · rw [ioffset, hoffset, Text.byteLength_cons, Nat.add_assoc]
      · rw [Mode.depth?_cons, hdepth, ← hmode]
        exact idepth

/-- A text whose braces all close something can be read. -/
theorem exists_run (scan : Scan) {cs : List Char} {depth : Nat}
    (h : scan.mode.depth? scan.depth cs = some depth) : ∃ last, scan.run cs = .ok last := by
  induction cs generalizing scan with
  | nil => exact ⟨scan, rfl⟩
  | cons c cs ih =>
    rw [Mode.depth?_cons] at h
    obtain ⟨between, hd, hr⟩ := Option.bind_eq_some_iff.1 h
    obtain ⟨next, hn⟩ := exists_step scan hd
    obtain ⟨hmode, -, hdepth, -⟩ := step_ok hn
    rw [hd, Option.some.injEq] at hdepth
    subst hdepth
    rw [← hmode] at hr
    obtain ⟨last, hl⟩ := ih next hr
    refine ⟨last, ?_⟩
    rw [run_cons, hn]
    exact hl

/-- Reading in two parts. -/
theorem run_append_ok {scan last : Scan} {cs ds : List Char} :
    scan.run (cs ++ ds) = .ok last ↔
      ∃ between, scan.run cs = .ok between ∧ between.run ds = .ok last := by
  rw [run_append]
  cases scan.run cs with
  | error offset => simp [Except.bind]
  | ok between => simp [Except.bind]

/-- The last brace that closed a top-level block, if one did. -/
theorem exists_close_of_run {scan last : Scan} {cs : List Char} (h : scan.run cs = .ok last) :
    last.lastClose? = scan.lastClose? ∨
      ∃ front back before, cs = front ++ '\x7d' :: back ∧ scan.run front = .ok before ∧
        before.mode.isCode = true ∧ before.depth = 1 ∧
        last.lastClose? = some before.offset ∧
        (closedAt before.offset).run back = .ok last := by
  induction cs generalizing scan with
  | nil =>
    cases h
    exact Or.inl rfl
  | cons c cs ih =>
    rw [run_cons] at h
    cases hs : scan.step c with
    | error offset =>
      rw [hs] at h
      cases h
    | ok next =>
      rw [hs] at h
      rcases ih h with hlast | ⟨front, back, before, hcs, hrun, hmode, hdepth, hlast, hback⟩
      · obtain ⟨-, -, -, hclose⟩ := step_ok hs
        rcases hclose with hclose | ⟨hmode, rfl, hdepth⟩
        · exact Or.inl (hlast.trans hclose)
        · rw [step_close hmode hdepth] at hs
          cases hs
          exact Or.inr ⟨[], cs, scan, rfl, rfl, hmode, hdepth, hlast, h⟩
      · refine Or.inr ⟨c :: front, back, before, ?_, ?_, hmode, hdepth, hlast, hback⟩
        · rw [hcs, List.cons_append]
        · rw [run_cons, hs]
          exact hrun

/-! ### The same text at a later place -/

/-- The scan of a text that starts `count` bytes later. -/
def shift (count : Nat) (scan : Scan) : Scan :=
  { scan with offset := count + scan.offset, lastClose? := scan.lastClose?.map (count + ·) }

theorem closedAt_eq_shift (offset : Nat) : closedAt offset = (closedAt 0).shift offset := rfl

theorem step_shift {count : Nat} {scan next : Scan} {c : Char} (h : scan.step c = .ok next) :
    (scan.shift count).step c = .ok (next.shift count) := by
  rw [step_eq] at h ⊢
  obtain ⟨mode, offset, depth, last, trailing⟩ := scan
  have hm : (shift count ⟨mode, offset, depth, last, trailing⟩).mode = mode := rfl
  rw [hm]
  cases he : mode.effect c with
  | silent | plain | opens =>
    simp only [he, Effect.carryOut, Except.map, Except.ok.injEq] at h ⊢
    subst h
    simp [shift, plain, openBlock, Nat.add_assoc]
  | closes =>
    simp only [he, Effect.carryOut] at h ⊢
    match depth with
    | 0 => cases h
    | 1 =>
      cases h
      simp [shift, closeBlock, Except.map, Nat.add_assoc]
    | depth + 2 =>
      cases h
      simp [shift, closeBlock, Except.map, Nat.add_assoc]

/-- A text is read in the same way wherever it stands. -/
theorem run_shift (count : Nat) {scan last : Scan} {cs : List Char} (h : scan.run cs = .ok last) :
    (scan.shift count).run cs = .ok (last.shift count) := by
  induction cs generalizing scan with
  | nil =>
    cases h
    rfl
  | cons c cs ih =>
    rw [run_cons] at h ⊢
    cases hs : scan.step c with
    | error offset =>
      rw [hs] at h
      cases h
    | ok next =>
      rw [hs] at h
      rw [step_shift hs]
      exact ih h

end Scan

end TestSkeleton.TestFile
