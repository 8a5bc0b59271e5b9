import TestSkeleton.Proofs.TestFile.GeneratedText
import TestSkeleton.Proofs.TestFile.Tokens

/-!
# Literals behind a word

A raw string starts with a word of its own, and a character may stand right
behind `return` or `case`.  The scan has no mode for a raw string, and takes
the `'` behind a keyword for a part of the word.  What it makes of such a
literal is therefore decided by its characters, read as if they were code.

* `KeepsDepth` is what reading a text as code may do to the blocks around it.
  A text between blanks leaves the place for a case alone exactly if it does
  no more (`keepsPlace_iff_keepsDepth`).
* `WordLiteral` has the two forms, and `WordLiteral.keepsPlace_iff` is the
  result for them: the plain ones leave the place alone, and the others have
  to be read to tell.
* `WordLiteral.not_keepsPlace_closingBrace` are two that do not.
-/

namespace TestSkeleton.TestFile

/-! ## Between blanks -/

/-- Whether a text stands between blanks of code, in front of the brace that a
case goes in front of. -/
structure Surrounds (front back : List Char) (offset : Nat) : Prop where
  front_blank : ∃ c ∈ front.getLast?, Text.isBlank c = true
  front_code : ((Mode.code []).after front).isCode = true
  back_blank : ∃ c ∈ back.head?, Text.isBlank c = true
  point : insertionPoint (front ++ back) = .ok offset
  inBack : Text.byteLength front ≤ offset

/-- Whether a text that is put between blanks of code moves the place for a
case by its own length. -/
def KeepsPlace (cs : List Char) : Prop :=
  ∀ front back offset, Surrounds front back offset →
    insertionPoint (front ++ cs ++ back) = .ok (offset + Text.byteLength cs)

/-- Whether a text, read as code, closes no block that it did not open, leaves
none open and ends as code. -/
def KeepsDepth (cs : List Char) : Prop :=
  (Mode.code []).depth? 0 cs = some 0 ∧ ((Mode.code []).after cs).isCode = true

instance (cs : List Char) : Decidable (KeepsDepth cs) :=
  inferInstanceAs (Decidable (_ ∧ _))

namespace Mode

variable {mode : Mode} {c : Char}

/-- A blank ends the word that it follows. -/
theorem next_of_isBlank (hmode : mode.isCode = true) (h : Text.isBlank c = true) :
    mode.next c = .code [] := by
  have hword : ∀ word, nextCode word c = .code [] := by
    intro word
    have hmark := isMark_of_isBlank h
    simp only [isMark, Bool.or_eq_false_iff] at hmark
    have hchar : Text.isAsciiWord c = false := by
      cases hc : Text.isAsciiWord c with
      | false => rfl
      | true => exact absurd (isBlank_of_isAsciiWord hc) (by simp [h])
    simp [nextCode, hchar, hmark]
  cases mode with
  | code word => exact hword word
  | slash =>
    have hslash : c ≠ '/' := ne_of_class h (by decide)
    have hstar : c ≠ '*' := ne_of_class h (by decide)
    simp [next, hslash, hstar, hword]
  | _ => cases hmode

theorem after_cons_of_isBlank (hmode : mode.isCode = true) (h : Text.isBlank c = true)
    (cs : List Char) : mode.after (c :: cs) = (Mode.code []).after cs := by
  rw [after_cons, next_of_isBlank hmode h]

theorem depth?_cons_of_isBlank (hmode : mode.isCode = true) (h : Text.isBlank c = true)
    (depth : Nat) (cs : List Char) :
    mode.depth? depth (c :: cs) = (Mode.code []).depth? depth cs := by
  rw [← List.singleton_append, depth?_append, depth?_of_isBlank (by simp [h]), after_cons,
    after_nil, next_of_isBlank hmode h]
  rfl

/-- A blank behind which there is code ends whatever it follows. -/
theorem eq_code_of_isBlank (h : Text.isBlank c = true) (hcode : (mode.next c).isCode = true) :
    mode.next c = .code [] := by
  by_cases hmode : mode.isCode = true
  · exact next_of_isBlank hmode h
  cases mode with
  | code word => exact absurd rfl hmode
  | slash => exact absurd rfl hmode
  | lineComment =>
    simp only [next] at hcode ⊢
    split at hcode
    · rename_i hline
      exact if_pos hline
    · cases hcode
  | blockComment star =>
    have hslash : c ≠ '/' := ne_of_class h (by decide)
    simp [next, hslash, isCode] at hcode
  | literal quote escaped =>
    simp only [next, nextLiteral] at hcode ⊢
    split at hcode
    · cases hcode
    split at hcode
    · cases hcode
    split at hcode
    · rename_i hopen hplain hend
      simp [hopen, hplain, hend]
    · cases hcode

/-- What is no code goes on over a blank and an opening brace. -/
theorem not_isCode_of_openBlock (hproper : mode.IsProper) (hmode : mode.isCode = false) :
    (mode.after [' ', '\x7b']).isCode = false := by
  cases mode with
  | code word => cases hmode
  | slash => cases hmode
  | lineComment => rfl
  | blockComment star => cases star <;> rfl
  | literal quote escaped =>
    cases escaped <;> rcases hproper with rfl | rfl <;> rfl

end Mode

theorem Surrounds.after_front {front back : List Char} {offset : Nat}
    (h : Surrounds front back offset) : (Mode.code []).after front = .code [] := by
  obtain ⟨c, hlast, hblank⟩ := h.front_blank
  obtain ⟨init, rfl⟩ := List.getLast?_eq_some_iff.1 hlast
  have hcode := h.front_code
  rw [Mode.after_append] at hcode ⊢
  exact Mode.eq_code_of_isBlank hblank hcode

/-- The brace stands in the text behind, after its first blank. -/
theorem Surrounds.exists_middle {front back : List Char} {offset : Nat}
    (h : Surrounds front back offset) :
    ∃ c middle tail, back = c :: middle ++ '\x7d' :: tail ∧ Text.isBlank c = true ∧
      Text.byteLength (front ++ c :: middle) = offset ∧ IsFront (front ++ c :: middle) ∧
      IsTail tail := by
  obtain ⟨before, tail, htext, rfl, hbefore, htail⟩ := insertionPoint_eq_ok_iff.1 h.point
  obtain ⟨middle, rfl, rfl⟩ :
      ∃ middle, before = front ++ middle ∧ back = middle ++ '\x7d' :: tail := by
    rcases List.append_eq_append_iff.1 htext with ⟨middle, hb, hback⟩ | ⟨extra, hfront, hrest⟩
    · exact ⟨middle, hb, hback⟩
    · have hlength := h.inBack
      rw [hfront, Text.byteLength_append] at hlength
      cases extra with
      | nil => exact ⟨[], by simpa using hfront.symm, by simpa using hrest.symm⟩
      | cons c extra =>
        have hpos := c.utf8Size_pos
        rw [Text.byteLength_cons] at hlength
        omega
  obtain ⟨c, hhead, hblank⟩ := h.back_blank
  cases middle with
  | nil =>
    cases hhead
    cases hblank
  | cons d middle =>
    cases hhead
    exact ⟨c, middle, tail, rfl, hblank, rfl, hbefore, htail⟩

/-- A text that keeps the depth moves the place by its own length. -/
theorem KeepsDepth.keepsPlace {cs : List Char} (h : KeepsDepth cs) : KeepsPlace cs := by
  intro front back offset hsurrounds
  obtain ⟨c, middle, tail, rfl, hblank, rfl, hbefore, htail⟩ := hsurrounds.exists_middle
  have hmode := hsurrounds.after_front
  have hcode := hbefore.isCode
  have hdepth := hbefore.depth
  rw [Mode.after_append, hmode, Mode.after_cons_of_isBlank rfl hblank] at hcode
  rw [Mode.depth?_append, hmode] at hdepth
  obtain ⟨depth, hfront, hmiddle⟩ := Option.bind_eq_some_iff.1 hdepth
  rw [Mode.depth?_cons_of_isBlank rfl hblank] at hmiddle
  have hkept := Mode.depth?_add h.1 depth
  rw [Nat.zero_add] at hkept
  refine insertionPoint_eq_ok_iff.2
    ⟨front ++ cs ++ c :: middle, tail, by simp, ?_, ⟨?_, ?_⟩, htail⟩
  · simp only [Text.byteLength_append]
    omega
  · rw [Mode.after_append, Mode.after_append, hmode, Mode.after_cons_of_isBlank h.2 hblank]
    exact hcode
  · rw [Mode.depth?_append, Mode.depth?_append, hfront, Option.bind_some, hmode, hkept,
      Option.bind_some, Mode.after_append, hmode, Mode.depth?_cons_of_isBlank h.2 hblank]
    exact hmiddle

/-- One block behind a text tells whether the text keeps the depth. -/
theorem keepsDepth_of_insertionPoint {cs : List Char}
    (h : insertionPoint ([' '] ++ cs ++ [' ', '\x7b', '\x7d']) = .ok (3 + Text.byteLength cs)) :
    KeepsDepth cs := by
  obtain ⟨before, tail, htext, hoffset, hbefore, -⟩ := insertionPoint_eq_ok_iff.1 h
  have hcut : before = [' '] ++ cs ++ [' ', '\x7b'] := by
    have hlength := congrArg Text.byteLength htext
    have hblank : Text.byteLength [' '] = 1 := rfl
    have hblock : Text.byteLength [' ', '\x7b', '\x7d'] = 3 := rfl
    have hclose : ('\x7d' : Char).utf8Size = 1 := rfl
    simp only [Text.byteLength_append, Text.byteLength_cons, hoffset, hblank, hblock,
      hclose] at hlength
    cases tail with
    | nil =>
      have hends : ([' '] ++ cs ++ [' ', '\x7b']) ++ ['\x7d'] = before ++ ['\x7d'] := by
        simpa using htext
      exact (List.append_singleton_inj.1 hends).1.symm
    | cons c rest =>
      have hpos := c.utf8Size_pos
      rw [Text.byteLength_cons] at hlength
      omega
  have hcode := hbefore.isCode
  have hdepth := hbefore.depth
  rw [hcut, Mode.after_append] at hcode
  rw [hcut, Mode.depth?_append] at hdepth
  have hstart : (Mode.code []).after ([' '] ++ cs) = (Mode.code []).after cs := rfl
  have hstart' : (Mode.code []).depth? 0 ([' '] ++ cs) = (Mode.code []).depth? 0 cs := rfl
  rw [hstart] at hcode hdepth
  rw [hstart'] at hdepth
  have hend : ((Mode.code []).after cs).isCode = true := by
    have hproper : (Mode.code []).IsProper := trivial
    rw [← Bool.not_eq_false]
    intro hnot
    rw [Mode.not_isCode_of_openBlock (hproper.after cs) hnot] at hcode
    cases hcode
  refine ⟨?_, hend⟩
  obtain ⟨depth, hcs, hopen⟩ := Option.bind_eq_some_iff.1 hdepth
  rw [Mode.depth?_cons_of_isBlank hend (by rfl)] at hopen
  have hone : (Mode.code []).depth? depth ['\x7b'] = some (depth + 1) := rfl
  rw [hone, Option.some.injEq] at hopen
  rw [hcs, Option.some.injEq]
  omega

/-- A text between blanks leaves the place for a case alone exactly if it
keeps the depth. -/
theorem keepsPlace_iff_keepsDepth {cs : List Char} : KeepsPlace cs ↔ KeepsDepth cs := by
  constructor
  · intro h
    apply keepsDepth_of_insertionPoint
    exact h [' '] [' ', '\x7b', '\x7d'] 3
      ⟨⟨' ', rfl, by rfl⟩, rfl, ⟨' ', rfl, by rfl⟩, by rfl, by decide⟩
  · exact KeepsDepth.keepsPlace

/-- A text without braces of code keeps the depth. -/
theorem KeepsDepth.of_passes {cs : List Char} {isCode : Bool} {last : Mode}
    (h : (Mode.code []).Passes cs isCode last) (hlast : last.isCode = true) : KeepsDepth cs := by
  obtain ⟨next, hrun, hmode, hdepth, -, -⟩ := h {} rfl
  obtain ⟨hafter, -, hread⟩ := Scan.run_ok hrun
  constructor
  · rw [hdepth] at hread
    exact hread
  · have hsame : (Mode.code []).after cs = last := hafter.symm.trans hmode
    rw [hsame]
    exact hlast

/-! ## The two forms -/

/-- Whether a character may stand in the delimiter of a raw string. -/
def isDelimiterChar (c : Char) : Bool :=
  !Text.isBlank c && c != '(' && c != ')' && c != '\\'

/-- A literal that starts with a word. -/
inductive WordLiteral where
  /-- A raw string.  Its body ends at the closing mark with the delimiter. -/
  | raw (delimiter body : List Char)
      (hdelimiter : delimiter.length ≤ 16 ∧ delimiter.all isDelimiterChar = true)
      (hbody : ¬ ')' :: delimiter ++ ['"'] <:+: body)
  /-- A character right behind a keyword. -/
  | character (keyword : String) (hkeyword : keyword ∈ ["return", "case"])
      (body : List (Piece '\''))

namespace WordLiteral

/-- The text of a literal. -/
def chars : WordLiteral → List Char
  | .raw delimiter body _ _ =>
    'R' :: '"' :: (delimiter ++ '(' :: body ++ ')' :: delimiter) ++ ['"']
  | .character keyword _ body =>
    keyword.toList ++ '\'' :: body.flatMap Piece.chars ++ ['\'']

/-- Whether a literal is read as if it was of a simpler form: a raw string as
a string, and a keyword with its character as one word. -/
def IsPlain : WordLiteral → Prop
  | .raw delimiter body _ _ => ∀ c ∈ delimiter ++ body, c ≠ '"' ∧ c ≠ '\\' ∧ c ≠ '\n'
  | .character _ _ body => ∀ c ∈ body.flatMap Piece.chars, Text.isAsciiWord c = true

/-- Characters without a meaning in a string are parts of its body. -/
theorem exists_pieces {cs : List Char} (h : ∀ c ∈ cs, c ≠ '"' ∧ c ≠ '\\' ∧ c ≠ '\n') :
    ∃ body : List (Piece '"'), body.flatMap Piece.chars = cs := by
  induction cs with
  | nil => exact ⟨[], rfl⟩
  | cons c cs ih =>
    obtain ⟨body, hbody⟩ := ih fun d hd => h d (List.mem_cons_of_mem c hd)
    refine ⟨.plain c (h c (by simp)) :: body, ?_⟩
    rw [List.flatMap_cons, hbody]
    rfl

theorem keepsDepth_raw {cs : List Char} (h : ∀ c ∈ cs, c ≠ '"' ∧ c ≠ '\\' ∧ c ≠ '\n') :
    KeepsDepth ('R' :: '"' :: cs ++ ['"']) := by
  obtain ⟨body, rfl⟩ := exists_pieces h
  have hword : (Mode.code []).Passes ['R'] true (.code ['R']) := .wordChar (by decide) []
  exact .of_passes (hword.append (.literal (Or.inl rfl) rfl body)) rfl

/-- A word of three characters stands for no encoding. -/
theorem opensLiteral_of_length {word : List Char} (h : 3 ≤ word.length) :
    opensLiteral word = false := by
  match word, h with
  | _ :: _ :: _ :: _, _ => simp [opensLiteral]

theorem keepsDepth_character {keyword : String} (hkeyword : keyword ∈ ["return", "case"])
    {cs : List Char} (h : ∀ c ∈ cs, Text.isAsciiWord c = true) :
    KeepsDepth (keyword.toList ++ '\'' :: cs ++ ['\'']) := by
  have hlong : IsGroup keyword.toList ∧ 3 ≤ keyword.toList.reverse.length := by
    simp only [List.mem_cons, List.not_mem_nil, or_false] at hkeyword
    rcases hkeyword with rfl | rfl <;> decide
  have hopen : (Mode.code []).Passes (keyword.toList ++ ['\'']) true
      (.code ('\'' :: keyword.toList.reverse)) := by
    have hgroup := Mode.Passes.group hlong.1 []
    rw [List.append_nil] at hgroup
    exact hgroup.append (.separator (opensLiteral_of_length hlong.2))
  have hend (word : List Char) (hword : 3 ≤ word.length) :
      (Mode.code word).Passes ['\''] true (.code ('\'' :: word)) :=
    .separator (opensLiteral_of_length hword)
  rw [List.append_cons keyword.toList, List.append_assoc (keyword.toList ++ ['\''])]
  cases cs with
  | nil =>
    refine .of_passes (hopen.append (hend _ ?_)) rfl
    rw [List.length_cons]
    omega
  | cons c cs =>
    have hbody := Mode.Passes.group ⟨List.cons_ne_nil c cs, h⟩ ('\'' :: keyword.toList.reverse)
    refine .of_passes (hopen.append (hbody.append (hend _ ?_))) rfl
    rw [List.length_append, List.length_cons]
    omega

/-- A plain literal keeps the depth, whatever braces it holds. -/
theorem IsPlain.keepsDepth {literal : WordLiteral} (h : literal.IsPlain) :
    KeepsDepth literal.chars := by
  cases literal with
  | raw delimiter body hdelimiter hbody =>
    refine keepsDepth_raw fun c hc => ?_
    simp only [List.append_assoc, List.cons_append, List.mem_append, List.mem_cons] at hc
    rcases hc with hc | rfl | hc | rfl | hc
    · exact h c (List.mem_append_left _ hc)
    · decide
    · exact h c (List.mem_append_right _ hc)
    · decide
    · exact h c (List.mem_append_left _ hc)
  | character keyword hkeyword body => exact keepsDepth_character hkeyword h

/-- A literal behind a word leaves the place for a case alone exactly if its
characters, read as code, keep the depth.  A raw string without quotes,
backslashes and line ends does so, and a keyword with a letter or digit. -/
theorem keepsPlace_iff (literal : WordLiteral) :
    (KeepsPlace literal.chars ↔ KeepsDepth literal.chars) ∧
      (literal.IsPlain → KeepsPlace literal.chars) :=
  ⟨keepsPlace_iff_keepsDepth, fun h => h.keepsDepth.keepsPlace⟩

/-- A raw string with a quoted block in it. -/
def quotedBlock : WordLiteral :=
  .raw ['x'] ['"', '\x7b', '\x7d', '"'] (by decide) (by decide)

theorem keepsPlace_quotedBlock :
    quotedBlock.chars = "R\"x(\"\x7b\x7d\")x\"".toList ∧ ¬ quotedBlock.IsPlain ∧
      KeepsDepth quotedBlock.chars ∧ KeepsPlace quotedBlock.chars := by
  have hplain : ¬ quotedBlock.IsPlain := fun h => (h '"' (by decide)).1 rfl
  have hkeeps : KeepsDepth quotedBlock.chars := by decide
  exact ⟨by rfl, hplain, hkeeps, quotedBlock.keepsPlace_iff.1.2 hkeeps⟩

/-! ## Literals that move the place -/

/-- A raw string with a quoted closing brace. -/
def quotedBrace : WordLiteral :=
  .raw [] ['"', '\x7d', '"'] (by decide) (by decide)

/-- A closing brace right behind a keyword. -/
def returnedBrace : WordLiteral :=
  .character "return" (by decide) [.plain '\x7d' (by decide)]

/-- The brace in either literal closes the block around it, so that the brace
behind the literal closes nothing. -/
theorem not_keepsPlace_closingBrace :
    quotedBrace.chars = "R\"(\"\x7d\")\"".toList ∧
      Surrounds "\x7b s = ".toList " ;\n\x7d\n".toList 9 ∧
      insertionPoint ("\x7b s = ".toList ++ quotedBrace.chars ++ " ;\n\x7d\n".toList) =
        .error (.unexpectedClose 17) ∧
      returnedBrace.chars = "return'\x7d'".toList ∧
      Surrounds "\x7b ".toList " ;\n\x7d\n".toList 5 ∧
      insertionPoint ("\x7b ".toList ++ returnedBrace.chars ++ " ;\n\x7d\n".toList) =
        .error (.unexpectedClose 14) ∧
      ¬ ∀ literal : WordLiteral, KeepsPlace literal.chars := by
  have hraw : Surrounds "\x7b s = ".toList " ;\n\x7d\n".toList 9 :=
    ⟨⟨' ', rfl, by rfl⟩, by rfl, ⟨' ', rfl, by rfl⟩, by rfl, by decide⟩
  have hcharacter : Surrounds "\x7b ".toList " ;\n\x7d\n".toList 5 :=
    ⟨⟨' ', rfl, by rfl⟩, by rfl, ⟨' ', rfl, by rfl⟩, by rfl, by decide⟩
  have herror : insertionPoint ("\x7b ".toList ++ returnedBrace.chars ++ " ;\n\x7d\n".toList) =
      .error (.unexpectedClose 14) := by rfl
  refine ⟨by rfl, hraw, by rfl, by rfl, hcharacter, herror, fun h => ?_⟩
  have hok := h returnedBrace _ _ _ hcharacter
  rw [herror] at hok
  cases hok

end WordLiteral

end TestSkeleton.TestFile
