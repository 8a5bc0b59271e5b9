import TestSkeleton.Proofs.TestFile.Scanning

/-!
# Texts that take a case

A text takes a case in front of a brace that closes its only open block, if
no code follows that brace.  `insertionPoint_eq_ok_iff` says so without the
offsets: the text is cut at the brace, and what matters of the two parts is
the mode and the depth in front of the brace and whether the rest `IsTail`.

A case that closes what it opens keeps such a text such a text
(`insertionPoint_insertCase`).  Blanks in front of the brace are replaced,
and one of them may have ended a comment or a literal; the empty line in
front of the case does the same (`Mode.after_lineEnds_of_isCode`).
-/

namespace TestSkeleton.TestFile

namespace Scan

theorem insertionPoint_eq_ok {scan : Scan} {offset : Nat} :
    scan.insertionPoint = .ok offset ↔
      scan.depth = 0 ∧ scan.lastClose? = some offset ∧ scan.endsWithCode = false := by
  rw [Scan.insertionPoint]
  by_cases hd : scan.depth = 0
  · rw [if_neg (not_not_intro hd)]
    cases hl : scan.lastClose? with
    | none => simp
    | some last => cases he : scan.endsWithCode <;> simp [hd]
  · rw [if_pos hd]
    simp [hd]

theorem insertionPoint_shift {scan : Scan} {offset : Nat} (count : Nat)
    (h : scan.insertionPoint = .ok offset) :
    (scan.shift count).insertionPoint = .ok (count + offset) := by
  obtain ⟨hd, hl, he⟩ := insertionPoint_eq_ok.1 h
  refine insertionPoint_eq_ok.2 ⟨hd, ?_, he⟩
  simp [shift, hl]

end Scan

/-! ## The two sides of the brace -/

/-- Whether a text may follow the brace that closes the last block: it holds
blanks and comments only. -/
def IsTail (back : List Char) : Prop :=
  ∃ last, (Scan.closedAt 0).run back = .ok last ∧ last.insertionPoint = .ok 0

/-- Whether a brace after a text closes the only open block. -/
structure IsFront (front : List Char) : Prop where
  isCode : ((Mode.code []).after front).isCode = true
  depth : (Mode.code []).depth? 0 front = some 1

theorem IsFront.run {front : List Char} (h : IsFront front) (back : List Char) :
    ({} : Scan).run (front ++ '\x7d' :: back) =
      (Scan.closedAt (Text.byteLength front)).run back := by
  obtain ⟨before, hb⟩ := Scan.exists_run {} h.depth
  obtain ⟨hmode, hoffset, hdepth⟩ := Scan.run_ok hb
  have hcode : before.mode.isCode = true := by
    rw [hmode]
    exact h.isCode
  have hone : before.depth = 1 := by
    have := hdepth.symm.trans h.depth
    simpa using this
  have hzero : before.offset = Text.byteLength front := by
    rw [hoffset]
    exact Nat.zero_add _
  rw [Scan.run_append, hb]
  show before.run ('\x7d' :: back) = _
  rw [Scan.run_cons, Scan.step_close hcode hone, hzero]
  rfl

/-- A text takes a case exactly where it can be cut into a front and a tail. -/
theorem insertionPoint_eq_ok_iff {text : List Char} {offset : Nat} :
    insertionPoint text = .ok offset ↔
      ∃ front back, text = front ++ '\x7d' :: back ∧ Text.byteLength front = offset ∧
        IsFront front ∧ IsTail back := by
  constructor
  · intro h
    rw [insertionPoint] at h
    split at h
    · cases h
    · rename_i last hrun
      obtain ⟨-, hlast, -⟩ := Scan.insertionPoint_eq_ok.1 h
      rcases Scan.exists_close_of_run hrun with hnone |
        ⟨front, back, before, htext, hfront, hcode, hone, hclose, hback⟩
      · rw [hnone] at hlast
        cases hlast
      · obtain ⟨hmode, hoffset, hdepth⟩ := Scan.run_ok hfront
        have hzero : before.offset = Text.byteLength front := by
          rw [hoffset]
          exact Nat.zero_add _
        have hsame : before.offset = offset := by
          rw [hclose] at hlast
          exact Option.some.inj hlast
        refine ⟨front, back, htext, hzero.symm.trans hsame, ⟨?_, ?_⟩, ?_⟩
        · rw [hmode] at hcode
          exact hcode
        · rw [hone] at hdepth
          exact hdepth
        · -- the same text, read from offset 0
          obtain ⟨-, -, hd⟩ := Scan.run_ok hback
          obtain ⟨base, hbase⟩ := Scan.exists_run (Scan.closedAt 0) hd
          have hshift := Scan.run_shift before.offset hbase
          rw [← Scan.closedAt_eq_shift, hback, Except.ok.injEq] at hshift
          refine ⟨base, hbase, ?_⟩
          obtain ⟨h1, h2, h3⟩ := Scan.insertionPoint_eq_ok.1 h
          rw [hshift] at h1 h2 h3
          refine Scan.insertionPoint_eq_ok.2 ⟨h1, ?_, h3⟩
          obtain ⟨place, hplace, hsum⟩ := Option.map_eq_some_iff.1 h2
          rw [hplace, Option.some.injEq]
          omega
  · rintro ⟨front, back, rfl, rfl, hfront, base, hbase, hpoint⟩
    have hshift := Scan.run_shift (Text.byteLength front) hbase
    rw [insertionPoint, hfront.run, Scan.closedAt_eq_shift, hshift]
    exact Scan.insertionPoint_shift (Text.byteLength front) hpoint

/-- The text with a case in front of the brace of a cut. -/
theorem insertCase_eq {front back : List Char} (hfront : IsFront front) (hback : IsTail back)
    (caseText : List Char) :
    insertCase (front ++ '\x7d' :: back) caseText =
      .ok (Text.trimEnd front ++ ['\n', '\n'] ++ caseText ++ ['\n'] ++ '\x7d' :: back) := by
  have hpoint : insertionPoint (front ++ '\x7d' :: back) = .ok (Text.byteLength front) :=
    insertionPoint_eq_ok_iff.2 ⟨front, back, rfl, rfl, hfront, hback⟩
  rw [insertCase, hpoint]
  show Except.ok (insertAt _ caseText _) = _
  rw [insertAt, Text.splitAtByte_append]
  simp

/-- Only a text that takes cases gets one. -/
theorem insertionPoint_of_insertCase {text caseText out : List Char}
    (h : insertCase text caseText = .ok out) : ∃ offset, insertionPoint text = .ok offset := by
  rw [insertCase] at h
  cases hpoint : insertionPoint text with
  | error malformed =>
    rw [hpoint] at h
    cases h
  | ok offset => exact ⟨offset, rfl⟩

/-! ## Cases that close what they open -/

/-- Whether a case keeps to its place: read as a line of its own it closes no
block that it did not open, leaves none open, and leaves no comment or
literal open. -/
def BraceNeutral (caseText : List Char) : Prop :=
  ∃ last word, ({} : Scan).run (caseText ++ ['\n']) = .ok last ∧
    last.depth = 0 ∧ last.mode = .code word

/-- A text and the line ends in front of a case. -/
theorem front_lineEnds {front : List Char} (h : IsFront front) :
    (Mode.code []).after (Text.trimEnd front ++ ['\n', '\n']) = .code [] ∧
      (Mode.code []).depth? 0 (Text.trimEnd front ++ ['\n', '\n']) = some 1 := by
  obtain ⟨blanks, hblanks, hfront⟩ := Text.exists_trimEnd_append front
  have hcode := h.isCode
  have hdepth := h.depth
  rw [hfront, Mode.after_append] at hcode
  rw [hfront, Mode.depth?_append] at hdepth
  obtain ⟨depth, hd, hone⟩ := Option.bind_eq_some_iff.1 hdepth
  rw [Mode.depth?_of_isBlank hblanks] at hone
  constructor
  · rw [Mode.after_append]
    exact Mode.after_lineEnds_of_isCode hblanks hcode
  · rw [Mode.depth?_append, hd]
    have hends : ∀ c ∈ ['\n', '\n'], Text.isBlank c = true := by simp; rfl
    exact (Mode.depth?_of_isBlank hends _ depth).trans hone

/-- The front of a text with one more case. -/
theorem IsFront.insert {front caseText : List Char} (hfront : IsFront front)
    (hmode : ((Mode.code []).after (caseText ++ ['\n'])).isCode = true)
    (hdepth : (Mode.code []).depth? 1 (caseText ++ ['\n']) = some 1) :
    IsFront (Text.trimEnd front ++ ['\n', '\n'] ++ caseText ++ ['\n']) := by
  obtain ⟨hm, hd⟩ := front_lineEnds hfront
  rw [List.append_assoc _ caseText]
  constructor
  · rw [Mode.after_append, hm]
    exact hmode
  · rw [Mode.depth?_append, hd, hm]
    exact hdepth

theorem BraceNeutral.insert {front caseText : List Char} (hn : BraceNeutral caseText)
    (hfront : IsFront front) :
    IsFront (Text.trimEnd front ++ ['\n', '\n'] ++ caseText ++ ['\n']) := by
  obtain ⟨last, word, hrun, hzero, hword⟩ := hn
  obtain ⟨hmode, -, hdepth⟩ := Scan.run_ok hrun
  rw [hzero] at hdepth
  apply hfront.insert
  · show (Mode.after _ _).isCode = true
    rw [← hmode, hword]
    rfl
  · exact Mode.depth?_add hdepth 1

/-- Inserting a case that keeps to its place keeps a text one that takes
cases.  The case stands right in front of the same brace, and only blanks in
front of the brace are lost. -/
theorem insertionPoint_insertCase {text caseText : List Char} {offset : Nat}
    (h : insertionPoint text = .ok offset) (hn : BraceNeutral caseText) :
    ∃ front back, text = front ++ back ∧ Text.byteLength front = offset ∧
      back.head? = some '\x7d' ∧
      let out := Text.trimEnd front ++ ['\n', '\n'] ++ caseText ++ ['\n'] ++ back
      insertCase text caseText = .ok out ∧
        insertionPoint out = .ok (Text.byteLength out - (Text.byteLength text - offset)) := by
  obtain ⟨front, back, rfl, rfl, hfront, hback⟩ := insertionPoint_eq_ok_iff.1 h
  refine ⟨front, '\x7d' :: back, rfl, rfl, rfl, insertCase_eq hfront hback caseText, ?_⟩
  refine insertionPoint_eq_ok_iff.2 ⟨_, back, rfl, ?_, hn.insert hfront, hback⟩
  simp only [Text.byteLength_append]
  omega

/-- The blanks that are lost may have ended a literal, here one whose last
character is a backslash. -/
theorem insertionPoint_insertCase_openLiteral :
    insertionPoint "\x7b \"a\\\n\n \x7d // b".toList = .ok 8 ∧
      BraceNeutral "f()\x7b\x7d".toList ∧
      ∃ front back, "\x7b \"a\\\n\n \x7d // b".toList = front ++ back ∧
        Text.byteLength front = 8 ∧ back.head? = some '\x7d' ∧
        let out := Text.trimEnd front ++ ['\n', '\n'] ++ "f()\x7b\x7d".toList ++ ['\n'] ++ back
        insertCase "\x7b \"a\\\n\n \x7d // b".toList "f()\x7b\x7d".toList = .ok out ∧
          insertionPoint out = .ok (Text.byteLength out -
            (Text.byteLength "\x7b \"a\\\n\n \x7d // b".toList - 8)) := by
  have hpoint : insertionPoint "\x7b \"a\\\n\n \x7d // b".toList = .ok 8 := by rfl
  have hneutral : BraceNeutral "f()\x7b\x7d".toList :=
    ⟨⟨.code [], 6, 0, some 4, false⟩, [], by rfl, rfl, rfl⟩
  exact ⟨hpoint, hneutral, insertionPoint_insertCase hpoint hneutral⟩

end TestSkeleton.TestFile
