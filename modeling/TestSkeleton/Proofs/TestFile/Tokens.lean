import TestSkeleton.Proofs.TestFile.Inserting
import Mathlib.Data.List.Chain
import Mathlib.Algebra.BigOperators.Group.List.Basic

/-!
# A text read by its tokens

The scan looks at one character at a time.  Here a text is put together from
the tokens of the language instead, and the place for a case is told from the
tokens alone (`insertionPoint_render`): the braces have to be balanced, and
the last token of code has to be a closing brace.

* `Token` has a constructor for each kind of token.  A token carries what
  makes it one token, and `Token.mayPrecede` says which two may not stand
  side by side because they would be read as something else.
* `Mode.Passes` is what reading a token without braces does to a scan, and
  composes (`Passes.append`).  `Token.passes` has one case for each kind.
* `Follows` relates a scan to the tokens behind it.  One token keeps it
  (`Follows.run_token`), so a text of tokens does (`run_render`).
-/

namespace TestSkeleton.TestFile

/-! ## Tokens -/

/-- Whether some characters are letters, digits and `_`, and at least one. -/
def IsGroup (cs : List Char) : Prop :=
  cs ≠ [] ∧ ∀ c ∈ cs, Text.isAsciiWord c = true

instance (cs : List Char) : Decidable (IsGroup cs) :=
  decidable_of_iff (cs ≠ [] ∧ cs.all Text.isAsciiWord = true) (and_congr_right' List.all_eq_true)

/-- A word is a group of letters, digits and `_`.  One that starts with a
digit may go on after a single `'`, as `1'000` does. -/
structure Word where
  first : List Char
  others : List (List Char)
  isGroup : ∀ group ∈ first :: others, IsGroup group
  isDigit : others ≠ [] → ∃ c cs, first = c :: cs ∧ c.isDigit = true

/-- The groups of a word after its first one, each behind its `'`. -/
def Word.separated (groups : List (List Char)) : List Char :=
  groups.flatMap fun group => '\'' :: group

/-- The text of a word. -/
def Word.chars (word : Word) : List Char :=
  word.first ++ separated word.others

/-- Whether a word says how the literal behind it is encoded. -/
def Word.isEncoding (word : Word) : Bool :=
  word.chars == ['L'] || word.chars == ['u'] || word.chars == ['U'] || word.chars == ['u', '8']

/-- A part of the body of a literal. -/
inductive Piece (quote : Char) where
  /-- A character that stands for itself. -/
  | plain (c : Char) (h : c ≠ quote ∧ c ≠ '\\' ∧ c ≠ '\n')
  /-- Any character, after a backslash. -/
  | escaped (c : Char)

/-- The text of a part of a literal. -/
def Piece.chars {quote : Char} : Piece quote → List Char
  | .plain c _ => [c]
  | .escaped c => ['\\', c]

/-- The tokens of a test file. -/
inductive Token where
  | blanks (c : Char) (cs : List Char) (h : ∀ d ∈ c :: cs, Text.isBlank d = true)
  | word (word : Word)
  | string (body : List (Piece '"'))
  | character (body : List (Piece '\''))
  | lineComment (body : List Char) (h : '\n' ∉ body)
  | blockComment (body : List Char) (h : ¬ ['*', '/'] <:+: body)
  | openBrace
  | closeBrace
  /-- Any character that starts no other token, or a `/` of its own. -/
  | other (c : Char) (hword : Text.isAsciiWord c = false) (hblank : Text.isBlank c = false)
      (hmark : c = '/' ∨ isMark c = false)

namespace Token

/-- The text of a token. -/
def chars : Token → List Char
  | .blanks c cs _ => c :: cs
  | .word w => w.chars
  | .string body => '"' :: body.flatMap Piece.chars ++ ['"']
  | .character body => '\'' :: body.flatMap Piece.chars ++ ['\'']
  | .lineComment body _ => ['/', '/'] ++ body ++ ['\n']
  | .blockComment body _ => ['/', '*'] ++ body ++ ['*', '/']
  | .openBrace => ['\x7b']
  | .closeBrace => ['\x7d']
  | .other c _ _ _ => [c]

/-- Whether a token is neither blank nor a comment. -/
def isCode : Token → Bool
  | .blanks .. | .lineComment .. | .blockComment .. => false
  | _ => true

/-- Whether a token may be followed by another one.  Two words would be one,
a `'` after a word may be part of it, and a `/` may start a comment. -/
def mayPrecede : Token → Token → Bool
  | .word _, .word _ => false
  | .word w, .character _ => w.isEncoding
  | .other c _ _ _, token =>
    c != '/' || (token.chars.head? != some '/' && token.chars.head? != some '*')
  | _, _ => true

/-- What a token adds to the number of open blocks. -/
def weight : Token → Int
  | .openBrace => 1
  | .closeBrace => -1
  | _ => 0

end Token

/-- The text of some tokens. -/
def render (tokens : List Token) : List Char :=
  tokens.flatMap Token.chars

/-- The number of blocks that are open after some tokens. -/
def depthOf (tokens : List Token) : Int :=
  tokens.foldl (fun depth token => depth + token.weight) 0

/-- Whether no brace closes more blocks than are open. -/
def NeverNegative (tokens : List Token) : Prop :=
  ∀ front, front <+: tokens → 0 ≤ depthOf front

/-- Whether the last token of code is a closing brace, and at which offset it
stands. -/
def EndsWithBrace (tokens : List Token) (offset : Nat) : Prop :=
  ∃ front back, tokens = front ++ .closeBrace :: back ∧ (∀ token ∈ back, token.isCode = false) ∧
    Text.byteLength (render front) = offset

@[simp] theorem render_append (tokens others : List Token) :
    render (tokens ++ others) = render tokens ++ render others :=
  List.flatMap_append

@[simp] theorem render_singleton (token : Token) : render [token] = token.chars :=
  List.append_nil _

@[simp] theorem depthOf_concat (tokens : List Token) (token : Token) :
    depthOf (tokens ++ [token]) = depthOf tokens + token.weight := by
  simp [depthOf]

theorem neverNegative_concat {tokens : List Token} {token : Token} :
    NeverNegative (tokens ++ [token]) ↔
      NeverNegative tokens ∧ 0 ≤ depthOf (tokens ++ [token]) := by
  constructor
  · intro h
    exact ⟨fun front hfront => h front (hfront.trans (List.prefix_append _ _)),
      h _ List.prefix_rfl⟩
  · rintro ⟨htokens, hall⟩ front hfront
    rcases List.prefix_concat_iff.1 hfront with rfl | hfront
    · exact hall
    · exact htokens front hfront

/-! ### The last token of code -/

theorem endsWithBrace_concat_iff {tokens : List Token} {token : Token} {offset : Nat} :
    EndsWithBrace (tokens ++ [token]) offset ↔
      token = .closeBrace ∧ Text.byteLength (render tokens) = offset ∨
        token.isCode = false ∧ EndsWithBrace tokens offset := by
  constructor
  · rintro ⟨front, back, htokens, hback, hoffset⟩
    rcases List.eq_nil_or_concat back with rfl | ⟨back, last, rfl⟩
    · obtain ⟨rfl, rfl⟩ := List.append_singleton_inj.1 htokens
      exact Or.inl ⟨rfl, hoffset⟩
    · rw [List.concat_eq_append, ← List.cons_append, ← List.append_assoc] at htokens
      obtain ⟨rfl, rfl⟩ := List.append_singleton_inj.1 htokens
      exact Or.inr ⟨hback token (by simp), front, back, rfl,
        fun other hother => hback other (by simp [hother]), hoffset⟩
  · rintro (⟨rfl, hoffset⟩ | ⟨htoken, front, back, rfl, hback, hoffset⟩)
    · exact ⟨tokens, [], rfl, by simp, hoffset⟩
    · refine ⟨front, back ++ [token], by simp, ?_, hoffset⟩
      intro other hother
      rcases List.mem_append.1 hother with hother | hother
      · exact hback other hother
      · rw [List.mem_singleton.1 hother, htoken]

theorem endsWithBrace_concat_of_silent {tokens : List Token} {token : Token} {offset : Nat}
    (h : token.isCode = false) :
    EndsWithBrace (tokens ++ [token]) offset ↔ EndsWithBrace tokens offset := by
  have hbrace : token ≠ .closeBrace := by
    rintro rfl
    cases h
  simp [endsWithBrace_concat_iff, h, hbrace]

theorem endsWithBrace_concat_of_code {tokens : List Token} {token : Token} {offset : Nat}
    (h : token.isCode = true) :
    EndsWithBrace (tokens ++ [token]) offset ↔
      token = .closeBrace ∧ Text.byteLength (render tokens) = offset := by
  simp [endsWithBrace_concat_iff, h]

/-! ## Reading a text without braces -/

/-- Whether a text leads from one mode to another without a brace of code.
`isCode` tells whether it holds code. -/
def Mode.Passes (mode : Mode) (cs : List Char) (isCode : Bool) (last : Mode) : Prop :=
  ∀ scan : Scan, scan.mode = mode → ∃ next, scan.run cs = .ok next ∧ next.mode = last ∧
    next.depth = scan.depth ∧ next.lastClose? = scan.lastClose? ∧
    next.endsWithCode = (scan.endsWithCode || isCode)

namespace Mode.Passes

variable {mode between last : Mode} {c : Char} {cs ds : List Char}

theorem nil (mode : Mode) : mode.Passes [] false mode :=
  fun scan hmode => ⟨scan, rfl, hmode, rfl, rfl, by simp⟩

theorem append {isCode isCode' : Bool} (hcs : mode.Passes cs isCode between)
    (hds : between.Passes ds isCode' last) : mode.Passes (cs ++ ds) (isCode || isCode') last := by
  intro scan hmode
  obtain ⟨scan1, hrun1, hmode1, hdepth1, hclose1, hcode1⟩ := hcs scan hmode
  obtain ⟨scan2, hrun2, hmode2, hdepth2, hclose2, hcode2⟩ := hds scan1 hmode1
  refine ⟨scan2, Scan.run_append_ok.2 ⟨scan1, hrun1, hrun2⟩, hmode2, hdepth2.trans hdepth1,
    hclose2.trans hclose1, ?_⟩
  rw [hcode2, hcode1, Bool.or_assoc]

/-- A character of code that is no brace. -/
theorem of_plain (mode : Mode) (c : Char) (h : mode.effect c = .plain) :
    mode.Passes [c] true (mode.next c) := by
  rintro scan rfl
  refine ⟨{ scan.plain (scan.mode.next c) with offset := scan.offset + c.utf8Size }, ?_,
    rfl, rfl, rfl, ?_⟩
  · rw [Scan.run_cons, Scan.step_eq, h]
    rfl
  · simp [Scan.endsWithCode, Scan.plain]

/-- A blank or a part of a comment.  A `/` is code as long as nothing follows
that makes it a comment. -/
theorem of_silent (mode : Mode) (c : Char) (h : mode.effect c = .silent)
    (hslash : mode ≠ .slash) :
    mode.Passes [c] (mode.next c == .slash) (mode.next c) := by
  rintro scan rfl
  refine ⟨{ scan with mode := scan.mode.next c, offset := scan.offset + c.utf8Size }, ?_,
    rfl, rfl, rfl, ?_⟩
  · rw [Scan.run_cons, Scan.step_eq, h]
    rfl
  · simp [Scan.endsWithCode, beq_false_of_ne hslash]

/-! ### Blanks and comments -/

theorem of_blank (h : Text.isBlank c = true) (word : List Char) :
    (Mode.code word).Passes [c] false (.code []) := by
  have hmark := isMark_of_isBlank h
  simp only [isMark, Bool.or_eq_false_iff] at hmark
  have hword : Text.isAsciiWord c = false := by
    cases hw : Text.isAsciiWord c with
    | false => rfl
    | true =>
      rw [isBlank_of_isAsciiWord hw] at h
      cases h
  have hnext : (Mode.code word).next c = .code [] := by
    simp [next, nextCode, hword, hmark]
  have heffect : (Mode.code word).effect c = .silent := by
    simp [effect, effectCode, h, hmark]
  have hpass := of_silent _ c heffect (by simp)
  rwa [hnext] at hpass

theorem blanks (h : ∀ d ∈ c :: cs, Text.isBlank d = true) (word : List Char) :
    (Mode.code word).Passes (c :: cs) false (.code []) := by
  induction cs generalizing c word with
  | nil => exact of_blank (h c (by simp)) word
  | cons d ds ih =>
    exact (of_blank (h c (by simp)) word).append (ih (fun e he => h e (by simp [he])) [])

theorem lineComment (h : '\n' ∉ cs) : Mode.lineComment.Passes cs false .lineComment := by
  induction cs with
  | nil => exact nil _
  | cons c cs ih =>
    simp only [List.mem_cons, not_or] at h
    have hnext : Mode.lineComment.next c = .lineComment := by
      simp [next, Ne.symm h.1]
    have hhead := of_silent .lineComment c rfl (by simp)
    rw [hnext] at hhead
    exact hhead.append (ih h.2)

/-- A text without `*/` stays in the comment. -/
theorem blockComment (star : Bool) (h : ¬ ['*', '/'] <:+: cs)
    (hstar : star = true → cs.head? ≠ some '/') :
    ∃ star', (Mode.blockComment star).Passes cs false (.blockComment star') := by
  induction cs generalizing star with
  | nil => exact ⟨star, nil _⟩
  | cons c cs ih =>
    have hnext : (Mode.blockComment star).next c = .blockComment (c == '*') := by
      cases star with
      | false => rfl
      | true => simpa [next] using hstar
    have hhead := of_silent (.blockComment star) c rfl (by simp)
    rw [hnext] at hhead
    have htail : ¬ ['*', '/'] <:+: cs := fun hin => h (hin.trans (List.suffix_cons c cs).isInfix)
    have hfirst : (c == '*') = true → cs.head? ≠ some '/' := by
      intro hc hd
      obtain ⟨rest, rfl⟩ := List.head?_eq_some_iff.1 hd
      rw [beq_iff_eq.1 hc] at h
      exact h (List.prefix_append ['*', '/'] rest).isInfix
    obtain ⟨star', hrest⟩ := ih _ htail hfirst
    exact ⟨star', hhead.append hrest⟩

/-- Two characters start a comment. -/
theorem startComment (hmode : mode = .lineComment ∧ c = '/' ∨ mode = .blockComment false ∧ c = '*')
    (word : List Char) : (Mode.code word).Passes ['/', c] false mode := by
  intro scan hscan
  refine ⟨{ scan with mode := mode, offset := scan.offset + '/'.utf8Size + c.utf8Size }, ?_, rfl,
    rfl, rfl, ?_⟩
  · rcases hmode with ⟨rfl, rfl⟩ | ⟨rfl, rfl⟩ <;>
    · rw [Scan.run_cons, Scan.step_eq, hscan]
      rfl
  · have hcode : Mode.code word ≠ .slash := nofun
    have hslash : mode ≠ .slash := by
      rcases hmode with ⟨rfl, -⟩ | ⟨rfl, -⟩ <;> simp
    simp [Scan.endsWithCode, hscan, beq_false_of_ne hcode, beq_false_of_ne hslash]

/-! ### Literals -/

theorem piece {quote : Char} (piece : Piece quote) :
    ∃ isCode, (Mode.literal quote false).Passes piece.chars isCode (.literal quote false) := by
  cases piece with
  | plain c h =>
    have hnext : (Mode.literal quote false).next c = .literal quote false := by
      simp [next, nextLiteral, h]
    refine ⟨true, ?_⟩
    have hpass := of_plain (.literal quote false) c rfl
    rwa [hnext] at hpass
  | escaped c =>
    refine ⟨true || (Mode.literal quote false == .slash), ?_⟩
    have hslash : (Mode.literal quote false).next '\\' = .literal quote true := by
      simp [next, nextLiteral]
    have hhead := of_plain (.literal quote false) '\\' rfl
    rw [hslash] at hhead
    exact hhead.append (of_silent (.literal quote true) c rfl (by simp))

theorem pieces {quote : Char} (body : List (Piece quote)) :
    ∃ isCode, (Mode.literal quote false).Passes (body.flatMap Piece.chars) isCode
      (.literal quote false) := by
  induction body with
  | nil => exact ⟨false, nil _⟩
  | cons head body ih =>
    obtain ⟨isCode, hhead⟩ := piece head
    obtain ⟨isCode', hbody⟩ := ih
    exact ⟨isCode || isCode', hhead.append hbody⟩

/-- A literal whose quote the word in front of it allows. -/
theorem literal {quote : Char} (hquote : quote = '"' ∨ quote = '\'') {word : List Char}
    (hnext : (Mode.code word).next quote = .literal quote false) (body : List (Piece quote)) :
    (Mode.code word).Passes (quote :: body.flatMap Piece.chars ++ [quote]) true (.code []) := by
  have heffect : (Mode.code word).effect quote = .plain := by
    rcases hquote with rfl | rfl <;> rfl
  have hend : (Mode.literal quote false).next quote = .code [] := by
    rcases hquote with rfl | rfl <;> rfl
  have hopen := of_plain _ _ heffect
  rw [hnext] at hopen
  obtain ⟨isCode, hbody⟩ := pieces body
  have hclose := of_plain (.literal quote false) quote rfl
  rw [hend] at hclose
  exact (hopen.append hbody).append hclose

/-! ### Words -/

theorem wordChar (h : Text.isAsciiWord c = true) (word : List Char) :
    (Mode.code word).Passes [c] true (.code (c :: word)) := by
  have hmark := isMark_of_isAsciiWord h
  simp only [isMark, Bool.or_eq_false_iff] at hmark
  have hnext : (Mode.code word).next c = .code (c :: word) := by
    simp [next, nextCode, h]
  have heffect : (Mode.code word).effect c = .plain := by
    simp [effect, effectCode, isBlank_of_isAsciiWord h, hmark]
  have hpass := of_plain _ _ heffect
  rwa [hnext] at hpass

theorem group (h : IsGroup cs) (word : List Char) :
    (Mode.code word).Passes cs true (.code (cs.reverse ++ word)) := by
  obtain ⟨hne, hcs⟩ := h
  induction cs generalizing word with
  | nil => exact absurd rfl hne
  | cons c cs ih =>
    have hhead := wordChar (hcs c (by simp)) word
    cases cs with
    | nil => exact hhead
    | cons d ds =>
      have htail := ih (c :: word) (by simp) fun e he => hcs e (List.mem_cons_of_mem c he)
      rw [List.reverse_cons, List.append_assoc]
      exact hhead.append htail

/-- A `'` after a word that does not stand for an encoding. -/
theorem separator {word : List Char} (h : opensLiteral word = false) :
    (Mode.code word).Passes ['\''] true (.code ('\'' :: word)) := by
  have hnext : (Mode.code word).next '\'' = .code ('\'' :: word) := by
    simp [next, nextCode, h]
  have hpass := of_plain (.code word) '\'' rfl
  rwa [hnext] at hpass

end Mode.Passes

/-! ## One token -/

/-- A word that starts with a digit opens no literal, wherever it is cut. -/
theorem opensLiteral_of_isDigit {c : Char} (h : c.isDigit = true) (cs : List Char) :
    opensLiteral (cs ++ [c]) = false := by
  have hne : ∀ mark : List Char, (∀ d ∈ mark.getLast?, d.isDigit = false) → cs ++ [c] ≠ mark := by
    rintro mark hmark rfl
    rw [hmark c (by simp)] at h
    cases h
  have hL := hne ['L'] (by simp)
  have hu := hne ['u'] (by simp)
  have hU := hne ['U'] (by simp)
  have hu8 := hne ['8', 'u'] (by simp)
  simp [opensLiteral, beq_false_of_ne hL, beq_false_of_ne hu, beq_false_of_ne hU,
    beq_false_of_ne hu8]

/-- The groups of a word that starts with a digit. -/
theorem Mode.Passes.separated {groups : List (List Char)} (h : ∀ group ∈ groups, IsGroup group)
    {c : Char} (hdigit : c.isDigit = true) (word : List Char) :
    ∃ isCode, (Mode.code (word ++ [c])).Passes (Word.separated groups) isCode
      (.code ((Word.separated groups).reverse ++ (word ++ [c]))) := by
  induction groups generalizing word with
  | nil => exact ⟨false, nil _⟩
  | cons group groups ih =>
    have hhead := (Mode.Passes.separator (opensLiteral_of_isDigit hdigit word)).append
      (Mode.Passes.group (h group (by simp)) _)
    have hword : group.reverse ++ '\'' :: (word ++ [c]) =
        (group.reverse ++ '\'' :: word) ++ [c] := by simp
    rw [hword] at hhead
    obtain ⟨isCode, hrest⟩ := ih (fun other hother => h other (by simp [hother]))
      (group.reverse ++ '\'' :: word)
    have hchars : Word.separated (group :: groups) = ['\''] ++ group ++ Word.separated groups := rfl
    refine ⟨true || true || isCode, ?_⟩
    rw [hchars]
    simpa using hhead.append hrest

theorem Word.passes (w : Word) : (Mode.code []).Passes w.chars true (.code w.chars.reverse) := by
  have hfirst := Mode.Passes.group (w.isGroup w.first (by simp)) []
  rw [List.append_nil] at hfirst
  by_cases hothers : w.others = []
  · rw [chars, hothers]
    simpa [separated] using hfirst
  · obtain ⟨c, cs, hcs, hdigit⟩ := w.isDigit hothers
    obtain ⟨isCode, hrest⟩ := Mode.Passes.separated
      (fun group hgroup => w.isGroup group (List.mem_cons_of_mem _ hgroup)) hdigit cs.reverse
    rw [← List.reverse_cons, ← hcs] at hrest
    rw [chars, List.reverse_append]
    exact hfirst.append hrest

namespace Token

/-- The mode behind a token. -/
def endMode : Token → Mode
  | .word w => .code w.chars.reverse
  | .other c _ _ _ => if c = '/' then .slash else .code []
  | _ => .code []

/-- Whether a token is read as such behind the characters of a word. -/
def Fits (word : List Char) : Token → Prop
  | .word _ => word = []
  | .character _ => opensLiteral word = true
  | _ => True

/-- Reading a token other than a brace. -/
theorem passes {token : Token} {word : List Char} (h : token.Fits word)
    (hbrace : token.weight = 0) :
    (Mode.code word).Passes token.chars token.isCode token.endMode := by
  cases token with
  | blanks c cs hblank => exact .blanks hblank word
  | word w =>
    obtain rfl : word = [] := h
    exact w.passes
  | string body => exact .literal (Or.inl rfl) rfl body
  | character body =>
    have hnext : (Mode.code word).next '\'' = .literal '\'' false := by
      have hopens : opensLiteral word = true := h
      simp [Mode.next, Mode.nextCode, hopens]
      rfl
    exact .literal (Or.inr rfl) hnext body
  | lineComment body hbody =>
    have hend := Mode.Passes.of_silent .lineComment '\n' rfl (by simp)
    exact ((Mode.Passes.startComment (Or.inl ⟨rfl, rfl⟩) word).append (.lineComment hbody)).append
      hend
  | blockComment body hbody =>
    obtain ⟨star, hinner⟩ := Mode.Passes.blockComment false hbody (by simp)
    have hend : (Mode.blockComment star).Passes ['*', '/'] false (.code []) := by
      have hstar := Mode.Passes.of_silent (.blockComment star) '*' rfl (by simp)
      have hnext : (Mode.blockComment star).next '*' = .blockComment true := by
        simp [Mode.next]
      rw [hnext] at hstar
      exact hstar.append
        (Mode.Passes.of_silent (.blockComment true) '/' rfl (by simp))
    exact ((Mode.Passes.startComment (Or.inr ⟨rfl, rfl⟩) word).append hinner).append hend
  | openBrace => cases hbrace
  | closeBrace => cases hbrace
  | other c hword hblank hmark =>
    rcases hmark with rfl | hmark
    · exact .of_silent (.code word) '/' rfl (by simp)
    · simp only [isMark, Bool.or_eq_false_iff] at hmark
      have hnext : (Mode.code word).next c = .code [] := by
        simp [Mode.next, Mode.nextCode, hword, hmark]
      have heffect : (Mode.code word).effect c = .plain := by
        simp [Mode.effect, Mode.effectCode, hblank, hmark]
      have hslash : c ≠ '/' := by
        simpa using hmark.1.1.1.1
      have hpass := Mode.Passes.of_plain _ _ heffect
      rw [hnext] at hpass
      rwa [endMode, if_neg hslash]

theorem fits_nil (token : Token) : token.Fits [] := by
  cases token <;> first | rfl | trivial

/-- A token ends in code, of which the last character may be a `/`. -/
theorem endMode_cases (token : Token) :
    (∃ word, token.endMode = .code word) ∨ token.endMode = .slash := by
  cases token with
  | other c hword hblank hmark =>
    by_cases hc : c = '/'
    · exact Or.inr (if_pos hc)
    · exact Or.inl ⟨[], if_neg hc⟩
  | _ => exact Or.inl ⟨_, rfl⟩

theorem fits_of_mayPrecede {last token : Token} {word : List Char}
    (h : last.mayPrecede token = true) (hmode : last.endMode = .code word) : token.Fits word := by
  cases last with
  | word w =>
    obtain rfl : w.chars.reverse = word := Mode.code.inj hmode
    cases token with
    | word => cases h
    | character body =>
      have hmark : w.isEncoding = true := h
      simp only [Word.isEncoding, Bool.or_eq_true, beq_iff_eq] at hmark
      show opensLiteral w.chars.reverse = true
      rcases hmark with ((hw | hw) | hw) | hw <;>
      · rw [hw]
        rfl
    | _ => trivial
  | other c hword hblank hmark =>
    by_cases hc : c = '/'
    · rw [endMode, if_pos hc] at hmode
      cases hmode
    · rw [endMode, if_neg hc, Mode.code.injEq] at hmode
      exact hmode ▸ token.fits_nil
  | _ =>
    obtain rfl : [] = word := Mode.code.inj hmode
    exact token.fits_nil

theorem chars_ne_nil (token : Token) : token.chars ≠ [] := by
  cases token with
  | word w =>
    have hfirst := (w.isGroup w.first (by simp)).1
    simp [chars, Word.chars, hfirst]
  | _ => simp [chars]

/-- What follows a `/` that is a token starts no comment with it. -/
theorem exists_chars_of_mayPrecede {last token : Token} (h : last.mayPrecede token = true)
    (hmode : last.endMode = .slash) :
    ∃ c cs, token.chars = c :: cs ∧ c ≠ '/' ∧ c ≠ '*' := by
  cases last with
  | other c hword hblank hmark =>
    have hc : c = '/' := by
      by_contra hne
      rw [endMode, if_neg hne] at hmode
      cases hmode
    obtain ⟨d, ds, hchars⟩ := List.exists_cons_of_ne_nil token.chars_ne_nil
    refine ⟨d, ds, hchars, ?_⟩
    simpa [mayPrecede, hc, hchars] using h
  | _ => cases hmode

end Token

/-- The mode behind some tokens. -/
def endMode (tokens : List Token) : Mode :=
  match tokens.getLast? with
  | none => .code []
  | some last => last.endMode

/-- A `/` that starts no comment is code like any other. -/
theorem Scan.run_of_slash {scan : Scan} {c : Char} (cs : List Char) (hmode : scan.mode = .slash)
    (hslash : c ≠ '/') (hstar : c ≠ '*') :
    scan.run (c :: cs) = (scan.plain (.code [])).run (c :: cs) := by
  have hread : scan.read c = (scan.plain (.code [])).read c := by
    simp only [Scan.read, hmode, beq_iff_eq, hslash, hstar, if_false]
    rfl
  have hstep : scan.step c = (scan.plain (.code [])).step c := by
    rw [Scan.step, Scan.step, hread]
    rfl
  rw [Scan.run_cons, Scan.run_cons, hstep]

/-! ## A run over tokens -/

/-- What a scan has recorded about the tokens behind it. -/
structure Follows (tokens : List Token) (scan : Scan) : Prop where
  offset : scan.offset = Text.byteLength (render tokens)
  depth : (scan.depth : Int) = depthOf tokens
  close : ∀ offset, scan.lastClose? = some offset ∧ scan.endsWithCode = false ↔
    depthOf tokens = 0 ∧ EndsWithBrace tokens offset

/-- A token is read from a mode that it fits: a `/` in front of it is code. -/
theorem exists_fits {tokens : List Token} {token : Token} {scan : Scan}
    (hmode : scan.mode = endMode tokens) (h : Follows tokens scan)
    (hnext : ∀ last ∈ tokens.getLast?, last.mayPrecede token = true) :
    ∃ settled word, settled.mode = .code word ∧ token.Fits word ∧ Follows tokens settled ∧
      scan.run token.chars = settled.run token.chars := by
  cases hlast : tokens.getLast? with
  | none =>
    rw [endMode, hlast] at hmode
    exact ⟨scan, [], hmode, token.fits_nil, h, rfl⟩
  | some last =>
    rw [endMode, hlast] at hmode
    have hprec := hnext last hlast
    rcases last.endMode_cases with ⟨word, hword⟩ | hslash
    · exact ⟨scan, word, hmode.trans hword, Token.fits_of_mayPrecede hprec hword, h, rfl⟩
    · obtain ⟨c, cs, hchars, hc, hstar⟩ := Token.exists_chars_of_mayPrecede hprec hslash
      have hcode : scan.endsWithCode = true := by
        simp [Scan.endsWithCode, hmode, hslash]
      have hfollows : Follows tokens (scan.plain (.code [])) := by
        refine ⟨h.offset, h.depth, fun offset => ?_⟩
        rw [← h.close offset, hcode]
        simp [Scan.endsWithCode, Scan.plain]
      refine ⟨scan.plain (.code []), [], rfl, token.fits_nil, hfollows, ?_⟩
      rw [hchars, Scan.run_of_slash cs (hmode.trans hslash) hc hstar]

/-- A token other than a brace. -/
theorem Follows.run_plain {tokens : List Token} {token : Token} {scan : Scan} {word : List Char}
    (h : Follows tokens scan) (hmode : scan.mode = .code word) (hfits : token.Fits word)
    (hbrace : token.weight = 0) :
    ∃ next, scan.run token.chars = .ok next ∧ next.mode = token.endMode ∧
      Follows (tokens ++ [token]) next := by
  obtain ⟨next, hrun, hend, hdepth, hclose, hcode⟩ := Token.passes hfits hbrace scan hmode
  obtain ⟨-, hoffset, -⟩ := Scan.run_ok hrun
  refine ⟨next, hrun, hend, ?_, ?_, fun offset => ?_⟩
  · rw [hoffset, h.offset, render_append, render_singleton, Text.byteLength_append]
  · rw [hdepth, h.depth, depthOf_concat, hbrace, add_zero]
  · rw [hclose, hcode, depthOf_concat, hbrace, add_zero]
    cases htoken : token.isCode with
    | false => rw [Bool.or_false, endsWithBrace_concat_of_silent htoken, h.close offset]
    | true =>
      rw [endsWithBrace_concat_of_code htoken]
      constructor
      · rintro ⟨-, hfalse⟩
        simp at hfalse
      · rintro ⟨-, rfl, -⟩
        cases hbrace

theorem Follows.run_openBrace {tokens : List Token} {scan : Scan} {word : List Char}
    (h : Follows tokens scan) (hmode : scan.mode = .code word) :
    ∃ next, scan.run Token.openBrace.chars = .ok next ∧ next.mode = .code [] ∧
      Follows (tokens ++ [.openBrace]) next := by
  have hoffset := h.offset
  have hdepth := h.depth
  refine ⟨{ scan.openBlock with offset := scan.offset + '\x7b'.utf8Size }, ?_, rfl, ?_, ?_,
    fun offset => ?_⟩
  · rw [Token.chars, Scan.run_cons, Scan.step_eq, hmode]
    rfl
  · show scan.offset + _ = _
    rw [hoffset, render_append, render_singleton, Text.byteLength_append]
    rfl
  · rw [depthOf_concat, ← hdepth]
    rfl
  · rw [endsWithBrace_concat_of_code rfl]
    simp [Scan.endsWithCode, Scan.openBlock]

theorem Follows.run_closeBrace {tokens : List Token} {scan : Scan} {word : List Char}
    (h : Follows tokens scan) (hmode : scan.mode = .code word)
    (hdepth : 0 ≤ depthOf (tokens ++ [.closeBrace])) :
    ∃ next, scan.run Token.closeBrace.chars = .ok next ∧ next.mode = .code [] ∧
      Follows (tokens ++ [.closeBrace]) next := by
  have hweight : Token.closeBrace.weight = -1 := rfl
  have hoffset : scan.offset + 1 = Text.byteLength (render (tokens ++ [.closeBrace])) := by
    rw [h.offset, render_append, render_singleton, Text.byteLength_append]
    rfl
  have hbefore := h.depth
  rw [depthOf_concat, hweight] at hdepth
  obtain ⟨depth, hone⟩ : ∃ depth, scan.depth = depth + 1 := ⟨scan.depth - 1, by omega⟩
  cases depth with
  | zero =>
    refine ⟨Scan.closedAt scan.offset, ?_, rfl, hoffset, ?_, fun offset => ?_⟩
    · rw [Token.chars, Scan.run_cons, Scan.step_close (by rw [hmode]; rfl) hone]
      rfl
    · rw [depthOf_concat, hweight, ← hbefore, hone]
      rfl
    · rw [endsWithBrace_concat_of_code rfl, depthOf_concat, hweight, ← hbefore, hone, ← h.offset]
      simp [Scan.closedAt, Scan.endsWithCode]
  | succ depth =>
    refine ⟨{ scan with mode := .code [], offset := scan.offset + 1, depth := depth + 1,
                        trailing := true }, ?_, rfl, hoffset, ?_, fun offset => ?_⟩
    · obtain ⟨mode, offset, before, last, trailing⟩ := scan
      obtain rfl : mode = .code word := hmode
      obtain rfl : before = depth + 2 := hone
      rfl
    · show ((depth + 1 : Nat) : Int) = _
      rw [depthOf_concat, hweight, ← hbefore, hone]
      omega
    · rw [depthOf_concat, hweight, ← hbefore, hone]
      constructor
      · rintro ⟨-, hfalse⟩
        cases hfalse
      · rintro ⟨hzero, -⟩
        omega

/-- Reading one more token. -/
theorem Follows.run_token {tokens : List Token} {token : Token} {scan : Scan} {word : List Char}
    (h : Follows tokens scan) (hmode : scan.mode = .code word) (hfits : token.Fits word)
    (hdepth : 0 ≤ depthOf (tokens ++ [token])) :
    ∃ next, scan.run token.chars = .ok next ∧ next.mode = token.endMode ∧
      Follows (tokens ++ [token]) next := by
  cases token with
  | openBrace => exact h.run_openBrace hmode
  | closeBrace => exact h.run_closeBrace hmode hdepth
  | _ => exact h.run_plain hmode hfits rfl

/-- A brace that closes nothing. -/
theorem Follows.run_token_error {tokens : List Token} {token : Token} {scan : Scan}
    {word : List Char} (h : Follows tokens scan) (hmode : scan.mode = .code word)
    (hdepth : depthOf (tokens ++ [token]) < 0) : ∃ offset, scan.run token.chars = .error offset := by
  have hbefore := h.depth
  rw [depthOf_concat] at hdepth
  cases token with
  | closeBrace =>
    have hweight : Token.closeBrace.weight = -1 := rfl
    rw [hweight] at hdepth
    have hzero : scan.depth = 0 := by omega
    obtain ⟨mode, offset, depth, last, trailing⟩ := scan
    obtain rfl : mode = .code word := hmode
    obtain rfl : depth = 0 := hzero
    exact ⟨offset, rfl⟩
  | _ =>
    simp only [Token.weight] at hdepth
    omega

/-- A text of tokens is read to its end unless a brace closes nothing. -/
theorem run_render {tokens : List Token} (h : tokens.IsChain fun t u => t.mayPrecede u = true) :
    (NeverNegative tokens ∧ ∃ scan, ({} : Scan).run (render tokens) = .ok scan ∧
      scan.mode = endMode tokens ∧ Follows tokens scan) ∨
    (¬ NeverNegative tokens ∧ ∃ offset, ({} : Scan).run (render tokens) = .error offset) := by
  induction tokens using List.reverseRecOn with
  | nil =>
    refine Or.inl ⟨?_, {}, rfl, rfl, rfl, rfl, ?_⟩
    · intro front hfront
      rw [List.prefix_nil.1 hfront]
      exact Int.le_refl 0
    · simp [EndsWithBrace]
  | append_singleton tokens token ih =>
    obtain ⟨htokens, -, hnext⟩ := List.isChain_append.1 h
    rw [render_append, render_singleton, Scan.run_append, neverNegative_concat]
    rcases ih htokens with ⟨hnonneg, scan, hrun, hmode, hfollows⟩ | ⟨hneg, offset, hrun⟩
    · obtain ⟨settled, word, hword, hfits, hsettled, hsame⟩ :=
        exists_fits hmode hfollows fun last hlast => hnext last hlast token rfl
      rw [hrun]
      show _ ∧ (∃ next, scan.run token.chars = _ ∧ _) ∨ _ ∧ ∃ offset, scan.run token.chars = _
      rw [hsame]
      by_cases hdepth : 0 ≤ depthOf (tokens ++ [token])
      · obtain ⟨next, hnext, hend, hnew⟩ := hsettled.run_token hword hfits hdepth
        refine Or.inl ⟨⟨hnonneg, hdepth⟩, next, hnext, ?_, hnew⟩
        rw [hend, endMode, List.getLast?_concat]
      · exact Or.inr ⟨fun hall => hdepth hall.2,
          hsettled.run_token_error hword (Int.not_le.1 hdepth)⟩
    · exact Or.inr ⟨fun hall => hneg hall.1, offset, by rw [hrun]; rfl⟩

/-! ## The place for a case -/

/-- Whether every brace of some tokens has its partner. -/
structure IsBalanced (tokens : List Token) : Prop where
  neverNegative : NeverNegative tokens
  total : depthOf tokens = 0

/-- A text takes a case in front of its last closing brace if its braces are
balanced and no other code follows that brace.  Otherwise it is malformed. -/
theorem insertionPoint_render {tokens : List Token}
    (h : tokens.IsChain fun t u => t.mayPrecede u = true) :
    (∀ offset, insertionPoint (render tokens) = .ok offset ↔
      IsBalanced tokens ∧ EndsWithBrace tokens offset) ∧
    (¬ (IsBalanced tokens ∧ ∃ offset, EndsWithBrace tokens offset) →
      ∃ malformed, insertionPoint (render tokens) = .error malformed) := by
  have hiff : ∀ offset, insertionPoint (render tokens) = .ok offset ↔
      IsBalanced tokens ∧ EndsWithBrace tokens offset := by
    intro offset
    rw [insertionPoint]
    rcases run_render h with ⟨hnonneg, scan, hrun, -, hfollows⟩ | ⟨hneg, place, hrun⟩
    · rw [hrun]
      show scan.insertionPoint = _ ↔ _
      rw [Scan.insertionPoint_eq_ok, hfollows.close offset]
      constructor
      · rintro ⟨-, htotal, hend⟩
        exact ⟨⟨hnonneg, htotal⟩, hend⟩
      · rintro ⟨⟨-, htotal⟩, hend⟩
        have hzero := hfollows.depth.trans htotal
        exact ⟨Int.natCast_eq_zero.1 hzero, htotal, hend⟩
    · rw [hrun]
      constructor
      · intro hok
        cases hok
      · rintro ⟨hbalanced, -⟩
        exact absurd hbalanced.neverNegative hneg
  refine ⟨hiff, fun hnot => ?_⟩
  cases hpoint : insertionPoint (render tokens) with
  | error malformed => exact ⟨malformed, rfl⟩
  | ok offset =>
    obtain ⟨hbalanced, hend⟩ := (hiff offset).1 hpoint
    exact absurd ⟨hbalanced, offset, hend⟩ hnot

/-- Tokens of every kind, with braces in literals and comments. -/
def sampleTokens : List Token :=
  let group (cs : List Char) (h : IsGroup cs) : Token :=
    .word ⟨cs, [], by simpa using h, by simp⟩
  [.openBrace, group ['L'] (by decide), .character [.plain '\x7b' (by decide)],
    .other '/' (by decide) (by decide) (by decide),
    .word ⟨['1'], [['0', '0', '0']], by decide, fun _ => ⟨'1', [], rfl, by decide⟩⟩,
    .blockComment ['\x7d', '*'] (by decide), group ['f'] (by decide),
    .string [.escaped '"', .plain '\x7d' (by decide)], .blanks '\n' [] (by simp; rfl),
    .openBrace, .closeBrace, .closeBrace, .blanks ' ' [] (by simp; rfl),
    .lineComment ['\x7d'] (by decide)]

theorem insertionPoint_render_sampleTokens :
    sampleTokens.IsChain (fun t u => t.mayPrecede u = true) ∧
      render sampleTokens = "\x7bL'\x7b'/1'000/*\x7d**/f\"\\\"\x7d\"\n\x7b\x7d\x7d //\x7d\n".toList ∧
      IsBalanced sampleTokens ∧ EndsWithBrace sampleTokens 26 := by
  have hchain : sampleTokens.IsChain fun t u => t.mayPrecede u = true := by decide
  exact ⟨hchain, by rfl, ((insertionPoint_render hchain).1 26).1 (by rfl)⟩

end TestSkeleton.TestFile
