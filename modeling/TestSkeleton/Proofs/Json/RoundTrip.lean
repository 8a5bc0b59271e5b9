import TestSkeleton.Json.Layout
import TestSkeleton.Json.Value

/-!
# Reading what was written

A text that is written by a layout is read back as the value that the layout
stands for, whatever text follows it.

* `exists_spells_escape` says that every escape names its character, and
  `token?_quote` that a string is read back.
* `HasTokens` ties a text to its tokens, whatever text follows.
* `Writes` ties a layout to a value, over any stack of open arrays and
  objects.  `Writes.object` puts an object together from its members.
* `Writes.parse?_render` is the result for a whole text.
-/

namespace TestSkeleton.Json

/-! ## Strings -/

/-- Whether a piece is read from some characters and names the character `c`. -/
structure Spells (written : List Char) (piece : Piece) (c : Char) : Prop where
  read : ∀ tail, readPieces (written ++ tail) = (readPieces tail).map fun p => (piece :: p.1, p.2)
  decode : ∀ rest, decode (piece :: rest) = (Json.decode rest).map (c :: ·)

/-- A backslash and one more character. -/
theorem spells_short {c d : Char} (h : shortEscape? c = some d) (hu : c ≠ 'u') :
    Spells ['\\', c] (.char d) d := by
  refine ⟨?_, fun rest => rfl⟩
  intro tail
  rw [List.cons_append, List.cons_append, List.nil_append, readPieces]
  · rw [h]
    cases readPieces tail <;> rfl
  · rintro a b c' d' rest rfl
    exact fun _ => hu rfl

/-- A character that is written as it is. -/
theorem spells_plain {c : Char} (hquote : c ≠ '"') (hescape : c ≠ '\\')
    (hcontrol : ¬ c.toNat < 0x20) : Spells [c] (.char c) c := by
  refine ⟨?_, fun rest => rfl⟩
  intro tail
  rw [List.cons_append, List.nil_append, readPieces]
  · rw [if_neg (by simp [hcontrol, hescape])]
    cases readPieces tail <;> rfl
  · exact hquote
  · exact fun _ _ _ _ _ h => absurd h hescape
  · exact fun _ _ h => absurd h hescape

theorem unit?_control {n : Nat} (h : n < 0x20) :
    unit? '0' '0' (hexDigit (n / 16)) (hexDigit n) = some n := by
  have hall : ∀ n < 0x20, unit? '0' '0' (hexDigit (n / 16)) (hexDigit n) = some n := by decide
  exact hall n h

/-- A control that is written by its code. -/
theorem spells_control {c : Char} (h : c.toNat < 0x20) :
    Spells ['\\', 'u', '0', '0', hexDigit (c.toNat / 16), hexDigit c.toNat]
      (.escaped c.toNat) c := by
  constructor
  · intro tail
    simp only [List.cons_append, List.nil_append]
    rw [readPieces, unit?_control h]
    cases readPieces tail <;> rfl
  · -- a control is no half of a surrogate pair
    intro rest
    have hchar : Char.ofNat c.toNat = c := Char.ofNat_toNat c
    have hhigh : ¬ (0xD800 ≤ c.toNat) := by omega
    have hlow : ¬ (0xDC00 ≤ c.toNat) := by omega
    cases rest with
    | nil => simp [Json.decode, hhigh, hchar]
    | cons piece rest =>
      cases piece with
      | char d => simp [Json.decode, hhigh, hchar]
      | escaped low =>
        rw [Json.decode]
        simp [hhigh, hlow, hchar]

/-- Every character is read back from its escape. -/
theorem exists_spells_escape (c : Char) : ∃ piece, Spells (escape c) piece c := by
  have hshort : ∀ {d e : Char}, c = e → shortEscape? d = some e → d ≠ 'u' →
      ∃ piece, Spells ['\\', d] piece c := by
    intro d e hc hd hu
    exact ⟨_, hc ▸ spells_short hd hu⟩
  rw [escape]
  split
  · rename_i h
    exact hshort (beq_iff_eq.1 h) rfl (by decide)
  rename_i hquote
  split
  · rename_i h
    exact hshort (beq_iff_eq.1 h) rfl (by decide)
  rename_i hescape
  split
  · rename_i h
    exact hshort (beq_iff_eq.1 h) rfl (by decide)
  split
  · rename_i h
    exact hshort (beq_iff_eq.1 h) rfl (by decide)
  split
  · rename_i h
    exact hshort (beq_iff_eq.1 h) rfl (by decide)
  split
  · rename_i h
    exact hshort (beq_iff_eq.1 h) rfl (by decide)
  split
  · rename_i h
    exact hshort (beq_iff_eq.1 h) rfl (by decide)
  split
  · rename_i h
    exact ⟨_, spells_control h⟩
  · rename_i hcontrol
    exact ⟨_, spells_plain (by simpa using hquote) (by simpa using hescape) hcontrol⟩

/-- The escapes of a text up to the closing quote. -/
theorem exists_readPieces_escapes (cs tail : List Char) :
    ∃ pieces, readPieces (cs.flatMap escape ++ '"' :: tail) = some (pieces, tail) ∧
      decode pieces = some cs := by
  induction cs with
  | nil => exact ⟨[], rfl, rfl⟩
  | cons c cs ih =>
    obtain ⟨pieces, hread, hdecode⟩ := ih
    obtain ⟨piece, hpiece⟩ := exists_spells_escape c
    refine ⟨piece :: pieces, ?_, ?_⟩
    · rw [List.flatMap_cons, List.append_assoc, hpiece.read, hread]
      rfl
    · rw [hpiece.decode, hdecode]
      rfl

/-- A string is read back from its quotes. -/
theorem token?_quote (text : String) (tail : List Char) :
    token? (quote text ++ tail) = some (.string (some text), tail) := by
  obtain ⟨pieces, hread, hdecode⟩ := exists_readPieces_escapes text.toList tail
  have htext : quote text ++ tail = '"' :: (text.toList.flatMap escape ++ '"' :: tail) := by
    simp [quote]
  rw [htext]
  simp [token?, readString, hread, hdecode]

/-! ## Tokens -/

theorem tokens_of_isSpace {c : Char} (h : isSpace c = true) (cs : List Char) :
    tokens (c :: cs) = tokens cs := by
  rw [tokens, if_pos h]

theorem tokens_spaces {spaces : List Char} (h : ∀ c ∈ spaces, isSpace c = true)
    (cs : List Char) : tokens (spaces ++ cs) = tokens cs := by
  induction spaces with
  | nil => rfl
  | cons c spaces ih =>
    rw [List.cons_append, tokens_of_isSpace (h c (by simp))]
    exact ih fun d hd => h d (by simp [hd])

/-- No token starts with a blank. -/
theorem tokens_of_token? {cs rest : List Char} {token : Token}
    (h : token? cs = some (token, rest)) : tokens cs = (tokens rest).map (token :: ·) := by
  cases cs with
  | nil => cases h
  | cons c cs =>
    have hspace : isSpace c = false := by
      by_cases hblank : isSpace c = true
      · simp only [isSpace, Bool.or_eq_true, beq_iff_eq] at hblank
        rcases hblank with ((rfl | rfl) | rfl) | rfl <;> cases h
      · simpa using hblank
    rw [tokens, if_neg (by simp [hspace])]
    split
    · rename_i hnone
      rw [h] at hnone
      cases hnone
    · rename_i token' rest' hsome
      rw [h, Option.some.injEq, Prod.mk.injEq] at hsome
      obtain ⟨rfl, rfl⟩ := hsome
      rfl

/-- Whether a text starts with some tokens and ends where they end, whatever
text follows. -/
def HasTokens (text : List Char) (units : List Token) : Prop :=
  ∀ tail, tokens (text ++ tail) = (tokens tail).map (units ++ ·)

theorem hasTokens_spaces {spaces : List Char} (h : ∀ c ∈ spaces, isSpace c = true) :
    HasTokens spaces [] := by
  intro tail
  rw [tokens_spaces h]
  cases tokens tail <;> rfl

theorem hasTokens_of_token? {text : List Char} {token : Token}
    (h : ∀ tail, token? (text ++ tail) = some (token, tail)) : HasTokens text [token] := by
  intro tail
  rw [tokens_of_token? (h tail)]
  rfl

theorem HasTokens.append {text text' : List Char} {units units' : List Token}
    (h : HasTokens text units) (h' : HasTokens text' units') :
    HasTokens (text ++ text') (units ++ units') := by
  intro tail
  rw [List.append_assoc, h, h']
  cases tokens tail with
  | none => rfl
  | some rest => simp

/-- A line end and the indentation after it. -/
theorem hasTokens_newLine (depth : Nat) : HasTokens ('\n' :: Layout.indent depth) [] := by
  apply hasTokens_spaces
  intro c hc
  rcases List.mem_cons.1 hc with rfl | hc
  · rfl
  · rw [Layout.indent, List.mem_replicate] at hc
    rw [hc.2]
    rfl

/-! ## Values -/

/-- Whether a layout is read back as a value, whatever is open around it. -/
def Writes (layout : Layout) (value : Json) : Prop :=
  ∃ units, (∀ depth, HasTokens (layout depth) units) ∧
    ∀ stack rest, readRest .value stack (units ++ rest) = readRest (.after value) stack rest

theorem Writes.string (text : String) : Writes (Layout.string text) (.string (some text)) :=
  ⟨[.string (some text)], fun _ => hasTokens_of_token? (token?_quote text), fun _ _ => rfl⟩

theorem Writes.bool (value : Bool) : Writes (Layout.bool value) (.bool value) := by
  refine ⟨[.bool value], ?_, fun _ _ => rfl⟩
  intro depth
  apply hasTokens_of_token?
  intro tail
  cases value <;> rfl

section

variable {α : Type} (name : α → String) (layout : α → Layout) (value : α → Json)

theorem hasTokens_member {x : α} {units : List Token} {depth : Nat}
    (h : HasTokens (layout x depth) units) :
    HasTokens (Layout.member (name x) (layout x) depth)
      (.string (some (name x)) :: .colon :: units) := by
  have hname : HasTokens (quote (name x)) [.string (some (name x))] :=
    hasTokens_of_token? (token?_quote (name x))
  have hcolon : HasTokens [':'] [.colon] := hasTokens_of_token? fun _ => rfl
  have hblank : HasTokens [' '] [] := hasTokens_spaces (by simp [isSpace])
  exact (hname.append (hcolon.append hblank)).append h

/-- Some members, each on a line of its own, and the mark that closes their
object. -/
theorem exists_hasTokens_lines {xs : List α} (hne : xs ≠ [])
    (h : ∀ x ∈ xs, Writes (layout x) (value x)) :
    ∃ units, (∀ depth, HasTokens
        (Layout.lines depth (xs.map fun x => Layout.member (name x) (layout x))) units) ∧
      ∀ expected, expected = .name ∨ expected = .nameOrClose → ∀ done stack rest,
        readRest expected (.object done :: stack) (units ++ .closeObject :: rest) =
          readRest (.after (.object (done.reverse ++ xs.map fun x => (some (name x), value x))))
            stack rest := by
  induction xs with
  | nil => exact absurd rfl hne
  | cons x xs ih =>
    obtain ⟨units, htokens, hread⟩ := h x (by simp)
    have hline : ∀ depth, HasTokens
        ('\n' :: Layout.indent depth ++ Layout.member (name x) (layout x) depth)
        (.string (some (name x)) :: .colon :: units) := fun depth =>
      (hasTokens_newLine depth).append (hasTokens_member name layout (htokens depth))
    cases xs with
    | nil =>
      refine ⟨_, hline, ?_⟩
      rintro expected (rfl | rfl) done stack rest
      · show readRest .value (.member done (some (name x)) :: stack)
          (units ++ .closeObject :: rest) = _
        rw [hread]
        simp [readRest, advance, continueAfter]
      · show readRest .value (.member done (some (name x)) :: stack)
          (units ++ .closeObject :: rest) = _
        rw [hread]
        simp [readRest, advance, continueAfter]
    | cons y ys =>
      obtain ⟨later, hlater, hrest⟩ := ih (by simp) fun z hz => h z (by simp [hz])
      have hcomma : HasTokens [','] [.comma] := hasTokens_of_token? fun _ => rfl
      refine ⟨.string (some (name x)) :: .colon :: units ++ ([.comma] ++ later), ?_, ?_⟩
      · intro depth
        have hall := (hline depth).append (hcomma.append (hlater depth))
        exact hall
      have hnext : ∀ done stack rest, readRest .value (.member done (some (name x)) :: stack)
          (units ++ ([.comma] ++ (later ++ .closeObject :: rest))) =
            readRest (.after (.object (done.reverse ++ (x :: y :: ys).map fun z =>
              (some (name z), value z)))) stack rest := by
        intro done stack rest
        rw [hread]
        show readRest .name (.object ((some (name x), value x) :: done) :: stack)
          (later ++ .closeObject :: rest) = _
        rw [hrest .name (Or.inl rfl)]
        simp
      rintro expected (rfl | rfl) done stack rest
      · rw [← hnext]
        simp [readRest, advance]
      · rw [← hnext]
        simp [readRest, advance]

/-- An object is read back with its members in order. -/
theorem Writes.object {xs : List α} (h : ∀ x ∈ xs, Writes (layout x) (value x)) :
    Writes (Layout.object (xs.map fun x => (name x, layout x)))
      (.object (xs.map fun x => (some (name x), value x))) := by
  have hopen : HasTokens ['\x7b'] [.openObject] := hasTokens_of_token? fun _ => rfl
  have hclose : HasTokens ['\x7d'] [.closeObject] := hasTokens_of_token? fun _ => rfl
  by_cases hne : xs = []
  · subst hne
    refine ⟨[.openObject, .closeObject], ?_, fun _ _ => rfl⟩
    intro depth
    have hpair := hopen.append hclose
    exact hpair
  obtain ⟨units, hlines, hread⟩ := exists_hasTokens_lines name layout value hne h
  refine ⟨[.openObject] ++ (units ++ ([] ++ [.closeObject])), ?_, ?_⟩
  · intro depth
    have hblock : Layout.object (xs.map fun x => (name x, layout x)) depth =
        ['\x7b'] ++ (Layout.lines (depth + 1) (xs.map fun x => Layout.member (name x) (layout x)) ++
          ('\n' :: Layout.indent depth ++ ['\x7d'])) := by
      simp [Layout.object, Layout.block, hne]
      rfl
    rw [hblock]
    exact hopen.append ((hlines (depth + 1)).append ((hasTokens_newLine depth).append hclose))
  · intro stack rest
    have hmembers := hread .nameOrClose (Or.inr rfl) [] stack rest
    show readRest .nameOrClose (.object [] :: stack) (_ ++ rest) = _
    simpa using hmembers

end

/-- A text that ends with a line end is read back. -/
theorem Writes.parse?_render {layout : Layout} {value : Json} (h : Writes layout value) :
    parse? (layout.render ++ "\n") = some value := by
  obtain ⟨units, htokens, hread⟩ := h
  have htext : (layout.render ++ "\n").toList = layout 0 ++ ['\n'] := by
    simp [Layout.render]
  have hend : tokens ['\n'] = some [] := by
    rw [tokens_of_isSpace (by rfl), tokens]
  rw [parse?, htext, htokens 0, hend]
  show readRest .value [] (units ++ []) = some value
  rw [hread]
  rfl

end TestSkeleton.Json
