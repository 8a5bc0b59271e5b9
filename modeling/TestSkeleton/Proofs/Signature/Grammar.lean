import TestSkeleton.Signature.Reading
import TestSkeleton.Proofs.Signature.Binding

/-!
# The lines that hold a signature

`Parts` is a line that holds a signature, cut into its parts.  Reading gives
exactly the signatures of such lines, and a line has its parts in one way
only.

* `FollowsScopes` and `IsBarePart` say what is left of a name without its
  scopes and sigils, and `unqualify_eq_iff` that `unqualify` finds it.
* `Named` is a text that ends in a name, as the one in front of the first `(`
  has to.
* `Objection` gives the reason against a line that is neither blank nor has
  these parts: the first one that applies.
* `reading_eq_iff` is the result.
-/

namespace TestSkeleton

namespace Signature

variable {cs name last bare : List Char}

/-! ## Scopes and sigils -/

/-- What follows the last double colon of a name, or the name itself if it
has none.  Of three colons the last two count. -/
inductive FollowsScopes : List Char → List Char → Prop where
  | plain (name : List Char) (h : ¬ [':', ':'] <:+: name) : FollowsScopes name name
  | behind (scopes last : List Char) (h : ¬ [':', ':'] <:+: ':' :: last) :
      FollowsScopes (scopes ++ ':' :: ':' :: last) last

/-- What is left of a name without its scopes and the sigils after them. -/
def IsBarePart (name bare : List Char) : Prop :=
  ∃ sigils, AreSigils sigils ∧ FollowsScopes name (sigils ++ bare) ∧ IsBare bare

theorem beforeScope_of_no_colons (h : ¬ [':', ':'] <:+: cs) : beforeScope cs = cs := by
  fun_induction beforeScope cs with
  | case1 rest => exact absurd ⟨[], rest, rfl⟩ h
  | case2 c rest _ ih => rw [ih fun hrest => h (List.infix_cons hrest)]
  | case3 => rfl

theorem beforeScope_append_of_no_colons (h : ¬ [':', ':'] <:+: cs ++ [':']) (rest : List Char) :
    beforeScope (cs ++ ':' :: ':' :: rest) = cs := by
  induction cs with
  | nil => rfl
  | cons c cs ih =>
    rw [List.cons_append, beforeScope, ih fun hcs => h (List.infix_cons hcs)]
    -- the first two characters are no double colon
    intro others hc hcolons
    apply h
    subst hc
    cases cs with
    | nil => exact ⟨[], [], rfl⟩
    | cons d cs =>
      have hd : d = ':' := (List.cons.inj hcolons).1
      subst hd
      exact ⟨[], cs ++ [':'], rfl⟩

/-- A text with a double colon has a first one. -/
theorem exists_first_colons (h : [':', ':'] <:+: cs) : ∃ front rest,
    cs = front ++ ':' :: ':' :: rest ∧ ¬ [':', ':'] <:+: front ++ [':'] := by
  fun_induction beforeScope cs with
  | case1 rest => exact ⟨[], rest, rfl, by decide⟩
  | case2 c rest hno ih =>
    rcases List.infix_cons_iff.1 h with ⟨others, hprefix⟩ | hrest
    · have hcons := List.cons.inj hprefix
      exact absurd hcons.2.symm (hno others hcons.1.symm)
    · obtain ⟨front, others, rfl, hfront⟩ := ih hrest
      refine ⟨c :: front, others, rfl, fun hdouble => ?_⟩
      rcases List.infix_cons_iff.1 hdouble with ⟨after, hprefix⟩ | hdouble
      · -- the double colon would be at the start already
        obtain ⟨hc, hfirst⟩ := List.cons.inj hprefix
        cases front with
        | nil => exact hno (':' :: others) hc.symm rfl
        | cons d front =>
          have hd : ':' = d := (List.cons.inj hfirst).1
          subst hd
          exact hno (front ++ ':' :: ':' :: others) hc.symm rfl
      · exact hfront hdouble
  | case3 => exact absurd h (by decide)

theorem FollowsScopes.unscoped_eq (h : FollowsScopes name last) :
    Signature.unscoped name = last := by
  cases h with
  | plain _ h =>
    rw [Signature.unscoped, beforeScope_of_no_colons, List.reverse_reverse]
    exact fun hdouble => h (List.reverse_infix.1 hdouble)
  | behind scopes _ h =>
    have hreverse : (scopes ++ ':' :: ':' :: last).reverse =
        last.reverse ++ ':' :: ':' :: scopes.reverse := by simp
    rw [Signature.unscoped, hreverse, beforeScope_append_of_no_colons, List.reverse_reverse]
    rw [← List.reverse_cons]
    exact fun hdouble => h (List.reverse_infix.1 hdouble)

theorem followsScopes_unscoped (name : List Char) : FollowsScopes name (unscoped name) := by
  by_cases h : [':', ':'] <:+: name
  · have hreverse : [':', ':'] <:+: name.reverse := List.reverse_infix.2 h
    obtain ⟨front, rest, hname, hfront⟩ := exists_first_colons hreverse
    have hscoped : name = rest.reverse ++ ':' :: ':' :: front.reverse := by
      rw [← List.reverse_reverse name, hname]
      simp
    have hlast : ¬ [':', ':'] <:+: ':' :: front.reverse := by
      rw [← List.reverse_concat]
      exact fun hdouble => hfront (List.reverse_infix.1 hdouble)
    have hfollows := FollowsScopes.behind rest.reverse front.reverse hlast
    rw [← hscoped] at hfollows
    rwa [hfollows.unscoped_eq]
  · have hfollows := FollowsScopes.plain name h
    rwa [hfollows.unscoped_eq]

theorem FollowsScopes.no_colons (h : FollowsScopes name last) : ¬ [':', ':'] <:+: last := by
  cases h with
  | plain _ h => exact h
  | behind scopes _ h => exact fun hdouble => h (List.infix_cons hdouble)

/-- A name without its scopes and sigils is what is left of it. -/
theorem unqualify_eq_iff : unqualify name = bare ↔ IsBarePart name bare := by
  constructor
  · rintro rfl
    refine ⟨(unscoped name).takeWhile isSigil, areSigils_takeWhile _, ?_, isBare_dropWhile _⟩
    rw [unqualify, List.takeWhile_append_dropWhile]
    exact followsScopes_unscoped name
  · rintro ⟨sigils, hsigils, hfollows, hbare⟩
    rw [unqualify, hfollows.unscoped_eq, dropWhile_isSigil hsigils hbare]

theorem IsBarePart.no_colons (h : IsBarePart name bare) : ¬ [':', ':'] <:+: bare := by
  obtain ⟨sigils, -, hfollows, -⟩ := h
  exact fun hdouble => hfollows.no_colons (hdouble.trans (List.suffix_append sigils bare).isInfix)

theorem IsBarePart.isBare (h : IsBarePart name bare) : IsBare bare := by
  obtain ⟨-, -, -, hbare⟩ := h
  exact hbare

/-- Nothing is left out of a name a second time. -/
theorem IsBarePart.unqualify_self (h : IsBarePart name bare) : unqualify bare = bare :=
  unqualify_eq_iff.2 ⟨[], List.forall_mem_nil _, .plain bare h.no_colons, h.isBare⟩

/-! ## The text in front of the parameter list -/

/-- A text that ends in a name and blanks. -/
@[ext] structure Named where
  front : List Char
  name : List Char
  gap : List Char
  /-- What is left of the name. -/
  bare : List Char
  /-- What stands in front of the name is nothing, or ends in a blank. -/
  isApart : ∀ c ∈ front.getLast?, Text.isBlank c = true
  isSolid : Text.IsSolid name
  areBlanks : Text.AreBlanks gap
  isBarePart : IsBarePart name bare
  bare_ne_nil : bare ≠ []

namespace Named

/-- The text in front of a parameter list. -/
def chars (named : Named) : List Char :=
  named.front ++ named.name ++ named.gap

theorem getLast?_words (named : Named) :
    (Text.words named.chars).getLast? = some named.name :=
  Text.getLast?_words named.isApart named.isSolid named.areBlanks

theorem nameBefore?_chars (named : Named) : nameBefore? named.chars = some named.name := by
  rw [nameBefore?, named.getLast?_words]
  simp only
  rw [unqualify_eq_iff.2 named.isBarePart, if_neg (by simpa using named.bare_ne_nil)]

/-- A text ends in a name in one way. -/
theorem chars_injective : Function.Injective chars := by
  intro named other h
  have hname : named.name = other.name := by
    have hlast := named.getLast?_words
    rw [h, other.getLast?_words] at hlast
    exact (Option.some.inj hlast).symm
  have htrim : ∀ named : Named, Text.trimEnd named.chars = named.front ++ named.name := by
    intro named
    rw [chars, Text.trimEnd_append_blanks named.areBlanks]
    apply Text.trimEnd_of_getLast?
    intro c hc
    rw [List.getLast?_append_of_ne_nil _ named.isSolid.1] at hc
    exact named.isSolid.2 c (List.mem_of_getLast? hc)
  have hfront : named.front ++ named.name = other.front ++ other.name := by
    rw [← htrim, h, htrim]
  have hgap : named.gap = other.gap := by
    rw [chars, chars, hfront] at h
    exact List.append_cancel_left h
  have hbare : named.bare = other.bare := by
    rw [← unqualify_eq_iff.2 named.isBarePart, hname, unqualify_eq_iff.2 other.isBarePart]
  rw [hname] at hfront
  exact Named.ext (List.append_cancel_right hfront) hname hgap hbare

end Named

/-- A text without a name at its end has none that could be read. -/
theorem nameBefore?_eq_none (h : ¬ ∃ named : Named, cs = named.chars) : nameBefore? cs = none := by
  by_cases hblanks : Text.AreBlanks cs
  · have hwords := Text.words_blanks_end hblanks []
    rw [List.nil_append, Text.words_nil] at hwords
    rw [nameBefore?, hwords]
    rfl
  · obtain ⟨front, name, gap, rfl, hfront, hname, hgap⟩ := Text.exists_last_word hblanks
    rw [nameBefore?, Text.getLast?_words hfront hname hgap]
    simp only
    rw [if_pos]
    rw [List.isEmpty_iff]
    by_contra hbare
    exact h ⟨⟨front, name, gap, unqualify name, hfront, hname, hgap, unqualify_eq_iff.1 rfl, hbare⟩,
      rfl⟩

/-! ## The line -/

/-- A line that holds a signature. -/
@[ext] structure Parts extends Named where
  isFree : IsFree ['(', ')'] toNamed.chars
  parameters : List Char
  isClosed : ')' ∉ parameters
  /-- What follows the parameter list. -/
  rest : List Char

namespace Parts

/-- The text of the line. -/
def chars (parts : Parts) : List Char :=
  parts.toNamed.chars ++ '(' :: (parts.parameters ++ ')' :: parts.rest)

/-- What the line says about a function. -/
def signature (parts : Parts) : Signature :=
  ⟨String.ofList parts.name, String.ofList parts.parameters⟩

theorem not_mem_front (parts : Parts) {c : Char} (hc : c ∈ ['(', ')']) :
    c ∉ parts.toNamed.chars :=
  fun hmem => parts.isFree c hmem hc

/-- A line has its parts in one way. -/
theorem chars_injective : Function.Injective chars := by
  intro parts other h
  obtain ⟨hfront, hafter⟩ := Text.cut_inj (parts.not_mem_front (by decide))
    (other.not_mem_front (by decide)) h
  obtain ⟨hparameters, hrest⟩ := Text.cut_inj parts.isClosed other.isClosed hafter
  have hnamed := Named.chars_injective hfront
  exact Parts.ext (congrArg Named.front hnamed) (congrArg Named.name hnamed)
    (congrArg Named.gap hnamed) (congrArg Named.bare hnamed) hparameters hrest

theorem unqualifiedName_signature (parts : Parts) :
    parts.signature.unqualifiedName = String.ofList parts.bare := by
  rw [unqualifiedName, signature, String.toList_ofList, unqualify_eq_iff.2 parts.isBarePart]

end Parts

/-- The signature of a line, or the failure that tells why it has none. -/
def reading (line : String) : Except Failure Signature :=
  (read line).mapError (Refusal.toFailure line)

/-- The first reason against a line that is not blank.  Each of them leaves
out the lines to which one before it applies. -/
inductive Objection (line : List Char) : String → Prop where
  | missingOpen (h : '(' ∉ line) : Objection line "missing `(`"
  | missingClose (hopen : '(' ∈ line) (h : ')' ∉ line) : Objection line "missing `)`"
  | closeBeforeOpen (front back : List Char) (hopen : '(' ∉ front)
      (hline : line = front ++ ')' :: back) (hback : '(' ∈ back) :
      Objection line "`)` appears before `(`"
  | missingName (front back : List Char) (hopen : IsFree ['(', ')'] front)
      (hline : line = front ++ '(' :: back) (hclose : ')' ∈ back)
      (h : ¬ ∃ named : Named, front = named.chars) : Objection line "no method name before `(`"

/-- A line that is not blank holds a signature, or there is a reason against
it. -/
theorem exists_parts_or_objection (line : List Char) :
    (∃ parts : Parts, line = parts.chars) ∨ ∃ reason, Objection line reason := by
  by_cases hopen : '(' ∈ line
  · by_cases hclose : ')' ∈ line
    · obtain ⟨front, back, rfl, hfront⟩ := List.eq_append_cons_of_mem hopen
      by_cases hearly : ')' ∈ front
      · obtain ⟨before, between, rfl, -⟩ := List.eq_append_cons_of_mem hearly
        exact Or.inr ⟨_, .closeBeforeOpen before (between ++ '(' :: back)
          (fun hmem => hfront (List.mem_append_left _ hmem)) (by simp) (by simp)⟩
      · have hfree : IsFree ['(', ')'] front := by
          intro c hc hmark
          simp only [List.mem_cons, List.not_mem_nil, or_false] at hmark
          rcases hmark with rfl | rfl
          · exact hfront hc
          · exact hearly hc
        have hback : ')' ∈ back := by
          simpa [hearly] using hclose
        by_cases hnamed : ∃ named : Named, front = named.chars
        · obtain ⟨named, rfl⟩ := hnamed
          obtain ⟨parameters, rest, rfl, hparameters⟩ := List.eq_append_cons_of_mem hback
          exact Or.inl ⟨⟨named, hfree, parameters, hparameters, rest⟩, rfl⟩
        · exact Or.inr ⟨_, .missingName front back hfree rfl hback hnamed⟩
    · exact Or.inr ⟨_, .missingClose hopen hclose⟩
  · exact Or.inr ⟨_, .missingOpen hopen⟩

variable {line : String}

/-- Reading a line with both parentheses in order. -/
theorem read_of_open {front back : List Char} (hfront : IsFree ['(', ')'] front)
    (hline : line.toList = front ++ '(' :: back) (hback : ')' ∈ back) :
    read line = match nameBefore? front with
      | none => .error .missingName
      | some name =>
        .ok ⟨String.ofList name, String.ofList (back.takeWhile (fun c => c != ')'))⟩ := by
  have hopen : '(' ∉ front := fun hmem => hfront _ hmem (by decide)
  have hclose : front.contains ')' = false := by
    rw [Bool.eq_false_iff]
    exact fun hmem => hfront _ (List.contains_iff_mem.1 hmem) (by decide)
  have hblank : (front ++ '(' :: back).all Text.isBlank = false := by
    rw [List.all_append, List.all_cons, show Text.isBlank '(' = false by rfl,
      Bool.false_and, Bool.and_false]
  have hhas : ∀ c ∈ ['(', ')'], (front ++ '(' :: back).contains c = true := by
    intro c hc
    rw [List.contains_iff_mem]
    simp only [List.mem_cons, List.not_mem_nil, or_false] at hc
    rcases hc with rfl | rfl
    · simp
    · simp [hback]
  have hdrop : (front ++ '(' :: back).drop (front.length + 1) = back := by
    rw [← List.drop_drop, List.drop_left, List.drop_one, List.tail_cons]
  rw [read, hline]
  cases hname : nameBefore? front with
  | none =>
    simp only [Text.takeWhile_ne hopen back, hblank, hhas '(' (by decide), hhas ')' (by decide),
      hclose, hname, Bool.not_true, Bool.false_eq_true, if_false]
  | some name =>
    simp only [Text.takeWhile_ne hopen back, hblank, hhas '(' (by decide), hhas ')' (by decide),
      hclose, hname, hdrop, Bool.not_true, Bool.false_eq_true, if_false]

theorem read_parts (parts : Parts) (hline : line.toList = parts.chars) :
    read line = .ok parts.signature := by
  have hback : ')' ∈ parts.parameters ++ ')' :: parts.rest := by simp
  rw [read_of_open parts.isFree hline hback, parts.nameBefore?_chars]
  simp only
  rw [Text.takeWhile_ne parts.isClosed]
  rfl

theorem reading_of_areBlanks (hline : Text.AreBlanks line.toList) :
    reading line = .error .emptySelection := by
  have hall : line.toList.all Text.isBlank = true := List.all_eq_true.2 hline
  rw [reading, read]
  simp only [hall, if_true]
  rfl

/-- The first reason against a line is the one that is given. -/
theorem reading_of_objection {reason : String} (hline : ¬ Text.AreBlanks line.toList)
    (h : Objection line.toList reason) :
    reading line = .error (.invalidSignature (Text.trimmed line) reason) := by
  have hall : line.toList.all Text.isBlank = false := by
    rw [Bool.eq_false_iff]
    exact fun hall => hline (List.all_eq_true.1 hall)
  have hcontains : ∀ {c : Char}, c ∉ line.toList → line.toList.contains c = false := by
    intro c hc
    rw [Bool.eq_false_iff]
    exact fun hmem => hc (List.contains_iff_mem.1 hmem)
  rw [reading]
  cases h with
  | missingOpen h =>
    rw [read]
    simp only [hall, hcontains h, Bool.false_eq_true, if_false, Bool.not_false, if_true]
    rfl
  | missingClose hopen h =>
    rw [read]
    simp only [hall, hcontains h, List.contains_iff_mem.2 hopen, Bool.false_eq_true, if_false,
      Bool.not_false, Bool.not_true, if_true]
    rfl
  | closeBeforeOpen front back hopen hfirst hback =>
    have hmem : '(' ∈ line.toList ∧ ')' ∈ line.toList := by
      rw [hfirst]
      simp [hback]
    have hearly : (line.toList.takeWhile (fun c => c != '(')).contains ')' = true := by
      rw [List.contains_iff_mem, hfirst, List.takeWhile_append_of_pos]
      · simp
      · exact fun c hc => bne_iff_ne.2 fun hparen => hopen (hparen ▸ hc)
    rw [read]
    simp only [hall, List.contains_iff_mem.2 hmem.1, List.contains_iff_mem.2 hmem.2, hearly,
      Bool.false_eq_true, if_false, Bool.not_true, if_true]
    rfl
  | missingName front back hopen hfirst hclose h =>
    rw [read_of_open hopen hfirst hclose, nameBefore?_eq_none h]
    rfl

/-- A line is read exactly if it can be cut into the parts of a signature.
There is one way to cut it, the name and the parameters are two of the parts,
and the bare name is left as it is when scopes and sigils are taken from it
again.  Any other line is a failure: of an empty selection if it is blank, and
otherwise with the first reason that applies. -/
theorem reading_eq_iff :
    Function.Injective Parts.chars ∧
    (∀ parts : Parts, parts.signature.unqualifiedName = String.ofList parts.bare ∧
      ¬ [':', ':'] <:+: parts.bare ∧ IsBare parts.bare ∧ unqualify parts.bare = parts.bare) ∧
    ∀ line : String,
      (∀ signature, reading line = .ok signature ↔
        ∃ parts : Parts, line.toList = parts.chars ∧ signature = parts.signature) ∧
      ∀ failure, reading line = .error failure ↔
        Text.AreBlanks line.toList ∧ failure = .emptySelection ∨
        ¬ Text.AreBlanks line.toList ∧ ∃ reason, Objection line.toList reason ∧
          failure = .invalidSignature (Text.trimmed line) reason := by
  refine ⟨Parts.chars_injective, ?_, ?_⟩
  · intro parts
    exact ⟨parts.unqualifiedName_signature, parts.isBarePart.no_colons, parts.isBarePart.isBare,
      parts.isBarePart.unqualify_self⟩
  · intro line
    have hparts : ∀ parts : Parts, line.toList = parts.chars →
        reading line = .ok parts.signature := by
      intro parts hline
      rw [reading, read_parts parts hline]
      rfl
    -- each line has one of the three outcomes
    have hcases : (∃ parts : Parts, line.toList = parts.chars) ∨
        Text.AreBlanks line.toList ∨
          ¬ Text.AreBlanks line.toList ∧ ∃ reason, Objection line.toList reason := by
      by_cases hblanks : Text.AreBlanks line.toList
      · exact Or.inr (Or.inl hblanks)
      · rcases exists_parts_or_objection line.toList with h | h
        · exact Or.inl h
        · exact Or.inr (Or.inr ⟨hblanks, h⟩)
    refine ⟨fun signature => ⟨fun h => ?_, ?_⟩, fun failure => ⟨fun h => ?_, ?_⟩⟩
    · rcases hcases with ⟨parts, hline⟩ | hblanks | ⟨hblanks, reason, hreason⟩
      · refine ⟨parts, hline, ?_⟩
        rw [hparts parts hline] at h
        exact (Except.ok.inj h).symm
      · rw [reading_of_areBlanks hblanks] at h
        cases h
      · rw [reading_of_objection hblanks hreason] at h
        cases h
    · rintro ⟨parts, hline, rfl⟩
      exact hparts parts hline
    · rcases hcases with ⟨parts, hline⟩ | hblanks | ⟨hblanks, reason, hreason⟩
      · rw [hparts parts hline] at h
        cases h
      · rw [reading_of_areBlanks hblanks] at h
        exact Or.inl ⟨hblanks, (Except.error.inj h).symm⟩
      · rw [reading_of_objection hblanks hreason] at h
        exact Or.inr ⟨hblanks, reason, hreason, (Except.error.inj h).symm⟩
    · rintro (⟨hblanks, rfl⟩ | ⟨hblanks, reason, hreason, rfl⟩)
      · exact reading_of_areBlanks hblanks
      · exact reading_of_objection hblanks hreason

/-- Three colons, a blank that is no space and a second `(` after the first. -/
example : reading "static ns:::*run\u00a0(int (*f)(int), x);" = .ok ⟨"ns:::*run", "int (*f"⟩ ∧
    unqualify "ns:::*run".toList = "run".toList := by
  decide +kernel

end Signature

end TestSkeleton
