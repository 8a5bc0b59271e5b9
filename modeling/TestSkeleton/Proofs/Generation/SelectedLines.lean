import TestSkeleton.Proofs.Generation.Previewing
import TestSkeleton.Proofs.Generation.Sources

/-!
# Lines of a source file

A signature that is selected by the number of its line is the text of that
line, however the lines end.

* `Listing` is a text in its lines: each with the line feed or the carriage
  return and line feed behind it, and the last one possibly with nothing.
* `lineOf_text` is the line with a number, which is empty beyond the last one.
* `run_generate_of_selects` says that the selection is the only thing that
  tells two generations for one source file apart.
* `generate_line_eq_text` puts these together, on any system that answers a
  read with the listing.
-/

namespace TestSkeleton

namespace Text

/-- Characters of a class behind a text that does not end with one are
dropped. -/
theorem dropEndWhile_append {p : Char → Bool} {cs dropped : List Char}
    (hcs : ∀ c ∈ cs.getLast?, p c = false) (hdropped : ∀ c ∈ dropped, p c = true) :
    dropEndWhile p (cs ++ dropped) = cs := by
  have hkept : cs.reverse.dropWhile p = cs.reverse := by
    cases hback : cs.reverse with
    | nil => rfl
    | cons c rest =>
      have hlast : c ∈ cs.getLast? := by
        rw [← List.head?_reverse, hback]
        rfl
      exact List.dropWhile_cons_of_neg (by simp [hcs c hlast])
  rw [dropEndWhile, List.reverse_append,
    List.dropWhile_append_of_pos fun c hc => hdropped c (List.mem_reverse.1 hc), hkept,
    List.reverse_reverse]

end Text

namespace Source

/-! ## The lines of a text -/

/-- How a line ends. -/
inductive LineEnd where
  | lineFeed
  | returnLineFeed
deriving DecidableEq, Repr

/-- The characters of a line end before its line feed. -/
def LineEnd.mark : LineEnd → List Char
  | .lineFeed => []
  | .returnLineFeed => ['\r']

/-- A line without its end. -/
structure Line where
  text : String
  unbroken : '\n' ∉ text.toList
  /-- A carriage return at the end would belong to the line end. -/
  unreturned : text.toList.getLast? ≠ some '\r'

/-- A text in its lines. -/
structure Listing where
  ended : List (Line × LineEnd)
  /-- A last line without an end. -/
  unended : Option Line

namespace Listing

/-- A line with its end. -/
def endedChars (line : Line × LineEnd) : List Char :=
  line.1.text.toList ++ (line.2.mark ++ ['\n'])

/-- What stands behind the last line end. -/
def unendedChars (unended : Option Line) : List Char :=
  (unended.map fun line => line.text.toList).getD []

/-- The characters of the lines with their ends. -/
def chars (listing : Listing) : List Char :=
  listing.ended.flatMap endedChars ++ unendedChars listing.unended

/-- The text of the lines. -/
def text (listing : Listing) : String :=
  String.ofList listing.chars

/-- The lines in order. -/
def lines (listing : Listing) : List Line :=
  listing.ended.map Prod.fst ++ listing.unended.toList

/-- Without its line feed a line has its text and at most a carriage
return. -/
theorem fields_endedChars (line : Line × LineEnd) (rest : List Char) :
    Text.fields (fun c => c == '\n') (endedChars line ++ rest) =
      (line.1.text.toList ++ line.2.mark) :: Text.fields (fun c => c == '\n') rest := by
  have hunbroken : ∀ c ∈ line.1.text.toList ++ line.2.mark, (c == '\n') = false := by
    intro c hc
    rw [beq_eq_false_iff_ne]
    rintro rfl
    rcases List.mem_append.1 hc with hc | hc
    · exact line.1.unbroken hc
    · cases hend : line.2 <;> rw [hend] at hc <;> simp [LineEnd.mark] at hc
  rw [endedChars, List.append_assoc, List.append_assoc, ← List.append_assoc]
  exact Text.fields_append_sep hunbroken (by rfl) rest

theorem fields_unendedChars (unended : Option Line) :
    Text.fields (fun c => c == '\n') (unendedChars unended) = [unendedChars unended] := by
  refine Text.fields_eq_singleton fun c hc => beq_eq_false_iff_ne.2 ?_
  rintro rfl
  cases unended with
  | none => cases hc
  | some line => exact line.unbroken hc

/-- A text is cut into its lines with their carriage returns, and what stands
behind the last line end. -/
theorem fields_chars (listing : Listing) :
    Text.fields (fun c => c == '\n') listing.chars =
      listing.ended.map (fun line => line.1.text.toList ++ line.2.mark) ++
        [unendedChars listing.unended] := by
  rw [chars]
  induction listing.ended with
  | nil => exact fields_unendedChars listing.unended
  | cons line ended ih =>
    rw [List.flatMap_cons, List.append_assoc, fields_endedChars, ih]
    rfl

end Listing

/-- The carriage return of a line end is dropped, and none of the line. -/
theorem Line.dropEndWhile_mark (line : Line) (lineEnd : LineEnd) :
    Text.dropEndWhile (fun c => c == '\r') (line.text.toList ++ lineEnd.mark) =
      line.text.toList := by
  refine Text.dropEndWhile_append (fun c hc => ?_) fun c hc => ?_
  · rw [beq_eq_false_iff_ne]
    rintro rfl
    exact line.unreturned hc
  · cases lineEnd <;> simp_all [LineEnd.mark]

/-- The line with a number, and an empty one beyond the last line. -/
theorem lineOf_text (listing : Listing) (index : Nat) :
    lineOf listing.text (index + 1) = (listing.lines[index]?.map Line.text).getD "" := by
  have hunended : ∀ unended : Option Line,
      Text.dropEndWhile (fun c => c == '\r') (Listing.unendedChars unended) =
        Listing.unendedChars unended := by
    rintro (_ | line)
    · rfl
    · have hkept := line.dropEndWhile_mark .lineFeed
      rw [LineEnd.mark, List.append_nil] at hkept
      exact hkept
  simp only [lineOf, Listing.text, String.toList_ofList, Listing.fields_chars, Listing.lines,
    Nat.add_sub_cancel]
  -- the fields are one more than the lines if the last line is ended
  induction listing.ended generalizing index with
  | nil =>
    cases index with
    | zero =>
      rw [List.map_nil, List.map_nil, List.nil_append, List.nil_append, List.getD_cons_zero,
        hunended]
      cases listing.unended with
      | none => rfl
      | some line => exact String.ofList_toList
    | succ index =>
      cases listing.unended <;> rfl
  | cons line ended ih =>
    cases index with
    | zero =>
      rw [List.map_cons, List.cons_append, List.getD_cons_zero, Line.dropEndWhile_mark,
        String.ofList_toList]
      rfl
    | succ index => exact ih index

end Source

namespace Generation

open Files (Action Memory Request Reply)
open Source (Listing)

variable {σ : Type} {serve : (request : Request) → σ → Reply request × σ} {state : σ}
  {store : TestStore} {settings : Settings} {prompt : Source.FolderPrompt} {dryRun : Bool}
  {source : String}

/-! ## The selection -/

theorem run_readText_of_read {text : String}
    (h : serve (.read source) state = (.ok text.toUTF8, state)) :
    Action.run serve (Action.readText source) state = (.ok text, state) := by
  have hread : Action.run serve (Action.read source) state = (.ok text.toUTF8, state) := h
  rw [Action.readText, Action.bind_eq, Action.run_andThen, hread]
  simp only [Text.fromUTF8?_toUTF8]
  rfl

/-- A line of a source file is selected without a change. -/
theorem run_selectedLine_line {text : String} (hsource : source.isEmpty = false)
    (h : serve (.read source) state = (.ok text.toUTF8, state)) (index : Nat) :
    Action.run serve
        (Source.Context.selectedLine ⟨some source, .line (index + 1)⟩) state =
      (.ok (Source.lineOf text (index + 1)), state) := by
  have hpath : Source.Context.path ⟨some source, .line (index + 1)⟩ = .ok source :=
    if_neg (by simp [hsource])
  simp only [Source.Context.selectedLine, hpath, Action.bind_eq, Action.run_andThen,
    run_readText_of_read h]
  rfl

/-- Two generations for one source file that select the same are the same. -/
theorem run_generate_of_selects {context context' : Source.Context}
    (hsource : context.source = context'.source)
    (h : Action.run serve context.selectedLine state =
      Action.run serve context'.selectedLine state) :
    Action.run serve (generate store settings context prompt dryRun) state =
      Action.run serve (generate store settings context' prompt dryRun) state := by
  have hpath : context.path = context'.path := by
    rw [Source.Context.path, Source.Context.path, hsource]
  rw [generate, generate, hpath]
  cases context'.path with
  | error failure => rfl
  | ok source =>
    simp only
    split
    · rfl
    · rw [Action.bind_eq, Action.bind_eq, Action.run_andThen, Action.run_andThen, h]

/-- Nothing is generated for an empty selection. -/
theorem run_generate_of_empty {selection : Source.Selection} {result : Except Failure String}
    (hsource : settings.naming.isSource source = true)
    (hresult : result = .error .emptySelection ∨ result = .ok "")
    (h : Action.run serve (Source.Context.selectedLine ⟨some source, selection⟩) state =
      (result, state)) :
    Action.run serve (generate store settings ⟨some source, selection⟩ prompt dryRun) state =
      ((.error .emptySelection, store), state) := by
  have hpath : Source.Context.path ⟨some source, selection⟩ = .ok source :=
    if_neg (by simp [isEmpty_of_isSource hsource])
  rw [generate, hpath]
  simp only [hsource, Bool.not_true, Bool.false_eq_true, if_false, Action.bind_eq,
    Action.run_andThen, h]
  rcases hresult with rfl | rfl
  · rfl
  · have hplan : plan settings source "" = .error .emptySelection := rfl
    simp only [hplan]
    rfl

/-- For a source file in lines, the generation for the line with a number is
the generation for its text: the result, what was asked, the store and the
system afterwards are the same.  For the number 0, and beyond the last line,
nothing is selected and nothing changes. -/
theorem generate_line_eq_text {listing : Listing}
    (hsource : settings.naming.isSource source = true)
    (hread : serve (.read source) state = (.ok listing.text.toUTF8, state)) :
    (∀ (index : Nat) (line : Source.Line), listing.lines[index]? = some line →
      Action.run serve
          (generate store settings ⟨some source, .line (index + 1)⟩ prompt dryRun) state =
        Action.run serve
          (generate store settings ⟨some source, .text line.text⟩ prompt dryRun) state) ∧
    ∀ number, number = 0 ∨ listing.lines.length < number →
      Action.run serve
          (generate store settings ⟨some source, .line number⟩ prompt dryRun) state =
        ((.error .emptySelection, store), state) := by
  have hne := isEmpty_of_isSource hsource
  constructor
  · intro index line hline
    refine run_generate_of_selects rfl ?_
    rw [run_selectedLine_line hne hread, Source.lineOf_text, hline]
    rfl
  · intro number hnumber
    cases number with
    | zero => exact run_generate_of_empty hsource (Or.inl rfl) rfl
    | succ index =>
      have hbeyond : listing.lines[index]? = none :=
        List.getElem?_eq_none_iff.2 (by omega)
      have hselects := run_selectedLine_line hne hread index
      rw [Source.lineOf_text, hbeyond] at hselects
      exact run_generate_of_empty hsource (Or.inr rfl) hselects

/-- Three lines that end in three ways. -/
def mixedListing : Listing where
  ended := [(⟨"void Run(int a);", by decide, by decide⟩, .returnLineFeed),
    (⟨"", by decide, by decide⟩, .lineFeed)]
  unended := some ⟨"void Stop();", by decide, by decide⟩

/-- A system with a source file of these lines. -/
def mixedMemory : Memory where
  tree := ⟨[(["locks"], .directory), (["src"], .directory),
    (["src", "Job.cpp"], .file mixedListing.text.toUTF8)]⟩

/-- A generation for that source file. -/
def mixedRun (selection : Source.Selection) : (Except Failure Generated × TestStore) × Memory :=
  mixedMemory.run
    (generate previewStore {} ⟨some "/src/Job.cpp", selection⟩ .declined false)

/-- The last line gives a case, and there is no line after it. -/
theorem generate_line_eq_text_mixed :
    ({} : Settings).naming.isSource "/src/Job.cpp" = true ∧
      Memory.serve (.read "/src/Job.cpp") mixedMemory =
        (.ok mixedListing.text.toUTF8, mixedMemory) ∧
      (mixedRun (.line 3)).1.1.toBool = true ∧
      mixedRun (.line 3) = mixedRun (.text "void Stop();") ∧
      mixedRun (.line 4) = ((.error .emptySelection, previewStore), mixedMemory) := by
  have hsource : ({} : Settings).naming.isSource "/src/Job.cpp" = true := by decide
  have hread : Memory.serve (.read "/src/Job.cpp") mixedMemory =
      (.ok mixedListing.text.toUTF8, mixedMemory) := rfl
  obtain ⟨hlines, hnothing⟩ := @generate_line_eq_text Memory Memory.serve mixedMemory previewStore
    {} .declined false "/src/Job.cpp" mixedListing hsource hread
  exact ⟨hsource, hread, by decide +kernel, hlines 2 _ rfl, hnothing 4 (Or.inr (by decide))⟩

end Generation

end TestSkeleton
