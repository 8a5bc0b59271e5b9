import TestSkeleton.Proofs.Command.RoundTrip
import TestSkeleton.Results

/-!
# Options that exclude each other

A test case is generated only if exactly one selection was given, and not both
a directory and the wish not to be asked for one.

* `Seen.IsChecked` is the invariant: whatever the words are, the values that
  are kept can be read.  `Parsing.isChecked_argument` is one word and
  `Parsing.isChecked_read` are all of them.
* `Seen.Selects` is what is known of a test case that is generated, and
  `exists_selects_of_parseWords` that it always is.
* `parseWords_of_seenAtGenerate` says what is refused, and why.
* `parseWords_roundTrip` puts reading what was written beside them.
-/

namespace TestSkeleton.Command

/-! ## Values that are kept -/

/-- Whether every value that is kept can be read. -/
def Seen.IsChecked (seen : Seen) : Prop :=
  ∀ item ∈ seen.options, item.1.takesValue = true → valueFault? item.1 item.2 = none

namespace Seen.IsChecked

variable {seen next : Seen} {opt : Opt} {level : Level}

theorem add (h : seen.IsChecked) {value : String} (hadd : seen.add opt value = .ok next) :
    next.IsChecked := by
  rw [Seen.add] at hadd
  split at hadd
  · cases hadd
  · split at hadd
    · cases hadd
    · rename_i hfault
      cases hadd
      intro item hitem htakes
      rcases List.mem_append.1 hitem with hbefore | hadded
      · exact h item hbefore htakes
      · rw [List.mem_singleton.1 hadded] at htakes ⊢
        rw [if_pos htakes] at hfault
        exact hfault

theorem settle (h : seen.IsChecked) (hsettle : seen.settle = .ok next) : next.IsChecked := by
  rw [Seen.settle] at hsettle
  split at hsettle
  · cases hsettle
    exact h
  · cases hsettle
  · have hcleared : IsChecked { seen with pending := .none } := h
    exact hcleared.add hsettle
  · split at hsettle
    · cases hsettle
    · cases hsettle
      exact h

theorem flag (h : seen.IsChecked) (hflag : seen.flag opt = .ok next) : next.IsChecked := by
  obtain ⟨settled, hsettle, hrest⟩ := exists_of_bind_eq_ok hflag
  have hsettled := h.settle hsettle
  split at hrest
  · cases hrest
  · cases hrest
  · cases hrest
    exact hsettled
  · exact hsettled.add hrest

theorem option (h : seen.IsChecked) {attached : Option String}
    (hoption : seen.option opt attached = .ok next) : next.IsChecked := by
  obtain ⟨settled, hsettle, hrest⟩ := exists_of_bind_eq_ok hoption
  have hsettled := h.settle hsettle
  split at hrest
  · exact hsettled.add hrest
  · cases hrest
    exact hsettled

theorem letters (h : seen.IsChecked) {text : List Char}
    (hletters : seen.letters level text = .ok next) : next.IsChecked := by
  induction text generalizing seen with
  | nil =>
    cases hletters
    exact h
  | cons c rest ih =>
    rw [Seen.letters] at hletters
    split at hletters
    · cases hletters
    · split at hletters
      · split at hletters <;> exact h.option hletters
      · split at hletters
        · cases hletters
        · rename_i flagged hflag
          exact ih (h.flag hflag) hletters

theorem longOption (h : seen.IsChecked) {text : List Char}
    (hlong : seen.longOption level text = .ok next) : next.IsChecked := by
  have hread (opt : Opt) (attached : Option String)
      (hopt : (if opt.takesValue then seen.option opt attached
        else if attached.isSome then .error .unexpectedValue
        else seen.flag opt) = .ok next) : next.IsChecked := by
    split at hopt
    · exact h.option hopt
    · split at hopt
      · cases hopt
      · exact h.flag hopt
  rw [Seen.longOption] at hlong
  split at hlong
  · cases hlong
  · exact hread _ _ hlong

theorem word (h : seen.IsChecked) {trailing : Bool} {text : String}
    (hword : seen.word level trailing text = .ok next) : next.IsChecked := by
  unfold Seen.word at hword
  split at hword
  · cases hword
    exact h
  · split at hword
    · obtain ⟨settled, hsettle, hrest⟩ := exists_of_bind_eq_ok hword
      have hsettled := h.settle hsettle
      cases hrest
      exact hsettled
    · split at hword
      · split at hword <;> cases hword
      · cases hword

end Seen.IsChecked

/-! ## All words -/

namespace Parsing

variable {parsing next : Parsing}

/-- One word keeps the values readable. -/
theorem isChecked_argument (h : parsing.seen.IsChecked) {text : String}
    (hargument : parsing.argument text = .ok next) : next.seen.IsChecked := by
  rw [argument] at hargument
  split at hargument
  · cases hargument
    exact h
  · obtain ⟨seen, hseen, hrest⟩ := exists_of_bind_eq_ok hargument
    cases hrest
    exact h.longOption hseen
  · obtain ⟨seen, hseen, hrest⟩ := exists_of_bind_eq_ok hargument
    cases hrest
    exact h.letters hseen
  · obtain ⟨seen, hseen, hrest⟩ := exists_of_bind_eq_ok hargument
    cases hrest
    exact h.word hseen

/-- All words keep the values readable. -/
theorem isChecked_read (h : parsing.seen.IsChecked) {words : List String}
    (hread : parsing.read words = .ok next) : next.seen.IsChecked := by
  induction words generalizing parsing with
  | nil =>
    cases hread
    exact h
  | cons text rest ih =>
    rw [read] at hread
    split at hread
    · split at hread
      · rename_i taken htaken
        exact ih (isChecked_argument h htaken) hread
      · cases hread
    · split at hread
      · refine ih ?_ hread
        intro item hitem
        cases hitem
      · split at hread
        · cases hread
        · split at hread
          · rename_i taken htaken
            exact ih (isChecked_argument h htaken) hread
          · cases hread

end Parsing

/-! ## What is generated -/

/-- Whether exactly one selection was given and is what is generated for, and
not both a directory and the wish not to be asked for one. -/
structure Seen.Selects (seen : Seen) (options : GenerateOptions) : Prop where
  once : seen.has .line = !seen.has .signature
  noConflict : (seen.has .outputDir && seen.has .noPrompt) = false
  line : ∀ text, seen.value? .line = some text →
    ∃ number, number? text = some number ∧ options.selection = .line number
  signature : ∀ text, seen.value? .signature = some text → options.selection = .text text

theorem Seen.IsChecked.exists_number {seen : Seen} (h : seen.IsChecked) {text : String}
    (hline : seen.value? .line = some text) : ∃ number, number? text = some number := by
  have hfault : valueFault? .line text = none := h (.line, text) (mem_of_lookup hline) rfl
  rw [valueFault?] at hfault
  cases hnumber : number? text with
  | none => simp [hnumber] at hfault
  | some number => exact ⟨number, rfl⟩

/-- A level of `generate` that is complete selects. -/
theorem Seen.IsChecked.selects {seen : Seen} (h : seen.IsChecked)
    (hconflict : seen.hasConflict = false) (hcomplete : seen.isIncomplete .generate = false)
    {options : GenerateOptions} (hselection : options.selection = selectionOf seen) :
    seen.Selects options := by
  obtain ⟨hboth, hdirectory⟩ := Bool.or_eq_false_iff.1 hconflict
  have hneither : (!seen.has .line && !seen.has .signature) = false := by
    rw [Seen.isIncomplete, Bool.or_eq_false_iff] at hcomplete
    exact hcomplete.2
  have honce : seen.has .line = !seen.has .signature := by
    cases hline : seen.has .line <;> cases hsignature : seen.has .signature <;>
      simp [hline, hsignature] at hboth hneither ⊢
  refine ⟨honce, hdirectory, ?_, ?_⟩
  · intro text hline
    obtain ⟨number, hnumber⟩ := h.exists_number hline
    refine ⟨number, hnumber, ?_⟩
    rw [hselection, selectionOf, hline, Option.bind_some, hnumber]
  · intro text hsignature
    have hline : seen.value? .line = none := by
      rw [Seen.has, Seen.has, hsignature] at honce
      simpa using honce
    rw [hselection, selectionOf, hline, hsignature, Option.bind_none]

/-- The level of `generate` in some words, as it is when all words are read. -/
def SeenAtGenerate (words : List String) (seen : Seen) : Prop :=
  ∃ parsing, ({} : Parsing).read words = .ok parsing ∧ parsing.level = .generate ∧
    parsing.seen.settle = .ok seen

theorem parseWords_eq_bind (words : List String) :
    parseWords words = (({} : Parsing).read words).bind Parsing.complete :=
  rfl

/-- A level of `generate` without one selection, or with things that exclude
each other, is refused. -/
theorem parseWords_of_seenAtGenerate {words : List String} {seen : Seen}
    (h : SeenAtGenerate words seen) :
    (seen.hasConflict = true → parseWords words = .error .conflict) ∧
      (seen.hasConflict = false → seen.has .line = false → seen.has .signature = false →
        parseWords words = .error .missingArgument) := by
  obtain ⟨parsing, hread, hlevel, hsettle⟩ := h
  have hrefused {usage : Usage} (hinner : completeLevel false .generate parsing.seen = .error usage) :
      parseWords words = .error usage := by
    rw [parseWords_eq_bind, hread]
    show parsing.complete = _
    rw [Parsing.complete, hlevel, hinner]
    rfl
  constructor
  · intro hconflict
    refine hrefused ?_
    rw [completeLevel_of_settle hsettle, hconflict]
    rfl
  · intro hconflict hline hsignature
    refine hrefused ?_
    have hincomplete : seen.isIncomplete .generate = true := by
      rw [Seen.isIncomplete, hline, hsignature]
      exact Bool.or_true _
    rw [completeLevel_of_settle hsettle, hconflict, hincomplete]
    rfl

/-- A test case is generated for the one selection that was given. -/
theorem exists_selects_of_parseWords {words : List String} {globals : Globals}
    {options : GenerateOptions}
    (h : parseWords words = .ok { globals, task := .generate options }) :
    ∃ seen, SeenAtGenerate words seen ∧ seen.Selects options := by
  obtain ⟨parsing, hread, hcomplete⟩ := exists_of_bind_eq_ok h
  obtain ⟨inner, hinner, hrest⟩ := exists_of_bind_eq_ok hcomplete
  obtain ⟨outer, -, hinvocation⟩ := exists_of_bind_eq_ok hrest
  have htask : taskOf parsing.level inner = .generate options :=
    (Invocation.mk.inj (Except.ok.inj hinvocation)).2
  have hlevel : parsing.level = .generate := by
    cases hlevel : parsing.level with
    | generate => rfl
    | _ =>
      rw [hlevel] at htask
      cases htask
  obtain ⟨settled, hsettle, -⟩ := exists_of_bind_eq_ok hinner
  obtain rfl : inner = settled := eq_of_completeLevel hsettle hinner
  have hempty : ({} : Seen).IsChecked := fun item hitem => nomatch hitem
  have hchecked : inner.IsChecked :=
    (@Parsing.isChecked_read {} _ hempty _ hread).settle hsettle
  rw [hlevel, completeLevel_of_settle hsettle, if_neg (by decide)] at hinner
  have hconflict : inner.hasConflict = false := by
    by_contra hconflict
    rw [if_pos (by simpa using hconflict)] at hinner
    cases hinner
  have hincomplete : inner.isIncomplete .generate = false := by
    by_contra hincomplete
    rw [hconflict, if_neg Bool.false_ne_true, if_pos (by simpa using hincomplete)] at hinner
    cases hinner
  have hselection : options.selection = selectionOf inner := by
    rw [hlevel] at htask
    rw [← Task.generate.inj htask]
  exact ⟨inner, ⟨parsing, hread, hlevel, hsettle⟩,
    hchecked.selects hconflict hincomplete hselection⟩

/-! ## Both together -/

/-- An argument list is a task just if it has one selection and does not
exclude itself. -/
theorem GenerateArguments.exists_task_iff (arguments : GenerateArguments) :
    (∃ task, (Asked.generate arguments).task = .ok task) ↔
      arguments.line.isSome = !arguments.signature.isSome ∧
        (arguments.outputDir.isSome && arguments.noPrompt) = false := by
  obtain ⟨source, line, signature, outputDir, noPrompt, settingsFile, dryRun⟩ := arguments
  cases line <;> cases signature <;> cases outputDir <;> cases noPrompt <;>
    simp [Asked.task, GenerateArguments.hasConflict]

/-- Writing a command line and reading it gives what was asked for, whatever
the order of the options and wherever the shared ones are; an argument list
without exactly one selection, or with a directory and the wish not to be asked
for one, is refused; and whatever the words are, a test case is generated for
the one selection among them. -/
theorem parseWords_roundTrip :
    (∀ isShort globals asked, globals.IsWritable → asked.IsWritable →
      (∃ words, Written isShort globals asked words) ∧
        ∀ words, Written isShort globals asked words →
          parseWords words = asked.task.map fun task => { globals, task }) ∧
      (∀ arguments : GenerateArguments, (∃ task, (Asked.generate arguments).task = .ok task) ↔
        arguments.line.isSome = !arguments.signature.isSome ∧
          (arguments.outputDir.isSome && arguments.noPrompt) = false) ∧
      (∀ words seen, SeenAtGenerate words seen →
        (seen.hasConflict = true → parseWords words = .error .conflict) ∧
          (seen.hasConflict = false → seen.has .line = false → seen.has .signature = false →
            parseWords words = .error .missingArgument)) ∧
      ∀ words globals options, parseWords words = .ok { globals, task := .generate options } →
        ∃ seen, SeenAtGenerate words seen ∧ seen.Selects options := by
  refine ⟨?_, GenerateArguments.exists_task_iff, fun words seen => parseWords_of_seenAtGenerate,
    fun words globals options => exists_selects_of_parseWords⟩
  intro isShort globals asked hglobals hasked
  exact ⟨exists_written isShort globals asked, fun words => parseWords_written hglobals hasked⟩

/-- Values with equals signs and dashes, and options in a mixed order. -/
theorem parseWords_roundTrip_mixed :
    parseWords ["--prefs-file=a=b.json", "--verbose", "--color=never", "--verbose", "generate",
        "--signature=--line=3", "--dry-run", "--output-dir=-o", "--", "--line=7"] =
      .ok {
        globals := { verbosity := 2, color := .never, preferenceFile := some "a=b.json" }
        task := .generate {
          source := "--line=7"
          selection := .text "--line=3"
          outputDir := some "-o"
          dryRun := true } } := by
  let globals : Globals := { verbosity := 2, color := .never, preferenceFile := some "a=b.json" }
  let asked : Asked := .generate {
    source := "--line=7", signature := some "--line=3", outputDir := some "-o", dryRun := true }
  have hglobals : globals.IsWritable := ⟨by decide, by decide⟩
  have hasked : asked.IsWritable := ⟨by decide, by simp, by decide, by decide⟩
  have hshared : Gives 2 (globals.option? fun _ => true) [(.prefsFile, "a=b.json"), (.verbose, ""),
      (.color, "never"), (.verbose, "")] := by
    refine ⟨by decide, by decide, fun opt value => ?_⟩
    cases opt <;> simp [globals, Globals.option?, flagValue?, valueUnless?, colorText] <;>
      exact eq_comm
  have hown : Gives 0 (fun opt => Option.or none (asked.option? (fun _ => true) opt))
      [(.signature, "--line=3"), (.dryRun, ""), (.outputDir, "-o")] := by
    refine ⟨by decide, by decide, fun opt value => ?_⟩
    cases opt <;> simp [asked, Asked.option?, flagValue?] <;> exact eq_comm
  have hwritten : Written (fun _ => true) globals asked ["--prefs-file=a=b.json", "--verbose",
      "--color=never", "--verbose", "generate", "--signature=--line=3", "--dry-run",
      "--output-dir=-o", "--", "--line=7"] :=
    ⟨_, .here hshared (.innermost hown), by decide⟩
  exact (parseWords_roundTrip.1 _ globals asked hglobals hasked).2 _ hwritten

end TestSkeleton.Command
