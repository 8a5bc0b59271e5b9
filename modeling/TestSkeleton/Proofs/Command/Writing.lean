import TestSkeleton.Command.Reading
import TestSkeleton.Entries
import TestSkeleton.Proofs.Text.Words
import Mathlib.Data.List.Nodup

/-!
# Command lines in their long form

A command line can be written with every option as one word, `--name` or
`--name=value`, and the source file behind a double dash.

* `Asked` is what a command line asks for, and `Asked.task` the task that it
  is, if it is one.
* `Gives` is a list of options in some order, and `Places` puts those that
  every command takes at one of the levels.
* `Written` are the words of a command line, and `exists_written` says that
  there are some for whatever is asked for.
* `Parsing.read_gives` reads the options of one level, whatever their order.
-/

namespace TestSkeleton.Command

open Report (ColorChoice Format)

/-! ## What is asked for -/

/-- What a command line for `generate` says. -/
structure GenerateArguments where
  source : String
  line : Option Nat := none
  signature : Option String := none
  outputDir : Option String := none
  noPrompt : Bool := false
  settingsFile : Option String := none
  dryRun : Bool := false
deriving DecidableEq, Inhabited, Repr

namespace GenerateArguments

/-- Whether two things are said that exclude each other. -/
def hasConflict (arguments : GenerateArguments) : Bool :=
  (arguments.line.isSome && arguments.signature.isSome) ||
    (arguments.outputDir.isSome && arguments.noPrompt)

/-- The choices with a selection. -/
def withSelection (arguments : GenerateArguments) (selection : Source.Selection) :
    GenerateOptions where
  source := arguments.source
  selection
  outputDir := arguments.outputDir
  noPrompt := arguments.noPrompt
  settingsFile := arguments.settingsFile
  dryRun := arguments.dryRun

end GenerateArguments

/-- What a command line asks for. -/
inductive Asked where
  | generate (arguments : GenerateArguments)
  | prefsList (format : Format)
  | prefsShow (source : String)
  | init (output : String) (force : Bool)
deriving DecidableEq, Inhabited, Repr

namespace Asked

/-- The task that is asked for.  A test case needs one selection, and not
more. -/
def task : Asked → Except Usage Task
  | .generate arguments =>
    if arguments.hasConflict then .error .conflict
    else
      match arguments.line, arguments.signature with
      | some number, _ => .ok (.generate (arguments.withSelection (.line number)))
      | none, some text => .ok (.generate (arguments.withSelection (.text text)))
      | none, none => .error .missingArgument
  | .prefsList format => .ok (.prefsList format)
  | .prefsShow source => .ok (.prefsShow source)
  | .init output force => .ok (.init output force)

/-- The innermost level. -/
def level : Asked → Level
  | .generate _ => .generate
  | .prefsList _ => .prefsList
  | .prefsShow _ => .prefsShow
  | .init _ _ => .init

/-- The words that lead to the innermost level. -/
def names : Asked → List String
  | .generate _ => ["generate"]
  | .prefsList _ => ["prefs", "list"]
  | .prefsShow _ => ["prefs", "show"]
  | .init _ _ => ["init"]

/-- The source file, if there is one. -/
def source? : Asked → Option String
  | .generate arguments => some arguments.source
  | .prefsShow source => some source
  | _ => none

/-- Whether paths are not empty and the number fits in a machine word. -/
def IsWritable : Asked → Prop
  | .generate arguments =>
    arguments.source ≠ "" ∧ (∀ number ∈ arguments.line, number < UInt64.size) ∧
      arguments.outputDir ≠ some "" ∧ arguments.settingsFile ≠ some ""
  | .prefsList _ => True
  | .prefsShow source => source ≠ ""
  | .init output _ => output ≠ ""

end Asked

/-- Whether the path is not empty and the verbosity is one that can be
given. -/
def Globals.IsWritable (globals : Globals) : Prop :=
  globals.verbosity ≤ 255 ∧ globals.preferenceFile ≠ some ""

/-! ## Options -/

/-- The value of a flag that is given. -/
def flagValue? (isGiven : Bool) : Option String :=
  if isGiven then some "" else none

/-- A value that may be left out if it is the usual one. -/
def valueUnless? (isLeftOut : Bool) (value : String) : Option String :=
  if isLeftOut then none else some value

/-- The word for a choice of colours. -/
def colorText : ColorChoice → String
  | .auto => "auto"
  | .always => "always"
  | .never => "never"

/-- The word for a format. -/
def formatText : Format → String
  | .text => "text"
  | .json => "json"

/-- The options that every command takes, `verbose` apart, with their values.
`isShort` says which of them are left out if they have their usual value. -/
def Globals.option? (isShort : Opt → Bool) (globals : Globals) : Opt → Option String
  | .quiet => flagValue? globals.quiet
  | .color => valueUnless? (isShort .color && globals.color == .auto) (colorText globals.color)
  | .noConfig => flagValue? globals.noSettings
  | .prefsFile => globals.preferenceFile
  | _ => none

/-- The options of a command with their values. -/
def Asked.option? (isShort : Opt → Bool) : Asked → Opt → Option String
  | .generate arguments, .line => arguments.line.map toString
  | .generate arguments, .signature => arguments.signature
  | .generate arguments, .outputDir => arguments.outputDir
  | .generate arguments, .noPrompt => flagValue? arguments.noPrompt
  | .generate arguments, .config => arguments.settingsFile
  | .generate arguments, .dryRun => flagValue? arguments.dryRun
  | .prefsList format, .format => valueUnless? (isShort .format && format == .text)
      (formatText format)
  | .init output _, .output => valueUnless? (isShort .output && output == ".gtest-scaffold.toml")
      output
  | .init _ force, .force => flagValue? force
  | _, _ => none

/-- An option with its value as one word. -/
def Opt.word (opt : Opt) (value : String) : String :=
  "--" ++ opt.long ++ if opt.takesValue then "=" ++ value else ""

/-- Whether some options, in any order, are `verbose` so many times and every
other option once if it has a value. -/
structure Gives (verbosity : Nat) (option? : Opt → Option String) (given : List (Opt × String)) :
    Prop where
  verbosity : given.countP (fun item => item.1 == .verbose) = verbosity
  once : ((given.filter fun item => item.1 != .verbose).map Prod.fst).Nodup
  value : ∀ opt value, (opt, value) ∈ given ∧ opt ≠ .verbose ↔ option? opt = some value

/-- The words of some options. -/
def optionWords (given : List (Opt × String)) : List String :=
  given.map fun item => item.1.word item.2

/-- Words for levels inside each other.  The options that every command takes
are all at one level, and those of the innermost level are there. -/
inductive Places (own : Opt → Option String) :
    Nat → (Opt → Option String) → List String → List String → Prop where
  | innermost {verbosity : Nat} {shared : Opt → Option String} {given : List (Opt × String)}
      (hgiven : Gives verbosity (fun opt => (shared opt).or (own opt)) given) :
      Places own verbosity shared [] (optionWords given)
  | here {verbosity : Nat} {shared : Opt → Option String} {given : List (Opt × String)}
      {name : String} {names words : List String} (hgiven : Gives verbosity shared given)
      (hinside : Places own 0 (fun _ => none) names words) :
      Places own verbosity shared (name :: names) (optionWords given ++ name :: words)
  | inside {verbosity : Nat} {shared : Opt → Option String} {name : String}
      {names words : List String} (hinside : Places own verbosity shared names words) :
      Places own verbosity shared (name :: names) (name :: words)

/-- The words of a command line, the source file last. -/
def Written (isShort : Opt → Bool) (globals : Globals) (asked : Asked) (words : List String) :
    Prop :=
  ∃ front, Places (asked.option? isShort) globals.verbosity (globals.option? isShort) asked.names
      front ∧
    words = front ++ asked.source?.elim [] fun source => ["--", source]

/-! ## Something is written -/

/-- The options that are given at most once. -/
def Opt.single : List Opt :=
  [.quiet, .color, .noConfig, .prefsFile, .line, .signature, .outputDir, .noPrompt, .config,
    .dryRun, .format, .output, .force, .help, .version]

/-- The options of `Opt.single` that have a value. -/
def singles (option? : Opt → Option String) : List (Opt × String) :=
  (Opt.single.filter fun opt => (option? opt).isSome).map fun opt => (opt, (option? opt).getD "")

/-- The options in the order of `Opt.single`, behind every `verbose`. -/
def inOrder (verbosity : Nat) (option? : Opt → Option String) : List (Opt × String) :=
  List.replicate verbosity (.verbose, "") ++ singles option?

theorem Opt.mem_single_iff {opt : Opt} : opt ∈ Opt.single ↔ opt ≠ .verbose := by
  cases opt <;> decide

/-- Some order is there for any options. -/
theorem gives_inOrder (verbosity : Nat) {option? : Opt → Option String}
    (h : option? .verbose = none) : Gives verbosity option? (inOrder verbosity option?) := by
  have hne : ∀ item ∈ singles option?, item.1 ≠ .verbose := by
    intro item hitem
    obtain ⟨opt, hopt, rfl⟩ := List.mem_map.1 hitem
    exact Opt.mem_single_iff.1 (List.mem_filter.1 hopt).1
  refine ⟨?_, ?_, ?_⟩
  · have hnone : (singles option?).countP (fun item => item.1 == .verbose) = 0 := by
      rw [List.countP_eq_zero]
      intro item hitem
      simpa using hne item hitem
    rw [inOrder, List.countP_append, hnone, List.countP_replicate]
    rfl
  · have hrest : (inOrder verbosity option?).filter (fun item => item.1 != .verbose) =
        singles option? := by
      rw [inOrder, List.filter_append, List.filter_replicate, List.filter_eq_self.2]
      · rfl
      · intro item hitem
        exact bne_iff_ne.2 (hne item hitem)
    rw [hrest, singles, List.map_map]
    have hsingle : Opt.single.Nodup := by decide
    simpa [Function.comp_def] using hsingle.filter _
  · intro opt value
    constructor
    · rintro ⟨hmem, hverbose⟩
      rcases List.mem_append.1 hmem with hmem | hmem
      · exact absurd (congrArg Prod.fst (List.eq_of_mem_replicate hmem)) hverbose
      · obtain ⟨other, hother, heq⟩ := List.mem_map.1 hmem
        obtain ⟨rfl, rfl⟩ := Prod.mk.inj heq
        obtain ⟨value, hvalue⟩ := Option.isSome_iff_exists.1 (List.mem_filter.1 hother).2
        rw [hvalue]
        rfl
    · intro hvalue
      have hverbose : opt ≠ .verbose := by
        rintro rfl
        rw [h] at hvalue
        cases hvalue
      refine ⟨List.mem_append.2 (Or.inr (List.mem_map.2 ⟨opt, ?_, by rw [hvalue]; rfl⟩)), hverbose⟩
      exact List.mem_filter.2 ⟨Opt.mem_single_iff.2 hverbose, by rw [hvalue]; rfl⟩

/-- Every command line can be written, for instance with all options at the
innermost level. -/
theorem exists_written (isShort : Opt → Bool) (globals : Globals) (asked : Asked) :
    ∃ words, Written isShort globals asked words := by
  have hverbose : (globals.option? isShort .verbose).or (asked.option? isShort .verbose) = none := by
    cases asked <;> rfl
  have hplaces (names : List String) : ∃ front, Places (asked.option? isShort) globals.verbosity
      (globals.option? isShort) names front := by
    induction names with
    | nil => exact ⟨_, .innermost (gives_inOrder _ hverbose)⟩
    | cons name names ih =>
      obtain ⟨front, hfront⟩ := ih
      exact ⟨name :: front, .inside hfront⟩
  obtain ⟨front, hfront⟩ := hplaces asked.names
  exact ⟨_, front, hfront, rfl⟩

/-! ## Reading a value back -/

/-- A text of digits alone is read as the number that they write. -/
theorem number?_of_digits {text : String} (hne : text.toList ≠ [])
    (hdigits : ∀ c ∈ text.toList, c.isDigit = true) :
    number? text =
      if Nat.ofDigitChars 10 text.toList 0 < UInt64.size then
        some (Nat.ofDigitChars 10 text.toList 0)
      else none := by
  have hvalue : text.toList.foldl (fun n c => n * 10 + (c.toNat - '0'.toNat)) 0 =
      Nat.ofDigitChars 10 text.toList 0 := by
    simp only [Nat.mul_comm _ 10]
    exact Nat.ofDigitChars_eq_foldl.symm
  rw [number?]
  split
  · rename_i digits hplus
    exact absurd (hdigits '+' (hplus ▸ List.mem_cons_self)) (by decide)
  · rw [List.isEmpty_eq_false_iff.2 hne, List.all_eq_true.2 hdigits, hvalue]
    rfl

theorem number?_toString {n : Nat} (h : n < UInt64.size) : number? (toString n) = some n := by
  have htext : (toString n).toList = Nat.toDigits 10 n := by
    rw [Nat.toString_eq_repr, Nat.toList_repr]
  rw [number?_of_digits (htext ▸ Nat.toDigits_ne_nil) fun c => Text.isDigit_of_mem_toString, htext,
    Nat.ofDigitChars_ten_toDigits, if_pos h]

theorem color?_colorText (color : ColorChoice) : color? (colorText color) = some color := by
  cases color <;> decide

theorem ofText?_formatText (format : Format) : Format.ofText? (formatText format) = some format := by
  cases format <;> decide

/-! ## Reading the word of an option -/

theorem toList_word (opt : Opt) (value : String) :
    (opt.word value).toList =
      '-' :: '-' :: (opt.long.toList ++ if opt.takesValue then '=' :: value.toList else []) := by
  rw [Opt.word]
  cases opt.takesValue <;> simp

theorem Level.long?_long : ∀ (level : Level) (opt : Opt), opt ∈ level.options →
    level.long? opt.long = some opt := by
  intro level opt
  cases level <;> cases opt <;> decide

/-- A word with a dash in front is no command. -/
theorem Level.sub?_of_dash (level : Level) {text : String} (h : '-' ∈ text.toList) :
    level.sub? text = none ∧ level.isHelpWord text = false := by
  have hne : ∀ name : String, '-' ∉ name.toList → (text == name) = false := by
    intro name hname
    rw [beq_eq_false_iff_ne]
    rintro rfl
    exact hname h
  constructor
  · cases level <;> simp [sub?, hne]
  · simp [isHelpWord, hne]

theorem Level.mem_options_of_mem_globals {opt : Opt} (h : opt ∈ Opt.globals) (level : Level) :
    opt ∈ level.options := by
  cases level <;> simp [options, h]

theorem not_equals_mem_long : ∀ opt : Opt, '=' ∉ opt.long.toList := by
  intro opt
  cases opt <;> decide

/-- The word of an option is cut at its first equals sign. -/
theorem longOption_word {level : Level} {opt : Opt} (hopt : opt ∈ level.options) (seen : Seen)
    (value : String) :
    seen.longOption level
        (opt.long.toList ++ if opt.takesValue then '=' :: value.toList else []) =
      if opt.takesValue then seen.option opt (some value) else seen.flag opt := by
  have hname : ∀ c ∈ opt.long.toList, (c != '=') = true := by
    intro c hc
    rw [bne_iff_ne]
    rintro rfl
    exact not_equals_mem_long opt hc
  have hlong := level.long?_long opt hopt
  rw [Seen.longOption, List.takeWhile_append_of_pos hname, List.dropWhile_append_of_pos hname]
  cases hvalue : opt.takesValue <;> simp [hlong, hvalue]

/-! ## Reading the options of a level -/

/-- Whether an option may be given at a level, with a value that it takes.
The value of a flag is empty. -/
structure Opt.Fits (level : Level) (opt : Opt) (value : String) : Prop where
  mem : opt ∈ level.options
  ne_help : opt ≠ .help
  ne_version : opt ≠ .version
  takes : opt.takesValue = true → valueFault? opt value = none
  flag : opt.takesValue = false → opt ≠ .verbose → value = ""

/-- What was read at a level after some more options. -/
def Seen.extend (seen : Seen) (given : List (Opt × String)) : Seen :=
  { seen with
    options := seen.options ++ given.filter fun item => item.1 != .verbose
    verbosity := seen.verbosity + given.countP fun item => item.1 == .verbose }

theorem Seen.add_of_fits {level : Level} {opt : Opt} {value : String} (h : opt.Fits level value)
    {seen : Seen} (hnew : opt ∉ seen.options.map Prod.fst) :
    seen.add opt value = .ok { seen with options := seen.options ++ [(opt, value)] } := by
  have hhas : seen.has opt = false := by
    rw [has, value?, Option.isSome_eq_false_iff, Option.isNone_iff_eq_none, List.lookup_eq_none_iff]
    intro item hitem
    rw [bne_iff_ne]
    rintro rfl
    exact hnew (List.mem_map_of_mem hitem)
  have hfault : (if opt.takesValue then valueFault? opt value else none) = none := by
    split
    · exact h.takes ‹_›
    · rfl
  rw [add, hhas, hfault]
  rfl

theorem Seen.flag_of_ne {seen settled : Seen} (h : seen.settle = .ok settled) {opt : Opt}
    (hverbose : opt ≠ .verbose) (hhelp : opt ≠ .help) (hversion : opt ≠ .version) :
    seen.flag opt = settled.add opt "" := by
  rw [flag, h]
  cases opt with
  | verbose => exact absurd rfl hverbose
  | help => exact absurd rfl hhelp
  | version => exact absurd rfl hversion
  | _ => rfl

/-- What is read of the word of an option. -/
theorem Seen.longOption_of_fits {level : Level} {opt : Opt} {value : String}
    (h : opt.Fits level value) {seen : Seen} (hpending : seen.pending = .none)
    (hnew : opt ≠ .verbose → opt ∉ seen.options.map Prod.fst)
    (hverbosity : opt = .verbose → seen.verbosity < 255) :
    seen.longOption level (opt.long.toList ++ if opt.takesValue then '=' :: value.toList else []) =
      .ok (seen.extend [(opt, value)]) := by
  have hsettle : seen.settle = .ok seen := by
    rw [settle, hpending]
  rw [longOption_word h.mem]
  by_cases hverbose : opt = .verbose
  · subst hverbose
    have hmin : min (seen.verbosity + 1) 255 = seen.verbosity + 1 := by
      have hlt := hverbosity rfl
      omega
    calc seen.flag .verbose
        = .ok { seen with verbosity := min (seen.verbosity + 1) 255 } := by
          rw [flag, hsettle]
          rfl
      _ = .ok (seen.extend [(.verbose, value)]) := by
          rw [hmin]
          simp [extend]
  · have hextend : seen.extend [(opt, value)] =
        { seen with options := seen.options ++ [(opt, value)] } := by
      simp [extend, hverbose]
    rw [hextend, ← add_of_fits h (hnew hverbose)]
    cases hvalue : opt.takesValue with
    | true =>
      rw [if_pos rfl, option, hsettle]
      rfl
    | false =>
      rw [if_neg Bool.false_ne_true, h.flag hvalue hverbose,
        flag_of_ne hsettle hverbose h.ne_help h.ne_version]

theorem Parsing.argument_word {parsing : Parsing} {opt : Opt} {value : String} {seen : Seen}
    (htrailing : parsing.trailing = false)
    (h : parsing.seen.longOption parsing.level
      (opt.long.toList ++ if opt.takesValue then '=' :: value.toList else []) = .ok seen) :
    parsing.argument (opt.word value) = .ok { parsing with seen } := by
  obtain ⟨c, rest, hname⟩ := List.exists_cons_of_ne_nil (show opt.long.toList ≠ [] by
    cases opt <;> decide)
  rw [hname] at h
  rw [argument, htrailing, toList_word, hname]
  simp only [List.cons_append] at h ⊢
  rw [h]
  rfl

/-- A word with a dash in front is read at the level that is open. -/
theorem Parsing.read_cons_of_dash {parsing next : Parsing} (htrailing : parsing.trailing = false)
    (hpending : parsing.seen.pending = .none) {text : String} (hdash : '-' ∈ text.toList)
    (h : parsing.argument text = .ok next) (rest : List String) :
    parsing.read (text :: rest) = next.read rest := by
  obtain ⟨hsub, hhelp⟩ := parsing.level.sub?_of_dash hdash
  have hwaiting : parsing.seen.isWaiting = false := by
    rw [Seen.isWaiting, hpending]
  rw [read, htrailing, hwaiting, hsub, hhelp, h]
  rfl

theorem Seen.extend_append (seen : Seen) (given more : List (Opt × String)) :
    seen.extend (given ++ more) = (seen.extend given).extend more := by
  simp [extend, Nat.add_assoc]

/-- The options of a level are read in any order. -/
theorem Parsing.read_optionWords {parsing : Parsing} (htrailing : parsing.trailing = false)
    (hpending : parsing.seen.pending = .none) {given : List (Opt × String)}
    (hfits : ∀ item ∈ given, item.1.Fits parsing.level item.2)
    (honce : ((parsing.seen.extend given).options.map Prod.fst).Nodup)
    (hverbosity : (parsing.seen.extend given).verbosity ≤ 255) (rest : List String) :
    parsing.read (optionWords given ++ rest) =
      { parsing with seen := parsing.seen.extend given }.read rest := by
  induction given generalizing parsing with
  | nil => simp [optionWords, Seen.extend]
  | cons item given ih =>
    obtain ⟨opt, value⟩ := item
    have hextend : parsing.seen.extend ((opt, value) :: given) =
        (parsing.seen.extend [(opt, value)]).extend given :=
      parsing.seen.extend_append [(opt, value)] given
    rw [hextend] at honce hverbosity ⊢
    have hnew (hverbose : opt ≠ .verbose) : opt ∉ parsing.seen.options.map Prod.fst := by
      have hfirst : ((parsing.seen.options ++ [(opt, value)]).map Prod.fst).Nodup := by
        refine honce.sublist (List.Sublist.map _ ?_)
        simp [Seen.extend, hverbose]
      rw [List.map_append, List.nodup_append] at hfirst
      exact fun hmem => hfirst.2.2 opt hmem opt (by simp) rfl
    have hroom (hverbose : opt = .verbose) : parsing.seen.verbosity < 255 := by
      simp only [Seen.extend, hverbose] at hverbosity
      simp at hverbosity
      omega
    have hread := Seen.longOption_of_fits (hfits _ List.mem_cons_self) hpending hnew hroom
    have hdash : '-' ∈ (opt.word value).toList := by simp [toList_word]
    have hfirst := read_cons_of_dash htrailing hpending hdash (argument_word htrailing hread)
      (optionWords given ++ rest)
    have hothers := @ih { parsing with seen := parsing.seen.extend [(opt, value)] } htrailing
      hpending (fun item hitem => hfits item (List.mem_cons_of_mem _ hitem)) honce hverbosity
    exact hfirst.trans hothers

/-! ## What was read -/

/-- Whether what was read at a level is so many `verbose` and every other
option that has a value. -/
structure Seen.Shows (seen : Seen) (verbosity : Nat) (option? : Opt → Option String) : Prop where
  pending : seen.pending = .none
  source : seen.source = none
  verbosity : seen.verbosity = verbosity
  value : ∀ opt, seen.value? opt = option? opt

theorem shows_empty : ({} : Seen).Shows 0 fun _ => none :=
  ⟨rfl, rfl, rfl, fun _ => rfl⟩

/-- The order of the options does not show. -/
theorem Gives.shows {verbosity : Nat} {option? : Opt → Option String}
    {given : List (Opt × String)} (h : Gives verbosity option? given) :
    (({} : Seen).extend given).Shows verbosity option? := by
  refine ⟨rfl, rfl, (Nat.zero_add _).trans h.verbosity, ?_⟩
  intro opt
  refine Option.ext fun value => ?_
  have hvalue : (opt, value) ∈ given.filter (fun item => item.1 != .verbose) ↔
      option? opt = some value := by
    rw [List.mem_filter, ← h.value, bne_iff_ne]
  show ([] ++ given.filter _).lookup opt = some value ↔ _
  rw [List.nil_append, lookup_eq_some_iff_mem h.once, hvalue]

/-- What the options of a level give, if each of them fits. -/
theorem Parsing.read_gives {parsing : Parsing} (hseen : parsing.seen = {})
    (htrailing : parsing.trailing = false) {verbosity : Nat} (hverbosity : verbosity ≤ 255)
    {option? : Opt → Option String}
    (hfits : ∀ opt value, option? opt = some value → opt.Fits parsing.level value)
    {given : List (Opt × String)} (h : Gives verbosity option? given) (rest : List String) :
    parsing.read (optionWords given ++ rest) =
      { parsing with seen := ({} : Seen).extend given }.read rest := by
  have hread := @read_optionWords parsing htrailing (by rw [hseen]) given ?_ ?_ ?_ rest
  · rw [hread, hseen]
  · rintro ⟨opt, value⟩ hmem
    by_cases hverbose : opt = .verbose
    · subst hverbose
      have hglobal : Opt.verbose ∈ Opt.globals := by decide
      exact ⟨Level.mem_options_of_mem_globals hglobal _, by simp, by simp,
        by simp [Opt.takesValue], fun _ hne => absurd rfl hne⟩
    · exact hfits opt value ((h.value opt value).1 ⟨hmem, hverbose⟩)
  · rw [hseen]
    exact h.once
  · rw [hseen]
    exact h.shows.verbosity ▸ hverbosity

end TestSkeleton.Command
