import TestSkeleton.Proofs.Command.Writing

/-!
# Reading what was written

The words of a command line, in whatever order its options are and wherever
the options are that every command takes, are read as the task that they ask
for.

* `Totals` is what the levels together say of the options that every command
  takes.
* `Places.read` reads levels inside each other.
* `parseWords_written` reads a whole command line.
-/

namespace TestSkeleton.Command

open Report (ColorChoice Format)

/-! ## All levels together -/

/-- What some levels, from the inside out, say together of the options that
every command takes. -/
structure Totals (verbosity : Nat) (shared : Opt → Option String) (levels : List Seen) : Prop where
  verbosity : ((levels.map Seen.verbosity).find? fun n => n != 0).getD 0 = verbosity
  value : ∀ opt ∈ Opt.globals, (levels.findSome? fun seen => seen.value? opt) = shared opt

namespace Totals

variable {verbosity : Nat} {shared : Opt → Option String} {levels : List Seen} {seen : Seen}

theorem singleton {option? : Opt → Option String} (h : seen.Shows verbosity option?)
    (hshared : ∀ opt ∈ Opt.globals, option? opt = shared opt) : Totals verbosity shared [seen] := by
  refine ⟨?_, ?_⟩
  · by_cases hzero : verbosity = 0 <;> simp [h.verbosity, hzero]
  · intro opt hopt
    rw [← hshared opt hopt, ← h.value opt]
    cases hvalue : seen.value? opt <;> simp [hvalue]

/-- The outermost level says all. -/
theorem append (h : Totals 0 (fun _ => none) levels) (hseen : seen.Shows verbosity shared) :
    Totals verbosity shared (levels ++ [seen]) := by
  have hlast := singleton hseen fun opt _ => rfl
  refine ⟨?_, ?_⟩
  · have hnone : (levels.map Seen.verbosity).find? (fun n => n != 0) = none := by
      cases hfound : (levels.map Seen.verbosity).find? fun n => n != 0 with
      | none => rfl
      | some n =>
        have hzero := h.verbosity
        have hpos := List.find?_some hfound
        rw [hfound] at hzero
        simp only [Option.getD_some] at hzero
        simp [hzero] at hpos
    rw [List.map_append, List.find?_append, hnone]
    exact hlast.verbosity
  · intro opt hopt
    rw [List.findSome?_append, h.value opt hopt]
    exact hlast.value opt hopt

/-- The outermost level says nothing. -/
theorem append_empty (h : Totals verbosity shared levels) :
    Totals verbosity shared (levels ++ [({} : Seen)]) := by
  refine ⟨?_, ?_⟩
  · rw [← h.verbosity, List.map_append, List.find?_append]
    have hnone : ([({} : Seen)].map Seen.verbosity).find? (fun n => n != 0) = none := rfl
    rw [hnone, Option.or_none]
  · intro opt hopt
    have hnone : ([({} : Seen)].findSome? fun seen => seen.value? opt) = none := rfl
    rw [List.findSome?_append, h.value opt hopt, hnone, Option.or_none]

end Totals

/-- Whether some level has a flag. -/
theorem any_has (levels : List Seen) (opt : Opt) :
    (levels.any fun seen => seen.has opt) =
      (levels.findSome? fun seen => seen.value? opt).isSome := by
  induction levels with
  | nil => rfl
  | cons seen levels ih =>
    rw [List.any_cons, ih, List.findSome?_cons, Seen.has]
    cases seen.value? opt <;> rfl

theorem isSome_flagValue? (isGiven : Bool) : (flagValue? isGiven).isSome = isGiven := by
  cases isGiven <;> rfl

/-- The choices are what was written. -/
theorem globalsOf_of_totals {isShort : Opt → Bool} {globals : Globals} {levels : List Seen}
    (h : Totals globals.verbosity (globals.option? isShort) levels) :
    globalsOf levels = globals := by
  have hquiet := h.value .quiet (by decide)
  have hcolor := h.value .color (by decide)
  have hsettings := h.value .noConfig (by decide)
  have hfile := h.value .prefsFile (by decide)
  rw [globalsOf, h.verbosity, any_has, any_has, hquiet, hcolor, hsettings, hfile]
  obtain ⟨verbosity, quiet, color, noSettings, preferenceFile⟩ := globals
  simp only [Globals.option?, isSome_flagValue?, Globals.mk.injEq, true_and, and_true]
  cases isShort .color <;> cases color <;> rfl

/-! ## Levels inside each other -/

/-- The level that some words lead to. -/
def Level.follow (level : Level) : List String → Option Level
  | [] => some level
  | name :: names => (level.sub? name).bind fun next => next.follow names

theorem Level.follow_names (asked : Asked) : Level.root.follow asked.names = some asked.level := by
  cases asked with
  | generate arguments => exact (by decide : Level.root.follow ["generate"] = some .generate)
  | prefsList format => exact (by decide : Level.root.follow ["prefs", "list"] = some .prefsList)
  | prefsShow source => exact (by decide : Level.root.follow ["prefs", "show"] = some .prefsShow)
  | init output force => exact (by decide : Level.root.follow ["init"] = some .init)

/-- A level with others inside takes no source file of its own. -/
theorem Level.sub?_eq_some {level next : Level} {name : String} (h : level.sub? name = some next) :
    level.takesSource = false ∧ level ≠ .generate := by
  cases level with
  | root => exact ⟨rfl, by decide⟩
  | prefs => exact ⟨rfl, by decide⟩
  | _ => cases h

/-- Whether options are only such as every command takes. -/
def IsShared (option? : Opt → Option String) : Prop :=
  ∀ opt ∉ Opt.globals, option? opt = none

/-- A level is completed once what is pending is checked. -/
theorem completeLevel_of_settle {inside : Bool} {level : Level} {seen settled : Seen}
    (h : seen.settle = .ok settled) :
    completeLevel inside level seen =
      if !inside && level.needsSub then
        if settled.isEmpty then .error .nothingGiven else .error .missingCommand
      else if settled.hasConflict then .error .conflict
      else if settled.isIncomplete level then .error .missingArgument
      else .ok settled := by
  rw [completeLevel, h]
  rfl

/-- A level in which another was opened is complete if it has only options
that every command takes. -/
theorem completeLevel_of_shows {level : Level} {seen : Seen} {verbosity : Nat}
    {shared : Opt → Option String} (h : seen.Shows verbosity shared) (hshared : IsShared shared)
    (hlevel : level.takesSource = false ∧ level ≠ .generate) :
    completeLevel true level seen = .ok seen := by
  have hhas (opt : Opt) (hopt : opt ∉ Opt.globals) : seen.has opt = false := by
    rw [Seen.has, h.value, hshared opt hopt]
    rfl
  have hconflict : seen.hasConflict = false := by
    rw [Seen.hasConflict, hhas .line (by decide), hhas .outputDir (by decide)]
    rfl
  have hincomplete : seen.isIncomplete level = false := by
    rw [Seen.isIncomplete, hlevel.1, beq_false_of_ne hlevel.2]
    rfl
  have hsettle : seen.settle = .ok seen := by
    rw [Seen.settle, h.pending]
  rw [completeLevel_of_settle hsettle, hconflict, hincomplete]
  rfl

/-- What is read of levels inside each other. -/
structure ReadsAs (own : Opt → Option String) (verbosity : Nat) (shared : Opt → Option String)
    (inner : Seen) (outer : List (Level × Seen)) : Prop where
  pending : inner.pending = .none
  source : inner.source = none
  value : ∀ opt ∉ Opt.globals, inner.value? opt = own opt
  complete : ∀ passed ∈ outer, completeLevel true passed.1 passed.2 = .ok passed.2
  totals : Totals verbosity shared (inner :: outer.map Prod.snd)

/-- A name opens its level. -/
theorem Parsing.read_cons_of_sub? {parsing : Parsing} (htrailing : parsing.trailing = false)
    (hpending : parsing.seen.pending = .none) {name : String} {next : Level}
    (h : parsing.level.sub? name = some next) (rest : List String) :
    parsing.read (name :: rest) = (parsing.descend next).read rest := by
  have hwaiting : parsing.seen.isWaiting = false := by
    rw [Seen.isWaiting, hpending]
  rw [read, htrailing, hwaiting, h]
  rfl

/-- Levels inside each other are read one after the other, whatever the order
of their options and wherever the shared ones are. -/
theorem Places.read {own : Opt → Option String} {verbosity : Nat} {shared : Opt → Option String}
    {names words : List String} (h : Places own verbosity shared names words)
    {parsing : Parsing} (hseen : parsing.seen = {}) (htrailing : parsing.trailing = false)
    {last : Level} (hlast : parsing.level.follow names = some last) (hverbosity : verbosity ≤ 255)
    (hfits : ∀ level opt value, shared opt = some value → opt.Fits level value)
    (hshared : IsShared shared)
    (hown : ∀ opt value, own opt = some value → opt ∉ Opt.globals ∧ opt.Fits last value)
    (tail : List String) :
    ∃ inner outer, ReadsAs own verbosity shared inner outer ∧
      parsing.read (words ++ tail) =
        Parsing.read { level := last, seen := inner, outer := outer ++ parsing.outer } tail := by
  induction h generalizing parsing with
  | @innermost verbosity shared given hgiven =>
    obtain rfl : parsing.level = last := Option.some.inj hlast
    have hboth (opt : Opt) (value : String) (hvalue : (shared opt).or (own opt) = some value) :
        opt.Fits parsing.level value := by
      rcases Option.or_eq_some_iff.1 hvalue with hvalue | ⟨-, hvalue⟩
      · exact hfits parsing.level opt value hvalue
      · exact (hown opt value hvalue).2
    have hshows := hgiven.shows
    refine ⟨_, [], ⟨hshows.pending, hshows.source, ?_, by simp, ?_⟩, ?_⟩
    · intro opt hopt
      rw [hshows.value, hshared opt hopt, Option.none_or]
    · refine .singleton hshows ?_
      intro opt hopt
      have hnone : own opt = none := by
        rw [Option.eq_none_iff_forall_ne_some]
        intro value hvalue
        exact (hown opt value hvalue).1 hopt
      rw [hnone, Option.or_none]
    · rw [parsing.read_gives hseen htrailing hverbosity hboth hgiven, htrailing]
      rfl
  | @here verbosity shared given name names words hgiven hinside ih =>
    obtain ⟨next, hsub, hnext⟩ := Option.bind_eq_some_iff.1 hlast
    have hshows := hgiven.shows
    obtain ⟨inner, outer, hreads, hread⟩ := @ih
      (Parsing.descend { parsing with seen := ({} : Seen).extend given } next) rfl rfl hnext
      (Nat.zero_le _) (fun _ _ _ hnone => nomatch hnone) (fun _ _ => rfl)
    refine ⟨inner, outer ++ [(parsing.level, ({} : Seen).extend given)],
      ⟨hreads.pending, hreads.source, hreads.value, ?_, ?_⟩, ?_⟩
    · intro passed hpassed
      rcases List.mem_append.1 hpassed with hpassed | hpassed
      · exact hreads.complete passed hpassed
      · rw [List.mem_singleton.1 hpassed]
        exact completeLevel_of_shows hshows hshared (Level.sub?_eq_some hsub)
    · rw [List.map_append, ← List.cons_append]
      exact hreads.totals.append hshows
    · have hopened := @Parsing.read_cons_of_sub?
        { parsing with seen := ({} : Seen).extend given } htrailing hshows.pending name next hsub
      rw [List.append_assoc, parsing.read_gives hseen htrailing hverbosity (hfits _) hgiven,
        List.cons_append, hopened, hread, List.append_assoc]
      rfl
  | @inside verbosity shared name names words hinside ih =>
    obtain ⟨next, hsub, hnext⟩ := Option.bind_eq_some_iff.1 hlast
    obtain ⟨inner, outer, hreads, hread⟩ := @ih (parsing.descend next) rfl rfl hnext hverbosity
      hfits hshared
    refine ⟨inner, outer ++ [(parsing.level, ({} : Seen))],
      ⟨hreads.pending, hreads.source, hreads.value, ?_, ?_⟩, ?_⟩
    · intro passed hpassed
      rcases List.mem_append.1 hpassed with hpassed | hpassed
      · exact hreads.complete passed hpassed
      · rw [List.mem_singleton.1 hpassed]
        exact completeLevel_of_shows shows_empty (fun _ _ => rfl) (Level.sub?_eq_some hsub)
    · rw [List.map_append, ← List.cons_append]
      exact hreads.totals.append_empty
    · have hpending : parsing.seen.pending = .none := by rw [hseen]
      rw [List.cons_append, Parsing.read_cons_of_sub? htrailing hpending hsub, hread,
        List.append_assoc, ← hseen]
      rfl

/-! ## What is written fits -/

theorem flagValue?_eq_some {isGiven : Bool} {value : String}
    (h : flagValue? isGiven = some value) : value = "" := by
  cases isGiven with
  | true => exact (Option.some.inj h).symm
  | false => cases h

theorem valueUnless?_eq_some {isLeftOut : Bool} {text value : String}
    (h : valueUnless? isLeftOut text = some value) : value = text := by
  cases isLeftOut with
  | true => cases h
  | false => exact (Option.some.inj h).symm

theorem Opt.Fits.ofFlag {level : Level} {opt : Opt} {value : String} (hmem : opt ∈ level.options)
    (hhelp : opt ≠ .help) (hversion : opt ≠ .version) (hflag : opt.takesValue = false)
    (hvalue : value = "") : opt.Fits level value := by
  refine ⟨hmem, hhelp, hversion, ?_, fun _ _ => hvalue⟩
  rw [hflag]
  exact fun h => nomatch h

theorem Opt.Fits.ofValue {level : Level} {opt : Opt} {value : String} (hmem : opt ∈ level.options)
    (htakes : opt.takesValue = true) (hvalue : valueFault? opt value = none) :
    opt.Fits level value := by
  refine ⟨hmem, ?_, ?_, fun _ => hvalue, ?_⟩
  · rintro rfl
    cases htakes
  · rintro rfl
    cases htakes
  · rw [htakes]
    exact fun h => nomatch h

/-- A path is taken as it is, unless it is empty. -/
theorem Opt.Fits.ofPath {level : Level} {opt : Opt} {value : String} (hmem : opt ∈ level.options)
    (hopt : opt ∈ [Opt.prefsFile, .outputDir, .config, .output]) (hvalue : value ≠ "") :
    opt.Fits level value := by
  simp only [List.mem_cons, List.not_mem_nil, or_false] at hopt
  rcases hopt with rfl | rfl | rfl | rfl <;> exact .ofValue hmem rfl (by simp [valueFault?, hvalue])

theorem Globals.isShared_option? (isShort : Opt → Bool) (globals : Globals) :
    IsShared (globals.option? isShort) := by
  intro opt hopt
  cases opt <;> first | rfl | exact absurd (by decide) hopt

theorem Globals.fits_of_option? {isShort : Opt → Bool} {globals : Globals}
    (hglobals : globals.IsWritable) (level : Level) (opt : Opt) (value : String)
    (h : globals.option? isShort opt = some value) : opt.Fits level value := by
  cases opt with
  | quiet =>
    have hmem := Level.mem_options_of_mem_globals (by decide : Opt.quiet ∈ Opt.globals) level
    exact .ofFlag hmem (by decide) (by decide) rfl (flagValue?_eq_some h)
  | noConfig =>
    have hmem := Level.mem_options_of_mem_globals (by decide : Opt.noConfig ∈ Opt.globals) level
    exact .ofFlag hmem (by decide) (by decide) rfl (flagValue?_eq_some h)
  | color =>
    have hmem := Level.mem_options_of_mem_globals (by decide : Opt.color ∈ Opt.globals) level
    refine .ofValue hmem rfl ?_
    rw [valueUnless?_eq_some h, valueFault?, color?_colorText]
    rfl
  | prefsFile =>
    have hmem := Level.mem_options_of_mem_globals (by decide : Opt.prefsFile ∈ Opt.globals) level
    exact .ofPath hmem (by decide) fun hempty => hglobals.2 (hempty ▸ h)
  | _ => cases h

theorem Asked.fits_of_option? {isShort : Opt → Bool} {asked : Asked} (hasked : asked.IsWritable)
    (opt : Opt) (value : String) (h : asked.option? isShort opt = some value) :
    opt ∉ Opt.globals ∧ opt.Fits asked.level value := by
  cases asked with
  | generate arguments =>
    obtain ⟨-, hline, houtput, hsettings⟩ := hasked
    change _ ∧ opt.Fits .generate value
    cases opt with
    | line =>
      obtain ⟨number, hnumber, rfl⟩ := Option.map_eq_some_iff.1 h
      refine ⟨by decide, .ofValue (by decide) rfl ?_⟩
      rw [valueFault?, number?_toString (hline number hnumber)]
      rfl
    | signature => exact ⟨by decide, .ofValue (by decide) rfl rfl⟩
    | outputDir =>
      exact ⟨by decide, .ofPath (by decide) (by decide) fun hempty =>
        houtput (hempty ▸ h)⟩
    | config =>
      exact ⟨by decide, .ofPath (by decide) (by decide) fun hempty =>
        hsettings (hempty ▸ h)⟩
    | noPrompt =>
      exact ⟨by decide, .ofFlag (by decide) (by decide) (by decide) rfl
        (flagValue?_eq_some h)⟩
    | dryRun =>
      exact ⟨by decide, .ofFlag (by decide) (by decide) (by decide) rfl
        (flagValue?_eq_some h)⟩
    | _ => cases h
  | prefsList format =>
    change _ ∧ opt.Fits .prefsList value
    cases opt with
    | format =>
      refine ⟨by decide, .ofValue (by decide) rfl ?_⟩
      rw [valueUnless?_eq_some h, valueFault?, ofText?_formatText]
      rfl
    | _ => cases h
  | prefsShow source => cases opt <;> cases h
  | init output force =>
    change _ ∧ opt.Fits .init value
    cases opt with
    | output =>
      refine ⟨by decide, .ofPath (by decide) (by decide) ?_⟩
      rw [valueUnless?_eq_some h]
      exact hasked
    | force =>
      exact ⟨by decide, .ofFlag (by decide) (by decide) (by decide) rfl
        (flagValue?_eq_some h)⟩
    | _ => cases h

/-! ## Reading a command line -/

/-- The source file is read behind a double dash. -/
theorem Parsing.read_source {parsing : Parsing} (htrailing : parsing.trailing = false)
    (hpending : parsing.seen.pending = .none) (hsource : parsing.seen.source = none)
    (hlevel : parsing.level.takesSource = true) (source : String) :
    parsing.read ["--", source] =
      .ok { parsing with
        seen := { parsing.seen with pending := .source source }, trailing := true } := by
  have hdashes : parsing.argument "--" = .ok { parsing with trailing := true } := by
    rw [argument, htrailing]
    rfl
  have hsettle : parsing.seen.settle = .ok parsing.seen := by
    rw [Seen.settle, hpending]
  have hfree : parsing.seen.hasSource = false := by
    rw [Seen.hasSource, hpending, hsource]
    rfl
  have hword : parsing.seen.word parsing.level true source =
      .ok { parsing.seen with pending := .source source } := by
    rw [Seen.word, hlevel, hfree, hsettle]
    · rfl
    · rw [hpending]; simp
  have hargument : Parsing.argument { parsing with trailing := true } source =
      .ok { parsing with
        seen := { parsing.seen with pending := .source source }, trailing := true } := by
    simp only [argument, hword]
    rfl
  rw [read_cons_of_dash htrailing hpending (by decide) hdashes, read, hargument]
  rfl

/-- Whether what was read at the innermost level is what was asked for. -/
structure Asked.SeenAs (isShort : Opt → Bool) (asked : Asked) (seen : Seen) : Prop where
  source : seen.source = asked.source?
  value : ∀ opt ∉ Opt.globals, seen.value? opt = asked.option? isShort opt

namespace Asked.SeenAs

variable {isShort : Opt → Bool} {seen : Seen}

theorem has {asked : Asked} (h : asked.SeenAs isShort seen) {opt : Opt} (hopt : opt ∉ Opt.globals) :
    seen.has opt = (asked.option? isShort opt).isSome := by
  rw [Seen.has, h.value opt hopt]

/-- Only the options of `generate` exclude each other. -/
theorem hasConflict_eq {asked : Asked} (h : asked.SeenAs isShort seen) :
    seen.hasConflict =
      match asked with
      | .generate arguments => arguments.hasConflict
      | _ => false := by
  rw [Seen.hasConflict, h.has (by decide : Opt.line ∉ _), h.has (by decide : Opt.signature ∉ _),
    h.has (by decide : Opt.outputDir ∉ _), h.has (by decide : Opt.noPrompt ∉ _)]
  cases asked with
  | generate arguments =>
    simp only [option?, isSome_flagValue?, Option.isSome_map, GenerateArguments.hasConflict]
  | _ => rfl

/-- Only a selection can be missing. -/
theorem isIncomplete_eq {asked : Asked} (h : asked.SeenAs isShort seen) :
    seen.isIncomplete asked.level =
      match asked with
      | .generate arguments => !arguments.line.isSome && !arguments.signature.isSome
      | _ => false := by
  rw [Seen.isIncomplete, h.source, h.has (by decide : Opt.line ∉ _),
    h.has (by decide : Opt.signature ∉ _)]
  cases asked with
  | generate arguments => simp only [option?, Option.isSome_map]; rfl
  | _ => rfl

theorem selectionOf_eq {arguments : GenerateArguments} (h : (generate arguments).SeenAs isShort seen)
    (hline : ∀ number ∈ arguments.line, number < UInt64.size) :
    selectionOf seen =
      match arguments.line, arguments.signature with
      | some number, _ => .line number
      | none, some text => .text text
      | none, none => .line 0 := by
  have hsignature : seen.value? .signature = arguments.signature := h.value .signature (by decide)
  have hnumber : (seen.value? .line).bind number? = arguments.line := by
    rw [h.value .line (by decide), option?]
    cases hnumber : arguments.line with
    | none => rfl
    | some number => exact number?_toString (hline number hnumber)
  rw [← hnumber, ← hsignature]
  rfl

theorem taskOf_generate {arguments : GenerateArguments}
    (h : (generate arguments).SeenAs isShort seen) :
    taskOf .generate seen = .generate (arguments.withSelection (selectionOf seen)) := by
  rw [taskOf, h.source, h.has (by decide : Opt.noPrompt ∉ _), h.has (by decide : Opt.dryRun ∉ _),
    h.value .outputDir (by decide), h.value .config (by decide)]
  simp only [option?, isSome_flagValue?]
  rfl

/-- The level is read as the task that was asked for, or is refused for the
same reason. -/
theorem completeLevel_eq {asked : Asked} (h : asked.SeenAs isShort seen)
    (hasked : asked.IsWritable) {last : Seen} (hlast : last.settle = .ok seen) :
    (completeLevel false asked.level last).map (taskOf asked.level) = asked.task := by
  rw [completeLevel_of_settle hlast, h.hasConflict_eq, h.isIncomplete_eq]
  cases asked with
  | generate arguments =>
    cases hconflict : arguments.hasConflict with
    | true => simp only [task, hconflict]; rfl
    | false =>
      have hselection := h.selectionOf_eq hasked.2.1
      have htask := h.taskOf_generate
      rw [hselection] at htask
      simp only [task, hconflict]
      obtain ⟨source, line, signature, outputDir, noPrompt, settingsFile, dryRun⟩ := arguments
      cases line with
      | some number => exact congrArg Except.ok htask
      | none =>
        cases signature with
        | some text => exact congrArg Except.ok htask
        | none => rfl
  | prefsList format =>
    have hformat := h.value .format (by decide)
    have htask : taskOf .prefsList seen = .prefsList format := by
      simp only [taskOf, hformat, option?]
      cases isShort .format <;> cases format <;> rfl
    exact congrArg Except.ok htask
  | prefsShow source =>
    have htask : taskOf .prefsShow seen = .prefsShow source := by
      rw [taskOf, h.source]
      rfl
    exact congrArg Except.ok htask
  | init output force =>
    have hforce := h.has (by decide : Opt.force ∉ _)
    have houtput := h.value .output (by decide)
    have htask : taskOf .init seen = .init output force := by
      simp only [taskOf, houtput, hforce, option?, isSome_flagValue?]
      cases hshort : isShort .output && output == ".gtest-scaffold.toml" with
      | false => rfl
      | true =>
        rw [Bool.and_eq_true, beq_iff_eq] at hshort
        rw [hshort.2]
        rfl
    exact congrArg Except.ok htask

end Asked.SeenAs

theorem mapM_completeLevel {outer : List (Level × Seen)}
    (h : ∀ passed ∈ outer, completeLevel true passed.1 passed.2 = .ok passed.2) :
    (outer.mapM fun (level, seen) => completeLevel true level seen) = .ok (outer.map Prod.snd) := by
  induction outer with
  | nil => rfl
  | cons passed outer ih =>
    obtain ⟨level, seen⟩ := passed
    have hfirst : completeLevel true level seen = .ok seen := h (level, seen) List.mem_cons_self
    rw [List.mapM_cons, ih fun other hother => h other (List.mem_cons_of_mem _ hother)]
    simp only [hfirst]
    rfl

/-- If the levels around are complete, it depends on the innermost one. -/
theorem Parsing.complete_eq {parsing : Parsing}
    (h : ∀ passed ∈ parsing.outer, completeLevel true passed.1 passed.2 = .ok passed.2) :
    parsing.complete =
      (completeLevel false parsing.level parsing.seen).map fun inner =>
        { globals := globalsOf (inner :: parsing.outer.map Prod.snd)
          task := taskOf parsing.level inner } := by
  rw [complete, mapM_completeLevel h]
  cases completeLevel false parsing.level parsing.seen <;> rfl

/-- What is complete is what was read. -/
theorem eq_of_completeLevel {inside : Bool} {level : Level} {seen settled complete : Seen}
    (hsettle : seen.settle = .ok settled) (h : completeLevel inside level seen = .ok complete) :
    complete = settled := by
  rw [completeLevel_of_settle hsettle] at h
  split at h
  · split at h <;> cases h
  · split at h
    · cases h
    · split at h
      · cases h
      · exact (Except.ok.inj h).symm

theorem Asked.IsWritable.source_ne_empty {asked : Asked} (h : asked.IsWritable) {source : String}
    (hsource : asked.source? = some source) : source ≠ "" := by
  cases asked with
  | generate arguments => exact Option.some.inj hsource ▸ h.1
  | prefsShow path => exact Option.some.inj hsource ▸ h
  | _ => cases hsource

/-- A command line is read as what was written, whatever the order of its
options. -/
theorem parseWords_written {isShort : Opt → Bool} {globals : Globals} {asked : Asked}
    {words : List String} (hglobals : globals.IsWritable) (hasked : asked.IsWritable)
    (h : Written isShort globals asked words) :
    parseWords words = asked.task.map fun task => { globals, task } := by
  obtain ⟨front, hplaces, rfl⟩ := h
  obtain ⟨inner, outer, hreads, hread⟩ := @Places.read _ _ _ _ _ hplaces {} rfl rfl _
    (Level.follow_names asked) hglobals.1 (Globals.fits_of_option? hglobals)
    (globals.isShared_option? isShort) (Asked.fits_of_option? hasked)
    (asked.source?.elim [] fun source => ["--", source])
  have hseen : asked.SeenAs isShort { inner with source := asked.source? } :=
    ⟨rfl, hreads.value⟩
  have hcomplete (last : Seen) (trailing : Bool)
      (hlast : last.settle = .ok { inner with source := asked.source? }) :
      Parsing.complete { level := asked.level, seen := last, outer, trailing } =
        asked.task.map fun task => { globals, task } := by
    have htotals : Totals globals.verbosity (globals.option? isShort)
        ({ inner with source := asked.source? } :: outer.map Prod.snd) :=
      ⟨hreads.totals.verbosity, hreads.totals.value⟩
    rw [Parsing.complete_eq hreads.complete, ← hseen.completeLevel_eq hasked hlast]
    cases hinner : completeLevel false asked.level last with
    | error usage => rfl
    | ok complete =>
      rw [eq_of_completeLevel hlast hinner]
      simp only [Except.map, globalsOf_of_totals htotals]
  rw [parseWords, hread, List.append_nil]
  cases hsource : asked.source? with
  | none =>
    refine hcomplete inner false ?_
    have hsettle : inner.settle = .ok inner := by
      rw [Seen.settle, hreads.pending]
    rw [hsettle, hsource, ← hreads.source]
  | some source =>
    have htakes : asked.level.takesSource = true := by
      cases asked <;> first | rfl | cases hsource
    have hnonempty := hasked.source_ne_empty hsource
    have hlast := @Parsing.read_source { level := asked.level, seen := inner, outer } rfl
      hreads.pending hreads.source htakes source
    simp only [Option.elim_some, hlast]
    refine hcomplete _ true ?_
    rw [Seen.settle, hsource]
    simp [hnonempty, hreads.pending]

end TestSkeleton.Command
