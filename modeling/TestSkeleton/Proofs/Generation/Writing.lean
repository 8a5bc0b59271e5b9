import TestSkeleton.Proofs.Files.Replacing
import TestSkeleton.Proofs.TestFile.GeneratedText
import TestSkeleton.Generation.Run

/-!
# What writing a case does

A case is written by creating its file or by adding it to the file, and a
write that fails leaves every file as it was.  Dry runs and rejected inputs
write nothing.

* `writeCase_replaces` says that a case is written by replacing its file.
* `writeCase_created`, `writeCase_appended` and `writeCase_error` are the
  three ends of `TestStore.writeCase`, and `read_writeCase` reads the file
  that it leaves.
* `SameFiles` is what is left of the system by the steps that only look and
  ask, `sameFiles_resolve` among them.
* `target?` is the test file that a generation is going to write, and
  `generate_ends` takes a generation apart into what it only reads and the one
  write at its end.
-/

namespace TestSkeleton.Generation

open Files

namespace TestStore

/-! ## Writing a case -/

variable {store : TestStore} {path document caseName caseText : String} {memory after : Memory}

/-- An added case is a replaced file, after at most a warning. -/
theorem run_appendCase (path caseName caseText : String) (memory : Memory) :
    (∃ failure between, Memory.Changes (fun _ => False) memory between ∧
      memory.run (appendCase path caseName caseText) = (.error failure, between)) ∨
    ∃ content text out between, Memory.Changes (fun _ => False) memory between ∧
      memory.tree.read memory.current path = .ok content ∧
      String.fromUTF8? content = some text ∧
      TestFile.insertCase text.toList caseText.toList = .ok out ∧
      memory.run (appendCase path caseName caseText) =
        between.run (Files.replace path (String.ofList out).toUTF8) := by
  rw [appendCase, Action.bind_eq, Memory.run_andThen, Memory.run_readText]
  cases hread : memory.tree.read memory.current path with
  | error fault => exact Or.inl ⟨_, memory, .refl _ memory, rfl⟩
  | ok content =>
    cases htext : String.fromUTF8? content with
    | none => exact Or.inl ⟨_, memory, .refl _ memory, by simp only [htext]; rfl⟩
    | some text =>
      have hwarned : Memory.Changes (fun _ => False) memory
          { memory with warnings := memory.warnings ++ [.caseExists] } :=
        .of_tree_eq _ rfl rfl rfl
      simp only [htext]
      cases hout : TestFile.insertCase text.toList caseText.toList with
      | error malformed =>
        refine Or.inl ?_
        split
        · exact ⟨_, _, hwarned, rfl⟩
        · exact ⟨_, memory, .refl _ memory, rfl⟩
      | ok out =>
        refine Or.inr ⟨content, text, out, ?_⟩
        split
        · exact ⟨_, hwarned, rfl, htext, hout, rfl⟩
        · exact ⟨memory, .refl _ memory, rfl, htext, hout, rfl⟩

/-- The run of `writeCase` up to the look at the file: the lock is refused, or
the file is looked for in a system that has grown. -/
theorem run_writeCase (store : TestStore) (path document caseName caseText : String)
    (memory : Memory) :
    ∃ locked, Memory.Changes (fun _ => False) memory locked ∧
      ((∃ failure, memory.run (store.writeCase path document caseName caseText) =
          (.error failure, locked)) ∨
        ∃ ticket,
          (locked.tree.contains locked.current path = true ∧
            memory.run (store.writeCase path document caseName caseText) =
              ((locked.run (appendCase path caseName caseText)).1.map fun () => .appended,
                (locked.run (appendCase path caseName caseText)).2.release ticket)) ∨
          (locked.tree.contains locked.current path = false ∧
            memory.run (store.writeCase path document caseName caseText) =
              ((locked.run (writeNew path document)).1.map fun () => .created,
                (locked.run (writeNew path document)).2.release ticket))) := by
  obtain ⟨locked, hlocked, hrun⟩ := Memory.run_withLock (StatePaths.lockFile store.lockDir path)
    .exclusive store.timeoutMs Except.error (do
      if (← Action.pathExists path) then
        return (← appendCase path caseName caseText).map fun () => WriteOutcome.appended
      else
        return (← writeNew path document).map fun () => .created) memory
  refine ⟨locked, hlocked, ?_⟩
  rcases hrun with hrefused | ⟨ticket, hrun⟩
  · exact Or.inl hrefused
  refine Or.inr ⟨ticket, ?_⟩
  rw [writeCase, hrun, Action.bind_eq, Memory.run_andThen, Memory.run_pathExists]
  cases hexists : locked.tree.contains locked.current path with
  | true =>
    refine Or.inl ⟨rfl, ?_⟩
    rw [if_pos rfl, Action.bind_eq, Memory.run_andThen]
    rfl
  | false =>
    refine Or.inr ⟨rfl, ?_⟩
    rw [if_neg (by simp), Action.bind_eq, Memory.run_andThen]
    rfl

theorem changes_release {changed : Place → Prop} {before : Memory}
    (h : Memory.Changes changed before memory) (ticket : Nat) :
    Memory.Changes changed before (memory.release ticket) :=
  h.trans (.of_tree_eq _ rfl rfl rfl)

/-- What a lock and a warning do, among other changes. -/
theorem changes_of_none {changed : Place → Prop}
    (h : Memory.Changes (fun _ => False) memory after) : Memory.Changes changed memory after :=
  h.mono fun _ hplace => hplace.elim

/-- A case that could not be written leaves every file as it was. -/
theorem writeCase_error {failure : Failure}
    (h : memory.run (store.writeCase path document caseName caseText) = (.error failure, after)) :
    Memory.Changes (IsTemporary memory.current path memory.processId) memory after := by
  obtain ⟨locked, hlocked, hrun⟩ := run_writeCase store path document caseName caseText memory
  rw [h] at hrun
  rcases hrun with ⟨refusal, hrun⟩ | ⟨ticket, ⟨-, hrun⟩ | ⟨-, hrun⟩⟩
  · cases hrun
    exact changes_of_none hlocked
  · rw [(Prod.mk.inj hrun).2]
    refine (changes_of_none hlocked).trans (changes_release ?_ ticket)
    rcases run_appendCase path caseName caseText locked with
      ⟨reason, between, hbetween, happend⟩ |
        ⟨content, text, out, between, hbetween, -, -, -, happend⟩
    · rw [happend]
      exact changes_of_none hbetween
    · cases hreplace : between.run (Files.replace path (String.ofList out).toUTF8) with
      | mk reply last =>
        rw [happend, hreplace] at hrun ⊢
        cases reply with
        | ok done => cases hrun
        | error reason =>
          have hchanges := Memory.replace_error hreplace
          rw [hbetween.current, hbetween.processId, hlocked.current, hlocked.processId] at hchanges
          exact (changes_of_none hbetween).trans hchanges
  · rw [(Prod.mk.inj hrun).2]
    refine (changes_of_none hlocked).trans (changes_release ?_ ticket)
    cases hreplace : locked.run (writeNew path document) with
    | mk reply last =>
      rw [hreplace] at hrun
      cases reply with
      | ok done => cases hrun
      | error reason =>
        have hchanges := Memory.replace_error hreplace
        rw [hlocked.current, hlocked.processId] at hchanges
        exact hchanges

/-- What a successful write leaves at the place of a test file. -/
structure Leaves (path : String) (text : String) (memory after : Memory) : Prop where
  node : after.tree.node? (Tree.lexical memory.current path) = some (.file text.toUTF8)
  changes : Memory.Changes (fun place => IsTemporary memory.current path memory.processId place ∨
    place = Tree.lexical memory.current path) memory after

/-- A file that was replaced, seen from the time before the lock was taken. -/
theorem leaves_of_replace {text : String} {locked last : Memory}
    (hlocked : Memory.Changes (fun _ => False) memory locked) (hup : ".." ∉ Path.steps path)
    (h : locked.run (Files.replace path text.toUTF8) = (.ok (), last)) (ticket : Nat) :
    Leaves path text memory (last.release ticket) ∧
      ∃ parent name, last.tree.LeadsTo memory.current path parent name ∧
        parent ++ [name] = Tree.lexical memory.current path := by
  obtain ⟨parent, name, hleads, hnode, hchanges⟩ := Memory.replace_ok h
  rw [hlocked.current] at hleads hchanges
  rw [hlocked.processId] at hchanges
  have hplace := hleads.eq_lexical hup
  rw [hplace] at hnode hchanges
  exact ⟨⟨hnode, changes_release ((changes_of_none hlocked).trans hchanges) ticket⟩,
    parent, name, hleads, hplace⟩

/-- A case is written by replacing its file: with a new document if there was
no file, and with the file and the case in it otherwise. -/
theorem writeCase_replaces {outcome : WriteOutcome}
    (h : memory.run (store.writeCase path document caseName caseText) = (.ok outcome, after)) :
    ∃ (locked between last : Memory) (text : String) (ticket : Nat),
      Memory.Changes (fun _ => False) memory locked ∧
      Memory.Changes (fun _ => False) locked between ∧
      between.run (Files.replace path text.toUTF8) = (.ok (), last) ∧
      after = last.release ticket ∧
      ((outcome = .created ∧ text = document ∧
          locked.tree.contains locked.current path = false) ∨
        ∃ front : String, outcome = .appended ∧
          locked.tree.read locked.current path = .ok front.toUTF8 ∧
          TestFile.insertCase front.toList caseText.toList = .ok text.toList) := by
  obtain ⟨locked, hlocked, hrun⟩ := run_writeCase store path document caseName caseText memory
  rw [h] at hrun
  rcases hrun with ⟨refusal, hrun⟩ | ⟨ticket, ⟨-, hrun⟩ | ⟨hexists, hrun⟩⟩
  · cases hrun
  · rcases run_appendCase path caseName caseText locked with
      ⟨reason, between, -, happend⟩ |
        ⟨content, front, out, between, hbetween, hread, hfront, hout, happend⟩
    · rw [happend] at hrun
      cases hrun
    · cases hreplace : between.run (Files.replace path (String.ofList out).toUTF8) with
      | mk reply last =>
        rw [happend, hreplace] at hrun
        cases reply with
        | error reason => cases hrun
        | ok done =>
          cases hrun
          rw [Text.eq_toUTF8_of_fromUTF8? hfront] at hread
          rw [← String.toList_ofList (l := out)] at hout
          exact ⟨locked, between, last, _, ticket, hlocked, hbetween, hreplace, rfl,
            Or.inr ⟨front, rfl, hread, hout⟩⟩
  · cases hreplace : locked.run (writeNew path document) with
    | mk reply last =>
      rw [hreplace] at hrun
      cases reply with
      | error reason => cases hrun
      | ok done =>
        cases hrun
        exact ⟨locked, locked, last, document, ticket, hlocked, .refl _ locked, hreplace, rfl,
          Or.inl ⟨rfl, rfl, hexists⟩⟩

/-- The path of a case that was written leads to a name. -/
theorem writeCase_ok {outcome : WriteOutcome}
    (h : memory.run (store.writeCase path document caseName caseText) = (.ok outcome, after)) :
    ∃ (tree : Tree) (parent : Place) (name : String),
      tree.LeadsTo memory.current path parent name := by
  obtain ⟨locked, between, last, text, ticket, hlocked, hbetween, hreplace, -, -⟩ :=
    writeCase_replaces h
  obtain ⟨parent, name, hleads, -⟩ := Memory.replace_ok hreplace
  rw [(hlocked.trans hbetween).current] at hleads
  exact ⟨last.tree, parent, name, hleads⟩

/-- A case that was written can be read back: the file holds the document or
what it held before with the case in it. -/
theorem read_writeCase {outcome : WriteOutcome}
    (h : memory.run (store.writeCase path document caseName caseText) = (.ok outcome, after)) :
    ∃ text : String, after.tree.read after.current path = .ok text.toUTF8 ∧
      ((outcome = .created ∧ text = document) ∨ ∃ front : String, outcome = .appended ∧
        TestFile.insertCase front.toList caseText.toList = .ok text.toList) := by
  obtain ⟨locked, between, last, text, ticket, -, -, hreplace, rfl, hends⟩ := writeCase_replaces h
  obtain ⟨parent, name, hleads, hnode, hchanges⟩ := Memory.replace_ok hreplace
  refine ⟨text, ?_, ?_⟩
  · show last.tree.read last.current path = _
    rw [← hchanges.current] at hleads
    exact Memory.read_of_locate (hleads.locate (by rw [hnode]; rfl)) hnode
  · rcases hends with ⟨houtcome, htext, -⟩ | ⟨front, houtcome, -, hinsert⟩
    · exact Or.inl ⟨houtcome, htext⟩
    · exact Or.inr ⟨front, houtcome, hinsert⟩

/-- A case that was written changed no file but one. -/
theorem writeCase_leaves {outcome : WriteOutcome} (hup : ".." ∉ Path.steps path)
    (h : memory.run (store.writeCase path document caseName caseText) = (.ok outcome, after)) :
    ∃ text, Leaves path text memory after := by
  obtain ⟨locked, between, last, text, ticket, hlocked, hbetween, hreplace, rfl, -⟩ :=
    writeCase_replaces h
  exact ⟨text, (leaves_of_replace (hlocked.trans hbetween) hup hreplace ticket).1⟩

/-- A file is created where none was. -/
theorem writeCase_created (hwell : memory.tree.WellFormed) (hup : ".." ∉ Path.steps path)
    (h : memory.run (store.writeCase path document caseName caseText) = (.ok .created, after)) :
    (∀ content, memory.tree.node? (Tree.lexical memory.current path) ≠ some (.file content)) ∧
      Leaves path document memory after := by
  obtain ⟨locked, between, last, text, ticket, hlocked, hbetween, hreplace, rfl,
    ⟨-, rfl, hexists⟩ | ⟨front, hother, -⟩⟩ := writeCase_replaces h
  · obtain ⟨hleaves, parent, name, hleads, hplace⟩ :=
      leaves_of_replace (hlocked.trans hbetween) hup hreplace ticket
    refine ⟨?_, hleaves⟩
    -- a file at the place would have been found
    intro content hnode
    have hnode' := (hlocked.node _ id).eq_of_some hnode
    rw [← hplace] at hnode'
    have hlocate := (hlocked.wellFormed hwell).locate hleads hup (by rw [hnode']; rfl)
    rw [← hlocked.current] at hlocate
    rw [Tree.contains, hlocate] at hexists
    cases hexists
  · cases hother

/-- A case is added to the file that was there. -/
theorem writeCase_appended (hup : ".." ∉ Path.steps path)
    (h : memory.run (store.writeCase path document caseName caseText) = (.ok .appended, after)) :
    ∃ text out : String,
      memory.tree.node? (Tree.lexical memory.current path) = some (.file text.toUTF8) ∧
        TestFile.insertCase text.toList caseText.toList = .ok out.toList ∧
        Leaves path out memory after := by
  obtain ⟨locked, between, last, out, ticket, hlocked, hbetween, hreplace, rfl,
    ⟨hother, -⟩ | ⟨text, -, hread, hinsert⟩⟩ := writeCase_replaces h
  · cases hother
  · obtain ⟨hleaves, -⟩ := leaves_of_replace (hlocked.trans hbetween) hup hreplace ticket
    obtain ⟨place, hlocate, hnode⟩ := Memory.read_ok hread
    rw [hlocked.current] at hlocate
    rw [Tree.locate_eq_lexical hlocate hup] at hnode
    refine ⟨text, out, ?_, hinsert, hleaves⟩
    rcases (hlocked.node _ id).eq_of_file hnode with hbefore | ⟨-, hempty⟩
    · exact hbefore
    · -- a lock file that is new takes no case
      have hnil : text = "" := String.toByteArray_inj.1 hempty
      rw [hnil] at hinsert
      cases hinsert

end TestStore

/-! ## A generation -/

variable {store : TestStore} {settings : Settings} {context : Source.Context}
  {prompt : Source.FolderPrompt} {memory : Memory}

/-- The source file and the signature that a generation is about, unless it
rejects its input. -/
def subject? (settings : Settings) (context : Source.Context) (memory : Memory) :
    Option (String × Signature) :=
  match context.path with
  | .error _ => none
  | .ok source =>
    if !settings.naming.isSource source then none
    else
      match (memory.run context.selectedLine).1 with
      | .error _ => none
      | .ok line =>
        match Signature.read line with
        | .error _ => none
        | .ok signature => some (source, signature)

/-- The test file that a generation is going to write, unless it rejects its
input or is a preview. -/
def target? (store : TestStore) (settings : Settings) (context : Source.Context)
    (prompt : Source.FolderPrompt) (dryRun : Bool) (memory : Memory) : Option String :=
  if dryRun then none
  else
    match subject? settings context memory with
    | none => none
    | some (source, signature) =>
      match (memory.run (absoluteSource source)).1 with
      | .error _ => none
      | .ok absolute =>
        some (Path.join (memory.run (store.resolve absolute prompt)).1.directory
          (planFor settings source signature).fileName)

theorem run_selectedLine (context : Source.Context) (memory : Memory) :
    (memory.run context.selectedLine).2 = memory := by
  rw [Source.Context.selectedLine]
  split
  · rfl
  · rfl
  · split
    · rfl
    · rw [Action.bind_eq, Memory.run_andThen, Memory.run_readText]
      split <;> rfl

/-- A rejected input changes nothing, and any other goes on with its plan. -/
theorem run_generate (store : TestStore) (settings : Settings) (context : Source.Context)
    (prompt : Source.FolderPrompt) (dryRun : Bool) (memory : Memory) :
    match subject? settings context memory with
    | none => ∃ failure, memory.run (generate store settings context prompt dryRun) =
        ((.error failure, store), memory)
    | some (source, signature) => memory.run (generate store settings context prompt dryRun) =
        memory.run (generatePlan store prompt dryRun source
          (planFor settings source signature)) := by
  rw [generate, subject?]
  cases context.path with
  | error failure => exact ⟨failure, rfl⟩
  | ok source =>
    cases hsource : settings.naming.isSource source with
    | false =>
      simp only [hsource, Bool.not_false, if_true]
      exact ⟨_, rfl⟩
    | true =>
      simp only [hsource, Bool.not_true, Bool.false_eq_true, if_false, Action.bind_eq,
        Memory.run_andThen, run_selectedLine]
      cases (memory.run context.selectedLine).1 with
      | error failure => exact ⟨failure, rfl⟩
      | ok line =>
        simp only [plan]
        cases Signature.read line with
        | error refusal => exact ⟨_, rfl⟩
        | ok signature => rfl

theorem run_absoluteSource (source : String) (memory : Memory) :
    (memory.run (absoluteSource source)).2 = memory := by
  rw [absoluteSource, Action.bind_eq, Memory.run_andThen, Memory.run_realPath]
  cases memory.realPath source with
  | ok path => rfl
  | error fault =>
    simp only
    split
    · rfl
    · split <;> rfl

/-- Whether two systems have the same files, seen from the same directory. -/
structure SameFiles (before after : Memory) : Prop where
  tree : after.tree = before.tree
  current : after.current = before.current
  processId : after.processId = before.processId

theorem sameFiles_choose (prompt : Source.FolderPrompt) (source : String) (memory : Memory) :
    SameFiles memory (memory.run (prompt.choose source)).2 := by
  cases prompt with
  | fixed directory => exact ⟨rfl, rfl, rfl⟩
  | declined => exact ⟨rfl, rfl, rfl⟩
  | interactive =>
    rw [Source.FolderPrompt.choose, Action.bind_eq, Memory.run_andThen, Memory.run_ask, Memory.ask]
    simp only
    cases String.fromUTF8? _ <;> exact ⟨rfl, rfl, rfl⟩

theorem run_absoluteOrSame (directory : String) (memory : Memory) :
    memory.run (TestStore.absoluteOrSame directory) =
      (if directory.isEmpty then directory
        else if Path.isAbsolute directory then Path.absolute "/" directory
        else Path.absolute (Memory.pathOf memory.current) directory, memory) := by
  rw [TestStore.absoluteOrSame]
  split
  · rfl
  · split <;> rfl

/-- The directory for a source file that was never seen. -/
theorem run_resolve_unknown {source : String}
    (h : Preferences.Outputs.lookup? store.preferences.document source = none) :
    memory.run (store.resolve source prompt) =
      match memory.run (prompt.choose source) with
      | (some directory, asked) =>
        let chosen := (asked.run (TestStore.absoluteOrSame directory)).1
        (⟨chosen, true, some ⟨source, chosen⟩⟩, asked)
      | (none, asked) =>
        let own := Path.containingDir source
        (⟨own, true, some ⟨source, own⟩⟩, asked) := by
  rw [TestStore.resolve]
  simp only [h]
  rw [Action.bind_eq, Memory.run_andThen]
  cases hchoose : memory.run (prompt.choose source) with
  | mk answer asked =>
    cases answer with
    | none => rfl
    | some directory =>
      simp only [Action.bind_eq, Memory.run_andThen, run_absoluteOrSame, Action.pure_eq,
        Memory.run_done]

theorem run_resolve_known {source : String} {stored : Preferences.Outputs.Stored}
    (h : Preferences.Outputs.lookup? store.preferences.document source = some stored) :
    memory.run (store.resolve source prompt) =
      (⟨if stored.inUse then stored.directory.getD (Path.containingDir source)
        else Path.containingDir source, false, none⟩, memory) := by
  rw [TestStore.resolve]
  simp only [h]
  rfl

theorem sameFiles_resolve (store : TestStore) (source : String) (prompt : Source.FolderPrompt)
    (memory : Memory) : SameFiles memory (memory.run (store.resolve source prompt)).2 := by
  cases h : Preferences.Outputs.lookup? store.preferences.document source with
  | some stored =>
    rw [run_resolve_known h]
    exact ⟨rfl, rfl, rfl⟩
  | none =>
    rw [run_resolve_unknown h]
    have hchoose := sameFiles_choose prompt source memory
    revert hchoose
    cases memory.run (prompt.choose source) with
    | mk answer asked => cases answer <;> exact id

theorem changes_resolve (store : TestStore) (source : String) (prompt : Source.FolderPrompt)
    (memory : Memory) :
    Memory.Changes (fun _ => False) memory (memory.run (store.resolve source prompt)).2 :=
  have hsame := sameFiles_resolve store source prompt memory
  .of_tree_eq _ hsame.tree hsame.current hsame.processId

/-! ## The end of a generation -/

/-- The document of a store in memory after a directory is remembered. -/
def remembered (document : Preferences.Document) : Option PendingOutput → Preferences.Document
  | none => document
  | some pending =>
    document.applyAll (Preferences.Outputs.rememberChanges pending.source pending.directory)

theorem recordAll_memory (document : Preferences.Document) (changes : List Preferences.Change) :
    (Preferences.Store.memory document).recordAll changes =
      .memory (document.applyAll changes) := by
  induction changes generalizing document with
  | nil => rfl
  | cons change changes ih => exact ih (document.apply change)

theorem run_commit {document : Preferences.Document} (hstore : store.preferences = .memory document)
    (pending : Option PendingOutput) (memory : Memory) :
    memory.run (store.commit pending) =
      ((.ok (), { store with preferences := .memory (remembered document pending) }), memory) := by
  cases pending with
  | none =>
    obtain ⟨preferences, lockDir, timeoutMs⟩ := store
    cases hstore
    rfl
  | some pending =>
    simp only [TestStore.commit, Preferences.Outputs.remember_ofText, hstore, recordAll_memory]
    rfl

/-- A preview changes nothing and writes no case. -/
theorem run_preview (plan : Plan) (resolved : ResolvedOutput) (testFile : String)
    (memory : Memory) : ∃ generated, memory.run (preview plan resolved testFile) =
      (generated, memory) ∧ generated.outcome = none := by
  simp only [preview, Action.bind_eq, Memory.run_andThen, Memory.run_pathExists, Action.pure_eq,
    Memory.run_done]
  exact ⟨_, rfl, rfl⟩

/-- A plan is carried out over a store in memory, or its file is not
written. -/
theorem run_carryOut {document : Preferences.Document}
    (hstore : store.preferences = .memory document) (plan : Plan) (resolved : ResolvedOutput)
    (testFile : String) (memory : Memory) :
    (∃ failure after, memory.run (store.writeCase testFile plan.document plan.caseName
        plan.caseText) = (.error failure, after) ∧
      memory.run (carryOut store plan resolved testFile) =
        ((.error failure, store), after)) ∨
    ∃ outcome after generated, memory.run (store.writeCase testFile plan.document plan.caseName
        plan.caseText) = (.ok outcome, after) ∧
      memory.run (carryOut store plan resolved testFile) = ((.ok generated, { store with
        preferences := .memory (remembered document resolved.pending) }), after) ∧
      generated.testFile = testFile ∧ generated.outcome = some outcome := by
  rw [carryOut, Action.bind_eq, Memory.run_andThen]
  cases memory.run (store.writeCase testFile plan.document plan.caseName plan.caseText) with
  | mk reply after =>
    cases reply with
    | error failure => exact Or.inl ⟨failure, after, rfl, rfl⟩
    | ok outcome =>
      refine Or.inr ⟨outcome, after, ?_⟩
      simp only [Action.bind_eq, Memory.run_andThen, run_commit hstore, Action.pure_eq,
        Memory.run_done]
      exact ⟨_, trivial, rfl, rfl, rfl⟩

/-- What a generation that wrote a case went through. -/
structure Wrote (store : TestStore) (settings : Settings) (context : Source.Context)
    (prompt : Source.FolderPrompt) (memory : Memory) where
  source : String
  signature : Signature
  absolute : String
  resolved : ResolvedOutput
  /-- The system when the case is about to be written. -/
  asked : Memory
  outcome : WriteOutcome
  subject : subject? settings context memory = some (source, signature)
  located : (memory.run (absoluteSource source)).1 = .ok absolute
  chosen : memory.run (store.resolve absolute prompt) = (resolved, asked)

namespace Wrote

/-- The names and the text that are written. -/
def plan (wrote : Wrote store settings context prompt memory) : Plan :=
  planFor settings wrote.source wrote.signature

/-- The path of the test file. -/
def testFile (wrote : Wrote store settings context prompt memory) : String :=
  Path.join wrote.resolved.directory wrote.plan.fileName

end Wrote

/-- A generation over a store in memory changes no store and no file but the
temporary one for its test file, or it writes one case. -/
theorem generate_ends {document : Preferences.Document}
    (hstore : store.preferences = .memory document) (dryRun : Bool)
    {result : Except Failure Generated} {store' : TestStore} {after : Memory}
    (h : memory.run (generate store settings context prompt dryRun) = ((result, store'), after)) :
    ((∀ generated, result = .ok generated → generated.outcome = none) ∧ store' = store ∧
        Memory.Changes (fun place => ∃ path,
            target? store settings context prompt dryRun memory = some path ∧
              IsTemporary memory.current path memory.processId place) memory after) ∨
      ∃ (wrote : Wrote store settings context prompt memory) (generated : Generated),
        wrote.asked.run (store.writeCase wrote.testFile wrote.plan.document wrote.plan.caseName
          wrote.plan.caseText) = (.ok wrote.outcome, after) ∧
        result = .ok generated ∧ generated.testFile = wrote.testFile ∧
        generated.outcome = some wrote.outcome ∧
        store' = { store with
          preferences := .memory (remembered document wrote.resolved.pending) } ∧
        target? store settings context prompt dryRun memory = some wrote.testFile := by
  have hrun := run_generate store settings context prompt dryRun memory
  rw [h] at hrun
  cases hsubject : subject? settings context memory with
  | none =>
    rw [hsubject] at hrun
    obtain ⟨failure, hrun⟩ := hrun
    cases hrun
    exact Or.inl ⟨fun generated hok => (nomatch hok), rfl, .refl _ memory⟩
  | some subject =>
    obtain ⟨source, signature⟩ := subject
    rw [hsubject] at hrun
    simp only at hrun
    rw [generatePlan, Action.bind_eq, Memory.run_andThen, run_absoluteSource] at hrun
    cases habsolute : (memory.run (absoluteSource source)).1 with
    | error fault =>
      rw [habsolute] at hrun
      cases hrun
      exact Or.inl ⟨fun generated hok => (nomatch hok), rfl, .refl _ memory⟩
    | ok absolute =>
      rw [habsolute] at hrun
      simp only [Action.bind_eq, Memory.run_andThen] at hrun
      have hasked := changes_resolve store absolute prompt memory
      cases hchosen : memory.run (store.resolve absolute prompt) with
      | mk resolved asked =>
        rw [hchosen] at hrun hasked
        cases dryRun with
        | true =>
          obtain ⟨shown, hpreview, hnone⟩ := run_preview (planFor settings source signature)
            resolved (Path.join resolved.directory (planFor settings source signature).fileName)
            asked
          simp only [if_true, Memory.run_andThen, hpreview, Action.pure_eq, Memory.run_done,
            Prod.mk.injEq] at hrun
          obtain ⟨⟨hresult, rfl⟩, rfl⟩ := hrun
          refine Or.inl ⟨?_, rfl, TestStore.changes_of_none hasked⟩
          intro generated hok
          rw [hresult, Except.ok.injEq] at hok
          rw [← hok, hnone]
        | false =>
          simp only [Bool.false_eq_true, if_false] at hrun
          have htarget : target? store settings context prompt false memory = some
              (Path.join resolved.directory (planFor settings source signature).fileName) := by
            simp only [target?, hsubject, habsolute, hchosen, Bool.false_eq_true, if_false]
          rcases run_carryOut hstore (planFor settings source signature) resolved
              (Path.join resolved.directory (planFor settings source signature).fileName) asked with
            ⟨failure, last, hwrite, hcarry⟩ |
              ⟨outcome, last, generated, hwrite, hcarry, htestFile, houtcome⟩
          · rw [hcarry] at hrun
            cases hrun
            have hchanges := TestStore.writeCase_error hwrite
            rw [hasked.current, hasked.processId] at hchanges
            exact Or.inl ⟨fun generated hok => (nomatch hok), rfl,
              (TestStore.changes_of_none hasked).trans
                (hchanges.mono fun place hplace => ⟨_, htarget, hplace⟩)⟩
          · rw [hcarry] at hrun
            cases hrun
            exact Or.inr ⟨⟨source, signature, absolute, resolved, asked, outcome, hsubject,
              habsolute, hchosen⟩, generated, hwrite, rfl, htestFile, houtcome, rfl, htarget⟩

end TestSkeleton.Generation
