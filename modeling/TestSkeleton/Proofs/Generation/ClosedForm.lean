import TestSkeleton.Proofs.Generation.Directories

/-!
# The text of every generated file

Over a store in memory, a sequence of generations fills the test files and
does nothing else to them: a file is the preamble of the generation that
created it and then the cases of all generations that wrote to it, in order.

* `Session.run` is a sequence of generations, of which `Session.writes`
  records those that wrote a case and `Session.targets` the test files that
  they were about to write.
* `closedForm` is the text of a file that some writes made.
* `Session.Inv` is the invariant of a session, and `Session.Inv.step` keeps
  it for one generation.
* `Session.node?_run` is the result for a whole session.
* `Session.not_closedForm` has test files with the names of other files that a
  generation makes: of a temporary file and of a lock file.
-/

namespace TestSkeleton.Generation

open Files

/-! ## Sessions -/

/-- One generation that is asked for. -/
structure Call where
  context : Source.Context
  prompt : Source.FolderPrompt := .declined
  /-- What the user types if there is a question. -/
  input : List UInt8 := []
  dryRun : Bool := false
deriving DecidableEq, Inhabited, Repr

/-- The directory that a call answers with, if the question comes up. -/
def Call.answer? (call : Call) : Option String :=
  match call.prompt with
  | .fixed directory => some directory
  | .declined => none
  | .interactive =>
    (String.fromUTF8? ⟨(Memory.firstLine call.input).1.toArray⟩).bind fun text =>
      if (Text.trimmed text).isEmpty then none else some (Text.trimmed text)

/-- Whether neither the source path nor the answer of a call goes up. -/
structure Call.IsDirect (call : Call) : Prop where
  source : ∀ source, call.context.source = some source → Path.IsDirect source
  answer : ∀ directory, call.answer? = some directory → Path.IsDirect directory

theorem Call.isDirect_of_declined {call : Call} (hprompt : call.prompt = .declined)
    (hsource : ∀ source ∈ call.context.source, Path.IsDirect source) : call.IsDirect := by
  refine ⟨hsource, ?_⟩
  rw [Call.answer?, hprompt]
  exact fun directory hdirectory => nomatch hdirectory

/-- A case that was written. -/
structure Write where
  source : String
  signature : Signature
  /-- The place of the test file. -/
  place : Place
  outcome : WriteOutcome
deriving DecidableEq, Inhabited, Repr

/-- The writes to the file at a place, in order. -/
def writesAt (writes : List Write) (place : Place) : List Write :=
  writes.filter fun write => write.place == place

/-- A store, the system and the cases written so far. -/
structure Session where
  store : TestStore
  memory : Memory
  writes : List Write := []
  /-- The test files that generations were going to write. -/
  targets : List String := []
deriving Inhabited

namespace Session

/-- A session over an empty store in memory. -/
def start (lockDir : String) (timeoutMs : Nat) (memory : Memory) : Session where
  store := { preferences := .memory {}, lockDir, timeoutMs }
  memory := memory

/-- The system in which a call runs. -/
def memoryFor (session : Session) (call : Call) : Memory :=
  { session.memory with input := call.input }

/-- The test file that a call is going to write. -/
def target? (settings : Settings) (session : Session) (call : Call) : Option String :=
  Generation.target? session.store settings call.context call.prompt call.dryRun
    (session.memoryFor call)

/-- The case that a generation wrote, seen from its result. -/
def written? (settings : Settings) (call : Call) (memory : Memory) :
    Except Failure Generated → Option Write
  | .error _ => none
  | .ok generated =>
    match subject? settings call.context memory, generated.outcome with
    | some (source, signature), some outcome =>
      some ⟨source, signature, Tree.lexical memory.current generated.testFile, outcome⟩
    | _, _ => none

/-- One more generation. -/
def step (settings : Settings) (session : Session) (call : Call) : Session :=
  match (session.memoryFor call).run
      (generate session.store settings call.context call.prompt call.dryRun) with
  | ((result, store), memory) =>
    { store, memory
      writes := session.writes ++
        (written? settings call (session.memoryFor call) result).toList
      targets := session.targets ++ (session.target? settings call).toList }

/-- Some generations in turn. -/
def run (settings : Settings) (session : Session) (calls : List Call) : Session :=
  calls.foldl (step settings) session

end Session

theorem writesAt_append_of_ne (writes : List Write) {write : Write} {place : Place}
    (h : place ≠ write.place) : writesAt (writes ++ [write]) place = writesAt writes place := by
  simp [writesAt, Ne.symm h]

theorem writesAt_append_self (writes : List Write) (write : Write) :
    writesAt (writes ++ [write]) write.place = writesAt writes write.place ++ [write] := by
  simp [writesAt]

/-! ## The text of a file -/

namespace Write

variable (settings : Settings) (write : Write)

/-- The header and the fixture class of the source file. -/
def header : String :=
  settings.naming.headerOf write.source

def fixture : String :=
  settings.naming.fixtureOf (write.header settings)

def method : String :=
  write.signature.unqualifiedName

def arguments : List Argument :=
  Argument.bind settings.initializers write.signature.parameters

/-- The preamble of a file that the write creates. -/
def declaration : String :=
  settings.template.declaration (write.header settings) (write.fixture settings)

/-- The case that is written. -/
def caseText : String :=
  settings.template.caseText (write.fixture settings) write.method (write.arguments settings)

/-- Whether nothing that is pasted into the text changes its shape. -/
structure IsPlain : Prop where
  preamble : (settings.template.preamble (write.header settings) (write.fixture settings)).IsPlain
  method : TestFile.IsPlain write.method.toList
  arguments : ∀ argument ∈ write.arguments settings, TestFile.IsPlainArgument argument

end Write

/-- The preamble of the first write and the cases, an empty line apart. -/
def fileBody (settings : Settings) (first : Write) (writes : List Write) : String :=
  first.declaration settings ++
    "\n\n".intercalate (writes.map fun write => write.caseText settings)

/-- The text of a file that some writes made, the first of which created
it. -/
def closedForm (settings : Settings) (first : Write) (writes : List Write) : String :=
  fileBody settings first writes ++ "\n\x7d\n"

theorem fileBody_singleton (settings : Settings) (write : Write) :
    fileBody settings write [write] = write.declaration settings ++ write.caseText settings := by
  rw [fileBody, List.map_cons, List.map_nil, String.intercalate_singleton]

/-- One more case. -/
theorem fileBody_append (settings : Settings) (first write : Write) {writes : List Write}
    (h : writes ≠ []) :
    fileBody settings first (writes ++ [write]) =
      fileBody settings first writes ++ "\n\n" ++ write.caseText settings := by
  rw [fileBody, fileBody, List.map_append, List.map_cons, List.map_nil,
    String.intercalate_append_of_ne_nil (by simpa using h) (by simp),
    String.intercalate_singleton, ← String.append_assoc, ← String.append_assoc]

/-- A file that was created holds the closed form of one write. -/
theorem closedForm_singleton (settings : Settings) (write : Write) :
    closedForm settings write [write] =
      (planFor settings write.source write.signature).document := by
  rw [closedForm, fileBody_singleton]
  rfl

/-- Whether a text takes a further case right after itself. -/
structure TakesCases (body : String) : Prop where
  isFront : TestFile.IsFront (body.toList ++ ['\n'])
  last : body.toList.getLast? = some '\x7d'

namespace Write

variable {settings : Settings} {write : Write}

theorem IsPlain.returns (h : write.IsPlain settings) :
    TestFile.Returns (write.caseText settings).toList :=
  (TestFile.returns_caseText_iff settings.template h.preamble.fixture write.method
    (write.arguments settings)).2
    (TestFile.keepsBlocks_of_fits h.method fun argument hargument => (h.arguments argument hargument).fits)

theorem IsPlain.suffix (h : write.IsPlain settings) :
    '/' ∉ settings.naming.testSuffix.toList := by
  intro hslash
  have hmem : '/' ∈ (settings.naming.fixtureOf (write.header settings)).toList := by
    rw [Naming.fixtureOf, String.toList_append]
    exact List.mem_append_right _ hslash
  have hmark := h.preamble.fixture '/' hmem
  cases hmark

/-- A new file takes cases. -/
theorem IsPlain.takesCases (h : write.IsPlain settings) :
    TakesCases (fileBody settings write [write]) := by
  rw [fileBody_singleton]
  constructor
  · rw [String.toList_append]
    exact (TestFile.isFront_preamble_iff h.preamble.fits.render).2 h.returns
  · rw [String.toList_append, List.getLast?_append, caseText, TestFile.getLast?_caseText]
    rfl

/-- A text that takes cases takes this one and goes on taking cases. -/
theorem IsPlain.insertCase (h : write.IsPlain settings) {body : String} (hbody : TakesCases body) :
    TestFile.insertCase (body ++ "\n\x7d\n").toList (write.caseText settings).toList =
        .ok (body ++ "\n\n" ++ write.caseText settings ++ "\n\x7d\n").toList ∧
      TakesCases (body ++ "\n\n" ++ write.caseText settings) := by
  have hblank : Text.isBlank '\x7d' = false := by decide
  refine ⟨?_, ?_, ?_⟩
  · rw [String.toList_append, TestFile.insertCase_lineEnd hbody.isFront hbody.last hblank]
    simp only [String.toList_append]
    rfl
  · have hfront := hbody.isFront.addCase hbody.last hblank h.returns
    simp only [String.toList_append]
    exact hfront
  · rw [String.toList_append, List.getLast?_append, caseText, TestFile.getLast?_caseText]
    rfl

end Write

/-! ## The invariant -/

/-- Whether no file was at the place of a write before. -/
def Write.IsFresh (origin : Memory) (write : Write) : Prop :=
  ∀ content, origin.tree.node? write.place ≠ some (.file content)

/-- Whether a write went to a file with the name of the test file. -/
def Write.IsNamed (settings : Settings) (write : Write) : Prop :=
  settings.naming.isSource write.source = true ∧
    write.place.getLast? = some (settings.naming.testFileOf write.source)

/-- What is at a place after some writes to it. -/
def FileAt (settings : Settings) (origin : Memory) (tree : Tree) (place : Place) :
    List Write → Prop
  | [] => Tree.KeepsOrAdds origin.tree tree place
  | first :: rest =>
    tree.node? place = some (.file (closedForm settings first (first :: rest)).toUTF8) ∧
      first.outcome = .created ∧ (∀ write ∈ rest, write.outcome = .appended) ∧
      TakesCases (fileBody settings first (first :: rest))

/-- Whether a place is apart from the temporary files for some test files. -/
def Session.IsApart (origin : Memory) (targets : List String) (place : Place) : Prop :=
  ∀ path ∈ targets, ¬ IsTemporary origin.current path origin.processId place

theorem Session.IsApart.left {origin : Memory} {targets more : List String} {place : Place}
    (h : Session.IsApart origin (targets ++ more) place) : Session.IsApart origin targets place :=
  fun path hpath => h path (List.mem_append_left _ hpath)

/-- What holds after every generation of a session that started with
`origin`. -/
structure Session.Inv (settings : Settings) (origin : Memory) (session : Session) : Prop where
  store : ∃ document, session.store.preferences = .memory document ∧ RemembersDirect document
  wellFormed : session.memory.tree.WellFormed
  current : session.memory.current = origin.current
  processId : session.memory.processId = origin.processId
  names : ∀ write ∈ session.writes, write.IsPlain settings → write.IsNamed settings
  files : (∀ write ∈ session.writes, write.IsPlain settings ∧ write.IsFresh origin) →
    ∀ place, Session.IsApart origin session.targets place →
      FileAt settings origin session.memory.tree place (writesAt session.writes place)

/-- Changes elsewhere leave a file as it is. -/
theorem FileAt.keepsOrAdds {settings : Settings} {origin : Memory} {tree after : Tree}
    {place : Place} {writes : List Write} (h : FileAt settings origin tree place writes)
    (hchange : Tree.KeepsOrAdds tree after place) : FileAt settings origin after place writes := by
  cases writes with
  | nil => exact Tree.KeepsOrAdds.trans h hchange
  | cons first rest => exact ⟨hchange.eq_of_some h.1, h.2⟩

/-- A file that is created. -/
theorem FileAt.created {settings : Settings} {origin : Memory} {tree after : Tree}
    {write : Write} {writes : List Write} (h : FileAt settings origin tree write.place writes)
    (hplain : write.IsPlain settings) (houtcome : write.outcome = .created)
    (hbefore : ∀ content, tree.node? write.place ≠ some (.file content))
    (hafter : after.node? write.place =
      some (.file (planFor settings write.source write.signature).document.toUTF8)) :
    FileAt settings origin after write.place (writes ++ [write]) := by
  cases writes with
  | cons first rest => exact absurd h.1 (hbefore _)
  | nil =>
    refine ⟨?_, houtcome, ?_, hplain.takesCases⟩
    · rw [closedForm_singleton]
      exact hafter
    · intro other hother
      cases hother

/-- A file that gets one more case. -/
theorem FileAt.appended {settings : Settings} {origin : Memory} {tree after : Tree}
    {write : Write} {writes : List Write} (h : FileAt settings origin tree write.place writes)
    (hplain : write.IsPlain settings) (hfresh : write.IsFresh origin)
    (houtcome : write.outcome = .appended) {text out : String}
    (hbefore : tree.node? write.place = some (.file text.toUTF8))
    (hinsert : TestFile.insertCase text.toList (write.caseText settings).toList = .ok out.toList)
    (hafter : after.node? write.place = some (.file out.toUTF8)) :
    FileAt settings origin after write.place (writes ++ [write]) := by
  cases writes with
  | nil =>
    rcases Tree.KeepsOrAdds.eq_of_file h hbefore with horigin | ⟨-, hempty⟩
    · exact absurd horigin (hfresh _)
    · -- an empty file takes no case
      have htext : text = "" := String.toByteArray_inj.1 hempty
      rw [htext] at hinsert
      cases hinsert
  | cons first rest =>
    obtain ⟨hnode, hfirst, hrest, htakes⟩ := h
    have htext : text = closedForm settings first (first :: rest) := by
      rw [hnode, Option.some.injEq, Node.file.injEq] at hbefore
      exact (String.toByteArray_inj.1 hbefore).symm
    obtain ⟨hinserted, htakes'⟩ := hplain.insertCase htakes
    have hout : out = closedForm settings first (first :: rest ++ [write]) := by
      rw [htext, closedForm, hinserted, Except.ok.injEq, String.toList_inj] at hinsert
      rw [← hinsert, closedForm, fileBody_append settings first write (by simp)]
    refine ⟨?_, hfirst, ?_, ?_⟩
    · rw [hafter, hout]
      rfl
    · intro other hother
      rcases List.mem_append.1 hother with hother | hother
      · exact hrest other hother
      · rw [List.mem_singleton.1 hother]
        exact houtcome
    · have hbody := fileBody_append settings first write (show first :: rest ≠ [] by simp)
      rw [← hbody] at htakes'
      exact htakes'

/-! ## One generation -/

section

variable {store : TestStore} {settings : Settings} {context : Source.Context}
  {prompt : Source.FolderPrompt} {origin memory after : Memory} {writes : List Write}

/-- The write that a generation made. -/
def Wrote.write (wrote : Wrote store settings context prompt memory) : Write :=
  ⟨wrote.source, wrote.signature, Tree.lexical wrote.asked.current wrote.testFile, wrote.outcome⟩

/-- The file that is written to gets the case. -/
theorem Wrote.fileAt_self (wrote : Wrote store settings context prompt memory)
    (hwell : wrote.asked.tree.WellFormed) (hup : Path.IsDirect wrote.testFile)
    (hwrite : wrote.asked.run (store.writeCase wrote.testFile wrote.plan.document
      wrote.plan.caseName wrote.plan.caseText) = (.ok wrote.outcome, after))
    (hplain : wrote.write.IsPlain settings) (hfresh : wrote.write.IsFresh origin)
    (hat : FileAt settings origin wrote.asked.tree wrote.write.place writes) :
    FileAt settings origin after.tree wrote.write.place (writes ++ [wrote.write]) := by
  cases hout : wrote.outcome with
  | created =>
    rw [hout] at hwrite
    obtain ⟨hbefore, hleaves⟩ := TestStore.writeCase_created hwell hup hwrite
    exact hat.created hplain hout hbefore hleaves.node
  | appended =>
    rw [hout] at hwrite
    obtain ⟨text, out, hbefore, hinsert, hleaves⟩ := TestStore.writeCase_appended hup hwrite
    exact hat.appended hplain hfresh hout hbefore hinsert hleaves.node

/-- All other files stay as they are. -/
theorem Wrote.fileAt (wrote : Wrote store settings context prompt memory)
    (hwell : wrote.asked.tree.WellFormed) (hup : Path.IsDirect wrote.testFile)
    (hwrite : wrote.asked.run (store.writeCase wrote.testFile wrote.plan.document
      wrote.plan.caseName wrote.plan.caseText) = (.ok wrote.outcome, after))
    (hplain : wrote.write.IsPlain settings) (hfresh : wrote.write.IsFresh origin) {place : Place}
    (hplace : ¬ IsTemporary wrote.asked.current wrote.testFile wrote.asked.processId place)
    (hat : FileAt settings origin wrote.asked.tree place (writesAt writes place)) :
    FileAt settings origin after.tree place (writesAt (writes ++ [wrote.write]) place) := by
  by_cases hsame : place = wrote.write.place
  · rw [hsame] at hat
    rw [hsame, writesAt_append_self]
    exact wrote.fileAt_self hwell hup hwrite hplain hfresh hat
  · rw [writesAt_append_of_ne writes hsame]
    obtain ⟨text, hleaves⟩ := TestStore.writeCase_leaves hup hwrite
    refine hat.keepsOrAdds (hleaves.changes.node place ?_)
    rintro (htemporary | htarget)
    · exact hplace htemporary
    · exact hsame htarget

end

namespace Session

variable {settings : Settings} {origin : Memory} {session : Session} {call : Call}

theorem inv_start (settings : Settings) (lockDir : String) (timeoutMs : Nat) {memory : Memory}
    (hwell : memory.tree.WellFormed) : Inv settings memory (start lockDir timeoutMs memory) where
  store := ⟨{}, rfl, remembersDirect_empty⟩
  wellFormed := hwell
  current := rfl
  processId := rfl
  names := fun _ hwrite => nomatch hwrite
  files := fun _ _ _ => Or.inl rfl

theorem ask_reply (memory : Memory) (question : String) :
    (memory.ask question).1 =
      match String.fromUTF8? ⟨(Memory.firstLine memory.input).1.toArray⟩ with
      | some text => .ok text
      | none => .error .notText := by
  simp only [Memory.ask]
  cases String.fromUTF8? ⟨(Memory.firstLine memory.input).1.toArray⟩ with
  | none => rfl
  | some text => rfl

/-- The directory that a call answers with is the one that is chosen. -/
theorem choose_eq_answer (session : Session) (call : Call) (source : String) :
    ((session.memoryFor call).run (call.prompt.choose source)).1 = call.answer? := by
  rw [Call.answer?]
  cases call.prompt with
  | fixed directory => rfl
  | declined => rfl
  | interactive =>
    have hreply := ask_reply (session.memoryFor call) (Source.FolderPrompt.question source)
    rw [show (session.memoryFor call).input = call.input by rfl] at hreply
    simp only [Source.FolderPrompt.choose, Action.bind_eq, Memory.run_andThen, Memory.run_ask,
      hreply]
    cases String.fromUTF8? ⟨(Memory.firstLine call.input).1.toArray⟩ with
    | none => rfl
    | some text => rfl

/-- What a session looks like after a generation. -/
theorem step_eq_of_wrote {result : Except Failure Generated} {store : TestStore} {after : Memory}
    (h : (session.memoryFor call).run
      (generate session.store settings call.context call.prompt call.dryRun) =
        ((result, store), after)) :
    session.step settings call =
      { store, memory := after
        writes := session.writes ++
          (written? settings call (session.memoryFor call) result).toList
        targets := session.targets ++ (session.target? settings call).toList } := by
  rw [step, h]

/-- A generation that writes no case changes no file. -/
theorem Inv.unwritten (h : Inv settings origin session) {after : Memory}
    (hchanges : Memory.Changes (fun place => ∃ path, session.target? settings call = some path ∧
        IsTemporary session.memory.current path session.memory.processId place)
      (session.memoryFor call) after) :
    Inv settings origin { session with
      memory := after
      targets := session.targets ++ (session.target? settings call).toList } := by
  refine ⟨h.store, hchanges.wellFormed h.wellFormed, hchanges.current.trans h.current,
    hchanges.processId.trans h.processId, h.names, ?_⟩
  intro hall place hplace
  refine (h.files hall place hplace.left).keepsOrAdds (hchanges.node place ?_)
  rintro ⟨path, htarget, htemporary⟩
  rw [h.current, h.processId] at htemporary
  exact hplace path (by simp [htarget]) htemporary

/-- A generation that writes a case writes it to a file whose path does not go
up, and remembers such a directory at most. -/
theorem Inv.isDirect_wrote (h : Inv settings origin session)
    (hcurrent : ∀ name ∈ origin.current, Path.IsName name) (hcall : call.IsDirect)
    (wrote : Wrote session.store settings call.context call.prompt (session.memoryFor call)) :
    Path.IsDirect wrote.resolved.directory ∧
      ∀ output, wrote.resolved.pending = some output → Path.IsDirect output.directory := by
  obtain ⟨document, hstore, hdirect⟩ := h.store
  have hdocument : session.store.preferences.document = document := by
    rw [hstore]
    rfl
  rw [← hdocument] at hdirect
  have hhere : ∀ name ∈ (session.memoryFor call).current, Path.IsName name := by
    show ∀ name ∈ session.memory.current, _
    rw [h.current]
    exact hcurrent
  have hanswer : ∀ directory asked, Action.Runs CarriesOut (session.memoryFor call)
      (call.prompt.choose wrote.absolute) (some directory) asked → Path.IsDirect directory := by
    intro directory asked hchoose
    apply hcall.answer directory
    rw [← choose_eq_answer session call wrote.absolute, runs_carriesOut.1 hchoose]
  have hlocates : Locates CarriesOut := locates_of_refines Memory.carriesOut_refines
  have hsource := hcall.source wrote.source (isSource_of_subject wrote.subject).1
  have habsolute := isDirect_absoluteSource hlocates
    (runs_carriesOut.2 (Prod.ext wrote.located rfl)) hsource hhere
  exact isDirect_resolve hlocates (runs_carriesOut.2 wrote.chosen) hdirect habsolute hhere hanswer

/-- A generation that writes a case adds it to its file. -/
theorem Inv.wrote (h : Inv settings origin session)
    (hcurrent : ∀ name ∈ origin.current, Path.IsName name) (hcall : call.IsDirect)
    (wrote : Wrote session.store settings call.context call.prompt (session.memoryFor call))
    {document : Preferences.Document} {after : Memory}
    (hstore : session.store.preferences = .memory document)
    (hwrite : wrote.asked.run (session.store.writeCase wrote.testFile wrote.plan.document
      wrote.plan.caseName wrote.plan.caseText) = (.ok wrote.outcome, after)) :
    Inv settings origin
      { store := { session.store with
          preferences := .memory (remembered document wrote.resolved.pending) }
        memory := after
        writes := session.writes ++ [wrote.write]
        targets := session.targets ++ [wrote.testFile] } := by
  obtain ⟨hresolved, hpending⟩ := h.isDirect_wrote hcurrent hcall wrote
  obtain ⟨document', hstore', hdirect⟩ := h.store
  obtain rfl : document = document' := by
    rw [hstore, Preferences.Store.memory.injEq] at hstore'
    exact hstore'
  have hasked := changes_resolve session.store wrote.absolute call.prompt (session.memoryFor call)
  rw [wrote.chosen] at hasked
  have hwell : wrote.asked.tree.WellFormed := hasked.wellFormed h.wellFormed
  have hafter := Memory.changes_run (session.store.writeCase wrote.testFile
    wrote.plan.document wrote.plan.caseName wrote.plan.caseText) wrote.asked
  rw [hwrite] at hafter
  have hprocess : wrote.asked.processId = origin.processId :=
    hasked.processId.trans h.processId
  refine ⟨⟨_, rfl, hdirect.remembered hpending⟩, hafter.wellFormed hwell,
    (hafter.current.trans hasked.current).trans h.current,
    hafter.processId.trans hprocess, ?_, ?_⟩
  · intro other hother hplain
    rcases List.mem_append.1 hother with hother | hother
    · exact h.names other hother hplain
    · rw [List.mem_singleton.1 hother] at hplain ⊢
      exact ⟨(isSource_of_subject wrote.subject).2,
        (wrote.testFile_spec hwrite hresolved hplain.suffix).2⟩
  · intro hall place hplace
    obtain ⟨hplain, hfresh⟩ := hall wrote.write (by simp)
    have hup := (wrote.testFile_spec hwrite hresolved hplain.suffix).1
    have hfiles := h.files (fun other hother => hall other (by simp [hother])) place hplace.left
    refine wrote.fileAt hwell hup hwrite hplain hfresh ?_ ?_
    · rw [hprocess, hasked.current, show (session.memoryFor call).current = _ from h.current]
      exact hplace wrote.testFile (by simp)
    · exact hfiles.keepsOrAdds (hasked.node place id)

/-- Every generation keeps the invariant. -/
theorem Inv.step (h : Inv settings origin session) (hcurrent : ∀ name ∈ origin.current,
    Path.IsName name) (hcall : call.IsDirect) :
    Inv settings origin (session.step settings call) := by
  obtain ⟨document, hstore, -⟩ := h.store
  cases hrun : (session.memoryFor call).run
      (generate session.store settings call.context call.prompt call.dryRun) with
  | mk outcome after =>
    obtain ⟨result, store⟩ := outcome
    rw [step_eq_of_wrote hrun]
    rcases generate_ends hstore call.dryRun hrun with
      ⟨hnone, rfl, hchanges⟩ | ⟨wrote, generated, hwrite, rfl, hfile, houtcome, rfl, htarget⟩
    · have hwritten : written? settings call (session.memoryFor call) result = none := by
        cases result with
        | error failure => rfl
        | ok generated =>
          rw [written?, hnone generated rfl]
          split <;> first | rfl | contradiction
      rw [hwritten, Option.toList_none, List.append_nil]
      exact h.unwritten hchanges
    · have hasked := changes_resolve session.store wrote.absolute call.prompt
        (session.memoryFor call)
      rw [wrote.chosen] at hasked
      have hwritten : written? settings call (session.memoryFor call) (.ok generated) =
          some wrote.write := by
        rw [written?, wrote.subject, houtcome, Wrote.write, hasked.current, ← hfile]
      rw [hwritten, target?, htarget]
      exact h.wrote hcurrent hcall wrote hstore hwrite

theorem Inv.run (h : Inv settings origin session) (hcurrent : ∀ name ∈ origin.current,
    Path.IsName name) {calls : List Call} (hcalls : ∀ call ∈ calls, call.IsDirect) :
    Inv settings origin (session.run settings calls) := by
  induction calls generalizing session with
  | nil => exact h
  | cons call calls ih =>
    have hstep := h.step hcurrent (hcalls call (by simp))
    exact ih hstep fun other hother => hcalls other (by simp [hother])

/-- What stands at a place after a session is what its writes make of it. -/
theorem fileAt_run {settings : Settings} {lockDir : String} {timeoutMs : Nat} {memory : Memory}
    (hwell : memory.tree.WellFormed) (hcurrent : ∀ name ∈ memory.current, Path.IsName name)
    {calls : List Call} (hcalls : ∀ call ∈ calls, call.IsDirect)
    (hplain : ∀ write ∈ ((start lockDir timeoutMs memory).run settings calls).writes,
      write.IsPlain settings)
    (hfresh : ∀ write ∈ ((start lockDir timeoutMs memory).run settings calls).writes,
      write.IsFresh memory)
    {place : Place}
    (hplace : IsApart memory ((start lockDir timeoutMs memory).run settings calls).targets place) :
    FileAt settings memory ((start lockDir timeoutMs memory).run settings calls).memory.tree place
      (writesAt ((start lockDir timeoutMs memory).run settings calls).writes place) :=
  ((inv_start settings lockDir timeoutMs hwell).run hcurrent hcalls).files
    (fun write hwrite => ⟨hplain write hwrite, hfresh write hwrite⟩) place hplace

/-- A place that nothing was written to keeps its file, and gets no more than
a directory or an empty lock file. -/
theorem keepsOrAdds_run {settings : Settings} {lockDir : String} {timeoutMs : Nat}
    {memory : Memory} (hwell : memory.tree.WellFormed)
    (hcurrent : ∀ name ∈ memory.current, Path.IsName name) {calls : List Call}
    (hcalls : ∀ call ∈ calls, call.IsDirect)
    (hplain : ∀ write ∈ ((start lockDir timeoutMs memory).run settings calls).writes,
      write.IsPlain settings)
    (hfresh : ∀ write ∈ ((start lockDir timeoutMs memory).run settings calls).writes,
      write.IsFresh memory)
    {place : Place}
    (hplace : IsApart memory ((start lockDir timeoutMs memory).run settings calls).targets place)
    (hwrites : writesAt ((start lockDir timeoutMs memory).run settings calls).writes place = []) :
    Tree.KeepsOrAdds memory.tree ((start lockDir timeoutMs memory).run settings calls).memory.tree
      place := by
  have hfile := fileAt_run hwell hcurrent hcalls hplain hfresh hplace
  rw [hwrites] at hfile
  exact hfile

/-- Every test file is what its writes make of it: the first one created it,
the others added a case each, and nothing else changed it.  It must not be at
the place of the temporary file for a test file of the session, which is
possible only if the source files have the extension of temporary files. -/
theorem node?_run {settings : Settings} {lockDir : String} {timeoutMs : Nat} {memory : Memory}
    (hwell : memory.tree.WellFormed) (hcurrent : ∀ name ∈ memory.current, Path.IsName name)
    {calls : List Call} (hcalls : ∀ call ∈ calls, call.IsDirect)
    (hplain : ∀ write ∈ ((start lockDir timeoutMs memory).run settings calls).writes,
      write.IsPlain settings)
    (hfresh : ∀ write ∈ ((start lockDir timeoutMs memory).run settings calls).writes,
      write.IsFresh memory)
    {place : Place} {first : Write} {rest : List Write}
    (hwrites : writesAt ((start lockDir timeoutMs memory).run settings calls).writes place =
      first :: rest)
    (hplace : settings.naming.sourceExtension = "tmp" →
      IsApart memory ((start lockDir timeoutMs memory).run settings calls).targets place) :
    ((start lockDir timeoutMs memory).run settings calls).memory.tree.node? place =
        some (.file (closedForm settings first (first :: rest)).toUTF8) ∧
      first.outcome = .created ∧ ∀ write ∈ rest, write.outcome = .appended := by
  have hinv := (inv_start settings lockDir timeoutMs hwell).run hcurrent hcalls
  have hfirst : first ∈ writesAt ((start lockDir timeoutMs memory).run settings calls).writes
      place := by
    rw [hwrites]
    exact List.mem_cons_self
  obtain ⟨hmem, hsame⟩ := List.mem_filter.1 hfirst
  have hapart : IsApart memory ((start lockDir timeoutMs memory).run settings calls).targets
      place := by
    by_cases hext : settings.naming.sourceExtension = "tmp"
    · exact hplace hext
    · intro path hpath
      obtain ⟨hsource, hlast⟩ := hinv.names first hmem (hplain first hmem)
      rw [beq_iff_eq.1 hsame] at hlast
      exact not_isTemporary_of_isSource hsource hlast hext memory.current path memory.processId
  have hfile := fileAt_run hwell hcurrent hcalls hplain hfresh hapart
  rw [hwrites] at hfile
  obtain ⟨hnode, hcreated, happended, -⟩ := hfile
  exact ⟨hnode, hcreated, happended⟩

/-- A line that is rejected, a dry run and a case. -/
def sampleCalls : List Call := [
  { context := ⟨some "Job.cpp", .text "no signature"⟩ },
  { context := ⟨some "/./Job.cpp", .text "void Dry();"⟩, dryRun := true },
  { context := ⟨some "Job.cpp", .text "void Run(int a, Foo& b);"⟩ }]

/-- The only write of the sample. -/
def sampleWrite : Write :=
  ⟨"Job.cpp", ⟨"Run", "int a, Foo& b"⟩, ["JobTest.cpp"], .created⟩

theorem writes_sampleCalls :
    ((start "/locks" 0 {}).run {} sampleCalls).writes = [sampleWrite] := by decide +kernel

theorem isPlain_sampleWrite : sampleWrite.IsPlain {} where
  preamble := ⟨by decide, by decide, by decide, by decide, by decide, by decide⟩
  method := by decide
  arguments := by
    have hbind : sampleWrite.arguments {} = [⟨"int", "a", some "0"⟩, ⟨"Foo&", "b", none⟩] := by
      decide +kernel
    rw [hbind]
    intro argument hargument
    simp only [List.mem_cons, List.not_mem_nil, or_false] at hargument
    rcases hargument with rfl | rfl
    · refine ⟨by decide, by decide, ?_⟩
      rintro value ⟨⟩
      decide
    · refine ⟨by decide, by decide, ?_⟩
      rintro value ⟨⟩

/-- The sample in an empty tree. -/
theorem node?_run_sampleCalls :
    ((start "/locks" 0 {}).run {} sampleCalls).writes = [sampleWrite] ∧
      ((start "/locks" 0 {}).run {} sampleCalls).memory.tree.node? ["JobTest.cpp"] =
        some (.file (closedForm {} sampleWrite [sampleWrite]).toUTF8) ∧
      sampleWrite.outcome = .created ∧
      ∀ write ∈ ([] : List Write), write.outcome = .appended := by
  refine ⟨writes_sampleCalls, ?_⟩
  refine node?_run Tree.wellFormed_empty ?_ ?_ ?_ ?_ ?_ ?_
  · intro name hname
    cases hname
  · intro call hcall
    simp only [sampleCalls, List.mem_cons, List.not_mem_nil, or_false] at hcall
    rcases hcall with rfl | rfl | rfl
    all_goals
      refine Call.isDirect_of_declined rfl ?_
      rintro source ⟨⟩
      exact show ".." ∉ _ by decide
  · rw [writes_sampleCalls]
    intro write hwrite
    rw [List.mem_singleton.1 hwrite]
    exact isPlain_sampleWrite
  · rw [writes_sampleCalls]
    intro write hwrite
    rw [List.mem_singleton.1 hwrite]
    intro content hnode
    cases hnode
  · rw [writes_sampleCalls]
    rfl
  · intro hext
    exact absurd hext (by decide)

/-! ## Test files with the name of another file -/

/-- A source file whose test file has the name of a temporary file, and the
source file whose test file is written through it. -/
def shadowedCalls : List Call := [
  { context := ⟨some "/.a.1.tmp.tmp", .text "void Run();"⟩ },
  { context := ⟨some "/a.tmp", .text "void Stop();"⟩ }]

/-- The writes of these calls. -/
def shadowedWrites : List Write := [
  ⟨"/.a.1.tmp.tmp", ⟨"Run", ""⟩, [".a.1.tmp.1.tmp"], .created⟩,
  ⟨"/a.tmp", ⟨"Stop", ""⟩, ["a.1.tmp"], .created⟩]

/-- Settings under which test files may have such names. -/
def shadowedSettings : Settings where
  naming := { sourceExtension := "tmp", testSuffix := ".1" }

/-- A source file whose test file has a lock, and the source file whose test
file has the name of that lock. -/
def lockedCalls : List Call := [
  { context := ⟨some "/Job1.lock", .text "void Run();"⟩ },
  { context := ⟨some "/locks/b061318f8e5b160.lock", .text "void Stop();"⟩ }]

/-- Settings under which test files may have such names. -/
def lockedSettings : Settings where
  naming := { sourceExtension := "lock", testSuffix := "b" }

theorem isDirect_of_mem_calls {call : Call} (h : call ∈ shadowedCalls ++ lockedCalls) :
    call.IsDirect := by
  simp only [shadowedCalls, lockedCalls, List.cons_append, List.nil_append, List.mem_cons,
    List.not_mem_nil, or_false] at h
  rcases h with rfl | rfl | rfl | rfl
  all_goals
    refine Call.isDirect_of_declined rfl ?_
    rintro source ⟨⟩
    exact show ".." ∉ _ by decide

/-- The writes have plain names and no arguments. -/
theorem isPlain_of_mem_shadowedWrites {write : Write} (h : write ∈ shadowedWrites) :
    write.IsPlain shadowedSettings := by
  simp only [shadowedWrites, List.mem_cons, List.not_mem_nil, or_false] at h
  have harguments : write.arguments shadowedSettings = [] := by
    rcases h with rfl | rfl <;> decide +kernel
  refine ⟨?_, ?_, ?_⟩
  · rcases h with rfl | rfl
    · exact ⟨by decide, by decide, by decide, by decide, by decide, by decide⟩
    · exact ⟨by decide, by decide, by decide, by decide, by decide, by decide⟩
  · rcases h with rfl | rfl <;> decide
  · rw [harguments]
    exact List.forall_mem_nil _

/-- Whether a test file took no case. -/
def isRefused (path : String) : Except Failure Generated → Bool
  | .error (.malformedTestFile other _) => other == path
  | _ => false

/-- What becomes of the last of some calls. -/
def lastResult? (settings : Settings) (calls : List Call) : Option (Except Failure Generated) :=
  calls.getLast?.map fun call =>
    let session := (start "/locks" 0 {}).run settings calls.dropLast
    ((session.memoryFor call).run
      (generate session.store settings call.context call.prompt call.dryRun)).1.1

/-- A test file with the name of a temporary file is gone when that name was
used for one.  A test file with the name of a lock file is never made: the lock
file stands there, is empty and takes no case. -/
theorem not_closedForm :
    (∀ call ∈ shadowedCalls ++ lockedCalls, call.IsDirect) ∧
    (shadowedSettings.fault? = none ∧
      (∀ write ∈ shadowedWrites, write.IsPlain shadowedSettings) ∧
      ((start "/locks" 0 {}).run shadowedSettings shadowedCalls).writes = shadowedWrites ∧
      ((start "/locks" 0 {}).run shadowedSettings shadowedCalls).memory.tree.node?
        [".a.1.tmp.1.tmp"] = none) ∧
    lockedSettings.fault? = none ∧
      (lastResult? lockedSettings lockedCalls).map (isRefused "/locks/b061318f8e5b160b.lock") =
        some true ∧
      (((start "/locks" 0 {}).run lockedSettings lockedCalls).memory.tree.read []
        "/locks/b061318f8e5b160b.lock").toOption = some .empty := by
  exact ⟨fun _ => isDirect_of_mem_calls,
    ⟨by decide, fun _ => isPlain_of_mem_shadowedWrites, by decide +kernel⟩, by decide +kernel⟩

end Session

end TestSkeleton.Generation
