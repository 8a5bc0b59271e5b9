import TestSkeleton.Settings.FromToml
import TestSkeleton.Proofs.Preferences.RoundTrip
import TestSkeleton.Proofs.Toml.DistinctNames
import Mathlib.Data.List.Perm.Basic
import Mathlib.Data.List.Nodup
import Mathlib.Data.List.Induction

/-!
# The settings that a document states

A document and the settings that it states are related field by field: a
field has the value that is given, and its default if none is.

* `Overrides` is this for one field, and `States` for all of them.
* `valueD_eq_some_iff` reads one field and `valueD_group_iff` one group.
* `textTable?_eq_some_iff` is about the table of initializers, which is taken
  as a whole.
* `ofToml?_eq_some_iff` puts them together: a document is read as settings
  just if it states them and its numbers can be represented.
-/

namespace TestSkeleton.Settings

open Toml (Table entriesFit)

/-! ## What a document states -/

/-- Whether a setting has the value that is given, as `write` puts it, and its
default if none is. -/
def Overrides {α : Type} (write : α → Toml) (default : α) : Option Toml → α → Prop
  | some given, value => given = write value
  | none, value => value = default

/-- The table of a name, if there is one. -/
def tableOf? (document : Table) (name : String) : Option Table :=
  match document.lookup name with
  | some (.table _ entries) => some entries
  | _ => none

/-- The value of a name in a table, if both are there. -/
def given? (table : Option Table) (name : String) : Option Toml :=
  table.bind fun entries => entries.lookup name

/-- Some texts as an array. -/
def textArray (texts : List String) : Toml :=
  .array (texts.map .string)

/-- A name with a text as an entry. -/
def textEntry (pair : String × String) : String × Toml :=
  (pair.1, .string pair.2)

/-- What a table says about the names. -/
structure StatesNaming (table : Option Table) (naming : Naming) : Prop where
  sourceExtension :
    Overrides .string "cpp" (given? table "source_extension") naming.sourceExtension
  headerExtension :
    Overrides .string "h" (given? table "header_extension") naming.headerExtension
  testSuffix : Overrides .string "Test" (given? table "test_suffix") naming.testSuffix

/-- What a table says about the template. -/
structure StatesTemplate (table : Option Table) (template : Template) : Prop where
  includes : Overrides textArray ["pch.h", "iostream", "gtest/gtest.h", "gmock/gmock.h"]
    (given? table "includes") template.includes
  namespaceName : Overrides .string "unittest" (given? table "namespace") template.namespaceName
  baseClass :
    Overrides .string "public testing::Test" (given? table "base_class") template.baseClass
  typeList : Overrides .string "bool" (given? table "type_list") template.typeList
  strict : Overrides .bool false (given? table "strict_syntax") template.strict

/-- What a table says about asking. -/
def StatesInteractive (table : Option Table) (interactive : Bool) : Prop :=
  Overrides .bool true (given? table "interactive") interactive

/-- The initializers are those of the table, in the order of their names, or
all of the usual ones. -/
def StatesInitializers : Option Table → Entries String → Prop
  | some entries, initializers =>
    entries.Perm (initializers.toList.map textEntry) ∧ initializers.keys.Pairwise (· ≤ ·)
  | none, initializers => initializers = Argument.defaultInitializers

/-- What a document says about the settings. -/
structure States (document : Table) (settings : Settings) : Prop where
  naming : StatesNaming (tableOf? document "naming") settings.naming
  template : StatesTemplate (tableOf? document "template") settings.template
  initializers : StatesInitializers (tableOf? document "initializers") settings.initializers
  interactive : StatesInteractive (tableOf? document "prompt") settings.interactive

/-- Whether the groups of a document are tables. -/
def HasGroups (document : Table) : Prop :=
  ∀ name ∈ ["naming", "template", "initializers", "prompt"], ∀ given,
    document.lookup name = some given → ∃ origin entries, given = .table origin entries

/-! ## Numbers that can be represented -/

theorem entriesFit_iff {entries : Table} :
    entriesFit entries = true ↔ ∀ entry ∈ entries, entry.2.fits = true := by
  induction entries with
  | nil => simp [entriesFit]
  | cons entry entries ih =>
    obtain ⟨name, value⟩ := entry
    rw [entriesFit, Bool.and_eq_true, ih, List.forall_mem_cons]

theorem fits_textArray (texts : List String) : (textArray texts).fits = true := by
  rw [textArray, Toml.fits]
  induction texts with
  | nil => rfl
  | cons text texts ih =>
    rw [List.map_cons, Toml.allFit, ih]
    rfl

/-- The entries under unknown names are left to fit if the others do. -/
theorem entriesFit_iff_othersFit {names : List String} {entries : Table} (h : entries.IsDistinct)
    (hknown : ∀ name ∈ names, ∀ given, entries.lookup name = some given → given.fits = true) :
    entriesFit entries = true ↔ othersFit names entries = true := by
  rw [entriesFit_iff, othersFit, List.all_eq_true]
  refine forall_congr' fun entry => forall_congr' fun hentry => ?_
  obtain ⟨name, value⟩ := entry
  rw [Bool.or_eq_true, List.contains_iff_mem]
  refine ⟨Or.inr, fun hfits => hfits.elim (fun hname => ?_) id⟩
  exact hknown name hname value ((lookup_eq_some_iff_mem h.names).2 hentry)

theorem members?_eq_some_iff {names : List String} {entries : Table}
    {find : String → Option Toml} :
    members? names entries = some find ↔
      othersFit names entries = true ∧ find = fun name => entries.lookup name := by
  rw [members?]
  split <;> simp [*, eq_comm]

/-! ## One field -/

theorem text?_eq_some_iff {given : Toml} {text : String} :
    text? given = some text ↔ given = .string text := by
  cases given <;> simp [text?]

theorem flag?_eq_some_iff {given : Toml} {value : Bool} :
    flag? given = some value ↔ given = .bool value := by
  cases given <;> simp [flag?]

/-- A list is read item by item. -/
theorem mapM_eq_some_iff {α β : Type} {read? : α → Option β} {write : β → α}
    (h : ∀ item value, read? item = some value ↔ item = write value) {items : List α}
    {values : List β} : items.mapM read? = some values ↔ items = values.map write := by
  induction items generalizing values with
  | nil => cases values <;> simp
  | cons item items ih =>
    cases values with
    | nil => simp [List.mapM_cons, Option.bind_eq_some_iff]
    | cons value values =>
      simp [List.mapM_cons, Option.bind_eq_some_iff, h, ih]

theorem texts?_eq_some_iff {given : Toml} (h : given.Distinct) {texts : List String} :
    texts? given = some texts ↔ given = textArray texts := by
  cases h with
  | array _ => rw [texts?, mapM_eq_some_iff fun _ _ => text?_eq_some_iff, textArray, Toml.array.injEq]
  | tables hsome _ _ => simp [texts?, textArray, hsome]
  | _ => simp [texts?, textArray]

theorem valueD_eq_some_iff {α : Type} {find : String → Option Toml} {name : String} {default : α}
    {read? : Toml → Option α} {write : α → Toml} {value : α}
    (h : ∀ given, find name = some given → (read? given = some value ↔ given = write value)) :
    valueD find name default read? = some value ↔ Overrides write default (find name) value := by
  rw [valueD]
  cases hfind : find name with
  | none =>
    rw [Overrides, Option.some.injEq]
    exact eq_comm
  | some given => exact h given hfind

/-- What is given fits if it is something that can be written. -/
theorem Overrides.fits {α : Type} {write : α → Toml} {default value : α} {given? : Option Toml}
    (h : Overrides write default given? value) (hwrite : (write value).fits = true) :
    ∀ given, given? = some given → given.fits = true := by
  rintro given rfl
  rw [Overrides] at h
  rw [h]
  exact hwrite

/-! ## The initializers -/

/-- Whether pairs are in the order of their names. -/
def AreInOrder (pairs : List (String × String)) : Prop :=
  pairs.Pairwise fun p q => p.1 ≤ q.1

theorem not_decide_lt_iff {name other : String} : (!decide (other < name)) = true ↔ name ≤ other := by
  rw [Bool.not_eq_true', decide_eq_false_iff_not, String.not_lt]

theorem areInOrder_sortPairs (pairs : List (String × String)) : AreInOrder (sortPairs pairs) := by
  have htrans (p q r : String × String) (hpq : (!decide (q.1 < p.1)) = true)
      (hqr : (!decide (r.1 < q.1)) = true) : (!decide (r.1 < p.1)) = true :=
    not_decide_lt_iff.2 (String.le_trans (not_decide_lt_iff.1 hpq) (not_decide_lt_iff.1 hqr))
  have htotal (p q : String × String) : (!decide (q.1 < p.1) || !decide (p.1 < q.1)) = true := by
    rw [Bool.or_eq_true, not_decide_lt_iff, not_decide_lt_iff]
    exact String.le_total p.1 q.1
  exact (List.pairwise_mergeSort htrans htotal pairs).imp not_decide_lt_iff.1

theorem sortPairs_perm (pairs : List (String × String)) : (sortPairs pairs).Perm pairs :=
  List.mergeSort_perm pairs _

/-- Pairs of different names have one order. -/
theorem AreInOrder.eq_of_perm {pairs others : List (String × String)} (h : AreInOrder pairs)
    (hothers : AreInOrder others) (hnames : (pairs.map Prod.fst).Nodup)
    (hperm : pairs.Perm others) : pairs = others := by
  refine hperm.eq_of_pairwise (fun p q hp hq hpq hqp => ?_) h hothers
  have hname : p.1 = q.1 := String.le_antisymm hpq hqp
  exact List.inj_on_of_nodup_map hnames hp (hperm.mem_iff.2 hq) hname

/-- Pairs of different names are kept as they are. -/
theorem toList_ofList {pairs : List (String × String)} (h : (pairs.map Prod.fst).Nodup) :
    (Entries.ofList pairs).toList = pairs := by
  induction pairs using List.reverseRecOn with
  | nil => rfl
  | append_singleton pairs pair ih =>
    rw [List.map_append, List.nodup_append] at h
    have hnew : pair.1 ∉ pairs.map Prod.fst := fun hmem => h.2.2 pair.1 hmem pair.1 (by simp) rfl
    have hset : Entries.ofList (pairs ++ [pair]) = (Entries.ofList pairs).set pair.1 pair.2 := by
      rw [Entries.ofList, List.foldl_append]
      rfl
    rw [hset, Entries.toList_set, ih h.1, setPair_of_not_mem pair.2 hnew]

theorem textEntry_injective : Function.Injective textEntry := by
  intro pair other h
  obtain ⟨hname, htext⟩ := Prod.mk.inj h
  exact Prod.ext hname (Toml.string.inj htext)

/-- Entries that are texts are pairs. -/
theorem exists_map_textEntry_iff {entries : Table} :
    (∃ pairs : List (String × String), entries = pairs.map textEntry) ↔
      ∀ entry ∈ entries, ∃ text, entry.2 = .string text := by
  constructor
  · rintro ⟨pairs, rfl⟩ entry hentry
    obtain ⟨pair, -, rfl⟩ := List.mem_map.1 hentry
    exact ⟨pair.2, rfl⟩
  · intro h
    induction entries with
    | nil => exact ⟨[], rfl⟩
    | cons entry entries ih =>
      obtain ⟨text, htext⟩ := h entry List.mem_cons_self
      obtain ⟨pairs, rfl⟩ := ih fun other hother => h other (List.mem_cons_of_mem _ hother)
      exact ⟨(entry.1, text) :: pairs, by rw [List.map_cons, textEntry, ← htext]⟩

theorem textTable?_eq_some_iff_exists {origin : Toml.Origin} {entries : Table}
    {initializers : Entries String} :
    textTable? (.table origin entries) = some initializers ↔
      ∃ pairs : List (String × String),
        entries = pairs.map textEntry ∧ Entries.ofList (sortPairs pairs) = initializers := by
  have hentry (entry : String × Toml) (pair : String × String) :
      ((text? entry.2).map fun text => (entry.1, text)) = some pair ↔ entry = textEntry pair := by
    obtain ⟨name, value⟩ := entry
    obtain ⟨other, text⟩ := pair
    simp [textEntry, Option.map_eq_some_iff, text?_eq_some_iff, and_comm]
  rw [textTable?, Option.bind_eq_bind, Option.bind_eq_some_iff]
  simp only [mapM_eq_some_iff hentry, Option.some.injEq]

/-- The initializers are the whole table in the order of its names. -/
theorem textTable?_eq_some_iff {origin : Toml.Origin} {entries : Table} (h : entries.IsDistinct)
    {initializers : Entries String} :
    textTable? (.table origin entries) = some initializers ↔
      StatesInitializers (some entries) initializers := by
  have hkept {pairs : List (String × String)} (hpairs : entries = pairs.map textEntry) :
      (Entries.ofList (sortPairs pairs)).toList = sortPairs pairs := by
    have hnames : (pairs.map Prod.fst).Nodup := by
      have hnames := h.names
      rw [hpairs, List.map_map] at hnames
      exact hnames
    exact toList_ofList (((sortPairs_perm pairs).map Prod.fst).nodup_iff.2 hnames)
  rw [textTable?_eq_some_iff_exists, StatesInitializers, Entries.keys, List.pairwise_map]
  constructor
  · rintro ⟨pairs, hpairs, rfl⟩
    rw [hkept hpairs]
    refine ⟨?_, areInOrder_sortPairs pairs⟩
    rw [hpairs]
    exact ((sortPairs_perm pairs).map textEntry).symm
  · rintro ⟨hperm, horder⟩
    have htexts : ∀ entry ∈ entries, ∃ text, entry.2 = .string text := by
      intro entry hentry
      obtain ⟨pair, -, rfl⟩ := List.mem_map.1 (hperm.mem_iff.1 hentry)
      exact ⟨pair.2, rfl⟩
    obtain ⟨pairs, hpairs⟩ := exists_map_textEntry_iff.2 htexts
    have hsame : initializers.toList.Perm (sortPairs pairs) := by
      rw [hpairs, List.map_perm_map_iff textEntry_injective] at hperm
      exact hperm.symm.trans (sortPairs_perm pairs).symm
    have heq := AreInOrder.eq_of_perm horder (areInOrder_sortPairs pairs) initializers.nodup hsame
    exact ⟨pairs, hpairs, Entries.eq_of_toList ((hkept hpairs).trans heq.symm)⟩

/-! ## One group -/

theorem group?_table (names : List String) (origin : Toml.Origin) (entries : Table) :
    group? names (.table origin entries) = members? names entries :=
  rfl

/-- Whether the value of a name, if there is one, has only numbers that can be
represented. -/
def FitsAt (document : Table) (name : String) : Prop :=
  ∀ given, document.lookup name = some given → given.fits = true

/-- A group is read as what its table says, or has its default. -/
theorem valueD_group_iff {α : Type} {document : Table} {name : String} {default value : α}
    {read? : Toml → Option α} {Says : Option Table → α → Prop} (hdocument : document.IsDistinct)
    (hgroup : ∀ given, document.lookup name = some given →
      ∃ origin entries, given = .table origin entries)
    (hread : ∀ origin entries, Table.IsDistinct entries →
      (read? (.table origin entries) = some value ↔
        entriesFit entries = true ∧ Says (some entries) value))
    (hdefault : Says none value ↔ value = default) :
    valueD (fun name => document.lookup name) name default read? = some value ↔
      FitsAt document name ∧ Says (tableOf? document name) value := by
  rw [valueD, FitsAt, tableOf?]
  cases hlookup : document.lookup name with
  | none =>
    constructor
    · intro h
      exact ⟨fun _ hnone => (nomatch hnone), hdefault.2 (Option.some.inj h).symm⟩
    · intro h
      exact congrArg some (hdefault.1 h.2).symm
  | some given =>
    obtain ⟨origin, entries, rfl⟩ := hgroup given hlookup
    have hentries := Toml.distinct_table_iff.1 (hdocument.lookup hlookup)
    simpa [Toml.fits] using hread origin entries hentries

theorem valueD_text?_iff {entries : Table} {name default text : String} :
    valueD (fun name => entries.lookup name) name default text? = some text ↔
      Overrides .string default (given? (some entries) name) text :=
  valueD_eq_some_iff fun _ _ => text?_eq_some_iff

theorem valueD_texts?_iff {entries : Table} (h : entries.IsDistinct) {name : String}
    {default texts : List String} :
    valueD (fun name => entries.lookup name) name default texts? = some texts ↔
      Overrides textArray default (given? (some entries) name) texts :=
  valueD_eq_some_iff fun _ hgiven => texts?_eq_some_iff (h.lookup hgiven)

theorem valueD_flag?_iff {entries : Table} {name : String} {default value : Bool} :
    valueD (fun name => entries.lookup name) name default flag? = some value ↔
      Overrides .bool default (given? (some entries) name) value :=
  valueD_eq_some_iff fun _ _ => flag?_eq_some_iff

theorem naming?_eq_some_iff {origin : Toml.Origin} {entries : Table} (h : entries.IsDistinct)
    {naming : Naming} :
    naming? (.table origin entries) = some naming ↔
      entriesFit entries = true ∧ StatesNaming (some entries) naming := by
  have hfits (hstates : StatesNaming (some entries) naming) :
      ∀ name ∈ ["source_extension", "header_extension", "test_suffix"], ∀ given,
        entries.lookup name = some given → given.fits = true := by
    intro name hname
    simp only [List.mem_cons, List.not_mem_nil, or_false] at hname
    rcases hname with rfl | rfl | rfl
    · exact hstates.sourceExtension.fits rfl
    · exact hstates.headerExtension.fits rfl
    · exact hstates.testSuffix.fits rfl
  simp only [naming?, group?_table, Option.bind_eq_bind, Option.bind_eq_some_iff,
    members?_eq_some_iff, and_assoc, exists_and_left, exists_eq_left, valueD_text?_iff,
    Option.some.injEq]
  constructor
  · rintro ⟨hothers, source, hsource, header, hheader, suffix, hsuffix, rfl⟩
    have hstates : StatesNaming (some entries) ⟨source, header, suffix⟩ :=
      ⟨hsource, hheader, hsuffix⟩
    exact ⟨(entriesFit_iff_othersFit h (hfits hstates)).2 hothers, hstates⟩
  · rintro ⟨hentries, hstates⟩
    exact ⟨(entriesFit_iff_othersFit h (hfits hstates)).1 hentries, _, hstates.sourceExtension, _,
      hstates.headerExtension, _, hstates.testSuffix, rfl⟩

theorem template?_eq_some_iff {origin : Toml.Origin} {entries : Table} (h : entries.IsDistinct)
    {template : Template} :
    template? (.table origin entries) = some template ↔
      entriesFit entries = true ∧ StatesTemplate (some entries) template := by
  have hfits (hstates : StatesTemplate (some entries) template) :
      ∀ name ∈ ["includes", "namespace", "base_class", "type_list", "strict_syntax"], ∀ given,
        entries.lookup name = some given → given.fits = true := by
    intro name hname
    simp only [List.mem_cons, List.not_mem_nil, or_false] at hname
    rcases hname with rfl | rfl | rfl | rfl | rfl
    · exact hstates.includes.fits (fits_textArray _)
    · exact hstates.namespaceName.fits rfl
    · exact hstates.baseClass.fits rfl
    · exact hstates.typeList.fits rfl
    · exact hstates.strict.fits rfl
  simp only [template?, group?_table, Option.bind_eq_bind, Option.bind_eq_some_iff,
    members?_eq_some_iff, and_assoc, exists_and_left, exists_eq_left, valueD_text?_iff,
    valueD_texts?_iff h, valueD_flag?_iff, Option.some.injEq]
  constructor
  · rintro ⟨hothers, includes, hincludes, namespaceName, hnamespace, baseClass, hbase, typeList,
      htypes, strict, hstrict, rfl⟩
    have hstates : StatesTemplate (some entries)
        ⟨includes, namespaceName, baseClass, typeList, strict⟩ :=
      ⟨hincludes, hnamespace, hbase, htypes, hstrict⟩
    exact ⟨(entriesFit_iff_othersFit h (hfits hstates)).2 hothers, hstates⟩
  · rintro ⟨hentries, hstates⟩
    exact ⟨(entriesFit_iff_othersFit h (hfits hstates)).1 hentries, _, hstates.includes, _,
      hstates.namespaceName, _, hstates.baseClass, _, hstates.typeList, _, hstates.strict, rfl⟩

theorem interactive?_eq_some_iff {origin : Toml.Origin} {entries : Table} (h : entries.IsDistinct)
    {interactive : Bool} :
    interactive? (.table origin entries) = some interactive ↔
      entriesFit entries = true ∧ StatesInteractive (some entries) interactive := by
  simp only [interactive?, group?_table, Option.bind_eq_bind, Option.bind_eq_some_iff,
    members?_eq_some_iff, and_assoc, exists_and_left, exists_eq_left, valueD_flag?_iff]
  refine and_congr_left fun hstates => (entriesFit_iff_othersFit h fun name hname => ?_).symm
  obtain rfl := List.mem_singleton.1 hname
  exact hstates.fits rfl

theorem initializers?_eq_some_iff {origin : Toml.Origin} {entries : Table} (h : entries.IsDistinct)
    {initializers : Entries String} :
    textTable? (.table origin entries) = some initializers ↔
      entriesFit entries = true ∧ StatesInitializers (some entries) initializers := by
  rw [textTable?_eq_some_iff h]
  refine (and_iff_right_of_imp fun hstates => entriesFit_iff.2 fun entry hentry => ?_).symm
  obtain ⟨pair, -, rfl⟩ := List.mem_map.1 (hstates.1.mem_iff.1 hentry)
  rfl

/-! ## All groups -/

theorem statesNaming_none {naming : Naming} : StatesNaming none naming ↔ naming = {} := by
  constructor
  · rintro ⟨hsource, hheader, hsuffix⟩
    cases naming
    cases hsource
    cases hheader
    cases hsuffix
    rfl
  · rintro rfl
    exact ⟨rfl, rfl, rfl⟩

theorem statesTemplate_none {template : Template} : StatesTemplate none template ↔ template = {} := by
  constructor
  · rintro ⟨hincludes, hnamespace, hbase, htypes, hstrict⟩
    cases template
    cases hincludes
    cases hnamespace
    cases hbase
    cases htypes
    cases hstrict
    rfl
  · rintro rfl
    exact ⟨rfl, rfl, rfl, rfl, rfl⟩

/-- A document is read as the settings that it states, if its numbers can be
represented. -/
theorem ofToml?_eq_some_iff {document : Table} (h : document.IsDistinct)
    (hgroups : HasGroups document) {settings : Settings} :
    ofToml? document = some settings ↔ entriesFit document = true ∧ States document settings := by
  have hfits (hat : ∀ name ∈ ["naming", "template", "initializers", "prompt"],
      FitsAt document name) := entriesFit_iff_othersFit h hat
  have hnaming {naming : Naming} := valueD_group_iff h (hgroups "naming" (by decide))
    (fun origin entries hentries => @naming?_eq_some_iff origin entries hentries naming)
    statesNaming_none
  have htemplate {template : Template} := valueD_group_iff h (hgroups "template" (by decide))
    (fun origin entries hentries => @template?_eq_some_iff origin entries hentries template)
    statesTemplate_none
  have hinitializers {initializers : Entries String} :=
    valueD_group_iff h (hgroups "initializers" (by decide))
      (fun origin entries hentries =>
        @initializers?_eq_some_iff origin entries hentries initializers) Iff.rfl
  have hinteractive {interactive : Bool} := valueD_group_iff h (hgroups "prompt" (by decide))
    (fun origin entries hentries => @interactive?_eq_some_iff origin entries hentries interactive)
    Iff.rfl
  simp only [ofToml?, Option.bind_eq_bind, Option.bind_eq_some_iff, members?_eq_some_iff,
    and_assoc, exists_and_left, exists_eq_left, hnaming, htemplate, hinitializers, hinteractive,
    Option.some.injEq]
  constructor
  · rintro ⟨hothers, hnamingFits, naming, hnaming, htemplateFits, template, htemplate,
      hinitializersFits, initializers, hinitializers, hinteractiveFits, interactive, hinteractive,
      rfl⟩
    refine ⟨(hfits fun name hname => ?_).2 hothers,
      ⟨hnaming, htemplate, hinitializers, hinteractive⟩⟩
    simp only [List.mem_cons, List.not_mem_nil, or_false] at hname
    rcases hname with rfl | rfl | rfl | rfl
    · exact hnamingFits
    · exact htemplateFits
    · exact hinitializersFits
    · exact hinteractiveFits
  · rintro ⟨hdocument, hstates⟩
    have hat (name : String) : FitsAt document name := fun given hgiven =>
      entriesFit_iff.1 hdocument _ (mem_of_lookup hgiven)
    exact ⟨(hfits fun name _ => hat name).1 hdocument, hat _, _, hstates.naming, hat _, _,
      hstates.template, hat _, _, hstates.initializers, hat _, _, hstates.interactive, rfl⟩

end TestSkeleton.Settings
