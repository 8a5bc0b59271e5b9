import TestSkeleton.Entries
import TestSkeleton.Toml.Reading

/-!
# Tables without repeated names

Nothing is defined twice in a document, so that no table in it has two values
of one name.

* `Distinct` says this of a value and of everything inside it, and
  `Table.IsDistinct` of the entries of a table.
* `Table.IsDistinct.changeAt` is the step: changing the table at the end of a
  path keeps it.
* `distinct_of_readValue?` is about values, and `isDistinct_of_parse?` about
  documents.
-/

namespace TestSkeleton.Toml

/-- Whether no table in a value has a name twice, and no name has an empty
list of tables. -/
inductive Distinct : Toml → Prop where
  | string (text : String) : Distinct (.string text)
  | number (representable : Bool) : Distinct (.number representable)
  | bool (value : Bool) : Distinct (.bool value)
  | dateTime (text : String) : Distinct (.dateTime text)
  | array {items : List Toml} (hitems : ∀ item ∈ items, Distinct item) : Distinct (.array items)
  | table {origin : Origin} {entries : Table} (hnames : (entries.map Prod.fst).Nodup)
      (hvalues : ∀ entry ∈ entries, Distinct entry.2) : Distinct (.table origin entries)
  | tables {items : List Table} (hsome : items ≠ [])
      (hnames : ∀ entries ∈ items, (entries.map Prod.fst).Nodup)
      (hvalues : ∀ entries ∈ items, ∀ entry ∈ entries, Distinct entry.2) :
      Distinct (.tables items)

/-- Whether neither a table nor a table inside it has a name twice. -/
structure Table.IsDistinct (entries : Table) : Prop where
  names : (entries.map Prod.fst).Nodup
  values : ∀ entry ∈ entries, entry.2.Distinct

theorem distinct_table_iff {origin : Origin} {entries : Table} :
    Distinct (.table origin entries) ↔ entries.IsDistinct := by
  constructor
  · intro h
    cases h with
    | table hnames hvalues => exact ⟨hnames, hvalues⟩
  · exact fun h => .table h.names h.values

theorem distinct_tables_iff {items : List Table} :
    Distinct (.tables items) ↔ items ≠ [] ∧ ∀ entries ∈ items, entries.IsDistinct := by
  constructor
  · intro h
    cases h with
    | tables hsome hnames hvalues =>
      exact ⟨hsome, fun entries hmem => ⟨hnames entries hmem, hvalues entries hmem⟩⟩
  · rintro ⟨hsome, hitems⟩
    exact .tables hsome (fun entries hmem => (hitems entries hmem).names)
      fun entries hmem => (hitems entries hmem).values

/-! ## Entries -/

theorem map_fst_replaceEntry (key : String) (value : Toml) (entries : Table) :
    (replaceEntry key value entries).map Prod.fst = entries.map Prod.fst := by
  induction entries with
  | nil => rfl
  | cons entry entries ih =>
    obtain ⟨name, other⟩ := entry
    rw [replaceEntry]
    split
    · rfl
    · rw [List.map_cons, ih]
      rfl

theorem mem_replaceEntry {key : String} {value : Toml} {entries : Table} {entry : String × Toml}
    (h : entry ∈ replaceEntry key value entries) : entry ∈ entries ∨ entry.2 = value := by
  induction entries with
  | nil => cases h
  | cons first entries ih =>
    obtain ⟨name, other⟩ := first
    rw [replaceEntry] at h
    split at h
    · rcases List.mem_cons.1 h with rfl | hmem
      · exact Or.inr rfl
      · exact Or.inl (List.mem_cons_of_mem _ hmem)
    · rcases List.mem_cons.1 h with rfl | hmem
      · exact Or.inl List.mem_cons_self
      · exact (ih hmem).imp_left (List.mem_cons_of_mem _)

namespace Table.IsDistinct

variable {entries : Table} {key : String} {value : Toml}

theorem empty : IsDistinct [] :=
  ⟨List.nodup_nil, fun _ h => nomatch h⟩

theorem lookup (h : entries.IsDistinct) (hlookup : entries.lookup key = some value) :
    value.Distinct :=
  h.values (key, value) (mem_of_lookup hlookup)

/-- A name that is not there yet goes to the end. -/
theorem append (h : entries.IsDistinct) (hnew : entries.lookup key = none)
    (hvalue : value.Distinct) : IsDistinct (entries ++ [(key, value)]) := by
  have hnew : key ∉ entries.map Prod.fst := by
    intro hmem
    obtain ⟨entry, hentry, hkey⟩ := List.mem_map.1 hmem
    exact bne_iff_ne.1 (List.lookup_eq_none_iff.1 hnew entry hentry) hkey.symm
  constructor
  · rw [List.map_append, List.nodup_append]
    refine ⟨h.names, by simp, ?_⟩
    intro name hname other hother heq
    obtain rfl : other = key := by simpa using hother
    exact hnew (heq ▸ hname)
  · intro entry hentry
    rcases List.mem_append.1 hentry with hentry | hentry
    · exact h.values entry hentry
    · rw [List.mem_singleton.1 hentry]
      exact hvalue

theorem replaceEntry (h : entries.IsDistinct) (hvalue : value.Distinct) :
    IsDistinct (replaceEntry key value entries) := by
  constructor
  · rw [map_fst_replaceEntry]
    exact h.names
  · intro entry hentry
    rcases mem_replaceEntry hentry with hmem | heq
    · exact h.values entry hmem
    · exact heq ▸ hvalue

/-- A change of one table is a change of the whole. -/
theorem changeAt {byDottedKey : Bool} {change : Origin → Table → Option Table}
    (hchange : ∀ origin entries changed, IsDistinct entries →
      change origin entries = some changed → IsDistinct changed)
    {path : List String} {origin : Origin} {changed : Table} (h : entries.IsDistinct)
    (hchanged : changeAt byDottedKey change path origin entries = some changed) :
    changed.IsDistinct := by
  induction path generalizing origin entries changed with
  | nil => exact hchange origin entries changed h hchanged
  | cons step path ih =>
    rw [Toml.changeAt] at hchanged
    split at hchanged
    · rename_i hnew
      obtain ⟨inner, hinner, rfl⟩ := Option.map_eq_some_iff.1 hchanged
      exact h.append hnew (distinct_table_iff.2 (ih empty hinner))
    · rename_i hlookup
      split at hchanged
      · cases hchanged
      · obtain ⟨inner, hinner, rfl⟩ := Option.map_eq_some_iff.1 hchanged
        have hbefore := distinct_table_iff.1 (h.lookup hlookup)
        exact h.replaceEntry (distinct_table_iff.2 (ih hbefore hinner))
    · rename_i items hlookup
      have hitems := (distinct_tables_iff.1 (h.lookup hlookup)).2
      split at hchanged
      · cases hchanged
      · rename_i last hlast
        obtain ⟨inner, hinner, rfl⟩ := Option.map_eq_some_iff.1 hchanged
        refine h.replaceEntry (distinct_tables_iff.2 ⟨by simp, ?_⟩)
        intro entries hentries
        rcases List.mem_append.1 hentries with hmem | hmem
        · exact hitems entries (List.dropLast_subset items hmem)
        · rw [List.mem_singleton.1 hmem]
          exact ih (hitems last (List.mem_of_getLast? hlast)) hinner
    · cases hchanged

theorem addNew (h : entries.IsDistinct) (hvalue : value.Distinct) {changed : Table}
    (hchanged : addNew key value entries = some changed) : changed.IsDistinct := by
  rw [Toml.addNew] at hchanged
  split at hchanged
  · rename_i hnew
    cases hchanged
    exact h.append hnew hvalue
  · cases hchanged

theorem assign (h : entries.IsDistinct) (hvalue : value.Distinct) {path : List String}
    {changed : Table} (hchanged : assign path key value entries = some changed) :
    changed.IsDistinct := by
  refine h.changeAt ?_ hchanged
  intro origin entries changed h hchanged
  split at hchanged
  · exact h.addNew hvalue hchanged
  · cases hchanged

theorem defineTable (h : entries.IsDistinct) {changed : Table}
    (hchanged : defineTable key entries = some changed) : changed.IsDistinct := by
  rw [Toml.defineTable] at hchanged
  split at hchanged
  · rename_i hnew
    cases hchanged
    exact h.append hnew (distinct_table_iff.2 empty)
  · rename_i hlookup
    cases hchanged
    exact h.replaceEntry (distinct_table_iff.2 (distinct_table_iff.1 (h.lookup hlookup)))
  · cases hchanged

theorem defineElement (h : entries.IsDistinct) {changed : Table}
    (hchanged : defineElement key entries = some changed) : changed.IsDistinct := by
  rw [Toml.defineElement] at hchanged
  split at hchanged
  · rename_i hnew
    cases hchanged
    refine h.append hnew (distinct_tables_iff.2 ⟨by simp, ?_⟩)
    intro entries hentries
    rw [List.mem_singleton.1 hentries]
    exact empty
  · rename_i hlookup
    cases hchanged
    refine h.replaceEntry (distinct_tables_iff.2 ⟨by simp, ?_⟩)
    intro entries hentries
    rcases List.mem_append.1 hentries with hmem | hmem
    · exact (distinct_tables_iff.1 (h.lookup hlookup)).2 entries hmem
    · rw [List.mem_singleton.1 hmem]
      exact empty
  · cases hchanged

end Table.IsDistinct

/-! ## Values -/

/-- Every element was read somewhere. -/
theorem exists_of_mem_elements? {α : Type} {close : Char}
    {element? : List Char → Option (α × List Char)} {count : Nat} {cs rest : List Char}
    {elements : List α} (h : elements? close element? count cs = some (elements, rest)) {element : α}
    (hmem : element ∈ elements) : ∃ cs rest, element? cs = some (element, rest) := by
  induction count generalizing cs rest elements with
  | zero => cases h
  | succ count ih =>
    rw [elements?] at h
    obtain ⟨skipped, -, h⟩ := Option.bind_eq_some_iff.1 h
    split at h
    · cases h
      cases hmem
    · obtain ⟨⟨first, behind⟩, hfirst, h⟩ := Option.bind_eq_some_iff.1 h
      obtain ⟨between, -, h⟩ := Option.bind_eq_some_iff.1 h
      dsimp only at h
      split at h
      · obtain ⟨⟨others, rest⟩, hothers, h⟩ := Option.bind_eq_some_iff.1 h
        cases h
        rcases List.mem_cons.1 hmem with rfl | hmem
        · exact ⟨skipped, behind, hfirst⟩
        · exact ih hothers hmem
      · split at h
        · cases h
          rw [List.mem_singleton.1 hmem]
          exact ⟨skipped, behind, hfirst⟩
        · cases h
      · cases h

/-- The value of a key was read somewhere. -/
theorem exists_of_keyValue? {skip? : List Char → Option (List Char)}
    {value? : List Char → Option (Toml × List Char)} {cs rest : List Char} {path : List String}
    {key : String} {value : Toml}
    (h : keyValue? skip? value? cs = some ((path, key, value), rest)) :
    ∃ cs rest, value? cs = some (value, rest) := by
  rw [keyValue?] at h
  obtain ⟨⟨⟨parts, last⟩, behind⟩, -, h⟩ := Option.bind_eq_some_iff.1 h
  obtain ⟨skipped, -, h⟩ := Option.bind_eq_some_iff.1 h
  split at h
  · obtain ⟨front, -, h⟩ := Option.bind_eq_some_iff.1 h
    obtain ⟨⟨read, rest⟩, hread, h⟩ := Option.bind_eq_some_iff.1 h
    cases h
    exact ⟨front, rest, hread⟩
  · cases h

/-- What every step keeps, all steps keep. -/
theorem of_foldlM_eq_some {α β : Type} {step : β → α → Option β} {holds : β → Prop} {items : List α}
    (hstep : ∀ state, ∀ item ∈ items, ∀ next, holds state → step state item = some next →
      holds next)
    {start result : β} (hstart : holds start) (h : items.foldlM step start = some result) :
    holds result := by
  induction items generalizing start with
  | nil =>
    cases h
    exact hstart
  | cons item items ih =>
    rw [List.foldlM_cons] at h
    obtain ⟨next, hnext, h⟩ := Option.bind_eq_some_iff.1 h
    exact ih (fun state other hother => hstep state other (List.mem_cons_of_mem _ hother))
      (hstep start item List.mem_cons_self next hstart hnext) h

theorem distinct_of_inlineTable? {values : List (List String × String × Toml)} {table : Toml}
    (hvalues : ∀ assignment ∈ values, assignment.2.2.Distinct)
    (h : inlineTable? values = some table) : table.Distinct := by
  obtain ⟨entries, hentries, rfl⟩ := Option.map_eq_some_iff.1 h
  refine distinct_table_iff.2 (of_foldlM_eq_some ?_ .empty hentries)
  intro state assignment hassignment next hstate hnext
  exact hstate.assign (hvalues assignment hassignment) hnext

theorem distinct_of_scalar? {cs : List Char} {value : Toml} (h : scalar? cs = some value) :
    value.Distinct := by
  rw [scalar?] at h
  split at h
  · cases h
    exact .bool true
  split at h
  · cases h
    exact .bool false
  split at h
  · cases h
    exact .number true
  split at h
  · cases h
    exact .number _
  split at h
  · cases h
    exact .number _
  · obtain ⟨text, -, rfl⟩ := Option.map_eq_some_iff.1 h
    exact .dateTime _

theorem distinct_of_stringValue? {cs rest : List Char} {value : Toml}
    (h : stringValue? cs = some (value, rest)) : value.Distinct := by
  obtain ⟨⟨text, behind⟩, -, h⟩ := Option.map_eq_some_iff.1 h
  cases h
  exact .string _

theorem distinct_of_scalarValue? {cs rest : List Char} {value : Toml}
    (h : scalarValue? cs = some (value, rest)) : value.Distinct := by
  obtain ⟨scalar, hscalar, h⟩ := Option.map_eq_some_iff.1 h
  cases h
  exact distinct_of_scalar? hscalar

/-- What lies inside a value was read one level deeper. -/
theorem distinct_of_readValue? {depth : Nat} {cs rest : List Char} {value : Toml}
    (h : readValue? depth cs = some (value, rest)) : value.Distinct := by
  induction depth generalizing cs rest value with
  | zero =>
    unfold readValue? at h
    split at h
    · exact distinct_of_stringValue? h
    · exact distinct_of_stringValue? h
    · cases h
    · cases h
    · contradiction
    · contradiction
    · exact distinct_of_scalarValue? h
  | succ depth ih =>
    unfold readValue? at h
    split at h
    · exact distinct_of_stringValue? h
    · exact distinct_of_stringValue? h
    · contradiction
    · contradiction
    · rename_i hdepth
      cases hdepth
      obtain ⟨⟨items, behind⟩, hitems, h⟩ := Option.map_eq_some_iff.1 h
      cases h
      refine .array fun item hitem => ?_
      obtain ⟨front, rest, hread⟩ := exists_of_mem_elements? hitems hitem
      exact ih hread
    · rename_i hdepth
      cases hdepth
      obtain ⟨⟨entries, behind⟩, hentries, h⟩ := Option.bind_eq_some_iff.1 h
      obtain ⟨table, htable, h⟩ := Option.bind_eq_some_iff.1 h
      cases h
      refine distinct_of_inlineTable? (fun assignment hassignment => ?_) htable
      obtain ⟨front, rest, hread⟩ := exists_of_mem_elements? hentries hassignment
      obtain ⟨front, rest, hread⟩ := exists_of_keyValue? hread
      exact ih hread
    · exact distinct_of_scalarValue? h

/-! ## Documents -/

/-- Whether the value of a statement, if there is one, has no name twice. -/
def Statement.IsDistinct : Statement → Prop
  | .assign _ _ value => value.Distinct
  | _ => True

theorem isDistinct_of_header? {double : Bool} {cs rest : List Char} {statement : Statement}
    (h : header? double cs = some (statement, rest)) : statement.IsDistinct := by
  obtain ⟨⟨⟨path, key⟩, behind⟩, -, h⟩ := Option.bind_eq_some_iff.1 h
  dsimp only at h
  split at h
  · cases h
    trivial
  · cases h
    trivial
  · cases h

theorem isDistinct_of_statement? {cs rest : List Char} {statement : Statement}
    (h : statement? cs = some (statement, rest)) : statement.IsDistinct := by
  rw [statement?.eq_def] at h
  split at h
  · exact isDistinct_of_header? h
  · exact isDistinct_of_header? h
  · obtain ⟨⟨⟨path, key, value⟩, behind⟩, hread, h⟩ := Option.bind_eq_some_iff.1 h
    cases h
    obtain ⟨front, rest, hread⟩ := exists_of_keyValue? hread
    exact distinct_of_readValue? hread

theorem isDistinct_of_statementsWithin? {count : Nat} {cs : List Char} {statements : List Statement}
    (h : statementsWithin? count cs = some statements) :
    ∀ statement ∈ statements, statement.IsDistinct := by
  induction count generalizing cs statements with
  | zero => cases h
  | succ count ih =>
    rw [statementsWithin?] at h
    obtain ⟨skipped, -, h⟩ := Option.bind_eq_some_iff.1 h
    split at h
    · cases h
      exact fun _ hmem => nomatch hmem
    · obtain ⟨⟨first, behind⟩, hfirst, h⟩ := Option.bind_eq_some_iff.1 h
      obtain ⟨next, -, h⟩ := Option.bind_eq_some_iff.1 h
      obtain ⟨others, hothers, h⟩ := Option.bind_eq_some_iff.1 h
      cases h
      intro statement hstatement
      rcases List.mem_cons.1 hstatement with rfl | hmem
      · exact isDistinct_of_statement? hfirst
      · exact ih hothers statement hmem

/-- One statement defines nothing again. -/
theorem isDistinct_of_read {document next : Document} {statement : Statement}
    (h : document.entries.IsDistinct) (hstatement : statement.IsDistinct)
    (hread : document.read statement = some next) : next.entries.IsDistinct := by
  cases statement with
  | header path key =>
    obtain ⟨entries, hentries, rfl⟩ := Option.map_eq_some_iff.1 hread
    exact h.changeAt (fun _ _ _ hinner hdefine => hinner.defineTable hdefine) hentries
  | arrayHeader path key =>
    obtain ⟨entries, hentries, rfl⟩ := Option.map_eq_some_iff.1 hread
    exact h.changeAt (fun _ _ _ hinner hdefine => hinner.defineElement hdefine) hentries
  | assign path key value =>
    obtain ⟨entries, hentries, rfl⟩ := Option.map_eq_some_iff.1 hread
    exact h.changeAt (fun _ _ _ hinner hassign => hinner.assign hstatement hassign) hentries

/-- No name is defined twice in a document. -/
theorem isDistinct_of_parse? {text : String} {document : Table}
    (h : parse? text = some document) : document.IsDistinct := by
  obtain ⟨statements, hstatements, h⟩ := Option.bind_eq_some_iff.1 h
  obtain ⟨result, hresult, rfl⟩ := Option.map_eq_some_iff.1 h
  have hvalues : ∀ statement ∈ statements, statement.IsDistinct := by
    rw [statements?.eq_def] at hstatements
    split at hstatements <;> exact isDistinct_of_statementsWithin? hstatements
  have hstep (state : Document) (statement : Statement) (hstatement : statement ∈ statements)
      (next : Document) (hstate : state.entries.IsDistinct)
      (hnext : state.read statement = some next) : next.entries.IsDistinct :=
    isDistinct_of_read hstate (hvalues statement hstatement) hnext
  exact of_foldlM_eq_some hstep .empty hresult

end TestSkeleton.Toml
