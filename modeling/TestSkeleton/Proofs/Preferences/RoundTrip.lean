import TestSkeleton.Proofs.Json.RoundTrip
import TestSkeleton.Preferences.Store

/-!
# Preference documents and their text

A document is read back from its text as it was, its names in the same order.

* `readMembers?_map` rebuilds a table: a name that is new goes to the end, so
  setting the members of a table in order gives the table.
* `parse?_fileText` is the result for a document.
-/

namespace TestSkeleton

theorem setPair_of_not_mem {α : Type} {key : String} (value : α) {pairs : List (String × α)}
    (h : key ∉ pairs.map Prod.fst) : setPair key value pairs = pairs ++ [(key, value)] := by
  induction pairs with
  | nil => rfl
  | cons pair pairs ih =>
    obtain ⟨name, other⟩ := pair
    rw [List.map_cons, List.mem_cons, not_or] at h
    rw [setPair, if_neg (Ne.symm h.1), ih h.2]
    rfl

namespace Preferences

open Json (Layout Writes)

/-! ## Tables -/

section

variable {α : Type} {read? : Json → Option α} {layout : α → Layout} {json : α → Json}

/-- A table as a JSON value. -/
def tableJson (json : α → Json) (entries : Entries α) : Json :=
  .object (entries.toList.map fun entry => (some entry.1, json entry.2))

theorem writes_tableLayout (h : ∀ value, Writes (layout value) (json value))
    (entries : Entries α) : Writes (tableLayout layout entries) (tableJson json entries) := by
  have hentries : ∀ entry ∈ entries.toList, Writes (layout entry.2) (json entry.2) :=
    fun entry _ => h entry.2
  exact Writes.object Prod.fst (fun entry => layout entry.2) (fun entry => json entry.2) hentries

/-- Setting new names in order puts them behind the others. -/
theorem readMembers?_map (h : ∀ value, read? (json value) = some value)
    (pairs : List (String × α)) (entries : Entries α)
    (hnodup : ((entries.toList ++ pairs).map Prod.fst).Nodup) :
    ∃ result, readMembers? read? entries
        (pairs.map fun entry => (some entry.1, json entry.2)) = some result ∧
      result.toList = entries.toList ++ pairs := by
  induction pairs generalizing entries with
  | nil => exact ⟨entries, rfl, (List.append_nil _).symm⟩
  | cons pair pairs ih =>
    have hfresh : pair.1 ∉ entries.toList.map Prod.fst := by
      intro hmem
      rw [List.map_append, List.map_cons, List.nodup_append] at hnodup
      exact hnodup.2.2 _ hmem _ (List.mem_cons_self) rfl
    have hset : (entries.set pair.1 pair.2).toList = entries.toList ++ [pair] :=
      setPair_of_not_mem pair.2 hfresh
    obtain ⟨result, hread, hresult⟩ := ih (entries.set pair.1 pair.2) (by
      rw [hset, List.append_assoc]
      exact hnodup)
    refine ⟨result, ?_, ?_⟩
    · rw [List.map_cons, readMembers?]
      simp only [h, Option.bind_eq_bind, Option.bind_some]
      exact hread
    · rw [hresult, hset, List.append_assoc]
      rfl

theorem readTable?_tableJson (h : ∀ value, read? (json value) = some value)
    (entries : Entries α) : readTable? read? (tableJson json entries) = some entries := by
  obtain ⟨result, hread, hresult⟩ := readMembers?_map h entries.toList .empty entries.nodup
  rw [Entries.eq_of_toList hresult] at hread
  exact hread

/-- A field that is left out if its table is empty. -/
def fieldJson (name : String) (json : α → Json) (entries : Entries α) :
    List (Option String × Json) :=
  if entries.isEmpty then [] else [(some name, tableJson json entries)]

theorem name_of_mem_fieldJson {name : String} {entries : Entries α}
    {member : Option String × Json} (h : member ∈ fieldJson name json entries) :
    member.1 = some name := by
  rw [fieldJson] at h
  split at h
  · cases h
  · rw [List.mem_singleton.1 h]

/-- A field is found between members with other names, or is missing because
it is empty. -/
theorem readField?_fieldJson (h : ∀ value, read? (json value) = some value) (name : String)
    (entries : Entries α) {front back : List (Option String × Json)}
    (hfront : ∀ member ∈ front, member.1 ≠ some name)
    (hback : ∀ member ∈ back, member.1 ≠ some name) :
    readField? name .empty (readTable? read?) (front ++ fieldJson name json entries ++ back) =
      some entries := by
  have hother : ∀ {members : List (Option String × Json)},
      (∀ member ∈ members, member.1 ≠ some name) →
      members.filter (fun member => member.1 == some name) = [] := by
    intro members hne
    rw [List.filter_eq_nil_iff]
    intro member hmember hsame
    exact hne member hmember (beq_iff_eq.1 hsame)
  rw [readField?, List.filter_append, List.filter_append, hother hfront, hother hback,
    List.nil_append, List.append_nil, fieldJson]
  cases hempty : entries.isEmpty with
  | true =>
    have htoList : entries.toList = [] := by simpa [Entries.isEmpty] using hempty
    rw [if_pos rfl, List.filter_nil]
    exact congrArg some (Entries.eq_of_toList htoList).symm
  | false =>
    rw [if_neg (by simp), List.filter_cons_of_pos (by simp), List.filter_nil]
    exact readTable?_tableJson h entries

end

/-! ## Collections and documents -/

def Collection.json (collection : Collection) : Json :=
  .object (fieldJson "strings" (fun text => .string (some text)) collection.strings ++
    fieldJson "bools" .bool collection.bools)

def Document.json (document : Document) : Json :=
  .object [(some "collections", tableJson Collection.json document.collections)]

theorem writes_collection (collection : Collection) :
    Writes collection.layout collection.json := by
  have hstrings := writes_tableLayout Writes.string collection.strings
  have hbools := writes_tableLayout Writes.bool collection.bools
  let fields : List (String × Layout × Json) :=
    (if collection.strings.isEmpty then [] else
      [("strings", tableLayout Layout.string collection.strings,
        tableJson (fun text => .string (some text)) collection.strings)]) ++
    (if collection.bools.isEmpty then [] else
      [("bools", tableLayout Layout.bool collection.bools, tableJson .bool collection.bools)])
  have hobject : Writes (Layout.object (fields.map fun field => (field.1, field.2.1)))
      (.object (fields.map fun field => (some field.1, field.2.2))) := by
    refine Writes.object Prod.fst (fun field : String × Layout × Json => field.2.1)
      (fun field => field.2.2) ?_
    intro field hfield
    rcases List.mem_append.1 hfield with hfield | hfield
    · split at hfield
      · cases hfield
      · rw [List.mem_singleton.1 hfield]
        exact hstrings
    · split at hfield
      · cases hfield
      · rw [List.mem_singleton.1 hfield]
        exact hbools
  have hlayout : collection.layout =
      Layout.object (fields.map fun field => (field.1, field.2.1)) := by
    simp only [fields, Collection.layout, fieldLayout]
    cases collection.strings.isEmpty <;> cases collection.bools.isEmpty <;> rfl
  have hjson : collection.json = .object (fields.map fun field => (some field.1, field.2.2)) := by
    simp only [fields, Collection.json, fieldJson]
    cases collection.strings.isEmpty <;> cases collection.bools.isEmpty <;> rfl
  rw [hlayout, hjson]
  exact hobject

theorem writes_document (document : Document) : Writes document.layout document.json := by
  have hfields : ∀ table ∈ [document.collections],
      Writes (tableLayout Collection.layout table) (tableJson Collection.json table) :=
    fun table _ => writes_tableLayout writes_collection table
  exact Writes.object (fun _ => "collections") (tableLayout Collection.layout)
    (tableJson Collection.json) hfields

theorem readCollection?_json (collection : Collection) :
    readCollection? collection.json = some collection := by
  obtain ⟨strings, bools⟩ := collection
  let stringFields := fieldJson "strings" (fun text => .string (some text)) strings
  let boolFields := fieldJson "bools" .bool bools
  have htexts : namesAreTexts (stringFields ++ boolFields) = true := by
    rw [namesAreTexts, List.all_eq_true]
    intro member hmember
    rcases List.mem_append.1 hmember with hmember | hmember
    · rw [name_of_mem_fieldJson hmember]
      rfl
    · rw [name_of_mem_fieldJson hmember]
      rfl
  have hstring : ∀ text, readString? (.string (some text)) = some text := fun _ => rfl
  have hbool : ∀ value, readBool? (.bool value) = some value := fun _ => rfl
  have hstrings : readField? "strings" .empty (readTable? readString?)
      (stringFields ++ boolFields) = some strings := by
    rw [← List.nil_append stringFields]
    refine readField?_fieldJson hstring "strings" strings ?_ ?_
    · intro member hmember
      cases hmember
    · intro member hmember
      rw [name_of_mem_fieldJson hmember]
      decide
  have hbools : readField? "bools" .empty (readTable? readBool?)
      (stringFields ++ boolFields) = some bools := by
    rw [← List.append_nil (stringFields ++ boolFields)]
    refine readField?_fieldJson hbool "bools" bools ?_ ?_
    · intro member hmember
      rw [name_of_mem_fieldJson hmember]
      decide
    · intro member hmember
      cases hmember
  show (if namesAreTexts (stringFields ++ boolFields) then _ else _) = _
  rw [if_pos htexts, hstrings, hbools]
  rfl

theorem readDocument?_json (document : Document) :
    readDocument? document.json = some document := by
  have htable := readTable?_tableJson readCollection?_json document.collections
  simp [Document.json, readDocument?, namesAreTexts, readField?, htable]

/-- A document is read back from the text of its file. -/
theorem parse?_fileText (document : Document) :
    Document.parse? (fileText document) = some document := by
  rw [Document.parse?, fileText, Document.render, (writes_document document).parse?_render]
  exact readDocument?_json document

end Preferences

end TestSkeleton
