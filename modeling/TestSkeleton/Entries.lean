/-!
# Ordered entries

A table from names to values that remembers the order in which its names
were first set.  Setting a name again changes its value and keeps its place.

* `get?`, `contains` and `keys` read the table.
* `set` writes one entry, and `ofList` writes many.
* The view is `toList`; no name occurs in it twice.
-/

namespace TestSkeleton

/-- What is found under a key stands in the list. -/
theorem mem_of_lookup {κ α : Type} [BEq κ] [LawfulBEq κ] {pairs : List (κ × α)} {key : κ} {value : α}
    (h : pairs.lookup key = some value) : (key, value) ∈ pairs := by
  obtain ⟨front, back, hsplit, -⟩ := List.lookup_eq_some_iff.1 h
  rw [hsplit]
  exact List.mem_append_right front List.mem_cons_self

/-- If no key occurs twice, whatever stands in the list is found. -/
theorem lookup_eq_some_iff_mem {κ α : Type} [BEq κ] [LawfulBEq κ] {pairs : List (κ × α)}
    (h : (pairs.map Prod.fst).Nodup) {key : κ} {value : α} :
    pairs.lookup key = some value ↔ (key, value) ∈ pairs := by
  refine ⟨mem_of_lookup, fun hmem => ?_⟩
  obtain ⟨front, back, rfl⟩ := List.append_of_mem hmem
  refine List.lookup_eq_some_iff.2 ⟨front, back, rfl, fun pair hpair => ?_⟩
  rw [List.map_append, List.nodup_append] at h
  rw [bne_iff_ne]
  exact (h.2.2 pair.1 (List.mem_map_of_mem hpair) key (by simp)).symm

/-- Sets `key` in a list of pairs, in place if it is there. -/
def setPair {α : Type} (key : String) (value : α) : List (String × α) → List (String × α)
  | [] => [(key, value)]
  | (k, v) :: rest =>
    if k = key then (k, value) :: rest else (k, v) :: setPair key value rest

theorem map_fst_setPair {α : Type} (key : String) (value : α) (pairs : List (String × α)) :
    (setPair key value pairs).map Prod.fst =
      if key ∈ pairs.map Prod.fst then pairs.map Prod.fst
      else pairs.map Prod.fst ++ [key] := by
  induction pairs with
  | nil => simp [setPair]
  | cons p rest ih =>
    obtain ⟨k, v⟩ := p
    rw [setPair]
    split
    · rename_i h
      simp [h]
    · rename_i h
      have h' : key ≠ k := fun e => h e.symm
      rw [List.map_cons, ih]
      by_cases hm : key ∈ rest.map Prod.fst
      · simp [hm]
      · rw [if_neg hm, if_neg (by simpa [h'] using hm)]
        rfl

theorem nodup_setPair {α : Type} (key : String) (value : α) {pairs : List (String × α)}
    (h : (pairs.map Prod.fst).Nodup) : ((setPair key value pairs).map Prod.fst).Nodup := by
  rw [map_fst_setPair]
  split
  · exact h
  · rename_i hm
    rw [List.nodup_append]
    refine ⟨h, by simp, ?_⟩
    intro a ha b hb
    rw [List.mem_singleton] at hb
    subst hb
    exact fun e => hm (e ▸ ha)

theorem lookup_setPair {α : Type} (key : String) (value : α) (pairs : List (String × α))
    (other : String) :
    (setPair key value pairs).lookup other =
      if other = key then some value else pairs.lookup other := by
  induction pairs with
  | nil =>
    rw [setPair, List.lookup_cons]
    by_cases h : other = key
    · simp [h]
    · simp [h, beq_eq_false_iff_ne.2 h]
  | cons p rest ih =>
    obtain ⟨k, v⟩ := p
    rw [setPair]
    by_cases hk : k = key
    · subst hk
      rw [if_pos rfl, List.lookup_cons, List.lookup_cons]
      by_cases h : other = k
      · simp [h]
      · simp [h, beq_eq_false_iff_ne.2 h]
    · rw [if_neg hk, List.lookup_cons, List.lookup_cons, ih]
      by_cases h : other = k
      · subst h
        simp [hk]
      · simp [beq_eq_false_iff_ne.2 h]

/-- A table from names to values in the order of the first setting of each
name. -/
structure Entries (α : Type) where
  /-- The pairs of name and value, in order. -/
  toList : List (String × α)
  nodup : (toList.map Prod.fst).Nodup
deriving DecidableEq

namespace Entries

variable {α : Type}

/-- The table without entries. -/
def empty : Entries α :=
  ⟨[], by simp⟩

instance : Inhabited (Entries α) := ⟨empty⟩

/-- Whether the table has no entries. -/
def isEmpty (entries : Entries α) : Bool :=
  entries.toList.isEmpty

/-- The names in the table, in order. -/
def keys (entries : Entries α) : List String :=
  entries.toList.map Prod.fst

/-- The value of a name. -/
def get? (entries : Entries α) (key : String) : Option α :=
  entries.toList.lookup key

/-- Whether the table has a value for a name. -/
def contains (entries : Entries α) (key : String) : Bool :=
  (entries.get? key).isSome

/-- Gives `key` the value `value`.  A new name goes to the end. -/
def set (entries : Entries α) (key : String) (value : α) : Entries α :=
  ⟨setPair key value entries.toList, nodup_setPair key value entries.nodup⟩

/-- The table that results from setting some pairs in order. -/
def ofList (pairs : List (String × α)) : Entries α :=
  pairs.foldl (fun entries pair => entries.set pair.1 pair.2) empty

@[simp] theorem toList_empty : (empty : Entries α).toList = [] := rfl

@[simp] theorem toList_set (entries : Entries α) (key : String) (value : α) :
    (entries.set key value).toList = setPair key value entries.toList := rfl

theorem get?_set (entries : Entries α) (key : String) (value : α) (other : String) :
    (entries.set key value).get? other = if other = key then some value else entries.get? other :=
  lookup_setPair key value entries.toList other

theorem contains_set (entries : Entries α) (key : String) (value : α) (other : String) :
    (entries.set key value).contains other = (other == key || entries.contains other) := by
  rw [contains, get?_set]
  by_cases h : other = key
  · simp [h]
  · simp [h, contains]

theorem keys_set (entries : Entries α) (key : String) (value : α) :
    (entries.set key value).keys =
      if key ∈ entries.keys then entries.keys else entries.keys ++ [key] :=
  map_fst_setPair key value entries.toList

/-- A value that is found stands in the table. -/
theorem mem_of_get? {entries : Entries α} {key : String} {value : α}
    (h : entries.get? key = some value) : (key, value) ∈ entries.toList :=
  mem_of_lookup h

/-- The names in a table are those that have a value. -/
theorem mem_keys_iff {entries : Entries α} {key : String} :
    key ∈ entries.keys ↔ (entries.get? key).isSome := by
  rw [keys, get?, List.lookup_isSome_iff, List.mem_map]
  exact ⟨fun ⟨pair, hmem, hkey⟩ => ⟨pair, hmem, beq_iff_eq.2 hkey.symm⟩,
    fun ⟨pair, hmem, hkey⟩ => ⟨pair, hmem, (beq_iff_eq.1 hkey).symm⟩⟩

/-- A table is its pairs. -/
theorem eq_of_toList {entries others : Entries α} (h : entries.toList = others.toList) :
    entries = others := by
  cases entries
  cases others
  cases h
  rfl

/-- The pairs of a table are its names with their values. -/
theorem map_some_toList (entries : Entries α) :
    entries.toList.map some = entries.keys.map fun key => (entries.get? key).map (Prod.mk key) := by
  rw [keys, List.map_map]
  refine List.map_congr_left fun pair hpair => ?_
  rw [Function.comp, get?, (lookup_eq_some_iff_mem entries.nodup).2 hpair]
  rfl

/-- A table is its names in order and their values. -/
theorem eq_of_keys {entries others : Entries α} (hkeys : entries.keys = others.keys)
    (hvalues : ∀ key, entries.get? key = others.get? key) : entries = others := by
  refine eq_of_toList ((List.map_inj_right fun _ _ => Option.some.inj).1 ?_)
  rw [map_some_toList, hkeys, funext hvalues, ← map_some_toList]

end Entries

end TestSkeleton
