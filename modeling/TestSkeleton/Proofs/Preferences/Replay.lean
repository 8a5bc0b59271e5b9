import TestSkeleton.Preferences.Outputs

/-!
# Replaying changes

What a document shows after some changes depends, for each name, on the last
change that mentions it, and on the document before if none does.

* `Change.string?` and `Change.bool?` are the value that one change gives to
  one name.
* `Collection.write` is what a change does to its collection.  It leaves the
  other collections alone (`Document.collectionD_apply`).
* `Document.getString?_applyAll`, `getBool?_applyAll` and
  `contains_applyAll` are the document after a list of changes.
* `AreDisjoint` lists give the same values in either order
  (`AreDisjoint.agrees_swap`).
* `Outputs.lookup?_rememberChanges` is what is remembered for each source
  file after a directory is recorded.
-/

namespace TestSkeleton.Preferences

namespace Change

/-! ## One change -/

/-- The collection that a change writes to. -/
def collection : Change → String
  | .create collection | .setString collection _ _ | .setBool collection _ _ => collection

/-- The string that a change gives to a name, if it is about that name. -/
def string? (collection key : String) : Change → Option String
  | .setString collection' key' value =>
    if collection = collection' ∧ key = key' then some value else none
  | _ => none

/-- The truth value that a change gives to a name, if it is about that
name. -/
def bool? (collection key : String) : Change → Option Bool
  | .setBool collection' key' value =>
    if collection = collection' ∧ key = key' then some value else none
  | _ => none

theorem string?_of_ne {change : Change} {collection : String} (h : change.collection ≠ collection)
    (key : String) : change.string? collection key = none := by
  cases change with
  | setString target name value => exact if_neg fun hsame => h hsame.1.symm
  | create | setBool => rfl

theorem bool?_of_ne {change : Change} {collection : String} (h : change.collection ≠ collection)
    (key : String) : change.bool? collection key = none := by
  cases change with
  | setBool target name value => exact if_neg fun hsame => h hsame.1.symm
  | create | setString => rfl

end Change

namespace Collection

/-- A collection after one of its changes. -/
def write (content : Collection) : Change → Collection
  | .create _ => content
  | .setString _ key value => { content with strings := content.strings.set key value }
  | .setBool _ key value => { content with bools := content.bools.set key value }

/-- An entry that is set is found, and the others are as before. -/
theorem get?_set_eq_or {α : Type} (entries : Entries α) (collection name : String) (value : α)
    (key : String) : (entries.set name value).get? key =
      (if collection = collection ∧ key = name then some value else none).or
        (entries.get? key) := by
  rw [Entries.get?_set]
  by_cases h : key = name
  · rw [if_pos h, if_pos ⟨rfl, h⟩]
    rfl
  · rw [if_neg h, if_neg fun hsame => h hsame.2]
    rfl

theorem string_write (content : Collection) (change : Change) (key : String) :
    (content.write change).strings.get? key =
      (change.string? change.collection key).or (content.strings.get? key) := by
  cases change with
  | setString collection name value =>
    exact get?_set_eq_or content.strings collection name value key
  | create | setBool => rfl

theorem bool_write (content : Collection) (change : Change) (key : String) :
    (content.write change).bools.get? key =
      (change.bool? change.collection key).or (content.bools.get? key) := by
  cases change with
  | setBool collection name value =>
    exact get?_set_eq_or content.bools collection name value key
  | create | setString => rfl

end Collection

namespace Document

variable (document : Document)

theorem strings_collectionD (collection key : String) :
    (document.collectionD collection).strings.get? key = document.getString? collection key := by
  rw [collectionD, getString?]
  cases document.collections.get? collection <;> rfl

theorem bools_collectionD (collection key : String) :
    (document.collectionD collection).bools.get? key = document.getBool? collection key := by
  rw [collectionD, getBool?]
  cases document.collections.get? collection <;> rfl

/-- A change writes one collection. -/
theorem apply_eq (change : Change) :
    document.apply change = ⟨document.collections.set change.collection
      ((document.collectionD change.collection).write change)⟩ := by
  cases change <;> rfl

/-- A change writes to its own collection and to no other. -/
theorem collectionD_apply (change : Change) (collection : String) :
    (document.apply change).collectionD collection =
      if change.collection = collection then (document.collectionD collection).write change
      else document.collectionD collection := by
  rw [apply_eq, collectionD, Entries.get?_set]
  by_cases h : change.collection = collection
  · rw [if_pos h.symm, if_pos h, h]
    rfl
  · rw [if_neg (Ne.symm h), if_neg h]
    rfl

theorem contains_apply (change : Change) (collection : String) :
    (document.apply change).contains collection =
      (collection == change.collection || document.contains collection) := by
  rw [apply_eq]
  exact Entries.contains_set _ _ _ _

theorem getString?_apply (change : Change) (collection key : String) :
    (document.apply change).getString? collection key =
      (change.string? collection key).or (document.getString? collection key) := by
  rw [← strings_collectionD, ← strings_collectionD, collectionD_apply]
  by_cases h : change.collection = collection
  · rw [if_pos h, ← h]
    exact Collection.string_write _ change key
  · rw [if_neg h, Change.string?_of_ne h]
    rfl

theorem getBool?_apply (change : Change) (collection key : String) :
    (document.apply change).getBool? collection key =
      (change.bool? collection key).or (document.getBool? collection key) := by
  rw [← bools_collectionD, ← bools_collectionD, collectionD_apply]
  by_cases h : change.collection = collection
  · rw [if_pos h, ← h]
    exact Collection.bool_write _ change key
  · rw [if_neg h, Change.bool?_of_ne h]
    rfl

/-- Whether two documents show the same collections and values. -/
structure Agrees (document other : Document) : Prop where
  contains : ∀ collection, document.contains collection = other.contains collection
  getString? : ∀ collection key,
    document.getString? collection key = other.getString? collection key
  getBool? : ∀ collection key, document.getBool? collection key = other.getBool? collection key

/-! ## Some changes in order -/

@[simp] theorem applyAll_nil : document.applyAll [] = document := rfl

@[simp] theorem applyAll_cons (change : Change) (changes : List Change) :
    document.applyAll (change :: changes) = (document.apply change).applyAll changes := rfl

theorem applyAll_append (changes later : List Change) :
    document.applyAll (changes ++ later) = (document.applyAll changes).applyAll later :=
  List.foldl_append

/-- A collection is there if it was or if a change names it. -/
theorem contains_applyAll (changes : List Change) (collection : String) :
    (document.applyAll changes).contains collection =
      (changes.any (fun change => collection == change.collection) ||
        document.contains collection) := by
  induction changes generalizing document with
  | nil => rfl
  | cons change changes ih =>
    rw [applyAll_cons, ih, contains_apply, List.any_cons]
    cases changes.any (fun change => collection == change.collection) <;> simp

/-- Where a change gives a value or leaves the one that is there, the last
change that gives one decides it. -/
theorem read_applyAll {α : Type} (read : Document → Option α) {given : Change → Option α}
    (happly : ∀ document change, read (document.apply change) = (given change).or (read document))
    (changes : List Change) :
    read (document.applyAll changes) =
      (changes.reverse.findSome? given).or (read document) := by
  induction changes generalizing document with
  | nil => rfl
  | cons change changes ih =>
    rw [applyAll_cons, ih, happly, List.reverse_cons, List.findSome?_append,
      List.findSome?_singleton, Option.or_assoc]

/-- The last change of a string decides its value. -/
theorem getString?_applyAll (changes : List Change) (collection key : String) :
    (document.applyAll changes).getString? collection key =
      (changes.reverse.findSome? (Change.string? collection key)).or
        (document.getString? collection key) :=
  document.read_applyAll (fun shown => shown.getString? collection key)
    (fun before change => before.getString?_apply change collection key) changes

/-- The last change of a truth value decides it. -/
theorem getBool?_applyAll (changes : List Change) (collection key : String) :
    (document.applyAll changes).getBool? collection key =
      (changes.reverse.findSome? (Change.bool? collection key)).or
        (document.getBool? collection key) :=
  document.read_applyAll (fun shown => shown.getBool? collection key)
    (fun before change => before.getBool?_apply change collection key) changes

end Document

/-! ## Changes of different names -/

/-- Whether no name gets a value from both of two lists. -/
def AreDisjoint (changes others : List Change) : Prop :=
  ∀ change ∈ changes, ∀ other ∈ others, ∀ collection key,
    (change.string? collection key = none ∨ other.string? collection key = none) ∧
      (change.bool? collection key = none ∨ other.bool? collection key = none)

/-- At most one of two lists has something to say. -/
theorem findSome?_or_comm {α β : Type} {f : α → Option β} {xs ys : List α}
    (h : ∀ x ∈ xs, ∀ y ∈ ys, f x = none ∨ f y = none) (rest : Option β) :
    (xs.findSome? f).or ((ys.findSome? f).or rest) =
      (ys.findSome? f).or ((xs.findSome? f).or rest) := by
  cases hx : xs.findSome? f with
  | none => rfl
  | some a =>
    cases hy : ys.findSome? f with
    | none => rfl
    | some b =>
      obtain ⟨x, hmem, hfx⟩ := List.exists_of_findSome?_eq_some hx
      obtain ⟨y, hmem', hfy⟩ := List.exists_of_findSome?_eq_some hy
      rcases h x hmem y hmem' with hnone | hnone
      · rw [hfx] at hnone
        cases hnone
      · rw [hfy] at hnone
        cases hnone

/-- If no two changes give a value, the two lists give the same value in either
order. -/
theorem Document.read_applyAll_comm {α : Type} (document : Document) (read : Document → Option α)
    {given : Change → Option α}
    (happly : ∀ document change, read (document.apply change) = (given change).or (read document))
    {changes others : List Change}
    (h : ∀ change ∈ changes, ∀ other ∈ others, given change = none ∨ given other = none) :
    read ((document.applyAll changes).applyAll others) =
      read ((document.applyAll others).applyAll changes) := by
  simp only [read_applyAll _ read happly]
  apply findSome?_or_comm
  intro other hother change hchange
  exact (h change (List.mem_reverse.1 hchange) other (List.mem_reverse.1 hother)).symm

namespace AreDisjoint

variable {changes others : List Change}

/-- Two lists about different names give the same strings in either order. -/
theorem getString?_comm (h : AreDisjoint changes others) (document : Document)
    (collection key : String) :
    ((document.applyAll changes).applyAll others).getString? collection key =
      ((document.applyAll others).applyAll changes).getString? collection key :=
  document.read_applyAll_comm (fun shown => shown.getString? collection key)
    (fun before change => before.getString?_apply change collection key)
    fun change hchange other hother => (h change hchange other hother collection key).1

/-- Two lists about different names give the same truth values in either
order. -/
theorem getBool?_comm (h : AreDisjoint changes others) (document : Document)
    (collection key : String) :
    ((document.applyAll changes).applyAll others).getBool? collection key =
      ((document.applyAll others).applyAll changes).getBool? collection key :=
  document.read_applyAll_comm (fun shown => shown.getBool? collection key)
    (fun before change => before.getBool?_apply change collection key)
    fun change hchange other hother => (h change hchange other hother collection key).2

/-- Two lists about different names show the same in either order, between
whatever other changes they are made. -/
theorem agrees_swap (h : AreDisjoint changes others) (document : Document)
    (front back : List Change) :
    (document.applyAll (front ++ changes ++ others ++ back)).Agrees
      (document.applyAll (front ++ others ++ changes ++ back)) := by
  simp only [Document.applyAll_append]
  refine ⟨?_, ?_, ?_⟩
  · intro collection
    simp only [Document.contains_applyAll]
    rw [Bool.or_left_comm (others.any _)]
  · intro collection key
    rw [Document.getString?_applyAll _ back, Document.getString?_applyAll _ back,
      h.getString?_comm]
  · intro collection key
    rw [Document.getBool?_applyAll _ back, Document.getBool?_applyAll _ back, h.getBool?_comm]

end AreDisjoint

/-! ## Remembered directories -/

namespace Outputs

theorem markerFor_inj {source other : String} :
    markerFor source = markerFor other ↔ source = other := by
  rw [markerFor, markerFor, String.append_right_inj]

theorem markerFor_ne_rootCollection (source : String) : markerFor source ≠ rootCollection := by
  intro h
  have hlength := congrArg String.length h
  rw [markerFor, String.length_append, String.length_append] at hlength
  have hmark : String.length "\\" = 1 := rfl
  omega

/-- The directory of a source file is the one that is recorded for it. -/
theorem getString?_rememberChanges (document : Document) (source directory other : String) :
    (document.applyAll (rememberChanges source directory)).getString? rootCollection other =
      if other = source then some directory else document.getString? rootCollection other := by
  rw [Document.getString?_applyAll]
  by_cases h : other = source
  · simp [rememberChanges, Change.string?, h]
  · simp [rememberChanges, List.findSome?_cons, Change.string?, h]

/-- Recording a directory marks its source file and no other. -/
theorem contains_rememberChanges (document : Document) (source directory other : String) :
    (document.applyAll (rememberChanges source directory)).contains (markerFor other) =
      (decide (other = source) || document.contains (markerFor other)) := by
  rw [Document.contains_applyAll]
  have hroot : (markerFor other == rootCollection) = false :=
    beq_false_of_ne (markerFor_ne_rootCollection other)
  have hmarker : (markerFor other == markerFor source) = decide (other = source) :=
    decide_eq_decide.2 markerFor_inj
  simp [rememberChanges, Change.collection, hroot, hmarker]

/-- Recording a directory turns the flag on, and changes nothing else that is
remembered for other source files. -/
theorem lookup?_rememberChanges (document : Document) (source directory other : String) :
    lookup? (document.applyAll (rememberChanges source directory)) other =
      if other = source then
        some { directory := (some directory).filter fun d => !d.isEmpty, inUse := true }
      else (lookup? document other).map fun stored => { stored with inUse := true } := by
  have hflag : inUse (document.applyAll (rememberChanges source directory)) = true := by
    rw [inUse, Document.getBool?_applyAll]
    simp [rememberChanges, List.findSome?_cons, Change.bool?]
  rw [lookup?, contains_rememberChanges, hflag, getString?_rememberChanges, lookup?]
  by_cases h : other = source
  · simp [h]
  · simp only [h, decide_false, Bool.false_or, if_false]
    split <;> rfl

end Outputs

end TestSkeleton.Preferences
