import TestSkeleton.Proofs.Preferences.Replay

/-!
# The order of the names

The collections of a document, and the strings and the truth values of a
collection, are listed in the order in which they were first named.  Changes
put the names that are new behind the others, and move none.

* `addNames` is a list of names to which others are added.  Adding in two
  steps is adding at once (`addNames_append`), and adding the same names again
  changes nothing (`addNames_addNames`).
* `Document.collectionD_applyAll` says that a collection depends on its own
  changes alone.
* `names_foldl` turns what each change adds to a list of names into what a
  run of changes adds.  `Document.collectionNames_applyAll`,
  `stringKeys_applyAll` and `boolKeys_applyAll` are its three cases.
-/

namespace TestSkeleton.Preferences

/-! ## Names that are added -/

/-- Some names, and behind them those of `added` that are not among them, in
the order in which they first occur. -/
def addNames (names added : List String) : List String :=
  names ++ (added.removeAll names).eraseDups

@[simp] theorem addNames_nil (names : List String) : addNames names [] = names :=
  List.append_nil names

theorem nil_addNames (added : List String) : addNames [] added = added.eraseDups := by
  have hall : added.removeAll [] = added := List.filter_eq_self.2 fun _ _ => rfl
  rw [addNames, hall, List.nil_append]

theorem addNames_singleton (names : List String) (name : String) :
    addNames names [name] = if name ∈ names then names else names ++ [name] := by
  by_cases h : name ∈ names
  · simp [addNames, List.removeAll, h]
  · simp [addNames, List.removeAll, h, List.eraseDups_cons]

theorem mem_addNames {names added : List String} {name : String} :
    name ∈ addNames names added ↔ name ∈ names ∨ name ∈ added := by
  rw [addNames, List.mem_append, List.mem_eraseDups, List.removeAll, List.mem_filter]
  by_cases h : name ∈ names <;> simp [h]

/-- What is still new after some names were added. -/
theorem removeAll_addNames (names added later : List String) :
    later.removeAll (addNames names added) =
      (later.removeAll names).removeAll (added.removeAll names) := by
  simp only [List.removeAll, List.filter_filter]
  apply List.filter_congr
  intro name _
  by_cases h : name ∈ names <;> simp [h, mem_addNames]

/-- Names may be added in two steps. -/
theorem addNames_append (names added later : List String) :
    addNames names (added ++ later) = addNames (addNames names added) later := by
  have hsplit : (added ++ later).removeAll names =
      added.removeAll names ++ later.removeAll names := List.filter_append ..
  calc addNames names (added ++ later)
      = names ++ ((added.removeAll names).eraseDups ++
          ((later.removeAll names).removeAll (added.removeAll names)).eraseDups) := by
        rw [addNames, hsplit, List.eraseDups_append]
    _ = addNames names added ++ (later.removeAll (addNames names added)).eraseDups := by
        rw [removeAll_addNames, addNames, List.append_assoc]

/-- Names that are there already are not added. -/
theorem addNames_of_forall_mem {names added : List String} (h : ∀ name ∈ added, name ∈ names) :
    addNames names added = names := by
  have hnone : added.removeAll names = [] := by
    rw [List.removeAll, List.filter_eq_nil_iff]
    intro name hname
    simp [h name hname]
  rw [addNames, hnone]
  exact List.append_nil names

/-- Names that are added again change nothing. -/
theorem addNames_addNames (names added : List String) :
    addNames (addNames names added) added = addNames names added := by
  apply addNames_of_forall_mem
  intro name hname
  exact mem_addNames.2 (Or.inr hname)

theorem keys_set_eq_addNames {α : Type} (entries : Entries α) (key : String) (value : α) :
    (entries.set key value).keys = addNames entries.keys [key] :=
  (Entries.keys_set entries key value).trans (addNames_singleton entries.keys key).symm

/-- If each change adds the name that it mentions, some changes add the names
that they mention in order. -/
theorem names_foldl {σ : Type} {step : σ → Change → σ} (namesOf : σ → List String)
    (name? : Change → Option String)
    (hstep : ∀ state change,
      namesOf (step state change) = addNames (namesOf state) (name? change).toList)
    (changes : List Change) (state : σ) :
    namesOf (changes.foldl step state) =
      addNames (namesOf state) (changes.filterMap name?) := by
  induction changes generalizing state with
  | nil => exact (addNames_nil _).symm
  | cons change changes ih =>
    have hcons : (change :: changes).filterMap name? =
        (name? change).toList ++ changes.filterMap name? := by
      rw [List.filterMap_cons]
      cases name? change <;> rfl
    rw [List.foldl_cons, ih, hstep, hcons, addNames_append]

/-! ## One collection -/

/-- The name that a change gives a string. -/
def Change.stringKey? : Change → Option String
  | .setString _ key _ => some key
  | _ => none

/-- The name that a change gives a truth value. -/
def Change.boolKey? : Change → Option String
  | .setBool _ key _ => some key
  | _ => none

/-- The changes of one collection. -/
def changesWithin (collection : String) (changes : List Change) : List Change :=
  changes.filter fun change => change.collection == collection

namespace Collection

theorem stringKeys_write (content : Collection) (change : Change) :
    (content.write change).strings.keys =
      addNames content.strings.keys change.stringKey?.toList := by
  cases change with
  | setString collection key value => exact keys_set_eq_addNames _ _ _
  | create | setBool => exact (addNames_nil _).symm

theorem boolKeys_write (content : Collection) (change : Change) :
    (content.write change).bools.keys = addNames content.bools.keys change.boolKey?.toList := by
  cases change with
  | setBool collection key value => exact keys_set_eq_addNames _ _ _
  | create | setString => exact (addNames_nil _).symm

end Collection

/-! ## A document -/

namespace Document

variable (document : Document)

/-- The names of the truth values in a collection, in order. -/
def boolKeys (collection : String) : List String :=
  (document.collectionD collection).bools.keys

theorem keys_collectionD (collection : String) :
    (document.collectionD collection).strings.keys = document.stringKeys collection := by
  rw [collectionD, stringKeys]
  cases document.collections.get? collection <;> rfl

/-- The names of the strings in a collection are those that have one. -/
theorem mem_stringKeys_iff {collection key : String} :
    key ∈ document.stringKeys collection ↔ (document.getString? collection key).isSome := by
  rw [← keys_collectionD, ← strings_collectionD]
  exact Entries.mem_keys_iff

/-- A collection goes to the end when it is first named. -/
theorem collectionNames_apply (change : Change) :
    (document.apply change).collections.keys =
      addNames document.collections.keys [change.collection] := by
  rw [apply_eq]
  exact keys_set_eq_addNames _ _ _

/-- A collection depends on its own changes alone. -/
theorem collectionD_applyAll (changes : List Change) (collection : String) :
    (document.applyAll changes).collectionD collection =
      (changesWithin collection changes).foldl Collection.write
        (document.collectionD collection) := by
  induction changes generalizing document with
  | nil => rfl
  | cons change changes ih =>
    rw [applyAll_cons, ih, collectionD_apply, changesWithin, changesWithin, List.filter_cons]
    by_cases h : change.collection = collection
    · rw [if_pos h, if_pos (beq_iff_eq.2 h), List.foldl_cons]
    · rw [if_neg h, if_neg (mt beq_iff_eq.1 h)]

/-- The collections are listed in the order in which they are first named. -/
theorem collectionNames_applyAll (changes : List Change) :
    (document.applyAll changes).collections.keys =
      addNames document.collections.keys (changes.map Change.collection) := by
  rw [← List.filterMap_eq_map]
  exact names_foldl (fun document : Document => document.collections.keys)
    (some ∘ Change.collection) collectionNames_apply changes document

/-- The strings of a collection are listed in the order in which they are
first set. -/
theorem stringKeys_applyAll (changes : List Change) (collection : String) :
    (document.applyAll changes).stringKeys collection =
      addNames (document.stringKeys collection)
        ((changesWithin collection changes).filterMap Change.stringKey?) := by
  rw [← keys_collectionD, ← keys_collectionD, collectionD_applyAll]
  exact names_foldl (fun content : Collection => content.strings.keys) Change.stringKey?
    Collection.stringKeys_write _ _

/-- The truth values of a collection are listed in the order in which they are
first set. -/
theorem boolKeys_applyAll (changes : List Change) (collection : String) :
    (document.applyAll changes).boolKeys collection =
      addNames (document.boolKeys collection)
        ((changesWithin collection changes).filterMap Change.boolKey?) := by
  rw [boolKeys, boolKeys, collectionD_applyAll]
  exact names_foldl (fun content : Collection => content.bools.keys) Change.boolKey?
    Collection.boolKeys_write _ _

end Document

end TestSkeleton.Preferences
