import TestSkeleton.Proofs.Preferences.NameOrder

/-!
# The last writer wins

What a document holds after some changes is told from the document and the
list of changes: which collections there are, which value each name has, and
in which order everything is listed.  Carrying out the same changes once more
changes nothing.

* `IsLast` says which value is the last that some changes give to one name.
* `Document.getString?_applyAll_iff` and `getBool?_applyAll_iff` are the values
  after some changes.
* `Document.Agrees.eq_of_names` says that a document is what it shows and the
  order in which it lists it.
* `Document.applyAll_applyAll` is about changes that are carried out twice.
* `Document.lastWriter_wins` is the result.
-/

namespace TestSkeleton.Preferences

/-! ## The last value of a name -/

/-- Whether `value` is the last that some changes give to one name.  `write`
gives a value to that name. -/
def IsLast {α : Type} (write : α → Change) (changes : List Change) (value : α) : Prop :=
  ∃ front back, changes = front ++ write value :: back ∧ ∀ other, write other ∉ back

section

variable {α : Type} {write : α → Change} {read? : Change → Option α}
  (hread : ∀ change value, read? change = some value ↔ change = write value)

include hread

/-- No change gives a value just if none writes one. -/
theorem findSome?_eq_none_iff_not_mem (changes : List Change) :
    changes.findSome? read? = none ↔ ∀ other, write other ∉ changes := by
  rw [List.findSome?_eq_none_iff]
  constructor
  · intro hnone other hother
    have hsome := (hread (write other) other).2 rfl
    rw [hnone (write other) hother] at hsome
    cases hsome
  · intro hnone change hchange
    cases hvalue : read? change with
    | none => rfl
    | some value =>
      rw [(hread change value).1 hvalue] at hchange
      exact absurd hchange (hnone value)

/-- The first value from the end is the last one. -/
theorem findSome?_reverse_eq_some_iff (changes : List Change) (value : α) :
    changes.reverse.findSome? read? = some value ↔ IsLast write changes value := by
  rw [List.findSome?_eq_some_iff]
  constructor
  · rintro ⟨back, change, front, hsplit, hvalue, hback⟩
    refine ⟨front.reverse, back.reverse, ?_, ?_⟩
    · rw [← (hread change value).1 hvalue, ← List.reverse_reverse changes, hsplit]
      simp
    · have hnone := (findSome?_eq_none_iff_not_mem hread back).1
        (List.findSome?_eq_none_iff.2 hback)
      intro other hother
      exact hnone other (List.mem_reverse.1 hother)
  · rintro ⟨front, back, rfl, hback⟩
    refine ⟨back.reverse, write value, front.reverse, by simp, (hread _ value).2 rfl, ?_⟩
    have hnone := List.findSome?_eq_none_iff.1 ((findSome?_eq_none_iff_not_mem hread back).2 hback)
    intro change hchange
    exact hnone change (List.mem_reverse.1 hchange)

/-- A name has its last value, or the value from before if no change is about
it. -/
theorem or_eq_some_iff_isLast (changes : List Change) (before? : Option α) (value : α) :
    (changes.reverse.findSome? read?).or before? = some value ↔
      IsLast write changes value ∨
        (∀ other, write other ∉ changes) ∧ before? = some value := by
  rw [Option.or_eq_some_iff, findSome?_reverse_eq_some_iff hread,
    findSome?_eq_none_iff_not_mem hread]
  simp only [List.mem_reverse]

end

namespace Change

theorem string?_eq_some_iff {collection key : String} (change : Change) (value : String) :
    change.string? collection key = some value ↔ change = .setString collection key value := by
  cases change with
  | setString target name other =>
    rw [string?, Option.ite_none_right_eq_some, setString.injEq]
    grind
  | create | setBool => simp [string?]

theorem bool?_eq_some_iff {collection key : String} (change : Change) (value : Bool) :
    change.bool? collection key = some value ↔ change = .setBool collection key value := by
  cases change with
  | setBool target name other =>
    rw [bool?, Option.ite_none_right_eq_some, setBool.injEq]
    grind
  | create | setString => simp [bool?]

end Change

/-- A collection is its two tables. -/
theorem Collection.eq_of_tables {content other : Collection}
    (hstrings : content.strings = other.strings) (hbools : content.bools = other.bools) :
    content = other := by
  cases content
  cases other
  cases hstrings
  cases hbools
  rfl

namespace Document

variable (document : Document)

/-- The last change of a string decides its value. -/
theorem getString?_applyAll_iff (changes : List Change) (collection key value : String) :
    (document.applyAll changes).getString? collection key = some value ↔
      IsLast (.setString collection key) changes value ∨
        (∀ other, .setString collection key other ∉ changes) ∧
          document.getString? collection key = some value := by
  rw [getString?_applyAll]
  exact or_eq_some_iff_isLast Change.string?_eq_some_iff _ _ _

/-- The last change of a truth value decides it. -/
theorem getBool?_applyAll_iff (changes : List Change) (collection key : String) (value : Bool) :
    (document.applyAll changes).getBool? collection key = some value ↔
      IsLast (.setBool collection key) changes value ∨
        (∀ other, .setBool collection key other ∉ changes) ∧
          document.getBool? collection key = some value := by
  rw [getBool?_applyAll]
  exact or_eq_some_iff_isLast Change.bool?_eq_some_iff _ _ _

theorem contains_applyAll_iff (changes : List Change) (collection : String) :
    (document.applyAll changes).contains collection = true ↔
      document.contains collection = true ∨
        ∃ change ∈ changes, change.collection = collection := by
  rw [contains_applyAll, Bool.or_eq_true, List.any_eq_true, or_comm]
  simp only [beq_iff_eq, @eq_comm _ collection]

/-! ## What makes a document -/

/-- A collection that is there is listed with its content. -/
theorem get?_collections (collection : String) :
    document.collections.get? collection =
      if document.contains collection then some (document.collectionD collection) else none := by
  rw [contains, Entries.contains, collectionD]
  cases document.collections.get? collection <;> rfl

/-- Documents that show the same, and list it in the same order, are equal. -/
theorem Agrees.eq_of_names {document other : Document} (h : document.Agrees other)
    (hcollections : document.collections.keys = other.collections.keys)
    (hstrings : ∀ collection, document.stringKeys collection = other.stringKeys collection)
    (hbools : ∀ collection, document.boolKeys collection = other.boolKeys collection) :
    document = other := by
  have hcontent : ∀ collection,
      document.collectionD collection = other.collectionD collection := by
    intro collection
    apply Collection.eq_of_tables
    · apply Entries.eq_of_keys
      · rw [keys_collectionD, keys_collectionD, hstrings]
      · intro key
        rw [strings_collectionD, strings_collectionD, h.getString?]
    · apply Entries.eq_of_keys (hbools collection)
      intro key
      rw [bools_collectionD, bools_collectionD, h.getBool?]
  have hentries : document.collections = other.collections := by
    apply Entries.eq_of_keys hcollections
    intro collection
    rw [get?_collections, get?_collections, h.contains, hcontent]
  exact congrArg Document.mk hentries

/-! ## Changes that are carried out twice -/

/-- What is shown is the same after the second time. -/
theorem agrees_applyAll_applyAll (changes : List Change) :
    ((document.applyAll changes).applyAll changes).Agrees (document.applyAll changes) := by
  refine ⟨?_, ?_, ?_⟩
  · intro collection
    rw [contains_applyAll, contains_applyAll, ← Bool.or_assoc, Bool.or_self]
  · intro collection key
    rw [getString?_applyAll, getString?_applyAll, ← Option.or_assoc, Option.or_self]
  · intro collection key
    rw [getBool?_applyAll, getBool?_applyAll, ← Option.or_assoc, Option.or_self]

/-- Changes that are carried out once more change nothing. -/
theorem applyAll_applyAll (changes : List Change) :
    (document.applyAll changes).applyAll changes = document.applyAll changes := by
  -- No induction over the changes: the second time, each of them meets what the later ones wrote.
  -- The two documents are compared by what they show instead.
  apply (document.agrees_applyAll_applyAll changes).eq_of_names
  · rw [collectionNames_applyAll, collectionNames_applyAll, addNames_addNames]
  · intro collection
    rw [stringKeys_applyAll, stringKeys_applyAll, addNames_addNames]
  · intro collection
    rw [boolKeys_applyAll, boolKeys_applyAll, addNames_addNames]

/-! ## The result -/

/-- After some changes there are the collections from before and those that a
change names.  A string or truth value is the last that a change gives to its
name, and the one from before if none does.  Everything is listed in the order
from before, and behind it what is new, in the order of its first change.  The
same changes once more change nothing, the order included. -/
theorem lastWriter_wins (changes : List Change) :
    (∀ collection, (document.applyAll changes).contains collection = true ↔
      document.contains collection = true ∨
        ∃ change ∈ changes, change.collection = collection) ∧
    (∀ collection key value,
      (document.applyAll changes).getString? collection key = some value ↔
        IsLast (.setString collection key) changes value ∨
          (∀ other, .setString collection key other ∉ changes) ∧
            document.getString? collection key = some value) ∧
    (∀ collection key value,
      (document.applyAll changes).getBool? collection key = some value ↔
        IsLast (.setBool collection key) changes value ∨
          (∀ other, .setBool collection key other ∉ changes) ∧
            document.getBool? collection key = some value) ∧
    (document.applyAll changes).collections.keys =
      addNames document.collections.keys (changes.map Change.collection) ∧
    (∀ collection, (document.applyAll changes).stringKeys collection =
      addNames (document.stringKeys collection)
        ((changesWithin collection changes).filterMap Change.stringKey?)) ∧
    (∀ collection, (document.applyAll changes).boolKeys collection =
      addNames (document.boolKeys collection)
        ((changesWithin collection changes).filterMap Change.boolKey?)) ∧
    (document.applyAll changes).applyAll changes = document.applyAll changes := by
  refine ⟨?_, ?_, ?_, ?_, ?_, ?_, ?_⟩
  · exact document.contains_applyAll_iff changes
  · exact document.getString?_applyAll_iff changes
  · exact document.getBool?_applyAll_iff changes
  · exact document.collectionNames_applyAll changes
  · exact document.stringKeys_applyAll changes
  · exact document.boolKeys_applyAll changes
  · exact document.applyAll_applyAll changes

/-- A name that is set three times keeps its first place and has its last
value. -/
example :
    let document := applyAll {} [.setString "c" "z" "1", .setString "c" "a" "2",
      .setString "c" "z" "3", .setBool "c" "z" true, .setString "c" "z" "4"]
    document.stringKeys "c" = ["z", "a"] ∧ document.getString? "c" "z" = some "4" ∧
      document.getBool? "c" "z" = some true := by
  decide

end Document

end TestSkeleton.Preferences
