/-!
# Steps that may fail

* A chain of steps has a result only if each of its steps has one:
  `exists_of_bind_eq_ok` takes it apart step by step, whatever the faults are.
* Faults and failures need not be comparable.  `eq_ok_of_toOption` and
  `exists_ok_of_toBool` are what the part that can be compared says.
-/

namespace TestSkeleton

variable {ε α β : Type} {value : α}

section

variable {first : Except ε α} {rest : α → Except ε β} {result : β}

theorem bind_eq_ok_iff :
    (first >>= rest) = .ok result ↔ ∃ value, first = .ok value ∧ rest value = .ok result := by
  cases first with
  | error fault => simp [bind, Except.bind]
  | ok value => simp [bind, Except.bind]

theorem exists_of_bind_eq_ok (h : (first >>= rest) = .ok result) :
    ∃ value, first = .ok value ∧ rest value = .ok result :=
  bind_eq_ok_iff.1 h

end

/-! ## Results that can be compared -/

variable {outcome : Except ε α}

theorem eq_ok_of_toOption (h : outcome.toOption = some value) : outcome = .ok value := by
  cases outcome with
  | error fault => cases h
  | ok found =>
    cases h
    rfl

theorem exists_ok_of_toBool (h : outcome.toBool = true) : ∃ value, outcome = .ok value := by
  cases outcome with
  | error fault => cases h
  | ok value => exact ⟨value, rfl⟩

theorem exists_error_of_toBool (h : outcome.toBool = false) : ∃ fault, outcome = .error fault := by
  cases outcome with
  | error fault => exact ⟨fault, rfl⟩
  | ok value => cases h

end TestSkeleton
