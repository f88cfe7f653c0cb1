/-!
# Results of readers and checks

When a result that is made of others is a success: each of them is one.
-/

set_option autoImplicit false

namespace Colloquy

variable {ε ε' α β : Type}

/-- Putting a result through a function succeeds exactly with the values that the function has at a
success. -/
theorem map_eq_ok_iff {f : α → β} {result : Except ε α} {y : β} :
    result.map f = .ok y ↔ ∃ x, result = .ok x ∧ f x = y := by
  cases result with
  | error e => exact ⟨nofun, nofun⟩
  | ok x =>
    constructor
    · exact fun h => ⟨x, rfl, Except.ok.inj h⟩
    · rintro ⟨_, ⟨⟩, rfl⟩
      rfl

/-- Two steps succeed exactly if the first one does and the next one with its value. -/
theorem bind_eq_ok_iff {next : α → Except ε β} {result : Except ε α} {y : β} :
    result.bind next = .ok y ↔ ∃ x, result = .ok x ∧ next x = .ok y := by
  cases result with
  | error e => exact ⟨nofun, nofun⟩
  | ok x =>
    constructor
    · exact fun h => ⟨x, rfl, h⟩
    · rintro ⟨_, ⟨⟩, h⟩
      exact h

/-- A result is the same success whatever is made of its failures. -/
theorem mapError_eq_ok_iff {f : ε → ε'} {result : Except ε α} {y : α} :
    result.mapError f = .ok y ↔ result = .ok y := by
  cases result with
  | error e => exact ⟨nofun, nofun⟩
  | ok x => exact ⟨fun h => congrArg Except.ok (Except.ok.inj h),
    fun h => congrArg Except.ok (Except.ok.inj h)⟩

/-- A result without its failure is there exactly if the result is a success. -/
theorem toOption_eq_some_iff {result : Except ε α} {x : α} :
    result.toOption = some x ↔ result = .ok x := by
  cases result with
  | error e => exact ⟨nofun, nofun⟩
  | ok y => exact ⟨fun h => congrArg Except.ok (Option.some.inj h),
    fun h => congrArg some (Except.ok.inj h)⟩

end Colloquy
