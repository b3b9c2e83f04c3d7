/-!
# Steps that may fail

What comes of steps that may fail, taken apart into what comes of each.
-/

namespace Checkup

variable {ε α β : Type} {first : Except ε α} {result : β}

/-- What comes of two steps is what the second makes of what comes of the first. -/
theorem exists_of_bind {next : α → Except ε β} (both : (first >>= next) = .ok result) :
    ∃ a, first = .ok a ∧ next a = .ok result := by
  cases first with
  | error fault => cases both
  | ok a => exact ⟨a, rfl, both⟩

theorem exists_of_map {change : α → β} (mapped : first.map change = .ok result) :
    ∃ a, first = .ok a ∧ change a = result := by
  cases first with
  | error fault => cases mapped
  | ok a => exact ⟨a, rfl, Except.ok.inj mapped⟩

end Checkup
