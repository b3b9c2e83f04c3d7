import Checkup.Json.Reader

/-!
# Lists that are nested too deeply

A reader that has opened as many lists as may be open at once does not go on.
-/

namespace Checkup.Json

theorem foldlM_step_openList {frames : List Frame} {n : Nat} (few : frames.length < Value.depthLimit)
    (deep : Value.depthLimit ≤ frames.length + n) :
    (List.replicate n Token.openList).foldlM State.step (.needItem frames) =
      .error (.tooDeep .jsonList) := by
  induction n generalizing frames with
  | zero => omega
  | succ n ih =>
    rw [List.replicate_succ, List.foldlM_cons]
    by_cases room : frames.length + 1 < Value.depthLimit
    · have opened : State.step (.needItem frames) .openList =
          .ok (.needItem (.list [] :: frames)) := if_pos room
      rw [opened]
      exact ih room (by simp only [List.length_cons]; omega)
    · have full : State.step (.needItem frames) .openList = .error (.tooDeep .jsonList) :=
        if_neg room
      rw [full]
      rfl

theorem tokens_replicate (n : Nat) :
    tokens (List.replicate n '[') = List.replicate n .openList := by
  induction n with
  | zero => rw [List.replicate_zero, tokens, List.replicate_zero]
  | succ n ih =>
    rw [List.replicate_succ, tokens, List.replicate_succ]
    show Token.openList :: tokens (List.replicate n '[') = _
    rw [ih]

/-- One list more than may be open at once is too much. -/
theorem read_replicate {n : Nat} (deep : Value.depthLimit < n) :
    read (List.replicate n '[') = .error (.tooDeep .jsonList) := by
  obtain ⟨n, rfl⟩ : ∃ m, n = m + 1 := ⟨n - 1, by omega⟩
  have later := foldlM_step_openList (show ([] : List Frame).length < Value.depthLimit by decide)
    (show Value.depthLimit ≤ ([] : List Frame).length + n by simp only [List.length_nil]; omega)
  rw [read, tokens_replicate, List.replicate_succ, List.foldlM_cons]
  show (List.foldlM State.step (.needItem []) (List.replicate n Token.openList) >>= _) = _
  rw [later]
  rfl

end Checkup.Json
