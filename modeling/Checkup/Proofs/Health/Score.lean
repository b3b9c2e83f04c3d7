import Checkup.Health
import Mathlib.Data.Rat.Floor

/-!
# The law of scores

An error costs two points, and so do four warnings: with halves rounded up, the score loses a point
with every second warning (`score_eq`). It is the weighted sum of exact arithmetic, rounded
(`score_eq_floor`), so that only the numbers of errors and warnings matter and more of them are
never better (`ofFindings_law`).
-/

namespace Checkup

instance (severity : Severity) : Decidable (severity = .error) :=
  match severity with
  | .error => isTrue rfl
  | .warning => isFalse nofun
  | .reported _ => isFalse nofun

instance (severity : Severity) : Decidable (severity = .warning) :=
  match severity with
  | .warning => isTrue rfl
  | .error => isFalse nofun
  | .reported _ => isFalse nofun

theorem Severity.isError_eq (severity : Severity) : severity.isError = decide (severity = .error) := by
  cases severity <;> rfl

theorem Severity.isWarning_eq (severity : Severity) :
    severity.isWarning = decide (severity = .warning) := by
  cases severity <;> rfl

/-- The place of a grade among the grades, the worst first. -/
def Grade.rank : Grade → Nat
  | .critical => 0
  | .needsWork => 1
  | .great => 2

theorem Grade.rank_ofScore (score : Int) :
    (ofScore score).rank = if 75 ≤ score then 2 else if 50 ≤ score then 1 else 0 := by
  unfold ofScore greatFrom needsWorkFrom
  split_ifs <;> rfl

theorem Grade.rank_ofScore_le {a b : Int} (noBetter : a ≤ b) :
    (ofScore a).rank ≤ (ofScore b).rank := by
  rw [rank_ofScore, rank_ofScore]
  split_ifs <;> omega

namespace Health

theorem errors_eq_countP (findings : List Finding) :
    errors findings = findings.countP fun finding => finding.severity = .error := by
  simp only [errors, Severity.isError_eq]

theorem warnings_eq_countP (findings : List Finding) :
    warnings findings = findings.countP fun finding => finding.severity = .warning := by
  simp only [warnings, Severity.isWarning_eq]

theorem score_eq (findings : List Finding) :
    (ofFindings findings).score =
      max 0 ((100 : Int) - 2 * errors findings - (warnings findings / 2 : Nat)) := by
  have halved : ∀ halves : Int, Int.fdiv halves 2 = halves / 2 := fun halves =>
    Int.fdiv_eq_ediv_of_nonneg halves (by decide)
  simp only [ofFindings, halfPoints, halved]
  omega

theorem floor_halfPoints (errors warnings : Nat) :
    ⌊(100 - (errors * 2 + warnings * (1 / 2)) + 1 / 2 : ℚ)⌋ =
      (halfPoints errors warnings + 1) / 2 := by
  have halves : (100 - (errors * 2 + warnings * (1 / 2)) + 1 / 2 : ℚ) =
      (halfPoints errors warnings + 1 : Int) / (2 : Nat) := by
    rw [halfPoints]
    push_cast
    ring
  rw [halves, Rat.floor_intCast_div_natCast]
  rfl

theorem score_eq_floor (findings : List Finding) :
    (ofFindings findings).score =
      max 0 (min 100
        ⌊(100 - (errors findings * 2 + warnings findings * (1 / 2)) + 1 / 2 : ℚ)⌋) := by
  rw [floor_halfPoints, ← Int.fdiv_eq_ediv_of_nonneg _ (by decide)]
  rfl

/-- More findings are no better, wherever they come in the list. -/
theorem score_le_of_sublist {few more : List Finding} (kept : few.Sublist more) :
    (ofFindings more).score ≤ (ofFindings few).score := by
  have errorsKept : errors few ≤ errors more := kept.countP_le
  have warningsKept : warnings few ≤ warnings more := kept.countP_le
  rw [score_eq, score_eq]
  omega

theorem ofFindings_perm {findings others : List Finding}
    (same : (others.map Finding.severity).Perm (findings.map Finding.severity)) :
    ofFindings others = ofFindings findings := by
  have counted : ∀ isCounted : Severity → Bool,
      others.countP (fun finding => isCounted finding.severity) =
        findings.countP fun finding => isCounted finding.severity := by
    intro isCounted
    have same := same.countP_eq isCounted
    rwa [List.countP_map, List.countP_map] at same
  have sameErrors : errors others = errors findings := counted Severity.isError
  have sameWarnings : warnings others = warnings findings := counted Severity.isWarning
  rw [ofFindings, sameErrors, sameWarnings]
  rfl

/-- The score by the numbers of errors and warnings, in closed form and as the rounded sum of what
they cost. No other severity counts, nor does the order, and further findings never raise the score
or the grade. -/
theorem ofFindings_law (findings : List Finding) :
    let e := findings.countP fun finding => finding.severity = .error
    let w := findings.countP fun finding => finding.severity = .warning
    (ofFindings findings).score = max 0 ((100 : Int) - 2 * e - (w / 2 : Nat)) ∧
      (ofFindings findings).score =
        max 0 (min 100 ⌊(100 - (e * 2 + w * (1 / 2)) + 1 / 2 : ℚ)⌋) ∧
      (ofFindings findings).grade =
        (if 75 ≤ (ofFindings findings).score then .great
        else if 50 ≤ (ofFindings findings).score then .needsWork else .critical) ∧
      (∀ others, (others.map Finding.severity).Perm (findings.map Finding.severity) →
        ofFindings others = ofFindings findings) ∧
      ∀ more, findings.Sublist more →
        (ofFindings more).score ≤ (ofFindings findings).score ∧
          (ofFindings more).grade.rank ≤ (ofFindings findings).grade.rank := by
  intro e w
  have closed := score_eq findings
  have rounded := score_eq_floor findings
  rw [errors_eq_countP, warnings_eq_countP] at closed rounded
  refine ⟨closed, rounded, rfl, fun others => ofFindings_perm, ?_⟩
  intro more kept
  have noBetter := score_le_of_sublist kept
  exact ⟨noBetter, Grade.rank_ofScore_le noBetter⟩

/-- A finding of which only the severity matters. -/
def findingOf (severity : Severity) : Finding :=
  { file := "src/App.vue", plugin := "style", rule := "no-eval", severity, message := "m"
    help := "", line := 3, column := 1, category := "Security" }

/-- Twelve errors and a warning leave 76 points, in any order. A further error costs the grade. -/
theorem ofFindings_law_of_twelve_errors :
    let findings := findingOf .warning :: List.replicate 12 (findingOf .error)
    let others := List.replicate 12 (findingOf .error) ++ [findingOf .warning]
    let more := findingOf (.reported .null) :: findingOf .warning ::
      findingOf .error :: List.replicate 12 (findingOf .error)
    (others.map Finding.severity).Perm (findings.map Finding.severity) ∧
      findings.Sublist more ∧
      (ofFindings findings).score = 76 ∧ ofFindings others = ofFindings findings ∧
      (ofFindings more).score ≤ 76 ∧
      (ofFindings more).grade.rank ≤ (ofFindings findings).grade.rank := by
  intro findings others more
  have same : (others.map Finding.severity).Perm (findings.map Finding.severity) :=
    (List.perm_append_singleton _ _).map _
  have kept : findings.Sublist more :=
    (((List.Sublist.refl _).cons _).cons_cons _).cons _
  obtain ⟨closed, -, -, reordered, extended⟩ := ofFindings_law findings
  obtain ⟨score, grade⟩ := extended more kept
  have points : (ofFindings findings).score = 76 := closed.trans (by decide)
  exact ⟨same, kept, points, reordered others same, points ▸ score, grade⟩

end Health

end Checkup
