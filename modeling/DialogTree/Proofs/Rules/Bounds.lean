import DialogTree.Proofs.Rules.Forms
import DialogTree.Proofs.Structure

/-!
# Bounds on floats

A rule for floats tests whether a number is below one limit or above the other. A number that passes lies
within the limits, with one exception: `nan` is comparable with no limit, and so passes under every rule.
-/

namespace DialogTree

namespace Binary64

/-- Numeric order up to equality; `nan` is in no order. -/
def le (x y : Binary64) : Bool :=
  x.lt y || x.equals y

theorem signedUnits_eq_none_iff {x : Binary64} : x.signedUnits = none ↔ x = nan := by
  cases x <;> simp only [signedUnits, reduceCtorEq]

theorem lt_eq_false_iff {x y : Binary64} : x.lt y = false ↔ x = nan ∨ y = nan ∨ y.le x = true := by
  rw [← signedUnits_eq_none_iff, ← signedUnits_eq_none_iff, le, lt, lt, equals]
  cases x.signedUnits with
  | none => simp
  | some a =>
    cases y.signedUnits with
    | none => simp
    | some b =>
      simp only [reduceCtorEq, false_or, decide_eq_false_iff_not, Bool.or_eq_true, decide_eq_true_eq, beq_iff_eq]
      omega

end Binary64

/-- The number lies within every limit that is a number. -/
structure FloatRule.Bounds (rule : FloatRule) (x : Binary64) : Prop where
  min : ∀ min ∈ rule.min, min ≠ .nan → min.le x = true
  max : ∀ max ∈ rule.max, max ≠ .nan → x.le max = true

theorem FloatRule.meets_iff {rule : FloatRule} {x : Binary64} : rule.Meets x ↔ x = .nan ∨ rule.Bounds x := by
  constructor
  · intro h
    refine or_iff_not_imp_left.mpr fun hNumber => ⟨fun min hMin hLimit => ?_, fun max hMax hLimit => ?_⟩
    · exact ((Binary64.lt_eq_false_iff.mp (h.min min hMin)).resolve_left hNumber).resolve_left hLimit
    · exact ((Binary64.lt_eq_false_iff.mp (h.max max hMax)).resolve_left hLimit).resolve_left hNumber
  · rintro (rfl | h)
    · exact ⟨fun _ _ => Binary64.lt_eq_false_iff.mpr (.inl rfl),
        fun _ _ => Binary64.lt_eq_false_iff.mpr (.inr (.inl rfl))⟩
    · refine ⟨fun min hMin => ?_, fun max hMax => ?_⟩
      · exact Binary64.lt_eq_false_iff.mpr (.inr (or_iff_not_imp_left.mpr (h.min min hMin)))
      · exact Binary64.lt_eq_false_iff.mpr (or_iff_not_imp_left.mpr fun hLimit => .inr (h.max max hMax hLimit))

theorem FloatRule.bounds_of_le {low high x : Binary64} (hLow : low.le x = true) (hHigh : x.le high = true) :
    Bounds ⟨some low, some high⟩ x := by
  constructor
  · rintro _ ⟨⟩ _
    exact hLow
  · rintro _ ⟨⟩ _
    exact hHigh

namespace Rule

/-- Every value that a rule for floats governs, at any depth of a list, is a float within its limits or `nan`. -/
def FloatsBounded : Rule → Value → Prop
  | float rule, value => ∃ x, value = .float x ∧ (x = .nan ∨ rule.Bounds x)
  | list item _ _, value => ∃ items, value = .list items ∧ ∀ entry ∈ items, item.FloatsBounded entry
  | _, _ => True

theorem Accepts.floatsBounded [PatternEngine] {rule : Rule} {value accepted : Value} (h : rule.Accepts value accepted) :
    rule.FloatsBounded accepted := by
  induction rule generalizing value accepted with
  | float rule =>
    obtain ⟨x, -, rfl, hMeets⟩ := h
    exact ⟨x, rfl, FloatRule.meets_iff.mp hMeets⟩
  | list item minLength maxLength ih =>
    obtain ⟨items, others, -, rfl, -, hItems⟩ := h
    refine ⟨others, rfl, fun entry hEntry => ?_⟩
    obtain ⟨original, -, hAccepts⟩ := exists_left_of_forall₂ hItems entry hEntry
    exact ih hAccepts
  | _ => trivial

end Rule

/-- A float in an accepted form, at any depth of a list, lies within the limits of its rule or is `nan`, and a rule
for floats accepts precisely the numbers of which that holds. -/
theorem accepted_floats_bounded [PatternEngine] (rule : Rule) (limits : FloatRule) (value accepted : Value) :
    (rule.checker.check value = .ok accepted → rule.FloatsBounded accepted) ∧
    ((Rule.float limits).checker.check value = .ok accepted ↔
      ∃ x, value.asFloat? = some x ∧ accepted = .float x ∧ (x = .nan ∨ limits.Bounds x)) := by
  constructor
  · intro hCheck
    exact (Rule.check_ok_iff.mp hCheck).floatsBounded
  · simp only [← FloatRule.meets_iff]
    exact Rule.check_ok_iff

/-- Numbers from 0 to 1. -/
def unitInterval : FloatRule :=
  ⟨some (.ofInt 0), some (.ofInt 1)⟩

theorem accepted_floats_bounded_shares :
    letI := Pattern.engine
    (Rule.list (.float unitInterval) none none).checker.check (.list [.integer 1]) =
      .ok (.list [.float (.ofInt 1)]) ∧
    (Rule.list (.float unitInterval) none none).FloatsBounded (.list [.float (.ofInt 1)]) := by
  let _ := Pattern.engine
  have hOne : unitInterval.Bounds (.ofInt 1) := FloatRule.bounds_of_le (by decide +kernel) (by decide +kernel)
  have hCheck : (Rule.list (.float unitInterval) none none).checker.check (.list [.integer 1]) =
      .ok (.list [.float (.ofInt 1)]) := by
    rw [Rule.checker_check, Rule.check_ok_iff]
    refine ⟨_, _, rfl, rfl, ⟨by rintro _ ⟨⟩, by rintro _ ⟨⟩⟩, .cons ⟨_, rfl, rfl, ?_⟩ .nil⟩
    exact FloatRule.meets_iff.mpr (.inr hOne)
  exact ⟨hCheck, (accepted_floats_bounded _ unitInterval _ _).1 hCheck⟩

/-- A rule with two limits that are numbers accepts `nan`, which is neither at least the lower nor at most the
upper one. -/
theorem nan_within_limits :
    letI := Pattern.engine
    (Rule.float unitInterval).checker.check (.float .nan) = .ok (.float .nan) ∧
    (Binary64.ofInt 0).le .nan = false ∧ Binary64.nan.le (.ofInt 1) = false := by
  let _ := Pattern.engine
  refine ⟨?_, by decide +kernel, by decide +kernel⟩
  rw [Rule.checker_check, Rule.check_ok_iff]
  exact ⟨.nan, rfl, rfl, FloatRule.meets_iff.mpr (.inl rfl)⟩

end DialogTree
