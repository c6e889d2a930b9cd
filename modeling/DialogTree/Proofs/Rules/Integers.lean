import DialogTree.Proofs.Rules.Refusals
import DialogTree.Proofs.Rules.Numbers

/-!
# Floats under rules for integers

A value that is a float is an integer for a caller and for a rule in the same cases, namely when its number is one of
the signed 64-bit range. Nothing is rounded, cut off or wrapped around, so that the integer goes back to a float
equal to the first one.
-/

namespace DialogTree

namespace Binary64

/-- An integer that is the number of some float is not rounded. -/
theorem rational?_ofInt {x : Binary64} {n : Int64} (h : x.rational? = some (n.toInt : ℚ)) :
    (ofInt n.toInt).rational? = some (n.toInt : ℚ) := by
  have hLow := n.le_toInt
  have hHigh := n.toInt_lt
  have hRange : n.toInt.natAbs < 2 ^ 64 := by omega
  apply (ofInt_isNearest hRange (by decide)).represents.resolve_right
  rintro ⟨hNone, -⟩
  exact hNone x h

theorem equals_ofInt {x : Binary64} {n : Int64} (h : x.toInt64? = some n) : (ofInt n.toInt).equals x = true := by
  have hExact := toInt64?_eq_some_iff.mp h
  exact equals_of_rational? (rational?_ofInt hExact) hExact

end Binary64

theorem IntegerRule.meets_any (number : Int64) : IntegerRule.any.Meets number :=
  ⟨by rintro _ ⟨⟩, by rintro _ ⟨⟩⟩

theorem Rule.check_any_integer_ok_iff [PatternEngine] {value accepted : Value} :
    (Rule.integer .any).check value = .ok accepted ↔
      ∃ number, value.asInteger? = some number ∧ accepted = .integer number := by
  rw [check_ok_iff]
  constructor
  · rintro ⟨number, hNumber, hAccepted, -⟩
    exact ⟨number, hNumber, hAccepted⟩
  · rintro ⟨number, hNumber, hAccepted⟩
    exact ⟨number, hNumber, hAccepted, IntegerRule.meets_any number⟩

/-- A float is given as an integer exactly when its number is that integer of the signed 64-bit range, and refused as
one in all other cases. The lowest integer is given, the first one beyond the highest is not. -/
theorem float_given_exactly [PatternEngine] (x : Binary64) :
    (∀ n : Int, (Value.float x).asInteger?.map Int64.toInt = some n ↔
      x.rational? = some (n : ℚ) ∧ -2 ^ 63 ≤ n ∧ n < 2 ^ 63) ∧
    (∀ accepted, (Rule.integer .any).checker.check (.float x) = .ok accepted ↔
      ∃ number, (Value.float x).asInteger? = some number ∧ accepted = .integer number) ∧
    ((Value.float x).asInteger? = none ↔ x.NotInt64) ∧
    (∀ reason, (Rule.integer .any).checker.check (.float x) = .error reason ↔
      x.NotInt64 ∧ reason = .fractionalInteger x) ∧
    (∀ number, (Value.float x).asInteger? = some number → (Binary64.ofInt number.toInt).equals x = true) ∧
    (Value.float (.ofInt (-2 ^ 63))).asInteger? = some Int64.minValue ∧
    (Value.float (.ofInt (2 ^ 63))).asInteger? = none := by
  rw [Rule.checker_check]
  refine ⟨fun n => Binary64.toInt64?_map_eq_some_iff, fun accepted => Rule.check_any_integer_ok_iff,
    Binary64.toInt64?_eq_none_iff, fun reason => ?_, fun number => Binary64.equals_ofInt, ?_, ?_⟩
  · rw [← Binary64.toInt64?_eq_none_iff, Rule.check]
    cases x.toInt64? with
    | none => simp [eq_comm]
    | some number => simp [IntegerRule.check_ok_iff.mpr (IntegerRule.meets_any number), Except.map]
  · decide +kernel
  · decide +kernel

theorem float_given_exactly_lowest :
    (Value.float (.ofInt (-2 ^ 63))).asInteger? = some Int64.minValue ∧
      (Binary64.ofInt Int64.minValue.toInt).equals (.ofInt (-2 ^ 63)) = true := by
  let _ := Pattern.engine
  obtain ⟨-, -, -, -, hBack, hLowest, -⟩ := float_given_exactly (.ofInt (-2 ^ 63))
  exact ⟨hLowest, hBack _ hLowest⟩

end DialogTree
