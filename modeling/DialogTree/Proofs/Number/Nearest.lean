import Mathlib.Algebra.Order.Field.Basic
import Mathlib.Algebra.Order.Field.Rat
import DialogTree.Proofs.Number.Bounds

/-!
# Exact numbers of floats

A finite float is one exact rational number. An integer is rounded to a float that no other float is nearer
to, so that it is kept whenever some float is equal to it. A float is taken as an integer only if it is exactly
that integer.
-/

namespace DialogTree

namespace Binary64

/-! ## Magnitudes -/

/-- No multiple of the divisor is nearer than the rounded one. -/
theorem divRound_nearest (n : Nat) {d : Nat} (hd : 0 < d) (k : Nat) :
    |(divRound n d * d : Int) - n| ≤ |(k * d : Int) - n| := by
  have hSplit : n / d * d + n % d = n := by rw [Nat.mul_comm, Nat.div_add_mod]
  have hRest := Nat.mod_lt n hd
  have hSide : k * d ≤ n / d * d ∨ n / d * d + d ≤ k * d := by
    rcases Nat.lt_or_ge (n / d) k with hAbove | hBelow
    · right
      rw [← Nat.succ_mul]
      exact Nat.mul_le_mul_right d hAbove
    · exact .inl (Nat.mul_le_mul_right d hBelow)
  have hNext : (n / d + 1) * d = n / d * d + d := Nat.succ_mul _ _
  rw [Int.abs_eq_natAbs, Int.abs_eq_natAbs, ← Int.natCast_mul, ← Int.natCast_mul]
  simp only [divRound]
  split
  · omega
  · split
    · rw [hNext]
      omega
    · split
      · omega
      · rw [hNext]
        omega

/-- A magnitude of a float lies on the grid of a power of two, or its digits end below that grid. -/
theorem Fits.on_grid {units : Nat} (h : Fits units) (shift : Nat) :
    (∃ k, units = k * 2 ^ shift) ∨ 0 < shift ∧ units < 2 ^ (52 + shift) := by
  obtain ⟨-, mantissa, places, hMantissa, rfl⟩ := h
  rcases Nat.lt_or_ge places shift with hFine | hCoarse
  · refine .inr ⟨Nat.zero_lt_of_lt hFine, ?_⟩
    calc mantissa * 2 ^ places < 2 ^ 53 * 2 ^ places := Nat.mul_lt_mul_of_pos_right hMantissa (Nat.two_pow_pos _)
      _ = 2 ^ (53 + places) := (Nat.pow_add ..).symm
      _ ≤ 2 ^ (52 + shift) := Nat.pow_le_pow_right (by decide) (by omega)
  · refine .inl ⟨mantissa * 2 ^ (places - shift), ?_⟩
    rw [Nat.mul_assoc, ← Nat.pow_add, Nat.sub_add_cancel hCoarse]

/-- No magnitude of a float is nearer to a quotient than the rounded one. -/
theorem round_nearest {units : Nat} (h : Fits units) (n : Nat) {d : Nat} (hd : 0 < d) :
    |(round n d * d : Int) - n| ≤ |(units * d : Int) - n| := by
  simp only [round]
  generalize hShift : (n / d).log2 - 52 = shift
  have hStep : 0 < d * 2 ^ shift := Nat.mul_pos hd (Nat.two_pow_pos shift)
  have hRound : ∀ k : Nat, ((k * 2 ^ shift : Nat) * d : Int) = k * (d * 2 ^ shift : Nat) := by
    intro k
    rw [← Int.natCast_mul, ← Int.natCast_mul, Nat.mul_assoc, Nat.mul_comm d]
  rw [hRound]
  rcases h.on_grid shift with ⟨k, rfl⟩ | ⟨hCoarse, hBelow⟩
  · rw [hRound]
    exact divRound_nearest n hStep k
  · -- The grid is coarse only for large quotients, and its power of two is as near as any smaller number.
    have hLarge : 2 ^ 52 * (d * 2 ^ shift) ≤ n := by
      have hQuotient : n / d ≠ 0 := by
        rintro hZero
        rw [hZero, Nat.log2_zero] at hShift
        omega
      have hLead : 2 ^ (52 + shift) ≤ n / d := by
        have hExponent : (n / d).log2 = 52 + shift := by omega
        rw [← hExponent]
        exact Nat.log2_self_le hQuotient
      rw [Nat.le_div_iff_mul_le hd, Nat.pow_add, Nat.mul_assoc, Nat.mul_comm _ d] at hLead
      exact hLead
    have hUnits : units * d < 2 ^ 52 * (d * 2 ^ shift) := by
      rw [Nat.mul_left_comm, Nat.mul_comm, ← Nat.pow_add]
      exact Nat.mul_lt_mul_of_pos_left hBelow hd
    refine (divRound_nearest n hStep (2 ^ 52)).trans ?_
    rw [Int.abs_eq_natAbs, Int.abs_eq_natAbs, ← Int.natCast_mul, ← Int.natCast_mul]
    omega

/-! ## Exact numbers -/

/-- The exact number of a finite float. -/
def rational? : Binary64 → Option ℚ
  | finite negative units _ => some ((if negative then -(units : Int) else units : Int) / (scale : ℚ))
  | _ => none

/-- No finite float is nearer to the number. -/
def IsNearest (x : Binary64) (number : ℚ) : Prop :=
  ∃ q, x.rational? = some q ∧ ∀ (y : Binary64) (r : ℚ), y.rational? = some r → |q - number| ≤ |r - number|

theorem scale_cast_pos : (0 : ℚ) < scale := Nat.cast_pos.mpr scale_pos

theorem abs_div_scale_sub_le {a b n : Int} (h : |a - n * scale| ≤ |b - n * scale|) :
    |(a : ℚ) / scale - n| ≤ |(b : ℚ) / scale - n| := by
  have hDistance : ∀ c : Int, |(c : ℚ) / scale - n| = (|c - n * scale| : Int) / (scale : ℚ) := by
    intro c
    have hUnits : (c : ℚ) / scale - n = ((c - n * scale : Int) : ℚ) / scale := by
      push_cast
      rw [sub_div, mul_div_cancel_right₀ _ scale_cast_pos.ne']
    rw [hUnits, abs_div, abs_of_pos scale_cast_pos, Int.cast_abs]
  rw [hDistance, hDistance]
  exact div_le_div_of_nonneg_right (Int.cast_le.mpr h) scale_cast_pos.le

/-- An integer is rounded to a float that none is nearer to. -/
theorem ofInt_isNearest {n : Int} {k : Nat} (hRange : n.natAbs < 2 ^ k) (hk : k ≤ 1000) :
    (ofInt n).IsNearest n := by
  have hFinite := round_lt_limit hRange hk 1
  generalize hUnits : round (n.natAbs * scale) 1 = rounded at hFinite
  refine ⟨(if n < 0 then -(rounded : Int) else rounded : Int) / (scale : ℚ), ?_, ?_⟩
  · subst hUnits
    rw [ofInt, ofRatio, ofUnits, dif_pos hFinite, rational?]
    simp only [decide_eq_true_eq]
  · rintro y r hExact
    cases y with
    | nan => cases hExact
    | infinity negative => cases hExact
    | finite negative units hFits =>
      cases hExact
      apply abs_div_scale_sub_le
      have hNearest := round_nearest hFits (n.natAbs * scale) Nat.one_pos
      -- A float of the other sign is no nearer than zero.
      have hZero := round_nearest fits_zero (n.natAbs * scale) Nat.one_pos
      have hSigned : n * scale =
          if n < 0 then -((n.natAbs * scale : Nat) : Int) else ((n.natAbs * scale : Nat) : Int) := by
        split
        next hNegative => rw [Int.natCast_mul, ← Int.neg_mul, Int.ofNat_natAbs_of_nonpos hNegative.le, Int.neg_neg]
        next hPositive => rw [Int.natCast_mul, Int.natAbs_of_nonneg (Int.not_lt.mp hPositive)]
      rw [hUnits] at hNearest hZero
      rw [hSigned]
      generalize n.natAbs * scale = magnitude at hNearest hZero
      simp only [Int.abs_eq_natAbs] at hNearest hZero ⊢
      split <;> split <;> omega

theorem signed_eq_mul_iff {negative : Bool} {units d : Nat} (hd : 0 < d) {n : Int} :
    (if negative then -(units : Int) else units) = n * d ↔
      units % d = 0 ∧ (if negative then -((units / d : Nat) : Int) else (units / d : Nat)) = n := by
  constructor
  · intro h
    have hUnits : units = n.natAbs * d := by
      rw [← Int.natAbs_natCast d, ← Int.natAbs_mul, ← h]
      split <;> omega
    subst hUnits
    rw [Nat.mul_mod_left, Nat.mul_div_cancel _ hd]
    refine ⟨rfl, Int.eq_of_mul_eq_mul_right (Int.natCast_ne_zero.mpr hd.ne') ?_⟩
    rw [← h]
    split
    · rw [Int.natCast_mul, Int.neg_mul]
    · rw [Int.natCast_mul]
  · rintro ⟨hRest, rfl⟩
    have hUnits : ((units / d : Nat) : Int) * d = units := by
      rw [← Int.natCast_mul, Nat.div_mul_cancel (Nat.dvd_of_mod_eq_zero hRest)]
    split
    · rw [Int.neg_mul, hUnits]
    · exact hUnits.symm

/-- A float is taken as an integer exactly when its number is that integer. -/
theorem toInt64?_eq_some_iff {x : Binary64} {n : Int64} :
    x.toInt64? = some n ↔ x.rational? = some (n.toInt : ℚ) := by
  cases x with
  | nan => simp [toInt64?, rational?]
  | infinity negative => simp [toInt64?, rational?]
  | finite negative units hFits =>
    have hWhole : ((if negative then -(units : Int) else units : Int) : ℚ) / scale = (n.toInt : ℚ) ↔
        (if negative then -(units : Int) else units) = n.toInt * scale := by
      rw [div_eq_iff scale_cast_pos.ne']
      exact_mod_cast Iff.rfl
    rw [rational?, Option.some.injEq, hWhole, signed_eq_mul_iff scale_pos, toInt64?]
    have hLow := n.le_toInt
    have hHigh := n.toInt_lt
    generalize (if negative then -((units / scale : Nat) : Int) else (units / scale : Nat)) = whole
    constructor
    · intro h
      split at h
      · rename_i hTaken
        obtain rfl := Option.some.inj h
        exact ⟨hTaken.1, (Int64.toInt_ofInt_of_le hTaken.2.1 (by omega)).symm⟩
      · cases h
    · rintro ⟨hRest, rfl⟩
      rw [if_pos ⟨hRest, hLow, hHigh⟩, Int64.ofInt_toInt]

end Binary64

end DialogTree
