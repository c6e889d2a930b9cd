import DialogTree.Proofs.Number.Rounding

/-!
# Bounds on rounding

A quotient is not rounded across a power of two, so that short numbers are finite, and what is a float already
is not rounded again.
-/

namespace DialogTree

namespace Binary64

theorem round_le_two_pow {n d k : Nat} (h : n / d < 2 ^ k) : round n d ≤ 2 ^ k := by
  simp only [round]
  generalize hShift : (n / d).log2 - 52 = shift
  -- The power is a multiple of the step that is rounded to, so that rounding up ends there at the latest.
  have hLow : shift ≤ k := by
    by_cases hZero : n / d = 0
    · rw [hZero, Nat.log2_zero] at hShift
      omega
    · have hLog : (n / d).log2 < k := (Nat.log2_lt hZero).mpr h
      omega
  have hSplit : 2 ^ k = 2 ^ (k - shift) * 2 ^ shift := by
    rw [← Nat.pow_add, Nat.sub_add_cancel hLow]
  have hTop : n / (d * 2 ^ shift) < 2 ^ (k - shift) := by
    rw [← Nat.div_div_eq_div_mul, Nat.div_lt_iff_lt_mul (Nat.two_pow_pos shift), ← hSplit]
    exact h
  have hRound := divRound_le n (d * 2 ^ shift)
  rw [hSplit]
  exact Nat.mul_le_mul_right _ (by omega)

theorem scale_pos : 0 < scale := by
  simp only [scale, Nat.two_pow_pos]

theorem two_pow_scale (k : Nat) : 2 ^ k * scale = 2 ^ (k + 1074) := by
  rw [scale, Nat.pow_add]

theorem two_pow_le_limit {k : Nat} (h : k ≤ 2098) : 2 ^ k ≤ limit := by
  have hPow : ∀ top, k ≤ top → 2 ^ k ≤ 2 ^ top := fun _ => Nat.pow_le_pow_right (by decide)
  rw [limit]
  exact hPow 2098 h

theorem round_lt_limit {n k : Nat} (h : n < 2 ^ k) (hk : k ≤ 1000) (d : Nat) : round (n * scale) d < limit := by
  have hQuotient : n * scale / d < 2 ^ (k + 1074) := by
    calc n * scale / d ≤ n * scale := Nat.div_le_self _ _
      _ < 2 ^ k * scale := Nat.mul_lt_mul_of_pos_right h scale_pos
      _ = 2 ^ (k + 1074) := two_pow_scale k
  calc round (n * scale) d ≤ 2 ^ (k + 1074) := round_le_two_pow hQuotient
    _ < 2 ^ (k + 1074 + 1) := Nat.pow_lt_pow_right (by decide) (Nat.lt_succ_self _)
    _ ≤ limit := two_pow_le_limit (by omega)

theorem isFinite_ofRatio {n k : Nat} (h : n < 2 ^ k) (hk : k ≤ 1000) (negative : Bool) (d : Nat) :
    (ofRatio negative n d).isFinite = true := by
  rw [ofRatio, ofUnits, dif_pos (round_lt_limit h hk d)]
  rfl

theorem ofUnits_round {n d : Nat} (h : round n d < limit) (negative : Bool) :
    ofUnits negative (round n d) 1 = ofUnits negative n d := by
  rw [ofUnits_of_round (round_one_of_fits (round_fits h)) (round_fits h), ofUnits, dif_pos h]

theorem fits_scale {mantissa shift : Nat} (hMantissa : mantissa < 2 ^ 53) (hShift : shift ≤ 22) :
    Fits (mantissa * 2 ^ shift * scale) := by
  have hValue : mantissa * 2 ^ shift * scale = mantissa * 2 ^ (shift + 1074) := by
    rw [Nat.mul_assoc, two_pow_scale]
  refine ⟨?_, mantissa, _, hMantissa, hValue⟩
  calc mantissa * 2 ^ shift * scale = mantissa * 2 ^ (shift + 1074) := hValue
    _ < 2 ^ 53 * 2 ^ (shift + 1074) := Nat.mul_lt_mul_of_pos_right hMantissa (Nat.two_pow_pos _)
    _ = 2 ^ (53 + (shift + 1074)) := (Nat.pow_add ..).symm
    _ ≤ limit := two_pow_le_limit (by omega)

theorem fits_ten_pow {places : Nat} (h : places ≤ 22) : Fits (10 ^ places * scale) := by
  have hFive : 5 ^ places < 2 ^ 53 :=
    Nat.lt_of_le_of_lt (Nat.pow_le_pow_right (by decide) h) (by decide)
  have hTen : 10 ^ places = 5 ^ places * 2 ^ places := by
    rw [← Nat.mul_pow]
  rw [hTen]
  exact fits_scale hFive h

end Binary64

end DialogTree
