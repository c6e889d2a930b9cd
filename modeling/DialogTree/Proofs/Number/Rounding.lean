import DialogTree.Number.Decimal

/-!
# Rounding of quotients

Rounding depends on the quotient alone, keeps every magnitude that fits, and is far from zero or from the
limit where the quotient is. So a numeral may be settled by its leading digit when it is very large or very
small, and in every case it is read as the number nearest to its exact value.
-/

namespace DialogTree

namespace Binary64

theorem divRound_scale {k : Nat} (hk : 0 < k) (n d : Nat) :
    divRound (n * k) (d * k) = divRound n d := by
  have hDiv : n * k / (d * k) = n / d := Nat.mul_div_mul_right n d hk
  have hMod : n * k % (d * k) = n % d * k := Nat.mul_mod_mul_right k n d
  have hBelow : 2 * (n % d * k) < d * k ↔ 2 * (n % d) < d := by
    rw [← Nat.mul_assoc]
    exact Nat.mul_lt_mul_right hk
  have hAbove : d * k < 2 * (n % d * k) ↔ d < 2 * (n % d) := by
    rw [← Nat.mul_assoc]
    exact Nat.mul_lt_mul_right hk
  simp only [divRound, hDiv, hMod, hBelow, hAbove]

/-- Rounding depends on the quotient alone. -/
theorem round_scale {k : Nat} (hk : 0 < k) (n d : Nat) : round (n * k) (d * k) = round n d := by
  have hDiv : n * k / (d * k) = n / d := Nat.mul_div_mul_right n d hk
  simp only [round, hDiv]
  rw [Nat.mul_right_comm, divRound_scale hk]

theorem divRound_of_dvd {n d : Nat} (hd : 0 < d) : divRound (n * d) d = n := by
  simp [divRound, Nat.mul_div_cancel n hd, hd]

theorem two_pow_dvd_of_fits {units : Nat} (h : Fits units) : 2 ^ (units.log2 - 52) ∣ units := by
  obtain ⟨_, mantissa, shift, hMantissa, rfl⟩ := h
  by_cases hZero : mantissa = 0
  · simp [hZero]
  · have hLog : (mantissa * 2 ^ shift).log2 = mantissa.log2 + shift := by
      rw [Nat.log2_eq_iff (Nat.mul_ne_zero hZero (Nat.ne_of_gt (Nat.two_pow_pos shift)))]
      have hLow := Nat.log2_self_le hZero
      have hHigh : mantissa < 2 ^ (mantissa.log2 + 1) := Nat.lt_log2_self
      constructor
      · rw [Nat.pow_add]
        exact Nat.mul_le_mul_right _ hLow
      · rw [Nat.add_right_comm, Nat.pow_add]
        exact Nat.mul_lt_mul_of_pos_right hHigh (Nat.two_pow_pos shift)
    have hSmall : mantissa.log2 < 53 := (Nat.log2_lt hZero).mpr hMantissa
    rw [hLog]
    exact Nat.dvd_trans (Nat.pow_dvd_pow 2 (by omega)) (Nat.dvd_mul_left _ _)

theorem round_one_of_fits {units : Nat} (h : Fits units) : round units 1 = units := by
  obtain ⟨m, hm⟩ := two_pow_dvd_of_fits h
  simp only [round, Nat.div_one, Nat.one_mul]
  generalize 2 ^ (units.log2 - 52) = step at hm ⊢
  by_cases hStep : step = 0
  · subst hStep
    simp [hm]
  · have hm' : units = m * step := by rw [hm, Nat.mul_comm]
    rw [hm', divRound_of_dvd (Nat.pos_of_ne_zero hStep)]

theorem round_of_fits {units d : Nat} (h : Fits units) (hd : 0 < d) :
    round (units * d) d = units := by
  have hScale := round_scale hd units 1
  rw [Nat.one_mul] at hScale
  rw [hScale, round_one_of_fits h]

theorem div_le_divRound (n d : Nat) : n / d ≤ divRound n d := by
  unfold divRound
  simp only
  split
  · exact Nat.le_refl _
  · split
    · exact Nat.le_succ _
    · split
      · exact Nat.le_refl _
      · exact Nat.le_succ _

theorem two_pow_le_round {n d k : Nat} (hk : 52 ≤ k) (h : 2 ^ k ≤ n / d) : 2 ^ k ≤ round n d := by
  have hPos : n / d ≠ 0 := by
    have := Nat.two_pow_pos k
    omega
  have hLog : k ≤ (n / d).log2 := (Nat.le_log2 hPos).mpr h
  have hLead : 2 ^ (n / d).log2 ≤ n / d := Nat.log2_self_le hPos
  simp only [round]
  generalize hShift : (n / d).log2 - 52 = shift
  have hSplit : 2 ^ (n / d).log2 = 2 ^ 52 * 2 ^ shift := by
    rw [← Nat.pow_add]
    congr 1
    omega
  have hTop : 2 ^ 52 ≤ n / (d * 2 ^ shift) := by
    rw [← Nat.div_div_eq_div_mul, Nat.le_div_iff_mul_le (Nat.two_pow_pos shift), ← hSplit]
    exact hLead
  calc 2 ^ k ≤ 2 ^ (n / d).log2 := Nat.pow_le_pow_right (by decide) hLog
    _ = 2 ^ 52 * 2 ^ shift := hSplit
    _ ≤ divRound n (d * 2 ^ shift) * 2 ^ shift :=
      Nat.mul_le_mul_right _ (Nat.le_trans hTop (div_le_divRound _ _))

theorem limit_le_round {n d : Nat} (h : limit ≤ n / d) : limit ≤ round n d := by
  unfold limit at h ⊢
  exact @two_pow_le_round n d 2098 (by decide) h

theorem round_eq_zero {n d : Nat} (h : 2 * n < d) : round n d = 0 := by
  have hDiv : n / d = 0 := Nat.div_eq_of_lt (by omega)
  have hMod : n % d = n := Nat.mod_eq_of_lt (by omega)
  simp [round, hDiv, divRound, hMod, h]

theorem ofRatio_scale {k : Nat} (hk : 0 < k) (negative : Bool) (n d : Nat) :
    ofRatio negative (n * k) (d * k) = ofRatio negative n d := by
  have hScale : round (n * k * scale) (d * k) = round (n * scale) d := by
    rw [Nat.mul_right_comm, round_scale hk]
  simp only [ofRatio, ofUnits, hScale]

theorem ofUnits_of_round {negative : Bool} {n d units : Nat} (h : round n d = units)
    (hFits : Fits units) : ofUnits negative n d = finite negative units hFits := by
  subst h
  rw [ofUnits, dif_pos hFits.1]

theorem ofUnits_of_le {negative : Bool} {n d : Nat} (h : limit ≤ round n d) :
    ofUnits negative n d = infinity negative := by
  rw [ofUnits, dif_neg (Nat.not_lt.mpr h)]

end Binary64

/-! ## Numerals settled by their leading digit -/

namespace Decimal

theorem lt_ten_pow_length (n : Nat) : n < 10 ^ length n :=
  (Nat.length_toDigits_le_iff (by decide) Nat.length_toDigits_pos).mp (Nat.le_refl _)

theorem ten_pow_length_le {n k : Nat} (hn : n ≠ 0) (hk : k < length n) : 10 ^ k ≤ n := by
  by_cases hZero : k = 0
  · subst hZero
    exact Nat.one_le_iff_ne_zero.mpr hn
  · apply Nat.le_of_not_lt
    intro hLow
    have hLength : length n ≤ k :=
      (Nat.length_toDigits_le_iff (by decide) (Nat.pos_of_ne_zero hZero)).mpr hLow
    omega

theorem ratio_pos (x : Decimal) : 0 < x.ratio.2 := by
  unfold ratio
  split
  · exact Nat.one_pos
  · exact Nat.pow_pos (by decide)

theorem le_ratio {x : Decimal} {k : Nat} (hDigits : x.digits ≠ 0)
    (h : (k : Int) < length x.digits + x.exponent) : 10 ^ k * x.ratio.2 ≤ x.ratio.1 := by
  obtain ⟨digits, exponent⟩ := x
  cases exponent with
  | ofNat e =>
    simp only [ratio, Nat.mul_one, Int.ofNat_eq_natCast] at h ⊢
    have hPos : 1 ≤ length digits := Nat.length_toDigits_pos
    have hLow := ten_pow_length_le hDigits (Nat.sub_lt hPos Nat.one_pos)
    calc 10 ^ k ≤ 10 ^ (length digits - 1 + e) := Nat.pow_le_pow_right (by decide) (by omega)
      _ = 10 ^ (length digits - 1) * 10 ^ e := Nat.pow_add ..
      _ ≤ digits * 10 ^ e := Nat.mul_le_mul_right _ hLow
  | negSucc e =>
    simp only [ratio] at h ⊢
    rw [← Nat.pow_add]
    exact ten_pow_length_le hDigits (by omega)

theorem ratio_lt {x : Decimal} {k : Nat} (h : (length x.digits : Int) + x.exponent ≤ -k) :
    x.ratio.1 * 10 ^ k < x.ratio.2 := by
  obtain ⟨digits, exponent⟩ := x
  have hPos : 1 ≤ length digits := Nat.length_toDigits_pos
  cases exponent with
  | ofNat e =>
    simp only [Int.ofNat_eq_natCast] at h
    omega
  | negSucc e =>
    simp only [ratio] at h ⊢
    calc digits * 10 ^ k < 10 ^ length digits * 10 ^ k :=
          Nat.mul_lt_mul_of_pos_right (lt_ten_pow_length digits) (Nat.pow_pos (by decide))
      _ = 10 ^ (length digits + k) := (Nat.pow_add ..).symm
      _ ≤ 10 ^ (e + 1) := Nat.pow_le_pow_right (by decide) (by omega)

end Decimal

namespace Binary64

theorem limit_le_ten_pow : limit ≤ 10 ^ 310 * scale := by decide +kernel

theorem scale_lt_ten_pow : 2 * scale < 10 ^ 331 := by decide +kernel

theorem limit_mul_le {n d p : Nat} (hp : limit ≤ p * scale) (h : p * d ≤ n) :
    limit * d ≤ n * scale := by
  calc limit * d ≤ p * scale * d := Nat.mul_le_mul_right _ hp
    _ = p * d * scale := Nat.mul_right_comm ..
    _ ≤ n * scale := Nat.mul_le_mul_right _ h

theorem two_mul_scale_lt {n d p : Nat} (hp : 2 * scale < p) (h : n * p < d) :
    2 * (n * scale) < d := by
  calc 2 * (n * scale) = n * (2 * scale) := Nat.mul_left_comm ..
    _ ≤ n * p := Nat.mul_le_mul_left _ (Nat.le_of_lt hp)
    _ < d := h

/-- Reading a numeral gives the number nearest to its exact value. -/
theorem ofDecimal_eq_ofRatio (negative : Bool) (x : Decimal) :
    ofDecimal negative x = ofRatio negative x.ratio.1 x.ratio.2 := by
  have hPos := x.ratio_pos
  rw [ofDecimal]
  split
  · rename_i hDigits
    have hZero : x.ratio.1 = 0 := by
      unfold Decimal.ratio
      split <;> simp [hDigits]
    rw [ofRatio, hZero, Nat.zero_mul]
    exact (ofUnits_of_round (round_eq_zero (by omega)) fits_zero).symm
  · rename_i hDigits
    simp only
    split
    · rename_i hLarge
      have hLow := @Decimal.le_ratio x 310 hDigits hLarge
      refine (ofUnits_of_le (limit_le_round ?_)).symm
      rw [Nat.le_div_iff_mul_le hPos]
      exact limit_mul_le limit_le_ten_pow hLow
    · split
      · rename_i hSmall
        have hHigh := @Decimal.ratio_lt x 331 (by omega)
        exact (ofUnits_of_round (round_eq_zero (two_mul_scale_lt scale_lt_ten_pow hHigh))
          fits_zero).symm
      · rfl

end Binary64

end DialogTree
