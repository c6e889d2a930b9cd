import DialogTree.Proofs.Number.Nearest

/-!
# Floats that are integers

A float is taken as a signed 64-bit integer when its exact number is one. Every other float has a fractional part,
is no finite number, or lies beyond the range. The integer goes back to a float that is equal to the first one.
-/

namespace DialogTree

namespace Binary64

inductive NotInt64 (x : Binary64) : Prop where
  | special (hSpecial : x.rational? = none)
  | fractional {q : ℚ} (hExact : x.rational? = some q) (hPart : q.den ≠ 1)
  | beyond {n : Int} (hExact : x.rational? = some (n : ℚ)) (hRange : n < -2 ^ 63 ∨ 2 ^ 63 ≤ n)

theorem rational?_eq_int_iff {x : Binary64} (hFinite : x.isFinite = true) {n : Int} :
    x.rational? = some (n : ℚ) ↔ x.signedUnits = some (n * scale) := by
  cases x with
  | nan => cases hFinite
  | infinity negative => cases hFinite
  | finite negative units hFits =>
    rw [rational?, signedUnits, Option.some.injEq, Option.some.injEq, div_eq_iff scale_cast_pos.ne']
    exact_mod_cast Iff.rfl

theorem exists_int64 {n : Int} (hLow : -2 ^ 63 ≤ n) (hHigh : n < 2 ^ 63) : ∃ m : Int64, m.toInt = n :=
  ⟨Int64.ofInt n, Int64.toInt_ofInt_of_le hLow hHigh⟩

theorem toInt64?_eq_none_iff {x : Binary64} : x.toInt64? = none ↔ x.NotInt64 := by
  constructor
  · intro h
    cases hExact : x.rational? with
    | none => exact .special hExact
    | some q =>
      by_cases hPart : q.den = 1
      · have hWhole : (q.num : ℚ) = q := Rat.den_eq_one_iff q |>.mp hPart
        rw [← hWhole] at hExact
        apply NotInt64.beyond hExact
        by_contra hRange
        obtain ⟨m, hm⟩ := exists_int64 (n := q.num) (by omega) (by omega)
        rw [← hm, ← toInt64?_eq_some_iff, h] at hExact
        cases hExact
      · exact .fractional hExact hPart
  · intro h
    apply Option.eq_none_iff_forall_ne_some.mpr
    intro m hm
    have hInt64 := toInt64?_eq_some_iff.mp hm
    cases h with
    | special hSpecial =>
      rw [hSpecial] at hInt64
      cases hInt64
    | fractional hExact hPart =>
      rw [hExact, Option.some.injEq] at hInt64
      subst hInt64
      exact hPart (Rat.den_intCast _)
    | beyond hExact hRange =>
      rw [hExact, Option.some.injEq, Rat.intCast_inj] at hInt64
      have hLow := m.le_toInt
      have hHigh := m.toInt_lt
      omega

theorem toInt64?_map_eq_some_iff {x : Binary64} {n : Int} :
    x.toInt64?.map Int64.toInt = some n ↔ x.rational? = some (n : ℚ) ∧ -2 ^ 63 ≤ n ∧ n < 2 ^ 63 := by
  rw [Option.map_eq_some_iff]
  constructor
  · rintro ⟨m, hm, rfl⟩
    exact ⟨toInt64?_eq_some_iff.mp hm, m.le_toInt, m.toInt_lt⟩
  · rintro ⟨hExact, hLow, hHigh⟩
    obtain ⟨m, rfl⟩ := exists_int64 hLow hHigh
    exact ⟨m, toInt64?_eq_some_iff.mpr hExact, rfl⟩

/-! ## Back to floats -/

theorem equals_of_rational? {x y : Binary64} {q : ℚ} (hx : x.rational? = some q) (hy : y.rational? = some q) :
    x.equals y = true := by
  cases x with
  | nan => cases hx
  | infinity negative => cases hx
  | finite negative units hFits =>
    cases y with
    | nan => cases hy
    | infinity negative => cases hy
    | finite negative' units' hFits' =>
      rw [← hy, rational?, rational?, Option.some.injEq, div_left_inj' scale_cast_pos.ne', Rat.intCast_inj] at hx
      rw [equals, signedUnits, signedUnits, hx]
      exact beq_self_eq_true _

end Binary64

end DialogTree
