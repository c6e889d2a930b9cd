/-!
# Binary floating-point numbers of 64 bits

A finite number is a sign and a whole number of units of 2^-1074, of which at most 53 bits are significant.
Comparison and integrality are then exact integer questions. Rounding takes an exact quotient to the nearest
number, and a half to the one whose last significant bit is zero.
-/

namespace DialogTree

-- Powers are the built-in ones, also where a library offers others.
attribute [instance (high)] instPowNat
attribute [default_instance 10000] instPowNat

namespace Binary64

/-- How many units make one. -/
def scale : Nat := 2 ^ 1074

/-- The magnitude 2^1024, in units; every finite number stays below it. -/
def limit : Nat := 2 ^ 2098

/-- A magnitude that some finite number has. -/
def Fits (units : Nat) : Prop :=
  units < limit ∧ ∃ mantissa shift, mantissa < 2 ^ 53 ∧ units = mantissa * 2 ^ shift

theorem limit_pos : 0 < limit := by
  simp only [limit, Nat.two_pow_pos]

theorem fits_zero : Fits 0 :=
  ⟨limit_pos, 0, 0, by decide, rfl⟩

end Binary64

/-- Zero keeps its sign; all undefined results are one value `nan`. -/
inductive Binary64 where
  | nan
  | infinity (negative : Bool)
  | finite (negative : Bool) (units : Nat) (fits : Binary64.Fits units)
deriving DecidableEq

namespace Binary64

instance : Inhabited Binary64 := ⟨finite false 0 fits_zero⟩

/-! ## Rounding -/

/-- `n / d` to the nearest whole number; a half goes to the even neighbour. -/
def divRound (n d : Nat) : Nat :=
  let q := n / d
  let r := n % d
  if 2 * r < d then q
  else if d < 2 * r then q + 1
  else if q % 2 = 0 then q else q + 1

theorem divRound_le (n d : Nat) : divRound n d ≤ n / d + 1 := by
  unfold divRound
  simp only
  split
  · omega
  · split
    · omega
    · split <;> omega

/-- `n / d` to 53 significant bits. -/
def round (n d : Nat) : Nat :=
  let shift := (n / d).log2 - 52
  divRound n (d * 2 ^ shift) * 2 ^ shift

theorem round_fits {n d : Nat} (h : round n d < limit) : Fits (round n d) := by
  refine ⟨h, ?_⟩
  let shift := (n / d).log2 - 52
  have hq : n / (d * 2 ^ shift) < 2 ^ 53 := by
    rw [← Nat.div_div_eq_div_mul]
    apply Nat.div_lt_of_lt_mul
    calc n / d < 2 ^ ((n / d).log2 + 1) := Nat.lt_log2_self
      _ ≤ 2 ^ (shift + 53) := Nat.pow_le_pow_right (by decide) (by omega)
      _ = 2 ^ shift * 2 ^ 53 := by rw [Nat.pow_add]
  have hm := divRound_le n (d * 2 ^ shift)
  change ∃ m s, m < 2 ^ 53 ∧ divRound n (d * 2 ^ shift) * 2 ^ shift = m * 2 ^ s
  by_cases h53 : divRound n (d * 2 ^ shift) < 2 ^ 53
  · exact ⟨_, _, h53, rfl⟩
  · refine ⟨2 ^ 52, shift + 1, by decide, ?_⟩
    have : divRound n (d * 2 ^ shift) = 2 ^ 53 := by omega
    rw [this, Nat.pow_succ 2 shift]
    omega

/-- The number with the given magnitude in units, or an infinity when the magnitude is too large. -/
def ofUnits (negative : Bool) (n d : Nat) : Binary64 :=
  if h : round n d < limit then finite negative (round n d) (round_fits h) else infinity negative

/-- The number nearest to `n / d`. -/
def ofRatio (negative : Bool) (n d : Nat) : Binary64 :=
  ofUnits negative (n * scale) d

def ofInt (n : Int) : Binary64 :=
  ofRatio (n < 0) n.natAbs 1

/-! ## Comparison -/

/-- The signed magnitude in units, infinities lying one limit away from zero. -/
def signedUnits : Binary64 → Option Int
  | nan => none
  | infinity negative => some (if negative then -limit else limit)
  | finite negative units _ => some (if negative then -units else units)

/-- Numeric order; `nan` is not comparable. -/
def lt (x y : Binary64) : Bool :=
  match x.signedUnits, y.signedUnits with
  | some a, some b => a < b
  | _, _ => false

/-- Numeric equality: the zeros are equal and `nan` differs from itself. -/
def equals (x y : Binary64) : Bool :=
  match x.signedUnits, y.signedUnits with
  | some a, some b => a == b
  | _, _ => false

def isFinite : Binary64 → Bool
  | finite _ _ _ => true
  | _ => false

/-- Exactly integral numbers of the signed 64-bit range. -/
def toInt64? : Binary64 → Option Int64
  | finite negative units _ =>
    let n : Int := if negative then -(units / scale : Nat) else (units / scale : Nat)
    if units % scale = 0 ∧ -2 ^ 63 ≤ n ∧ n < 2 ^ 63 then some (Int64.ofInt n) else none
  | _ => none

end Binary64

end DialogTree
