import DialogTree.Number.Binary64
/-!
# Decimal numerals of floating-point numbers

Reading rounds the exact decimal value once. Writing takes the fewest digits that read back to the same
number, and among those the nearest to it.
-/

namespace DialogTree

/-- The numeral `digits · 10^exponent`. -/
structure Decimal where
  digits : Nat
  exponent : Int
deriving DecidableEq, Repr

namespace Decimal

/-- The number of decimal digits of a positive number. -/
def length (n : Nat) : Nat :=
  (Nat.toDigits 10 n).length

def ratio (x : Decimal) : Nat × Nat :=
  match x.exponent with
  | .ofNat e => (x.digits * 10 ^ e, 1)
  | .negSucc e => (x.digits, 10 ^ (e + 1))

/-- The magnitude of a numeral in units, to 53 significant bits. -/
def units (x : Decimal) : Nat :=
  Binary64.round (x.ratio.1 * Binary64.scale) x.ratio.2

/-- Which of two equally near numerals is written. -/
inductive Tie where
  | upward
  | even
deriving DecidableEq, Repr

/-- `units / (scale · 10^exponent)`, the number measured on the grid of one power of ten. -/
def gridRatio (units : Nat) : Int → Nat × Nat
  | .ofNat e => (units, Binary64.scale * 10 ^ e)
  | .negSucc e => (units * 10 ^ (e + 1), Binary64.scale)

/-- Whether the upper of two neighbouring whole numbers is taken for the quotient `n / d`. -/
def takesUpper (tie : Tie) (n d : Nat) : Bool :=
  let rest := n % d
  if 2 * rest = d then
    match tie with
    | .upward => true
    | .even => n / d % 2 == 1
  else d < 2 * rest

/-- The nearer neighbour of a number on one decimal grid, of those that read back to it. -/
def onGrid? (tie : Tie) (units : Nat) (exponent : Int) : Option Decimal :=
  let (n, d) := gridRatio units exponent
  let low : Decimal := ⟨n / d, exponent⟩
  let high : Decimal := ⟨n / d + 1, exponent⟩
  (if takesUpper tie n d then [high, low] else [low, high]).find? fun x => x.units == units

/-- The exponent of the leading digit of a positive magnitude. -/
def leadingExponent (units : Nat) : Int :=
  (length (units * 10 ^ 330 / Binary64.scale) : Int) - 331

/-- The numeral of one positive magnitude with the fewest digits that reads back to it. -/
def shortest (tie : Tie) (units : Nat) : Decimal :=
  let top := leadingExponent units
  ((List.range 18).findSome? fun count : Nat => onGrid? tie units (top + 1 - count)).getD
    ⟨units * 5 ^ 1074, -1074⟩

theorem units_onGrid? {tie : Tie} {units : Nat} {exponent : Int} {x : Decimal}
    (h : onGrid? tie units exponent = some x) : x.units = units := by
  simpa using List.find?_some h

end Decimal

namespace Binary64

/-- The number nearest to a numeral. Numerals too large or too small for any finite number are settled by
their leading digit alone. -/
def ofDecimal (negative : Bool) (x : Decimal) : Binary64 :=
  if x.digits = 0 then finite negative 0 fits_zero
  else
    let leading : Int := Decimal.length x.digits + x.exponent
    if 310 < leading then infinity negative
    else if leading < -330 then finite negative 0 fits_zero
    else ofRatio negative x.ratio.1 x.ratio.2

end Binary64

end DialogTree
