import DialogTree.Number.Decimal
/-!
# Written forms of floating-point numbers

A style fixes when a number is written positionally, whether an integral number keeps a fractional digit, and
the spelling of exponents and of the values that are not finite.
-/

namespace DialogTree

structure FloatStyle where
  tie : Decimal.Tie
  /-- The leading exponents written without an exponent mark; `none` for all of them. -/
  positional : Option (Int × Int)
  /-- Whether an integral positional numeral ends in `.0`. -/
  keepsPoint : Bool
  /-- The sign written before a non-negative exponent. -/
  plus : String
  nan : String
  infinity : String
  negativeInfinity : String

namespace FloatStyle

def positionalText (style : FloatStyle) (digits : List Char) (exponent : Int) : List Char :=
  let fraction := if style.keepsPoint then ['.', '0'] else []
  match exponent with
  | .ofNat e => digits ++ List.replicate e '0' ++ fraction
  | .negSucc e =>
    let places := e + 1
    if digits.length ≤ places then
      '0' :: '.' :: List.replicate (places - digits.length) '0' ++ digits
    else
      digits.take (digits.length - places) ++ '.' :: digits.drop (digits.length - places)

def scientificText (style : FloatStyle) (digits : List Char) (leading : Int) : List Char :=
  let mantissa := match digits with
    | first :: second :: rest => first :: '.' :: second :: rest
    | other => other
  let sign := if leading < 0 then ['-'] else style.plus.toList
  mantissa ++ 'e' :: sign ++ Nat.toDigits 10 leading.natAbs

def magnitudeText (style : FloatStyle) (units : Nat) : List Char :=
  if units = 0 then style.positionalText ['0'] 0
  else
    let x := Decimal.shortest style.tie units
    let digits := Nat.toDigits 10 x.digits
    let leading := x.exponent + digits.length - 1
    let isPositional := match style.positional with
      | none => true
      | some (low, high) => low ≤ leading && leading ≤ high
    if isPositional then style.positionalText digits x.exponent
    else style.scientificText digits leading

def text (style : FloatStyle) : Binary64 → String
  | .nan => style.nan
  | .infinity negative => if negative then style.negativeInfinity else style.infinity
  | .finite negative units _ =>
    String.ofList (if negative then '-' :: style.magnitudeText units else style.magnitudeText units)

/-- Prose: positional at every size, without a fractional digit on integral numbers. -/
def plain : FloatStyle where
  tie := .upward
  positional := none
  keepsPoint := false
  plus := ""
  nan := "NaN"
  infinity := "inf"
  negativeInfinity := "-inf"

/-- Literals of the document grammar: positional, with digits on both sides of a point. -/
def literal : FloatStyle where
  tie := .upward
  positional := none
  keepsPoint := true
  plus := ""
  nan := "NaN.0"
  infinity := "inf.0"
  negativeInfinity := "-inf.0"

/-- Values shown on their own: positional from 10^-4 up to 10^16. -/
def shown : FloatStyle where
  tie := .upward
  positional := some (-4, 15)
  keepsPoint := true
  plus := ""
  nan := "NaN"
  infinity := "inf"
  negativeInfinity := "-inf"

/-- JSON numbers: positional from 10^-5 up to 10^16, signed exponents, `null` for what is not finite. -/
def json : FloatStyle where
  tie := .even
  positional := some (-5, 15)
  keepsPoint := true
  plus := "+"
  nan := "null"
  infinity := "null"
  negativeInfinity := "null"

end FloatStyle

end DialogTree
