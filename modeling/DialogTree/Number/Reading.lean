import DialogTree.Number.Decimal
/-!
# Reading numerals

A numeral is read from the whole of a text. Floating-point numerals have an optional sign, digits with an
optional point, and an optional exponent; infinities and undefined results are spelled in letters.
-/

namespace DialogTree

def digitsValue (digits : List Char) : Nat :=
  Nat.ofDigitChars 10 digits 0

def splitSign : List Char → Bool × List Char
  | '-' :: rest => (true, rest)
  | '+' :: rest => (false, rest)
  | rest => (false, rest)

/-- A whole number written with digits and an optional sign. -/
def readInt? (text : List Char) : Option Int :=
  let (negative, digits) := splitSign text
  if digits.isEmpty || !digits.all Char.isDigit then none
  else some (if negative then -(digitsValue digits : Int) else digitsValue digits)

def readInt64? (text : List Char) : Option Int64 :=
  match readInt? text with
  | none => none
  | some n => if -2 ^ 63 ≤ n ∧ n < 2 ^ 63 then some (Int64.ofInt n) else none

/-- A numeral with an integer part and a fraction, given as two runs of digits. -/
def decimalOfParts (whole fraction : List Char) (exponent : Int) : Decimal :=
  ⟨digitsValue (whole ++ fraction), exponent - fraction.length⟩

namespace Binary64

def readMagnitude? (negative : Bool) (text : List Char) : Option Binary64 :=
  let whole := text.takeWhile Char.isDigit
  let afterWhole := text.dropWhile Char.isDigit
  let (fraction, afterFraction) := match afterWhole with
    | '.' :: rest => (rest.takeWhile Char.isDigit, rest.dropWhile Char.isDigit)
    | rest => ([], rest)
  if whole.isEmpty && fraction.isEmpty then none
  else match afterFraction with
    | [] => some (ofDecimal negative (decimalOfParts whole fraction 0))
    | mark :: exponent =>
      if mark == 'e' || mark == 'E' then
        (readInt? exponent).map fun e => ofDecimal negative (decimalOfParts whole fraction e)
      else none

/-- A floating-point number read from its text, rounded once. -/
def read? (text : List Char) : Option Binary64 :=
  let (negative, body) := splitSign text
  let word := String.ofList (body.map Char.toLower)
  if word == "inf" || word == "infinity" then some (infinity negative)
  else if word == "nan" then some nan
  else readMagnitude? negative body

end Binary64

end DialogTree
