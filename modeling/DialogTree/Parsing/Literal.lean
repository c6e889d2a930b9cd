import DialogTree.Number.Reading
import DialogTree.Parsing.Parser
import DialogTree.Text.Classes
/-!
# Words, names and numbers

Fixed texts, runs of characters of a class, and the spellings of truth values and numbers. Each takes the
longest run that it can.
-/

namespace DialogTree

def literal (text : String) : Lexeme String := fun cursor =>
  if text.toList.isPrefixOf cursor.rest then .ok (cursor.skip text.toList.length, text)
  else .error ⟨cursor.position, .literal text⟩

def identifier (lead body : Char → Bool) : Lexeme String := fun cursor =>
  match cursor.rest with
  | [] => .error ⟨cursor.position, .identifier⟩
  | c :: rest =>
    if lead c then
      let name := c :: rest.takeWhile body
      .ok (cursor.skip name.length, String.ofList name)
    else .error ⟨cursor.position, .identifier⟩

/-! ## Natural numbers -/

/-- The value of a letter or digit as a digit. -/
def digitValue? (c : Char) : Option Nat :=
  if '0' ≤ c ∧ c ≤ '9' then some (c.toNat - '0'.toNat)
  else if 'a' ≤ c ∧ c ≤ 'z' then some (c.toNat - 'a'.toNat + 10)
  else if 'A' ≤ c ∧ c ≤ 'Z' then some (c.toNat - 'A'.toNat + 10)
  else none

def isDigitIn (radix : Nat) (c : Char) : Bool :=
  match digitValue? c with
  | some value => value < radix
  | none => false

def valueIn (radix : Nat) (digits : List Char) : Nat :=
  digits.foldl (fun value c => value * radix + (digitValue? c).getD 0) 0

/-- A radix with a digit for every remainder. -/
structure Radix where
  base : Nat
  bounds : 2 ≤ base ∧ base ≤ 36

namespace Radix

def ofNat? (base : Nat) : Option Radix :=
  if h : 2 ≤ base ∧ base ≤ 36 then some ⟨base, h⟩ else none

def ten : Radix := ⟨10, by decide⟩

end Radix

def natural (radix : Radix) : Lexeme Nat := fun cursor =>
  let digits := cursor.takeWhile (isDigitIn radix.base)
  let next := cursor.skipWhile (isDigitIn radix.base)
  if digits.isEmpty then .error ⟨cursor.position, .number⟩
  else
    let value := valueIn radix.base digits
    if value < 2 ^ 64 then .ok (next, value) else .error ⟨next.position, .numberRange⟩

/-! ## Literals of values -/

/-- `true` or `false`, when no character of a name follows. -/
def boolean : Lexeme Bool := fun cursor =>
  let is (text : List Char) : Bool :=
    text.isPrefixOf cursor.rest && !(cursor.rest.drop text.length).head?.any isKeyChar
  if is ['t', 'r', 'u', 'e'] then .ok (cursor.skip 4, true)
  else if is ['f', 'a', 'l', 's', 'e'] then .ok (cursor.skip 5, false)
  else .error ⟨cursor.position, .boolean⟩

def Cursor.skipSign (cursor : Cursor) : Cursor :=
  match cursor.rest with
  | '+' :: _ => cursor.skip 1
  | '-' :: _ => cursor.skip 1
  | _ => cursor

/-- Digits on both sides of a point, with an optional sign. -/
def floatLiteral : Lexeme Binary64 := fun cursor =>
  let unsigned := cursor.skipSign
  let whole := unsigned.takeWhile Char.isDigit
  let afterWhole := unsigned.skipWhile Char.isDigit
  if whole.isEmpty then .error ⟨afterWhole.position, .digit⟩
  else if afterWhole.peek? ≠ some '.' then .error ⟨afterWhole.position, .point⟩
  else
    let afterPoint := afterWhole.skip 1
    let fraction := afterPoint.takeWhile Char.isDigit
    if fraction.isEmpty then .error ⟨afterPoint.position, .fractionDigit⟩
    else
      .ok (afterPoint.skipWhile Char.isDigit,
        .ofDecimal (cursor.peek? == some '-') (decimalOfParts whole fraction 0))

def integerLiteral : Lexeme Int64 := fun cursor =>
  let unsigned := cursor.skipSign
  let digits := unsigned.takeWhile Char.isDigit
  let next := unsigned.skipWhile Char.isDigit
  if digits.isEmpty then .error ⟨next.position, .digit⟩
  else match readInt64? (cursor.textTo next) with
    | some number => .ok (next, number)
    | none => .error ⟨next.position, .integerRange⟩

end DialogTree
