import DialogTree.Json.Problem
import DialogTree.Json.Value
import DialogTree.Parsing.Quoted
/-!
# Reading JSON

The text is read strictly. A refusal names the byte at which it is noticed: the byte about to be read, or
the last byte that was read.
-/

namespace DialogTree

namespace Json

structure Scan where
  offset : Nat
  rest : List Char

/-- A fault together with the number of bytes up to and including the one that shows it. -/
structure Refusal where
  fault : Fault
  index : Nat
deriving DecidableEq, Repr

namespace Scan

def ofChars (text : List Char) : Scan := ⟨0, text⟩

def skip (scan : Scan) (count : Nat) : Scan :=
  ⟨scan.offset + byteLength (scan.rest.take count), scan.rest.drop count⟩

def skipWhile (scan : Scan) (p : Char → Bool) : Scan :=
  ⟨scan.offset + byteLength (scan.rest.takeWhile p), scan.rest.dropWhile p⟩

/-- A fault shown by the next byte, or by the end of the text. -/
def refuse (scan : Scan) (fault : Fault) : Refusal :=
  ⟨fault, if scan.rest.isEmpty then scan.offset else scan.offset + 1⟩

/-- A fault shown by what has been read. -/
def refuseBehind (scan : Scan) (fault : Fault) : Refusal :=
  ⟨fault, scan.offset⟩

def isSpace (c : Char) : Bool :=
  c = ' ' || c = '\n' || c = '\t' || c = '\r'

def skipSpace (scan : Scan) : Scan := scan.skipWhile isSpace

end Scan

abbrev Reader (α : Type) : Type := Scan → Except Refusal (α × Scan)

/-! ## Numbers -/

/-- The largest number of digits kept exactly fits an unsigned 64-bit word. -/
def wordLimit : Nat := 2 ^ 64

/-- Digits taken into a word until one would overflow it, with how many were taken and what is left. -/
def takeDigits (word : Nat) : List Char → Nat × Nat × List Char
  | [] => (word, 0, [])
  | c :: rest =>
    let next := word * 10 + (c.toNat - '0'.toNat)
    if c.isDigit && next < wordLimit then
      let (last, count, left) := takeDigits next rest
      (last, count + 1, left)
    else (word, 0, c :: rest)

/-- The magnitude of a power of ten in units, rounded. -/
def powerOfTen (exponent : Nat) : Nat :=
  Binary64.round (10 ^ exponent * Binary64.scale) 1

def roundedProduct (a b : Nat) : Nat :=
  Binary64.round (a * b) Binary64.scale

def roundedQuotient (a b : Nat) : Nat :=
  Binary64.round (a * Binary64.scale) b

/-- Divisions by 10^308 until the exponent is in reach of one more power. -/
def scaleDown : Nat → Nat → Nat → Nat
  | 0, units, _ => units
  | steps + 1, units, exponent =>
    if exponent ≤ 308 then roundedQuotient units (powerOfTen exponent)
    else if units = 0 then 0
    else scaleDown steps (roundedQuotient units (powerOfTen 308)) (exponent - 308)

/-- The magnitude of `word · 10^exponent` in units; `none` when it is too large. The word is rounded first
and every power of ten is one more rounded step. -/
def magnitude? (word : Nat) (exponent : Int) : Option Nat :=
  let units := Binary64.round (word * Binary64.scale) 1
  match exponent with
  | .ofNat e =>
    if e ≤ 308 then
      let product := roundedProduct units (powerOfTen e)
      if product < Binary64.limit then some product else none
    else if units = 0 then some 0
    else none
  | .negSucc e => some (scaleDown (e / 308 + 2) units (e + 1))

def floatFrom (negative : Bool) (word : Nat) (exponent : Int) (scan : Scan) : Except Refusal (Value × Scan) :=
  match magnitude? word exponent with
  | none => .error (scan.refuseBehind .numberRange)
  | some units => .ok (.float (.ofUnits negative units 1), scan)

/-- The digits of an exponent; `none` is an exponent beyond 32 bits. With it comes the number of digits up
to and including the one that overflows. -/
def exponentDigits (value : Nat) : List Char → Option Nat × Nat
  | [] => (some value, 0)
  | c :: rest =>
    if c.isDigit then
      let next := value * 10 + (c.toNat - '0'.toNat)
      if next < 2 ^ 31 then
        let (last, count) := exponentDigits next rest
        (last, count + 1)
      else (none, 1)
    else (some value, 0)

def readExponent (negative : Bool) (word : Nat) (start : Int) : Reader Value := fun scan =>
  let (down, digits) := match scan.rest with
    | '+' :: _ => (false, scan.skip 1)
    | '-' :: _ => (true, scan.skip 1)
    | _ => (false, scan)
  match digits.rest with
  | [] => .error (digits.refuse .endOfValue)
  | c :: _ =>
    if c.isDigit then
      match exponentDigits 0 digits.rest with
      | (some value, count) =>
        floatFrom negative word (if down then start - value else start + value) (digits.skip count)
      | (none, count) =>
        if word ≠ 0 ∧ !down then .error ((digits.skip count).refuseBehind .numberRange)
        else .ok (.float (.ofUnits negative 0 1), digits.skipWhile Char.isDigit)
    else .error (digits.refuse .invalidNumber)

def readFloatEnd (negative : Bool) (word : Nat) (exponent : Int) : Reader Value := fun scan =>
  match scan.rest with
  | c :: _ =>
    if c = 'e' || c = 'E' then readExponent negative word exponent (scan.skip 1)
    else floatFrom negative word exponent scan
  | [] => floatFrom negative word exponent scan

/-- The digits behind the point. Those that overflow the word are passed over. -/
def readFraction (negative : Bool) (word : Nat) (exponent : Int) : Reader Value := fun scan =>
  let (last, count, left) := takeDigits word scan.rest
  let next := scan.skip count
  if left.head?.any Char.isDigit then
    readFloatEnd negative last (exponent - count) (next.skipWhile Char.isDigit)
  else if count = 0 then
    .error (next.refuse (if next.rest.isEmpty then .endOfValue else .invalidNumber))
  else readFloatEnd negative last (exponent - count) next

/-- A whole number; zero with a minus sign and numbers below the signed range are floats. -/
def wholeNumber (negative : Bool) (word : Nat) : Value :=
  if !negative then .integer word
  else if word = 0 ∨ 2 ^ 63 < word then .float (.ofRatio true word 1)
  else .integer (-word)

def readNumberEnd (negative : Bool) (word : Nat) : Reader Value := fun scan =>
  match scan.rest with
  | '.' :: _ => readFraction negative word 0 (scan.skip 1)
  | 'e' :: _ => readExponent negative word 0 (scan.skip 1)
  | 'E' :: _ => readExponent negative word 0 (scan.skip 1)
  | _ => .ok (wholeNumber negative word, scan)

/-- What follows an integer part of which some digits were passed over. -/
def readLongEnd (negative : Bool) (word passed : Nat) : Reader Value := fun scan =>
  match scan.rest with
  | '.' :: _ => readFraction negative word passed (scan.skip 1)
  | _ => readFloatEnd negative word passed scan

def readNumber (negative : Bool) : Reader Value := fun scan =>
  match scan.rest with
  | [] => .error (scan.refuse .endOfValue)
  | c :: rest =>
    if c = '0' then
      if rest.head?.any Char.isDigit then .error ((scan.skip 1).refuse .invalidNumber)
      else readNumberEnd negative 0 (scan.skip 1)
    else if c.isDigit then
      let (word, count, left) := takeDigits 0 scan.rest
      let next := scan.skip count
      if left.head?.any Char.isDigit then
        let passed := (left.takeWhile Char.isDigit).length
        readLongEnd negative word passed (next.skip passed)
      else readNumberEnd negative word next
    else .error (scan.refuse .invalidNumber)

/-! ## Strings -/

/-- Four hexadecimal digits. Their four bytes are consumed even when they are no digits. -/
def readHex : Reader Nat := fun scan =>
  let digits := scan.rest.take 4
  if digits.length = 4 && digits.all (isDigitIn 16) then .ok (valueIn 16 digits, scan.skip 4)
  else
    let left := byteLength scan.rest
    if left < 4 then .error ⟨.endOfString, scan.offset + left⟩
    else .error ⟨.invalidEscape, scan.offset + 4⟩

def isHighSurrogate (n : Nat) : Bool := 0xD800 ≤ n && n ≤ 0xDBFF

def isLowSurrogate (n : Nat) : Bool := 0xDC00 ≤ n && n ≤ 0xDFFF

/-- One expected character between the halves of a surrogate pair. -/
def expectInPair (c : Char) : Reader Unit := fun scan =>
  match scan.rest with
  | [] => .error (scan.refuse .endOfString)
  | d :: _ => if d = c then .ok ((), scan.skip 1) else .error (scan.refuse .unfinishedSurrogate)

/-- A code point in hexadecimal digits, possibly as a surrogate pair. -/
def readCodePoint : Reader Char := fun scan => do
  let (first, scan) ← readHex scan
  if isLowSurrogate first then .error (scan.refuseBehind .loneSurrogate)
  else if isHighSurrogate first then
    let (_, scan) ← expectInPair '\\' scan
    let (_, scan) ← expectInPair 'u' scan
    let (second, scan) ← readHex scan
    if isLowSurrogate second then
      .ok (Char.ofNat (0x10000 + (first - 0xD800) * 0x400 + (second - 0xDC00)), scan)
    else .error (scan.refuseBehind .loneSurrogate)
  else .ok (Char.ofNat first, scan)

def shortEscape? (c : Char) : Option Char :=
  match c with
  | '"' => some '"'
  | '\\' => some '\\'
  | '/' => some '/'
  | 'b' => some '\x08'
  | 'f' => some '\x0c'
  | 'n' => some '\n'
  | 'r' => some '\r'
  | 't' => some '\t'
  | _ => none

def readEscape : Reader Char := fun scan =>
  match scan.rest with
  | [] => .error (scan.refuse .endOfString)
  | c :: _ =>
    match shortEscape? c with
    | some spelled => .ok (spelled, scan.skip 1)
    | none => if c = 'u' then readCodePoint (scan.skip 1) else .error (scan.refuse .invalidEscape)

/-- The characters up to the closing quotation mark; each takes at least one character of the bound. -/
def readStringBody : Nat → Reader (List Char)
  | 0, scan => .error (scan.refuse .endOfString)
  | bound + 1, scan =>
    match scan.rest with
    | [] => .error (scan.refuse .endOfString)
    | c :: _ =>
      if c = '"' then .ok ([], scan.skip 1)
      else if c = '\\' then do
        let (spelled, scan) ← readEscape (scan.skip 1)
        let (text, scan) ← readStringBody bound scan
        .ok (spelled :: text, scan)
      else if c.toNat < 0x20 then .error (scan.refuse .controlCharacter)
      else do
        let (text, scan) ← readStringBody bound (scan.skip 1)
        .ok (c :: text, scan)

def readString : Reader String := fun scan => do
  let (text, scan) ← readStringBody (scan.rest.length + 1) scan
  .ok (String.ofList text, scan)

/-! ## Values -/

def readLetters (value : Value) : List Char → Reader Value
  | [], scan => .ok (value, scan)
  | letter :: letters, scan =>
    match scan.rest with
    | [] => .error (scan.refuse .endOfValue)
    | c :: _ =>
      if c = letter then readLetters value letters (scan.skip 1)
      else .error (scan.refuse .expectedIdent)

/-- The items of an array behind its opening bracket or behind an item. -/
def readItems (item : Reader Value) : Nat → Bool → Reader (List Value)
  | 0, _, scan => .error (scan.refuse .endOfArray)
  | bound + 1, isFirst, scan =>
    let scan := scan.skipSpace
    let next (scan : Scan) : Except Refusal (List Value × Scan) := do
      let (value, scan) ← item scan
      let (rest, scan) ← readItems item bound false scan
      .ok (value :: rest, scan)
    match scan.rest with
    | [] => .error (scan.refuse .endOfArray)
    | c :: _ =>
      if c = ']' then .ok ([], scan.skip 1)
      else if isFirst then next scan
      else if c = ',' then
        let scan := (scan.skip 1).skipSpace
        match scan.rest with
        | [] => .error (scan.refuse .endOfValue)
        | ']' :: _ => .error (scan.refuse .trailingComma)
        | _ => next scan
      else .error (scan.refuse .expectedArrayEnd)

def readColon : Reader Unit := fun scan =>
  let scan := scan.skipSpace
  match scan.rest with
  | [] => .error (scan.refuse .endOfObject)
  | ':' :: _ => .ok ((), scan.skip 1)
  | _ => .error (scan.refuse .expectedColon)

def readEntries (item : Reader Value) : Nat → Bool → Reader (List (String × Value))
  | 0, _, scan => .error (scan.refuse .endOfObject)
  | bound + 1, isFirst, scan =>
    let scan := scan.skipSpace
    let next (scan : Scan) : Except Refusal (List (String × Value) × Scan) :=
      match scan.rest with
      | [] => .error (scan.refuse .endOfValue)
      | c :: _ =>
        if c = '"' then do
          let (key, scan) ← readString (scan.skip 1)
          let (_, scan) ← readColon scan
          let (value, scan) ← item scan
          let (rest, scan) ← readEntries item bound false scan
          .ok ((key, value) :: rest, scan)
        else .error (scan.refuse (if c = '\x7d' then .trailingComma else .keyNotString))
    match scan.rest with
    | [] => .error (scan.refuse .endOfObject)
    | c :: _ =>
      if c = '\x7d' then .ok ([], scan.skip 1)
      else if isFirst then next scan
      else if c = ',' then next (scan.skip 1).skipSpace
      else .error (scan.refuse .expectedObjectEnd)

/-- A value; arrays and objects may nest `depth` deep. -/
def readValue : Nat → Reader Value
  | depth, scan =>
    let scan := scan.skipSpace
    match scan.rest with
    | [] => .error (scan.refuse .endOfValue)
    | c :: _ =>
      if c = 'n' then readLetters .null ['u', 'l', 'l'] (scan.skip 1)
      else if c = 't' then readLetters (.bool true) ['r', 'u', 'e'] (scan.skip 1)
      else if c = 'f' then readLetters (.bool false) ['a', 'l', 's', 'e'] (scan.skip 1)
      else if c = '-' then readNumber true (scan.skip 1)
      else if c.isDigit then readNumber false scan
      else if c = '"' then (readString (scan.skip 1)).map fun (text, scan) => (.string text, scan)
      else if c = '[' then
        match depth with
        | 0 => .error (scan.refuse .tooDeep)
        | depth + 1 =>
          (readItems (readValue depth) scan.rest.length true (scan.skip 1)).map fun (items, scan) =>
            (.array items, scan)
      else if c = '\x7b' then
        match depth with
        | 0 => .error (scan.refuse .tooDeep)
        | depth + 1 =>
          (readEntries (readValue depth) scan.rest.length true (scan.skip 1)).map
            fun (entries, scan) => (.object entries, scan)
      else .error (scan.refuse .expectedValue)

def maxDepth : Nat := 127

def read (text : List Char) : Except Refusal Value := do
  let (value, scan) ← readValue maxDepth (.ofChars text)
  let scan := scan.skipSpace
  if scan.rest.isEmpty then .ok value else .error (scan.refuse .trailingCharacters)

end Json

end DialogTree
