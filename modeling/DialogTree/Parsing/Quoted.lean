import DialogTree.Parsing.Literal
/-!
# Quoted and raw strings

Between quotation marks a character stands for itself or is spelled by an escape. Between back quotes every
character stands for itself.
-/

namespace DialogTree

def scalar? (n : Nat) : Option Char :=
  if n.isValidChar then some (Char.ofNat n) else none

def isOctal (c : Char) : Bool :=
  '0' ≤ c && c ≤ '7'

def simpleEscape? (c : Char) : Option Char :=
  match c with
  | 'n' => some '\n'
  | 't' => some '\t'
  | 'r' => some '\r'
  | 'a' => some '\x07'
  | 'b' => some '\x08'
  | 'f' => some '\x0c'
  | 'v' => some '\x0b'
  | '\\' => some '\\'
  | '"' => some '"'
  | '\x27' => some '\x27'
  | '?' => some '?'
  | _ => none

/-- Exactly `count` hexadecimal digits that name a scalar value. -/
def hexEscape? (count : Nat) (text : List Char) : Option Char :=
  let digits := text.take count
  if digits.length = count && digits.all (isDigitIn 16) then scalar? (valueIn 16 digits) else none

/-- One to three octal digits, as many as stand there, of a value of at most 255. -/
def octalEscape? (text : List Char) : Option (Char × Nat) :=
  let digits := (text.take 3).takeWhile isOctal
  let value := valueIn 8 digits
  if value ≤ 255 then (scalar? value).map fun c => (c, digits.length) else none

/-- The character spelled behind a backslash, and how many characters spell it. -/
def unescape? : List Char → Option (Char × Nat)
  | [] => none
  | c :: rest =>
    match simpleEscape? c with
    | some spelled => some (spelled, 1)
    | none =>
      if isOctal c then octalEscape? (c :: rest)
      else if c = 'x' then (hexEscape? 2 rest).map (·, 3)
      else if c = 'u' then (hexEscape? 4 rest).map (·, 5)
      else if c = 'U' then (hexEscape? 8 rest).map (·, 9)
      else none

def quotedBody (start : Position) (cursor : Cursor) : Outcome (List Char) :=
  match _h : cursor.rest with
  | [] => .error ⟨cursor.position, .unterminatedString start⟩
  | c :: rest =>
    if c = '"' then .ok (cursor.skip 1, [])
    else if c = '\\' then
      match unescape? rest with
      | none => .error ⟨cursor.position, .invalidEscape rest.head?⟩
      | some (spelled, count) =>
        (quotedBody start (cursor.skip (count + 1))).map fun (next, text) =>
          (next, spelled :: text)
    else (quotedBody start (cursor.skip 1)).map fun (next, text) => (next, c :: text)
termination_by cursor.rest.length
decreasing_by all_goals (simp [_h]; try omega)

def quotedString : Lexeme String := fun cursor =>
  match cursor.rest with
  | '"' :: _ =>
    (quotedBody cursor.position (cursor.skip 1)).map fun (next, text) =>
      (next, String.ofList text)
  | _ => .error ⟨cursor.position, .literal "\""⟩

def rawString : Lexeme String := fun cursor =>
  match cursor.rest with
  | '\x60' :: _ =>
    let body := cursor.skip 1
    let text := body.takeWhile (· != '\x60')
    let close := body.skipWhile (· != '\x60')
    if close.isEmpty then .error ⟨close.position, .unterminatedRawString cursor.position⟩
    else .ok (close.skip 1, String.ofList text)
  | _ => .error ⟨cursor.position, .literal "\x60"⟩

end DialogTree
