import DialogTree.Parsing.Quoted
import DialogTree.Parsing.Recovery
import DialogTree.Parsing.Spacing

/-!
# Reading by bytes

The readers of single pieces once more, as they run over the bytes of a text: they count in bytes, and every
text that they look at or go past is cut out of the text in front of the cursor. A cut that is out of range or
inside a character gives no result at all, so that a result is also a statement about all the cuts made for it.
-/

namespace DialogTree

/-- The first bytes of a text, when these are whole characters. -/
def takeBytes? : List Char → Nat → Option (List Char)
  | _, 0 => some []
  | [], _ + 1 => none
  | c :: text, count + 1 =>
    if c.utf8Size ≤ count + 1 then (takeBytes? text (count + 1 - c.utf8Size)).map (c :: ·) else none

/-- The text up to a later cursor, cut out by the offsets of the two. -/
def Cursor.sliceTo? (cursor later : Cursor) : Option (List Char) :=
  if cursor.offset ≤ later.offset then takeBytes? cursor.rest (later.offset - cursor.offset) else none

namespace Sliced

abbrev Reader (α : Type) : Type := Cursor → Option (Outcome α)

/-- The offset of the first character that fails a test, or of the end. -/
def bytesWhile (p : Char → Bool) (cursor : Cursor) : Nat :=
  byteLength (cursor.rest.takeWhile p)

/-! ## Words and numbers -/

def literal (text : String) : Reader String := fun cursor =>
  if text.toList.isPrefixOf cursor.rest then do
    let next ← cursor.skipBytes? text.utf8ByteSize
    let found ← cursor.sliceTo? next
    return .ok (next, String.ofList found)
  else return .error ⟨cursor.position, .literal text⟩

def identifier (lead body : Char → Bool) : Reader String := fun cursor =>
  match cursor.rest with
  | [] => return .error ⟨cursor.position, .identifier⟩
  | c :: rest =>
    if lead c then do
      let next ← cursor.skipBytes? (c.utf8Size + byteLength (rest.takeWhile body))
      let name ← cursor.sliceTo? next
      return .ok (next, String.ofList name)
    else return .error ⟨cursor.position, .identifier⟩

def natural (radix : Radix) : Reader Nat := fun cursor =>
  let count := bytesWhile (isDigitIn radix.base) cursor
  if count = 0 then return .error ⟨cursor.position, .number⟩
  else do
    let next ← cursor.skipBytes? count
    let digits ← cursor.sliceTo? next
    let value := valueIn radix.base digits
    return if value < 2 ^ 64 then .ok (next, value) else .error ⟨next.position, .numberRange⟩

def boolean : Reader Bool := fun cursor =>
  let is (text : List Char) : Bool :=
    text.isPrefixOf cursor.rest && !(cursor.rest.drop text.length).head?.any isKeyChar
  if is ['t', 'r', 'u', 'e'] then return .ok (← cursor.skipBytes? 4, true)
  else if is ['f', 'a', 'l', 's', 'e'] then return .ok (← cursor.skipBytes? 5, false)
  else return .error ⟨cursor.position, .boolean⟩

def skipSign (cursor : Cursor) : Option Cursor :=
  match cursor.rest with
  | '+' :: _ => cursor.skipBytes? 1
  | '-' :: _ => cursor.skipBytes? 1
  | _ => some cursor

/-- A number with a point; its value is that of the text that was cut out. -/
def floatLiteral : Reader Binary64 := fun cursor => do
  let unsigned ← skipSign cursor
  let whole := bytesWhile Char.isDigit unsigned
  let afterWhole ← unsigned.skipBytes? whole
  if whole = 0 then return .error ⟨afterWhole.position, .digit⟩
  else if afterWhole.peek? ≠ some '.' then return .error ⟨afterWhole.position, .point⟩
  else
    let afterPoint ← afterWhole.skipBytes? 1
    let fraction := bytesWhile Char.isDigit afterPoint
    if fraction = 0 then return .error ⟨afterPoint.position, .fractionDigit⟩
    else
      let next ← afterPoint.skipBytes? fraction
      let text ← cursor.sliceTo? next
      return (Binary64.read? text).elim (.error ⟨cursor.position, .label "malformed float literal"⟩)
        fun number => .ok (next, number)

def integerLiteral : Reader Int64 := fun cursor => do
  let unsigned ← skipSign cursor
  let count := bytesWhile Char.isDigit unsigned
  let next ← unsigned.skipBytes? count
  if count = 0 then return .error ⟨next.position, .digit⟩
  else
    let text ← cursor.sliceTo? next
    return (readInt64? text).elim (.error ⟨next.position, .integerRange⟩) fun number => .ok (next, number)

/-! ## Strings -/

/-- What an escape spells and the cursor behind it; the inner option is whether there is an escape. -/
abbrev Escape : Type := Option (Option (Cursor × Char))

/-- Octal digits are counted as bytes, three of them at most. -/
def octalEscape (cursor : Cursor) : Escape := do
  let count := ((cursor.rest.take 3).takeWhile isOctal).length
  let digits ← takeBytes? cursor.rest count
  let value := valueIn 8 digits
  if value ≤ 255 then
    let next ← cursor.skipBytes? count
    return (scalar? value).map (next, ·)
  else return none

/-- So many bytes that are hexadecimal digits. This cut may fail: then there is no escape. -/
def hexEscape (count : Nat) (cursor : Cursor) : Escape :=
  match takeBytes? cursor.rest count with
  | none => some none
  | some digits =>
    if digits.all (isDigitIn 16) then do
      let next ← cursor.skipBytes? count
      return (scalar? (valueIn 16 digits)).map (next, ·)
    else some none

def unescape (cursor : Cursor) : Escape :=
  match cursor.rest with
  | [] => some none
  | c :: _ => do
    let next ← cursor.skipBytes? c.utf8Size
    match simpleEscape? c with
    | some spelled => return some (next, spelled)
    | none =>
      if isOctal c then octalEscape cursor
      else if c = 'x' then hexEscape 2 next
      else if c = 'u' then hexEscape 4 next
      else if c = 'U' then hexEscape 8 next
      else return none

/-- The characters of a string one after another, as many as the bound allows. -/
def quotedBody (start : Position) : Nat → Reader (List Char)
  | 0, _ => none
  | bound + 1, cursor =>
    match cursor.rest with
    | [] => return .error ⟨cursor.position, .unterminatedString start⟩
    | c :: _ => do
      let next ← cursor.skipBytes? c.utf8Size
      if c = '"' then return .ok (next, [])
      else if c = '\\' then
        match ← unescape next with
        | none => return .error ⟨cursor.position, .invalidEscape next.peek?⟩
        | some (next, spelled) =>
          let rest ← quotedBody start bound next
          return rest.map fun (last, text) => (last, spelled :: text)
      else
        let rest ← quotedBody start bound next
        return rest.map fun (last, text) => (last, c :: text)

def quotedString : Reader String := fun cursor =>
  match cursor.rest with
  | '"' :: _ => do
    let next ← cursor.skipBytes? 1
    let body ← quotedBody cursor.position (cursor.rest.length + 1) next
    return body.map fun (last, text) => (last, String.ofList text)
  | _ => return .error ⟨cursor.position, .literal "\""⟩

def rawString : Reader String := fun cursor =>
  match cursor.rest with
  | '\x60' :: _ => do
    let body ← cursor.skipBytes? 1
    let close ← body.skipBytes? (bytesWhile (· != '\x60') body)
    if close.isEmpty then return .error ⟨close.position, .unterminatedRawString cursor.position⟩
    else
      let next ← close.skipBytes? 1
      let text ← body.sliceTo? close
      return .ok (next, String.ofList text)
  | _ => return .error ⟨cursor.position, .literal "\x60"⟩

/-! ## Spacing and recovery -/

/-- A comment is passed as one cut, and a blank as one. -/
def skipSpacing : Nat → Cursor → Option Cursor
  | 0, _ => none
  | bound + 1, cursor =>
    match cursor.rest with
    | [] => some cursor
    | c :: _ =>
      if c = '#' then do skipSpacing bound (← cursor.skipBytes? (bytesWhile (· != '\n') cursor))
      else if isBlank c then do skipSpacing bound (← cursor.skipBytes? c.utf8Size)
      else some cursor

def quotedBytes (quote : Char) : Bool → List Char → Nat
  | _, [] => 0
  | true, c :: rest => c.utf8Size + quotedBytes quote false rest
  | false, c :: rest =>
    if c = '\\' && quote = '"' then c.utf8Size + quotedBytes quote true rest
    else if c = quote then c.utf8Size
    else c.utf8Size + quotedBytes quote false rest

def recover (inBody : Bool) : Nat → Nat → Cursor → Option Cursor
  | 0, _, _ => none
  | bound + 1, depth, cursor =>
    match cursor.rest with
    | [] => some cursor
    | c :: _ =>
      if depth = 0 && endsCommand inBody c then some cursor
      else if c = '"' || c = '\x60' then do
        let quoted ← cursor.skipBytes? c.utf8Size
        let next ← quoted.skipBytes? (quotedBytes c false quoted.rest)
        recover inBody bound depth next
      else if c = '#' then do
        let next ← cursor.skipBytes? (bytesWhile (· != '\n') cursor)
        recover inBody bound depth next
      else do
        let next ← cursor.skipBytes? c.utf8Size
        recover inBody bound (bracketDepth depth c) next

end Sliced

end DialogTree
