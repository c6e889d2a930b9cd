import DialogTree.Json.Relaxed
/-!
# Relaxed JSON, byte by byte

Comments and trailing commas can be blanked in the UTF-8 bytes of a text without decoding them, as every mark is a
single byte that occurs inside no longer character. What is written over the bytes of a character is then the same
for each of them.
-/

namespace DialogTree

namespace Json

def bytes (text : List Char) : List UInt8 :=
  text.flatMap String.utf8EncodeChar

/-- A space in place of one byte; a line end stays. -/
def blankByte (b : UInt8) : UInt8 :=
  if b = '\n'.toUInt8 then b else ' '.toUInt8

namespace Place

def inString (place : Place) (b : UInt8) : Place :=
  match place with
  | .string => if b = '\\'.toUInt8 then .escape else if b = '"'.toUInt8 then .code else .string
  | .escape => .string
  | _ => if b = '"'.toUInt8 then .string else .code

/-- Where the scan stands behind a byte, which may depend on the byte after it. -/
def next (place : Place) (b : UInt8) (following : Option UInt8) : Place :=
  match place with
  | .string => inString .string b
  | .escape => .string
  | .code =>
    if b = '"'.toUInt8 then .string
    else if b = '#'.toUInt8 then .line
    else if b = '/'.toUInt8 && following == some '/'.toUInt8 then .line
    else if b = '/'.toUInt8 && following == some '*'.toUInt8 then .blockStart
    else .code
  | .line => if b = '\n'.toUInt8 then .code else .line
  | .blockStart => .block
  | .block => if b = '*'.toUInt8 && following == some '/'.toUInt8 then .blockEnd else .block
  | .blockEnd => .code

end Place

inductive Region where
  | code
  | string
  | comment
deriving DecidableEq, Repr

/-- A byte lies in what the scan is in, before it or behind it: the first byte of a string or a comment opens it. -/
def Place.region (place next : Place) : Region :=
  match place with
  | .string => .string
  | .escape => .string
  | .code =>
    match next with
    | .string => .string
    | .code => .code
    | _ => .comment
  | _ => .comment

def regions : Place → List UInt8 → List Region
  | _, [] => []
  | place, b :: rest =>
    let next := place.next b rest.head?
    place.region next :: regions next rest

def blankCommentBytes : Place → List UInt8 → List UInt8
  | _, [] => []
  | place, b :: rest =>
    let next := place.next b rest.head?
    (if place.region next = .comment then blankByte b else b) :: blankCommentBytes next rest

/-- The bytes that may stand between a trailing comma and its bracket. -/
def isGapByte (b : UInt8) : Bool :=
  b = ' '.toUInt8 || b = '\t'.toUInt8 || b = '\n'.toUInt8 || b = '\x0c'.toUInt8 || b = '\r'.toUInt8

def bytesClose (rest : List UInt8) : Bool :=
  match rest.dropWhile isGapByte with
  | b :: _ => b = '\x7d'.toUInt8 || b = ']'.toUInt8
  | [] => false

def blankCommaBytes : Place → List UInt8 → List UInt8
  | _, [] => []
  | place, b :: rest =>
    let isText := place = .string ∨ place = .escape
    (if ¬ isText ∧ b = ','.toUInt8 ∧ bytesClose rest then ' '.toUInt8 else b) ::
      blankCommaBytes (place.inString b) rest

/-- The strict bytes of relaxed ones. -/
def relaxBytes (source : List UInt8) : List UInt8 :=
  blankCommaBytes .code (blankCommentBytes .code source)

end Json

end DialogTree
