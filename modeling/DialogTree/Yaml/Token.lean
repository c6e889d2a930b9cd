import DialogTree.Yaml.Tag
/-!
# Tokens

The text of a document becomes indicators, scalars, and the starts and ends of block collections, which
follow from the indentation. A key without an indicator of its own is recognised by the colon behind it, so
wherever a key may begin a place is kept free for the tokens in front of it.
-/

namespace DialogTree

namespace Yaml

inductive Token where
  | version (major minor : Nat)
  | handle (name lead : String)
  | documentStart
  | documentEnd
  | blockSequence
  | blockMapping
  | blockEnd
  | openSequence
  | closeSequence
  | openMapping
  | closeMapping
  | entry
  | comma
  | key
  | value
  | alias (name : String)
  | anchor (name : String)
  | tag (tag : WrittenTag)
  | scalar (style : ScalarStyle) (text : String)
deriving DecidableEq, Repr

/-! ## Directives and anchors -/

/-- A number of at most nine digits. -/
def Source.number? (source : Source) : Option (Nat × Source) :=
  let digits := source.rest.takeWhile Char.isDigit
  if digits.isEmpty || 9 < digits.length then none
  else some (digits.foldl (fun n c => 10 * n + (c.toNat - 0x30)) 0, source.skipMany digits.length)

def Source.versionDirective? (source : Source) : Option (Token × Source) := do
  let (major, next) ← (source.skipWhile isBlank).number?
  if next.rest.head? != some '.' then none
  else
    let (minor, next) ← next.skip.number?
    return (.version major minor, next)

def Source.handleDirective? (source : Source) : Option (Token × Source) := do
  let (handle, next) ← (source.skipWhile isBlank).tagHandle?
  if !(isNamedHandle handle || handle == ['!']) || !(next.rest.head?.any isBlank) then none
  else
    let (lead, next) ← (next.skipWhile isBlank).tagChars true
    if lead.isEmpty || !atGap next.rest then none
    else return (.handle (String.ofList handle) (String.ofList lead), next)

/-- A directive with the end of its line. -/
def Source.directive? (source : Source) : Option (Token × Source) := do
  let name := source.rest.drop 1 |>.takeWhile isNameChar
  let next := source.skipMany (1 + name.length)
  if !atGap next.rest then none
  else
    let (token, next) ← match String.ofList name with
      | "YAML" => next.versionDirective?
      | "TAG" => next.handleDirective?
      | _ => none
    return (token, ← next.skipComment?)

def Source.anchorName? (source : Source) : Option (String × Source) :=
  let name := source.rest.drop 1 |>.takeWhile isNameChar
  let next := source.skipMany (1 + name.length)
  if name.isEmpty then none
  else if atGap next.rest || next.rest.head?.any (fun c => "?:,]\x7d%@\x60".contains c) then
    some (String.ofList name, next)
  else none

/-! ## Scanning -/

/-- A place where a key may turn out to have begun. -/
structure KeyPlace where
  /-- Where the tokens in front of the key would go. -/
  piece : Nat
  index : Nat
  line : Nat
  column : Nat
  /-- Nothing but a key can stand here. -/
  required : Bool

/-- The longest key that is recognised by its colon. -/
def maxKeyLength : Nat := 1024

structure Scanner where
  source : Source
  /-- The tokens so far. A piece is empty while it is kept free. -/
  pieces : Array (List Token)
  /-- The columns of the open block collections, innermost first. -/
  columns : List Nat
  /-- The place of a possible key, in the innermost collection and in those around it. -/
  place : Option KeyPlace
  outer : List (Option KeyPlace)
  /-- Whether a key may begin at the source. -/
  keyAllowed : Bool

namespace Scanner

def ofText (text : String) : Scanner := ⟨.ofText text, #[], [], none, [], true⟩

def inFlow (s : Scanner) : Bool := !s.outer.isEmpty

/-- The column from which on text lies inside the innermost block collection. -/
def margin (s : Scanner) : Nat :=
  match s.columns with
  | [] => 0
  | column :: _ => column + 1

def emit (s : Scanner) (token : Token) : Scanner :=
  { s with pieces := s.pieces.push [token] }

def skip (s : Scanner) (count : Nat) : Scanner :=
  { s with source := s.source.skipMany count }

def allowKey (s : Scanner) (allowed : Bool) : Scanner :=
  { s with keyAllowed := allowed }

def dropPlace (s : Scanner) : Option Scanner :=
  if s.place.any (·.required) then none else some { s with place := none }

/-- The source as a place for a key, when a key may begin here. -/
def savePlace (s : Scanner) : Option Scanner :=
  if !s.keyAllowed then some s
  else do
    let s ← s.dropPlace
    return { s with
      pieces := s.pieces.push []
      place := some ⟨s.pieces.size, s.source.index, s.source.line, s.source.column,
        !s.inFlow && s.margin == s.source.column + 1⟩ }

/-- A key stands on one line and is not too long. -/
def isStale (s : Scanner) (place : KeyPlace) : Bool :=
  place.line < s.source.line || place.index + maxKeyLength < s.source.index

def freshPlace (s : Scanner) (place : Option KeyPlace) : Option (Option KeyPlace) :=
  match place with
  | none => some none
  | some place =>
    if !s.isStale place then some (some place)
    else if place.required then none
    else some none

/-- Places that lie too far back given up. -/
def dropStale (s : Scanner) : Option Scanner := do
  return { s with place := ← s.freshPlace s.place, outer := ← s.outer.mapM s.freshPlace }

/-- Block collections that reach to a column or further closed. -/
def closeFrom (column : Nat) (s : Scanner) : Scanner :=
  if s.inFlow then s
  else
    let closed := s.columns.takeWhile (column ≤ ·)
    { s with
      pieces := s.pieces.push (closed.map fun _ => .blockEnd)
      columns := s.columns.drop closed.length }

def opensAt (s : Scanner) (column : Nat) : Bool :=
  !s.inFlow && s.margin ≤ column

/-- A block collection begun at the source, unless the source already lies in it. -/
def openHere (s : Scanner) (token : Token) : Scanner :=
  if s.opensAt s.source.column then
    { s.emit token with columns := s.source.column :: s.columns }
  else s

/-! ### Gaps between tokens -/

/-- Tabs do not indent: outside brackets they separate tokens only where no key may begin. -/
def isSpacing (s : Scanner) (c : Char) : Bool :=
  c = ' ' || (c = '\t' && (s.inFlow || !s.keyAllowed))

def skipGap : Nat → Scanner → Scanner
  | 0, s => s
  | fuel + 1, s =>
    let source := s.source.skipWhile s.isSpacing
    let source := if source.rest.head? == some '#' then source.skipRestOfLine else source
    match source.rest with
    | [] => { s with source }
    | c :: _ =>
      if isBreak c then
        skipGap fuel { s with source := source.skipLine, keyAllowed := s.keyAllowed || !s.inFlow }
      else { s with source }

/-- The scanner in front of the next token, with everything closed that ends before it. -/
def advance (s : Scanner) : Option Scanner := do
  let s := skipGap (s.source.rest.length + 1) s
  let s ← s.dropStale
  return s.closeFrom (s.source.column + 1)

/-! ### Single tokens -/

/-- A directive or document marker ends every block. -/
def endBlocks (s : Scanner) : Option Scanner := do
  return ((← (s.closeFrom 0).dropPlace).allowKey false)

def scanDirective (s : Scanner) : Option Scanner := do
  let s ← s.endBlocks
  let (token, source) ← s.source.directive?
  return { s.emit token with source }

def scanMarker (s : Scanner) (token : Token) : Option Scanner := do
  return (← s.endBlocks).emit token |>.skip 3

/-- An opening bracket, which may itself begin a key. -/
def scanOpening (s : Scanner) (token : Token) : Option Scanner := do
  let s ← s.savePlace
  return { s.emit token with place := none, outer := s.place :: s.outer } |>.allowKey true |>.skip 1

def scanClosing (s : Scanner) (token : Token) : Option Scanner := do
  let s ← s.dropPlace
  let s := match s.outer with
    | [] => s
    | place :: outer => { s with place, outer }
  return s.emit token |>.allowKey false |>.skip 1

def scanComma (s : Scanner) : Option Scanner := do
  return (← s.dropPlace).emit .comma |>.allowKey true |>.skip 1

def scanEntry (s : Scanner) : Option Scanner := do
  if !s.inFlow && !s.keyAllowed then none
  else return (← (s.openHere .blockSequence).dropPlace).emit .entry |>.allowKey true |>.skip 1

def scanKey (s : Scanner) : Option Scanner := do
  if !s.inFlow && !s.keyAllowed then none
  else
    return (← (s.openHere .blockMapping).dropPlace).emit .key |>.allowKey (!s.inFlow) |>.skip 1

/-- The colon behind a key. The tokens in front of the key go to the place that was kept for them. -/
def scanValue (s : Scanner) : Option Scanner :=
  match s.place with
  | some place =>
    let opens := s.opensAt place.column
    let tokens := if opens then [.blockMapping, .key] else [.key]
    some ({ s with
      pieces := s.pieces.setIfInBounds place.piece tokens
      columns := if opens then place.column :: s.columns else s.columns
      place := none }.emit .value |>.allowKey false |>.skip 1)
  | none =>
    if !s.inFlow && !s.keyAllowed then none
    else some ((s.openHere .blockMapping).emit .value |>.allowKey (!s.inFlow) |>.skip 1)

def scanAnchor (s : Scanner) (token : String → Token) : Option Scanner := do
  let s ← s.savePlace
  let (name, source) ← s.source.anchorName?
  return { s.emit (token name) with source } |>.allowKey false

def scanTag (s : Scanner) : Option Scanner := do
  let s ← s.savePlace
  let (tag, source) ← s.source.tag? s.inFlow
  return { s.emit (.tag tag) with source } |>.allowKey false

def scanBlock (s : Scanner) (style : ScalarStyle) : Option Scanner := do
  let s ← s.dropPlace
  let (text, source) ← s.source.block (style == .folded) s.margin
  return { s.emit (.scalar style text) with source } |>.allowKey true

def scanQuoted (s : Scanner) (style : ScalarStyle) : Option Scanner := do
  let s ← s.savePlace
  let (text, source) ← s.source.quoted style
  return { s.emit (.scalar style text) with source } |>.allowKey false

/-- A plain scalar. A key may follow when the line ended behind it. -/
def scanPlain (s : Scanner) : Option Scanner := do
  let s ← s.savePlace
  let scalar ← s.source.plain s.inFlow s.margin
  return { s.emit (.scalar .plain (String.ofList scalar.text)) with source := scalar.source }
    |>.allowKey scalar.gap.isMultiline

/-- Characters that begin no plain scalar. -/
def isIndicator (c : Char) : Bool :=
  "-?:,[]\x7b\x7d#&*!|>'\"%@\x60".contains c

/-- Whether a plain scalar begins here. A dash, and outside brackets a question mark or a colon, may begin
one in front of a word. -/
def startsPlain (inFlow : Bool) : List Char → Bool
  | [] => false
  | c :: rest =>
    if isIndicator c then
      (c = '-' && !(rest.head?.any isBlank)) ||
        (!inFlow && (c = '?' || c = ':') && !atGap rest)
    else !(isBlank c || isBreak c)

def scanToken (s : Scanner) : Option Scanner :=
  match s.source.rest with
  | [] => none
  | c :: rest =>
    if s.source.column == 0 && c = '%' then s.scanDirective
    else if s.source.atDocumentMarker then
      s.scanMarker (if c = '-' then .documentStart else .documentEnd)
    else if c = '[' then s.scanOpening .openSequence
    else if c = '\x7b' then s.scanOpening .openMapping
    else if c = ']' then s.scanClosing .closeSequence
    else if c = '\x7d' then s.scanClosing .closeMapping
    else if c = ',' then s.scanComma
    else if c = '-' && atGap rest then s.scanEntry
    else if c = '?' && (s.inFlow || atGap rest) then s.scanKey
    else if c = ':' && (s.inFlow || atGap rest) then s.scanValue
    else if c = '*' then s.scanAnchor .alias
    else if c = '&' then s.scanAnchor .anchor
    else if c = '!' then s.scanTag
    else if c = '|' && !s.inFlow then s.scanBlock .literal
    else if c = '>' && !s.inFlow then s.scanBlock .folded
    else if c = '\'' then s.scanQuoted .single
    else if c = '"' then s.scanQuoted .double
    else if startsPlain s.inFlow s.source.rest then s.scanPlain
    else none

/-- The end of the text closes every block. -/
def finish (s : Scanner) : Option (List Token) := do
  return (← (s.closeFrom 0).dropPlace).pieces.toList.flatten

/-- Token after token; each one takes a character at least. -/
def run : Nat → Scanner → Option (List Token)
  | 0, _ => none
  | fuel + 1, s => do
    let s ← s.advance
    if s.source.rest.isEmpty then s.finish else run fuel (← s.scanToken)

end Scanner

/-- The tokens of a text. A byte order mark in front of the text takes a column. -/
def tokens (text : String) : Option (List Token) :=
  let s := Scanner.ofText text
  if !text.toList.all isAllowed then none
  else if text.toList.head? == some byteOrderMark then
    Scanner.run (text.length + 1) (s.skip 1)
  else Scanner.run (text.length + 1) s

end Yaml

end DialogTree
