import DialogTree.Yaml.Source
/-!
# Scalars

Quoted and plain scalars are words with gaps between them. A gap of blanks on one line stands as it is; a
gap with line breaks folds: one break becomes a space, and of several breaks the first one is dropped. Block
scalars are lines below an indentation.
-/

namespace DialogTree

namespace Yaml

inductive ScalarStyle where
  | plain
  | single
  | double
  | literal
  | folded
deriving DecidableEq, Repr

/-! ## Gaps -/

structure Gap where
  /-- The gap begins with a line break behind a backslash, which leaves no trace. -/
  joined : Bool
  /-- The blanks in front of the first break. -/
  blanks : List Char
  breaks : List Char

namespace Gap

def empty : Gap := ⟨false, [], []⟩

def isMultiline (gap : Gap) : Bool := gap.joined || !gap.breaks.isEmpty

/-- What a gap contributes to the text of its scalar. -/
def text (gap : Gap) : List Char :=
  if gap.joined then gap.breaks
  else
    match gap.breaks with
    | [] => gap.blanks
    | ['\n'] => [' ']
    | '\n' :: more => more
    | breaks => breaks

/-- The gap that begins at a source. Behind a break, tabs left of the column `margin` are refused. -/
def scan (margin : Nat) (gap : Gap) (source : Source) : Option (Gap × Source) :=
  match _ : source.rest with
  | [] => some (gap, source)
  | c :: _ =>
    if isBlank c then
      if gap.isMultiline then
        if c = '\t' && source.column < margin then none else scan margin gap source.skip
      else scan margin { gap with blanks := gap.blanks ++ [c] } source.skip
    else if isBreak c then
      scan margin { gap with breaks := gap.breaks ++ [breakChar c] } source.skipLine
    else some (gap, source)
termination_by source.rest.length
decreasing_by
  · exact Source.length_skip ‹_›
  · exact Source.length_skip ‹_›
  · exact Source.length_skipLine ‹_›

end Gap

/-! ## Quoted scalars -/

def hexValue? (digits : List Char) : Option Nat :=
  digits.foldlM (fun value c =>
    if '0' ≤ c ∧ c ≤ '9' then some (16 * value + (c.toNat - 0x30))
    else if 'a' ≤ c ∧ c ≤ 'f' then some (16 * value + (c.toNat - 0x61 + 10))
    else if 'A' ≤ c ∧ c ≤ 'F' then some (16 * value + (c.toNat - 0x41 + 10))
    else none) 0

def charOfNat? (n : Nat) : Option Char :=
  if n.isValidChar then some (Char.ofNat n) else none

def hexChar? (count : Nat) (rest : List Char) : Option Char :=
  if rest.length < count then none else (hexValue? (rest.take count)).bind charOfNat?

/-- The character that an escape names, with the length of the escape behind its backslash. -/
def escape? : List Char → Option (Char × Nat)
  | '0' :: _ => some ('\x00', 1)
  | 'a' :: _ => some ('\x07', 1)
  | 'b' :: _ => some ('\x08', 1)
  | 't' :: _ => some ('\t', 1)
  | '\t' :: _ => some ('\t', 1)
  | 'n' :: _ => some ('\n', 1)
  | 'v' :: _ => some ('\x0b', 1)
  | 'f' :: _ => some ('\x0c', 1)
  | 'r' :: _ => some ('\r', 1)
  | 'e' :: _ => some ('\x1b', 1)
  | ' ' :: _ => some (' ', 1)
  | '"' :: _ => some ('"', 1)
  | '/' :: _ => some ('/', 1)
  | '\\' :: _ => some ('\\', 1)
  | 'N' :: _ => some ('\x85', 1)
  | '_' :: _ => some ('\xa0', 1)
  | 'L' :: _ => some ('\u2028', 1)
  | 'P' :: _ => some ('\u2029', 1)
  | 'x' :: rest => (hexChar? 2 rest).map (·, 3)
  | 'u' :: rest => (hexChar? 4 rest).map (·, 5)
  | 'U' :: rest => (hexChar? 8 rest).map (·, 9)
  | _ => none

inductive QuotedStep where
  | char (c : Char) (length : Nat)
  | closing
  /-- A backslash at the end of a line. -/
  | joint
  | gap
  | broken

def quotedStep : ScalarStyle → List Char → QuotedStep
  | _, [] => .broken
  | .single, '\'' :: '\'' :: _ => .char '\'' 2
  | .single, '\'' :: _ => .closing
  | .double, '"' :: _ => .closing
  | .double, '\\' :: rest =>
    match rest with
    | [] => .broken
    | c :: _ =>
      if isBreak c then .joint
      else
        match escape? rest with
        | some (c, length) => .char c (1 + length)
        | none => .broken
  | _, c :: _ => if isBlank c || isBreak c then .gap else .char c 1

/-- The rest of a quoted scalar in which `text` was read. No line of it begins with a document marker. -/
def scanQuoted (style : ScalarStyle) : Nat → List Char → Source → Option (String × Source)
  | 0, _, _ => none
  | fuel + 1, text, source =>
    if source.atDocumentMarker then none
    else
      match quotedStep style source.rest with
      | .broken => none
      | .closing => some (String.ofList text, source.skip)
      | .char c length => scanQuoted style fuel (text ++ [c]) (source.skipMany length)
      | .joint => do
        let (gap, next) ← Gap.scan 0 { Gap.empty with joined := true } source.skip.skipLine
        scanQuoted style fuel (text ++ gap.text) next
      | .gap => do
        let (gap, next) ← Gap.scan 0 .empty source
        scanQuoted style fuel (text ++ gap.text) next

def Source.quoted (source : Source) (style : ScalarStyle) : Option (String × Source) :=
  scanQuoted style (source.rest.length + 1) [] source.skip

/-! ## Plain scalars -/

/-- Characters that end a plain scalar inside brackets. -/
def isFlowIndicator (c : Char) : Bool :=
  c = ',' || c = '[' || c = ']' || c = '\x7b' || c = '\x7d'

def endsPlain (inFlow : Bool) : List Char → Bool
  | ':' :: rest => atGap rest
  | c :: _ => inFlow && isFlowIndicator c
  | [] => true

/-- Inside brackets, a colon in front of an indicator is refused. -/
def isStrayColon (inFlow : Bool) : List Char → Bool
  | ':' :: c :: _ => inFlow && (isFlowIndicator c || c = '?')
  | _ => false

def scanWord (inFlow : Bool) (word : List Char) (source : Source) : Option (List Char × Source) :=
  match _ : source.rest with
  | [] => some (word, source)
  | c :: _ =>
    if isBlank c || isBreak c then some (word, source)
    else if isStrayColon inFlow source.rest then none
    else if endsPlain inFlow source.rest then some (word, source)
    else scanWord inFlow (word ++ [c]) source.skip
termination_by source.rest.length
decreasing_by exact Source.length_skip ‹_›

/-- A plain scalar with the gap behind it. -/
structure PlainScalar where
  text : List Char
  gap : Gap
  source : Source

/-- The rest of a plain scalar. Outside brackets, its lines begin at the column `margin` or behind it. -/
def scanPlain (inFlow : Bool) (margin : Nat) : Nat → PlainScalar → Option PlainScalar
  | 0, _ => none
  | fuel + 1, scalar => do
    if scalar.source.atDocumentMarker || scalar.source.rest.head? == some '#' then
      return scalar
    let (word, behind) ← scanWord inFlow [] scalar.source
    let read : PlainScalar :=
      if word.isEmpty then scalar else ⟨scalar.text ++ scalar.gap.text ++ word, .empty, behind⟩
    if behind.rest.isEmpty || !atGap behind.rest then
      return read
    let (gap, next) ← Gap.scan margin read.gap behind
    if !inFlow && next.column < margin then
      return ⟨read.text, gap, next⟩
    scanPlain inFlow margin fuel ⟨read.text, gap, next⟩

def Source.plain (source : Source) (inFlow : Bool) (margin : Nat) : Option PlainScalar :=
  scanPlain inFlow margin (source.rest.length + 1) ⟨[], .empty, source⟩

/-! ## Block scalars -/

/-- What happens to the line breaks at the end of a block scalar. -/
inductive Chomping where
  | strip
  | clip
  | keep
deriving DecidableEq, Repr

structure BlockHeader where
  chomping : Chomping
  /-- The indentation below the enclosing block, when it is given. -/
  indentation : Option Nat

def chomping? : List Char → Option (Chomping × List Char)
  | '+' :: rest => some (.keep, rest)
  | '-' :: rest => some (.strip, rest)
  | _ => none

/-- An indentation of one digit; zero is refused. -/
def indentation? : List Char → Option (Option (Nat × List Char))
  | c :: rest =>
    if c = '0' then none
    else if c.isDigit then some (some (c.toNat - 0x30, rest))
    else some none
  | [] => some none

/-- The header behind the indicator, its two parts in any order, with its length. -/
def blockHeader? (text : List Char) : Option (BlockHeader × Nat) :=
  match chomping? text with
  | some (chomping, rest) => do
    match ← indentation? rest with
    | some (n, _) => some (⟨chomping, some n⟩, 2)
    | none => some (⟨chomping, none⟩, 1)
  | none => do
    match ← indentation? text with
    | some (n, rest) =>
      match chomping? rest with
      | some (chomping, _) => some (⟨chomping, some n⟩, 2)
      | none => some (⟨.clip, some n⟩, 1)
    | none => some (⟨.clip, none⟩, 0)

/-- What lies between two lines of a block scalar: its breaks and the deepest column of blank lines. -/
structure BlockGap where
  breaks : List Char
  deepest : Nat
  source : Source

/-- The spaces of a line up to the indentation, where it is known. -/
def skipSpaces (indentation : Option Nat) (source : Source) : Source :=
  let spaces := (source.rest.takeWhile (· = ' ')).length
  match indentation with
  | none => source.skipMany spaces
  | some n => source.skipMany (min spaces (n - source.column))

/-- Spaces and empty lines. A tab in the place of an indentation is refused. -/
def scanBlockGap (indentation : Option Nat) : Nat → BlockGap → Option BlockGap
  | 0, _ => none
  | fuel + 1, gap =>
    let source := skipSpaces indentation gap.source
    let deepest := max gap.deepest source.column
    match source.rest with
    | [] => some ⟨gap.breaks, deepest, source⟩
    | c :: _ =>
      if c = '\t' && indentation.all (source.column < ·) then none
      else if isBreak c then
        scanBlockGap indentation fuel ⟨gap.breaks ++ [breakChar c], deepest, source.skipLine⟩
      else some ⟨gap.breaks, deepest, source⟩

/-- A block scalar so far: its text, the break behind its last line, and the breaks that follow. -/
structure BlockScalar where
  text : List Char
  lastBreak : List Char
  breaks : List Char
  /-- The last line begins with a blank. -/
  indented : Bool
  source : Source

/-- The text with one more line behind it. A folded scalar joins lines, unless one begins with a blank. -/
def BlockScalar.joinLine (scalar : BlockScalar) (folded indented : Bool) (line : List Char) :
    List Char :=
  if folded && scalar.lastBreak.head? == some '\n' && !scalar.indented && !indented then
    scalar.text ++ (if scalar.breaks.isEmpty then [' '] else scalar.breaks) ++ line
  else scalar.text ++ scalar.lastBreak ++ scalar.breaks ++ line

def scanBlockLines (folded : Bool) (indentation : Nat) : Nat → BlockScalar → Option BlockScalar
  | 0, _ => none
  | fuel + 1, scalar =>
    match scalar.source.rest with
    | [] => some scalar
    | c :: _ =>
      if scalar.source.column != indentation then some scalar
      else do
        let line := scalar.source.rest.takeWhile fun c => !isBreak c
        let ending := scalar.source.skipRestOfLine
        let (lastBreak, next) := match ending.rest with
          | [] => ([], ending)
          | c :: _ => ([breakChar c], ending.skipLine)
        let gap ← scanBlockGap (some indentation) (next.rest.length + 1) ⟨[], 0, next⟩
        scanBlockLines folded indentation fuel
          ⟨scalar.joinLine folded (isBlank c) line, lastBreak, gap.breaks, isBlank c, gap.source⟩

/-- Blanks and a comment up to the end of a line. -/
def Source.skipComment? (source : Source) : Option Source :=
  let source := source.skipWhile isBlank
  let source := if source.rest.head? == some '#' then source.skipRestOfLine else source
  if atLineEnd source.rest then some (if source.rest.isEmpty then source else source.skipLine)
  else none

/-- A block scalar from its indicator on. Its lines stand at the column `margin` or behind it. -/
def Source.block (source : Source) (folded : Bool) (margin : Nat) : Option (String × Source) := do
  let (header, length) ← blockHeader? source.skip.rest
  let start ← (source.skipMany (1 + length)).skipComment?
  let given := header.indentation.map (margin - 1 + ·)
  let gap ← scanBlockGap given (start.rest.length + 1) ⟨[], 0, start⟩
  let indentation := given.getD (max gap.deepest (max margin 1))
  let scalar ← scanBlockLines folded indentation (gap.source.rest.length + 1)
    ⟨[], [], gap.breaks, false, gap.source⟩
  return (String.ofList (match header.chomping with
    | .strip => scalar.text
    | .clip => scalar.text ++ scalar.lastBreak
    | .keep => scalar.text ++ scalar.lastBreak ++ scalar.breaks), scalar.source)

end Yaml

end DialogTree
