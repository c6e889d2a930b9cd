/-!
# YAML text

A source is the rest of a text with the place where the rest begins. Besides the two usual line ends, the
next-line character and the two Unicode separators end a line.
-/

namespace DialogTree

namespace Yaml

def isBreak (c : Char) : Bool :=
  c = '\n' || c = '\r' || c = '\x85' || c = '\u2028' || c = '\u2029'

def isBlank (c : Char) : Bool :=
  c = ' ' || c = '\t'

/-- Characters of names: of anchors, tag handles and directives. -/
def isNameChar (c : Char) : Bool :=
  c.isAlphanum || c = '-' || c = '_'

def isAllowed (c : Char) : Bool :=
  let n := c.toNat
  n = 0x09 || n = 0x0A || n = 0x0D || (0x20 ≤ n && n ≤ 0x7E) || n = 0x85 ||
    (0xA0 ≤ n && n ≤ 0xFFFD) || 0x10000 ≤ n

def byteOrderMark : Char := '\ufeff'

/-- Whether a blank, a line break or the end of the text comes next. -/
def atGap : List Char → Bool
  | [] => true
  | c :: _ => isBlank c || isBreak c

/-- Whether a line break or the end of the text comes next. -/
def atLineEnd : List Char → Bool
  | [] => true
  | c :: _ => isBreak c

structure Source where
  rest : List Char
  index : Nat
  line : Nat
  column : Nat

namespace Source

def ofText (text : String) : Source := ⟨text.toList, 0, 0, 0⟩

def skip (source : Source) : Source :=
  { source with
    rest := source.rest.drop 1
    index := source.index + 1
    column := source.column + 1 }

def skipMany : Nat → Source → Source
  | 0, source => source
  | n + 1, source => skipMany n source.skip

/-- The source behind a line break; a carriage return takes the line feed behind it along. -/
def skipLine (source : Source) : Source :=
  match source.rest with
  | '\r' :: '\n' :: rest => ⟨rest, source.index + 2, source.line + 1, 0⟩
  | rest => ⟨rest.drop 1, source.index + 1, source.line + 1, 0⟩

theorem length_skip {source : Source} {c : Char} {rest : List Char} (h : source.rest = c :: rest) :
    source.skip.rest.length < source.rest.length := by
  simp [skip, h]

theorem length_skipLine {source : Source} {c : Char} {rest : List Char}
    (h : source.rest = c :: rest) : source.skipLine.rest.length < source.rest.length := by
  unfold skipLine
  split
  · next hr =>
    simp only [hr, List.length_cons]
    omega
  · simp [h]

def skipWhile (p : Char → Bool) (source : Source) : Source :=
  skipMany (source.rest.takeWhile p).length source

def skipRestOfLine (source : Source) : Source :=
  source.skipWhile fun c => !isBreak c

/-- Whether one of the two document markers begins here. -/
def atDocumentMarker (source : Source) : Bool :=
  source.column == 0 &&
    match source.rest with
    | '-' :: '-' :: '-' :: rest => atGap rest
    | '.' :: '.' :: '.' :: rest => atGap rest
    | _ => false

end Source

/-- A line break as it enters a scalar. Only the two separators keep their identity. -/
def breakChar (c : Char) : Char :=
  if c = '\u2028' || c = '\u2029' then c else '\n'

end Yaml

end DialogTree
