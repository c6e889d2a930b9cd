import DialogTree.Parsing.Literal
import DialogTree.Parsing.Quoted
import DialogTree.Pattern.Basic
/-!
# Writing sets of characters

Escapes and bracket expressions of patterns. A reader gives what it read and the text behind it, or nothing
when the pattern is invalid.
-/

namespace DialogTree

namespace Pattern

structure Flags where
  ignoreCase : Bool
  multiLine : Bool
  dotAll : Bool
  spaced : Bool
  unicode : Bool
deriving DecidableEq, Repr

def Flags.initial : Flags := ⟨false, false, false, false, true⟩

/-- A set as the case setting asks for it. -/
def Flags.adapt (flags : Flags) (chars : CharSet) : CharSet :=
  if flags.ignoreCase then .folded chars else chars

def isMeta (c : Char) : Bool :=
  "\\.+*?()|[]\x7b\x7d^$#&-~".toList.contains c

def isEscapable (c : Char) : Bool :=
  isMeta c || (c.toNat < 0x80 && !c.isAlphanum && c != '<' && c != '>')

def asciiRanges (ranges : List (Char × Char)) : CharSet :=
  ranges.foldr (fun range set => .union (.range range.1.toNat range.2.toNat) set) .nothing

def namedClass? (flags : Flags) (c : Char) : Option CharSet :=
  match c, flags.unicode with
  | 'd', true => some .digit
  | 's', true => some .space
  | 'w', true => some .word
  | 'd', false => some (asciiRanges [('0', '9')])
  | 's', false => some (asciiRanges [('\t', '\r'), (' ', ' ')])
  | 'w', false => some (asciiRanges [('0', '9'), ('A', 'Z'), ('_', '_'), ('a', 'z')])
  | 'D', true => some (.complement .digit)
  | 'S', true => some (.complement .space)
  | 'W', true => some (.complement .word)
  | _, _ => none

def bracketClass? (name : String) : Option CharSet :=
  match name with
  | "alnum" => some (asciiRanges [('0', '9'), ('A', 'Z'), ('a', 'z')])
  | "alpha" => some (asciiRanges [('A', 'Z'), ('a', 'z')])
  | "ascii" => some (.range 0 0x7F)
  | "blank" => some (asciiRanges [('\t', '\t'), (' ', ' ')])
  | "cntrl" => some (.union (.range 0 0x1F) (.range 0x7F 0x7F))
  | "digit" => some (asciiRanges [('0', '9')])
  | "graph" => some (asciiRanges [('!', '~')])
  | "lower" => some (asciiRanges [('a', 'z')])
  | "print" => some (asciiRanges [(' ', '~')])
  | "punct" => some (asciiRanges [('!', '/'), (':', '@'), ('[', '\x60'), ('\x7b', '~')])
  | "space" => some (asciiRanges [('\t', '\r'), (' ', ' ')])
  | "upper" => some (asciiRanges [('A', 'Z')])
  | "word" => some (asciiRanges [('0', '9'), ('A', 'Z'), ('_', '_'), ('a', 'z')])
  | "xdigit" => some (asciiRanges [('0', '9'), ('A', 'F'), ('a', 'f')])
  | _ => none

/-- The properties known by name; case, spaces, hyphens and underscores in names mean nothing. -/
def property? (name : List Char) : Option CharSet :=
  let plain := (name.filter fun c => !(c == ' ' || c == '-' || c == '_')).map Char.toLower
  match String.ofList plain with
  | "any" => some .any
  | "ascii" => some (.range 0 0x7F)
  | "l" | "letter" => some .letter
  | "lu" | "uppercaseletter" => some .upper
  | "ll" | "lowercaseletter" => some .lower
  | "nd" | "decimalnumber" | "digit" => some .digit
  | "cc" | "control" | "cntrl" => some (.union (.range 0 0x1F) (.range 0x7F 0x9F))
  | "whitespace" | "wspace" | "space" => some .space
  | _ => none

inductive Escape where
  | char (c : Char)
  | chars (set : CharSet)
  | assertion (assertion : Assertion)

/-- A code point in braces or in a fixed number of digits. -/
def readCodePoint (count : Nat) : List Char → Option (Char × List Char)
  | '\x7b' :: rest =>
    let digits := rest.takeWhile (· != '\x7d')
    match rest.drop digits.length with
    | [] => none
    | _ :: behind =>
      if digits.isEmpty || !digits.all (isDigitIn 16) then none
      else (scalar? (valueIn 16 digits)).map (·, behind)
  | text => (hexEscape? count text).map (·, text.drop count)

def readProperty : List Char → Option (CharSet × List Char)
  | '\x7b' :: rest =>
    let body := rest.takeWhile (· != '\x7d')
    match rest.drop body.length, body with
    | [], _ => none
    | _ :: behind, '^' :: name => (property? name).map (.complement ·, behind)
    | _ :: behind, name => (property? name).map (·, behind)
  | c :: rest => (property? [c]).map (·, rest)
  | [] => none

/-- The assertion in braces behind `\b`, when the braces hold a name. -/
def readBoundaryName : List Char → Option (Option Assertion × List Char)
  | '\x7b' :: c :: rest =>
    let isNamePart (c : Char) : Bool := c.isAlpha || c == '-'
    if isNamePart c then
      let name := c :: rest.takeWhile isNamePart
      match (c :: rest).drop name.length with
      | '\x7d' :: behind =>
        match String.ofList name with
        | "start" => some (some .wordStart, behind)
        | "end" => some (some .wordEnd, behind)
        | "start-half" => some (some .wordStartHalf, behind)
        | "end-half" => some (some .wordEndHalf, behind)
        | _ => none
      | _ => none
    else some (none, '\x7b' :: c :: rest)
  | text => some (none, text)

def readEscape (flags : Flags) : List Char → Option (Escape × List Char)
  | [] => none
  | c :: rest =>
    if isEscapable c then some (.char c, rest)
    else match namedClass? flags c with
      | some set => some (.chars set, rest)
      | none =>
        match c with
        | 'x' => (readCodePoint 2 rest).map fun (c, rest) => (.char c, rest)
        | 'u' => (readCodePoint 4 rest).map fun (c, rest) => (.char c, rest)
        | 'U' => (readCodePoint 8 rest).map fun (c, rest) => (.char c, rest)
        | 'p' => (readProperty rest).map fun (set, rest) => (.chars set, rest)
        | 'P' => (readProperty rest).map fun (set, rest) => (.chars (.complement set), rest)
        | 'a' => some (.char '\x07', rest)
        | 'f' => some (.char '\x0c', rest)
        | 't' => some (.char '\t', rest)
        | 'n' => some (.char '\n', rest)
        | 'r' => some (.char '\r', rest)
        | 'v' => some (.char '\x0b', rest)
        | 'A' => some (.assertion .textStart, rest)
        | 'z' => some (.assertion .textEnd, rest)
        | 'B' => some (.assertion .noWordBoundary, rest)
        | '<' => some (.assertion .wordStart, rest)
        | '>' => some (.assertion .wordEnd, rest)
        | 'b' => (readBoundaryName rest).map fun (named, rest) =>
          (.assertion (named.getD .wordBoundary), rest)
        | _ => none

/-! ## Bracket expressions -/

/-- A set operation that waits for its right side. -/
inductive SetOperation where
  | inter
  | difference
  | symmetricDifference
deriving DecidableEq, Repr

/-- The set read so far: a finished left side, and the items joined since. -/
structure SetState where
  left : Option (CharSet × SetOperation)
  items : CharSet

namespace SetState

def empty : SetState := ⟨none, .nothing⟩

def add (state : SetState) (set : CharSet) : SetState :=
  { state with items := .union state.items set }

/-- The set of the left side and the items, each adapted to the flags. -/
def value (flags : Flags) (state : SetState) : CharSet :=
  let items := flags.adapt state.items
  match state.left with
  | none => items
  | some (left, .inter) => .inter left items
  | some (left, .difference) => left.difference items
  | some (left, .symmetricDifference) => left.symmetricDifference items

def operate (flags : Flags) (state : SetState) (operation : SetOperation) : SetState :=
  ⟨some (state.value flags, operation), .nothing⟩

end SetState

/-- The text without the blanks and comments that spaced patterns allow. -/
def skipBlank (flags : Flags) (text : List Char) : List Char :=
  if flags.spaced then go false text else text
where
  go : Bool → List Char → List Char
    | _, [] => []
    | true, c :: rest => go (c != '\n') rest
    | false, c :: rest =>
      if c = '#' then go true rest else if isBlank c then go false rest else c :: rest

def readBracketClass? : List Char → Option (CharSet × List Char)
  | ':' :: rest =>
    let (negated, body) := match rest with
      | '^' :: body => (true, body)
      | body => (false, body)
    let name := body.takeWhile (· != ':')
    match body.drop name.length with
    | ':' :: ']' :: behind =>
      (bracketClass? (String.ofList name)).map fun set =>
        (if negated then .complement set else set, behind)
    | _ => none
  | _ => none

def readSetItem (flags : Flags) : List Char → Option (Escape × List Char)
  | [] => none
  | '\\' :: rest =>
    match readEscape flags rest with
    | some (.assertion _, _) => none
    | other => other
  | c :: rest => some (.char c, rest)

def readSetRange (flags : Flags) (text : List Char) : Option (CharSet × List Char) := do
  let (first, rest) ← readSetItem flags text
  let rest := skipBlank flags rest
  let isRange := match rest with
    | '-' :: behind =>
      match skipBlank flags behind with
      | ']' :: _ => false
      | '-' :: _ => false
      | _ => true
    | _ => false
  if isRange then
    let (last, rest) ← readSetItem flags (skipBlank flags (rest.drop 1))
    match first, last with
    | .char low, .char high =>
      if low.toNat ≤ high.toNat then some (.range low.toNat high.toNat, rest) else none
    | _, _ => none
  else match first with
    | .char c => some (.one c, rest)
    | .chars set => some (set, rest)
    | .assertion _ => none

/-- The hyphens at the start of a bracket expression, or the bracket that stands for itself there. -/
def readSetStart (flags : Flags) (text : List Char) : CharSet × List Char :=
  let text := skipBlank flags text
  let hyphens := text.takeWhile (· == '-')
  let rest := text.drop hyphens.length
  if hyphens.isEmpty then
    match rest with
    | ']' :: behind => (.one ']', behind)
    | _ => (.nothing, rest)
  else (.one '-', rest)

/-- A bracket expression behind its opening bracket. -/
def readSetWithin (flags : Flags) :
    Nat → Bool → SetState → List Char → Option (CharSet × List Char)
  | 0, _, _, _ => none
  | bound + 1, negated, state, text =>
    match skipBlank flags text with
    | [] => none
    | ']' :: rest =>
      let set := state.value flags
      some (if negated then .complement set else set, rest)
    | '[' :: rest =>
      match readBracketClass? rest with
      | some (set, behind) => readSetWithin flags bound negated (state.add set) behind
      | none => do
        let (innerNegated, body) := match skipBlank flags rest with
          | '^' :: body => (true, body)
          | body => (false, body)
        let (start, body) := readSetStart flags body
        let (set, behind) ←
          readSetWithin flags bound innerNegated (SetState.empty.add start) body
        readSetWithin flags bound negated (state.add set) behind
    | '&' :: '&' :: rest => readSetWithin flags bound negated (state.operate flags .inter) rest
    | '-' :: '-' :: rest => readSetWithin flags bound negated (state.operate flags .difference) rest
    | '~' :: '~' :: rest =>
      readSetWithin flags bound negated (state.operate flags .symmetricDifference) rest
    | text => do
      let (set, rest) ← readSetRange flags text
      readSetWithin flags bound negated (state.add set) rest

def readSet (flags : Flags) (text : List Char) : Option (CharSet × List Char) :=
  let (negated, body) := match skipBlank flags text with
    | '^' :: body => (true, body)
    | body => (false, body)
  let (start, body) := readSetStart flags body
  readSetWithin flags (text.length + 1) negated (SetState.empty.add start) body

end Pattern

end DialogTree
