import DialogTree.Text.CaseFold
import DialogTree.Text.Classes
import DialogTree.Text.Digit
import DialogTree.Text.Letter
import DialogTree.Text.Ranges
import DialogTree.Text.Word
/-!
# Patterns

A pattern describes where a match that starts at one spot of a text may end. Assertions look at the
characters on both sides of a spot and consume nothing.
-/

namespace DialogTree

/-! ## Sets of characters -/

inductive CharSet where
  | nothing
  | range (low high : Nat)
  | space
  | digit
  | word
  | letter
  | upper
  | lower
  | union (a b : CharSet)
  | inter (a b : CharSet)
  | complement (a : CharSet)
  /-- The characters that differ at most in case from one of the set. -/
  | folded (a : CharSet)

namespace CharSet

def one (c : Char) : CharSet := range c.toNat c.toNat

def any : CharSet := complement nothing

def difference (a b : CharSet) : CharSet := inter a (complement b)

def symmetricDifference (a b : CharSet) : CharSet := union (difference a b) (difference b a)

def holds : CharSet → Char → Bool
  | nothing, _ => false
  | range low high, c => low ≤ c.toNat && c.toNat ≤ high
  | space, c => isBlank c
  | digit, c => inRanges digitRanges c
  | word, c => inRanges wordRanges c
  | letter, c => inRanges letterRanges c
  | upper, c => inRanges upperRanges c
  | lower, c => inRanges lowerRanges c
  | union a b, c => a.holds c || b.holds c
  | inter a b, c => a.holds c && b.holds c
  | complement a, c => !a.holds c
  | folded a, c => (caseVariants c).any a.holds

end CharSet

/-! ## Spots -/

/-- A place in a text: the character in front of it and the text behind it. -/
structure Spot where
  before : Option Char
  rest : List Char
deriving DecidableEq, Repr

namespace Spot

/-- Every spot of a text from one on. -/
def allFrom (before : Option Char) : List Char → List Spot
  | [] => [⟨before, []⟩]
  | c :: rest => ⟨before, c :: rest⟩ :: allFrom (some c) rest

def all (text : List Char) : List Spot := allFrom none text

end Spot

inductive Assertion where
  | textStart
  | textEnd
  | lineStart
  | lineEnd
  | wordBoundary
  | noWordBoundary
  | wordStart
  | wordEnd
  | wordStartHalf
  | wordEndHalf
deriving DecidableEq, Repr

namespace Assertion

def isWord (c? : Option Char) : Bool := c?.any (inRanges wordRanges)

def holds (assertion : Assertion) (spot : Spot) : Bool :=
  let after := spot.rest.head?
  match assertion with
  | textStart => spot.before.isNone
  | textEnd => after.isNone
  | lineStart => spot.before.isNone || spot.before == some '\n'
  | lineEnd => after.isNone || after == some '\n'
  | wordBoundary => isWord spot.before != isWord after
  | noWordBoundary => isWord spot.before == isWord after
  | wordStart => !isWord spot.before && isWord after
  | wordEnd => isWord spot.before && !isWord after
  | wordStartHalf => !isWord spot.before
  | wordEndHalf => !isWord after

end Assertion

/-! ## Matching -/

inductive Pattern where
  | empty
  | one (chars : CharSet)
  | assert (assertion : Assertion)
  | sequence (first second : Pattern)
  | choice (first second : Pattern)
  /-- At least `least` times and, if given, at most `most` times. -/
  | repeated (body : Pattern) (least : Nat) (most : Option Nat)

namespace Pattern

/-- Two sets of spots of one text as one set. -/
def merge (spots more : List Spot) : List Spot :=
  more.foldl (fun spots spot =>
    if spots.any fun known => known.rest.length == spot.rest.length then spots
    else spots ++ [spot]) spots

/-- A step taken so many times, or until it changes nothing. -/
def exactly (step : List Spot → List Spot) : Nat → List Spot → List Spot
  | 0, spots => spots
  | count + 1, spots =>
    let next := step spots
    if next == spots then spots else exactly step count next

def upTo (step : List Spot → List Spot) (count : Nat) (spots : List Spot) : List Spot :=
  exactly (fun spots => merge spots (step spots)) count spots

/-- More steps than a set of spots of one text can grow by. -/
def reachOf (spots : List Spot) : Nat :=
  (spots.map fun spot => spot.rest.length).foldl max 0 + 1

/-- The spots where matches that start at one of the given spots end. -/
def ends : Pattern → List Spot → List Spot
  | empty, spots => spots
  | one chars, spots => spots.filterMap fun spot =>
    match spot.rest with
    | [] => none
    | c :: rest => if chars.holds c then some ⟨some c, rest⟩ else none
  | assert assertion, spots => spots.filter assertion.holds
  | sequence first second, spots => second.ends (first.ends spots)
  | choice first second, spots => merge (first.ends spots) (second.ends spots)
  | repeated body least most, spots =>
    let reached := exactly body.ends least spots
    match most with
    | none => upTo body.ends (reachOf reached) reached
    | some most => upTo body.ends (most - least) reached

def occursIn (pattern : Pattern) (text : String) : Bool :=
  !(pattern.ends (Spot.all text.toList)).isEmpty

end Pattern

end DialogTree
