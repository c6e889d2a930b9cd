import DialogTree.Position
/-!
# Failures

A failure is a position and the cause why no parse goes on from there.
-/

namespace DialogTree

inductive Cause where
  | literal (text : String)
  | identifier
  | number
  | numberRange
  | whitespace
  | unterminatedString (start : Position)
  | invalidEscape (shown : Option Char)
  | unterminatedRawString (start : Position)
  | boolean
  | digit
  | point
  | fractionDigit
  | integerRange
  | separator
  | versionHeader
  | noCommand
  | unclosedBody
  /-- A rule's own wording. -/
  | label (message : String)
deriving DecidableEq, Repr

def Cause.message : Cause → String
  | literal text => "expected '" ++ text ++ "'"
  | identifier => "expected identifier"
  | number => "expected a number"
  | numberRange => "number out of range"
  | whitespace => "expected whitespace"
  | unterminatedString start => "unterminated string starting at " ++ start.text
  | invalidEscape shown => "invalid escape sequence '\\" ++ String.ofList shown.toList ++ "'"
  | unterminatedRawString start => "unterminated raw string starting at " ++ start.text
  | boolean => "expected 'true' or 'false'"
  | digit => "expected a digit"
  | point => "expected '.'"
  | fractionDigit => "expected a digit after '.'"
  | integerRange => "integer literal out of range"
  | separator => "expected ';' or a newline between commands"
  | versionHeader => "expected version header 'version 1'"
  | noCommand => "expected at least one command"
  | unclosedBody => "unclosed '\x7b'"
  | label message => message

structure Failure where
  position : Position
  cause : Cause
deriving DecidableEq, Repr

namespace Failure

def offset (failure : Failure) : Nat := failure.position.offset

def message (failure : Failure) : String := failure.cause.message

/-- The one that lies further on; of two at the same place the later one. -/
def furthest (earlier later : Failure) : Failure :=
  if earlier.offset ≤ later.offset then later else earlier

end Failure

end DialogTree
