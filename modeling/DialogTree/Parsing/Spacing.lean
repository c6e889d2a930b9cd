import DialogTree.Parsing.Parser
import DialogTree.Text.Classes
/-!
# Spacing

Spacing is any mix of whitespace and of comments from a number sign to the end of its line.
-/

namespace DialogTree

structure Spacing where
  consumed : Bool
  newline : Bool
deriving DecidableEq, Repr

def spacingLength : Bool → List Char → Nat
  | _, [] => 0
  | true, c :: rest => 1 + spacingLength (c != '\n') rest
  | false, c :: rest =>
    if c = '#' then 1 + spacingLength true rest
    else if isBlank c then 1 + spacingLength false rest
    else 0

def Cursor.skipSpacing (cursor : Cursor) : Cursor :=
  cursor.skip (spacingLength false cursor.rest)

def Cursor.spacing (cursor : Cursor) : Spacing :=
  let passed := cursor.rest.take (spacingLength false cursor.rest)
  ⟨!passed.isEmpty, passed.contains '\n'⟩

def spacing : Lexeme Spacing := fun cursor =>
  .ok (cursor.skipSpacing, cursor.spacing)

def requiredSpacing : Lexeme Spacing := fun cursor =>
  if cursor.spacing.consumed then .ok (cursor.skipSpacing, cursor.spacing)
  else .error ⟨cursor.position, .whitespace⟩

/-- Spacing that holds the end of a line. -/
def lineBreak : Lexeme Unit := fun cursor =>
  if cursor.spacing.newline then .ok (cursor.skipSpacing, ())
  else .error ⟨cursor.skipSpacing.position, .separator⟩

end DialogTree
