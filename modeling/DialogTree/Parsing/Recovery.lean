import DialogTree.Parsing.Cursor
/-!
# Recovery

After a broken command the parse resumes at the next separator outside brackets, or in front of the brace
that closes the enclosing body. Strings and comments are passed over as wholes.
-/

namespace DialogTree

/-- The length of a quoted text behind its opening quote, the closing quote included. A backslash escapes
the next character between quotation marks, and means nothing between back quotes. -/
def quotedLength (quote : Char) : Bool → List Char → Nat
  | _, [] => 0
  | true, _ :: rest => 1 + quotedLength quote false rest
  | false, c :: rest =>
    if c = '\\' && quote = '"' then 1 + quotedLength quote true rest
    else if c = quote then 1
    else 1 + quotedLength quote false rest

/-- The length of a comment up to the end of its line. -/
def commentLength (text : List Char) : Nat :=
  (text.takeWhile (· != '\n')).length

def bracketDepth (depth : Nat) (c : Char) : Nat :=
  if ['(', '\x7b', '['].contains c then depth + 1
  else if [')', '\x7d', ']'].contains c then depth - 1
  else depth

/-- Whether a broken command ends in front of a character outside brackets. -/
def endsCommand (inBody : Bool) (c : Char) : Bool :=
  c = ';' || c = '\n' || (inBody && c = '\x7d')

/-- The length of the text that is skipped, inside so many brackets. -/
def recoveryLength (inBody : Bool) (depth : Nat) (text : List Char) : Nat :=
  match text with
  | [] => 0
  | c :: rest =>
    if depth = 0 && endsCommand inBody c then 0
    else if c = '"' || c = '\x60' then
      let count := quotedLength c false rest
      1 + count + recoveryLength inBody depth (rest.drop count)
    else if c = '#' then
      let count := commentLength rest
      1 + count + recoveryLength inBody depth (rest.drop count)
    else 1 + recoveryLength inBody (bracketDepth depth c) rest
termination_by text.length
decreasing_by all_goals (simp; try omega)

/-- The cursor behind a broken command that starts at the cursor. -/
def Cursor.recover (cursor : Cursor) (inBody : Bool) : Cursor :=
  cursor.skip (recoveryLength inBody 0 cursor.rest)

end DialogTree
