/-!
# Relaxed JSON

Comments run from `#` or `//` to the end of the line, or from `/*` to `*/`. They, and commas in front of a
closing bracket, are overwritten by spaces. Every byte keeps its place and every line end stays.
-/

namespace DialogTree

namespace Json

/-- Spaces in place of one character; a line end stays. -/
def blank (c : Char) : List Char :=
  if c = '\n' then ['\n'] else List.replicate c.utf8Size ' '

/-- Where a scan stands: between tokens, in a string, behind a backslash in a string, in a line comment,
in a block comment, or on the second character of a mark that opens or closes a block comment. -/
inductive Place where
  | code
  | string
  | escape
  | line
  | blockStart
  | block
  | blockEnd
deriving DecidableEq, Repr

def blankComments : Place → List Char → List Char
  | _, [] => []
  | .code, c :: rest =>
    if c = '"' then c :: blankComments .string rest
    else if c = '#' then blank c ++ blankComments .line rest
    else if c = '/' && rest.head? == some '/' then blank c ++ blankComments .line rest
    else if c = '/' && rest.head? == some '*' then blank c ++ blankComments .blockStart rest
    else c :: blankComments .code rest
  | .string, c :: rest =>
    c :: blankComments (if c = '\\' then .escape else if c = '"' then .code else .string) rest
  | .escape, c :: rest => c :: blankComments .string rest
  | .line, c :: rest =>
    blank c ++ blankComments (if c = '\n' then .code else .line) rest
  | .blockStart, c :: rest => blank c ++ blankComments .block rest
  | .block, c :: rest =>
    blank c ++ blankComments (if c = '*' && rest.head? == some '/' then .blockEnd else .block) rest
  | .blockEnd, c :: rest => blank c ++ blankComments .code rest

/-- The whitespace that may stand between a trailing comma and its bracket. -/
def isGap (c : Char) : Bool :=
  c = ' ' || c = '\t' || c = '\n' || c = '\x0c' || c = '\r'

def closesNext (text : List Char) : Bool :=
  match text.dropWhile isGap with
  | c :: _ => c = '\x7d' || c = ']'
  | [] => false

/-- A text without comments with its trailing commas blanked. -/
def blankCommas : Place → List Char → List Char
  | _, [] => []
  | .string, c :: rest =>
    c :: blankCommas (if c = '\\' then .escape else if c = '"' then .code else .string) rest
  | .escape, c :: rest => c :: blankCommas .string rest
  | _, c :: rest =>
    if c = '"' then c :: blankCommas .string rest
    else if c = ',' && closesNext rest then ' ' :: blankCommas .code rest
    else c :: blankCommas .code rest

/-- The strict text of a relaxed one. -/
def relax (text : List Char) : List Char :=
  blankCommas .code (blankComments .code text)

end Json

end DialogTree
