import DialogTree.Tree.Basic
/-!
# Problems of JSON documents

A document is refused for a fault of its text or for the shape of one of its commands.
-/

namespace DialogTree

namespace Json

inductive Fault where
  | endOfValue
  | endOfString
  | endOfArray
  | endOfObject
  | expectedValue
  | expectedIdent
  | invalidNumber
  | numberRange
  | controlCharacter
  | invalidEscape
  | loneSurrogate
  | unfinishedSurrogate
  | expectedArrayEnd
  | expectedObjectEnd
  | expectedColon
  | keyNotString
  | trailingComma
  | trailingCharacters
  | tooDeep
deriving DecidableEq, Repr

def Fault.message : Fault → String
  | endOfValue => "EOF while parsing a value"
  | endOfString => "EOF while parsing a string"
  | endOfArray => "EOF while parsing a list"
  | endOfObject => "EOF while parsing an object"
  | expectedValue => "expected value"
  | expectedIdent => "expected ident"
  | invalidNumber => "invalid number"
  | numberRange => "number out of range"
  | controlCharacter => "control character (\\u0000-\\u001F) found while parsing a string"
  | invalidEscape => "invalid escape"
  | loneSurrogate => "lone leading surrogate in hex escape"
  | unfinishedSurrogate => "unexpected end of hex escape"
  | expectedArrayEnd => "expected \x60,\x60 or \x60]\x60"
  | expectedObjectEnd => "expected \x60,\x60 or \x60\x7d\x60"
  | expectedColon => "expected \x60:\x60"
  | keyNotString => "key must be a string"
  | trailingComma => "trailing comma"
  | trailingCharacters => "trailing characters"
  | tooDeep => "recursion limit exceeded"

/-- Why a JSON value is no document. Commands are named by their dotted path. -/
inductive ShapeError where
  | notAnObject (found : String)
  | noCommands
  | versionKind (found : String)
  | commandKind (path : String) (found : String)
  | commandName (path : String)
  | duplicateKey (path : String) (key : String)
  | keywordKind (path : String) (found : String)
  | childrenKind (path : String) (found : String)
  | attributeKey (path : String) (key : String)
  | attributeNull (path : String) (key : String)
  | attributeObject (path : String) (key : String)
  | noKeyword (path : String)
  | keywordText (path : String) (keyword : String)
  | noChildren (path : String)
deriving DecidableEq, Repr

def ShapeError.message : ShapeError → String
  | notAnObject found => "top-level value must be an object, found " ++ found
  | noCommands => "document contains no commands"
  | versionKind found => "'version' must be a non-negative integer, found " ++ found
  | commandKind path found => "command '" ++ path ++ "' must be an object, found " ++ found
  | commandName path => "command '" ++ path ++ "': name is not a valid UIDL command name"
  | duplicateKey path key => "command '" ++ path ++ "': duplicate key '" ++ key ++ "'"
  | keywordKind path found =>
    "command '" ++ path ++ "': 'keyword' must be a string, found " ++ found
  | childrenKind path found =>
    "command '" ++ path ++ "': 'children' must be an object, found " ++ found
  | attributeKey path key =>
    "command '" ++ path ++ "': attribute key '" ++ key ++ "' is not a valid identifier"
  | attributeNull path key => "command '" ++ path ++ "': attribute '" ++ key ++ "' cannot be null"
  | attributeObject path key =>
    "command '" ++ path ++ "': attribute '" ++ key ++
      "' cannot be an object (only 'children' may nest commands)"
  | noKeyword path => "command '" ++ path ++ "' has no 'keyword'"
  | keywordText path keyword =>
    "command '" ++ path ++ "': keyword '" ++ keyword ++ "' is not a valid identifier"
  | noChildren path =>
    "command '" ++ path ++ "': 'children' must contain at least one command"

inductive Problem where
  | fault (cause : Fault)
  | shape (cause : ShapeError)
  /-- A caller's own wording. -/
  | stated (message : String)
deriving DecidableEq, Repr

def Problem.message : Problem → String
  | fault cause => cause.message
  | shape cause => cause.message
  | stated message => message

end Json

end DialogTree
