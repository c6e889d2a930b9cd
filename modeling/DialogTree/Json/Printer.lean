import DialogTree.Json.Value
import DialogTree.Number.FloatStyle
import DialogTree.Tree.Basic
import DialogTree.Tree.Keys
/-!
# JSON text

Values are written on one line without spaces, or spread over lines with two spaces per level. Characters
outside ASCII stay as they are.
-/

namespace DialogTree

namespace Json

def stringChar (c : Char) : List Char :=
  if c = '"' then ['\\', '"']
  else if c = '\\' then ['\\', '\\']
  else if c = '\n' then ['\\', 'n']
  else if c = '\r' then ['\\', 'r']
  else if c = '\t' then ['\\', 't']
  else if c = '\x08' then ['\\', 'b']
  else if c = '\x0c' then ['\\', 'f']
  else if c.toNat < 0x20 then
    let digits := Nat.toDigits 16 c.toNat
    ['\\', 'u', '0', '0'] ++ List.replicate (2 - digits.length) '0' ++ digits
  else [c]

def stringText (text : String) : List Char :=
  '"' :: text.toList.flatMap stringChar ++ ['"']

/-- A value without parts. -/
def scalarText : Value → List Char
  | .null => "null".toList
  | .bool b => (toString b).toList
  | .integer number => (toString number).toList
  | .float number => (FloatStyle.json.text number).toList
  | .string text => stringText text
  | .array _ => []
  | .object _ => []

def separated (separator : List Char) : List (List Char) → List Char
  | [] => []
  | [item] => item
  | item :: rest => item ++ separator ++ separated separator rest

namespace Value

mutual

def compact : Value → List Char
  | .array items => '[' :: separated [','] (compactItems items) ++ [']']
  | .object entries => '\x7b' :: separated [','] (compactEntries entries) ++ ['\x7d']
  | other => scalarText other

def compactItems : List Value → List (List Char)
  | [] => []
  | item :: rest => item.compact :: compactItems rest

def compactEntries : List (String × Value) → List (List Char)
  | [] => []
  | (key, value) :: rest => (stringText key ++ ':' :: value.compact) :: compactEntries rest

end

/-- The end of a line and the indentation of the next. -/
def newline (depth : Nat) : List Char :=
  '\n' :: List.replicate (2 * depth) ' '

def spread (opening closing : Char) (depth : Nat) (parts : List (List Char)) : List Char :=
  if parts.isEmpty then [opening, closing]
  else
    opening :: newline (depth + 1) ++ separated (',' :: newline (depth + 1)) parts ++
      newline depth ++ [closing]

mutual

def pretty (depth : Nat) : Value → List Char
  | .array items => spread '[' ']' depth (prettyItems (depth + 1) items)
  | .object entries => spread '\x7b' '\x7d' depth (prettyEntries (depth + 1) entries)
  | other => scalarText other

def prettyItems (depth : Nat) : List Value → List (List Char)
  | [] => []
  | item :: rest => item.pretty depth :: prettyItems depth rest

def prettyEntries (depth : Nat) : List (String × Value) → List (List Char)
  | [] => []
  | (key, value) :: rest =>
    (stringText key ++ ':' :: ' ' :: value.pretty depth) :: prettyEntries depth rest

end

/-- The text of a value on one line. -/
def text (value : Value) : String :=
  String.ofList value.compact

/-- The text of a value over several lines. -/
def prettyText (value : Value) : String :=
  String.ofList (value.pretty 0)

end Value

end Json

/-! ## Trees as JSON -/

mutual

def Value.toJson : Value → Json.Value
  | .string text => .string text
  | .bool value => .bool value
  | .integer number => .integer number.toInt
  | .float number => .float number
  | .list items => .array (valuesToJson items)

def valuesToJson : List Value → List Json.Value
  | [] => []
  | item :: rest => item.toJson :: valuesToJson rest

end

def AttributeMap.toJsonEntries (map : AttributeMap) : List (String × Json.Value) :=
  map.entries.map fun entry => (entry.1, entry.2.toJson)

mutual

/-- A command as an object: keyword, type, attributes, children. -/
def Node.toJson : Node → Json.Value
  | ⟨keyword, kind, attributes, children, _⟩ =>
    .object ((keywordKey, .string keyword) ::
      (kind.map fun kind => (typeKey, .string kind)).toList ++
      attributes.toJsonEntries ++
      match children with
      | none => []
      | some tree => [(childrenKey, tree.toJson)])

def Tree.toJson : Tree → Json.Value
  | ⟨nodes⟩ => .object (nodesToJson nodes)

def nodesToJson : List (String × Node) → List (String × Json.Value)
  | [] => []
  | (name, node) :: rest => (name, node.toJson) :: nodesToJson rest

end

end DialogTree
