import DialogTree.Text.Classes
import DialogTree.Tree.Keys
import DialogTree.Tree.Basic
/-!
# Canonical document text

A tree is written with one command per line and four spaces per level. The type comes first among the
attributes. Every value is written as a literal of the document grammar.
-/

namespace DialogTree

namespace Render

def fourHex (n : Nat) : List Char :=
  let digits := Nat.toDigits 16 n
  List.replicate (4 - digits.length) '0' ++ digits

def stringChar (c : Char) : List Char :=
  if c = '"' then ['\\', '"']
  else if c = '\\' then ['\\', '\\']
  else if c = '\n' then ['\\', 'n']
  else if c = '\t' then ['\\', 't']
  else if c = '\r' then ['\\', 'r']
  else if isControl c then '\\' :: 'u' :: fourHex c.toNat
  else [c]

def string (text : String) : List Char :=
  '"' :: text.toList.flatMap stringChar ++ ['"']

def commaSeparated : List (List Char) → List Char
  | [] => []
  | [item] => item
  | item :: rest => item ++ ',' :: ' ' :: commaSeparated rest

mutual

def value : Value → List Char
  | .string text => string text
  | .bool b => (toString b).toList
  | .integer number => (toString number.toInt).toList
  | .float number => (FloatStyle.literal.text number).toList
  | .list items => '[' :: commaSeparated (values items) ++ [']']

def values : List Value → List (List Char)
  | [] => []
  | item :: rest => value item :: values rest

end

def entry (key : String) (text : List Char) : List Char :=
  key.toList ++ '=' :: text

def entries (kind : Option String) (attributes : AttributeMap) : List (List Char) :=
  (kind.map fun kind => entry typeKey (string kind)).toList ++
    attributes.entries.map fun pair => entry pair.1 (value pair.2)

def indent (depth : Nat) : List Char :=
  List.replicate (4 * depth) ' '

mutual

/-- A command without its name. -/
def node (depth : Nat) : Node → List Char
  | ⟨keyword, kind, attributes, children, _⟩ =>
    keyword.toList ++ '(' :: commaSeparated (entries kind attributes) ++ ')' ::
      match children with
      | none => ['\n']
      | some ⟨[]⟩ => ['\n']
      | some ⟨first :: rest⟩ =>
        ' ' :: '\x7b' :: '\n' :: nodes (depth + 1) (first :: rest) ++ indent depth ++ ['\x7d', '\n']

def nodes (depth : Nat) : List (String × Node) → List Char
  | [] => []
  | (name, command) :: rest =>
    indent depth ++ name.toList ++ ' ' :: node depth command ++ nodes depth rest

end

end Render

def Tree.render (tree : Tree) : String :=
  String.ofList
    ("version ".toList ++ (toString supportedVersion).toList ++ ['\n', '\n'] ++
      Render.nodes 0 tree.nodes)

end DialogTree
