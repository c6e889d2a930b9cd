import DialogTree.Yaml.Typed
/-!
# Reading records from nodes

Fields of records take a scalar by its text, whatever its type. Where a collection is asked for, nothing at
all is an empty one.
-/

namespace DialogTree

namespace Yaml

namespace Node

def isNothing : Node → Bool
  | scalar _ .plain "" => true
  | _ => false

def text? : Node → Option String
  | scalar _ _ text => some text
  | _ => none

/-- The items of a sequence; nothing at all is an empty one. -/
def items? (node : Node) : Option (List Node) :=
  match node with
  | sequence _ items => some items
  | _ => if node.isNothing then some [] else none

/-- The entries of a mapping whose keys are scalars; nothing at all is an empty one. -/
def entries? (node : Node) : Option (List (String × Node)) :=
  match node with
  | mapping _ entries => entries.mapM fun entry => entry.1.text?.map (·, entry.2)
  | _ => if node.isNothing then some [] else none

/-- The entries of a mapping that has each of the given keys once at most. -/
def record? (node : Node) (keys : List String) : Option (List (String × Node)) := do
  let entries ← node.entries?
  if keys.all fun key => (entries.filter fun entry => entry.1 == key).length ≤ 1 then some entries
  else none

/-- A value for absence in the place of a node: nothing, or one of the words for null. -/
def isAbsent : Node → Option Bool
  | scalar none .plain text => some (text = "" || isNull text)
  | scalar (some tag) .plain text =>
    if tag = "tag:yaml.org,2002:null" then if isNull text then some true else none
    else some false
  | _ => some false

def optional? {α : Type} (read : Node → Option α) (node : Node) : Option (Option α) := do
  if ← node.isAbsent then return none else return some (← read node)

/-- A truth value. Quoted words are none, but a tagged literal block may hold one. -/
def truth? : Node → Option Bool
  | scalar _ .plain text => bool? text
  | scalar (some "tag:yaml.org,2002:bool") .literal text => bool? text
  | _ => none

def count? (node : Node) : Option Nat :=
  let text? := match node with
    | scalar _ .plain text => some text
    | scalar (some "tag:yaml.org,2002:int") .literal text => some text
    | _ => none
  (text?.bind fun text => natural? text.toList).filter (· < 2 ^ 64)

end Node

end Yaml

end DialogTree
