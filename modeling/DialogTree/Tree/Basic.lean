import DialogTree.Position
import DialogTree.Tree.AttributeMap
/-!
# Command trees

A tree holds named commands in declaration order. A command has a keyword, an optional type, attributes,
and a tree of children when it was written with a body. Insertion keeps names non-empty and distinct among
siblings.
-/

namespace DialogTree

mutual

/-- One command without its name. -/
structure Node where
  keyword : String
  kind : Option String
  attributes : AttributeMap
  /-- The nested commands, when the command has a body. -/
  children : Option Tree
  /-- Where the name stands in the source. -/
  position : Option Position

/-- The commands of one scope with their names. -/
structure Tree where
  nodes : List (String × Node)

end

inductive TreeError where
  | emptyName
  | duplicateName (name : String)
deriving DecidableEq, Repr

def TreeError.message : TreeError → String
  | emptyName => "command name must not be empty"
  | duplicateName name => "duplicate command name '" ++ name ++ "'"

namespace Tree

def empty : Tree := ⟨[]⟩

instance : Inhabited Tree := ⟨empty⟩

def names (tree : Tree) : List String :=
  tree.nodes.map Prod.fst

def size (tree : Tree) : Nat :=
  tree.nodes.length

def isEmpty (tree : Tree) : Bool :=
  tree.nodes.isEmpty

def get? (tree : Tree) (name : String) : Option Node :=
  (tree.nodes.find? fun entry => entry.1 == name).map Prod.snd

def contains (tree : Tree) (name : String) : Bool :=
  tree.nodes.any fun entry => entry.1 == name

theorem contains_iff {tree : Tree} {name : String} :
    tree.contains name = true ↔ name ∈ tree.names := by
  simp only [contains, names, List.any_eq_true, beq_iff_eq, List.mem_map]

/-- A command goes to the end; no command replaces another. The tree behind the call comes with the reason if the
call is refused. -/
def insert (tree : Tree) (name : String) (node : Node) : Tree × Except TreeError Unit :=
  if name = "" then (tree, .error .emptyName)
  else if tree.contains name then (tree, .error (.duplicateName name))
  else (⟨tree.nodes ++ [(name, node)]⟩, .ok ())

/-- The first command of a name replaced by a function of itself. -/
def modify (tree : Tree) (name : String) (f : Node → Node) : Tree :=
  ⟨go tree.nodes⟩
where
  go : List (String × Node) → List (String × Node)
    | [] => []
    | (key, node) :: rest => if key = name then (key, f node) :: rest else (key, node) :: go rest

/-- Every command replaced by a function of its name and itself. -/
def mapEntries (tree : Tree) (f : String → Node → Node) : Tree :=
  ⟨tree.nodes.map fun entry => (entry.1, f entry.1 entry.2)⟩

end Tree

namespace Node

def ofKeyword (keyword : String) : Node :=
  ⟨keyword, none, .empty, none, none⟩

instance : Inhabited Node := ⟨ofKeyword ""⟩

/-- The type under which a schema is looked up; a command without one has the empty type. -/
def schemaType (node : Node) : String :=
  node.kind.getD ""

def childCount (node : Node) : Nat :=
  match node.children with
  | none => 0
  | some tree => tree.size

end Node

/-! ## Counting and comparing -/

mutual

def Node.total : Node → Nat
  | ⟨_, _, _, none, _⟩ => 1
  | ⟨_, _, _, some children, _⟩ => 1 + children.total

def Tree.total : Tree → Nat
  | ⟨nodes⟩ => totalNodes nodes

def totalNodes : List (String × Node) → Nat
  | [] => 0
  | (_, node) :: rest => node.total + totalNodes rest

end

mutual

/-- Equality of content; positions are no content. -/
def Node.equals : Node → Node → Bool
  | ⟨keyword, kind, attributes, children, _⟩, ⟨keyword', kind', attributes', children', _⟩ =>
    keyword == keyword' && kind == kind' && attributes.equals attributes' &&
      match children, children' with
      | none, none => true
      | some tree, some tree' => tree.equals tree'
      | _, _ => false

def Tree.equals : Tree → Tree → Bool
  | ⟨nodes⟩, ⟨nodes'⟩ => equalNodes nodes nodes'

def equalNodes : List (String × Node) → List (String × Node) → Bool
  | [], [] => true
  | (name, node) :: rest, (name', node') :: rest' =>
    name == name' && node.equals node' && equalNodes rest rest'
  | _, _ => false

end

/-- The dotted path of a command below its parent's path. -/
def childPath (parent : Option String) (name : String) : String :=
  match parent with
  | none => name
  | some path => path ++ "." ++ name

end DialogTree
