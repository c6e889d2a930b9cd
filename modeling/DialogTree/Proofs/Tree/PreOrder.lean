import DialogTree.Tree.Basic

/-!
# Commands in pre-order

The commands of a tree with the names that lead to them: a command comes before the commands below it, and
those before its later siblings.
-/

namespace DialogTree

/-- The path that the names above a command spell, if there are any. -/
def parentPath (above : List String) : Option String :=
  if above = [] then none else some (".".intercalate above)

theorem childPath_parentPath (above : List String) (name : String) :
    childPath (parentPath above) name = ".".intercalate (above ++ [name]) := by
  by_cases hAbove : above = []
  · subst hAbove
    exact String.intercalate_singleton.symm
  · rw [String.intercalate_append_of_ne_nil hAbove (List.cons_ne_nil _ _), String.intercalate_singleton,
      parentPath, if_neg hAbove, childPath]

theorem parentPath_concat (above : List String) (name : String) :
    parentPath (above ++ [name]) = some (childPath (parentPath above) name) := by
  rw [childPath_parentPath, parentPath, if_neg (List.append_ne_nil_of_right_ne_nil _ (List.cons_ne_nil _ _))]

mutual

/-- The commands below a command that the given names lead to. -/
def Node.commandsBelow (above : List String) : Node → List (List String × Node)
  | ⟨_, _, _, none, _⟩ => []
  | ⟨_, _, _, some children, _⟩ => children.commandsUnder above

def Tree.commandsUnder (above : List String) : Tree → List (List String × Node)
  | ⟨nodes⟩ => commandsOf above nodes

def commandsOf (above : List String) : List (String × Node) → List (List String × Node)
  | [] => []
  | (name, node) :: rest =>
    (above ++ [name], node) :: (node.commandsBelow (above ++ [name]) ++ commandsOf above rest)

end

def Tree.commands (tree : Tree) : List (List String × Node) :=
  tree.commandsUnder []

/-- The names lead to the command, from the root of the tree down. -/
inductive CommandAt : Tree → List String → Node → Prop where
  | top {tree : Tree} {name : String} {node : Node} (hMem : (name, node) ∈ tree.nodes) :
      CommandAt tree [name] node
  | inner {tree children : Tree} {name : String} {names : List String} {parent node : Node}
      (hMem : (name, parent) ∈ tree.nodes) (hChildren : parent.children = some children)
      (hBelow : CommandAt children names node) : CommandAt tree (name :: names) node

/-- What stands in a command that is alone stands in every scope of the command. -/
theorem CommandAt.of_mem {entry : String × Node} {nodes : List (String × Node)} {names : List String} {node : Node}
    (hMem : entry ∈ nodes) (h : CommandAt ⟨[entry]⟩ names node) : CommandAt ⟨nodes⟩ names node := by
  cases h with
  | top hOne =>
    obtain rfl := List.mem_singleton.mp hOne
    exact .top hMem
  | inner hOne hChildren hBelow =>
    obtain rfl := List.mem_singleton.mp hOne
    exact .inner hMem hChildren hBelow

theorem commandAt_nil {names : List String} {node : Node} : ¬ CommandAt ⟨[]⟩ names node := by
  intro h
  cases h with
  | top hMem => cases hMem
  | inner hMem _ _ => cases hMem

theorem commandAt_cons {name : String} {first : Node} {rest : List (String × Node)} {names : List String}
    {node : Node} :
    CommandAt ⟨(name, first) :: rest⟩ names node ↔
      (names = [name] ∧ node = first) ∨
        (∃ children below, first.children = some children ∧ names = name :: below ∧
          CommandAt children below node) ∨ CommandAt ⟨rest⟩ names node := by
  constructor
  · intro h
    cases h with
    | top hMem =>
      rcases List.mem_cons.mp hMem with hSame | hMem
      · cases hSame
        exact .inl ⟨rfl, rfl⟩
      · exact .inr (.inr (.top hMem))
    | inner hMem hChildren hBelow =>
      rcases List.mem_cons.mp hMem with hSame | hMem
      · cases hSame
        exact .inr (.inl ⟨_, _, hChildren, rfl, hBelow⟩)
      · exact .inr (.inr (.inner hMem hChildren hBelow))
  · rintro (⟨rfl, rfl⟩ | ⟨children, below, hChildren, rfl, hBelow⟩ | h)
    · exact .top List.mem_cons_self
    · exact .inner List.mem_cons_self hChildren hBelow
    · cases h with
      | top hMem => exact .top (List.mem_cons_of_mem _ hMem)
      | inner hMem hChildren hBelow => exact .inner (List.mem_cons_of_mem _ hMem) hChildren hBelow

mutual

theorem mem_commandsBelow (above names : List String) (node : Node) : ∀ parent : Node,
    (names, node) ∈ parent.commandsBelow above ↔
      ∃ children below, parent.children = some children ∧ names = above ++ below ∧
        CommandAt children below node
  | ⟨_, _, _, none, _⟩ => by simp [Node.commandsBelow]
  | ⟨_, _, _, some children, _⟩ => by
    rw [Node.commandsBelow, mem_commandsUnder above names node children]
    simp

theorem mem_commandsUnder (above names : List String) (node : Node) : ∀ tree : Tree,
    (names, node) ∈ tree.commandsUnder above ↔ ∃ below, names = above ++ below ∧ CommandAt tree below node
  | ⟨nodes⟩ => by
    rw [Tree.commandsUnder]
    exact mem_commandsOf above names node nodes

theorem mem_commandsOf (above names : List String) (node : Node) : ∀ nodes : List (String × Node),
    (names, node) ∈ commandsOf above nodes ↔ ∃ below, names = above ++ below ∧ CommandAt ⟨nodes⟩ below node
  | [] => by
    simp [commandsOf, commandAt_nil]
  | (name, first) :: rest => by
    rw [commandsOf, List.mem_cons, List.mem_append, mem_commandsBelow (above ++ [name]) names node first,
      mem_commandsOf above names node rest]
    simp only [commandAt_cons, Prod.mk.injEq]
    constructor
    · rintro (⟨rfl, rfl⟩ | ⟨children, below, hChildren, rfl, hAt⟩ | ⟨below, rfl, hAt⟩)
      · exact ⟨[name], rfl, .inl ⟨rfl, rfl⟩⟩
      · exact ⟨name :: below, by simp, .inr (.inl ⟨children, below, hChildren, rfl, hAt⟩)⟩
      · exact ⟨below, rfl, .inr (.inr hAt)⟩
    · rintro ⟨below, rfl, ⟨rfl, rfl⟩ | ⟨children, below, hChildren, rfl, hAt⟩ | hAt⟩
      · exact .inl ⟨rfl, rfl⟩
      · exact .inr (.inl ⟨children, below, hChildren, by simp, hAt⟩)
      · exact .inr (.inr ⟨below, rfl, hAt⟩)

end

theorem mem_commands_iff {tree : Tree} {names : List String} {node : Node} :
    (names, node) ∈ tree.commands ↔ CommandAt tree names node := by
  rw [Tree.commands, mem_commandsUnder]
  simp

end DialogTree
