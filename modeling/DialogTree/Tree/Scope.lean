import DialogTree.Tree.Basic
/-!
# Nested scopes

A scope is reached by the names of the commands around it. A command on the way that has no children yet is
given an empty tree of them.
-/

namespace DialogTree

namespace Tree

/-- The scope below the named commands edited in place; `none` when one of the commands is missing. -/
def editScope {α : Type} (f : Tree → α × Tree) : List String → Tree → Option α × Tree
  | [], tree =>
    let (a, edited) := f tree
    (some a, edited)
  | name :: path, tree =>
    match tree.get? name with
    | none => (none, tree)
    | some node =>
      let (a?, edited) := editScope f path (node.children.getD .empty)
      (a?, tree.modify name fun node => { node with children := some edited })

end Tree

end DialogTree
