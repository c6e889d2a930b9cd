import DialogTree.Tree.Basic
/-!
# Declarations

A declaration is a command as it was written, before names and keys are checked. Attributes keep their
order and may repeat; the type is still one of them.
-/

namespace DialogTree

structure DeclaredAttribute where
  key : String
  value : Value
  position : Option Position

structure Declaration where
  name : String
  keyword : String
  position : Option Position
  attributes : List DeclaredAttribute
  /-- The nested declarations, when a body was written. -/
  body : Option (List Declaration)

instance : Inhabited Declaration := ⟨⟨"", "", none, [], none⟩⟩

end DialogTree
