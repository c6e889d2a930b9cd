/-!
# Keys with a meaning of their own

A command carries its keyword, type and children outside its attributes. Its name is the key under which
its siblings hold it.
-/

namespace DialogTree

def supportedVersion : Nat := 1

def keywordKey : String := "keyword"

def typeKey : String := "type"

def childrenKey : String := "children"

def nameKey : String := "name"

/-- Keys that no attribute may use. The type is absent: it is written like an attribute. -/
def reservedKeys : List String := [keywordKey, childrenKey, nameKey]

/-- Keys that a command carries outside its attributes. -/
def structuralKeys : List String := [keywordKey, typeKey, childrenKey]

/-- Whether a schema may not declare an attribute of this name. -/
def isUndeclarable (key : String) : Bool :=
  structuralKeys.contains key || reservedKeys.contains key

theorem isUndeclarable_iff {key : String} :
    isUndeclarable key = true ↔
      key = keywordKey ∨ key = typeKey ∨ key = childrenKey ∨ key = nameKey := by
  simp only [isUndeclarable, structuralKeys, reservedKeys, Bool.or_eq_true,
    List.contains_iff_mem, List.mem_cons, List.not_mem_nil, or_false]
  grind

end DialogTree
