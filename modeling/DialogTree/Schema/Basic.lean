import DialogTree.Rule.Check
import DialogTree.Rule.Fields
import DialogTree.Tree.Keys
/-!
# Schemas

A schema lists the attributes of one kind of command, in declaration order, and bounds the number of its
children. Declarations are checked when the schema is built: the bounds first, then each attribute in turn.
-/

namespace DialogTree

inductive SchemaError where
  | invalidPattern (pattern : String)
  | duplicateAttribute (name : String)
  | reservedAttribute (name : String)
  | invalidChildBounds (min max : Nat)
deriving DecidableEq, Repr

def SchemaError.message : SchemaError → String
  | invalidPattern pattern => "invalid pattern '" ++ pattern ++ "': regex parse error"
  | duplicateAttribute name => "attribute '" ++ name ++ "' declared twice"
  | reservedAttribute name =>
    "attribute '" ++ name ++ "' is a reserved key and cannot be declared"
  | invalidChildBounds min max =>
    "invalid child bounds: min " ++ toString min ++ " exceeds max " ++ toString max

/-- Inclusive bounds on a number of children. -/
structure ChildBounds where
  min : Nat
  max : Option Nat
deriving DecidableEq, Repr

namespace ChildBounds

def exactly (n : Nat) : ChildBounds := ⟨n, some n⟩

def atLeast (n : Nat) : ChildBounds := ⟨n, none⟩

def atMost (n : Nat) : ChildBounds := ⟨0, some n⟩

def contains (bounds : ChildBounds) (count : Nat) : Bool :=
  bounds.min ≤ count && bounds.max.all fun max => count ≤ max

theorem contains_iff {bounds : ChildBounds} {count : Nat} :
    bounds.contains count = true ↔ bounds.min ≤ count ∧ ∀ max ∈ bounds.max, count ≤ max := by
  cases h : bounds.max <;> simp [contains, h]

def text (bounds : ChildBounds) : String :=
  match bounds.max with
  | none => "at least " ++ toString bounds.min
  | some max =>
    if max = bounds.min then "exactly " ++ toString max
    else if bounds.min = 0 then "at most " ++ toString max
    else "between " ++ toString bounds.min ++ " and " ++ toString max

/-- The bounds that a value writes; without a minimum it is zero. -/
def ofJson? (value : Json.Value) : Option ChildBounds := do
  let source ← Json.fieldsOf ["min", "max"] value
  return ⟨← source.getD "min" Json.Value.natural? 0, ← source.limit? "max" Json.Value.natural?⟩

end ChildBounds

structure AttributeSpec where
  name : String
  required : Bool
  checker : Checker

structure Schema where
  attributes : List AttributeSpec
  children : Option ChildBounds

namespace Schema

def empty : Schema := ⟨[], none⟩

instance : Inhabited Schema := ⟨empty⟩

def attribute? (schema : Schema) (name : String) : Option AttributeSpec :=
  schema.attributes.find? fun spec => spec.name == name

end Schema

/-! ## Building -/

inductive Check where
  | rule (rule : Rule)
  | custom (checker : Checker)

structure SchemaEntry where
  name : String
  required : Bool
  check : Check

/-- A schema before its declarations are checked. -/
structure SchemaDraft where
  entries : List SchemaEntry
  children : Option ChildBounds

namespace SchemaEntry

def checker [PatternEngine] (entry : SchemaEntry) : Except SchemaError Checker :=
  match entry.check with
  | .custom checker => .ok checker
  | .rule rule =>
    match rule.invalidPattern? with
    | some pattern => .error (.invalidPattern pattern)
    | none => .ok rule.checker

/-- The declared attribute, behind attributes of the given names. -/
def build [PatternEngine] (earlier : List String) (entry : SchemaEntry) : Except SchemaError AttributeSpec :=
  if isUndeclarable entry.name then .error (.reservedAttribute entry.name)
  else if earlier.contains entry.name then .error (.duplicateAttribute entry.name)
  else entry.checker.map fun checker => ⟨entry.name, entry.required, checker⟩

end SchemaEntry

/-- The attributes of a list of entries, or the error of the first faulty one. -/
def buildEntries [PatternEngine] (earlier : List String) :
    List SchemaEntry → Except SchemaError (List AttributeSpec)
  | [] => .ok []
  | entry :: rest =>
    match entry.build earlier with
    | .error error => .error error
    | .ok spec => (buildEntries (earlier ++ [entry.name]) rest).map (spec :: ·)

namespace SchemaDraft

def empty : SchemaDraft := ⟨[], none⟩

def declare (draft : SchemaDraft) (name : String) (required : Bool) (check : Check) :
    SchemaDraft :=
  { draft with entries := draft.entries ++ [⟨name, required, check⟩] }

def require (draft : SchemaDraft) (name : String) (rule : Rule) : SchemaDraft :=
  draft.declare name true (.rule rule)

def allow (draft : SchemaDraft) (name : String) (rule : Rule) : SchemaDraft :=
  draft.declare name false (.rule rule)

def withChildren (draft : SchemaDraft) (bounds : ChildBounds) : SchemaDraft :=
  { draft with children := some bounds }

/-- The error of bounds that no number meets. -/
def boundsError? (draft : SchemaDraft) : Option SchemaError :=
  match draft.children with
  | some ⟨min, some max⟩ => if max < min then some (.invalidChildBounds min max) else none
  | _ => none

/-- The schema, or the first fault of its declarations. -/
def build [PatternEngine] (draft : SchemaDraft) : Except SchemaError Schema :=
  match draft.boundsError? with
  | some error => .error error
  | none => (buildEntries [] draft.entries).map fun attributes => ⟨attributes, draft.children⟩

end SchemaDraft

end DialogTree
