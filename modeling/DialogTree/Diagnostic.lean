import DialogTree.Canonical
import DialogTree.Json.Problem
import DialogTree.Parsing.Failure
/-!
# Diagnostics

Everything that keeps a document from being read. The diagnostics of one document are ordered by offset;
those without a position come first, and equal places keep the order in which they were found.
-/

namespace DialogTree

inductive Diagnostic where
  | grammar (failure : Failure)
  | unsupportedVersion (found : Nat) (position : Option Position)
  | json (problem : Json.Problem) (position : Option Position)
  | structural (error : StructureError)
deriving DecidableEq, Repr

namespace Diagnostic

def position : Diagnostic → Option Position
  | grammar failure => some failure.position
  | unsupportedVersion _ position => position
  | json _ position => position
  | structural error => error.position

def message : Diagnostic → String
  | grammar failure => failure.message
  | unsupportedVersion found _ =>
    "unsupported version " ++ toString found ++ ", only version " ++ toString supportedVersion ++
      " is supported"
  | json problem _ => problem.message
  | structural error => error.message

def precedes (a b : Diagnostic) : Bool :=
  match a.position, b.position with
  | none, _ => true
  | some _, none => false
  | some p, some q => p.offset ≤ q.offset

end Diagnostic

def locatedMessage (document : String) (position : Option Position) (message : String) : String :=
  match position with
  | some position => document ++ ":" ++ position.text ++ ": " ++ message
  | none => document ++ ": " ++ message

structure Diagnostics where
  document : String
  errors : List Diagnostic

namespace Diagnostics

def ofList (document : String) (errors : List Diagnostic) : Diagnostics :=
  ⟨document, errors.mergeSort Diagnostic.precedes⟩

def text (diagnostics : Diagnostics) : String :=
  "\n".intercalate (diagnostics.errors.map fun error =>
    locatedMessage diagnostics.document error.position error.message)

end Diagnostics

end DialogTree
