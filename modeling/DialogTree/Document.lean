import DialogTree.Grammar
import DialogTree.Json.Document
/-!
# Documents

A document is written in the document grammar or in relaxed JSON. Either way it is read to the end, and
every problem of its text and of its structure is given together.
-/

namespace DialogTree

/-- The tree of declarations, when neither they nor the text they come from have a problem. -/
def finishDocument (document : String) (declarations : List Declaration)
    (errors : List Diagnostic) : Except Diagnostics Tree :=
  let (tree, structural) := canonicalize declarations
  match errors ++ structural.map .structural with
  | [] => .ok tree
  | problems => .error (.ofList document problems)

/-- A text in the document grammar; `document` names it in diagnostics. -/
def readText (source document : String) : Except Diagnostics Tree :=
  let (declarations, errors) := Grammar.document source
  finishDocument document declarations errors

theorem readText_eq (source document : String) : readText source document =
    finishDocument document (Grammar.document source).1 (Grammar.document source).2 := by
  rw [readText]

/-- A text in relaxed JSON; `document` names it in diagnostics. -/
def readJson (source document : String) : Except Diagnostics Tree :=
  let (declarations, errors) := Json.document source
  finishDocument document declarations errors

theorem readJson_eq (source document : String) : readJson source document =
    finishDocument document (Json.document source).1 (Json.document source).2 := by
  rw [readJson]

end DialogTree
