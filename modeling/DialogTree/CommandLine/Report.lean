import DialogTree.CommandLine.Check
import DialogTree.Json.Printer
/-!
# Reports

The outcomes of a check and the schemas of a registry, as lines of text or as JSON. In text, warnings are
kept apart from everything else.
-/

namespace DialogTree

namespace CommandLine

/-- What a run writes: its results, and what is said about the run. -/
structure Output where
  out : String
  err : String
deriving DecidableEq, Repr

namespace Output

def empty : Output := ⟨"", ""⟩

def append (a b : Output) : Output := ⟨a.out ++ b.out, a.err ++ b.err⟩

instance : Append Output := ⟨append⟩

def line (text : String) : Output := ⟨text ++ "\n", ""⟩

def note (text : String) : Output := ⟨"", text ++ "\n"⟩

def ofLines (lines : List String) : Output := (lines.map line).foldl append empty

end Output

/-! ## Outcomes -/

def DocumentOutcome.lines (outcome : DocumentOutcome) : Output :=
  let document := outcome.document.text
  match outcome.outcome with
  | .unreadable message => .line message
  | .unparsable errors => .line errors.text
  | .checked report =>
    .ofLines (report.errors.map fun error => locatedMessage document error.position error.message) ++
      (report.warnings.map fun warning =>
        Output.note ("warning: " ++ locatedMessage document warning.position warning.message)).foldl
          Output.append .empty ++
      if report.isOk then .line (document ++ ": ok") else .empty

def findingToJson (position : Option Position) (message : String) : Json.Value :=
  .object [
    ("line", Rule.optional (fun position : Position => Rule.natural position.line) position),
    ("column", Rule.optional (fun position : Position => Rule.natural position.column) position),
    ("message", .string message)]

def Outcome.status : Outcome → String
  | unreadable _ => "unreadable"
  | unparsable _ => "parse_error"
  | checked report => if report.isOk then "ok" else "invalid"

def Outcome.errorsToJson : Outcome → List Json.Value
  | unreadable message => [findingToJson none message]
  | unparsable errors => errors.errors.map fun error => findingToJson error.position error.message
  | checked report => report.errors.map fun error => findingToJson error.position error.message

def Outcome.warningsToJson : Outcome → List Json.Value
  | checked report =>
    report.warnings.map fun warning => findingToJson warning.position warning.message
  | _ => []

def DocumentOutcome.toJson (outcome : DocumentOutcome) : Json.Value :=
  .object [
    ("document", .string outcome.document.text),
    ("status", .string outcome.outcome.status),
    ("errors", .array outcome.outcome.errorsToJson),
    ("warnings", .array outcome.outcome.warningsToJson)]

def reportOutcomes (format : OutputFormat) (outcomes : List DocumentOutcome) : Output :=
  match format with
  | .text => (outcomes.map DocumentOutcome.lines).foldl Output.append .empty
  | .json => .line (Json.Value.array (outcomes.map DocumentOutcome.toJson)).prettyText

/-! ## Schemas -/

def padded (width : Nat) (text : String) : String :=
  text ++ String.ofList (List.replicate (width - text.length) ' ')

def AttributeSpec.line (spec : AttributeSpec) : String :=
  let presence := if spec.required then "required" else "optional"
  "  " ++ padded 12 spec.name ++ " " ++ padded 8 presence ++ " " ++ spec.checker.label

def schemaLines (key : SchemaKey) (schema : Schema) : List String :=
  key.text :: schema.attributes.map AttributeSpec.line ++
    (schema.children.map fun bounds => "  children: " ++ bounds.text).toList

def AttributeSpec.toJson (spec : AttributeSpec) : Json.Value :=
  .object [("name", .string spec.name), ("required", .bool spec.required),
    ("rule", .string spec.checker.label)]

def schemaToJson (key : SchemaKey) (schema : Schema) : Json.Value :=
  .object [
    ("keyword", .string key.keyword),
    ("type", .string key.kind),
    ("attributes", .array (schema.attributes.map AttributeSpec.toJson)),
    ("children", Rule.optional (fun bounds : ChildBounds => .string bounds.text) schema.children)]

def reportSchemas (format : OutputFormat) (registry : Registry) : Output :=
  match format with
  | .text =>
    .ofLines (registry.entries.flatMap fun entry => schemaLines entry.1 entry.2) ++
      .line (toString registry.size ++ " schema(s) registered.")
  | .json => .line (Json.Value.array (registry.entries.map fun entry =>
      schemaToJson entry.1 entry.2)).prettyText

end CommandLine

end DialogTree
