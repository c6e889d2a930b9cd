import DialogTree.Catalog.Reader
import DialogTree.CommandLine.Options
import DialogTree.Document
import DialogTree.Files.Basic
import DialogTree.Schema.Builtin
import DialogTree.Validation
/-!
# Checking documents

The documents are the given files and the documents directly inside the given directories, each of them once
and in the order of their paths. The status of a run is that of the earliest phase in which a document failed;
without a registry no document is read.
-/

namespace DialogTree

namespace CommandLine

/-- The phases in which a run may fail, earlier ones first. -/
inductive Phase where
  | read
  | parse
  | validation
  | configuration
deriving DecidableEq, Repr

def Phase.exitCode : Phase → Nat
  | read => 3
  | parse => 4
  | validation => 5
  | configuration => 6

def Phase.min (a b : Phase) : Phase :=
  if a.exitCode ≤ b.exitCode then a else b

structure RunError where
  phase : Phase
  message : String
deriving DecidableEq, Repr

/-! ## The registry -/

/-- The registry with a catalog. What cannot be read of an open file is no catalog. -/
def addCatalog [PatternEngine] (files : FileSystem) (registry : Registry) (path : Path) :
    Except String Registry :=
  match files.readText path with
  | .error error =>
    .error (if error.atOpening then "I/O error: " ++ error.message else CatalogError.malformed.message)
  | .ok text =>
    match Catalog.read text with
    | .error error => .error error.message
    | .ok catalog =>
      match catalog.registerInto registry with
      | (next, .ok _) => .ok next
      | (_, .error error) => .error error.message

/-- The built-in schemas, unless they are left out. -/
def startRegistry [PatternEngine] (withBuiltin : Bool) : Except RunError Registry :=
  if withBuiltin then
    match Registry.empty.addBuiltin Builtin.all with
    | (registry, .ok ()) => .ok registry
    | (_, .error error) => .error ⟨.configuration, "built-in schemas: " ++ error.message⟩
  else .ok .empty

def buildRegistry [PatternEngine] (files : FileSystem) (options : RegistryOptions) :
    Except RunError Registry := do
  let start ← startRegistry options.withBuiltin
  let registry ← options.catalogs.foldlM (fun registry path =>
    match addCatalog files registry path with
    | .ok next => .ok next
    | .error reason =>
      .error ⟨.configuration, "schema catalog '" ++ path.text ++ "': " ++ reason⟩) start
  return registry.freeze

/-! ## The documents -/

def documentExtensions : List String := ["uidl", "json"]

def hasDocumentExtension (path : Path) : Bool :=
  path.extension?.any documentExtensions.contains

def isDocument (files : FileSystem) (path : Path) : Bool :=
  hasDocumentExtension path && files.isFile path

/-- The documents that an input stands for: those in a directory, or else the input itself. -/
def expandInput (files : FileSystem) (input : Path) : List Path :=
  match files.names? input with
  | some names => (names.map input.join).filter (isDocument files)
  | none => [input]

def documentPaths (files : FileSystem) (inputs : List Path) : List Path :=
  Path.sorted (inputs.flatMap (expandInput files))

inductive LoadError where
  | unreadable (message : String)
  | unparsable (errors : Diagnostics)

def readsJson (format : InputFormat) (path : Path) : Bool :=
  match format with
  | .auto => path.extension? == some "json"
  | .text => false
  | .json => true

def loadDocument (files : FileSystem) (format : InputFormat) (path : Path) :
    Except LoadError Tree :=
  match files.readText path with
  | .error error =>
    .error (.unreadable ("failed to read '" ++ path.text ++ "': " ++ error.message))
  | .ok source =>
    let tree := if readsJson format path then readJson source path.text else readText source path.text
    tree.mapError .unparsable

/-! ## Outcomes -/

/-- What the check of one document finds. -/
inductive Outcome where
  | unreadable (message : String)
  | unparsable (errors : Diagnostics)
  | checked (report : Report)

def Outcome.failedPhase? : Outcome → Option Phase
  | unreadable _ => some .read
  | unparsable _ => some .parse
  | checked report => if report.isOk then none else some .validation

structure DocumentOutcome where
  document : Path
  outcome : Outcome

def checkDocument (files : FileSystem) (registry : Registry) (options : CheckOptions) (path : Path) :
    DocumentOutcome :=
  let mode : ValidationMode := if options.strict then .strict else .lenient
  ⟨path, match loadDocument files options.inputFormat path with
    | .error (.unreadable message) => .unreadable message
    | .error (.unparsable errors) => .unparsable errors
    | .ok tree => .checked (registry.validate mode tree)⟩

def checkDocuments [PatternEngine] (files : FileSystem) (options : CheckOptions) :
    Except RunError (List DocumentOutcome) := do
  let registry ← buildRegistry files options.registry
  let paths := documentPaths files options.inputs
  if paths.isEmpty then
    .error ⟨.read, "no .uidl or .json documents found in the given inputs"⟩
  else
    .ok (paths.map (checkDocument files registry options))

def failedPhases (outcomes : List DocumentOutcome) : List Phase :=
  outcomes.filterMap fun outcome => outcome.outcome.failedPhase?

def earliest? : List Phase → Option Phase
  | [] => none
  | phase :: rest => some (rest.foldl Phase.min phase)

/-- The failure of a run in which documents failed. -/
def failureOf? (outcomes : List DocumentOutcome) : Option RunError :=
  let failed := failedPhases outcomes
  (earliest? failed).map fun phase => ⟨phase, toString failed.length ++ " of " ++
    toString outcomes.length ++ " document(s) failed"⟩

end CommandLine

end DialogTree
