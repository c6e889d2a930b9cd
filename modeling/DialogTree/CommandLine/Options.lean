import DialogTree.Files.Path
import DialogTree.Number.Reading
/-!
# Command lines

A command line names one of four commands and gives its options and paths. Options may stand anywhere behind
the command, and behind two dashes every argument is a path.
-/

namespace DialogTree

namespace CommandLine

inductive InputFormat where
  /-- By the extension of each path. -/
  | auto
  | text
  | json
deriving DecidableEq, Repr

inductive OutputFormat where
  | text
  | json
deriving DecidableEq, Repr

/-- The schemas to check against. -/
structure RegistryOptions where
  catalogs : List Path
  withBuiltin : Bool

structure CheckOptions where
  inputs : List Path
  strict : Bool
  inputFormat : InputFormat
  format : OutputFormat
  registry : RegistryOptions

inductive Command where
  | check (options : CheckOptions)
  /-- A document in canonical form. -/
  | format (input : Path) (inputFormat : InputFormat)
  /-- A document as JSON. -/
  | dump (input : Path) (inputFormat : InputFormat)
  | schemas (format : OutputFormat) (registry : RegistryOptions)

/-- Why a command line names no command to run. -/
inductive Refusal where
  | help
  | usage
deriving DecidableEq, Repr

/-! ## Arguments -/

structure OptionSpec where
  name : String
  /-- The values that the option takes; an option without values is a switch. -/
  accepts : Option (String → Bool)
  repeatable : Bool

namespace OptionSpec

def switch (name : String) : OptionSpec := ⟨name, none, false⟩

def valued (name : String) (accepts : String → Bool) : OptionSpec := ⟨name, some accepts, false⟩

end OptionSpec

structure Signature where
  options : List OptionSpec
  /-- The largest number of paths, where it is limited. -/
  maxPaths : Option Nat

structure Arguments where
  options : List (String × String)
  paths : List String

namespace Arguments

def empty : Arguments := ⟨[], []⟩

def has (arguments : Arguments) (name : String) : Bool :=
  arguments.options.any fun entry => entry.1 == name

def values (arguments : Arguments) (name : String) : List String :=
  (arguments.options.filter fun entry => entry.1 == name).map Prod.snd

def value? (arguments : Arguments) (name : String) : Option String :=
  (arguments.values name).head?

/-- One more option. Only some may be repeated. -/
def addOption (arguments : Arguments) (spec : OptionSpec) (value : String) :
    Except Refusal Arguments :=
  if !spec.repeatable && arguments.has spec.name then .error .usage
  else if spec.accepts.all (· value) then
    .ok { arguments with options := arguments.options ++ [(spec.name, value)] }
  else .error .usage

/-- One more path, which is not empty. -/
def addPath (arguments : Arguments) (signature : Signature) (path : String) :
    Except Refusal Arguments :=
  if path = "" || signature.maxPaths.any (· ≤ arguments.paths.length) then .error .usage
  else .ok { arguments with paths := arguments.paths ++ [path] }

end Arguments

/-- The name of an option that an argument is, with the value behind an equals sign. -/
def optionOf? (argument : String) : Option (String × Option String) :=
  match argument.toList with
  | '-' :: '-' :: rest =>
    let name := String.ofList (rest.takeWhile (· != '='))
    match rest.dropWhile (· != '=') with
    | [] => some (name, none)
    | _ :: value => some (name, some (String.ofList value))
  | _ => none

/-- Whether an argument looks like an option. A single dash does not. -/
def looksLikeOption (argument : String) : Bool :=
  argument.startsWith "-" && argument != "-"

def readArguments (signature : Signature) (arguments : Arguments) :
    List String → Except Refusal Arguments
  | [] => .ok arguments
  | "--" :: paths => paths.foldlM (fun arguments path => arguments.addPath signature path) arguments
  | "-h" :: _ => .error .help
  | "--help" :: _ => .error .help
  | argument :: rest =>
    match optionOf? argument with
    | none =>
      if looksLikeOption argument then .error .usage
      else do readArguments signature (← arguments.addPath signature argument) rest
    | some (name, attached) =>
      match signature.options.find? fun spec => spec.name == name with
      | none => .error .usage
      | some spec =>
        match spec.accepts, attached with
        | none, some _ => .error .usage
        | none, none => do readArguments signature (← arguments.addOption spec "") rest
        | some _, some value => do readArguments signature (← arguments.addOption spec value) rest
        | some _, none =>
          match rest with
          | [] => .error .usage
          | value :: rest =>
            if looksLikeOption value then .error .usage
            else do readArguments signature (← arguments.addOption spec value) rest

/-! ## Commands -/

def inputFormats : List (String × InputFormat) :=
  [("auto", .auto), ("uidl", .text), ("json", .json)]

def outputFormats : List (String × OutputFormat) :=
  [("text", .text), ("json", .json)]

/-- The log filter, which every command takes and which changes no result. -/
def logOption : OptionSpec := .valued "log" fun _ => true

def inputFormatOption : OptionSpec :=
  .valued "input-format" fun value => (List.lookup value inputFormats).isSome

def formatOption : OptionSpec :=
  .valued "format" fun value => (List.lookup value outputFormats).isSome

/-- A number of 64 bits with an optional plus sign. -/
def isJobCount (value : String) : Bool :=
  (readInt? value.toList).any fun n => !value.startsWith "-" && n < 2 ^ 64

/-- The number of documents checked at once, which changes no result. -/
def jobsOption : OptionSpec := .valued "jobs" isJobCount

def registryOptions : List OptionSpec :=
  [⟨"schemas", some (· != ""), true⟩, .switch "no-builtin"]

def checkSignature : Signature :=
  ⟨[logOption, .switch "strict", inputFormatOption, formatOption, jobsOption] ++ registryOptions, none⟩

def documentSignature : Signature := ⟨[logOption, inputFormatOption], some 1⟩

def schemasSignature : Signature := ⟨[logOption, formatOption] ++ registryOptions, some 0⟩

namespace Arguments

def inputFormat (arguments : Arguments) : InputFormat :=
  ((arguments.value? "input-format").bind (List.lookup · inputFormats)).getD .auto

def format (arguments : Arguments) : OutputFormat :=
  ((arguments.value? "format").bind (List.lookup · outputFormats)).getD .text

def registry (arguments : Arguments) : RegistryOptions :=
  ⟨(arguments.values "schemas").map Path.mk, !arguments.has "no-builtin"⟩

end Arguments

def readCheck (rest : List String) : Except Refusal Command := do
  let arguments ← readArguments checkSignature .empty rest
  if arguments.paths.isEmpty then .error .usage
  else .ok (.check {
    inputs := arguments.paths.map Path.mk
    strict := arguments.has "strict"
    inputFormat := arguments.inputFormat
    format := arguments.format
    registry := arguments.registry })

def readDocumentCommand (command : Path → InputFormat → Command) (rest : List String) :
    Except Refusal Command := do
  let arguments ← readArguments documentSignature .empty rest
  match arguments.paths with
  | [path] => .ok (command ⟨path⟩ arguments.inputFormat)
  | _ => .error .usage

def readSchemas (rest : List String) : Except Refusal Command := do
  let arguments ← readArguments schemasSignature .empty rest
  .ok (.schemas arguments.format arguments.registry)

def commands : List (String × (List String → Except Refusal Command)) := [
  ("check", readCheck),
  ("fmt", readDocumentCommand .format),
  ("dump", readDocumentCommand .dump),
  ("schemas", readSchemas)]

def readHelp : List String → Refusal
  | [] => .help
  | ["help"] => .help
  | [name] => if (List.lookup name commands).isSome then .help else .usage
  | _ => .usage

/-- The command that the arguments name. In front of it stands nothing but the log filter. -/
def readCommand (logged : Bool) : List String → Except Refusal Command
  | [] => .error .usage
  | "-h" :: _ => .error .help
  | "--help" :: _ => .error .help
  | "--log" :: value :: rest =>
    if logged || looksLikeOption value then .error .usage else readCommand true rest
  | "help" :: rest => .error (readHelp rest)
  | argument :: rest =>
    match optionOf? argument with
    | some ("log", some _) => if logged then .error .usage else readCommand true rest
    | some _ => .error .usage
    | none =>
      match List.lookup argument commands with
      | some read => read rest
      | none => .error .usage

def Command.ofArguments (arguments : List String) : Except Refusal Command :=
  readCommand false arguments

end CommandLine

end DialogTree
