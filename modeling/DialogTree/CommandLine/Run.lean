import DialogTree.CommandLine.Report
import DialogTree.Render
/-!
# Running commands

A run maps the files and the arguments to an exit status and to what is written. A document command fails
with the first thing that keeps its document from being read.
-/

namespace DialogTree

namespace CommandLine

structure Result where
  exitCode : Nat
  output : Output
deriving DecidableEq, Repr

/-- The status of a command line that names no command. -/
def usageExitCode : Nat := 2

def usageText : String :=
  "usage: uidl [--log FILTER] check|fmt|dump|schemas [OPTION...] [PATH...]\n" ++
  "  check    check documents and directories of documents\n" ++
  "           --strict --input-format auto|uidl|json --format text|json --jobs N\n" ++
  "           --schemas CATALOG --no-builtin\n" ++
  "  fmt      write a document in canonical form; --input-format\n" ++
  "  dump     write a document as JSON; --input-format\n" ++
  "  schemas  list the registered schemas; --format --schemas --no-builtin\n"

/-- What has been written, followed by the failure if there is one. -/
def Result.ofOutput (output : Output) (failure : Option RunError) : Result :=
  match failure with
  | none => ⟨0, output⟩
  | some error => ⟨error.phase.exitCode, output ++ .note ("error: " ++ error.message)⟩

def Result.ofError (error : RunError) : Result :=
  .ofOutput .empty (some error)

def runCheck [PatternEngine] (files : FileSystem) (options : CheckOptions) : Result :=
  match checkDocuments files options with
  | .error error => .ofError error
  | .ok outcomes => .ofOutput (reportOutcomes options.format outcomes) (failureOf? outcomes)

def LoadError.toRunError : LoadError → RunError
  | unreadable message => ⟨.read, message⟩
  | unparsable errors => ⟨.parse, errors.text⟩

def runDocument (files : FileSystem) (write : Tree → Output) (input : Path) (format : InputFormat) :
    Result :=
  match loadDocument files format input with
  | .error error => .ofError error.toRunError
  | .ok tree => .ofOutput (write tree) none

def runSchemas [PatternEngine] (files : FileSystem) (format : OutputFormat) (options : RegistryOptions) :
    Result :=
  match buildRegistry files options with
  | .error error => .ofError error
  | .ok registry => .ofOutput (reportSchemas format registry) none

def Command.run [PatternEngine] (files : FileSystem) : Command → Result
  | check options => runCheck files options
  | format input inputFormat => runDocument files (fun tree => ⟨tree.render, ""⟩) input inputFormat
  | dump input inputFormat =>
    runDocument files (fun tree => .line tree.toJson.prettyText) input inputFormat
  | schemas outputFormat options => runSchemas files outputFormat options

def Command.paths : Command → List Path
  | check options => options.registry.catalogs ++ options.inputs
  | format input _ => [input]
  | dump input _ => [input]
  | schemas _ options => options.catalogs

def run [PatternEngine] (files : FileSystem) (arguments : List String) : Result :=
  match Command.ofArguments arguments with
  | .ok command => command.run files
  | .error .help => ⟨0, ⟨usageText, ""⟩⟩
  | .error .usage => ⟨usageExitCode, ⟨"", usageText⟩⟩

end CommandLine

end DialogTree
