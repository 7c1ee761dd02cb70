import PolyglotSql.Batch.Format
import PolyglotSql.Batch.Reuse
import PolyglotSql.CommandLine.Invocation
import PolyglotSql.Dialect.Registry
import PolyglotSql.Schema.Declaration
import PolyglotSql.Settings.Basic

/-!
# PolyglotSql.Run

From a request and settings to what is printed. What a request states wins over the settings. The
first fault counts, in this order: names in the settings that are needed, the schema, the queries.
-/

namespace PolyglotSql

/-- Output with the exit code of the run. -/
structure CommandOutput where
  exitCode : Nat
  output : String
deriving DecidableEq, Inhabited

/-- Why a run ends without output. -/
inductive Halt where
  | failure (f : Failure)
  /-- A tree was found in a state that no statement should lead to. -/
  | defect (d : Defect)
deriving DecidableEq, Inhabited

/-- The scripts that a request reads: their content, or why it cannot be read. -/
structure Inputs where
  queries : Except String String
  schema : Except String String

/-- The reports that a process keeps. Schemas and keys stand for their hashes. -/
abbrev Reports := ReportCache (List Value.HashItem) (CacheKey (List Value.HashItem))

def Reports.empty : Reports :=
  ReportCache.new ReportCache.standardCapacity id

namespace Settings

def outputOptions (s : Settings) (format : Option OutputFormat) (plain verbose : Bool) :
    Except Failure OutputOptions := do
  let format ← match format with
    | some format => pure format
    | none => s.outputFormat
  return { format, colored := !plain && s.colored, verbose }

end Settings

namespace TranslateRequest

/-- How messages call the file of the queries. -/
def queriesName (r : TranslateRequest) : String :=
  if r.queries = "-" then "stdin" else r.queries

/-- The translator that a request asks for, and how its output is printed. -/
def plan (r : TranslateRequest) (s : Settings) : Except Failure (Translator × OutputOptions) := do
  let dialect ← match r.dialect with
    | some dialect => pure dialect
    | none => s.targetDialect
  let mode ← match r.mode with
    | some mode => pure mode
    | none => s.targetMode
  let options ← s.outputOptions r.format r.plain r.verbose
  return ({ dialect, mode }, options)

def catalog (r : TranslateRequest) (inputs : Inputs) : Except Failure Catalog :=
  match r.schema with
  | none => .ok .empty
  | some path =>
    match inputs.schema with
    | .ok script => Catalog.parse script
    | .error cause => .error (.ofFile path cause)

def script (r : TranslateRequest) (inputs : Inputs) : Except Failure String :=
  match inputs.queries with
  | .ok script => .ok script
  | .error cause => .error (.ofFile r.queriesName cause)

/-- What is printed on a request, and the reports that are kept afterwards. -/
def run (r : TranslateRequest) (s : Settings) (inputs : Inputs) (reports : Reports) :
    Except Halt CommandOutput × Reports :=
  let prepared : Except Failure (Translator × OutputOptions × Catalog × String) := do
    let (translator, options) ← r.plan s
    let catalog ← r.catalog inputs
    return (translator, options, catalog, ← r.script inputs)
  match prepared with
  | .error f => (.error (.failure f), reports)
  | .ok (translator, options, catalog, script) =>
    match translator.translateCached id id reports catalog script with
    | (.ok (.ok report), reports) =>
      (.ok { exitCode := report.exitCode, output := report.format options }, reports)
    | (.ok (.error f), reports) => (.error (.failure f), reports)
    | (.error d, reports) => (.error (.defect d), reports)

end TranslateRequest

namespace ListRequest

def run (r : ListRequest) (s : Settings) : Except Halt CommandOutput :=
  match s.outputOptions r.format r.plain false with
  | .ok options => .ok { exitCode := 0, output := Registry.standard.format options }
  | .error f => .error (.failure f)

end ListRequest

namespace Request

def run (r : Request) (s : Settings) (inputs : Inputs) : Except Halt CommandOutput :=
  match r with
  | .translate r => (r.run s inputs .empty).1
  | .dialects r => r.run s

end Request

/-- The files and the environment that a process runs in. -/
structure Surroundings where
  environment : String → Option String
  file : String → Except String String
  /-- Whether there is anything under a path. -/
  hasFile : String → Bool
  standardInput : Except String String
  /-- Whether output goes to a terminal. -/
  terminal : Bool

/-- Whether a variable of the environment switches something on or off, if it is set. -/
def Surroundings.switch? (w : Surroundings) (name : String) : Option Bool :=
  (w.environment name).map (· ≠ "0")

/-- Whether output can be colored: if the environment forces it, or else if the environment does not
forbid it and output goes to a terminal. -/
def Surroundings.showsColors (w : Surroundings) : Bool :=
  if w.switch? "CLICOLOR_FORCE" = some true then true
  else if (w.switch? "NO_COLOR").isSome then false
  else (w.switch? "CLICOLOR").getD true && w.terminal

namespace Invocation

/-- Where the settings of the person are kept whose home directory a variable states. -/
def homeSettings (environment : String → Option String) : Option String :=
  (environment "HOME").map (· ++ "/" ++ Settings.homeFile)

/-- Every file that an invocation may read. -/
def paths (i : Invocation) (environment : String → Option String) : List String :=
  let settings := match i.settings with
    | some path => [path]
    | none => Settings.localFile :: (homeSettings environment).toList
  match i.request with
  | .translate r => settings ++ r.schema.toList ++ [r.queries]
  | .dialects _ => settings

def readsInput (i : Invocation) : Bool :=
  match i.request with
  | .translate r => r.queries == "-"
  | .dialects _ => false

/-- The settings of an invocation: those of its file, or else those that are discovered, overridden
by the environment. Every name in them must mean something. -/
def load (i : Invocation) (w : Surroundings) : Except Failure Settings := do
  let file (path : String) : Settings.File := ⟨path, w.file path⟩
  let existing (path : String) : Option Settings.File :=
    if w.hasFile path then some (file path) else none
  let read := match i.settings with
    | some path => Settings.ofFile (file path)
    | none =>
      Settings.discover (existing Settings.localFile) ((homeSettings w.environment).bind existing)
  match read with
  | .error fault => .error fault.failure
  | .ok s =>
    let s := s.override w.environment
    s.validate
    return s

def inputs (i : Invocation) (w : Surroundings) : Inputs :=
  match i.request with
  | .translate r => {
      queries := if r.queries = "-" then w.standardInput else w.file r.queries
      schema := match r.schema with
        | some path => w.file path
        | none => .ok "" }
  | .dialects _ => { queries := .ok "", schema := .ok "" }

def run (i : Invocation) (w : Surroundings) : Except Halt CommandOutput :=
  match i.load w with
  | .error f => .error (.failure f)
  | .ok s => i.request.run { s with colored := s.colored && w.showsColors } (i.inputs w)

end Invocation

/-- What became of a process: its exit code, what it printed, and what it reported as an error. -/
structure ProcessEnd where
  exitCode : Nat
  output : String
  complaint : Option String
deriving DecidableEq, Inhabited

namespace UsageFault

def message : UsageFault → String
  | .helpWanted | .nothingStated => "usage: " ++ Invocation.programName ++ " <translate | dialects> [options]"
  | .versionWanted => Invocation.version
  | .missingSubcommand => "a subcommand is missing"
  | .missingArgument => "a required option is missing"
  | .invalidValue => "an option has an invalid value"
  | .refusedValue => "an option has a value that stands for nothing"
  | .repeatedOption => "an option is stated twice"
  | .unknownArgument => "an argument is unknown"
  | .tooManyValues => "a flag has a value"
  | .unknownSubcommand => "a subcommand is unknown"

def processEnd (f : UsageFault) : ProcessEnd :=
  match f with
  | .helpWanted => { exitCode := 0, output := f.message ++ "\n", complaint := none }
  | .versionWanted => { exitCode := 0, output := f.message, complaint := none }
  | f => { exitCode := 2, output := "", complaint := some f.message }

end UsageFault

/-- How the process ends that the program is called as with given arguments. -/
def process (args : List String) (w : Surroundings) : ProcessEnd :=
  match Invocation.read w.environment args with
  | .error fault => fault.processEnd
  | .ok i =>
    match i.run w with
    | .ok out => { exitCode := out.exitCode, output := out.output, complaint := none }
    | .error (.failure ⟨.broken, message⟩) => { exitCode := 101, output := "", complaint := some message }
    | .error (.failure f) => { exitCode := 1, output := "", complaint := some ("Error: " ++ f.message) }
    | .error (.defect d) => { exitCode := 101, output := "", complaint := some d.message }

end PolyglotSql
