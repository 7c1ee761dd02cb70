import PolyglotSql.Batch.Format
import PolyglotSql.CommandLine.Option
import PolyglotSql.Rendering.Quoting

/-!
# PolyglotSql.CommandLine.Invocation

The commands of the program. The settings file may be stated before the subcommand or behind it; of
both places the latter counts, and an environment variable counts if neither states it.
-/

namespace PolyglotSql

/-- What a request to translate a script states; whatever is missing is taken from the settings. -/
structure TranslateRequest where
  /-- Path of the script, or `-` for standard input. -/
  queries : String
  /-- Path of the script that declares the tables. -/
  schema : Option String
  dialect : Option Dialect
  mode : Option QuoteMode
  format : Option OutputFormat
  /-- Whether source statements are repeated. -/
  verbose : Bool
  /-- Whether output is not colored, whatever the settings say. -/
  plain : Bool
deriving DecidableEq, Inhabited

structure ListRequest where
  format : Option OutputFormat
  plain : Bool
deriving DecidableEq, Inhabited

inductive Request where
  | translate (r : TranslateRequest)
  | dialects (r : ListRequest)
deriving DecidableEq, Inhabited

/-- A request with the file of its settings. -/
structure Invocation where
  settings : Option String
  request : Request
deriving DecidableEq, Inhabited

namespace Invocation

def programName : String := "sql-dialect-tree"

/-- The name of the program with its version. -/
def version : String := programName ++ " 0.1.0\n"

/-- The environment variable that states the settings file. -/
def settingsVariable : String := "SQL_TREE_CONFIG"

/-! ## Values -/

/-- A path must not be empty. -/
def refusedPath? (s : String) : Option UsageFault :=
  if s.isEmpty then some .invalidValue else none

def modeValue? (s : String) : Option QuoteMode :=
  [QuoteMode.never, .whenNeeded, .always].find? (·.name == s)

def formatValue? (s : String) : Option OutputFormat :=
  [OutputFormat.text, .json, .yaml].find? (·.name == s)

def dialectValue? (s : String) : Option Dialect :=
  (Dialect.ofName s).toOption

/-- Refuses a value that stands for nothing. -/
def refusedUnless {α : Type} (fault : UsageFault) (ofValue? : String → Option α) (s : String) :
    Option UsageFault :=
  if (ofValue? s).isSome then none else some fault

/-! ## Options -/

def settingsOption : OptionForm :=
  ⟨"config", none, .value refusedPath?⟩

def helpOption : OptionForm :=
  ⟨"help", some 'h', .help⟩

def formatOption : OptionForm :=
  ⟨"output-format", some 'f', .value (refusedUnless .invalidValue formatValue?)⟩

def plainOption : OptionForm :=
  ⟨"no-color", none, .flag⟩

def programForm : CommandForm :=
  { options := [settingsOption, helpOption, ⟨"version", some 'V', .version⟩]
    subcommands := ["translate", "dialects", "help"] }

def translateForm : CommandForm :=
  { options := [
      ⟨"queries", some 'q', .value refusedPath?⟩,
      ⟨"schema", some 's', .value refusedPath?⟩,
      ⟨"dialect", some 'd', .value (refusedUnless .refusedValue dialectValue?)⟩,
      ⟨"quote", none, .value (refusedUnless .invalidValue modeValue?)⟩,
      formatOption,
      ⟨"verbose", some 'v', .flag⟩,
      plainOption, settingsOption, helpOption]
    subcommands := [] }

def dialectsForm : CommandForm :=
  { options := [formatOption, plainOption, settingsOption, helpOption]
    subcommands := [] }

/-! ## Reading -/

/-- Adds the settings file that the environment states, if no option states one. -/
def addVariable (environment : String → Option String) (r : OptionReading) :
    Except UsageFault OptionReading :=
  match r.value? settingsOption.name, environment settingsVariable with
  | none, some path => r.addValue settingsOption path
  | _, _ => .ok r

def translateRequest (r : OptionReading) : Except UsageFault TranslateRequest :=
  match r.value? "queries" with
  | none => .error .missingArgument
  | some queries => .ok {
      queries
      schema := r.value? "schema"
      dialect := (r.value? "dialect").bind dialectValue?
      mode := (r.value? "quote").bind modeValue?
      format := (r.value? "output-format").bind formatValue?
      verbose := r.isSet "verbose"
      plain := r.isSet "no-color" }

def listRequest (r : OptionReading) : ListRequest :=
  { format := (r.value? "output-format").bind formatValue?, plain := r.isSet "no-color" }

/-- Reads what help is wanted on: nothing, or a subcommand. -/
def readHelp : List String → UsageFault
  | [] => .helpWanted
  | [s] => if programForm.subcommands.contains s then .helpWanted else .unknownSubcommand
  | _ => .unknownSubcommand

def read (environment : String → Option String) (args : List String) :
    Except UsageFault Invocation := do
  let (outer, subcommand) ← programForm.read .empty args
  match subcommand with
  | none =>
    let outer ← addVariable environment (← outer.settle)
    .error (if outer.found.isEmpty then .nothingStated else .missingSubcommand)
  | some ("help", rest) => .error (readHelp rest)
  | some (name, rest) =>
    let translates := name = "translate"
    let (inner, _) ← (if translates then translateForm else dialectsForm).read .empty rest
    let inner ← inner.settle
    let _ ← addVariable environment inner
    let request ← if translates then .translate <$> translateRequest inner
      else pure (.dialects (listRequest inner))
    let outer ← outer.settle
    let _ ← addVariable environment outer
    let stated := (inner.value? settingsOption.name).or (outer.value? settingsOption.name)
    return { settings := stated.or (environment settingsVariable), request }

end Invocation
end PolyglotSql
