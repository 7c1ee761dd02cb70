import PolyglotSql.Batch.Format
import PolyglotSql.Document.TomlReader
import PolyglotSql.Failure
import PolyglotSql.Rendering.Quoting

/-!
# PolyglotSql.Settings.Basic

What a run falls back to where its request states nothing. Settings come from a file and are
overridden by environment variables; the names in them are looked up only when they are needed, or
when all of them are checked.
-/

namespace PolyglotSql

/-- Names of a dialect, a quoting mode and an output format as they were configured, and whether
output is colored. -/
structure Settings where
  dialect : Option String
  quoteMode : Option String
  format : Option String
  colored : Bool
deriving DecidableEq, Inhabited

namespace Settings

/-- The settings of a run without a file. -/
def standard : Settings :=
  { dialect := none, quoteMode := none, format := none, colored := true }

/-! ## Files -/

/-- A text in a file. -/
def text? : Toml → Option String
  | .text s => some s
  | _ => none

/-- A flag in a file. -/
def flag? : Toml → Option Bool
  | .flag b => some b
  | _ => none

/-- Takes over an entry of the section on the target. -/
def setTarget (s : Settings) : String × Toml → Option Settings
  | ("dialect", v) => (text? v).map fun name => { s with dialect := some name }
  | ("quote_mode", v) => (text? v).map fun name => { s with quoteMode := some name }
  | _ => none

/-- Takes over an entry of the section on output. -/
def setOutput (s : Settings) : String × Toml → Option Settings
  | ("format", v) => (text? v).map fun name => { s with format := some name }
  | ("colored", v) => (flag? v).map fun colored => { s with colored }
  | _ => none

/-- Takes over a section: a table, or a list of the values in their order, of which those behind
the last key do not count. -/
def setSection (s : Settings) : String × Toml → Option Settings
  | ("translation", .table _ entries) => entries.foldlM setTarget s
  | ("translation", .list (dialect :: mode :: _)) => do
    let s ← s.setTarget ("dialect", dialect)
    s.setTarget ("quote_mode", mode)
  | ("output", .table _ entries) => entries.foldlM setOutput s
  | ("output", .list [format]) => s.setOutput ("format", format)
  | ("output", .list (format :: colored :: _)) => do
    let s ← s.setOutput ("format", format)
    s.setOutput ("colored", colored)
  | _ => none

/-- The settings that a file states. Unknown keys make it invalid. -/
def ofToml (content : String) : Option Settings := do
  let entries ← Toml.read? content
  entries.foldlM setSection standard

/-- Why a file gives no settings. -/
inductive Fault where
  | unreadable (path cause : String)
  | invalid
deriving DecidableEq, Inhabited

def Fault.failure : Fault → Failure
  | .unreadable path cause =>
    .ofSettings ("Failed to read config file '" ++ path ++ "': " ++ cause)
  | .invalid => .ofSettings "Invalid config file"

/-- A file: its path, and its content or why it cannot be read. -/
structure File where
  path : String
  content : Except String String

def ofFile (file : File) : Except Fault Settings :=
  match file.content with
  | .error cause => .error (.unreadable file.path cause)
  | .ok content =>
    match ofToml content with
    | some s => .ok s
    | none => .error .invalid

/-- The name of the file with the settings of a directory. -/
def localFile : String := ".sql-dialect-tree.toml"

/-- Where the settings of a person are kept, below the home directory. -/
def homeFile : String := ".config/sql-dialect-tree/config.toml"

/-- The settings of the directory if it has any, else those of the person, else the standard. -/
def discover (directory person : Option File) : Except Fault Settings :=
  match directory.or person with
  | some file => ofFile file
  | none => .ok standard

/-! ## Environment -/

/-- Overrides settings by environment variables. -/
def override (s : Settings) (environment : String → Option String) : Settings :=
  { s with
    dialect := (environment "SQL_TREE_DIALECT").or s.dialect
    quoteMode := (environment "SQL_TREE_QUOTE_MODE").or s.quoteMode
    format := (environment "SQL_TREE_FORMAT").or s.format }

/-! ## Names -/

/-- What a configured name means; a default where none is configured. -/
def resolve {α : Type} (default : α) (ofName : String → Except String α) :
    Option String → Except Failure α
  | none => .ok default
  | some name =>
    match ofName name with
    | .ok a => .ok a
    | .error message => .error (.ofSettings message)

def targetDialect (s : Settings) : Except Failure Dialect :=
  resolve .generic Dialect.ofName s.dialect

def targetMode (s : Settings) : Except Failure QuoteMode :=
  resolve .whenNeeded QuoteMode.ofName s.quoteMode

def outputFormat (s : Settings) : Except Failure OutputFormat :=
  resolve .text OutputFormat.ofName s.format

/-- Checks every configured name. -/
def validate (s : Settings) : Except Failure Unit := do
  let _ ← s.targetDialect
  let _ ← s.targetMode
  let _ ← s.outputFormat

end Settings
end PolyglotSql
