import PolyglotSql.Batch.Document
import PolyglotSql.Dialect.Registry
import PolyglotSql.Document.Json
import PolyglotSql.Document.Yaml

/-!
# PolyglotSql.Batch.Format

Reports and lists of dialects as they are printed: as JSON, as YAML, or as SQL text in which
everything but the SQL stands in comments, coloured if asked for.
-/

namespace PolyglotSql

inductive OutputFormat where
  | text | json | yaml
deriving DecidableEq, Inhabited

namespace OutputFormat

def name : OutputFormat → String
  | .text => "text"
  | .json => "json"
  | .yaml => "yaml"

/-- The form of a given name, in any case. -/
def ofName (s : String) : Except String OutputFormat :=
  match Text.lower s with
  | "text" => .ok .text
  | "json" => .ok .json
  | "yaml" | "yml" => .ok .yaml
  | other => .error ("Unknown output format '" ++ other ++ "' (expected text, json or yaml)")

end OutputFormat

structure OutputOptions where
  format : OutputFormat
  colored : Bool
  /-- Whether text output repeats each source statement. -/
  verbose : Bool
deriving DecidableEq, Inhabited

/-- The emphasis given to a piece of text output. -/
inductive Emphasis where
  | header | source | error | summary | bindings | identifier
deriving DecidableEq

namespace Emphasis

/-- The terminal code of an emphasis. -/
def code : Emphasis → String
  | .header => "1;36"
  | .source => "2"
  | .error => "31"
  | .summary => "1;31"
  | .bindings => "32"
  | .identifier => "1"

/-- What ends an emphasis on a terminal. -/
def reset : String := "\x1b[0m"

/-- A text with an emphasis; an end of emphasis inside it takes the emphasis up again. -/
def paint (e : Emphasis) (colored : Bool) (s : String) : String :=
  if colored then
    let start := "\x1b[" ++ e.code ++ "m"
    start ++ Text.join (reset ++ start) (Text.splitAt reset s) ++ reset
  else s

end Emphasis

namespace Outcome

/-- The lines of an outcome in text output. -/
def lines (d : Dialect) (options : OutputOptions) (o : Outcome) : List String :=
  let paint := fun (e : Emphasis) s => e.paint options.colored s
  let header := paint .header ("-- #" ++ toString o.index ++ " " ++ d.name)
  let source := if options.verbose then [paint .source ("-- source: " ++ o.source)] else []
  let body := match o.error with
    | some error => [paint .error ("-- error: " ++ error)]
    | none =>
      let bindings :=
        if o.bindings.isEmpty then []
        else [paint .bindings ("-- bindings: " ++ Text.join ", " (o.bindings.map Binding.describe))]
      o.sql.toList ++ bindings
  header :: source ++ body

end Outcome

def endOfLine (s : String) : String :=
  s ++ "\n"

namespace BatchReport

/-- A report as SQL text with comments. -/
def text (options : OutputOptions) (r : BatchReport) : String :=
  let blocks := r.statements.map fun o =>
    endOfLine (Text.join "" ((o.lines r.dialect options).map endOfLine))
  let failed := r.failedCount
  let summary :=
    if 0 < failed then
      endOfLine (Emphasis.paint .summary options.colored ("-- " ++ toString failed ++ " of "
        ++ toString r.statements.length ++ " statements failed"))
    else ""
  Text.join "" blocks ++ summary

def format (options : OutputOptions) (r : BatchReport) : String :=
  match options.format with
  | .text => r.text options
  | .json => r.document.prettyJson
  | .yaml => r.document.yaml

end BatchReport

namespace Registry

/-- One registered dialect as structured data. -/
def entryDocument (entry : String × Dialect) : Document :=
  .record [("id", .text entry.1), ("dialect", .text entry.2.id),
    ("quote_char", .text (String.singleton entry.2.quoteChar))]

/-- One registered dialect as a line of text. -/
def entryLine (colored : Bool) (entry : String × Dialect) : String :=
  endOfLine (Emphasis.paint .identifier colored (Text.padRight 12 entry.1)
    ++ entry.2.name ++ " (quote " ++ String.singleton entry.2.quoteChar ++ ")")

/-- The registered dialects as they are printed. -/
def format (options : OutputOptions) (r : Registry) : String :=
  match options.format with
  | .text => Text.join "" (r.entries.map (entryLine options.colored))
  | .json => (Document.list (r.entries.map entryDocument)).prettyJson
  | .yaml => (Document.list (r.entries.map entryDocument)).yaml

end Registry
end PolyglotSql
