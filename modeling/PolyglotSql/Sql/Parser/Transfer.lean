import PolyglotSql.Sql.Parser.Query
import PolyglotSql.Text.Quoted

/-!
# PolyglotSql.Sql.Parser.Transfer

Statements that move rows between tables and files, and that attach the files of databases. They
are read to be written again, and are kept as text.

Rows that stand in the script itself follow its statement. They are cut at tabs and line ends, so
that the blanks of a script count there.
-/

namespace PolyglotSql
namespace Sql
namespace Parser

/-! ## Values of options -/

/-- Reads a text of a single byte, as it is written between single quotes. -/
def quotedByte : Parser String := do
  let t ← peek
  let s ← literalText
  if s.utf8ByteSize ≠ 1 then fail ("Expect a char, found " ++ Text.quoted s ++ t.place)
  return "'" ++ s ++ "'"

/-- Reads a text in single quotes, as it is written behind a blank, if it is next. -/
def optionalText : Parser String := do
  match (← peek).token with
  | .text .plain s =>
    skip
    return " " ++ withQuotes '\'' s
  | _ => return ""

/-- Reads whether something is done, as it is written behind a blank, if it is stated. -/
def optionalSwitch : Parser String := do
  match ← takeOneOf ["TRUE", "FALSE", "ON", "OFF"] with
  | some k => return if k == "TRUE" || k == "ON" then " TRUE" else " FALSE"
  | none => return ""

def fileSize : Parser String := do
  let n ← numberValue
  return n.written ++ (← optionalOneOf ["MB", "GB"])

def engineRole : Parser String := do
  if ← takeKeyword "DEFAULT" then return "DEFAULT" else bareLiteral

/-! ## Options of a copy -/

def copyOption : Parser String := do
  let setting (k : String) : Parser String := do
    match ← takeOneOf ["TRUE", "FALSE"] with
    | some "FALSE" => return k ++ " FALSE"
    | _ => return k
  match ← takeOneOf ["FORMAT", "FREEZE", "DELIMITER", "NULL", "HEADER", "QUOTE", "ESCAPE", "FORCE_QUOTE",
      "FORCE_NOT_NULL", "FORCE_NULL", "ENCODING"] with
  | some "FORMAT" => return "FORMAT " ++ (← nameShown)
  | some "FREEZE" => setting "FREEZE"
  | some "HEADER" => setting "HEADER"
  | some "NULL" => return "NULL " ++ (← quotedLiteral)
  | some "ENCODING" => return "ENCODING " ++ (← quotedLiteral)
  | some k =>
    if ["DELIMITER", "QUOTE", "ESCAPE"].contains k then return k ++ " " ++ (← quotedByte)
    return k ++ " (" ++ namesText (← columnList name) ++ ")"
  | none => expected "option"

def separatedValuesOption : Parser String := do
  match ← takeOneOf ["HEADER", "QUOTE", "ESCAPE", "FORCE"] with
  | some "HEADER" => return "HEADER"
  | some "FORCE" =>
    if ← takeKeywords ["NOT", "NULL"] then return "FORCE NOT NULL " ++ (← namesShown)
    if ← takeKeyword "QUOTE" then return "FORCE QUOTE " ++ (← namesShown)
    expected "csv option"
  | some k =>
    let _ ← takeKeyword "AS"
    return k ++ " " ++ (← quotedByte)
  | none => expected "csv option"

/-- The options of a copy without parentheses that are nothing but their word. -/
def bareCopyOptions : List String :=
  ["ACCEPTANYDATE", "ADDQUOTES", "ALLOWOVERWRITE", "BINARY", "BLANKSASNULL", "BZIP2", "CLEANPATH",
   "EMPTYASNULL", "ESCAPE", "GZIP", "HEADER", "JSON", "PARQUET", "REMOVEQUOTES", "TRUNCATECOLUMNS",
   "ZSTD"]

/-- The options of a copy without parentheses that have a value, and the words that may stand
between. -/
def valuedCopyOptions : List (String × List String × Parser String) :=
  let plain (p : Parser String) : Parser String := do
    return " " ++ (← p)
  [("ACCEPTINVCHARS", ["AS"], optionalText), ("DATEFORMAT", ["AS"], optionalText),
   ("TIMEFORMAT", ["AS"], optionalText), ("DELIMITER", ["AS"], plain quotedByte),
   ("EXTENSION", [], plain quotedLiteral), ("FIXEDWIDTH", [], plain quotedLiteral),
   ("NULL", ["AS"], plain quotedLiteral), ("REGION", ["AS"], plain quotedLiteral),
   ("IAM_ROLE", [], plain engineRole), ("IGNOREHEADER", ["AS"], plain (toString <$> literalNumber)),
   ("MAXFILESIZE", ["AS"], plain fileSize), ("ROWGROUPSIZE", ["AS"], plain fileSize),
   ("PARALLEL", [], optionalSwitch), ("STATUPDATE", [], optionalSwitch),
   ("ENCRYPTED", [], optionalWord "AUTO"), ("MANIFEST", [], optionalWord "VERBOSE")]

def bareCopyOption : Parser String := do
  if ← takeKeyword "FORMAT" then
    let _ ← takeKeyword "AS"
  if let some k ← takeOneOf bareCopyOptions then return k
  match ← takeOneOf ("COMPUPDATE" :: "CSV" :: "PARTITION" :: valuedCopyOptions.map (·.1)) with
  | some "COMPUPDATE" =>
    let preset ← takeKeyword "PRESET"
    let switch ← optionalSwitch
    return "COMPUPDATE" ++ if preset then " PRESET" else switch
  | some "CSV" => return "CSV" ++ blankEach (← many (maybe separatedValuesOption))
  | some "PARTITION" =>
    keyword "BY"
    let columns ← columnList name
    return "PARTITION BY (" ++ namesText columns ++ ")" ++ (← optionalWord "INCLUDE")
  | some k =>
    match valuedCopyOptions.lookup k with
    | some (between, value) =>
      let _ ← takeOneOf between
      return k ++ (← value)
    | none => expected "option"
  | none => expected "option"

def bareCopyOptionsShown : Parser String := do
  return blankEach (← many (maybe bareCopyOption))

/-! ## Rows in a script -/

/-- Reads the values of rows up to a backslash with a period, or to the end, as they are written.
A backslash with `N` is a missing value. -/
def rowValues : (turns : Nat) → (content : String) → Parser (List String)
  | 0, _ => return []
  | turns + 1, content => fun c =>
    match c.rest with
    | [] => .ok ([], c)
    | t :: more =>
      match t.blanks with
      | (shown, _) :: blanks =>
        let c := { c with rest := { t with blanks } :: more }
        if shown == "\t" || shown == "\n" then
          ((content :: ·) <$> rowValues turns "") c
        else rowValues turns (content ++ shown) c
      | [] =>
        let after := { c with rest := more }
        if t.token = .eof then .ok ([], after)
        else if t.token = .symbol "\\" then
          let second := (more.head?.getD .eof).token
          let after := { c with rest := more.tail }
          let missing := match second with
            | .word w => w.value == "N"
            | _ => false
          if second = .symbol "." then .ok ([], after)
          else if missing then (("\\N" :: ·) <$> rowValues turns content) after
          else rowValues turns content after
        else rowValues turns (content ++ t.token.describe) after

def copiedRows : Parser String := do
  symbol ";"
  let rest := (← get).rest
  let values ← rowValues (rest.foldl (fun n t => n + t.blanks.length) (2 * rest.length)) ""
  return if values.isEmpty then "" else ";\n" ++ Text.join "\t" values ++ "\n\\."

/-! ## Statements -/

/-- Reads what is copied, as it is written, and whether it is a query. -/
def copySource (below : Level) : Parser (String × Bool) := do
  if ← peekSymbol "(" then
    let q ← parens below.query
    return ("(" ++ q.text ++ ")", true)
  let table ← pathShown
  let columns ← if ← peekSymbol "(" then columnList name else pure []
  return (table ++ (if columns.isEmpty then "" else " (" ++ namesText columns ++ ")"), false)

/-- Reads a copy of a table or a query behind `COPY`. -/
def copyRest (below : Level) : Parser Statement := do
  let (source, isQuery) ← copySource below
  let direction ← match ← takeOneOf ["FROM", "TO"] with
    | some k => pure k
    | none => expected "FROM or TO"
  if direction == "FROM" && isQuery then fail "COPY ... FROM does not support query as a source"
  let target ← match ← takeOneOf ["STDIN", "STDOUT", "PROGRAM"] with
    | some "PROGRAM" => do
      let command ← quotedLiteral
      pure ("PROGRAM " ++ command)
    | some k => pure k
    | none => quotedLiteral
  let _ ← takeKeyword "WITH"
  let options ← if ← peekSymbol "(" then parens (separated copyOption) else pure []
  let bare ← bareCopyOptionsShown
  let rows ← if target == "STDIN" then copiedRows else pure ""
  return .other ("COPY " ++ source ++ " " ++ direction ++ " " ++ target
    ++ (if options.isEmpty then "" else " (" ++ Text.join ", " options ++ ")") ++ bare ++ rows)

/-- Reads a query whose rows go to files, behind `UNLOAD`. -/
def unloadRest (below : Level) : Parser Statement := do
  let source ← parens do
    match (← peek).token with
    | .text .plain _ => bareLiteral
    | _ => Query.text <$> below.query
  keyword "TO"
  let target ← nameShown
  let role ← behind "IAM_ROLE" engineRole
  let options ← behind "WITH" (optionPhrases below)
  let options := (options.getD []).map Phrase.text
  return .other ("UNLOAD(" ++ source ++ ") TO " ++ target ++ optional " IAM_ROLE " role
    ++ (if options.isEmpty then "" else " WITH (" ++ Text.join ", " options ++ ")") ++ (← bareCopyOptionsShown))

/-- Reads a query whose rows are exported, behind `EXPORT`. -/
def exportRest (below : Level) : Parser Statement := do
  keyword "DATA"
  let connection ← behindAll ["WITH", "CONNECTION"] pathShown
  keyword "OPTIONS"
  let options ← parens (separated (optionPhrase below))
  keyword "AS"
  let q ← below.query
  return .other ("EXPORT DATA" ++ optional " WITH CONNECTION " connection ++ " OPTIONS("
    ++ Text.join ", " (options.map Phrase.text) ++ ") AS " ++ q.text)

/-- Reads an attached database behind `ATTACH`. -/
def attachRest (below : Level) : Parser Statement := do
  let word ← optionalWord "DATABASE"
  let file ← expr below
  keyword "AS"
  return .other ("ATTACH" ++ word ++ " " ++ file.text ++ " AS " ++ (← nameShown))

/-- Reads a detached database behind `DETACH`. -/
def detachRest : Parser Statement := do
  let word ← optionalWord "DATABASE"
  let guarded ← optionalPresence
  return .other ("DETACH" ++ word ++ " " ++ guarded ++ (← nameShown))

/-- Reads a statement of this kind behind its first word. -/
def transferRest (below : Level) (k : String) : Parser Statement :=
  match k with
  | "COPY" => copyRest below
  | "UNLOAD" => unloadRest below
  | "EXPORT" => exportRest below
  | "ATTACH" => attachRest below
  | _ => detachRest

end Parser
end Sql
end PolyglotSql
