import PolyglotSql.Sql.Parser.Column

/-!
# PolyglotSql.Sql.Parser.TableDeclaration

Declared tables: what stands around their columns and constraints, how their rows are stored, and
their options.
-/

namespace PolyglotSql
namespace Sql
namespace Parser

/-! ## Storage -/

/-- What is stated about the files that hold the rows of a table, each part as it is written. -/
structure RowStorage where
  rows : Option String
  /-- How files are written and read. -/
  reading : Option String
  /-- The format of the files. -/
  fileFormat : Option String
  properties : Option String
  location : Option String

/-- Nothing is stated. -/
def RowStorage.none : RowStorage := ⟨.none, .none, .none, .none, .none⟩

/-- What is stated about the files of a table that the engine keeps, as it is written behind a blank. -/
def RowStorage.text (s : RowStorage) : String :=
  optional " ROW FORMAT " s.rows ++ optional " STORED AS " (s.reading.or s.fileFormat)
    ++ optional " WITH SERDEPROPERTIES " s.properties ++ optional " LOCATION " s.location

/-- What is stated about the files of a table that others keep, as it is written behind a blank. The
format of the files and their location come last. -/
def RowStorage.externalText (s : RowStorage) : String :=
  optional " ROW FORMAT " s.rows ++ optional " STORED AS " s.reading
    ++ optional " WITH SERDEPROPERTIES " s.properties
    ++ optional " STORED AS " s.fileFormat ++ optional " LOCATION " s.location

def fileFormat : Parser String := do
  match ← takeOneOf ["AVRO", "JSONFILE", "ORC", "PARQUET", "RCFILE", "SEQUENCEFILE", "TEXTFILE"] with
  | some k => return k
  | none => expected "fileformat"

/-- What may end a part of a row, by the word that begins it. -/
def rowMarks : List (String × List String) :=
  [("FIELDS", ["TERMINATED", "BY"]), ("COLLECTION", ["ITEMS", "TERMINATED", "BY"]),
   ("MAP", ["KEYS", "TERMINATED", "BY"]), ("LINES", ["TERMINATED", "BY"]), ("NULL", ["DEFINED", "AS"])]

/-- Reads how rows are written to files, behind `ROW`, as it is written. -/
def rowFormat : Parser String := do
  keyword "FORMAT"
  match ← takeOneOf ["SERDE", "DELIMITED"] with
  | some "SERDE" => return "SERDE " ++ (← bareLiteral)
  | _ =>
    let marks ← many do
      let some k ← takeOneOf (rowMarks.map (·.1)) | return none
      let ks := (rowMarks.lookup k).getD []
      unless ← takeKeywords ks do return none
      let mark := k ++ " " ++ Text.join " " ks ++ " " ++ (← nameShown)
      if k == "FIELDS" then
        let escape ← behindAll ["ESCAPED", "BY"] nameShown
        return some (mark ++ optional " ESCAPED BY " escape)
      return some mark
    return "DELIMITED" ++ blankEach marks

/-- Reads what is stated about the files that hold the rows of a table. -/
def rowStorage (below : Level) : Parser RowStorage :=
  repeatUntil RowStorage.none fun found => do
    if ← peekKeywords ["WITH", "SERDEPROPERTIES"] then
      skip
      skip
      let options ← parens (separated (optionPhrase below))
      return .inl { found with properties := "(" ++ Text.join ", " (options.map Phrase.text) ++ ")" }
    match ← takeOneOf ["ROW", "STORED", "LOCATION"] with
    | some "ROW" => return .inl { found with rows := ← rowFormat }
    | some "STORED" =>
      keyword "AS"
      if ← takeKeyword "INPUTFORMAT" then
        let input ← expr below
        keyword "OUTPUTFORMAT"
        let output ← expr below
        return .inl { found with
          reading := "INPUTFORMAT " ++ input.text ++ " OUTPUTFORMAT " ++ output.text, fileFormat := none }
      return .inl { found with reading := none, fileFormat := ← fileFormat }
    | some _ => return .inl { found with location := ← bareLiteral }
    | none => return .inr found

/-- Reads the columns by whose values the rows of a table are divided, as they are written behind a
blank, if they are stated. A type may be missing. -/
def optionalDivision (below : Level) : Parser String := do
  let columns ← behindAll ["PARTITIONED", "BY"] <| parens <| separated do
    let n ← name
    let type ← maybe (dataType below)
    return ({ name := n, type := type.getD "", options := ← columnOptions below } : ColumnDeclaration).text
  return optional " PARTITIONED BY (" (columns.map (Text.join ", " · ++ ")"))

/-- Reads how the rows of a table are put into buckets, as it is written behind a blank, if it is
stated. -/
def optionalBuckets (below : Level) : Parser String := do
  unless ← takeKeywords ["CLUSTERED", "BY"] do return ""
  let columns ← columnList name
  let sorted ← behindAll ["SORTED", "BY"] (parens (separated (orderTerm below)))
  keyword "INTO"
  let count ← numberValue
  keyword "BUCKETS"
  return " CLUSTERED BY (" ++ namesText columns ++ ")"
    ++ optional " SORTED BY (" (sorted.map fun terms => Text.join ", " (orderTexts terms) ++ ")")
    ++ " INTO " ++ count.written ++ " BUCKETS"

/-! ## Options -/

def valuedTableOptions : List (List String) :=
  [["DEFAULT", "CHARSET"], ["CHARSET"], ["DEFAULT", "CHARACTER", "SET"], ["CHARACTER", "SET"],
   ["DEFAULT", "COLLATE"], ["COLLATE"], ["DATA", "DIRECTORY"], ["INDEX", "DIRECTORY"],
   ["KEY_BLOCK_SIZE"], ["ROW_FORMAT"], ["PACK_KEYS"], ["STATS_AUTO_RECALC"], ["STATS_PERSISTENT"],
   ["STATS_SAMPLE_PAGES"], ["DELAY_KEY_WRITE"], ["COMPRESSION"], ["ENCRYPTION"], ["MAX_ROWS"],
   ["MIN_ROWS"], ["AUTOEXTEND_SIZE"], ["AVG_ROW_LENGTH"], ["CHECKSUM"], ["CONNECTION"],
   ["ENGINE_ATTRIBUTE"], ["PASSWORD"], ["SECONDARY_ENGINE_ATTRIBUTE"], ["INSERT_METHOD"],
   ["AUTO_INCREMENT"]]

/-- Reads where the rows of a table are, behind `TABLESPACE`, as it is written. -/
def tableSpace : Parser String := do
  let _ ← takeSymbol "="
  let t ← next
  let n ← match t.token with
    | .word w => pure w.value
    | .text .plain s => pure s
    | _ => expectedAt "Token::Word" t
  let storage ← behind "STORAGE" do
    let _ ← takeSymbol "="
    let t ← next
    match t.token with
    | .word w =>
      let kind := Text.upper w.value
      if kind == "DISK" || kind == "MEMORY" then return kind
      expectedAt "Storage type (DISK or MEMORY)" t
    | _ => expectedAt "Token::Word" t
  return "TABLESPACE " ++ n ++ optional " STORAGE " storage

/-- Reads the engine of a table behind `ENGINE`, as it is written. -/
def tableEngine : Parser String := do
  let _ ← takeSymbol "="
  let t ← next
  match t.token with
  | .word w =>
    let parameters ← if ← peekSymbol "(" then parens (separatedUntil (· == .symbol ")") name) else pure []
    return "ENGINE = " ++ w.value ++ (if parameters.isEmpty then "" else "(" ++ namesText parameters ++ ")")
  | _ => expectedAt "Token::Word" t

/-- Reads an option of a table that stands without parentheses, as it is written, if there is one. -/
def plainTableOption : Parser (Option String) := do
  if ← takeKeywords ["START", "TRANSACTION"] then return some "START TRANSACTION"
  match ← takeOneOf ["COMMENT", "ENGINE", "TABLESPACE", "UNION"] with
  | some "COMMENT" =>
    let sign ← takeSymbol "="
    let t ← next
    match t.token with
    | .text .plain s => return some ("COMMENT " ++ (if sign then "= " else "") ++ "'" ++ s ++ "'")
    | other => fail ("Expected: Token::SingleQuotedString, found: " ++ other.describe)
  | some "ENGINE" => some <$> tableEngine
  | some "TABLESPACE" => some <$> tableSpace
  | some _ =>
    let _ ← takeSymbol "="
    let t ← next
    unless t.token = .symbol "(" do expectedAt "Token::LParen" t
    let tables ← separatedUntil (· == .symbol ")") name
    symbol ")"
    return some ("UNION = " ++ (if tables.isEmpty then "" else "(" ++ namesText tables ++ ")"))
  | none =>
    let some words ← firstOf valuedTableOptions | return none
    let _ ← takeSymbol "="
    match ← maybe value with
    | some v => return some (words ++ " = " ++ v.written)
    | none => return some (words ++ " = " ++ (← nameShown))

/-- Reads the options of a table that stand without parentheses, as they are written. A comma may
stand behind each. -/
def plainTableOptions : Parser (List String) :=
  many do
    let option ← plainTableOption
    if option.isSome then
      let _ ← takeSymbol ","
    return option

/-- Reads options with values in parentheses behind a keyword, as they are written, if there are any. -/
def optionalOptions (below : Level) (k : String) : Parser (Option String) := do
  let options ← behind k (optionList below)
  return options.bind fun s => if s.isEmpty then none else some s

/-! ## Tables -/

/-- Reads what becomes of the rows when a transaction ends, as it is written behind a blank, if it is
stated. -/
def optionalOnCommit : Parser String := do
  unless ← takeKeywords ["ON", "COMMIT"] do return ""
  match ← firstOf [["DELETE", "ROWS"], ["PRESERVE", "ROWS"], ["DROP"]] with
  | some s => return " ON COMMIT " ++ s
  | none => fail ("Expecting DELETE ROWS, PRESERVE ROWS or DROP" ++ (← peek).token.describe)

/-- Reads what stands behind the storage of a table up to its query, as it is written. -/
def tableTail (below : Level) : Parser String := do
  let inherits ← behind "INHERITS" (columnList pathShown)
  let with_ ← optionalOptions below "WITH"
  let properties ← optionalOptions below "TBLPROPERTIES"
  let partition ← behindAll ["PARTITION", "BY"] (expr below)
  let cluster ← behindAll ["CLUSTER", "BY"] (exprs below)
  let options ← behind "OPTIONS" (optionList below)
  let stated := with_.isSome || properties.isSome || options.isSome
  let plain ← if stated then pure [] else plainTableOptions
  let key ← behindAll ["PRIMARY", "KEY"] (expr below)
  let order ← behindAll ["ORDER", "BY"] do
    if ← peekSymbol "(" then tupleText <$> tuple below else Expr.text <$> expr below
  let commit ← optionalOnCommit
  let strict ← optionalWord "STRICT"
  let early := if options.isSome then "" else
    match properties with
    | some s => " TBLPROPERTIES (" ++ s ++ ")"
    | none => optional " WITH (" (with_.map (· ++ ")")) ++ blankEach plain
  return early ++ optional " PRIMARY KEY " (key.map Expr.text) ++ optional " ORDER BY " order
    ++ optional " INHERITS (" (inherits.map (Text.join ", " · ++ ")"))
    ++ optional " PARTITION BY " (partition.map Expr.text) ++ listedExprs " CLUSTER BY " (cluster.getD [])
    ++ optional " OPTIONS(" (options.map (· ++ ")")) ++ commit ++ strict

/-- Reads a declared table behind `TABLE`; the words before it are given as they are written. -/
def tableDeclaration (below : Level) (lead : String) : Parser TableDeclaration := do
  let guarded ← optionalGuard
  let n ← path
  let cluster ← optionalCluster
  let like ← if (← takeOneOf ["LIKE", "ILIKE"]).isSome then some <$> pathShown else pure none
  let clone ← if ← takeKeyword "CLONE" then loosely pathShown else pure none
  let (columns, constraints) ← columnsAndConstraints below
  let rowid ← optionalWords ["WITHOUT", "ROWID"]
  let division ← optionalDivision below
  let buckets ← optionalBuckets below
  let storage ← rowStorage below
  let tail ← tableTail below
  let q ← if ← takeKeyword "AS" then some <$> below.query
    else if ← keywordAt 0 "SELECT" then some <$> below.query
    else pure none
  return {
    lead := lead ++ "TABLE " ++ guarded, name := n, afterName := optional " ON CLUSTER " cluster,
    columns, constraints
    tail := rowid ++ optional " LIKE " like ++ optional " CLONE " clone ++ division ++ buckets
      ++ storage.text ++ tail ++ optional " AS " (q.map Query.text)
    emptyList := q.isNone && like.isNone && clone.isNone, complete := true }

/-- Reads a declared table whose files others keep, behind `EXTERNAL`. It cannot be written without
the format and the place of its files. -/
def externalTable (below : Level) (lead : String) : Parser TableDeclaration := do
  keyword "TABLE"
  let guarded ← optionalGuard
  let n ← path
  let (columns, constraints) ← columnsAndConstraints below
  let division ← optionalDivision below
  let storage ← rowStorage below
  let properties ← optionalOptions below "TBLPROPERTIES"
  return {
    lead := lead ++ "EXTERNAL TABLE " ++ guarded, name := n, afterName := "", columns, constraints
    tail := division ++ storage.externalText ++ optional " TBLPROPERTIES (" (properties.map (· ++ ")"))
    emptyList := true, complete := storage.fileFormat.isSome && storage.location.isSome }

end Parser
end Sql
end PolyglotSql
