import PolyglotSql.Sql.Parser.Query

/-!
# PolyglotSql.Sql.Parser.Upkeep

Statements that empty, tidy, cache, rename and describe what a database holds. They are read to be
written again, and are kept as text.
-/

namespace PolyglotSql
namespace Sql
namespace Parser

/-! ## Tables -/

/-- Reads emptied tables behind `TRUNCATE`. -/
def truncateRest (below : Level) : Parser Statement := do
  let word ← optionalWord "TABLE"
  let names ← separated do
    let only ← takeKeyword "ONLY"
    let n ← pathShown
    let starred ← takeSymbol "*"
    return (if only then "ONLY " else "") ++ n ++ (if starred then " *" else "")
  let partition ← behind "PARTITION" (parens (exprs below))
  let identity ← firstOf [["RESTART", "IDENTITY"], ["CONTINUE", "IDENTITY"]]
  let dependents ← optionalDependents
  let cluster ← optionalCluster
  return .other ("TRUNCATE" ++ word ++ " " ++ Text.join ", " names ++ optional " " identity ++ dependents
    ++ optional " PARTITION " (partition.map tupleText) ++ optional " ON CLUSTER " cluster)

/-- What is stated about the analysis of a table. -/
structure Analysis where
  partitions : Option String
  statistics : Bool
  noScan : Bool
  metadata : Bool
  columns : Option (List Name)

/-- Nothing is stated. -/
def Analysis.none : Analysis := ⟨.none, false, false, false, .none⟩

/-- What is stated, as it is written behind a blank. -/
def Analysis.text (a : Analysis) : String :=
  let flag (b : Bool) (s : String) : String := if b then s else ""
  optional " PARTITION " a.partitions ++ flag a.statistics " COMPUTE STATISTICS" ++ flag a.noScan " NOSCAN"
    ++ flag a.metadata " CACHE METADATA"
    ++ optional " FOR COLUMNS" (a.columns.map fun ns => if ns.isEmpty then "" else " " ++ namesText ns)

/-- Reads an analyzed table behind `ANALYZE`. -/
def analyzeRest (below : Level) : Parser Statement := do
  let word ← optionalWord "TABLE"
  let n ← pathShown
  let found ← repeatUntil Analysis.none fun found => do
    match ← takeOneOf ["PARTITION", "FOR", "CACHE", "NOSCAN", "COMPUTE"] with
    | some "PARTITION" =>
      let es ← parens (exprs below)
      return .inl { found with partitions := tupleText es }
    | some "FOR" =>
      keyword "COLUMNS"
      return .inl { found with columns := (← maybe (separated name)).getD [] }
    | some "CACHE" =>
      keyword "METADATA"
      return .inl { found with metadata := true }
    | some "NOSCAN" => return .inl { found with noScan := true }
    | some _ =>
      keyword "STATISTICS"
      return .inl { found with statistics := true }
    | none => return .inr found
  return .other ("ANALYZE" ++ word ++ " " ++ n ++ found.text)

/-- Reads reclaimed space behind `VACUUM`. -/
def vacuumRest : Parser Statement := do
  let full ← optionalWord "FULL"
  let sortOnly ← optionalWords ["SORT", "ONLY"]
  let deleteOnly ← optionalWords ["DELETE", "ONLY"]
  let reindex ← optionalWord "REINDEX"
  let recluster ← optionalWord "RECLUSTER"
  let table ← match ← maybe pathShown with
    | some n => do
      let threshold ← behind "TO" do
        let v ← value
        keyword "PERCENT"
        return v.written ++ " PERCENT"
      let boost ← optionalWord "BOOST"
      pure (" " ++ n ++ optional " TO " threshold ++ boost)
    | none => pure ""
  return .other ("VACUUM" ++ full ++ sortOnly ++ deleteOnly ++ reindex ++ recluster ++ table)

/-- Reads a tidied table behind `OPTIMIZE`. -/
def optimizeRest (below : Level) : Parser Statement := do
  keyword "TABLE"
  let n ← pathShown
  let cluster ← optionalCluster
  let partition ← behind "PARTITION" do
    if ← takeKeyword "ID" then return "ID " ++ (← nameShown)
    Expr.text <$> expr below
  let final ← optionalWord "FINAL"
  let once ← behind "DEDUPLICATE" (optionalPart below "BY")
  return .other ("OPTIMIZE TABLE " ++ n ++ optional " ON CLUSTER " cluster ++ optional " PARTITION " partition
    ++ final ++ optional " DEDUPLICATE" once)

/-- Reads mended partitions behind `MSCK`. -/
def mendRest : Parser Statement := do
  let repair ← optionalWord "REPAIR"
  keyword "TABLE"
  let n ← pathShown
  let action ← maybe do
    let k ← takeOneOf ["ADD", "DROP", "SYNC"]
    keyword "PARTITIONS"
    return optional "" (k.map fun k => " " ++ k ++ " PARTITIONS")
  return .other ("MSCK" ++ repair ++ " TABLE " ++ n ++ action.getD "")

/-- Reads renamed tables behind `RENAME`. -/
def renameRest : Parser Statement := do
  unless ← takeKeyword "TABLE" do expected "KEYWORD `TABLE` after RENAME"
  let pairs ← separated do
    let old ← pathShown
    keyword "TO"
    let new ← pathShown
    return old ++ " TO " ++ new
  return .other ("RENAME TABLE " ++ Text.join ", " pairs)

/-! ## Caches -/

/-- Reads what is stated about a cached table behind its name, as it is written behind a blank. -/
def cachedContent (below : Level) : Parser String := do
  let options ← behind "OPTIONS" (optionPhrases below)
  let options := (options.getD []).map Phrase.text
  let options := if options.isEmpty then "" else " OPTIONS(" ++ Text.join ", " options ++ ")"
  let t ← peek
  match t.token with
  | .eof => return options
  | .word w =>
    let word ← if w.keyword == "AS" then optionalWord "AS" else pure ""
    return options ++ word ++ " " ++ (← below.query).text
  | _ => expectedAt "a QUERY statement" t

/-- Reads a cached table behind `CACHE`; a flag may stand before the table. -/
def cacheRest (below : Level) : Parser Statement := do
  if ← takeKeyword "TABLE" then
    let n ← pathShown
    return .other ("CACHE TABLE " ++ n ++ (← cachedContent below))
  let (flag, taken) ← withTaken pathShown
  unless ← takeKeyword "TABLE" do
    let t ← peek
    expectedAt "a `TABLE` keyword" (if t.token = .eof then taken.getLastD t else t)
  let n ← pathShown
  return .other ("CACHE " ++ flag ++ " TABLE " ++ n ++ (← cachedContent below))

/-- Reads a table that is no longer cached, behind `UNCACHE`. -/
def uncacheRest : Parser Statement := do
  keyword "TABLE"
  let guarded ← optionalPresence
  return .other ("UNCACHE TABLE " ++ guarded ++ (← pathShown))

/-- The kinds of logs and states that are flushed. -/
def flushedKinds : List (List String) :=
  [["BINARY", "LOGS"], ["ENGINE", "LOGS"], ["ERROR", "LOGS"], ["GENERAL", "LOGS"], ["HOSTS"],
   ["PRIVILEGES"], ["OPTIMIZER_COSTS"], ["SLOW", "LOGS"], ["STATUS"], ["USER_RESOURCES"], ["LOGS"]]

/-- Reads flushed tables and what is done with them, as it is written behind a blank. Keywords that
say nothing here are dropped, and so is the token that ends the list. -/
def flushedTables : Parser String :=
  repeatUntil ("", "", "") fun (tables, lock, export_) => do
    let start ← get
    match (← next).token with
    | .word w =>
      if w.keyword == "WITH" then return .inl (tables, ← optionalFlush " WITH " ["READ", "LOCK"], export_)
      if w.keyword == "FOR" then return .inl (tables, lock, ← optionalFlush " FOR " ["EXPORT"])
      if isKeyword w.keyword then return .inl (tables, lock, export_)
      set start
      return .inl (" " ++ (← pathsShown), lock, export_)
    | _ => return .inr (tables ++ lock ++ export_)
where
  /-- What is done with flushed tables, if it is stated. -/
  optionalFlush (lead : String) (ks : List String) : Parser String := do
    if ← takeKeywords ks then return lead ++ Text.join " " ks else return ""

/-- Reads what is flushed behind `FLUSH`. -/
def flushRest : Parser Statement := do
  let lead := "FLUSH" ++ (← optionalOneOf ["NO_WRITE_TO_BINLOG", "LOCAL"]) ++ " "
  if let some kind ← firstOf flushedKinds then return .other (lead ++ kind)
  if ← takeKeywords ["RELAY", "LOGS"] then
    let channel ← behindAll ["FOR", "CHANNEL"] (certain pathShown)
    return .other (lead ++ "RELAY LOGS" ++ optional " FOR CHANNEL " channel)
  if ← takeKeyword "TABLES" then return .other (lead ++ "TABLES" ++ (← flushedTables))
  expected ("BINARY LOGS, ENGINE LOGS, ERROR LOGS, GENERAL LOGS, HOSTS, LOGS, PRIVILEGES, OPTIMIZER_COSTS,"
    ++ "RELAY LOGS [FOR CHANNEL channel], SLOW LOGS, STATUS, USER_RESOURCES")

/-! ## Comments -/

/-- Reads a comment on an object behind `COMMENT`. -/
def commentRest : Parser Statement := do
  let guarded ← optionalPresence
  keyword "ON"
  let t ← peek
  let some kind ← takeOneOf ["COLUMN", "DATABASE", "DOMAIN", "EXTENSION", "FUNCTION", "INDEX",
      "MATERIALIZED", "PROCEDURE", "ROLE", "SCHEMA", "SEQUENCE", "TABLE", "TYPE", "USER", "VIEW"]
    | expectedAt "comment object_type" t
  let kind ← if kind == "MATERIALIZED" then do
      keyword "VIEW"
      pure "MATERIALIZED VIEW"
    else pure kind
  let n ← pathShown
  keyword "IS"
  let comment ← if ← takeKeyword "NULL" then pure "NULL" else bareLiteral
  return .other ("COMMENT " ++ guarded ++ "ON " ++ kind ++ " " ++ n ++ " IS " ++ comment)

/-- Reads a statement of this kind behind its first word. -/
def upkeepRest (below : Level) (k : String) : Parser Statement :=
  match k with
  | "TRUNCATE" => truncateRest below
  | "ANALYZE" => analyzeRest below
  | "VACUUM" => vacuumRest
  | "OPTIMIZE" => optimizeRest below
  | "MSCK" => mendRest
  | "RENAME" => renameRest
  | "CACHE" => cacheRest below
  | "UNCACHE" => uncacheRest
  | "FLUSH" => flushRest
  | _ => commentRest

end Parser
end Sql
end PolyglotSql
