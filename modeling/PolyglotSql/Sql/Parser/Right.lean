import PolyglotSql.Sql.Parser.Query

/-!
# PolyglotSql.Sql.Parser.Right

Statements that give rights to somebody, take them away and forbid them. They are read to be
written again, and are kept as text.
-/

namespace PolyglotSql
namespace Sql
namespace Parser

/-! ## Rights -/

/-- The rights that are nothing but their words; those of several words come first. -/
def plainRights : List (List String) :=
  [["IMPORTED", "PRIVILEGES"], ["ADD", "SEARCH", "OPTIMIZATION"], ["ATTACH", "LISTING"],
   ["ATTACH", "POLICY"], ["BIND", "SERVICE", "ENDPOINT"], ["EVOLVE", "SCHEMA"], ["IMPORT", "SHARE"],
   ["MANAGE", "VERSIONS"], ["MANAGE", "RELEASES"], ["OVERRIDE", "SHARE", "RESTRICTIONS"],
   ["PURCHASE", "DATA", "EXCHANGE", "LISTING"], ["RESOLVE", "ALL"], ["READ", "SESSION"],
   ["APPLYBUDGET"], ["AUDIT"], ["CONNECT"], ["DELETE"], ["FAILOVER"], ["OPERATE"], ["READ"],
   ["REPLICATE"], ["TEMPORARY"], ["TRIGGER"], ["TRUNCATE"], ["USAGE"], ["OWNERSHIP"], ["DROP"]]

/-- What a right to apply something may be about. -/
def appliedThings : List (List String) :=
  [["AGGREGATION", "POLICY"], ["AUTHENTICATION", "POLICY"], ["JOIN", "POLICY"], ["MASKING", "POLICY"],
   ["PACKAGES", "POLICY"], ["PASSWORD", "POLICY"], ["PROJECTION", "POLICY"],
   ["ROW", "ACCESS", "POLICY"], ["SESSION", "POLICY"], ["TAG"]]

/-- What a right to create something may be about. -/
def creatableThings : List (List String) :=
  [["APPLICATION", "PACKAGE"], ["COMPUTE", "POOL"], ["DATA", "EXCHANGE", "LISTING"],
   ["EXTERNAL", "VOLUME"], ["FAILOVER", "GROUP"], ["NETWORK", "POLICY"], ["ORGANIZATION", "LISTING"],
   ["REPLICATION", "GROUP"], ["ACCOUNT"], ["APPLICATION"], ["DATABASE"], ["INTEGRATION"], ["ROLE"],
   ["SCHEMA"], ["SHARE"], ["USER"], ["WAREHOUSE"]]

/-- What a right to execute something may be about. -/
def executableThings : List (List String) :=
  [["DATA", "METRIC", "FUNCTION"], ["MANAGED", "ALERT"], ["MANAGED", "TASK"], ["ALERT"], ["TASK"]]

/-- What a right to manage something may be about. -/
def managedThings : List (List String) :=
  [["ACCOUNT", "SUPPORT", "CASES"], ["EVENT", "SHARING"], ["GRANTS"],
   ["LISTING", "AUTO", "FULFILLMENT"], ["ORGANIZATION", "SUPPORT", "CASES"],
   ["USER", "SUPPORT", "CASES"], ["WAREHOUSES"]]

/-- What a right to modify something may be about. -/
def modifiableThings : List (List String) :=
  [["LOG", "LEVEL"], ["TRACE", "LEVEL"], ["SESSION", "LOG", "LEVEL"], ["SESSION", "TRACE", "LEVEL"]]

/-- What a right to monitor something may be about. -/
def monitoredThings : List (List String) :=
  [["EXECUTION"], ["SECURITY"], ["USAGE"]]

def right : Parser String := do
  if ← takeKeywords ["DATABASE", "ROLE"] then return "DATABASE ROLE " ++ (← pathShown)
  if let some words ← firstOf plainRights then return words
  match ← takeOneOf ["APPLY", "CREATE", "EXEC", "EXECUTE", "MANAGE", "MODIFY", "MONITOR", "ROLE",
      "INSERT", "REFERENCES", "SELECT", "UPDATE"] with
  | some "APPLY" => required "APPLY" appliedThings
  | some "MANAGE" => required "MANAGE" managedThings
  | some "CREATE" => possibly "CREATE" creatableThings
  | some "MODIFY" => possibly "MODIFY" modifiableThings
  | some "MONITOR" => possibly "MONITOR" monitoredThings
  | some "EXEC" => possibly "EXEC" executableThings
  | some "EXECUTE" => possibly "EXECUTE" executableThings
  | some "ROLE" => return "ROLE " ++ (← pathShown)
  | some k =>
    if ← peekSymbol "(" then return k ++ " (" ++ namesText (← columnList name) ++ ")"
    return k
  | none => expected "a privilege keyword"
where
  /-- A right that must state what it is about. -/
  required (k : String) (things : List (List String)) : Parser String := do
    match ← firstOf things with
    | some thing => return k ++ " " ++ thing
    | none => expected ("GRANT " ++ k ++ " type")
  /-- A right that may state what it is about. -/
  possibly (k : String) (things : List (List String)) : Parser String := do
    return k ++ optional " " (← firstOf things)

def rights : Parser String := do
  if ← takeKeyword "ALL" then return "ALL" ++ (← optionalWord "PRIVILEGES")
  return Text.join ", " (← separated right)

/-! ## What rights are on -/

/-- Reads a dotted name that may have asterisks for parts, as it is written. -/
def starredPath : Parser String :=
  repeatUntil "" fun lead => do
    let part ← if ← takeSymbol "*" then pure "*" else nameShown
    if ← takeSymbol "." then return .inl (lead ++ part ++ ".") else return .inr (lead ++ part)

/-- The words before the names of what rights are on. -/
def rightTargets : List (List String) :=
  [["ALL", "TABLES", "IN", "SCHEMA"], ["ALL", "EXTERNAL", "TABLES", "IN", "SCHEMA"],
   ["ALL", "VIEWS", "IN", "SCHEMA"], ["ALL", "MATERIALIZED", "VIEWS", "IN", "SCHEMA"],
   ["ALL", "FUNCTIONS", "IN", "SCHEMA"], ["FUTURE", "SCHEMAS", "IN", "DATABASE"],
   ["FUTURE", "TABLES", "IN", "SCHEMA"], ["FUTURE", "EXTERNAL", "TABLES", "IN", "SCHEMA"],
   ["FUTURE", "VIEWS", "IN", "SCHEMA"], ["FUTURE", "MATERIALIZED", "VIEWS", "IN", "SCHEMA"],
   ["ALL", "SEQUENCES", "IN", "SCHEMA"], ["FUTURE", "SEQUENCES", "IN", "SCHEMA"],
   ["RESOURCE", "MONITOR"], ["COMPUTE", "POOL"], ["FAILOVER", "GROUP"], ["REPLICATION", "GROUP"],
   ["EXTERNAL", "VOLUME"]]

/-- Reads what rights are on, behind `ON`, as it is written. Of several functions the first counts. -/
def rightTarget (below : Level) : Parser String := do
  if let some lead ← firstOf rightTargets then return lead ++ " " ++ (← pathsShown)
  let kind ← takeOneOf ["SEQUENCE", "DATABASE", "SCHEMA", "TABLE", "VIEW", "WAREHOUSE", "INTEGRATION",
    "USER", "CONNECTION", "PROCEDURE", "FUNCTION"]
  let names ← separated starredPath
  match kind with
  | none | some "TABLE" => return Text.join ", " names
  | some k =>
    unless k == "PROCEDURE" || k == "FUNCTION" do return k ++ " " ++ Text.join ", " names
    let types ← if ← peekSymbol "(" then
        parens (separatedUntil (· == .symbol ")") (dataType below))
      else pure []
    return k ++ " " ++ names.headD "" ++ optional "" ((listed "(" types).map (· ++ ")"))
where
  /-- Parts behind a lead, if there are any. -/
  listed (lead : String) (parts : List String) : Option String :=
    if parts.isEmpty then none else some (lead ++ Text.join ", " parts)

/-! ## Who has rights -/

/-- The words for the kinds of those who have rights. -/
def granteeKinds : List (List String) :=
  [["ROLE"], ["USER"], ["SHARE"], ["GROUP"], ["PUBLIC"], ["DATABASE", "ROLE"], ["APPLICATION", "ROLE"],
   ["APPLICATION"]]

/-- Reads the name of someone who has rights, as it is written: a dotted name, or a user at a host. -/
def granteeName : Parser String := do
  let n ← path
  if n.length == 1 then
    if ← takeSymbol "@" then return pathText n ++ "@" ++ (← nameShown)
  return pathText n

/-- Reads those who have rights, as they are written. A kind also counts for those behind it. -/
def grantees : Parser String :=
  repeatUntil ("", []) fun (kind, found) => do
    let kind := ((← firstOf granteeKinds).map (· ++ " ")).getD kind
    let n ← if kind == "PUBLIC " then pure "" else do
      let n ← granteeName
      if ← takeSymbol ":" then
        let inner ← nameShown
        pure (n ++ ":" ++ inner)
      else pure n
    let found := found ++ [kind ++ n]
    if ← takeSymbol "," then return .inl (kind, found) else return .inr (Text.join ", " found)

/-! ## Statements -/

def rightsOn (below : Level) : Parser (String × Option String) := do
  return (← rights, ← behind "ON" (rightTarget below))

/-- Reads given rights behind `GRANT`. -/
def grantRest (below : Level) : Parser Statement := do
  let (what, on) ← rightsOn below
  keyword "TO"
  let who ← grantees
  let option ← optionalWords ["WITH", "GRANT", "OPTION"]
  let current ← firstOf [["COPY", "CURRENT", "GRANTS"], ["REVOKE", "CURRENT", "GRANTS"]]
  let grantor ← optionalNameBehind "AS"
  let by_ ← behindAll ["GRANTED", "BY"] nameShown
  return .other ("GRANT " ++ what ++ optional " ON " on ++ " TO " ++ who ++ option ++ optional " " current
    ++ grantor ++ optional " GRANTED BY " by_)

/-- Reads taken rights behind `REVOKE`. -/
def revokeRest (below : Level) : Parser Statement := do
  let (what, on) ← rightsOn below
  keyword "FROM"
  let who ← grantees
  let by_ ← behindAll ["GRANTED", "BY"] nameShown
  let dependents ← optionalDependents
  return .other ("REVOKE " ++ what ++ optional " ON " on ++ " FROM " ++ who ++ optional " GRANTED BY " by_
    ++ dependents)

/-- Reads forbidden rights behind `DENY`. -/
def denyRest (below : Level) : Parser Statement := do
  let (what, on) ← rightsOn below
  match on with
  | none => failHere "DENY statements must specify an object"
  | some on =>
    keyword "TO"
    let who ← grantees
    let dependents ← optionalDependents
    let grantor ← optionalNameBehind "AS"
    return .other ("DENY " ++ what ++ " ON " ++ on ++ " TO " ++ who ++ dependents ++ grantor)

end Parser
end Sql
end PolyglotSql
