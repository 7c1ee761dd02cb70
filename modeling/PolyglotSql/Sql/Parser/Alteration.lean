import PolyglotSql.Sql.Parser.TableChange

/-!
# PolyglotSql.Sql.Parser.Alteration

Statements that alter the objects of a database. They are read to be written again, and are kept as
text.
-/

namespace PolyglotSql
namespace Sql
namespace Parser

/-! ## Tables, views and types -/

/-- Reads an altered table behind its keyword. Where its files are comes last. -/
def tableAlteration (below : Level) (kind : String) : Parser Statement := do
  let guarded ← optionalPresence
  let only ← if ← takeKeyword "ONLY" then pure "ONLY " else pure ""
  let n ← pathShown
  let cluster ← optionalCluster
  let changes ← separated (tableChange below)
  let place_ ← firstOf [["LOCATION"], ["SET", "LOCATION"]]
  let place_ ← match place_ with
    | some words => do
      let location ← nameShown
      pure (" " ++ words ++ " " ++ location)
    | none => pure ""
  return .other ("ALTER " ++ kind ++ " " ++ guarded ++ only ++ n ++ optional " ON CLUSTER " cluster ++ " "
    ++ Text.join ", " changes ++ place_)

def viewAlteration (below : Level) : Parser Statement := do
  let n ← pathShown
  let columns ← optionalColumns
  let with_ ← optionalOptions below "WITH"
  keyword "AS"
  let q ← below.query
  return .other ("ALTER VIEW " ++ n ++ optional " WITH (" (with_.map (· ++ ")"))
    ++ (if columns.isEmpty then "" else " (" ++ namesText columns ++ ")") ++ " AS " ++ q.text)

def indexAlteration : Parser Statement := do
  let n ← pathShown
  unless ← takeKeyword "RENAME" do expected "RENAME after ALTER INDEX"
  unless ← takeKeyword "TO" do expected "TO after RENAME"
  return .other ("ALTER INDEX " ++ n ++ " RENAME TO " ++ (← pathShown))

def typeAlteration : Parser Statement := do
  let lead := "ALTER TYPE " ++ (← pathShown) ++ " "
  match ← firstOf [["RENAME", "TO"], ["ADD", "VALUE"], ["RENAME", "VALUE"]] with
  | some "RENAME TO" => return .other (lead ++ "RENAME TO " ++ (← nameShown))
  | some "ADD VALUE" =>
    let guarded ← optionalGuard
    let v ← nameShown
    let before ← optionalNameBehind "BEFORE"
    let after ← if before.isEmpty then optionalNameBehind "AFTER" else pure ""
    return .other (lead ++ "ADD VALUE " ++ guarded ++ v ++ before ++ after)
  | some _ => return .other (lead ++ "RENAME VALUE " ++ (← nameChange))
  | none => expected "\x7bRENAME TO | \x7b RENAME | ADD \x7d VALUE\x7d"

/-! ## Schemas, policies and connections -/

def schemaAlteration (below : Level) : Parser Statement := do
  let guarded ← optionalPresence
  let lead := "ALTER SCHEMA " ++ guarded ++ (← pathShown) ++ " "
  match ← firstOf [["SET", "OPTIONS"], ["SET", "DEFAULT", "COLLATE"], ["ADD", "REPLICA"], ["DROP", "REPLICA"],
      ["RENAME", "TO"], ["OWNER", "TO"]] with
  | some "SET OPTIONS" => return .other (lead ++ "SET OPTIONS (" ++ (← optionList below) ++ ")")
  | some "SET DEFAULT COLLATE" => return .other (lead ++ "SET DEFAULT COLLATE " ++ (← expr below).text)
  | some "ADD REPLICA" =>
    let n ← nameShown
    let options ← behind "OPTIONS" (optionList below)
    return .other (lead ++ "ADD REPLICA " ++ n ++ optional " OPTIONS (" (options.map (· ++ ")")))
  | some "DROP REPLICA" => return .other (lead ++ "DROP REPLICA " ++ (← nameShown))
  | some "RENAME TO" => return .other (lead ++ "RENAME TO " ++ (← pathShown))
  | some _ => return .other (lead ++ "OWNER TO " ++ (← owner))
  | none => expected "ALTER SCHEMA operation"

def policyAlteration (below : Level) : Parser Statement := do
  let n ← nameShown
  keyword "ON"
  let lead := "ALTER POLICY " ++ n ++ " ON " ++ (← pathShown)
  if ← takeKeyword "RENAME" then
    keyword "TO"
    return .other (lead ++ " RENAME TO " ++ (← nameShown))
  return .other (lead ++ (← policyRest below))

def connectorAlteration (below : Level) : Parser Statement := do
  let n ← nameShown
  keyword "SET"
  let options ← behind "DCPROPERTIES" (parens (separated (optionPhrase below)))
  let url ← behind "URL" bareLiteral
  let owner ← behind "OWNER" do
    let k ← oneOf ["USER", "ROLE"]
    return k ++ " " ++ (← nameShown)
  return .other ("ALTER CONNECTOR " ++ n
    ++ optional " SET DCPROPERTIES(" (options.map fun os => Text.join ", " (os.map Phrase.text) ++ ")")
    ++ optional " SET URL " url ++ optional " SET OWNER " owner)

/-! ## Users -/

/-- Reads a way to prove who one is, as it is written. -/
def proofMethod : Parser String := do
  match ← takeOneOf ["PASSKEY", "TOTP", "DUO"] with
  | some k => return k
  | none => expected "PASSKEY, TOTP or DUO"

/-- Reads a part of a form behind its words, as it is written behind a blank and these, if they are
next. -/
def optionalPartBehind (ks : List String) (p : Parser String) : Parser String := do
  return optional (" " ++ Text.join " " ks ++ " ") (← behindAll ks p)

/-- Reads a role and the integration that it is delegated to, as they are written. -/
def delegation : Parser String := do
  let role ← nameShown
  keywords ["TO", "SECURITY", "INTEGRATION"]
  return role ++ " TO SECURITY INTEGRATION " ++ (← nameShown)

/-- Reads what is no longer delegated, as it is written. -/
def delegationEnd : Parser String := do
  let what ← match ← firstOf [["AUTHORIZATION", "OF", "ROLE"], ["AUTHORIZATIONS"]] with
    | some "AUTHORIZATIONS" => pure "AUTHORIZATIONS"
    | some words => (words ++ " " ++ ·) <$> nameShown
    | none => expected "REMOVE DELEGATED AUTHORIZATION OF ROLE | REMOVE DELEGATED AUTHORIZATIONS"
  keywords ["FROM", "SECURITY", "INTEGRATION"]
  return what ++ " FROM SECURITY INTEGRATION " ++ (← nameShown)

/-- The policies that may hold for a user. -/
def userPolicies (verb : String) : List (List String) :=
  [[verb, "AUTHENTICATION", "POLICY"], [verb, "PASSWORD", "POLICY"], [verb, "SESSION", "POLICY"]]

/-- Reads the changes of how a user proves who it is, as they are written behind blanks. -/
def proofChanges : Parser String := do
  let enroll ← optionalWords ["ENROLL", "MFA"]
  let default_ ← optionalPartBehind ["SET", "DEFAULT_MFA_METHOD"] proofMethod
  let removed ← optionalPartBehind ["REMOVE", "MFA", "METHOD"] proofMethod
  let modified ← optionalPartBehind ["MODIFY", "MFA", "METHOD"] do
    let method ← proofMethod
    keywords ["SET", "COMMENT"]
    return method ++ " SET COMMENT " ++ (← quotedLiteral)
  let added ← behindAll ["ADD", "MFA", "METHOD", "OTP"] <| behind "COUNT" do
    symbol "="
    value
  let added := match added with
    | some count => " ADD MFA METHOD OTP" ++ optional " COUNT = " (count.map Literal.written)
    | none => ""
  return enroll ++ default_ ++ removed ++ modified ++ added

def userProperties : Parser String := do
  let set ← optionalPartBehind ["SET", "TAG"] (Properties.text <$> openProperties [])
  let unset ← optionalPartBehind ["UNSET", "TAG"] namesShown
  let props ← optionalPartBehind ["SET"] (Properties.text <$> openProperties [])
  let dropped ← optionalPartBehind ["UNSET"] namesShown
  let shown (lead part : String) : String := if part == lead then "" else part
  return shown " SET TAG " set ++ unset ++ shown " SET " props ++ dropped

def userAlteration : Parser Statement := do
  let guarded ← optionalPresence
  let n ← nameShown
  let renamed ← optionalPartBehind ["RENAME", "TO"] nameShown
  let reset ← optionalWords ["RESET", "PASSWORD"]
  let abort ← optionalWords ["ABORT", "ALL", "QUERIES"]
  let delegated ← optionalPartBehind ["ADD", "DELEGATED", "AUTHORIZATION", "OF", "ROLE"] delegation
  let undelegated ← optionalPartBehind ["REMOVE", "DELEGATED"] delegationEnd
  let proofs ← proofChanges
  let policy ← match ← firstOf (userPolicies "SET") with
    | some words => do
      let n ← nameShown
      pure (" " ++ words ++ " " ++ n)
    | none => pure ""
  let unset ← optional " " <$> firstOf (userPolicies "UNSET")
  return .other ("ALTER USER " ++ guarded ++ n ++ renamed ++ reset ++ abort ++ delegated ++ undelegated ++ proofs
    ++ policy ++ unset ++ (← userProperties))

/-! ## Altered objects -/

/-- Reads an altered object behind `ALTER`. -/
def alterRest (below : Level) : Parser Statement := do
  match ← oneOf ["VIEW", "TYPE", "TABLE", "INDEX", "ROLE", "POLICY", "CONNECTOR", "ICEBERG", "SCHEMA",
      "USER"] with
  | "TABLE" => tableAlteration below "TABLE"
  | "ICEBERG" =>
    keyword "TABLE"
    tableAlteration below "ICEBERG TABLE"
  | "INDEX" => indexAlteration
  | "VIEW" => viewAlteration below
  | "TYPE" => typeAlteration
  | "SCHEMA" => schemaAlteration below
  | "POLICY" => policyAlteration below
  | "CONNECTOR" => connectorAlteration below
  | "USER" => userAlteration
  | _ => fail "ALTER ROLE is only support for PostgreSqlDialect and MsSqlDialect"

end Parser
end Sql
end PolyglotSql
