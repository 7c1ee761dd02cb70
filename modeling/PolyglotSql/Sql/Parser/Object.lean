import PolyglotSql.Sql.Parser.KeyValue
import PolyglotSql.Sql.Parser.OperatorDeclaration
import PolyglotSql.Sql.Parser.Routine
import PolyglotSql.Sql.Parser.TypeDeclaration
import PolyglotSql.Sql.Parser.View

/-!
# PolyglotSql.Sql.Parser.Object

Statements that create the objects of a database. Only declared tables are kept as structure; the
others are read to be written again.
-/

namespace PolyglotSql
namespace Sql
namespace Parser

/-! ## Schemas, databases and roles -/

def schemaDeclaration (below : Level) : Parser Statement := do
  let guarded ← optionalGuard
  let n ← if ← keywordAt 0 "AUTHORIZATION" then pure none else some <$> pathShown
  let owner ← behind "AUTHORIZATION" (("AUTHORIZATION " ++ ·) <$> nameShown)
  let collation ← behindAll ["DEFAULT", "COLLATE"] (expr below)
  let with_ ← behind "WITH" (optionList below)
  let options ← behind "OPTIONS" (optionList below)
  let clone ← behind "CLONE" pathShown
  return .other ("CREATE SCHEMA " ++ guarded ++ Text.join " " ([n, owner].filterMap id)
    ++ optional " DEFAULT COLLATE " (collation.map Expr.text)
    ++ optional " WITH (" (with_.map (· ++ ")")) ++ optional " OPTIONS(" (options.map (· ++ ")"))
    ++ optional " CLONE " clone)

def databaseDeclaration : Parser Statement := do
  let guarded ← optionalGuard
  let n ← pathShown
  let places ← many do
    match ← takeOneOf ["LOCATION", "MANAGEDLOCATION"] with
    | some k => return some (k, ← bareLiteral)
    | none => return none
  let place (k : String) : String := optional (" " ++ k ++ " ") (places.reverse.lookup k)
  let clone ← behind "CLONE" pathShown
  return .other ("CREATE DATABASE " ++ guarded ++ n ++ place "LOCATION" ++ place "MANAGEDLOCATION"
    ++ optional " CLONE " clone)

def roleDeclaration : Parser Statement := do
  let guarded ← optionalGuard
  let names ← pathsShown
  let _ ← takeKeyword "WITH"
  return .other ("CREATE ROLE " ++ guarded ++ names)

/-- Reads a user behind its keyword. Whatever separates its properties, they are written with blanks
between them, and its tags with commas. -/
def userDeclaration (again : String) : Parser Statement := do
  let guarded ← optionalGuard
  let n ← nameShown
  let found ← openProperties ["WITH", "TAG"]
  let word ← optionalWord "WITH"
  let tags ← behind "TAG" closedProperties
  let tags := match tags with
    | some tags => if tags.shown.isEmpty then "" else word ++ " TAG (" ++ Text.join ", " tags.shown ++ ")"
    | none => ""
  return .other ("CREATE " ++ again ++ "USER " ++ guarded ++ n ++ blankEach found.shown ++ tags)

/-! ## Policies and secrets -/

def owner : Parser String := do
  match ← takeOneOf ["CURRENT_USER", "CURRENT_ROLE", "SESSION_USER"] with
  | some k => return k
  | none => fun c =>
    match nameShown c with
    | .ok found => .ok found
    | .error e => fail ("Expected: CURRENT_USER, CURRENT_ROLE, SESSION_USER or identifier after OWNER TO. "
        ++ e.message) c

/-- Reads for whom a policy holds and what it checks, as it is written behind a blank, as far as it is
stated. -/
def policyRest (below : Level) : Parser String := do
  let owners ← behind "TO" (separated owner)
  let checked (ks : List String) : Parser String := do
    let e ← behindAll ks (parens (expr below))
    return optional (" " ++ Text.join " " ks ++ " (") (e.map (·.text ++ ")"))
  let using_ ← checked ["USING"]
  let check ← checked ["WITH", "CHECK"]
  return optional " TO " (owners.map (Text.join ", ")) ++ using_ ++ check

def policyDeclaration (below : Level) : Parser Statement := do
  let n ← nameShown
  keyword "ON"
  let table ← pathShown
  let kind ← behind "AS" (oneOf ["PERMISSIVE", "RESTRICTIVE"])
  let command ← behind "FOR" (oneOf ["ALL", "SELECT", "INSERT", "UPDATE", "DELETE"])
  return .other ("CREATE POLICY " ++ n ++ " ON " ++ table ++ optional " AS " kind ++ optional " FOR " command
    ++ (← policyRest below))

def namePairs : Parser String := do
  let pairs ← separated do
    let key ← nameShown
    return key ++ " " ++ (← nameShown)
  return Text.join ", " pairs

def secretDeclaration (lead : String) : Parser Statement := do
  let guarded ← optionalGuard
  let storage : Parser (Option String) := do
    if ← takeKeyword "IN" then loosely nameShown else return none
  let (n, early) ← if ← peekSymbol "(" then pure (none, none)
    else if ← keywordAt 0 "IN" then (none, ·) <$> storage
    else (·, none) <$> loosely nameShown
  let late ← if early.isSome then pure none else storage
  let (kind, pairs) ← parens do
    keyword "TYPE"
    let kind ← nameShown
    let pairs ← if ← takeSymbol "," then some <$> namePairs else pure none
    return (kind, pairs)
  return .other (lead ++ "SECRET " ++ guarded ++ optional "" (n.map (· ++ " "))
    ++ optional "IN " ((early.or late).map (· ++ " ")) ++ "( TYPE " ++ kind ++ optional ", " pairs ++ " )")

/-! ## Sequences, extensions and connections -/

def sequenceDeclaration (below : Level) (temporary : String) : Parser Statement := do
  let guarded ← optionalGuard
  let n ← pathShown
  let type ← behind "AS" (dataType below)
  let options ← sequenceOptions
  let owner ← behindAll ["OWNED", "BY"] do
    if ← takeKeyword "NONE" then return "NONE" else pathShown
  return .other ("CREATE " ++ temporary ++ "SEQUENCE " ++ guarded ++ n ++ optional " AS " type ++ options
    ++ optional " OWNED BY " owner)

def extensionDeclaration : Parser Statement := do
  let guarded ← optionalGuard
  let n ← nameShown
  let details ← behind "WITH" do
    let schema ← optionalNameBehind "SCHEMA"
    let version ← optionalNameBehind "VERSION"
    return schema ++ version ++ (← optionalWord "CASCADE")
  let details := details.getD ""
  return .other ("CREATE EXTENSION " ++ guarded ++ n ++ (if details.isEmpty then "" else " WITH" ++ details))

/-- Reads a table that a module keeps, behind `VIRTUAL`. -/
def virtualTable : Parser Statement := do
  keyword "TABLE"
  let guarded ← optionalGuard
  let n ← pathShown
  keyword "USING"
  let module_ ← nameShown
  let arguments ← if ← peekSymbol "(" then parens (separatedUntil (· == .symbol ")") nameShown) else pure []
  return .other ("CREATE VIRTUAL TABLE " ++ guarded ++ n ++ " USING " ++ module_
    ++ (if arguments.isEmpty then "" else " (" ++ Text.join ", " arguments ++ ")"))

def connectorDeclaration (below : Level) : Parser Statement := do
  let guarded ← optionalGuard
  let n ← nameShown
  let kind ← behind "TYPE" bareLiteral
  let url ← behind "URL" bareLiteral
  let comment ← behind "COMMENT" do
    let _ ← takeSymbol "="
    commentText
  let options ← behindAll ["WITH", "DCPROPERTIES"] (parens (separated (optionPhrase below)))
  return .other ("CREATE CONNECTOR " ++ guarded ++ n ++ optional " TYPE " kind ++ optional " URL " url
    ++ optional " COMMENT = '" (comment.map (· ++ "'"))
    ++ optional " WITH DCPROPERTIES(" (options.map fun os => Text.join ", " (os.map Phrase.text) ++ ")"))

def serverDeclaration : Parser Statement := do
  let guarded ← optionalGuard
  let n ← pathShown
  let kind ← optionalNameBehind "TYPE"
  let version ← optionalNameBehind "VERSION"
  keywords ["FOREIGN", "DATA", "WRAPPER"]
  let wrapper ← pathShown
  let options ← behind "OPTIONS" (parens namePairs)
  return .other ("CREATE SERVER " ++ guarded ++ n ++ kind ++ version ++ " FOREIGN DATA WRAPPER " ++ wrapper
    ++ optional " OPTIONS (" (options.map (· ++ ")")))

/-! ## Created objects -/

/-- The words before a created object, as they are written before a blank. -/
structure CreationWords where
  replace : String
  alter : String
  /-- How far a table is seen. -/
  scope : String
  transient : String
  temporary : String
  view : String

def creationWords : Parser CreationWords := do
  let flag (ks : List String) : Parser String := do
    if ← takeKeywords ks then return Text.join " " ks ++ " " else return ""
  let replace ← flag ["OR", "REPLACE"]
  let alter ← flag ["OR", "ALTER"]
  let here ← flag ["LOCAL"]
  let everywhere ← flag ["GLOBAL"]
  let transient ← flag ["TRANSIENT"]
  let temporary := if (← takeOneOf ["TEMP", "TEMPORARY"]).isSome then "TEMPORARY " else ""
  let view ← viewTraits
  return { replace, alter, scope := if everywhere.isEmpty then here else everywhere, transient, temporary, view }

def peekView : Parser Bool := do
  let k ← peekKeyword
  if k != "SECURE" then return k == "MATERIALIZED" || k == "VIEW"
  if ← keywordAt 1 "VIEW" then return true
  peekKeywords ["SECURE", "MATERIALIZED", "VIEW"]

/-- Reads a created object that never replaces another one. -/
def freshObject (below : Level) (w : CreationWords) : Parser Statement := do
  if ← takeKeywords ["UNIQUE", "INDEX"] then return ← indexDeclaration below "CREATE UNIQUE "
  match ← takeOneOf ["EXTENSION", "INDEX", "VIRTUAL", "SCHEMA", "DATABASE", "ROLE", "SEQUENCE", "TYPE",
      "PROCEDURE", "CONNECTOR", "OPERATOR", "SERVER"] with
  | some "EXTENSION" => extensionDeclaration
  | some "INDEX" => indexDeclaration below "CREATE "
  | some "VIRTUAL" => virtualTable
  | some "SCHEMA" => schemaDeclaration below
  | some "DATABASE" => databaseDeclaration
  | some "ROLE" => roleDeclaration
  | some "SEQUENCE" => sequenceDeclaration below w.temporary
  | some "TYPE" => typeDeclaration below
  | some "PROCEDURE" => procedureDeclaration below ("CREATE " ++ w.alter)
  | some "CONNECTOR" => connectorDeclaration below
  | some "OPERATOR" =>
    if ← takeKeyword "FAMILY" then return ← operatorFamily
    if ← takeKeyword "CLASS" then return ← operatorClass below
    operatorDeclaration below
  | some _ => serverDeclaration
  | none => expected "an object type after CREATE"

/-- Reads a created object behind `CREATE`. -/
def createRest (below : Level) : Parser Statement := do
  let w ← creationWords
  let lead := "CREATE " ++ w.replace
  if ← takeKeyword "TABLE" then
    return .createTable (← tableDeclaration below (lead ++ w.scope ++ w.temporary ++ w.transient))
  if ← peekView then
    return ← viewDeclaration below ("CREATE " ++ w.alter ++ w.replace ++ w.view) w.temporary
  let trigger := "CREATE " ++ w.temporary ++ w.alter ++ w.replace
  if ← takeKeywords ["CONSTRAINT", "TRIGGER"] then return ← triggerDeclaration below (trigger ++ "CONSTRAINT ")
  match ← takeOneOf ["POLICY", "EXTERNAL", "FUNCTION", "DOMAIN", "TRIGGER", "MACRO", "SECRET", "USER"] with
  | some "POLICY" => policyDeclaration below
  | some "EXTERNAL" => .createTable <$> externalTable below lead
  | some "FUNCTION" => functionDeclaration below (lead ++ w.temporary)
  | some "DOMAIN" => domainDeclaration below
  | some "TRIGGER" => triggerDeclaration below trigger
  | some "MACRO" => macroDeclaration below (lead ++ w.temporary)
  | some "SECRET" => secretDeclaration (lead ++ w.temporary)
  | some _ => userDeclaration w.replace
  | none =>
    unless w.replace.isEmpty do
      expected "[EXTERNAL] TABLE or [MATERIALIZED] VIEW or FUNCTION after CREATE OR REPLACE"
    freshObject below w

end Parser
end Sql
end PolyglotSql
