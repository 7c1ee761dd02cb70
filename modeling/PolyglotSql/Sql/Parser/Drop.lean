import PolyglotSql.Sql.Parser.OperatorDeclaration
import PolyglotSql.Sql.Parser.Routine

/-!
# PolyglotSql.Sql.Parser.Drop

Statements that drop the objects of a database. They are read to be written again, and are kept as
text.
-/

namespace PolyglotSql
namespace Sql
namespace Parser

/-- The kinds of objects that are dropped alike. -/
def droppedKinds : List (List String) :=
  [["TABLE"], ["VIEW"], ["MATERIALIZED", "VIEW"], ["INDEX"], ["ROLE"], ["SCHEMA"], ["DATABASE"],
   ["SEQUENCE"], ["STAGE"], ["TYPE"], ["USER"], ["STREAM"]]

def objectDrop (temporary kind : String) : Parser Statement := do
  let guarded ← optionalPresence
  let names ← pathsShown
  let start ← place
  let cascade ← optionalWord "CASCADE"
  let restrict ← optionalWord "RESTRICT"
  let purge ← optionalWord "PURGE"
  if !cascade.isEmpty && !restrict.isEmpty then
    fail ("Cannot specify both CASCADE and RESTRICT in DROP" ++ start)
  if kind == "ROLE" && !(cascade ++ restrict ++ purge).isEmpty then
    fail ("Cannot specify CASCADE, RESTRICT, or PURGE in DROP ROLE" ++ start)
  let table ← behind "ON" pathShown
  return .other ("DROP" ++ temporary ++ " " ++ kind ++ " " ++ guarded ++ names ++ cascade ++ restrict ++ purge
    ++ optional " ON " table)

/-- Reads the operands by which a dropped operator is told, with its name, as it is written. -/
def operatorSignature (below : Level) : Parser String := do
  let n ← operatorName
  let operands ← parens do
    let left ← if ← takeKeyword "NONE" then pure "NONE" else dataType below
    symbol ","
    return left ++ ", " ++ (← dataType below)
  return n ++ " (" ++ operands ++ ")"

/-- Reads the names of families or classes of operators, as they are written. -/
def operatorGroups : Parser String := do
  let names ← pathsShown
  keyword "USING"
  return names ++ " USING " ++ (← nameShown)

/-- Reads what of a kind is dropped, behind whether it may be missing, as it is written. -/
def droppedThing (below : Level) : String → Parser String
  | "FUNCTION" | "PROCEDURE" => return Text.join ", " (← separated (functionSignature below)) ++ (← optionalDependents)
  | "POLICY" => do
    let n ← nameShown
    keyword "ON"
    let table ← pathShown
    return n ++ " ON " ++ table ++ (← optionalDependents)
  | "CONNECTOR" => nameShown
  | "DOMAIN" => return (← pathShown) ++ (← optionalDependents)
  | "SECRET" => do
    let n ← nameShown
    let storage ← if ← takeKeyword "FROM" then loosely nameShown else pure none
    return n ++ optional " FROM " storage
  | "TRIGGER" => do
    let n ← pathShown
    let table ← behind "ON" pathShown
    return n ++ optional " ON " table ++ (← optionalDependents)
  | "EXTENSION" => return (← namesShown) ++ (← optionalDependents)
  | "OPERATOR" => return Text.join ", " (← separated (operatorSignature below)) ++ (← optionalDependents)
  | _ => return (← operatorGroups) ++ (← optionalDependents)

/-- Reads a dropped object behind `DROP`. -/
def dropRest (below : Level) : Parser Statement := do
  let temporary ← optionalWord "TEMPORARY"
  if let some kind ← firstOf droppedKinds then return ← objectDrop temporary kind
  match ← firstOf [["FUNCTION"], ["POLICY"], ["CONNECTOR"], ["DOMAIN"], ["PROCEDURE"], ["SECRET"], ["TRIGGER"],
      ["EXTENSION"], ["OPERATOR", "FAMILY"], ["OPERATOR", "CLASS"], ["OPERATOR"]] with
  | some kind =>
    let temporary := if kind == "SECRET" then temporary else ""
    let guarded ← optionalPresence
    return .other ("DROP" ++ temporary ++ " " ++ kind ++ " " ++ guarded ++ (← droppedThing below kind))
  | none => expected ("CONNECTOR, DATABASE, EXTENSION, FUNCTION, INDEX, OPERATOR, POLICY, PROCEDURE, "
      ++ "ROLE, SCHEMA, SECRET, SEQUENCE, STAGE, TABLE, TRIGGER, TYPE, VIEW, MATERIALIZED VIEW or USER "
      ++ "after DROP")

end Parser
end Sql
end PolyglotSql
