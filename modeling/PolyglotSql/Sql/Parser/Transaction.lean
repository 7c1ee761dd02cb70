import PolyglotSql.Sql.Parser.Query

/-!
# PolyglotSql.Sql.Parser.Transaction

Statements that begin, end and mark transactions. They are read to be written again, and are kept
as text.
-/

namespace PolyglotSql
namespace Sql
namespace Parser

def transactionModes : Parser String := do
  let mode : Parser (Option String) := do
    if ← takeKeywords ["ISOLATION", "LEVEL"] then
      for ks in [["READ", "UNCOMMITTED"], ["READ", "COMMITTED"], ["REPEATABLE", "READ"],
          ["SERIALIZABLE"], ["SNAPSHOT"]] do
        if ← takeKeywords ks then return some ("ISOLATION LEVEL " ++ Text.join " " ks)
      expected "isolation level"
    for ks in [["READ", "ONLY"], ["READ", "WRITE"]] do
      if ← takeKeywords ks then return some (Text.join " " ks)
    return none
  repeatUntil ([], false) fun (found, required) => do
    match ← mode with
    | some s => return .inl (found ++ [s], ← takeSymbol ",")
    | none =>
      if required then expected "transaction mode"
      return .inr (listed " " found)

def optionalChain : Parser String := do
  let _ ← takeOneOf ["TRANSACTION", "WORK", "TRAN"]
  if ← takeKeyword "AND" then
    let negated ← takeKeyword "NO"
    keyword "CHAIN"
    return if negated then "" else " AND CHAIN"
  return ""

def transactionRest (k : String) : Parser Statement := do
  match k with
  | "BEGIN" =>
    let modifier ← takeOneOf ["DEFERRED", "IMMEDIATE", "EXCLUSIVE", "TRY", "CATCH"]
    let word ← takeOneOf ["TRANSACTION", "WORK", "TRAN"]
    let modes ← transactionModes
    return .other ("BEGIN" ++ optional " " modifier ++ optional " " word ++ modes)
  | "START" =>
    keyword "TRANSACTION"
    return .other ("START TRANSACTION" ++ (← transactionModes))
  | "COMMIT" => return .other ("COMMIT" ++ (← optionalChain))
  | "END" =>
    let modifier ← takeOneOf ["TRY", "CATCH"]
    return .other ("END" ++ optional " " modifier ++ (← optionalChain))
  | "ROLLBACK" =>
    let chain ← optionalChain
    let target ← behind "TO" do
      let _ ← takeKeyword "SAVEPOINT"
      name
    return .other ("ROLLBACK" ++ chain ++ optional " TO SAVEPOINT " (target.map Name.text))
  | "SAVEPOINT" => return .other ("SAVEPOINT " ++ (← name).text)
  | _ =>
    let _ ← takeKeyword "SAVEPOINT"
    return .other ("RELEASE SAVEPOINT " ++ (← name).text)

end Parser
end Sql
end PolyglotSql
