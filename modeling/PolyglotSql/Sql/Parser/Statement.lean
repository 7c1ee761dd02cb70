import PolyglotSql.Sql.Parser.Alteration
import PolyglotSql.Sql.Parser.Drop
import PolyglotSql.Sql.Parser.Manipulation
import PolyglotSql.Sql.Parser.Session
import PolyglotSql.Sql.Parser.Setting
import PolyglotSql.Sql.Parser.Transfer
import PolyglotSql.Sql.Parser.Upkeep

/-!
# PolyglotSql.Sql.Parser.Statement

A statement is told by its first word. Whatever begins with a parenthesis is a query.
-/

namespace PolyglotSql
namespace Sql
namespace Parser

/-- The kinds of statements that are no queries, by the words that begin them. Each is read behind its
first word, which is given. -/
def statementKinds (below : Level) : List (List String × (Token → Parser Statement)) :=
  [(["BEGIN", "START", "COMMIT", "END", "ROLLBACK", "SAVEPOINT", "RELEASE"], fun t => transactionRest t.keyword),
   (["IF", "CASE", "WHILE", "RAISE", "RAISERROR", "PRINT", "RETURN"], controlRest below),
   (["DECLARE", "FETCH", "OPEN", "CLOSE", "PREPARE", "EXECUTE", "EXEC", "DEALLOCATE", "CALL", "USE", "KILL",
     "ASSERT", "DISCARD", "INSTALL", "LOAD", "LISTEN", "UNLISTEN", "NOTIFY", "EXPLAIN", "DESCRIBE", "DESC"],
    fun t => sessionRest below t.keyword),
   (["TRUNCATE", "ANALYZE", "VACUUM", "OPTIMIZE", "MSCK", "RENAME", "CACHE", "UNCACHE", "FLUSH", "COMMENT"],
    fun t => upkeepRest below t.keyword),
   (["COPY", "UNLOAD", "EXPORT", "ATTACH", "DETACH"], fun t => transferRest below t.keyword),
   (["INSERT", "REPLACE", "UPDATE", "DELETE", "MERGE"], fun t => manipulationRest below t.keyword),
   (["SET"], fun _ => settingRest below), (["RESET"], fun _ => resetRest), (["PRAGMA"], fun _ => pragmaRest),
   (["SHOW"], fun _ => showRest below), (["GRANT"], fun _ => grantRest below),
   (["REVOKE"], fun _ => revokeRest below), (["DENY"], fun _ => denyRest below),
   (["CREATE"], fun _ => createRest below), (["DROP"], fun _ => dropRest below),
   (["ALTER"], fun _ => alterRest below)]

def statement (below : Level) : Parser Statement := do
  let t ← peek
  let k := t.token.keyword
  if t.token = .symbol "(" || ["SELECT", "WITH", "VALUES", "FROM"].contains k then
    return .query (← below.query)
  match (statementKinds below).find? (·.1.contains k) with
  | some (_, rest) =>
    skip
    rest t.token
  | none => expected "an SQL statement"

end Parser
end Sql
end PolyglotSql
