import PolyglotSql.Sql.Parser.Query

/-!
# PolyglotSql.Sql.Parser.Control

Statements that choose, repeat and interrupt others, and the lists of statements within them. They
are read to be written again, and are kept as text.

The words that open and close a block are written as they were, in capitals or not.
-/

namespace PolyglotSql
namespace Sql
namespace Parser

/-! ## Lists of statements -/

/-- Reads statements, each with a semicolon behind it, up to a keyword that ends the list or to the
end, as they are written. -/
def statementList (below : Level) (ends : List String) : Parser (List String) :=
  many do
    let t ← peek
    if t.token == .eof || ends.contains t.token.keyword then return none
    let s ← statementShown below
    symbol ";"
    return some s

/-- Statements of a list as they are written. -/
def statementsText (statements : List String) : String :=
  if statements.isEmpty then "" else Text.join "; " statements ++ ";"

/-- Reads the statements of a block, between `BEGIN` and `END` or not, as they are written, and
whether there are any. -/
def blockStatements (below : Level) (ends : List String) : Parser (String × Bool) := do
  let first ← peek
  if ← takeKeyword "BEGIN" then
    let statements ← statementList below ends
    let last ← peek
    keyword "END"
    return (first.token.describe ++ " " ++ statementsText statements ++ " " ++ last.token.describe,
      !statements.isEmpty)
  let statements ← statementList below ends
  return (statementsText statements, !statements.isEmpty)

/-- Reads a block behind the word that opens it, with the condition that the word calls for, as it is
written. -/
def block (below : Level) (opening : Token) (ends : List String) : Parser String := do
  let condition ← match opening.keyword with
    | "ELSE" => pure ""
    | "WHILE" => do
      let e ← expr below
      pure (" " ++ e.text)
    | _ => do
      let e ← expr below
      keyword "THEN"
      pure (" " ++ e.text ++ " THEN")
  let (statements, any) ← blockStatements below ends
  return opening.describe ++ condition ++ (if any then " " ++ statements else "")

/-- Reads blocks that a keyword opens, as they are written behind blanks, as long as there are any. -/
def blocks (below : Level) (k : String) (ends : List String) : Parser String := do
  let found ← many do
    let t ← peek
    if ← takeKeyword k then some <$> block below t.token ends else return none
  return blankEach found

/-- Reads the block of all other cases, as it is written behind a blank, if there is one. -/
def optionalElse (below : Level) : Parser String := do
  let t ← peek
  if ← takeKeyword "ELSE" then return " " ++ (← block below t.token ["END"])
  return ""

/-! ## Choices and repetitions -/

/-- Reads a choice by conditions, behind the word that opens it. -/
def ifRest (below : Level) (opening : Token) : Parser Statement := do
  let first ← block below opening ["ELSE", "ELSEIF", "END"]
  let others ← blocks below "ELSEIF" ["ELSEIF", "ELSE", "END"]
  let rest ← optionalElse below
  keyword "END"
  let last ← peek
  keyword "IF"
  return .other (first ++ others ++ rest ++ " END " ++ last.token.describe)

/-- Reads a choice between cases, behind its first word. -/
def caseRest (below : Level) : Parser Statement := do
  let subject ← if ← keywordAt 0 "WHEN" then pure none else some <$> expr below
  unless ← keywordAt 0 "WHEN" do expected "WHEN"
  let cases_ ← blocks below "WHEN" ["WHEN", "ELSE", "END"]
  let rest ← optionalElse below
  keyword "END"
  let word ← optionalWord "CASE"
  return .other ("CASE" ++ optional " " (subject.map Expr.text) ++ cases_ ++ rest ++ " END" ++ word)

/-! ## Interruptions -/

/-- Reads a raised error behind `RAISE`. -/
def raiseRest (below : Level) : Parser Statement := do
  if ← takeKeywords ["USING", "MESSAGE"] then
    symbol "="
    return .other ("RAISE USING MESSAGE = " ++ (← expr below).text)
  return .other ("RAISE" ++ optional " " ((← maybe (expr below)).map Expr.text))

/-- Reads a raised error with its severity and state, behind `RAISERROR`. -/
def raisedErrorRest (below : Level) : Parser Statement := do
  let parts ← parens do
    let message ← expr below
    symbol ","
    let severity ← expr below
    symbol ","
    let state ← expr below
    let arguments ← if ← takeSymbol "," then exprs below else pure []
    return message :: severity :: state :: arguments
  let options ← behind "WITH" (separated (oneOf ["LOG", "NOWAIT", "SETERROR"]))
  return .other ("RAISERROR" ++ tupleText parts ++ listed " WITH " (options.getD []))

/-- Reads a statement of this kind behind its first word. -/
def controlRest (below : Level) (first : Token) : Parser Statement := do
  match first.keyword with
  | "IF" => ifRest below first
  | "CASE" => caseRest below
  | "WHILE" => .other <$> block below first ["END"]
  | "RAISE" => raiseRest below
  | "RAISERROR" => raisedErrorRest below
  | "PRINT" => return .other ("PRINT " ++ (← expr below).text)
  | _ => return .other ("RETURN" ++ optional " " ((← maybe (expr below)).map Expr.text))

end Parser
end Sql
end PolyglotSql
