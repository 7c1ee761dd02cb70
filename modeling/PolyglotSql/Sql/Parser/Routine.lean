import PolyglotSql.Sql.Parser.Control
import PolyglotSql.Sql.Parser.TableDeclaration

/-!
# PolyglotSql.Sql.Parser.Routine

Functions, procedures, macros and triggers as they are declared. They are read to be written again,
and are kept as text.
-/

namespace PolyglotSql
namespace Sql
namespace Parser

/-! ## Parameters -/

/-- Reads which way a parameter goes, as it is written before a blank, if it is stated. -/
def optionalMode : Parser String := do
  match ← takeOneOf ["IN", "OUT", "INOUT"] with
  | some k => return k ++ " "
  | none => return ""

/-- Reads a parameter of a function, as it is written: a type with an optional name before it. A
type that another one follows was a name, of which its last word counts. -/
def parameter (below : Level) : Parser String := do
  let mode ← optionalMode
  let (first, taken) ← withTaken (dataType below)
  let second ← if ← keywordAt 0 "DEFAULT" then pure none else maybe (dataType below)
  let shown ← match second with
    | none => pure first
    | some type =>
      let last := taken.getLastD .eof
      match last.token with
      | .word _ => pure (last.token.describe ++ " " ++ type)
      | _ => expectedAt "a name or type" last
  let assigned ← if ← takeKeyword "DEFAULT" then pure true else takeSymbol "="
  let fallback ← if assigned then some <$> expr below else pure none
  return mode ++ shown ++ optional " = " (fallback.map Expr.text)

def parameterList (below : Level) : Parser String := do
  let found ← parens (separatedUntil (· == .symbol ")") (parameter below))
  return "(" ++ Text.join ", " found ++ ")"

/-- Reads a function with the parameters that tell it from others of its name, as it is written. -/
def functionSignature (below : Level) : Parser String := do
  let n ← pathShown
  let parameters ← if ← peekSymbol "(" then parameterList below else pure ""
  return n ++ parameters

/-! ## Functions -/

/-- What a function is declared to be, each part as it is written. -/
structure FunctionTraits where
  language : Option String
  behavior : Option String
  onNull : Option String
  parallel : Option String
  body : Option String

namespace FunctionTraits

/-- Nothing is declared. -/
def none : FunctionTraits := ⟨.none, .none, .none, .none, .none⟩

/-- What is declared, in the order in which it is written, each part behind a blank. -/
def text (f : FunctionTraits) : String :=
  blankEach ([f.language, f.behavior, f.onNull, f.parallel, f.body].filterMap id)

end FunctionTraits

/-- Fails if something is declared twice. -/
def once (what : String) (found : Option String) : Parser Unit := do
  if found.isSome then fail (what ++ " specified more than once")

def functionText : Parser String := do
  let t ← peek
  match t.token with
  | .dollar _ _ =>
    skip
    return t.token.describe
  | _ => quotedLiteral

/-- What a function may do about parameters that are `NULL`. -/
def nullBehaviors : List (List String) :=
  [["CALLED", "ON", "NULL", "INPUT"], ["RETURNS", "NULL", "ON", "NULL", "INPUT"], ["STRICT"]]

/-- Reads something that a function is declared to be, if there is anything of the kind. -/
def functionTrait (below : Level) (f : FunctionTraits) : Parser (Option FunctionTraits) := do
  if let some shown ← firstOf nullBehaviors then
    once (Text.join " | " (nullBehaviors.map (Text.join " "))) f.onNull
    return some { f with onNull := some shown }
  match ← takeOneOf ["AS", "LANGUAGE", "IMMUTABLE", "STABLE", "VOLATILE", "PARALLEL", "RETURN"] with
  | some "AS" =>
    once "AS" f.body
    let body ← functionText
    let link ← if ← takeSymbol "," then some <$> functionText else pure none
    return some { f with body := some ("AS " ++ body ++ optional ", " link) }
  | some "LANGUAGE" =>
    once "LANGUAGE" f.language
    return some { f with language := some ("LANGUAGE " ++ (← nameShown)) }
  | some "PARALLEL" =>
    once "PARALLEL \x7b UNSAFE | RESTRICTED | SAFE \x7d" f.parallel
    match ← takeOneOf ["UNSAFE", "RESTRICTED", "SAFE"] with
    | some k => return some { f with parallel := some ("PARALLEL " ++ k) }
    | none => expected "one of UNSAFE | RESTRICTED | SAFE"
  | some "RETURN" =>
    once "RETURN" f.body
    return some { f with body := some ("RETURN " ++ (← expr below).text) }
  | some k =>
    once "IMMUTABLE | STABLE | VOLATILE" f.behavior
    return some { f with behavior := some k }
  | none => return none

def functionDeclaration (below : Level) (lead : String) : Parser Statement := do
  let n ← pathShown
  let parameters ← parameterList below
  let result ← behind "RETURNS" (dataType below)
  let traits ← repeatUntil FunctionTraits.none fun found => do
    match ← functionTrait below found with
    | some found => return .inl found
    | none => return .inr found
  return .other (lead ++ "FUNCTION " ++ n ++ parameters ++ optional " RETURNS " result ++ traits.text)

/-! ## Procedures and macros -/

def procedureParameter (below : Level) : Parser String := do
  let mode ← optionalMode
  let n ← nameShown
  let type ← dataType below
  let fallback ← if ← takeSymbol "=" then some <$> expr below else pure none
  return mode ++ n ++ " " ++ type ++ optional " = " (fallback.map Expr.text)

/-- Reads the parameters of a procedure, as they are written behind a blank, if there are any. Commas
may stand without a parameter. -/
def procedureParameters (below : Level) : Parser String := do
  unless ← takeSymbol "(" do return ""
  if ← takeSymbol ")" then return ""
  repeatUntil [] fun found => do
    let found ← match (← peek).token with
      | .word _ => do
        let p ← procedureParameter below
        pure (found ++ [p])
      | _ => pure found
    let comma ← takeSymbol ","
    if ← takeSymbol ")" then
      return .inr (if found.isEmpty then "" else " (" ++ Text.join ", " found ++ ")")
    unless comma do expected "',' or ')' after parameter definition"
    return .inl found

def procedureDeclaration (below : Level) (lead : String) : Parser Statement := do
  let n ← pathShown
  let parameters ← procedureParameters below
  let language ← optionalNameBehind "LANGUAGE"
  keyword "AS"
  let (body, _) ← blockStatements below ["END"]
  return .other (lead ++ "PROCEDURE " ++ n ++ parameters ++ language ++ " AS " ++ body)

def macroDeclaration (below : Level) (lead : String) : Parser Statement := do
  let n ← pathShown
  let parameters ← parens <| separatedUntil (· == .symbol ")") do
    let n ← nameShown
    let assigned ← if ← takeSymbol ":=" then pure true else takeSymbol "=>"
    let fallback ← if assigned then some <$> expr below else pure none
    return n ++ optional " := " (fallback.map Expr.text)
  keyword "AS"
  let body ← if ← takeKeyword "TABLE" then do
      let q ← below.query
      pure ("TABLE " ++ q.text)
    else Expr.text <$> expr below
  return .other (lead ++ "MACRO " ++ n
    ++ (if parameters.isEmpty then "" else "(" ++ Text.join ", " parameters ++ ")") ++ " AS " ++ body)

/-! ## Triggers -/

def triggerPeriod : Parser String := do
  match ← oneOf ["FOR", "BEFORE", "AFTER", "INSTEAD"] with
  | "INSTEAD" =>
    keyword "OF"
    return "INSTEAD OF"
  | k => return k

def triggerEvent : Parser String := do
  let k ← oneOf ["INSERT", "UPDATE", "DELETE", "TRUNCATE"]
  if k == "UPDATE" then return k ++ optional " OF " (← behind "OF" namesShown)
  return k

def triggerEvents : Parser String :=
  repeatUntil "" fun lead => do
    let event ← triggerEvent
    if ← takeKeyword "OR" then return .inl (lead ++ event ++ " OR ") else return .inr (lead ++ event)

/-- Reads the names under which a trigger sees rows, as they are written behind blanks. -/
def triggerTables : Parser String := do
  let found ← many do
    let some k ← takeOneOf ["OLD", "NEW"] | return none
    unless ← takeKeyword "TABLE" do return none
    let word ← optionalWord "AS"
    return some (" " ++ k ++ " TABLE" ++ word ++ " " ++ (← pathShown))
  return String.join found

def triggerDeclaration (below : Level) (lead : String) : Parser Statement := do
  let n ← pathShown
  let period ← maybe triggerPeriod
  let events ← triggerEvents
  keyword "ON"
  let table ← pathShown
  let other ← if ← takeKeyword "FROM" then loosely pathShown else pure none
  let checked ← characteristics
  let tables ← behind "REFERENCING" triggerTables
  let tables := match tables with
    | some s => if s.isEmpty then "" else " REFERENCING" ++ s
    | none => ""
  let object ← behind "FOR" do
    let each ← optionalWord "EACH"
    return each ++ " " ++ (← oneOf ["ROW", "STATEMENT"])
  let condition ← optionalPart below "WHEN"
  let body ← if ← takeKeyword "EXECUTE" then do
      let kind ← oneOf ["FUNCTION", "PROCEDURE"]
      let f ← functionSignature below
      pure ("EXECUTE " ++ kind ++ " " ++ f)
    else do
      let (statements, _) ← blockStatements below ["END"]
      pure statements
  return .other (lead ++ "TRIGGER " ++ n ++ " " ++ optional "" (period.map (· ++ " ")) ++ events ++ " ON " ++ table
    ++ optional " FROM " other ++ checked ++ tables ++ optional " FOR" object ++ condition
    ++ " " ++ body)

end Parser
end Sql
end PolyglotSql
