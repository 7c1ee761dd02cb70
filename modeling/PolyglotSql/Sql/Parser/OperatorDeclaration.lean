import PolyglotSql.Sql.Parser.Query

/-!
# PolyglotSql.Sql.Parser.OperatorDeclaration

Operators, families of them and classes of them as they are declared. They are read to be written
again, and are kept as text.
-/

namespace PolyglotSql
namespace Sql
namespace Parser

/-! ## Operators -/

/-- Reads the name of an operator, as it is written: any tokens between periods. -/
def operatorName : Parser String :=
  repeatUntil "" fun lead => do
    let part := (← next).token.describe
    if ← takeSymbol "." then return .inl (lead ++ part ++ ".") else return .inr (lead ++ part)

/-- The words for what an operator is declared to be, in the order in which they are written. -/
def operatorWords : List String :=
  ["FUNCTION", "PROCEDURE", "LEFTARG", "RIGHTARG", "COMMUTATOR", "NEGATOR", "RESTRICT", "JOIN", "HASHES",
   "MERGES"]

def operatorTrait (below : Level) (k : String) : Parser String := do
  if k == "HASHES" || k == "MERGES" then return k
  symbol "="
  match k with
  | "LEFTARG" | "RIGHTARG" => return k ++ " = " ++ (← dataType below)
  | "COMMUTATOR" | "NEGATOR" =>
    let n ← if ← takeKeyword "OPERATOR" then parens operatorName else operatorName
    return k ++ " = " ++ n
  | _ => return k ++ " = " ++ (← pathShown)

def operatorDeclaration (below : Level) : Parser Statement := do
  let n ← operatorName
  let same (k l : String) : Bool :=
    k == l || (["FUNCTION", "PROCEDURE"].contains k && ["FUNCTION", "PROCEDURE"].contains l)
  let traits ← parens <| repeatUntil [] fun found => do
    let k ← oneOf operatorWords
    if found.any fun f => same k f.1 then fail ("Duplicate or unexpected keyword " ++ k ++ " in CREATE OPERATOR")
    let found := (k, ← operatorTrait below k) :: found
    if ← takeSymbol "," then return .inl found else return .inr found
  unless traits.any (same "FUNCTION" ·.1) do fail "CREATE OPERATOR requires FUNCTION parameter"
  let stated := operatorWords.filterMap fun k => traits.lookup k
  return .other ("CREATE OPERATOR " ++ n ++ " (" ++ Text.join ", " stated ++ ")")

/-! ## Families and classes -/

def operatorFamily : Parser Statement := do
  let n ← pathShown
  keyword "USING"
  return .other ("CREATE OPERATOR FAMILY " ++ n ++ " USING " ++ (← nameShown))

/-- Reads what an operator of a class is for, as it is written behind a blank, if it is stated. -/
def optionalPurpose : Parser String := do
  unless ← takeKeyword "FOR" do return ""
  if ← takeKeyword "SEARCH" then return " FOR SEARCH"
  if ← takeKeywords ["ORDER", "BY"] then return " FOR ORDER BY " ++ (← pathShown)
  expected "SEARCH or ORDER BY after FOR"

def classMember (below : Level) : Parser (Option String) := do
  match ← takeOneOf ["OPERATOR", "FUNCTION", "STORAGE"] with
  | some "OPERATOR" =>
    let strategy ← literalNumber
    let n ← operatorName
    let types ← if ← peekSymbol "(" then
        parens do
          let left ← dataType below
          symbol ","
          return " (" ++ left ++ ", " ++ (← dataType below) ++ ")"
      else pure ""
    return some ("OPERATOR " ++ toString strategy ++ " " ++ n ++ types ++ (← optionalPurpose))
  | some "FUNCTION" =>
    let support ← literalNumber
    let types ← if ← peekSymbol "(" then some <$> parens (separated (dataType below)) else pure none
    let n ← pathShown
    let arguments ← if ← peekSymbol "(" then
        parens do
          if ← peekSymbol ")" then return [] else separatedLoosely (· == .symbol ")") (dataType below)
      else pure []
    return some ("FUNCTION " ++ toString support ++ optional " (" (types.map (Text.join ", " · ++ ")")) ++ " " ++ n
      ++ (if arguments.isEmpty then "" else "(" ++ Text.join ", " arguments ++ ")"))
  | some _ => return some ("STORAGE " ++ (← dataType below))
  | none => return none

def operatorClass (below : Level) : Parser Statement := do
  let n ← pathShown
  let default_ ← optionalWord "DEFAULT"
  keywords ["FOR", "TYPE"]
  let type ← dataType below
  keyword "USING"
  let method ← nameShown
  let family ← behind "FAMILY" pathShown
  keyword "AS"
  let members ← repeatUntil [] fun found => do
    match ← classMember below with
    | none => return .inr found
    | some member =>
      let found := found ++ [member]
      if ← takeSymbol "," then return .inl found else return .inr found
  return .other ("CREATE OPERATOR CLASS " ++ n ++ default_ ++ " FOR TYPE " ++ type ++ " USING " ++ method
    ++ optional " FAMILY " family ++ " AS " ++ Text.join ", " members)

end Parser
end Sql
end PolyglotSql
