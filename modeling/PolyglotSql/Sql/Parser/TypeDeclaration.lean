import PolyglotSql.Sql.Parser.Column

/-!
# PolyglotSql.Sql.Parser.TypeDeclaration

Types and domains as they are declared. They are read to be written again, and are kept as text.
-/

namespace PolyglotSql
namespace Sql
namespace Parser

/-! ## Traits of types -/

/-- The traits of a base type whose values are dotted names. -/
def namedTypeTraits : List String :=
  ["INPUT", "OUTPUT", "RECEIVE", "SEND", "TYPMOD_IN", "TYPMOD_OUT", "ANALYZE", "SUBSCRIPT", "LIKE"]

def otherTypeTraits : List String :=
  ["INTERNALLENGTH", "PASSEDBYVALUE", "ALIGNMENT", "STORAGE", "CATEGORY", "PREFERRED", "DEFAULT", "ELEMENT",
   "DELIMITER", "COLLATABLE"]

/-- Reads one of several keywords, which is written in small letters. -/
def smallWord (ks : List String) (what : String) : Parser String := do
  match ← takeOneOf ks with
  | some k => return Text.lower k
  | none => expected what

def typeTraitValue (below : Level) (k : String) : Parser String := do
  match k with
  | "INTERNALLENGTH" =>
    if ← takeKeyword "VARIABLE" then return "VARIABLE"
    return toString (← literalNumber)
  | "ALIGNMENT" =>
    smallWord ["CHAR", "INT2", "INT4", "DOUBLE"] "alignment value (char, int2, int4, or double)"
  | "STORAGE" =>
    smallWord ["PLAIN", "EXTERNAL", "EXTENDED", "MAIN"] "storage value (plain, external, extended, or main)"
  | "CATEGORY" | "DELIMITER" =>
    match (← literalText).toList with
    | c :: _ => return "'" ++ String.singleton c ++ "'"
    | [] => fail (k ++ " value must be a single character")
  | "PREFERRED" | "COLLATABLE" =>
    match ← takeOneOf ["TRUE", "FALSE"] with
    | some "FALSE" => return "false"
    | _ => return "true"
  | "DEFAULT" => return (← expr below).text
  | "ELEMENT" => dataType below
  | _ => pathShown

def typeTrait (below : Level) : Parser String := do
  match ← takeOneOf (namedTypeTraits ++ otherTypeTraits) with
  | some "PASSEDBYVALUE" => return "PASSEDBYVALUE"
  | some k =>
    symbol "="
    return k ++ " = " ++ (← typeTraitValue below k)
  | none => expected "SQL definition option keyword"

def rangeTrait (below : Level) : Parser String := do
  match ← takeOneOf ["SUBTYPE", "SUBTYPE_OPCLASS", "COLLATION", "CANONICAL", "SUBTYPE_DIFF",
      "MULTIRANGE_TYPE_NAME"] with
  | some k =>
    symbol "="
    return k ++ " = " ++ (← if k == "SUBTYPE" then dataType below else pathShown)
  | none => expected "range option keyword"

/-! ## Declarations -/

def typeField (below : Level) : Parser String := do
  let n ← nameShown
  let type ← dataType below
  return n ++ " " ++ type ++ optional " COLLATE " (← behind "COLLATE" pathShown)

/-- Reads parts in parentheses, as they are written with these; there may be none. -/
def partList (part : Parser String) : Parser String := do
  return "(" ++ Text.join ", " (← parens (separatedUntil (· == .symbol ")") part)) ++ ")"

def typeDeclaration (below : Level) : Parser Statement := do
  let lead := "CREATE TYPE " ++ (← pathShown)
  unless ← takeKeyword "AS" do
    if ← peekSymbol "(" then return .other (lead ++ " " ++ (← partList (typeTrait below)))
    return .other lead
  if ← takeKeyword "ENUM" then return .other (lead ++ " AS ENUM " ++ (← partList nameShown))
  if ← takeKeyword "RANGE" then return .other (lead ++ " AS RANGE " ++ (← partList (rangeTrait below)))
  if ← peekSymbol "(" then return .other (lead ++ " AS " ++ (← partList (typeField below)))
  expected "ENUM, RANGE, or '(' after AS"

def domainDeclaration (below : Level) : Parser Statement := do
  let n ← pathShown
  keyword "AS"
  let type ← dataType below
  let collation ← optionalNameBehind "COLLATE"
  let fallback ← optionalPart below "DEFAULT"
  let constraints ← many (tableConstraint below)
  return .other ("CREATE DOMAIN " ++ n ++ " AS " ++ type ++ collation ++ fallback ++ blankEach (constraints.map TableConstraint.text))

end Parser
end Sql
end PolyglotSql
