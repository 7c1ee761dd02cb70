import PolyglotSql.Sql.Parser.Basic

/-!
# PolyglotSql.Sql.Parser.KeyValue

Properties of objects as keys with values, which may be properties again. They are kept as text.
-/

namespace PolyglotSql
namespace Sql
namespace Parser

/-- Properties as they are written, and what separates them. -/
structure Properties where
  shown : List String
  separator : String

/-- Properties as they are written in a row. -/
def Properties.text (p : Properties) : String :=
  Text.join p.separator p.shown

/-- Reads the value of a property with the sign before it, as it is written. What stands in
parentheses is a list of values, or else properties. -/
def propertyValue (inner : Parser Properties) : Parser String := do
  symbol "="
  match (← peek).token with
  | .text .plain _ | .number _ _ => Literal.written <$> value
  | .word w =>
    if w.keyword == "TRUE" || w.keyword == "FALSE" then return (← value).written
    skip
    return w.value
  | .symbol "(" =>
    match ← maybe (parens (separatedUntil (· == .symbol ")") value)) with
    | some values => return "(" ++ Text.join ", " (values.map Literal.written) ++ ")"
    | none => return "(" ++ (← inner).text ++ ")"
  | _ => expected "expected option value"

/-- Reads properties, which nest at most so deeply. In parentheses they end with these; otherwise they
end before some words, or with a semicolon or the end, which is taken. A comma anywhere among them
sets commas between them all. -/
def propertiesWithin : (depth : Nat) → (inParens : Bool) → (ends : List String) → Parser Properties
  | 0, _, _ => throw .recursionLimit
  | depth + 1, inParens, ends => do
    if inParens then symbol "("
    repeatUntil ⟨[], " "⟩ fun found => do
      let t ← peek
      if ends.contains t.token.keyword then return .inr found
      skip
      match t.token with
      | .word w =>
        let v ← propertyValue (propertiesWithin depth true [])
        return .inl { found with shown := found.shown ++ [w.value ++ "=" ++ v] }
      | .symbol "," => return .inl { found with separator := ", " }
      | .symbol ";" | .eof => return .inr found
      | .symbol ")" => if inParens then return .inr found else expected " another option or EOF"
      | _ => expected "another option, EOF, SemiColon, Comma or ')'"

/-- Reads properties up to some words or to the end of the statement. -/
def openProperties (ends : List String) : Parser Properties := do
  propertiesWithin ((← get).size + 1) false ends

def closedProperties : Parser Properties := do
  propertiesWithin ((← get).size + 1) true []

end Parser
end Sql
end PolyglotSql
