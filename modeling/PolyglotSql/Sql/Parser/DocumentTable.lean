import PolyglotSql.Sql.Parser.Operator

/-!
# PolyglotSql.Sql.Parser.DocumentTable

Tables that are taken out of a document: `JSON_TABLE`, `OPENJSON` and `XMLTABLE`. Each states its
document, and columns with the paths at which their values are found. All are read without an
alias.
-/

namespace PolyglotSql
namespace Sql
namespace Parser

/-- A table of a kind with fields, and without an alias, which is shown behind them. -/
def unnamedTable (written kind : String) (fields : List (String × String)) : TableFactor :=
  .other written none "" kind (fields ++ [("alias", "None")])

/-- Phrases as they are written, separated by commas. -/
def phrasesText (parts : List Phrase) : String :=
  Text.join ", " (parts.map Phrase.text)

/-! ## Columns -/

/-- Reads what a column is in a case that has no value for it, up to the word before the case. -/
def missingValue : Parser (Option Phrase) := do
  match ← takeOneOf ["NULL", "ERROR", "DEFAULT"] with
  | some "DEFAULT" =>
    let v ← value
    keyword "ON"
    return some ⟨"DEFAULT " ++ v.written, enclosed "Default" v.label⟩
  | some k =>
    keyword "ON"
    return some ⟨k, capitalized k⟩
  | none => return none

/-- Reads what a column is where its path finds nothing, and where it finds an error. Of two
statements for one case the last one counts. -/
def missingValues : Parser (Option Phrase × Option Phrase) := do
  repeatUntil (none, none) fun (onEmpty, onError) => do
    match ← missingValue with
    | none => return .inr (onEmpty, onError)
    | shown =>
      if ← takeKeyword "EMPTY" then return .inl (shown, onError)
      keyword "ERROR"
      return .inl (onEmpty, shown)

/-- Reads a column of `JSON_TABLE` that holds no further ones. -/
def jsonColumn (below : Level) : Parser Phrase := do
  let n ← name
  if ← takeKeyword "FOR" then
    keyword "ORDINALITY"
    return ⟨n.text ++ " FOR ORDINALITY", enclosed "ForOrdinality" n.outline⟩
  let type ← wholeType below
  let tested ← takeKeyword "EXISTS"
  keyword "PATH"
  let found ← value
  let (onEmpty, onError) ← missingValues
  let missing (p : Option Phrase) (occasion : String) : String := optional " " (p.map (·.text ++ occasion))
  return ⟨n.text ++ " " ++ type.text ++ (if tested then " EXISTS" else "") ++ " PATH " ++ found.written
      ++ missing onEmpty " ON EMPTY" ++ missing onError " ON ERROR",
    enclosed "Named" (record "JsonTableNamedColumn"
      [("name", n.outline), ("type", type.outline), ("path", found.label), ("exists", truth tested),
        ("on_empty", possiblePhrase onEmpty), ("on_error", possiblePhrase onError)])⟩

/-- Reads the columns of `JSON_TABLE`, nested at most so deeply. -/
def jsonColumns (below : Level) : (depth : Nat) → Parser (List Phrase)
  | 0 => throw .recursionLimit
  | depth + 1 =>
    separated do
      if ← takeKeyword "NESTED" then
        let _ ← takeKeyword "PATH"
        let found ← value
        keyword "COLUMNS"
        let columns ← parens (jsonColumns below depth)
        return ⟨"NESTED PATH " ++ found.written ++ " COLUMNS (" ++ phrasesText columns ++ ")",
          enclosed "Nested" (record "JsonTableNestedColumn"
            [("path", found.label), ("columns", phraseOutlines columns)])⟩
      else jsonColumn below

/-- Reads a column of `OPENJSON`. -/
def openedColumn (below : Level) : Parser Phrase := do
  let n ← name
  let type ← wholeType below
  let found ← match (← peek).token with
    | .text .plain s => do
      skip
      pure (some s)
    | _ => pure none
  let document ← takeKeyword "AS"
  if document then keyword "JSON"
  return ⟨n.text ++ " " ++ type.text ++ optional " " (found.map (withQuotes '\'' ·))
      ++ (if document then " AS JSON" else ""),
    record "OpenJsonTableColumn" [("name", n.outline), ("type", type.outline),
      ("path", possible (found.map Text.quoted)), ("as_json", truth document)]⟩

/-- Reads a column of `XMLTABLE`. -/
def xmlColumn (below : Level) : Parser Phrase := do
  let n ← name
  let shown (text label : String) : Phrase :=
    ⟨n.text ++ text, record "XmlTableColumn" [("name", n.outline), ("option", label)]⟩
  if ← takeKeyword "FOR" then
    keyword "ORDINALITY"
    return shown " FOR ORDINALITY" "ForOrdinality"
  let type ← wholeType below
  let found ← exprBehind below "PATH"
  let missing ← exprBehind below "DEFAULT"
  let filled ← takeKeywords ["NOT", "NULL"]
  unless filled do
    let _ ← takeKeyword "NULL"
  return shown
    (" " ++ type.text ++ optional " PATH " (found.map Expr.text) ++ optional " DEFAULT " (missing.map Expr.text)
      ++ (if filled then " NOT NULL" else ""))
    (record "NamedInfo" [("type", type.outline), ("path", possibleExpr found),
      ("default", possibleExpr missing), ("nullable", truth (!filled))])

/-! ## Tables -/

/-- Reads what follows `JSON_TABLE`. -/
def jsonTable (below : Level) : Parser TableFactor :=
  parens do
    let document ← expr below
    symbol ","
    let found ← value
    keyword "COLUMNS"
    let columns ← parens (do jsonColumns below ((← get).size + 1))
    return unnamedTable
      ("JSON_TABLE(" ++ document.text ++ ", " ++ found.written ++ " COLUMNS(" ++ phrasesText columns ++ "))")
      "JsonTable" [("json_expr", document.outline), ("json_path", found.label),
        ("columns", phraseOutlines columns)]

/-- Reads what follows `OPENJSON`. -/
def openedTable (below : Level) : Parser TableFactor := do
  let (document, found) ← parens do
    let document ← expr below
    let found ← if ← takeSymbol "," then some <$> value else pure none
    return (document, found)
  let columns ← behind "WITH" (parens (separated (openedColumn below)))
  return unnamedTable
    ("OPENJSON(" ++ document.text ++ optional ", " (found.map Literal.written) ++ ")"
      ++ optional " WITH (" (columns.map (phrasesText · ++ ")")))
    "OpenJsonTable" [("json_expr", document.outline), ("json_path", possible (found.map Literal.label)),
      ("columns", phraseOutlines (columns.getD []))]

/-- Reads a document that `XMLTABLE` is given. -/
def passedDocument (below : Level) : Parser Phrase := do
  let byValue ← takeKeyword "BY"
  if byValue then keyword "VALUE"
  let document ← expr below
  let alias_ ← behind "AS" name
  return ⟨(if byValue then "BY VALUE " else "") ++ document.text ++ optional " AS " (alias_.map Name.text),
    record "XmlPassingArgument" [("expr", document.outline), ("alias", possible (alias_.map Name.outline)),
      ("by_value", truth byValue)]⟩

/-- Reads the namespaces of `XMLTABLE`, if any are stated. -/
def optionalNamespaces (below : Level) : Parser (List Phrase) := do
  let found ← behind "XMLNAMESPACES" do
    let found ← parens <| separated do
      let uri ← expr below
      keyword "AS"
      let n ← name
      return (⟨uri.text ++ " AS " ++ n.text,
        record "XmlNamespaceDefinition" [("uri", uri.outline), ("name", n.outline)]⟩ : Phrase)
    symbol ","
    return found
  return found.getD []

/-- Reads what follows `XMLTABLE`. -/
def xmlTable (below : Level) : Parser TableFactor :=
  parens do
    let namespaces ← optionalNamespaces below
    let row ← expr below
    let passed ← behind "PASSING" (separated (passedDocument below))
    keyword "COLUMNS"
    let columns ← separated (xmlColumn below)
    let lead := if namespaces.isEmpty then ""
      else "XMLNAMESPACES(" ++ phrasesText namespaces ++ "), "
    return unnamedTable
      ("XMLTABLE(" ++ lead ++ row.text ++ optional " PASSING " (passed.map phrasesText)
        ++ " COLUMNS " ++ phrasesText columns ++ ")")
      "XmlTable" [("namespaces", phraseOutlines namespaces), ("row_expression", row.outline),
        ("passing", record "XmlPassingClause" [("arguments", phraseOutlines (passed.getD []))]),
        ("columns", phraseOutlines columns)]

def optionalDocumentTable (below : Level) : Parser (Option TableFactor) := do
  let readers : List (String × (Level → Parser TableFactor)) :=
    [("JSON_TABLE", jsonTable), ("OPENJSON", openedTable), ("XMLTABLE", xmlTable)]
  match readers.lookup (← peekKeyword), (← peekAt 1).token == .symbol "(" with
  | some reader, true =>
    skip
    return some (← reader below)
  | _, _ => return none

end Parser
end Sql
end PolyglotSql
