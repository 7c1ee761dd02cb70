import PolyglotSql.Sql.Parser.Query

/-!
# PolyglotSql.Sql.Parser.Column

Declared columns, with what each is declared to be, and the constraints on tables as a whole. Of a
column its type, its primary key and whether it rejects `NULL` are kept, and of a constraint the
columns that it makes the primary key; all else is read to be written again.
-/

namespace PolyglotSql
namespace Sql
namespace Parser

/-! ## Parts of constraints -/

/-- Reads when a constraint is checked, as it is written behind a blank, if it is stated. -/
def characteristics : Parser String :=
  repeatUntil (none, none, none) fun (deferrable, initially, enforced) => do
    if deferrable.isNone then
      if let some s ← firstOf [["NOT", "DEFERRABLE"], ["DEFERRABLE"]] then
        return .inl (some s, initially, enforced)
    if initially.isNone then
      if ← takeKeyword "INITIALLY" then
        match ← takeOneOf ["DEFERRED", "IMMEDIATE"] with
        | some k => return .inl (deferrable, some ("INITIALLY " ++ k), enforced)
        | none => expected "one of DEFERRED or IMMEDIATE"
    if enforced.isNone then
      if let some s ← firstOf [["ENFORCED"], ["NOT", "ENFORCED"]] then
        return .inl (deferrable, initially, some s)
    return .inr (blankEach ([deferrable, initially, enforced].filterMap id))

/-- Reads what happens to a row whose referent changes, as it is written. -/
def referentialAction : Parser String := do
  match ← firstOf [["RESTRICT"], ["CASCADE"], ["SET", "NULL"], ["NO", "ACTION"], ["SET", "DEFAULT"]] with
  | some s => return s
  | none => expected "one of RESTRICT, CASCADE, SET NULL, NO ACTION or SET DEFAULT"

/-- Reads how rows match their referents and what happens when those change, in any order, as it is
written behind a blank. -/
def referentialActions : Parser String :=
  repeatUntil (none, none, none) fun (match_, delete, update) => do
    if match_.isNone then
      if ← takeKeyword "MATCH" then
        match ← takeOneOf ["FULL", "PARTIAL", "SIMPLE"] with
        | some k => return .inl (some ("MATCH " ++ k), delete, update)
        | none => expected "one of FULL, PARTIAL or SIMPLE"
    if delete.isNone then
      if ← takeKeywords ["ON", "DELETE"] then
        return .inl (match_, some ("ON DELETE " ++ (← referentialAction)), update)
    if update.isNone then
      if ← takeKeywords ["ON", "UPDATE"] then
        return .inl (match_, delete, some ("ON UPDATE " ++ (← referentialAction)))
    return .inr (blankEach ([match_, delete, update].filterMap id))

def optionalColumns : Parser (List Name) := do
  if ← peekSymbol "(" then columnList name else return []

/-- Reads the referent of rows behind `REFERENCES`, as it is written, with something between its name
and its columns. -/
def referent (between : String) : Parser String := do
  let table ← pathShown
  let columns ← optionalColumns
  let actions ← referentialActions
  let rest ← characteristics
  return "REFERENCES " ++ table ++ (if columns.isEmpty then "" else between ++ "(" ++ namesText columns ++ ")")
    ++ actions ++ rest

/-- Reads whether `NULL` counts as distinct, as it is written behind a blank, if it is stated. -/
def optionalNullDistinction : Parser String := do
  unless ← takeKeyword "NULLS" do return ""
  let negated ← takeKeyword "NOT"
  keyword "DISTINCT"
  return " NULLS " ++ negation negated ++ "DISTINCT"

/-- The kinds of indexes whose names are keywords. -/
def indexKinds : List String :=
  ["BTREE", "HASH", "GIN", "GIST", "SPGIST", "BRIN", "BLOOM"]

/-- Reads the kind of an index, as it is written behind a blank, if it is stated. -/
def optionalIndexKind : Parser String := do
  unless ← takeKeyword "USING" do return ""
  match ← takeOneOf indexKinds with
  | some k => return " USING " ++ k
  | none => return " USING " ++ (← nameShown)

/-- The column that an expression of an index names, whole or by so many characters from its
beginning. -/
def indexedName : Expr → Option Name
  | .identifier n => some n
  | .call { name := [n], arguments := .list none [.expr (.literal (.number _ _) _)] [], .. } => some n
  | _ => none

/-- Reads a column of an index: an expression with a class of operators and an order. -/
def indexColumn (below : Level) : Parser IndexColumn := do
  let e ← expr below
  let ordered := ["ASC", "DESC", "NULLS", "WITH"].contains (← peekKeyword)
  let operators ← if ordered then pure none else maybe pathShown
  return { name := indexedName e, written := (← orderRest below e).text ++ optional " " operators }

def indexOptions : Parser String := do
  let options ← many do
    let kind ← optionalIndexKind
    unless kind.isEmpty do return some kind
    if ← takeKeyword "COMMENT" then return some (" COMMENT " ++ (← bareLiteral))
    return none
  return String.join options

/-- Reads a comment as it may stand in a declaration: a text in single quotes or between dollar
signs. -/
def commentText : Parser String := do
  let t ← next
  match t.token with
  | .text .plain s => return s
  | .dollar _ s => return s
  | _ => expectedAt "string literal" t

/-! ## Columns -/

/-- Reads whether generated values are kept, as it is written behind a blank, if it is stated. -/
def optionalStorage : Parser String :=
  optionalOneOf ["STORED", "VIRTUAL"]

/-- Reads the options of a sequence in their order, as they are written behind blanks. -/
def sequenceOptions : Parser String := do
  let counted (k between : String) : Parser String := do
    unless ← takeKeyword k do return ""
    let word ← optionalWord between
    return " " ++ k ++ word ++ " " ++ (← numberShown)
  let bound (k : String) : Parser String := do
    if ← takeKeyword k then return " " ++ k ++ " " ++ (← numberShown)
    optionalWords ["NO", k]
  let increment ← counted "INCREMENT" "BY"
  let low ← bound "MINVALUE"
  let high ← bound "MAXVALUE"
  let start ← counted "START" "WITH"
  let cache ← behind "CACHE" numberShown
  let cycle ← firstOf [["NO", "CYCLE"], ["CYCLE"]]
  return increment ++ low ++ high ++ start ++ optional " CACHE " cache ++ optional " " cycle

/-- Reads a generated column behind `GENERATED`, as it is written; nothing if it is no generation. -/
def generated (below : Level) : Parser (Option String) := do
  for ks in [["ALWAYS", "AS", "IDENTITY"], ["BY", "DEFAULT", "AS", "IDENTITY"]] do
    if ← takeKeywords ks then
      let options ← if ← peekSymbol "(" then parens sequenceOptions else pure ""
      return some ("GENERATED " ++ Text.join " " ks ++ (if options.isEmpty then "" else " (" ++ options ++ " )"))
  if ← takeKeywords ["ALWAYS", "AS"] then
    if ← peekSymbol "(" then
      let e ← parens (within .general (expr below))
      return some ("GENERATED ALWAYS AS (" ++ e.text ++ ")" ++ (← optionalStorage))
  return none

/-- The options of a column that are nothing but their words. -/
def plainColumnOptions : List (List String) :=
  [["NULL"], ["AUTO_INCREMENT"], ["AUTOINCREMENT"], ["ASC"], ["DESC"], ["INVISIBLE"]]

/-- The options of a column that are words and an expression. -/
def valuedColumnOptions : List (List String) :=
  [["DEFAULT"], ["MATERIALIZED"], ["ALIAS"], ["SRID"], ["ON", "UPDATE"]]

/-- The options of a column that are words and a dotted name. -/
def namedColumnOptions : List (List String) :=
  [["CHARACTER", "SET"], ["COLLATE"]]

/-- Reads something that a column is declared to be, if there is anything of the kind. -/
def columnOption (below : Level) : Parser (Option ColumnOption) :=
  within .column do
    let other (s : String) : Parser (Option ColumnOption) := return some ⟨.other, s⟩
    if ← takeKeywords ["NOT", "NULL"] then return some ⟨.notNull, "NOT NULL"⟩
    if ← takeKeywords ["PRIMARY", "KEY"] then
      return some ⟨.primaryKey, "PRIMARY KEY" ++ (← characteristics)⟩
    if let some s ← firstOf plainColumnOptions then return ← other s
    if let some s ← firstOf valuedColumnOptions then return ← other (s ++ " " ++ (← expr below).text)
    if let some s ← firstOf namedColumnOptions then return ← other (s ++ " " ++ (← pathShown))
    if ← takeKeywords ["ON", "CONFLICT"] then
      return ← other ("ON CONFLICT " ++ (← oneOf ["ROLLBACK", "ABORT", "FAIL", "IGNORE", "REPLACE"]))
    match ← takeOneOf ["COMMENT", "EPHEMERAL", "UNIQUE", "REFERENCES", "CHECK", "GENERATED", "OPTIONS", "AS",
        "IDENTITY"] with
    | some "COMMENT" => other ("COMMENT " ++ withQuotes '\'' (← commentText))
    | some "EPHEMERAL" =>
      if (← peekSymbol ",") || (← peekSymbol ")") then other "EPHEMERAL"
      else other ("EPHEMERAL " ++ (← expr below).text)
    | some "UNIQUE" => other ("UNIQUE" ++ (← characteristics))
    | some "REFERENCES" => other (← referent " ")
    | some "CHECK" => other ("CHECK (" ++ (← parens (within .general (expr below))).text ++ ")")
    | some "GENERATED" => return (← generated below).map (⟨.other, ·⟩)
    | some "OPTIONS" => other ("OPTIONS(" ++ (← optionList below) ++ ")")
    | some "AS" =>
      let e ← parens (expr below)
      other ("AS (" ++ e.text ++ ")" ++ (← optionalStorage))
    | some _ =>
      let parameters ← if ← peekSymbol "(" then
          parens do
            let seed ← numberShown
            symbol ","
            return "(" ++ seed ++ ", " ++ (← numberShown) ++ ")"
        else pure ""
      other ("IDENTITY" ++ parameters)
    | none => return none

/-- Reads what a column is declared to be, in full. -/
def columnOptions (below : Level) : Parser (List ColumnOption) :=
  many do
    if ← takeKeyword "CONSTRAINT" then
      let n ← nameShown
      match ← columnOption below with
      | some option => return some { option with written := "CONSTRAINT " ++ n ++ " " ++ option.written }
      | none => expected "constraint details after CONSTRAINT <name>"
    columnOption below

def columnDeclaration (below : Level) : Parser ColumnDeclaration := do
  let n ← name
  let type ← dataType below
  return { name := n, type, options := ← columnOptions below }

/-! ## Constraints -/

/-- Reads a name that may be missing, as it is written behind a blank. -/
def optionalName : Parser String := do
  return optional " " (← maybe nameShown)

/-- Reads an index with the kind of its name, its columns and its options: what is written before its
columns, behind a blank, the columns, and what is written behind them. -/
def indexBody (below : Level) (n : String) : Parser (String × List IndexColumn × String) := do
  let kind ← optionalIndexKind
  let columns ← columnList (indexColumn below)
  return (n ++ kind ++ " ", columns, ← indexOptions)

def indexShown (below : Level) (n : String) : Parser String := do
  let (before, columns, behind) ← indexBody below n
  return before ++ indexColumnsText columns ++ behind

/-- Reads a constraint that is no primary key behind its keyword, as it is written. -/
def otherConstraint (below : Level) : String → Parser String
  | "UNIQUE" => do
    let word ← optionalOneOf ["KEY", "INDEX"]
    let nulls ← optionalNullDistinction
    let body ← indexShown below (← optionalName)
    return "UNIQUE" ++ nulls ++ word ++ body ++ (← characteristics)
  | "FOREIGN" => do
    keyword "KEY"
    let n ← optionalName
    let columns ← columnList name
    keyword "REFERENCES"
    return "FOREIGN KEY" ++ n ++ " (" ++ namesText columns ++ ") " ++ (← referent "")
  | "CHECK" => do
    let e ← parens (expr below)
    let enforced ← firstOf [["ENFORCED"], ["NOT", "ENFORCED"]]
    return "CHECK (" ++ e.text ++ ")" ++ optional " " enforced
  | k => do
    if k == "INDEX" || k == "KEY" then
      let n ← if ← keywordAt 0 "USING" then pure "" else optionalName
      return k ++ (← indexShown below n)
    let word ← optionalOneOf ["KEY", "INDEX"]
    let n ← optionalName
    return k ++ word ++ n ++ " " ++ indexColumnsText (← columnList (indexColumn below))

/-- Reads a constraint behind its keyword; what is written before the keyword is given. -/
def constraintBehind (below : Level) (lead : String) : String → Parser TableConstraint
  | "PRIMARY" => do
    keyword "KEY"
    let (before, columns, behind) ← indexBody below (← optionalName)
    return .primaryKey (lead ++ "PRIMARY KEY" ++ before) columns (behind ++ (← characteristics))
  | k => .other <$> (lead ++ ·) <$> otherConstraint below k

/-- Reads a constraint on a table, if there is one. A column cannot be called by a keyword that begins
one. -/
def tableConstraint (below : Level) : Parser (Option TableConstraint) := do
  let n ← behind "CONSTRAINT" nameShown
  let t ← peek
  let k := t.token.keyword
  if ["UNIQUE", "PRIMARY", "FOREIGN", "CHECK"].contains k then
    skip
    return some (← constraintBehind below (optional "CONSTRAINT " (n.map (· ++ " "))) k)
  let searched := k == "FULLTEXT" || k == "SPATIAL"
  match n with
  | some n =>
    if searched then
      expectedAt "FULLTEXT or SPATIAL option without constraint name" { t with token := .symbol n }
    expectedAt "PRIMARY, UNIQUE, FOREIGN, or CHECK" t
  | none =>
    unless searched || k == "INDEX" || k == "KEY" do return none
    skip
    return some (← constraintBehind below "" k)

def columnsAndConstraints (below : Level) : Parser (List ColumnDeclaration × List TableConstraint) := do
  unless ← takeSymbol "(" do return ([], [])
  if ← takeSymbol ")" then return ([], [])
  repeatUntil ([], []) fun (columns, constraints) => do
    let found ← match ← tableConstraint below with
      | some constraint => pure (columns, constraints ++ [constraint])
      | none =>
        match (← peek).token with
        | .word _ => do
          let column ← columnDeclaration below
          pure (columns ++ [column], constraints)
        | _ => expected "column name or constraint definition"
    let comma ← takeSymbol ","
    let closes ← peekSymbol ")"
    unless comma || closes do expected "',' or ')' after column definition"
    if closes && !comma then
      skip
      return .inr found
    return .inl found

end Parser
end Sql
end PolyglotSql
