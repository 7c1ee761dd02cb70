import PolyglotSql.Text.Basic

/-!
# PolyglotSql.Rendering.Quoting

How identifiers are written. A plain identifier is an ASCII letter or underscore followed by
letters, digits, underscores and dollar signs; any other name is delimited by quote characters in
every mode, a quote character inside it being written twice. Between the modes only plain names
differ: all of them are delimited, or the reserved words among them, or none. An alias is delimited
no more often than the middle mode asks.
-/

namespace PolyglotSql

/-- When identifiers are delimited. -/
inductive QuoteMode where
  | never
  | whenNeeded
  | always
deriving DecidableEq, Inhabited

namespace QuoteMode

def name : QuoteMode → String
  | .never => "never"
  | .whenNeeded => "when-needed"
  | .always => "always"

/-- Reads the name of a mode in any case, an underscore standing for a hyphen. -/
def ofName (s : String) : Except String QuoteMode :=
  match Text.replaceChar '_' "-" (Text.lower s) with
  | "never" => .ok .never
  | "when-needed" => .ok .whenNeeded
  | "always" => .ok .always
  | other =>
    .error ("Unknown quote mode '" ++ other ++ "' (expected never, when-needed or always)")

end QuoteMode

/-- The quoting policy of one rendered text. -/
structure QuoteStyle where
  mode : QuoteMode
  quote : Char
deriving DecidableEq, Inhabited

namespace Identifier

/-- Words that are delimited when used as identifiers. -/
def reservedWords : List String :=
  ["ALL", "AND", "AS", "ASC", "BETWEEN", "BY", "CASE", "CHECK", "COLUMN", "CONSTRAINT", "CREATE",
   "CROSS", "CURRENT", "DATE", "DEFAULT", "DELETE", "DESC", "DISTINCT", "DROP", "ELSE", "END",
   "EXISTS", "FALSE", "FETCH", "FOR", "FOREIGN", "FROM", "FULL", "GROUP", "HAVING", "IN",
   "INNER", "INSERT", "INTO", "IS", "JOIN", "KEY", "LEFT", "LIKE", "LIMIT", "NOT", "NULL",
   "OFFSET", "ON", "OR", "ORDER", "OUTER", "PRIMARY", "REFERENCES", "RIGHT", "ROWS", "ROWNUM",
   "SELECT", "SET", "TABLE", "THEN", "TIME", "TIMESTAMP", "TO", "TRUE", "UNION", "UNIQUE",
   "UPDATE", "USER", "USING", "VALUE", "VALUES", "WHEN", "WHERE", "WITH"]

/-- Characters that may begin a plain identifier. -/
def isPlainStart (c : Char) : Bool :=
  c.isAlpha || c == '_'

/-- Characters that may follow in a plain identifier. -/
def isPlainPart (c : Char) : Bool :=
  c.isAlphanum || c == '_' || c == '$'

/-- Whether a name can be read back without delimiters. -/
def isPlain (name : String) : Bool :=
  match name.toList with
  | [] => false
  | c :: cs => isPlainStart c && cs.all isPlainPart

def isReserved (name : String) : Bool :=
  reservedWords.contains (Text.upper name)

/-- Whether a name is reserved or not plain. -/
def needsQuoting (name : String) : Bool :=
  !isPlain name || isReserved name

end Identifier

namespace QuoteStyle

/-- Characters of a name with each quote character written twice. -/
def double (quote : Char) (name : List Char) : List Char :=
  name.flatMap fun c => if c = quote then [c, c] else [c]

/-- A name between quote characters. -/
def delimit (quote : Char) (name : String) : String :=
  String.ofList (quote :: double quote name.toList ++ [quote])

/-- Whether the policy delimits a table, column or schema name. -/
def delimitsName (style : QuoteStyle) (name : String) : Bool :=
  match style.mode with
  | .never => !Identifier.isPlain name
  | .whenNeeded => Identifier.needsQuoting name
  | .always => true

def delimitsAlias (style : QuoteStyle) (alias_ : String) : Bool :=
  match style.mode with
  | .never => !Identifier.isPlain alias_
  | .whenNeeded | .always => Identifier.needsQuoting alias_

/-- A table, column or schema name as it is written. -/
def quoteName (style : QuoteStyle) (name : String) : String :=
  if style.delimitsName name then delimit style.quote name else name

def quoteAlias (style : QuoteStyle) (alias_ : String) : String :=
  if style.delimitsAlias alias_ then delimit style.quote alias_ else alias_

end QuoteStyle
end PolyglotSql
