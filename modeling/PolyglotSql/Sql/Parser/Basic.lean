import PolyglotSql.Sql.Keyword
import PolyglotSql.Sql.Outline

/-!
# PolyglotSql.Sql.Parser.Basic

Reading tokens. A parser takes what remains of a script and gives a result with what it leaves, or
says why it cannot. Trying a parser gives everything back that it took if it fails, unless it ran
into an error that no other form can mend, such as the limit on nesting.

The forms of SQL nest in each other. The parsers of each form are therefore written over a
`Level`, which stands for all the forms as parsed one level further down.
-/

namespace PolyglotSql
namespace Sql

/-- Why a script is not SQL. -/
inductive ParseError where
  /-- It nests too deeply. -/
  | recursionLimit
  /-- Something else should stand where a token is. -/
  | expected (what : String) (found : Located)
  /-- Anything else. -/
  | other (message : String)
  /-- Something that the reader relies on is missing, so that it breaks off. -/
  | broken (message : String)
deriving Inhabited

namespace ParseError

/-- What is wrong, whoever finds it. -/
def cause : ParseError → String
  | .recursionLimit => "recursion limit exceeded"
  | .expected what found => "Expected: " ++ what ++ ", found: " ++ found.token.describe ++ found.place
  | .other message => message
  | .broken message => message

/-- The wording of an error. -/
def message (e : ParseError) : String :=
  "sql parser error: " ++ e.cause

/-- Whether no other form can mend an error. -/
def isFinal : ParseError → Bool
  | .recursionLimit | .broken _ => true
  | .expected _ _ | .other _ => false

end ParseError

/-- Where an expression stands, as far as it decides which words it may use. -/
inductive Setting where
  | general
  /-- Within `CONNECT BY`, where `PRIOR` is an operator. -/
  | connectBy
  /-- Within the declaration of a column, where `NOT NULL` is none. -/
  | column
deriving DecidableEq, Inhabited

/-- What remains to be read. -/
structure Cursor where
  rest : List Located
  /-- The number of tokens of the whole script, which bounds every repetition. -/
  size : Nat
  /-- How much further forms may nest. -/
  depth : Nat
  setting : Setting
deriving Inhabited

/-- A reader of tokens. -/
abbrev Parser := StateT Cursor (Except ParseError)

namespace Parser

/-- How deeply forms may nest. -/
def maximalDepth : Nat := 50

/-! ## Tokens -/

/-- The token at a distance from the next one. -/
def peekAt (distance : Nat) : Parser Located := fun c =>
  .ok (c.rest[distance]?.getD .eof, c)

def peek : Parser Located := fun c =>
  .ok (c.rest.head?.getD .eof, c)

def next : Parser Located := fun c =>
  .ok (c.rest.head?.getD .eof, { c with rest := c.rest.tail })

/-- Takes the next token and drops it. -/
def skip : Parser Unit := fun c =>
  .ok ((), { c with rest := c.rest.tail })

/-- Fails because something else should stand where a token is. -/
def expectedAt {α : Type} (what : String) (found : Located) : Parser α :=
  throw (.expected what found)

/-- Fails because something else should stand where the next token is. -/
def expected {α : Type} (what : String) : Parser α := do
  expectedAt what (← peek)

def fail {α : Type} (message : String) : Parser α :=
  throw (.other message)

def peekKeyword : Parser String :=
  return (← peek).token.keyword

/-- Whether the token at a distance spells a keyword. -/
def keywordAt (distance : Nat) (keyword : String) : Parser Bool :=
  return (← peekAt distance).token.keyword == keyword

/-- Whether the next tokens spell keywords. -/
def peekKeywords (keywords : List String) : Parser Bool := fun c =>
  .ok ((c.rest.take keywords.length).map (·.token.keyword) == keywords, c)

def takeKeyword (keyword : String) : Parser Bool := fun c =>
  match c.rest with
  | t :: rest =>
    if t.token.keyword == keyword then .ok (true, { c with rest }) else .ok (false, c)
  | [] => .ok (false, c)

/-- Takes several keywords if they are next, all or none. -/
def takeKeywords (keywords : List String) : Parser Bool := do
  if ← peekKeywords keywords then
    modify fun c => { c with rest := c.rest.drop keywords.length }
    return true
  return false

/-- Takes one of several keywords if one is next. -/
def takeOneOf (keywords : List String) : Parser (Option String) := do
  let keyword ← peekKeyword
  if keyword != "" && keywords.contains keyword then
    skip
    return some keyword
  return none

/-- Takes a keyword, which must be next. -/
def keyword (k : String) : Parser Unit := do
  unless ← takeKeyword k do expected k

/-- Takes several keywords, which must be next. -/
def keywords (ks : List String) : Parser Unit :=
  ks.forM keyword

/-- Takes one of several keywords, which must be next. -/
def oneOf (keywords : List String) : Parser String := do
  match ← takeOneOf keywords with
  | some k => return k
  | none => expected ("one of " ++ Text.join " or " keywords)

def peekSymbol (spelling : String) : Parser Bool := fun c =>
  match c.rest with
  | t :: _ => .ok (t.token == .symbol spelling, c)
  | [] => .ok (false, c)

def takeSymbol (spelling : String) : Parser Bool := fun c =>
  match c.rest with
  | t :: rest =>
    if t.token == .symbol spelling then .ok (true, { c with rest }) else .ok (false, c)
  | [] => .ok (false, c)

/-- Takes a symbol, which must be next. -/
def symbol (spelling : String) : Parser Unit := do
  unless ← takeSymbol spelling do expected spelling

/-- Takes several symbols if they are next, all or none. -/
def takeSymbols (spellings : List String) : Parser Bool := fun c =>
  if (c.rest.take spellings.length).map (·.token) == spellings.map Token.symbol then
    .ok (true, { c with rest := c.rest.drop spellings.length })
  else .ok (false, c)

/-- Whether a keyword is next, and a symbol behind it. -/
def peekKeywordBefore (k spelling : String) : Parser Bool := do
  return (← keywordAt 0 k) && (← peekAt 1).token == .symbol spelling

/-- The place of the next token, as a message states it. -/
def place : Parser String :=
  return (← peek).place

/-- Fails with a message about where the next token is. -/
def failHere {α : Type} (message : String) : Parser α := do
  fail (message ++ (← place))

/-! ## Ways to read -/

/-- Tries a parser. If it fails, it takes nothing, unless the error is final. -/
def maybe {α : Type} (p : Parser α) : Parser (Option α) := fun c =>
  match p c with
  | .ok (a, c) => .ok (some a, c)
  | .error e => if e.isFinal then .error e else .ok (none, c)

/-- Reads one level further down, if it is not too deep. -/
def nested {α : Type} (p : Parser α) : Parser α := fun c =>
  match c.depth with
  | 0 => .error .recursionLimit
  | depth + 1 =>
    match p { c with depth } with
    | .ok (a, c) => .ok (a, { c with depth := depth + 1 })
    | .error e => .error e

/-- Reads in a setting. -/
def within {α : Type} (setting : Setting) (p : Parser α) : Parser α := fun c =>
  match p { c with setting } with
  | .ok (a, after) => .ok (a, { after with setting := c.setting })
  | .error e => .error e

/-- Repeats a step until it gives a result, in at most as many turns as given. -/
def repeatFor {α β : Type} (step : α → Parser (α ⊕ β)) : (turns : Nat) → α → Parser β
  | 0, _ => throw .recursionLimit
  | turns + 1, a => do
    match ← step a with
    | .inl a => repeatFor step turns a
    | .inr b => return b

/-- Repeats a step until it gives a result. Each turn but the last takes a token at least, so that
their number is bounded by that of the tokens. -/
def repeatUntil {α β : Type} (a : α) (step : α → Parser (α ⊕ β)) : Parser β := do
  repeatFor step ((← get).size + 1) a

def many {α : Type} (item : Parser (Option α)) : Parser (List α) :=
  repeatUntil [] fun found => do
    match ← item with
    | some a => return .inl (a :: found)
    | none => return .inr found.reverse

def separated {α : Type} (item : Parser α) : Parser (List α) :=
  repeatUntil [] fun found => do
    let found := (← item) :: found
    if ← takeSymbol "," then return .inl found else return .inr found.reverse

/-- Reads items separated by commas, until a token that ends such lists; there may be none. -/
def separatedUntil {α : Type} (ends : Token → Bool) (item : Parser α) : Parser (List α) := do
  if ends (← peek).token then return [] else separated item

/-- Reads items separated by commas, the last of which may be followed by a comma too if a given
token comes next. -/
def separatedLoosely {α : Type} (ends : Token → Bool) (item : Parser α) : Parser (List α) :=
  repeatUntil [] fun found => do
    let found := (← item) :: found
    if ← takeSymbol "," then
      if ends (← peek).token then return .inr found.reverse else return .inl found
    else return .inr found.reverse

def parens {α : Type} (p : Parser α) : Parser α := do
  symbol "("
  let a ← p
  symbol ")"
  return a

/-- Reads the rest of a form if a keyword announces it. -/
def behind {α : Type} (k : String) (p : Parser α) : Parser (Option α) := do
  if ← takeKeyword k then return some (← p) else return none

/-- Reads the rest of a form if keywords announce it. -/
def behindAll {α : Type} (ks : List String) (p : Parser α) : Parser (Option α) := do
  if ← takeKeywords ks then return some (← p) else return none

/-- Reads keywords as text, if they are next. -/
def words (ks : List String) : Parser String := do
  if ← takeKeywords ks then return Text.join " " ks else return ""

/-- Reads keywords as text behind a blank, if they are next. -/
def optionalWords (ks : List String) : Parser String := do
  if ← takeKeywords ks then return " " ++ Text.join " " ks else return ""

/-- Reads a keyword that may follow, as text behind a blank. -/
def optionalWord (k : String) : Parser String :=
  optionalWords [k]

/-- Reads the first of several groups of keywords that is next. -/
def firstOf : List (List String) → Parser (Option String)
  | [] => return none
  | ks :: rest => do
    if ← takeKeywords ks then return some (Text.join " " ks)
    firstOf rest

/-- Reads one of several keywords, as text behind a blank, if one is next. -/
def optionalOneOf (ks : List String) : Parser String := do
  return optional " " (← takeOneOf ks)

/-- Reads a form that may be missing. What stands in its place is dropped, up to the token at which it
cannot be the form. -/
def loosely {α : Type} (p : Parser α) : Parser (Option α) := fun c =>
  match p c with
  | .ok (a, c) => .ok (some a, c)
  | .error (.expected _ found) => .ok (none, { c with rest := (c.rest.dropWhile (· != found)).tail })
  | .error e => .error e

/-- Reads a form that the reader relies on. -/
def certain {α : Type} (p : Parser α) : Parser α := fun c =>
  match p c with
  | .ok found => .ok found
  | .error e =>
    .error (.broken ("called `Result::unwrap()` on an `Err` value: ParserError(" ++ Text.quoted e.cause ++ ")"))

/-- Reads whether an object may be missing, as it is written before a blank. -/
def optionalPresence : Parser String := do
  if ← takeKeywords ["IF", "EXISTS"] then return "IF EXISTS " else return ""

/-- Reads whether an object is created only if there is none, as it is written before a blank. -/
def optionalGuard : Parser String := do
  if ← takeKeywords ["IF", "NOT", "EXISTS"] then return "IF NOT EXISTS " else return ""

/-- Reads whether what depends on a dropped object is dropped too, as it is written behind a blank. -/
def optionalDependents : Parser String :=
  optionalOneOf ["CASCADE", "RESTRICT"]

/-! ## Names and plain literals -/

/-- Reads an identifier: a word, or a text in single quotes. -/
def name : Parser Name := do
  let t ← next
  match t.token with
  | .word w => return .ofWord w t.span
  | .text .plain value => return .ofText value
  | _ => expectedAt "identifier" t

def nameShown : Parser String :=
  Name.text <$> name

/-- Reads identifiers separated by commas, as they are written. -/
def namesShown : Parser String :=
  namesText <$> separated name

/-- Reads a whole number that fits 64 bits. -/
def literalNumber : Parser Nat := do
  let t ← next
  match t.token with
  | .number digits _ =>
    match Text.readDigits? digits.toList with
    | some n =>
      if n < Nat.pow 2 64 then return n
      else fail ("Could not parse '" ++ digits ++ "' as u64: number too large to fit in target type"
        ++ t.place)
    | none =>
      fail ("Could not parse '" ++ digits ++ "' as u64: invalid digit found in string" ++ t.place)
  | _ => expectedAt "literal int" t

def literalText : Parser String := do
  let t ← next
  match t.token with
  | .text .plain value => return value
  | .text .escaped value => return value
  | .text .unicode value => return value
  | .word w => if isKeyword w.keyword then expectedAt "literal string" t else return w.value
  | _ => expectedAt "literal string" t

/-- Reads a text literal, as it is written between single quotes. -/
def quotedLiteral : Parser String :=
  withQuotes '\'' <$> literalText

/-- Reads a text literal, as it is between single quotes, whatever it holds. -/
def bareLiteral : Parser String := do
  return "'" ++ (← literalText) ++ "'"

/-- Reads something, and the tokens that it takes. -/
def withTaken {α : Type} (p : Parser α) : Parser (α × List Located) := do
  let start ← get
  let a ← p
  return (a, start.rest.take (start.rest.length - (← get).rest.length))

/-- Reads an identifier behind a keyword, as it is written behind a blank and the keyword. -/
def optionalNameBehind (k : String) : Parser String := do
  return optional (" " ++ k ++ " ") (← behind k nameShown)

/-- Reads the cluster that a statement is for, as it is written, if it is stated. -/
def optionalCluster : Parser (Option String) :=
  behindAll ["ON", "CLUSTER"] nameShown

def signedNumber : Parser Int := do
  let negative ← takeSymbol "-"
  unless negative do
    let _ ← takeSymbol "+"
  let t ← peek
  match t.token with
  | .number digits _ =>
    skip
    match Text.readDigits? digits.toList with
    | some n =>
      if n < Nat.pow 2 63 then return if negative then -n else n
      else fail ("Could not parse '" ++ digits ++ "' as i64: number too large to fit in target type"
        ++ t.place)
    | none =>
      fail ("Could not parse '" ++ digits ++ "' as i64: invalid digit found in string" ++ t.place)
  | _ => expectedAt "number" t

def path : Parser Path :=
  repeatUntil [] fun found => do
    let found := (← name) :: found
    if ← takeSymbol "." then return .inl found else return .inr found.reverse

def pathShown : Parser String :=
  pathText <$> path

/-- Reads dotted names separated by commas, as they are written. -/
def pathsShown : Parser String := do
  return Text.join ", " (← separated pathShown)

/-- Reads words up to an equals sign, a semicolon, a pipe or the end. Whatever stands between them
is dropped. -/
def looseNames : Parser (List Name) :=
  repeatUntil [] fun found => do
    let t ← peek
    match t.token with
    | .eof | .symbol "=" | .symbol ";" | .symbol "|>" => return .inr found.reverse
    | .word w =>
      skip
      return .inl (.ofWord w t.span :: found)
    | _ =>
      skip
      return .inl found

def parenNames : Parser String := do
  return "(" ++ namesText (← parens (separated name)) ++ ")"

def columnList {α : Type} (column : Parser α) : Parser (List α) := do
  unless ← takeSymbol "(" do expected "a list of columns in parentheses"
  let columns ← separated column
  symbol ")"
  return columns

/-- A placeholder that begins with a symbol: the name or number behind it, which must follow
immediately. -/
def placeholderBehind (first : Located) (spelling : String) : Parser (Literal × Span) := do
  let t ← peek
  match t.blanks with
  | (shown, position) :: _ =>
    throw (.expected "placeholder" { t with token := .symbol shown, position })
  | [] =>
    skip
    let span := first.span.around t.span
    match t.token with
    | .word w => return (.placeholder (spelling ++ w.value), span)
    | .number digits false => return (.placeholder (spelling ++ digits), span)
    | _ => expectedAt "placeholder" t

def valueAt : Parser (Literal × Span) := do
  let t ← next
  match t.token with
  | .word w =>
    match w.keyword, w.quote with
    | "TRUE", _ => return (.boolean true, t.span)
    | "FALSE", _ => return (.boolean false, t.span)
    | "NULL", _ => return (.null, t.span)
    | _, some '"' => return (.quoted w.value, t.span)
    | _, some _ => expectedAt "A value?" t
    | _, none => expectedAt "a concrete value" t
  | .number digits long => return (.number digits long, t.span)
  | .text kind value => return (.text kind value, t.span)
  | .dollar tag value => return (.dollar tag value, t.span)
  | .placeholder name => return (.placeholder name, t.span)
  | .symbol ":" => placeholderBehind t ":"
  | .symbol "@" => placeholderBehind t "@"
  | _ => expectedAt "a value" t

def value : Parser Literal :=
  Prod.fst <$> valueAt

def valueExpr : Parser Expr := do
  let (v, span) ← valueAt
  return .literal v span

def numberAt : Parser (Literal × Span) := do
  let start ← peek
  match ← valueAt with
  | (.number digits long, span) => return (.number digits long, span)
  | (.placeholder s, span) => return (.placeholder s, span)
  | _ => expectedAt "literal number" start

def numberValue : Parser Literal :=
  Prod.fst <$> numberAt

def numberShown : Parser String := do
  if ← takeSymbol "-" then return "-" ++ (← numberValue).written
  if ← takeSymbol "+" then return "+" ++ (← numberValue).written
  return (← numberValue).written

end Parser

/-- What a type is to the expression that begins with it. -/
inductive TypeKind where
  | known | interval | custom
deriving DecidableEq, Inhabited

structure DataType where
  shown : Phrase
  kind : TypeKind
  /-- Whether its last symbol closes the type around it as well. -/
  closesTwo : Bool
deriving Inhabited

/-- The forms of SQL, as they are read one level further down. -/
structure Level where
  /-- An expression of at least a given binding strength. -/
  subexpr : Nat → Parser Expr
  /-- An expression up to its first infix operator. -/
  operand : Parser Expr
  query : Parser Query
  /-- The body of a query, of at least a given binding strength. -/
  queryBody : Nat → Parser QueryBody
  /-- A statement. -/
  statement : Parser Statement
  dataType : Parser DataType
  /-- A declared column, as it is written. -/
  column : Parser String
  /-- A table with the tables joined to it. -/
  source : Parser Source
  /-- A table. -/
  table : Parser TableFactor

end Sql
end PolyglotSql
