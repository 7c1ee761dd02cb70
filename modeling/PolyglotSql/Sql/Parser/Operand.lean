import PolyglotSql.Sql.Parser.Call

/-!
# PolyglotSql.Sql.Parser.Operand

Expressions up to their first infix operator. A word may begin a form of its own, such as `CASE`;
if that form cannot be read, the word is a plain name or the name of a function after all, unless
it is reserved.
-/

namespace PolyglotSql
namespace Sql
namespace Parser

/-- An expression that is only shown. -/
def shownExpr (text kind : String) (fields : List (String × String)) : Expr :=
  .other ⟨text, record kind fields⟩

/-! ## Forms that a keyword begins -/

/-- Reads a case distinction behind its keyword, which is given. -/
def caseExpr (below : Level) (start : Located) : Parser Expr := do
  let operand ← if ← takeKeyword "WHEN" then pure none else do
    let e ← expr below
    keyword "WHEN"
    pure (some e)
  let branches ← repeatUntil ([] : List Phrase) fun found => do
    let condition ← expr below
    keyword "THEN"
    let result ← expr below
    let found := ⟨" WHEN " ++ condition.text ++ " THEN " ++ result.text,
      record "CaseWhen" [("condition", condition.outline), ("result", result.outline)]⟩ :: found
    if ← takeKeyword "WHEN" then return .inl found else return .inr found.reverse
  let otherwise ← exprBehind below "ELSE"
  let ending ← peek
  keyword "END"
  return shownExpr
    ("CASE" ++ optional " " (operand.map Expr.text) ++ String.join (branches.map Phrase.text)
      ++ optional " ELSE " (otherwise.map Expr.text) ++ " END")
    "Case" [("case_token", start.outline), ("end_token", ending.outline),
      ("operand", possibleExpr operand), ("conditions", phraseOutlines branches),
      ("else_result", possibleExpr otherwise)]

/-- Reads a conversion of type or character set behind its keyword; one that is only tried gives
`NULL` where it fails. -/
def convertExpr (below : Level) (tried : Bool) : Parser Expr :=
  parens do
    let lead := if tried then "TRY_CONVERT(" else "CONVERT("
    let e ← expr below
    let shown (text : String) (type : Option Phrase) (charset : Option Path) : Expr :=
      shownExpr text "Convert" [("is_try", truth tried), ("expr", e.outline),
        ("data_type", possiblePhrase type), ("charset", possible (charset.map pathOutline)),
        ("target_before_value", "false"), ("styles", "[]")]
    if ← takeKeyword "USING" then
      let charset ← path
      return shown (lead ++ e.text ++ " USING " ++ pathText charset ++ ")") none charset
    symbol ","
    let type ← wholeType below
    let charset ← behindAll ["CHARACTER", "SET"] path
    return shown (lead ++ e.text ++ ", " ++ type.text
      ++ optional " CHARACTER SET " (charset.map pathText) ++ ")") type charset

def castShown (text kind : String) (e : Expr) (type : Phrase) (format : Option String) : Expr :=
  shownExpr text "Cast" [("kind", kind), ("expr", e.outline), ("data_type", type.outline),
    ("format", possible format)]

def castKind : String → String
  | "TRY_CAST" => "TryCast"
  | "SAFE_CAST" => "SafeCast"
  | _ => "Cast"

def castExpr (below : Level) (k : String) : Parser Expr :=
  parens do
    let e ← expr below
    keyword "AS"
    let type ← wholeType below
    let format ← behind "FORMAT" do
      let format ← value
      let zone ← behindAll ["AT", "TIME", "ZONE"] value
      match zone with
      | some zone =>
        return (⟨format.written ++ " AT TIME ZONE " ++ zone.written,
          enclosed "ValueAtTimeZone" (format.label ++ ", " ++ zone.label)⟩ : Phrase)
      | none => return ⟨format.written, enclosed "Value" format.label⟩
    return castShown
      (k ++ "(" ++ e.text ++ " AS " ++ type.text ++ optional " FORMAT " (format.map Phrase.text) ++ ")")
      (castKind k) e type (format.map Phrase.outline)

/-- Reads the query of an `EXISTS`. -/
def existsExpr (below : Level) (negated : Bool) : Parser Expr :=
  parens (Expr.exists_ negated <$> below.query)

/-- Reads a part of a date behind `EXTRACT`. -/
def extractExpr (below : Level) : Parser Expr :=
  parens do
    let field ← datePart
    if ← takeKeyword "FROM" then return .extract field false (← expr below)
    if ← takeSymbol "," then return .extract field true (← expr below)
    fail "Expected 'FROM' or ','"

def roundExpr (below : Level) (k : String) : Parser Expr :=
  parens do
    let e ← expr below
    let kind : Phrase ← if ← takeKeyword "TO" then do
        let field ← datePart
        pure ⟨" TO " ++ field.text, enclosed "DateTimeField" field.outline⟩
      else if ← takeSymbol "," then do
        match ← value with
        | .number digits long =>
          let scale := Literal.number digits long
          pure ⟨", " ++ scale.written, enclosed "Scale" scale.label⟩
        | _ => fail "Scale field can only be of number type"
      else pure ⟨"", "DateTimeField(NoDateTime)"⟩
    return shownExpr (k ++ "(" ++ e.text ++ kind.text ++ ")") (capitalized k)
      [("expr", e.outline), ("field", kind.outline)]

/-- Reads a position behind its keyword, or a call of a function of that name. -/
def positionExpr (below : Level) (n : Name) : Parser Expr := do
  let form ← maybe <| parens do
    let needle ← below.subexpr 20
    keyword "IN"
    return .position needle (← expr below)
  match form with
  | some e => return e
  | none => Expr.call <$> callBehind below [n]

def substringExpr (below : Level) (short : Bool) : Parser Expr :=
  parens do
    let e ← expr below
    let comma ← takeSymbol ","
    let started ← if comma then pure true else takeKeyword "FROM"
    let start ← if started then some <$> expr below else pure none
    let sized ← if ← takeKeyword "FOR" then pure true else takeSymbol ","
    let length ← if sized then some <$> expr below else pure none
    return .substring (if comma then .commas else .words) short e start length

def overlayExpr (below : Level) : Parser Expr :=
  parens do
    let e ← expr below
    keyword "PLACING"
    let what ← expr below
    keyword "FROM"
    let start ← expr below
    let length ← exprBehind below "FOR"
    return shownExpr
      ("OVERLAY(" ++ e.text ++ " PLACING " ++ what.text ++ " FROM " ++ start.text
        ++ optional " FOR " (length.map Expr.text) ++ ")")
      "Overlay" [("expr", e.outline), ("overlay_what", what.outline), ("overlay_from", start.outline),
        ("overlay_for", possibleExpr length)]

def trimExpr (below : Level) : Parser Expr :=
  parens do
    let side ← takeOneOf ["BOTH", "LEADING", "TRAILING"]
    let lead := "TRIM(" ++ optional "" (side.map (· ++ " "))
    let shown (text : String) (e : Expr) (side : Option String) (what : Option Expr)
        (characters : Option (List Expr)) : Expr :=
      shownExpr text "Trim" [("expr", e.outline), ("trim_where", possible (side.map capitalized)),
        ("trim_what", possibleExpr what), ("trim_characters", possible (characters.map exprsOutline))]
    let e ← expr below
    if ← takeKeyword "FROM" then
      let subject ← expr below
      return shown (lead ++ e.text ++ " FROM " ++ subject.text ++ ")") subject side e none
    if ← takeSymbol "," then
      let characters ← exprs below
      return shown ("TRIM(" ++ e.text ++ listedExprs ", " characters ++ ")") e none none characters
    if side.isSome then return shown (lead ++ e.text ++ ")") e side none none
    return .trim e

/-- Reads a full-text search behind its keyword. -/
def matchExpr : Parser Expr := do
  let columns ← columnList path
  keyword "AGAINST"
  parens do
    let pattern ← value
    let natural ← takeKeywords ["IN", "NATURAL", "LANGUAGE", "MODE"]
    let boolean ← if natural then pure false else takeKeywords ["IN", "BOOLEAN", "MODE"]
    let expansion ← if boolean then pure false else takeKeywords ["WITH", "QUERY", "EXPANSION"]
    let modifier : Option Phrase := match natural, boolean, expansion with
      | true, _, true => some ⟨"IN NATURAL LANGUAGE MODE WITH QUERY EXPANSION",
          "InNaturalLanguageModeWithQueryExpansion"⟩
      | true, _, false => some ⟨"IN NATURAL LANGUAGE MODE", "InNaturalLanguageMode"⟩
      | false, true, _ => some ⟨"IN BOOLEAN MODE", "InBooleanMode"⟩
      | false, false, true => some ⟨"WITH QUERY EXPANSION", "WithQueryExpansion"⟩
      | false, false, false => none
    return shownExpr
      ("MATCH (" ++ Text.join ", " (columns.map pathText) ++ ") AGAINST (" ++ pattern.written
        ++ Phrase.behindBlank modifier ++ ")")
      "MatchAgainst" [("columns", bracketed (columns.map pathOutline)), ("match_value", pattern.label),
        ("opt_search_modifier", possiblePhrase modifier)]

def structExpr (below : Level) : Parser Expr := do
  let (fields, closesTwo) ← structFields below
  if closesTwo then failHere "unmatched > in STRUCT literal"
  let values ← parens <| separated do
    let e ← expr below
    let start ← place
    if ← takeKeyword "AS" then
      unless fields.isEmpty do fail ("Typed syntax does not allow AS" ++ start)
      let n ← name
      return (⟨e.text ++ " AS " ++ n.text,
        record "Named" [("expr", e.outline), ("name", n.outline)]⟩ : Phrase)
    return ⟨e.text, e.outline⟩
  let lead := if fields.isEmpty then "STRUCT"
    else "STRUCT<" ++ Text.join ", " (fields.map Phrase.text) ++ ">"
  return shownExpr (lead ++ "(" ++ Text.join ", " (values.map Phrase.text) ++ ")") "Struct"
    [("values", phraseOutlines values), ("fields", phraseOutlines fields)]

def arrayExpr (below : Level) (named : Bool) : Parser Expr := do
  let elements ← separatedUntil (· == .symbol "]") (expr below)
  symbol "]"
  let text := (if named then "ARRAY" else "") ++ "[" ++ Text.join ", " (exprTexts elements) ++ "]"
  return .other ⟨text, enclosed "Array"
    (record "Array" [("elem", exprsOutline elements), ("named", truth named)])⟩

def entries (below : Level) (kind : String) (key : Parser Phrase) : Parser (List Phrase) := do
  symbol "\x7b"
  let entries ← separatedUntil (· == .symbol "\x7d") do
    let k ← key
    symbol ":"
    let v ← expr below
    return (⟨k.text ++ ": " ++ v.text, record kind [("key", k.outline), ("value", v.outline)]⟩ : Phrase)
  symbol "\x7d"
  return entries

def entriesText (entries : List Phrase) : String :=
  "\x7b" ++ Text.join ", " (entries.map Phrase.text) ++ "\x7d"

def mapExpr (below : Level) : Parser Expr := do
  let entries ← entries below "MapEntry" do
    let e ← expr below
    return ⟨e.text, e.outline⟩
  return .other ⟨"MAP " ++ entriesText entries,
    enclosed "Map" (record "Map" [("entries", phraseOutlines entries)])⟩

/-- A literal with the type that its text is read as. -/
def typedShown (text typeOutline : String) (v : Literal) (span : Span) (braced : Bool) : Expr :=
  .other ⟨text, enclosed "TypedString" (record "TypedString" [("data_type", typeOutline),
    ("value", v.located span), ("uses_odbc_syntax", truth braced)])⟩

/-- The types of dates and times in braces. -/
def bracedTypes : List (String × String) :=
  [("d", "Date"), ("t", "Time(None, None)"), ("ts", "Timestamp(None, None)")]

/-- Reads what stands in braces: a call, a date or time, or entries with names. -/
def braceExpr (below : Level) : Parser Expr := do
  let start ← get
  symbol "\x7b"
  let call ← maybe do
    keyword "FN"
    let c ← callBehind below (← path)
    return Expr.call { c with braced := true }
  let literal ← if call.isSome then pure none else maybe do
    let t ← next
    match bracedTypes.lookup t.token.describe with
    | none => expectedAt "ODBC datetime keyword (t, d, or ts)" t
    | some typeOutline =>
      let (v, span) ← valueAt
      return typedShown ("\x7b" ++ t.token.describe ++ " " ++ v.written ++ "\x7d") typeOutline v span true
  match call.or literal with
  | some e =>
    symbol "\x7d"
    return e
  | none =>
    set start
    let entries ← entries below "DictionaryField" do
      let n ← name
      return ⟨n.text, n.outline⟩
    return .other ⟨entriesText entries, enclosed "Dictionary" (phraseOutlines entries)⟩

/-! ## Words -/

/-- Reads a negated expression behind `NOT`. -/
def notExpr (below : Level) : Parser Expr := do
  if ← takeKeyword "EXISTS" then existsExpr below true
  else Expr.unary .not <$> below.subexpr 15

/-- Reads the form that a keyword begins, behind the keyword; nothing if it begins none. -/
def reservedForm (below : Level) (t : Located) (w : Word) : Parser (Option Expr) := do
  let n := Name.ofWord w t.span
  match w.keyword with
  | "TRUE" => return some (.literal (.boolean true) t.span)
  | "FALSE" => return some (.literal (.boolean false) t.span)
  | "NULL" => return some (.literal .null t.span)
  | "CURRENT_CATALOG" | "CURRENT_USER" | "SESSION_USER" | "USER" =>
    return some (.call (plainCall [n] .none))
  | "CURRENT_TIMESTAMP" | "CURRENT_TIME" | "CURRENT_DATE" | "LOCALTIME" | "LOCALTIMESTAMP" =>
    let arguments ← if ← takeSymbol "(" then argumentList below else pure .none
    return some (.call (plainCall [n] arguments))
  | "CASE" => some <$> caseExpr below t
  | "CONVERT" => some <$> convertExpr below false
  | "TRY_CONVERT" => some <$> convertExpr below true
  | "CAST" | "TRY_CAST" | "SAFE_CAST" => some <$> castExpr below w.keyword
  | "EXISTS" => some <$> existsExpr below false
  | "EXTRACT" => some <$> extractExpr below
  | "CEIL" | "FLOOR" => some <$> roundExpr below w.keyword
  | "POSITION" => if ← peekSymbol "(" then some <$> positionExpr below n else return none
  | "SUBSTR" => some <$> substringExpr below true
  | "SUBSTRING" => some <$> substringExpr below false
  | "OVERLAY" => some <$> overlayExpr below
  | "TRIM" => some <$> trimExpr below
  | "INTERVAL" => some <$> interval below
  | "ARRAY" =>
    if ← takeSymbol "[" then some <$> arrayExpr below true
    else if ← peekSymbol "(" then
      let q ← parens below.query
      return some (.call (plainCall [n] (.subquery q)))
    else return none
  | "NOT" => some <$> notExpr below
  | "MATCH" => some <$> matchExpr
  | "STRUCT" => some <$> structExpr below
  | "MAP" => if ← peekSymbol "\x7b" then some <$> mapExpr below else return none
  | "PRIOR" =>
    if (← get).setting = .connectBy then
      let e ← below.subexpr 30
      return some (.other ⟨"PRIOR " ++ e.text, enclosed "Prior" e.outline⟩)
    else return none
  | _ => return none

/-- Reads what a plain word begins, behind the word: a call, a text with a character set, or the
word as a name. -/
def plainWord (below : Level) (n : Name) : Parser Expr := do
  match (← peek).token with
  | .symbol "(" => Expr.call <$> callBehind below [n]
  | .text .plain _ | .text .hex _ =>
    if n.value.toList.head? = some '_' then
      let e ← valueExpr
      return shownExpr (n.text ++ " " ++ e.text) "Prefixed" [("prefix", n.outline), ("value", e.outline)]
    return .identifier n
  | _ => return .identifier n

/-- Words that are no names where an expression is read. -/
def reservedWords : List String :=
  ["EXISTS", "INTERVAL", "STRUCT", "TRIM"]

/-- Reads what a word begins, behind the word. Gives too whether the word is a name only because its
form cannot be read. -/
def wordExpr (below : Level) (t : Located) (w : Word) : Parser (Expr × Bool) := fun c =>
  match reservedForm below t w c with
  | .ok (some e, c) => .ok ((e, false), c)
  | .ok (none, c) => ((·, false) <$> plainWord below (.ofWord w t.span) : Parser (Expr × Bool)) c
  | .error fault =>
    if reservedWords.contains w.keyword then .error fault
    else
      match maybe (plainWord below (.ofWord w t.span)) c with
      | .ok (some e, c) => .ok ((e, true), c)
      | _ => .error fault

/-! ## Operands -/

def typedLiteral (below : Level) : Parser Expr := do
  let type ← dataTypeBody below
  if type.closesTwo then fail "unmatched bracket"
  match type.kind with
  | .interval => interval below
  | .custom => fail "no type"
  | .known =>
    let (v, span) ← valueAt
    return typedShown (type.text ++ " " ++ v.written) type.outline v span false

/-- Whether a query comes next. -/
def peekQuery : Parser Bool := do
  let k ← peekKeyword
  return k == "SELECT" || k == "WITH"

/-- Reads what stands behind an opening parenthesis. -/
def parenExpr (below : Level) : Parser Expr := do
  if ← peekQuery then
    let q ← below.query
    symbol ")"
    return .subquery q
  let es ← exprs below
  symbol ")"
  match es with
  | [e] => return .nested e
  | es => return .other ⟨tupleText es, enclosed "Tuple" (exprsOutline es)⟩

/-- Reads an expression that does not begin with a type, up to its first infix operator. Gives too
whether no collation may follow. -/
def untypedOperand (below : Level) : Parser (Expr × Bool) := do
  let start ← get
  let t ← next
  let plain (p : Parser Expr) : Parser (Expr × Bool) := (·, false) <$> p
  match t.token with
  | .word w => wordExpr below t w
  | .number _ _ | .text _ _ | .dollar _ _ | .placeholder _ | .symbol ":" | .symbol "@" => do
    set start
    plain valueExpr
  | .symbol "[" => plain (arrayExpr below false)
  | .symbol "-" => plain (Expr.unary .minus <$> below.subexpr 40)
  | .symbol "+" => plain (Expr.unary .plus <$> below.subexpr 40)
  | .symbol "~" => plain (Expr.unary .complement <$> below.subexpr 30)
  | .symbol "(" => plain (parenExpr below)
  | .symbol "\x7b" => do
    set start
    plain (braceExpr below)
  | _ => expectedAt "an expression" t

/-- Reads an expression up to its first infix operator, with its collation if one is stated. -/
def operand (below : Level) : Parser Expr := do
  match ← maybe (typedLiteral below) with
  | some e => return e
  | none =>
    let (e, final) ← untypedOperand below
    if final || (← get).setting = .column then return e
    match ← behind "COLLATE" path with
    | some collation =>
      return shownExpr (e.text ++ " COLLATE " ++ pathText collation) "Collate"
        [("expr", e.outline), ("collation", pathOutline collation)]
    | none => return e

/-! ## Fields and elements -/

/-- A step from a value to a part of it. -/
inductive Step where
  | field (e : Expr)
  | element (shown : Phrase)

def Step.phrase : Step → Phrase
  | .field e => ⟨"." ++ e.text, enclosed "Dot" e.outline⟩
  | .element shown => shown

/-- An element between two bounds, as it is shown. -/
def sliceStep (colon : String) (lower upper stride : Option Expr) : Step :=
  let text := optional "" (lower.map Expr.text) ++ ":" ++ optional "" (upper.map Expr.text)
    ++ optional colon (stride.map Expr.text)
  .element ⟨"[" ++ text ++ "]", enclosed "Subscript" (record "Slice"
    [("lower_bound", possibleExpr lower), ("upper_bound", possibleExpr upper),
      ("stride", possibleExpr stride)])⟩

/-- Reads the rest of an index or a range behind its opening bracket. -/
def elementStep (below : Level) : Parser Step := do
  let lower ← if ← takeSymbol ":" then pure none else some <$> expr below
  if ← takeSymbol "]" then
    match lower with
    | some e => return .element ⟨"[" ++ e.text ++ "]",
        enclosed "Subscript" (record "Index" [("index", e.outline)])⟩
    | none => return sliceStep ":" none none none
  if lower.isSome then symbol ":"
  if ← takeSymbol "]" then return sliceStep ":" lower none none
  let upper ← expr below
  if ← takeSymbol "]" then return sliceStep ":" lower upper none
  symbol ":"
  if ← takeSymbol "]" then return sliceStep ":" lower upper none
  let stride ← expr below
  symbol "]"
  return sliceStep ":" lower upper stride

def fieldStep (below : Level) : Parser (List Step) := do
  let t ← peek
  match t.token with
  | .text .plain s => do
    skip
    return [.field (.identifier ⟨s, some '\'', t.span⟩)]
  | _ => do
    match ← below.subexpr 100 with
    | .compound path => return path.map fun n => .field (.identifier n)
    | .access root steps => return .field root :: steps.map .element
    | e => return [.field e]

/-- The names of steps that are all plain fields. -/
def plainFields? : List Step → Option Path
  | [] => some []
  | .field (.identifier n) :: rest => (plainFields? rest).map (n :: ·)
  | _ => none

/-- A value with steps taken from it: a dotted name, a call of a function with a dotted name, or
any other access. -/
def taken (root : Expr) (steps : List Step) : Expr :=
  let other := Expr.access root (steps.map Step.phrase)
  match root with
  | .identifier n =>
    match plainFields? steps with
    | some fields => if fields.isEmpty then root else .compound (n :: fields)
    | none =>
      match steps.getLast?, plainFields? steps.dropLast with
      | some (.field (.call c)), some fields => .call { c with name := n :: fields ++ c.name }
      | _, _ => other
  | _ => if steps.isEmpty then root else other

/-- Reads the fields and elements that are taken from a value. -/
def takenFrom (below : Level) (root : Expr) : Parser Expr :=
  repeatUntil [] fun steps => do
    if ← peekSymbol "." then
      if (← peekAt 1).token = .symbol "*" then return .inr (taken root steps)
      skip
      return .inl (steps ++ (← fieldStep below))
    if ← takeSymbol "[" then return .inl (steps ++ [← elementStep below])
    return .inr (taken root steps)

end Parser
end Sql
end PolyglotSql
