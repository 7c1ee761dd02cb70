import PolyglotSql.Sql.Parser.Basic

/-!
# PolyglotSql.Sql.Parser.DataType

Types as columns and casts name them. A known type has a spelling of its own and says what may
follow its name; any other name is a custom type with modifiers.
-/

namespace PolyglotSql
namespace Sql

def DataType.text (t : DataType) : String :=
  t.shown.text

def DataType.outline (t : DataType) : String :=
  t.shown.outline

namespace Parser

/-- A known type of a given spelling and outline. -/
def knownType (text outline : String) : DataType :=
  { shown := ⟨text, outline⟩, kind := .known, closesTwo := false }

/-! ## What follows the name of a type -/

def optionalSize : Parser (Option Nat) := do
  if ← takeSymbol "(" then
    let n ← literalNumber
    symbol ")"
    return some n
  return none

/-- A number in parentheses behind the name of a type, as it is written. -/
def sizeText (size : Option Nat) : String :=
  optional "(" (size.map (toString · ++ ")"))

/-- A number that may be missing. -/
def sizeOutline (size : Option Nat) : String :=
  possible (size.map toString)

/-- A type with a length behind its name. -/
def sizedType (spelling label : String) (size : Option Nat) : DataType :=
  knownType (spelling ++ sizeText size) (enclosed label (sizeOutline size))

def optionalPrecision : Parser Phrase := do
  if ← takeSymbol "(" then
    let precision ← literalNumber
    let scale ← if ← takeSymbol "," then some <$> signedNumber else pure none
    symbol ")"
    match scale with
    | some scale =>
      let digits := toString precision ++ "," ++ toString scale
      return ⟨"(" ++ digits ++ ")",
        enclosed "PrecisionAndScale" (toString precision ++ ", " ++ toString scale)⟩
    | none => return ⟨"(" ++ toString precision ++ ")", enclosed "Precision" (toString precision)⟩
  return ⟨"", "None"⟩

def optionalCharacters : Parser Phrase := do
  if ← takeSymbol "(" then
    let length : Phrase ← if ← takeKeyword "MAX" then pure ⟨"MAX", "Max"⟩ else do
      let n ← literalNumber
      let (unit, label) ← match ← takeOneOf ["CHARACTERS", "OCTETS"] with
        | some "OCTETS" => pure (" OCTETS", "Some(Octets)")
        | some _ => pure (" CHARACTERS", "Some(Characters)")
        | none => pure ("", "None")
      pure ⟨toString n ++ unit, record "IntegerLength" [("length", toString n), ("unit", label)]⟩
    symbol ")"
    return ⟨"(" ++ length.text ++ ")", enclosed "Some" length.outline⟩
  return ⟨"", "None"⟩

def optionalBytes : Parser Phrase := do
  if ← takeSymbol "(" then
    let length : Phrase ← if ← takeKeyword "MAX" then pure ⟨"MAX", "Max"⟩ else do
      let n ← literalNumber
      pure ⟨toString n, record "IntegerLength" [("length", toString n)]⟩
    symbol ")"
    return ⟨"(" ++ length.text ++ ")", enclosed "Some" length.outline⟩
  return ⟨"", "None"⟩

def optionalTimeZone : Parser Phrase := do
  match ← takeOneOf ["WITH", "WITHOUT"] with
  | some k =>
    keywords ["TIME", "ZONE"]
    return ⟨" " ++ k ++ " TIME ZONE", if k == "WITH" then "WithTimeZone" else "WithoutTimeZone"⟩
  | none => return ⟨"", "None"⟩

/-- A word with only its first letter in upper case. -/
def capitalized (word : String) : String :=
  match word.toList with
  | [] => ""
  | c :: cs => String.ofList (c.toUpper :: cs.map Char.toLower)

def optionalFields : Parser Phrase := do
  let single (k : String) : Phrase := ⟨" " ++ k, enclosed "Some" (capitalized k)⟩
  let upTo (k last : String) : Phrase :=
    ⟨" " ++ k ++ " TO " ++ last, enclosed "Some" (capitalized k ++ "To" ++ capitalized last)⟩
  match ← takeOneOf ["YEAR", "DAY", "HOUR", "MINUTE", "MONTH", "SECOND"] with
  | some k =>
    let ends := match k with
      | "YEAR" => ["MONTH"]
      | "DAY" => ["HOUR", "MINUTE", "SECOND"]
      | "HOUR" => ["MINUTE", "SECOND"]
      | "MINUTE" => ["SECOND"]
      | _ => []
    if ends.isEmpty then return single k
    unless ← takeKeyword "TO" do return single k
    match ends with
    | [last] =>
      keyword last
      return upTo k last
    | ends => return upTo k (← oneOf ends)
  | none => return ⟨"", "None"⟩

def textList : Parser (List String) := do
  symbol "("
  repeatUntil [] fun found => do
    let t ← next
    match t.token with
    | .text .plain s => do
      let found := s :: found
      let t ← next
      match t.token with
      | .symbol "," => return .inl found
      | .symbol ")" => return .inr found.reverse
      | _ => expectedAt ", or \x7d" t
    | _ => expectedAt "a string" t

def signedValue : Parser Expr := do
  let sign : Option UnaryOperator ← if ← takeSymbol "-" then pure (some .minus)
    else if ← takeSymbol "+" then pure (some .plus)
    else pure none
  let (v, span) ← numberAt
  match sign with
  | some op => return .unary op (.literal v span)
  | none => return .literal v span

/-- Reads the members of an enumeration, each with an optional number. -/
def memberList : Parser Phrase := do
  let items ← parens <| separated do
    let s ← literalText
    if ← takeSymbol "=" then
      let n ← signedValue
      return (⟨withQuotes '\'' s ++ " = " ++ n.text,
        enclosed "NamedValue" (Text.quoted s ++ ", " ++ n.outline)⟩ : Phrase)
    return ⟨withQuotes '\'' s, enclosed "Name" (Text.quoted s)⟩
  return ⟨"(" ++ Text.join ", " (items.map Phrase.text) ++ ")", phraseOutlines items⟩

def modifiers : Parser (List String) :=
  repeatUntil [] fun found => do
    let t ← next
    match t.token with
    | .word _ => return .inl (t.token.describe :: found)
    | .number digits _ => return .inl (digits :: found)
    | .text .plain s => return .inl (s :: found)
    | .symbol "," => return .inl found
    | .symbol ")" => return .inr found.reverse
    | _ => expectedAt "type modifiers" t

/-- Reads the symbol that closes a type in angle brackets. Gives whether it closes the type around
it as well. -/
def closeBracket (closed : Bool) : Parser Bool := do
  if closed then return false
  if ← takeSymbol ">" then return false
  if ← takeSymbol ">>" then return true
  expected ">"

/-! ## Known types -/

/-- What may follow the name of a known type. -/
inductive TypeForm where
  /-- Nothing. -/
  | plain
  /-- A length. -/
  | sized
  /-- A length, and whether there is a sign. -/
  | integer
  /-- A precision. -/
  | exact
  /-- A precision and `UNSIGNED`. -/
  | exactUnsigned
  /-- A length in characters. -/
  | characters
  /-- A length and a time zone. -/
  | zoned
  /-- A length, where the name tells of a time zone. -/
  | withZone

/-- A known type: its keyword, how it is spelled, the name of its kind, and what may follow. -/
structure KnownType where
  keyword : String
  spelling : String
  label : String
  form : TypeForm

/-- The known types that a single keyword names. -/
def knownTypes : List KnownType :=
  let alike (form : TypeForm) := List.map fun ((k, label) : String × String) =>
    KnownType.mk k k label form
  alike .plain
    [("BOOLEAN", "Boolean"), ("BOOL", "Bool"), ("FLOAT4", "Float4"), ("FLOAT8", "Float8"),
     ("FLOAT64", "Float64"), ("INT64", "Int64"), ("HUGEINT", "HugeInt"), ("UBIGINT", "UBigInt"),
     ("UHUGEINT", "UHugeInt"), ("USMALLINT", "USmallInt"), ("UTINYINT", "UTinyInt"),
     ("TINYBLOB", "TinyBlob"), ("MEDIUMBLOB", "MediumBlob"), ("LONGBLOB", "LongBlob"),
     ("UUID", "Uuid"), ("DATE", "Date"), ("JSON", "JSON"), ("JSONB", "JSONB"),
     ("REGCLASS", "Regclass"), ("TEXT", "Text"), ("TINYTEXT", "TinyText"),
     ("MEDIUMTEXT", "MediumText"), ("LONGTEXT", "LongText"), ("BYTEA", "Bytea"),
     ("TRIGGER", "Trigger"), ("TSVECTOR", "TsVector"), ("TSQUERY", "TsQuery")]
  ++ ([("FLOAT32", "Float32"), ("INT16", "Int16"), ("INT32", "Int32"), ("INT128", "Int128"),
     ("INT256", "Int256"), ("UINT8", "UInt8"), ("UINT16", "UInt16"), ("UINT32", "UInt32"),
     ("UINT64", "UInt64"), ("UINT128", "UInt128"), ("UINT256", "UInt256"),
     ("DATE32", "Date32")].map fun (k, label) => ⟨k, label, label, .plain⟩)
  ++ alike .sized
    [("CLOB", "Clob"), ("BINARY", "Binary"), ("BLOB", "Blob"), ("BYTES", "Bytes"),
     ("VARBIT", "VarBit"), ("DATETIME", "Datetime"), ("TIMESTAMP_NTZ", "TimestampNtz"),
     ("STRING", "String")]
  ++ alike .integer
    [("TINYINT", "TinyInt"), ("INT2", "Int2"), ("SMALLINT", "SmallInt"), ("MEDIUMINT", "MediumInt"),
     ("INT", "Int"), ("INT4", "Int4"), ("INT8", "Int8"), ("INTEGER", "Integer"), ("BIGINT", "BigInt")]
  ++ alike .exact
    [("NUMERIC", "Numeric"), ("BIGNUMERIC", "BigNumeric"), ("BIGDECIMAL", "BigDecimal")]
  ++ alike .exactUnsigned [("FLOAT", "Float"), ("DECIMAL", "Decimal"), ("DEC", "Dec")]
  ++ alike .characters [("VARCHAR", "Varchar"), ("NVARCHAR", "Nvarchar")]
  ++ alike .zoned [("TIMESTAMP", "Timestamp"), ("TIME", "Time")]
  ++ [⟨"TIMESTAMPTZ", "TIMESTAMPTZ", "Timestamp", .withZone⟩, ⟨"TIMETZ", "TIMETZ", "Time", .withZone⟩]

def knownRest (k : KnownType) : Parser DataType := do
  match k.form with
  | .plain => return knownType k.spelling k.label
  | .sized => return sizedType k.spelling k.label (← optionalSize)
  | .integer =>
    let size ← optionalSize
    if ← takeKeyword "UNSIGNED" then
      return knownType (k.spelling ++ sizeText size ++ " UNSIGNED")
        (enclosed (k.label ++ "Unsigned") (sizeOutline size))
    let _ ← takeKeyword "SIGNED"
    return sizedType k.spelling k.label size
  | .exact =>
    let precision ← optionalPrecision
    return knownType (k.spelling ++ precision.text) (enclosed k.label precision.outline)
  | .exactUnsigned =>
    let precision ← optionalPrecision
    let text := k.spelling ++ precision.text
    if ← takeKeyword "UNSIGNED" then
      return knownType (text ++ " UNSIGNED") (enclosed (k.label ++ "Unsigned") precision.outline)
    return knownType text (enclosed k.label precision.outline)
  | .characters =>
    let length ← optionalCharacters
    return knownType (k.spelling ++ length.text) (enclosed k.label length.outline)
  | .zoned =>
    let size ← optionalSize
    let zone ← optionalTimeZone
    return knownType (k.spelling ++ sizeText size ++ zone.text)
      (enclosed k.label (sizeOutline size ++ ", " ++ zone.outline))
  | .withZone =>
    let size ← optionalSize
    return knownType (k.spelling ++ sizeText size) (enclosed k.label (sizeOutline size ++ ", Tz"))

/-! ## Options with values -/

def directedColumns : Parser String := do
  let columns ← parens <| separated do
    let n ← name
    return n.text ++ (← optionalOneOf ["ASC", "DESC"])
  return "(" ++ Text.join ", " columns ++ ")"

/-- Reads an option that says how the rows of a table are kept together, as it is written. -/
def clusteredOption : Parser String := do
  if ← takeKeywords ["CLUSTERED", "COLUMNSTORE", "INDEX"] then
    unless ← takeKeyword "ORDER" do return "CLUSTERED COLUMNSTORE INDEX"
    return "CLUSTERED COLUMNSTORE INDEX ORDER " ++ (← parenNames)
  if ← takeKeywords ["CLUSTERED", "INDEX"] then return "CLUSTERED INDEX " ++ (← directedColumns)
  fail "invalid CLUSTERED sequence"

/-- Reads an option that says how the rows of a table are divided, as it is written. -/
def partitionOption (below : Level) : Parser String := do
  keyword "PARTITION"
  let body ← parens do
    let n ← name
    keyword "RANGE"
    let side ← optionalOneOf ["LEFT", "RIGHT"]
    keywords ["FOR", "VALUES"]
    let bounds ← parens (separated (below.subexpr 0))
    return n.text ++ " RANGE" ++ side ++ " FOR VALUES (" ++ Text.join ", " (exprTexts bounds) ++ ")"
  return "PARTITION (" ++ body ++ ")"

def optionPhrase (below : Level) : Parser Phrase := do
  match ← peekKeyword with
  | "HEAP" =>
    let n ← name
    return ⟨n.text, enclosed "Ident" n.outline⟩
  | "PARTITION" =>
    let shown ← partitionOption below
    return ⟨shown, shown⟩
  | "CLUSTERED" =>
    let shown ← clusteredOption
    return ⟨shown, enclosed "Clustered" shown⟩
  | _ =>
    let n ← name
    symbol "="
    let e ← below.subexpr 0
    return ⟨n.text ++ " = " ++ e.text,
      record "KeyValue" [("key", n.outline), ("value", e.outline)]⟩

/-- Reads options with values in parentheses; there may be none. -/
def optionPhrases (below : Level) : Parser (List Phrase) :=
  parens (separatedUntil (· == .symbol ")") (optionPhrase below))

/-- Reads options with values in parentheses behind a keyword, as they are written. -/
def optionList (below : Level) : Parser String := do
  return Text.join ", " ((← optionPhrases below).map Phrase.text)

/-! ## Structured types -/

/-- Reads a field of a structured type: a type with an optional name before it. -/
def structField (below : Level) : Parser DataType := do
  let named ← match (← peek).token, (← peekAt 1).token with
    | .word _, .word _ => some <$> name
    | _, _ => pure none
  let type ← below.dataType
  let options ← behind "OPTIONS" (optionPhrases below)
  let text := optional "" (named.map (·.text ++ " ")) ++ type.text
    ++ optional " OPTIONS(" (options.map fun os => Text.join ", " (os.map Phrase.text) ++ ")")
  let outline := record "StructField" [("field_name", possible (named.map Name.outline)),
    ("field_type", type.outline), ("options", possible (options.map phraseOutlines))]
  return { type with shown := ⟨text, outline⟩ }

def structFields (below : Level) : Parser (List Phrase × Bool) := do
  unless ← takeSymbol "<" do return ([], false)
  let (fields, closed) ← repeatUntil ([] : List Phrase) fun found => do
    let field ← structField below
    let found := field.shown :: found
    if field.closesTwo then return .inr (found.reverse, true)
    if ← takeSymbol "," then return .inl found
    return .inr (found.reverse, false)
  return (fields, ← closeBracket closed)

def structType (below : Level) : Parser DataType := do
  let (fields, closesTwo) ← structFields below
  let text := if fields.isEmpty then "STRUCT"
    else "STRUCT<" ++ Text.join ", " (fields.map Phrase.text) ++ ">"
  return { knownType text (enclosed "Struct" (phraseOutlines fields ++ ", AngleBrackets")) with closesTwo }

/-- Reads a type in parentheses that stands in another one. -/
def innerType (below : Level) (spelling : String) : Parser DataType := do
  let type ← parens below.dataType
  return knownType (spelling ++ "(" ++ type.text ++ ")") (enclosed spelling type.outline)

def columnsShown (below : Level) : Parser String := do
  let columns ← parens (separated below.column)
  return "(" ++ Text.join ", " columns ++ ")"

def characterType (k : String) : Parser DataType := do
  let label := if k == "CHAR" then "Char" else "Character"
  if ← takeKeyword "VARYING" then
    let length ← optionalCharacters
    return knownType (k ++ " VARYING" ++ length.text) (enclosed (label ++ "Varying") length.outline)
  if ← takeKeywords ["LARGE", "OBJECT"] then
    return sizedType (k ++ " LARGE OBJECT") (label ++ "LargeObject") (← optionalSize)
  let length ← optionalCharacters
  return knownType (k ++ length.text) (enclosed label length.outline)

/-- Reads a type that is not one of the table, behind its first keyword; nothing if the keyword
begins no known type. -/
def specialType (below : Level) : String → Parser (Option DataType)
  | "DOUBLE" => do
    if ← takeKeyword "PRECISION" then
      if ← takeKeyword "UNSIGNED" then
        return some (knownType "DOUBLE PRECISION UNSIGNED" "DoublePrecisionUnsigned")
      return some (knownType "DOUBLE PRECISION" "DoublePrecision")
    some <$> knownRest ⟨"DOUBLE", "DOUBLE", "Double", .exactUnsigned⟩
  | "REAL" => do
    if ← takeKeyword "UNSIGNED" then return some (knownType "REAL UNSIGNED" "RealUnsigned")
    return some (knownType "REAL" "Real")
  | "CHARACTER" => some <$> characterType "CHARACTER"
  | "CHAR" => some <$> characterType "CHAR"
  | "BIT" => do
    if ← takeKeyword "VARYING" then
      return some (sizedType "BIT VARYING" "BitVarying" (← optionalSize))
    return some (sizedType "BIT" "Bit" (← optionalSize))
  | "VARBINARY" => do
    let length ← optionalBytes
    return some (knownType ("VARBINARY" ++ length.text) (enclosed "Varbinary" length.outline))
  | "DATETIME64" => do
    let (precision, zone) ← parens do
      let precision ← literalNumber
      let zone ← if ← takeSymbol "," then some <$> literalText else pure none
      return (precision, zone)
    return some (knownType
      ("DateTime64(" ++ toString precision ++ optional ", '" (zone.map (· ++ "'")) ++ ")")
      (enclosed "Datetime64" (toString precision ++ ", " ++ possible (zone.map Text.quoted))))
  | "INTERVAL" => do
    let fields ← optionalFields
    let size ← optionalSize
    return some {
      shown := ⟨"INTERVAL" ++ fields.text ++ sizeText size,
        record "Interval" [("fields", fields.outline), ("precision", sizeOutline size)]⟩
      kind := .interval, closesTwo := false }
  | "FIXEDSTRING" => do
    let n ← parens literalNumber
    return some (knownType ("FixedString(" ++ toString n ++ ")") (enclosed "FixedString" (toString n)))
  | "ENUM" => enumeration "" "None"
  | "ENUM8" => enumeration "8" "Some(8)"
  | "ENUM16" => enumeration "16" "Some(16)"
  | "SET" => do
    let texts ← textList
    return some (knownType ("SET(" ++ Text.join ", " (texts.map (withQuotes '\'' ·)) ++ ")")
      (enclosed "Set" (bracketed (texts.map Text.quoted))))
  | "ARRAY" => do
    symbol "<"
    let inner ← below.dataType
    let closesTwo ← closeBracket inner.closesTwo
    return some { knownType ("ARRAY<" ++ inner.text ++ ">")
      (enclosed "Array" (enclosed "AngleBracket" inner.outline)) with closesTwo }
  | "STRUCT" => some <$> structType below
  | "UNION" => do
    let fields ← parens <| separated do
      let n ← name
      let type ← below.dataType
      return (⟨n.text ++ " " ++ type.text,
        record "UnionField" [("field_name", n.outline), ("field_type", type.outline)]⟩ : Phrase)
    return some (knownType ("UNION(" ++ Text.join ", " (fields.map Phrase.text) ++ ")")
      (enclosed "Union" (phraseOutlines fields)))
  | "NULLABLE" => some <$> innerType below "Nullable"
  | "LOWCARDINALITY" => some <$> innerType below "LowCardinality"
  | "MAP" => do
    let (key, value) ← parens do
      let key ← below.dataType
      symbol ","
      let value ← below.dataType
      return (key, value)
    return some (knownType ("Map(" ++ key.text ++ ", " ++ value.text ++ ")")
      (enclosed "Map" (key.outline ++ ", " ++ value.outline)))
  | "TUPLE" => do
    let fields ← parens (separated (structField below))
    return some (knownType ("Tuple(" ++ Text.join ", " (fields.map DataType.text) ++ ")")
      (enclosed "Tuple" (bracketed (fields.map DataType.outline))))
  | "NESTED" => do
    let columns ← columnsShown below
    return some (knownType ("Nested" ++ columns) ("Nested" ++ columns))
  | "ANY" => do
    if ← takeKeyword "TYPE" then return some (knownType "ANY TYPE" "AnyType") else return none
  | "TABLE" => do
    if ← peekSymbol "(" then
      let columns ← columnsShown below
      return some (knownType ("TABLE" ++ columns) ("Table" ++ columns))
    return some (knownType "TABLE" "Table(None)")
  | "SIGNED" => do
    if ← takeKeyword "INTEGER" then return some (knownType "SIGNED INTEGER" "SignedInteger")
    return some (knownType "SIGNED" "Signed")
  | "UNSIGNED" => do
    if ← takeKeyword "INTEGER" then return some (knownType "UNSIGNED INTEGER" "UnsignedInteger")
    return some (knownType "UNSIGNED" "Unsigned")
  | _ => return none
where
  /-- An enumeration of members of so many bits. -/
  enumeration (bits label : String) : Parser (Option DataType) := do
    let members ← memberList
    return some (knownType ("ENUM" ++ bits ++ members.text)
      (enclosed "Enum" (members.outline ++ ", " ++ label)))

/-! ## Types -/

/-- Reads a type whose name is not known, with its modifiers. -/
def customType : Parser DataType := do
  let typeName ← path
  let modifiers ← if ← takeSymbol "(" then modifiers else pure []
  let text := pathText typeName
    ++ (if modifiers.isEmpty then "" else "(" ++ Text.join ", " modifiers ++ ")")
  let outline := enclosed "Custom"
    (pathOutline typeName ++ ", " ++ bracketed (modifiers.map Text.quoted))
  return { shown := ⟨text, outline⟩, kind := .custom, closesTwo := false }

/-- Reads a type up to the brackets that make it an array. -/
def elementType (below : Level) : Parser DataType := do
  let t ← peek
  match t.token with
  | .word w =>
    match knownTypes.find? (·.keyword == w.keyword) with
    | some known =>
      skip
      knownRest known
    | none =>
      let start ← get
      skip
      match ← specialType below w.keyword with
      | some type => return type
      | none =>
        set start
        customType
  | _ => do
    skip
    expectedAt "a data type name" t

def dataTypeBody (below : Level) : Parser DataType := do
  let element ← elementType below
  repeatUntil element fun type => do
    if ← takeSymbol "[" then
      let size ← maybe literalNumber
      symbol "]"
      return .inl { type with
        shown := ⟨type.text ++ "[" ++ optional "" (size.map toString) ++ "]",
          enclosed "Array" (enclosed "SquareBracket" (type.outline ++ ", " ++ sizeOutline size))⟩
        kind := .known }
    return .inr type

/-- Reads a type that stands on its own. -/
def wholeType (below : Level) : Parser Phrase := do
  let type ← dataTypeBody below
  if type.closesTwo then
    fail ("unmatched > after parsing data type " ++ type.text ++ (← peek).token.describe)
  return type.shown

/-- Reads a type that stands on its own, as it is written. -/
def dataType (below : Level) : Parser String :=
  Phrase.text <$> wholeType below

end Parser
end Sql
end PolyglotSql
