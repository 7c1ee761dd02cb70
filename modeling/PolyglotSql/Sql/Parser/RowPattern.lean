import PolyglotSql.Sql.Parser.Operator

/-!
# PolyglotSql.Sql.Parser.RowPattern

Patterns of rows, as `MATCH_RECOGNIZE` looks for them: symbols that stand for rows, one behind the
other, in groups, as alternatives, and repeated.
-/

namespace PolyglotSql
namespace Sql
namespace Parser

/-- Reads a number of repetitions that fits 32 bits, out of its digits. -/
def repetitions (digits : String) (place : String) : Parser String := do
  match Text.readDigits? digits.toList with
  | some n =>
    if n < Nat.pow 2 32 then return toString n
    else fail ("Could not parse '" ++ digits ++ "' as u32: number too large to fit in target type" ++ place)
  | none => fail ("Could not parse '" ++ digits ++ "' as u32: invalid digit found in string" ++ place)

/-- How often a part of a pattern is repeated. -/
def quantifier (bounds kind shown : String) : Phrase :=
  ⟨"\x7b" ++ bounds ++ "\x7d", enclosed kind shown⟩

/-- Reads how often a part of a pattern is repeated, behind the opening brace. -/
def boundedQuantifier : Parser Phrase := do
  let first ← next
  match first.token with
  | .symbol "," => do
    let last ← next
    match last.token with
    | .number m _ =>
      symbol "\x7d"
      let m ← repetitions m first.place
      return quantifier ("," ++ m) "AtMost" m
    | _ => expectedAt "literal number" last
  | .number n _ => do
    unless ← takeSymbol "," do
      symbol "\x7d"
      let n ← repetitions n first.place
      return quantifier n "Exactly" n
    let last ← next
    match last.token with
    | .number m _ =>
      symbol "\x7d"
      let n ← repetitions n first.place
      let m ← repetitions m first.place
      return quantifier (n ++ "," ++ m) "Range" (n ++ ", " ++ m)
    | .symbol "\x7d" =>
      let n ← repetitions n first.place
      return quantifier (n ++ ",") "AtLeast" n
    | _ => expectedAt "\x7d or upper bound" last
  | _ => expectedAt "quantifier range" first

/-- Reads how often a part of a pattern is repeated, if it is stated. -/
def optionalQuantifier : Parser (Option Phrase) := do
  match (← peek).token with
  | .symbol "*" =>
    skip
    return some ⟨"*", "ZeroOrMore"⟩
  | .symbol "+" =>
    skip
    return some ⟨"+", "OneOrMore"⟩
  | .placeholder "?" =>
    skip
    return some ⟨"?", "AtMostOne"⟩
  | .symbol "\x7b" =>
    skip
    some <$> boundedQuantifier
  | _ => return none

def rowSymbol : Parser Phrase := do
  let n ← name
  return ⟨n.text, enclosed "Named" n.outline⟩

/-- Reads a part of a pattern that is not repeated; `group` reads the pattern of a group. -/
def patternAtom (group : Parser Phrase) : Parser Phrase := do
  let start ← get
  match (← next).token with
  | .symbol "^" => return ⟨"^", enclosed "Symbol" "Start"⟩
  | .placeholder "$" => return ⟨"$", enclosed "Symbol" "End"⟩
  | .symbol "\x7b" =>
    symbol "-"
    let s ← rowSymbol
    symbol "-"
    symbol "\x7d"
    return ⟨"\x7b- " ++ s.text ++ " -\x7d", enclosed "Exclude" s.outline⟩
  | .symbol "(" =>
    let p ← group
    symbol ")"
    return ⟨"( " ++ p.text ++ " )", enclosed "Group" p.outline⟩
  | .word ⟨"PERMUTE", none, _⟩ =>
    let symbols ← parens (separated rowSymbol)
    return ⟨"PERMUTE(" ++ Text.join ", " (symbols.map Phrase.text) ++ ")",
      enclosed "Permute" (phraseOutlines symbols)⟩
  | _ =>
    set start
    let s ← rowSymbol
    return ⟨s.text, enclosed "Symbol" s.outline⟩

def repeatedPattern (group : Parser Phrase) : Parser Phrase := do
  let atom ← patternAtom group
  repeatUntil atom fun p => do
    match ← optionalQuantifier with
    | some q => return .inl ⟨p.text ++ q.text, enclosed "Repetition" (p.outline ++ ", " ++ q.outline)⟩
    | none => return .inr p

/-- Several parts of a pattern as one; a single part is itself. -/
def patternOf (separator kind : String) : List Phrase → Phrase
  | [p] => p
  | ps => ⟨Text.join separator (ps.map Phrase.text), enclosed kind (phraseOutlines ps)⟩

def patternSequence (group : Parser Phrase) : Parser Phrase := do
  let first ← repeatedPattern group
  let parts ← repeatUntil [first] fun found => do
    if (← peekSymbol ")") || (← peekSymbol "|") then return .inr found.reverse
    return .inl ((← repeatedPattern group) :: found)
  return patternOf " " "Concat" parts

/-- Reads a pattern, with groups nested at most so deeply. -/
def rowPattern : (depth : Nat) → Parser Phrase
  | 0 => throw .recursionLimit
  | depth + 1 => do
    let alternatives ← repeatUntil [] fun found => do
      let found := (← patternSequence (rowPattern depth)) :: found
      if ← takeSymbol "|" then return .inl found else return .inr found.reverse
    return patternOf " | " "Alternation" alternatives

/-! ## Tables of matches -/

/-- Reads how many rows a match gives, if it is stated. -/
def optionalMatchRows : Parser (Option Phrase) := do
  if ← takeKeywords ["ONE", "ROW", "PER", "MATCH"] then return some ⟨"ONE ROW PER MATCH", "OneRow"⟩
  unless ← takeKeywords ["ALL", "ROWS", "PER", "MATCH"] do return none
  for (ks, label) in [(["SHOW", "EMPTY", "MATCHES"], "Show"), (["OMIT", "EMPTY", "MATCHES"], "Omit"),
      (["WITH", "UNMATCHED", "ROWS"], "WithUnmatched")] do
    if ← takeKeywords ks then
      return some ⟨"ALL ROWS PER MATCH " ++ Text.join " " ks, enclosed "AllRows" (enclosed "Some" label)⟩
  return some ⟨"ALL ROWS PER MATCH", enclosed "AllRows" "None"⟩

/-- Reads where the search goes on behind a match, if it is stated. -/
def optionalMatchSkip : Parser (Option Phrase) :=
  behindAll ["AFTER", "MATCH", "SKIP"] do
    let lead := "AFTER MATCH SKIP "
    if ← takeKeywords ["PAST", "LAST", "ROW"] then return ⟨lead ++ "PAST LAST ROW", "PastLastRow"⟩
    if ← takeKeywords ["TO", "NEXT", "ROW"] then return ⟨lead ++ " TO NEXT ROW", "ToNextRow"⟩
    for (k, label) in [("FIRST", "ToFirst"), ("LAST", "ToLast")] do
      if ← takeKeywords ["TO", k] then
        let n ← name
        return ⟨lead ++ "TO " ++ k ++ " " ++ n.text, enclosed label n.outline⟩
    expected "after match skip option"

def measure (below : Level) : Parser Phrase := do
  let e ← expr below
  let _ ← takeKeyword "AS"
  let n ← name
  return ⟨e.text ++ " AS " ++ n.text, record "Measure" [("expr", e.outline), ("alias", n.outline)]⟩

/-- Reads which rows a symbol stands for. -/
def symbolDefinition (below : Level) : Parser Phrase := do
  let n ← name
  keyword "AS"
  let e ← expr below
  return ⟨n.text ++ " AS " ++ e.text,
    record "SymbolDefinition" [("symbol", n.outline), ("definition", e.outline)]⟩

/-- Reads the matches of a pattern in a table, behind `MATCH_RECOGNIZE`. -/
def matchedRows (below : Level) (table : TableFactor) : Parser TableFactor :=
  parens do
    let partition ← if ← takeKeywords ["PARTITION", "BY"] then exprs below else pure []
    let order ← optionalOrder below
    let measures ← behind "MEASURES" (separated (measure below))
    let rows ← optionalMatchRows
    let skipped ← optionalMatchSkip
    keyword "PATTERN"
    let pattern ← parens (do rowPattern ((← get).size + 1))
    keyword "DEFINE"
    let symbols ← separated (symbolDefinition below)
    let shown (parts : List Phrase) : String := Text.join ", " (parts.map Phrase.text)
    let parts := [listedExprs "PARTITION BY " partition, listed "ORDER BY " (orderTexts order),
      optional "MEASURES " (measures.map shown), optional "" (rows.map Phrase.text),
      optional "" (skipped.map Phrase.text), "PATTERN (" ++ pattern.text ++ ")",
      "DEFINE " ++ shown symbols]
    return .other
      (table.text ++ " MATCH_RECOGNIZE(" ++ Text.join " " (parts.filter (!·.isEmpty)) ++ ")") none ""
      "MatchRecognize" [("table", table.outline), ("partition_by", exprsOutline partition),
        ("order_by", bracketed (orderOutlines order)), ("measures", phraseOutlines (measures.getD [])),
        ("rows_per_match", possiblePhrase rows), ("after_match_skip", possiblePhrase skipped),
        ("pattern", pattern.outline), ("symbols", phraseOutlines symbols), ("alias", "None")]

end Parser
end Sql
end PolyglotSql
