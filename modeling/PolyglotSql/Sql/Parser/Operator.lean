import PolyglotSql.Sql.Parser.Operand

/-!
# PolyglotSql.Sql.Parser.Operator

Expressions with infix operators. Each operator has a strength: an operator takes as its right
operand what stronger ones bind together, so that equal ones associate to the left.
-/

namespace PolyglotSql
namespace Sql
namespace Parser

/-! ## Strengths -/

/-- The strength of comparisons, ranges and membership. -/
def comparisonStrength : Nat := 20

def patternStrength : Nat := 19

/-- The strength of an operator that is a symbol; zero if the symbol is none. -/
def symbolStrength (s : String) : Nat :=
  if s = "." then 100
  else if ["::", "!", "[", "^@"].contains s then 50
  else if ["*", "/", "//", "%", "||"].contains s then 40
  else if ["+", "-"].contains s then 30
  else if s = "&" then 23
  else if ["^", "#", ">>", "<<"].contains s then 22
  else if ["|", "&&", "@"].contains s then 21
  else if [":=", "=", "<", "<=", "<>", ">", ">=", "==", "~", "~*", "!~", "!~*", "~~", "~~*", "!~~",
      "!~~*", "<=>"].contains s then comparisonStrength
  else if ["->", "->>", "#>", "#>>", "@>", "<@", "#-", "@?", "@@"].contains s then 16
  else 0

def patternWords : List String :=
  ["LIKE", "ILIKE", "RLIKE", "REGEXP", "MATCH", "SIMILAR", "MEMBER"]

/-- The strength of the next token as an infix operator; zero if it is none. -/
def nextStrength : Parser Nat := do
  let t ← peek
  match t.token with
  | .symbol s => return symbolStrength s
  | .word w =>
    match w.keyword with
    | "OR" => return 5
    | "AND" => return 10
    | "XOR" => return 24
    | "AT" =>
      if (← keywordAt 1 "TIME") && (← keywordAt 2 "ZONE") then return 41 else return 0
    | "NOT" =>
      let following := (← peekAt 1).token.keyword
      if following = "IN" ∨ following = "BETWEEN" then return comparisonStrength
      if patternWords.contains following then return patternStrength
      if following = "NULL" ∧ (← get).setting ≠ .column then return 17
      return 0
    | "IS" => return 17
    | "IN" | "BETWEEN" | "OVERLAPS" | "OPERATOR" => return comparisonStrength
    | "DIV" => return 40
    | k => return if patternWords.contains k then patternStrength else 0
  | _ => return 0

/-! ## Operators between two operands -/

/-- Operators that no canonical query has, and the names of their kinds. -/
def otherOperators : List (String × String) :=
  [("|", "BitwiseOr"), ("&", "BitwiseAnd"), ("^", "BitwiseXor"), ("//", "DuckIntegerDivide"),
   ("<<", "PGBitwiseShiftLeft"), (">>", "PGBitwiseShiftRight"), ("&&", "PGOverlap"),
   ("^@", "PGStartsWith"), ("~", "PGRegexMatch"), ("~*", "PGRegexIMatch"),
   ("!~", "PGRegexNotMatch"), ("!~*", "PGRegexNotIMatch"), ("~~", "PGLikeMatch"),
   ("~~*", "PGILikeMatch"), ("!~~", "PGNotLikeMatch"), ("!~~*", "PGNotILikeMatch"),
   ("->", "Arrow"), ("->>", "LongArrow"), ("#>", "HashArrow"), ("#>>", "HashLongArrow"),
   ("@>", "AtArrow"), ("<@", "ArrowAt"), ("#-", "HashMinus"), ("@?", "AtQuestion"), ("@@", "AtAt"),
   (":=", "Assignment"), ("<=>", "Spaceship"), ("XOR", "Xor"), ("OVERLAPS", "Overlaps")]

/-- The operator that is spelled so, if it is one that no canonical query has. -/
def otherOperator? (spelling : String) : Option BinaryOperator :=
  (otherOperators.lookup spelling).map fun label => .other ⟨spelling, label⟩

/-- The operator of a symbol or keyword, if it is one between two plain operands. -/
def binaryOperator? : Token → Option BinaryOperator
  | .symbol s =>
    match s with
    | "=" => some .eq
    | "==" => some .eq
    | "<>" => some .ne
    | "<" => some .lt
    | "<=" => some .le
    | ">" => some .gt
    | ">=" => some .ge
    | "+" => some .plus
    | "-" => some .minus
    | "*" => some .times
    | "/" => some .divide
    | "%" => some .remainder
    | "||" => some .concat
    | s => otherOperator? s
  | .word w =>
    match w.keyword with
    | "AND" => some .and
    | "OR" => some .or
    | k => otherOperator? k
  | _ => none

/-- The operators that can compare with all or any of several values. -/
def comparesMany : BinaryOperator → Bool
  | .eq | .ne | .lt | .le | .gt | .ge => true
  | .other shown => ["~", "~*", "!~", "!~*", "~~", "~~*", "!~~", "!~~*"].contains shown.text
  | _ => false

/-- Reads the right operand of an operator at a place. -/
def binaryRest (below : Level) (left : Expr) (op : BinaryOperator) (strength : Nat)
    (place : String) : Parser Expr := do
  match ← takeOneOf ["ANY", "ALL", "SOME"] with
  | none => return .binary left op (← below.subexpr strength)
  | some k =>
    let start ← get
    symbol "("
    let right ← if ← peekQuery then do
        set start
        below.subexpr strength
      else do
        let right ← below.subexpr strength
        symbol ")"
        pure right
    unless comparesMany op do
      fail ("Expected one of [=, >, <, =>, =<, !=, ~, ~*, !~, !~*, ~~, ~~*, !~~, !~~*] as comparison "
        ++ "operator, found: " ++ op.written ++ place)
    let operand := match right with
      | .subquery _ => right.text
      | _ => "(" ++ right.text ++ ")"
    let text := left.text ++ " " ++ op.written ++ " " ++ k ++ operand
    let fields := [("left", left.outline), ("compare_op", op.label), ("right", right.outline)]
    if k == "ALL" then return shownExpr text "AllOp" fields
    return shownExpr text "AnyOp" (fields ++ [("is_some", truth (k == "SOME"))])

/-! ## Tests -/

/-- Reads what an expression is tested to be, behind `IS`. -/
def isRest (below : Level) (left : Expr) : Parser Expr := do
  if ← takeKeyword "NULL" then return .isNull false left
  if ← takeKeywords ["NOT", "NULL"] then return .isNull true left
  for k in ["TRUE", "FALSE", "UNKNOWN"] do
    for (words, label) in [([k], "Is" ++ capitalized k), (["NOT", k], "IsNot" ++ capitalized k)] do
      if ← takeKeywords words then
        return .other ⟨left.text ++ " IS " ++ Text.join " " words, enclosed label left.outline⟩
  for (words, label) in [(["DISTINCT", "FROM"], "IsDistinctFrom"),
      (["NOT", "DISTINCT", "FROM"], "IsNotDistinctFrom")] do
    if ← takeKeywords words then
      let right ← expr below
      return .other ⟨left.text ++ " IS " ++ Text.join " " words ++ " " ++ right.text,
        enclosed label (left.outline ++ ", " ++ right.outline)⟩
  let negated ← takeKeyword "NOT"
  let form ← takeOneOf ["NFC", "NFD", "NFKC", "NFKD"]
  if ← takeKeyword "NORMALIZED" then
    return shownExpr (left.text ++ " IS " ++ negation negated ++ optional "" (form.map (· ++ " "))
      ++ "NORMALIZED") "IsNormalized"
      [("expr", left.outline), ("form", possible form), ("negated", truth negated)]
  expected "[NOT] NULL | TRUE | FALSE | DISTINCT | [form] NORMALIZED FROM after IS"

/-- Reads where an expression is looked for, behind `IN`. -/
def inRest (below : Level) (left : Expr) (negated : Bool) : Parser Expr := do
  if ← takeKeyword "UNNEST" then
    let array ← parens (expr below)
    return shownExpr (left.text ++ " " ++ negation negated ++ "IN UNNEST(" ++ array.text ++ ")") "InUnnest"
      [("expr", left.outline), ("array_expr", array.outline), ("negated", truth negated)]
  parens do
    match ← maybe below.query with
    | some q => return .inSubquery negated left q
    | none => return .inList negated left (← exprs below)

/-- Reads the bounds of a range, behind `BETWEEN`. -/
def betweenRest (below : Level) (left : Expr) (negated : Bool) : Parser Expr := do
  let low ← below.subexpr comparisonStrength
  keyword "AND"
  return .between negated left low (← below.subexpr comparisonStrength)

def optionalEscape : Parser (Option Literal) :=
  behind "ESCAPE" value

/-- Reads a pattern, behind `LIKE` or `ILIKE`. -/
def likeRest (below : Level) (left : Expr) (ignoreCase negated : Bool) : Parser Expr := do
  let any ← takeKeyword "ANY"
  let pattern ← below.subexpr patternStrength
  return .like ignoreCase negated any left pattern (← optionalEscape)

/-- Reads a test that may be negated, its negation included. -/
def testRest (below : Level) (left : Expr) : Parser Expr := do
  let negated ← takeKeyword "NOT"
  let regexp ← takeKeyword "REGEXP"
  let rlike ← takeKeyword "RLIKE"
  let null ← if (← get).setting = .column then pure false else takeKeyword "NULL"
  if regexp || rlike then
    let pattern ← below.subexpr patternStrength
    return shownExpr (left.text ++ " " ++ negation negated ++ (if regexp then "REGEXP " else "RLIKE ")
      ++ pattern.text) "RLike"
      [("negated", truth negated), ("expr", left.outline), ("pattern", pattern.outline),
        ("regexp", truth regexp)]
  if negated && null then return .isNull true left
  if ← takeKeyword "IN" then inRest below left negated
  else if ← takeKeyword "BETWEEN" then betweenRest below left negated
  else if ← takeKeyword "LIKE" then likeRest below left false negated
  else if ← takeKeyword "ILIKE" then likeRest below left true negated
  else if ← takeKeywords ["SIMILAR", "TO"] then
    let pattern ← below.subexpr patternStrength
    let escape ← optionalEscape
    return shownExpr (left.text ++ " " ++ negation negated ++ "SIMILAR TO " ++ pattern.text
      ++ optional " ESCAPE " (escape.map Literal.written)) "SimilarTo"
      [("negated", truth negated), ("expr", left.outline), ("pattern", pattern.outline),
        ("escape_char", possible (escape.map Literal.label))]
  else expected "IN or BETWEEN after NOT"

/-! ## Expressions -/

/-- How a message shows an operator that has no right operand. -/
def withoutRest (t : Located) : String :=
  "No infix parser for token " ++ t.token.outline ++ t.place

/-- Reads an operator of a given strength with what follows it. -/
def infixRest (below : Level) (left : Expr) (strength : Nat) : Parser Expr := do
  let start ← get
  let t ← next
  if let some op := binaryOperator? t.token then
    return ← binaryRest below left op strength t.place
  match t.token with
  | .word w =>
    match w.keyword with
    | "OPERATOR" =>
      let names ← parens <| repeatUntil [] fun (found : List String) => do
        let found := (← next).token.describe :: found
        if ← takeSymbol "." then return .inl found else return .inr found.reverse
      binaryRest below left (.other ⟨"OPERATOR(" ++ Text.join "." names ++ ")",
        enclosed "PGCustomBinaryOperator" (bracketed (names.map Text.quoted))⟩) strength t.place
    | "IS" => isRest below left
    | "AT" =>
      keywords ["TIME", "ZONE"]
      let zone ← below.subexpr strength
      return shownExpr (left.text ++ " AT TIME ZONE " ++ zone.text) "AtTimeZone"
        [("timestamp", left.outline), ("time_zone", zone.outline)]
    | "NOT" | "IN" | "BETWEEN" | "LIKE" | "ILIKE" | "SIMILAR" | "REGEXP" | "RLIKE" => do
      set start
      testRest below left
    | "MEMBER" =>
      unless ← takeKeyword "OF" do expected "OF after MEMBER"
      let array ← parens (expr below)
      return .other ⟨left.text ++ " MEMBER OF(" ++ array.text ++ ")", enclosed "MemberOf"
        (record "MemberOf" [("value", left.outline), ("array", array.outline)])⟩
    | _ => fail (withoutRest t)
  | .symbol "::" =>
    let type ← wholeType below
    return castShown (left.text ++ "::" ++ type.text) "DoubleColon" left type none
  | _ => fail (withoutRest t)

/-- Reads an expression of operators stronger than given. -/
def subexpr (below : Level) (strength : Nat) : Parser Expr := do
  let root ← operand below
  let first ← takenFrom below root
  repeatUntil first fun left => do
    let next ← nextStrength
    if next ≤ strength then return .inr left
    if ← peekSymbol "." then return .inr left
    return .inl (← infixRest below left next)

end Parser
end Sql
end PolyglotSql
