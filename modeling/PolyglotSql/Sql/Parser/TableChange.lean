import PolyglotSql.Sql.Parser.Object

/-!
# PolyglotSql.Sql.Parser.TableChange

Changes of tables: of their columns, constraints, partitions, projections and settings. They are
read to be written again, and are kept as text.
-/

namespace PolyglotSql
namespace Sql
namespace Parser

/-! ## Columns -/

/-- Reads before or behind which column one is put, as it is written behind a blank. -/
def optionalColumnPlace : Parser String := do
  if ← takeKeyword "FIRST" then return " FIRST"
  optionalNameBehind "AFTER"

/-- Reads the new type of a column with what the column becomes, as it is written. -/
def columnType (below : Level) : Parser String := do
  let type ← dataType below
  let options ← many (columnOption below)
  return type ++ blankEach (options.map ColumnOption.written) ++ (← optionalColumnPlace)

def nameChange : Parser String := do
  let old ← nameShown
  keyword "TO"
  return old ++ " TO " ++ (← nameShown)

/-- Reads how the values of a column are generated from now on, as it is written. -/
def generation : Parser String := do
  let kind ← firstOf [["ALWAYS"], ["BY", "DEFAULT"]]
  keywords ["AS", "IDENTITY"]
  let options ← if ← peekSymbol "(" then some <$> parens sequenceOptions else pure none
  return "ADD GENERATED" ++ optional " " kind ++ " AS IDENTITY" ++ optional " (" (options.map (· ++ " )"))

def columnChange (below : Level) : Parser String := do
  match ← firstOf [["SET", "NOT", "NULL"], ["DROP", "NOT", "NULL"], ["SET", "DEFAULT"], ["DROP", "DEFAULT"],
      ["SET", "DATA", "TYPE"], ["TYPE"], ["ADD", "GENERATED"]] with
  | some "SET DEFAULT" => return "SET DEFAULT " ++ (← expr below).text
  | some "SET DATA TYPE" => return "SET DATA TYPE " ++ (← dataType below)
  | some "TYPE" => return "TYPE " ++ (← dataType below)
  | some "ADD GENERATED" => generation
  | some change => return change
  | none => expected "SET/DROP NOT NULL, SET DEFAULT, or SET DATA TYPE after ALTER COLUMN"

/-! ## Partitions and projections -/

def partitionValues (below : Level) : Parser String := do
  return tupleText (← parens (exprs below))

def partitionShown (below : Level) : Parser String := do
  let k ← oneOf ["PART", "PARTITION"]
  return k ++ " " ++ (← expr below).text

def projectionQuery (below : Level) : Parser String :=
  parens do
    keyword "SELECT"
    let items ← separatedLoosely endsResults (selectItem below)
    let groups ← groupBy below
    let order ← orderShown below
    return "(SELECT " ++ Text.join ", " (itemTexts items) ++ groups.text ++ order ++ ")"

def projectionPart : Parser String := do
  let guarded ← optionalPresence
  let n ← nameShown
  return guarded ++ n ++ optional " IN PARTITION " (← behindAll ["IN", "PARTITION"] nameShown)

/-! ## Changes -/

def tableAddition (below : Level) : Parser String := do
  if let some constraint ← tableConstraint below then
    return constraint.text ++ (← optionalWords ["NOT", "VALID"])
  if ← takeKeyword "PROJECTION" then
    let guarded ← optionalGuard
    let n ← nameShown
    return "PROJECTION " ++ guarded ++ n ++ " " ++ (← projectionQuery below)
  let early ← optionalGuard
  let partitions ← many (behind "PARTITION" (partitionValues below))
  unless partitions.isEmpty do return early ++ Text.join " " (partitions.map ("PARTITION " ++ ·))
  let word ← if ← takeKeyword "COLUMN" then pure "COLUMN " else pure ""
  let late ← optionalGuard
  let column ← columnDeclaration below
  return word ++ (if late.isEmpty then early else late) ++ column.text ++ (← optionalColumnPlace)

def tableOmission (below : Level) : Parser String := do
  match ← firstOf [["IF", "EXISTS", "PARTITION"], ["PARTITION"], ["CONSTRAINT"], ["PRIMARY", "KEY"],
      ["FOREIGN", "KEY"], ["INDEX"], ["PROJECTION"], ["CLUSTERING", "KEY"]] with
  | some "CONSTRAINT" =>
    let guarded ← optionalPresence
    let n ← nameShown
    return "CONSTRAINT " ++ guarded ++ n ++ (← optionalDependents)
  | some "PRIMARY KEY" => return "PRIMARY KEY" ++ (← optionalDependents)
  | some "FOREIGN KEY" =>
    let n ← nameShown
    return "FOREIGN KEY " ++ n ++ (← optionalDependents)
  | some "INDEX" => return "INDEX " ++ (← nameShown)
  | some "PROJECTION" =>
    let guarded ← optionalPresence
    return "PROJECTION " ++ guarded ++ (← nameShown)
  | some "CLUSTERING KEY" => return "CLUSTERING KEY"
  | some partition => return partition ++ " " ++ (← partitionValues below)
  | none =>
    let word ← if ← takeKeyword "COLUMN" then pure "COLUMN " else pure ""
    let guarded ← optionalPresence
    let n ← nameShown
    return word ++ guarded ++ n ++ (← optionalDependents)

/-- Reads a new name behind `RENAME`, as it is written. -/
def tableRenaming : Parser String := do
  match ← takeOneOf ["TO", "AS"] with
  | some k => return k ++ " " ++ (← pathShown)
  | none =>
    let _ ← takeKeyword "COLUMN"
    return "COLUMN " ++ (← nameChange)

/-- Reads something that acts on changed rows behind a verb, as it is written, if it is one of some
kinds. -/
def tableSwitch (kinds : List (List String)) (what : String) : Parser String := do
  match ← firstOf kinds with
  | some "ROW LEVEL SECURITY" => return "ROW LEVEL SECURITY"
  | some kind => return kind ++ " " ++ (← nameShown)
  | none => expected what

/-- Reads the settings of a table behind nothing else, as they are written. -/
def tableSettings (below : Level) : Parser String := do
  if let some options ← behindAll ["SET", "TBLPROPERTIES"] (parens (separated (optionPhrase below))) then
    return "SET TBLPROPERTIES(" ++ Text.join ", " (options.map Phrase.text) ++ ")"
  match ← optionalOptions below "SET" with
  | some options => return "SET (" ++ options ++ ")"
  | none =>
    expected "ADD, RENAME, PARTITION, SWAP, DROP, REPLICA IDENTITY, SET, or SET TBLPROPERTIES after ALTER TABLE"

def tableChangeWords : List (List String) :=
  [["ADD"], ["RENAME"], ["DISABLE"], ["ENABLE"], ["CLEAR", "PROJECTION"], ["MATERIALIZE", "PROJECTION"],
   ["DROP"], ["PARTITION"], ["CHANGE"], ["MODIFY"], ["ALTER"], ["SWAP"], ["OWNER", "TO"], ["ATTACH"],
   ["DETACH"], ["FREEZE"], ["UNFREEZE"], ["CLUSTER", "BY"], ["SUSPEND", "RECLUSTER"],
   ["RESUME", "RECLUSTER"], ["LOCK"], ["ALGORITHM"], ["AUTO_INCREMENT"], ["REPLICA", "IDENTITY"],
   ["VALIDATE", "CONSTRAINT"]]

def tableChange (below : Level) : Parser String := do
  let some k ← firstOf tableChangeWords | tableSettings below
  let shown (p : Parser String) : Parser String := (k ++ " " ++ ·) <$> p
  match k with
  | "ADD" => shown (tableAddition below)
  | "RENAME" => shown tableRenaming
  | "DISABLE" =>
    shown (tableSwitch [["ROW", "LEVEL", "SECURITY"], ["RULE"], ["TRIGGER"]]
      "ROW LEVEL SECURITY, RULE, or TRIGGER after DISABLE")
  | "ENABLE" =>
    shown (tableSwitch [["ALWAYS", "RULE"], ["ALWAYS", "TRIGGER"], ["ROW", "LEVEL", "SECURITY"],
      ["REPLICA", "RULE"], ["REPLICA", "TRIGGER"], ["RULE"], ["TRIGGER"]]
      "ALWAYS, REPLICA, ROW LEVEL SECURITY, RULE, or TRIGGER after ENABLE")
  | "CLEAR PROJECTION" | "MATERIALIZE PROJECTION" => shown projectionPart
  | "DROP" => shown (tableOmission below)
  | "PARTITION" =>
    let old ← partitionValues below
    keywords ["RENAME", "TO", "PARTITION"]
    return "PARTITION " ++ old ++ " RENAME TO PARTITION " ++ (← partitionValues below)
  | "CHANGE" =>
    let _ ← takeKeyword "COLUMN"
    let old ← nameShown
    let new ← nameShown
    return "CHANGE COLUMN " ++ old ++ " " ++ new ++ " " ++ (← columnType below)
  | "MODIFY" =>
    let _ ← takeKeyword "COLUMN"
    let n ← nameShown
    return "MODIFY COLUMN " ++ n ++ " " ++ (← columnType below)
  | "ALTER" =>
    let _ ← takeKeyword "COLUMN"
    let n ← nameShown
    return "ALTER COLUMN " ++ n ++ " " ++ (← columnChange below)
  | "SWAP" =>
    keyword "WITH"
    return "SWAP WITH " ++ (← pathShown)
  | "OWNER TO" => shown owner
  | "ATTACH" | "DETACH" => shown (partitionShown below)
  | "FREEZE" | "UNFREEZE" =>
    let partition ← partitionShown below
    let n ← behind "WITH" do
      keyword "NAME"
      nameShown
    return k ++ " " ++ partition ++ optional " WITH NAME " n
  | "CLUSTER BY" => shown (partitionValues below)
  | "LOCK" => buildLock
  | "ALGORITHM" => buildAlgorithm
  | "AUTO_INCREMENT" =>
    let sign ← if ← takeSymbol "=" then pure "= " else pure ""
    return "AUTO_INCREMENT " ++ sign ++ (← numberValue).written
  | "REPLICA IDENTITY" =>
    match ← firstOf [["NONE"], ["FULL"], ["DEFAULT"], ["USING", "INDEX"]] with
    | some "USING INDEX" => shown (("USING INDEX " ++ ·) <$> nameShown)
    | some identity => return "REPLICA IDENTITY " ++ identity
    | none => expected "NONE, FULL, DEFAULT, or USING INDEX index_name after REPLICA IDENTITY"
  | "VALIDATE CONSTRAINT" => shown nameShown
  | k => return k

end Parser
end Sql
end PolyglotSql
