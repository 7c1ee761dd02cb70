import PolyglotSql.Document.JsonReader

/-!
# PolyglotSql.Document.TomlReader

Reading TOML text, as far as settings need it: texts, flags, lists and tables. A document that
holds a number or a date, or a table whose header has several keys, is not read. Neither a key nor
a table may be defined twice, and a table that a value or a dotted key defines cannot be opened by a
header any more.
-/

namespace PolyglotSql

inductive Toml where
  | text (s : String)
  | flag (b : Bool)
  | list (items : List Toml)
  /-- A table; one that dotted keys define is open to further dotted keys. -/
  | table (isOpen : Bool) (entries : List (String × Toml))

namespace Toml

/-- Keys with their values, in the order of the document. -/
abbrev Entries := List (String × Toml)

/-- What is left of a text after reading something off its front. -/
abbrev Reader (α : Type) := List Char → Option (α × List Char)

/-! ## Blanks -/

/-- Whether a character may stand between tokens of a line. -/
def isBlank (c : Char) : Bool :=
  c == ' ' || c == '\t'

def skipBlanks (s : List Char) : List Char :=
  s.dropWhile isBlank

/-- Whether a character may stand in comments and texts of one line. -/
def isPrintable (c : Char) : Bool :=
  c == '\t' || (' ' ≤ c && c != '\x7f')

/-- What follows the end of a line, if it is next. -/
def newline? : List Char → Option (List Char)
  | '\n' :: rest => some rest
  | '\r' :: '\n' :: rest => some rest
  | _ => none

def skipComment : List Char → List Char
  | '#' :: rest => rest.dropWhile isPrintable
  | s => s

/-- What follows the rest of a line on which only blanks and a comment are left. -/
def endOfLine (s : List Char) : Option (List Char) :=
  match skipComment (skipBlanks s) with
  | [] => some []
  | rest => newline? rest

/-- Drops blanks, comments and ends of lines, in at most so many steps. -/
def skipLines : (steps : Nat) → List Char → List Char
  | 0, s => s
  | steps + 1, s =>
    match newline? (skipComment (skipBlanks s)) with
    | some rest => skipLines steps rest
    | none => skipComment (skipBlanks s)

/-! ## Texts -/

/-- The character that so many hexadecimal digits state. -/
def codePoint (digits : Nat) (s : List Char) : Option (Char × List Char) := do
  if s.length < digits then none
  let n ← (s.take digits).foldlM (fun n c => (Json.hexValue? c).map (16 * n + ·)) 0
  if h : n.isValidChar then some (Char.ofNatAux n h, s.drop digits) else none

/-- The character that an escape states behind its backslash. -/
def escape : Reader Char
  | 'b' :: rest => some ('\x08', rest)
  | 't' :: rest => some ('\t', rest)
  | 'n' :: rest => some ('\n', rest)
  | 'f' :: rest => some ('\x0c', rest)
  | 'r' :: rest => some ('\r', rest)
  | 'e' :: rest => some ('\x1b', rest)
  | '"' :: rest => some ('"', rest)
  | '\\' :: rest => some ('\\', rest)
  | 'x' :: rest => codePoint 2 rest
  | 'u' :: rest => codePoint 4 rest
  | 'U' :: rest => codePoint 8 rest
  | _ => none

/-- Reads a text on one line up to the quote that closes it, in at most so many steps. Backslashes
escape characters between double quotes only. -/
def lineText (quote : Char) : (steps : Nat) → Reader (List Char)
  | 0, _ => none
  | _, [] => none
  | steps + 1, c :: rest =>
    if c = quote then some ([], rest)
    else if c = '\\' ∧ quote = '"' then do
      let (c, rest) ← escape rest
      let (content, rest) ← lineText quote steps rest
      some (c :: content, rest)
    else if isPrintable c then do
      let (content, rest) ← lineText quote steps rest
      some (c :: content, rest)
    else none

/-- What follows a backslash at the end of a line, all white space dropped, if it ends one. -/
def continuation? (s : List Char) : Option (List Char) :=
  (newline? (skipBlanks s)).map (·.dropWhile Json.isBlank)

/-- Reads a text of several lines up to the three quotes that close it, in at most so many steps. Up
to two quotes directly before those belong to the text. -/
def blockText (quote : Char) : (steps : Nat) → Reader (List Char)
  | 0, _ => none
  | _, [] => none
  | steps + 1, c :: rest =>
    if c = quote then
      let quotes := (c :: rest).takeWhile (· = quote)
      if 3 ≤ quotes.length then
        let inside := min 2 (quotes.length - 3)
        some (List.replicate inside quote, (c :: rest).drop (inside + 3))
      else do
        let (content, rest) ← blockText quote steps rest
        some (c :: content, rest)
    else if c = '\\' ∧ quote = '"' then
      match continuation? rest with
      | some rest => blockText quote steps rest
      | none => do
        let (c, rest) ← escape rest
        let (content, rest) ← blockText quote steps rest
        some (c :: content, rest)
    else
      match newline? (c :: rest) with
      | some rest => do
        let (content, rest) ← blockText quote steps rest
        some ('\n' :: content, rest)
      | none =>
        if isPrintable c then do
          let (content, rest) ← blockText quote steps rest
          some (c :: content, rest)
        else none

def textBehind (quote : Char) (s : List Char) : Option (String × List Char) :=
  let read := match s with
    | a :: b :: rest =>
      if a = quote ∧ b = quote then
        let rest := (newline? rest).getD rest
        blockText quote (rest.length + 1) rest
      else lineText quote (s.length + 1) s
    | s => lineText quote (s.length + 1) s
  read.map fun (content, rest) => (String.ofList content, rest)

/-! ## Keys -/

/-- Whether a character may stand in a key without quotes. -/
def isKeyChar (c : Char) : Bool :=
  c.isAlphanum || c == '_' || c == '-'

def simpleKey (s : List Char) : Option (String × List Char) :=
  match s with
  | '"' :: rest =>
    (lineText '"' (rest.length + 1) rest).map fun (content, rest) => (String.ofList content, rest)
  | '\'' :: rest =>
    (lineText '\'' (rest.length + 1) rest).map fun (content, rest) => (String.ofList content, rest)
  | s =>
    match s.span isKeyChar with
    | ([], _) => none
    | (key, rest) => some (String.ofList key, rest)

/-- Reads a key of one or more parts, separated by dots, in at most so many steps, with the blanks
around it. -/
def key : (steps : Nat) → Reader (List String)
  | 0, _ => none
  | steps + 1, s => do
    let (part, rest) ← simpleKey (skipBlanks s)
    match skipBlanks rest with
    | '.' :: rest =>
      let (parts, rest) ← key steps rest
      some (part :: parts, rest)
    | rest => some ([part], rest)

/-! ## Tables -/

/-- Adds a value under a dotted key, unless something is defined there. -/
def define : List String → Toml → Entries → Option Entries
  | [], _, _ => none
  | [key], v, entries =>
    if entries.any (·.1 == key) then none else some (entries ++ [(key, v)])
  | key :: keys, v, entries => do
    match entries.find? (·.1 == key) with
    | none => some (entries ++ [(key, .table true (← define keys v []))])
    | some (_, .table true inner) =>
      let inner ← define keys v inner
      some (entries.map fun entry => if entry.1 == key then (key, .table true inner) else entry)
    | some _ => none

/-! ## Values -/

mutual

/-- Reads a value, in at most so many steps. -/
def value : (steps : Nat) → Reader Toml
  | 0, _ => none
  | steps + 1, s =>
    match s with
    | '"' :: rest => (textBehind '"' rest).map fun (content, rest) => (.text content, rest)
    | '\'' :: rest => (textBehind '\'' rest).map fun (content, rest) => (.text content, rest)
    | 't' :: 'r' :: 'u' :: 'e' :: rest => some (.flag true, rest)
    | 'f' :: 'a' :: 'l' :: 's' :: 'e' :: rest => some (.flag false, rest)
    | '[' :: rest => (items steps rest).map fun (items, rest) => (.list items, rest)
    | '\x7b' :: rest => (fields steps [] rest).map fun (entries, rest) => (.table false entries, rest)
    | _ => none

/-- Reads the items of a list up to the bracket that closes it. -/
def items : (steps : Nat) → Reader (List Toml)
  | 0, _ => none
  | steps + 1, s =>
    match skipLines (s.length + 1) s with
    | ']' :: rest => some ([], rest)
    | s => do
      let (item, rest) ← value steps s
      match skipLines (rest.length + 1) rest with
      | ']' :: rest => some ([item], rest)
      | ',' :: rest =>
        let (more, rest) ← items steps rest
        some (item :: more, rest)
      | _ => none

/-- Reads the entries of a table up to the brace that closes it, behind those that were read. -/
def fields : (steps : Nat) → Entries → Reader Entries
  | 0, _, _ => none
  | steps + 1, found, s =>
    match skipLines (s.length + 1) s with
    | '\x7d' :: rest => some (found, rest)
    | s => do
      let (path, rest) ← key (s.length + 1) s
      match rest with
      | '=' :: rest =>
        let (v, rest) ← value steps (skipBlanks rest)
        let found ← define path v found
        match skipLines (rest.length + 1) rest with
        | '\x7d' :: rest => some (found, rest)
        | ',' :: rest => fields steps found rest
        | _ => none
      | _ => none

end

/-! ## Documents -/

/-- Reads the keys and values up to the next header or the end, behind those that were read, in at
most so many steps. -/
def body : (steps : Nat) → Entries → Reader Entries
  | 0, _, _ => none
  | steps + 1, found, s =>
    match skipLines (s.length + 1) s with
    | [] => some (found, [])
    | '[' :: rest => some (found, '[' :: rest)
    | s => do
      let (path, rest) ← key (s.length + 1) s
      match rest with
      | '=' :: rest =>
        let (v, rest) ← value (rest.length + 1) (skipBlanks rest)
        let found ← define path v found
        body steps found (← endOfLine rest)
      | _ => none

/-- Reads tables under their headers, behind what was read, in at most so many steps. -/
def tables : (steps : Nat) → Entries → List Char → Option Entries
  | 0, _, _ => none
  | _, found, [] => some found
  | steps + 1, found, s => do
    match s with
    | '[' :: rest =>
      let (name, rest) ← simpleKey (skipBlanks rest)
      match skipBlanks rest with
      | ']' :: rest =>
        let rest ← endOfLine rest
        let (entries, rest) ← body (rest.length + 1) [] rest
        tables steps (← define [name] (.table false entries) found) rest
      | _ => none
    | _ => none

/-- Reads a document. A byte order mark may stand in front. -/
def read? (s : String) : Option Entries := do
  let s := match s.toList with
    | '\ufeff' :: rest => rest
    | s => s
  let (found, rest) ← body (s.length + 1) [] s
  tables (rest.length + 1) found rest

end Toml
end PolyglotSql
