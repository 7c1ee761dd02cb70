import PolyglotSql.Proofs.Rendering.Reading
import PolyglotSql.Value

/-!
# PolyglotSql.Proofs.Rendering.Precedence

Arithmetic on integers, as a reader of rendered SQL takes it: products bind tighter than sums,
operators of one level group to the left, and placeholders take the bound values in turn. The reader
goes through the lexemes one by one and keeps what still waits for a right operand. `Reads` says at
which level some lexemes are read as an operand; operations and brackets keep it
(`Reads.operation`, `Reads.bracket`).
-/

namespace PolyglotSql

inductive ArithOp where
  | plus | minus | times | divide | remainder
deriving DecidableEq

/-- How tight an operand holds together, the loosest first. -/
inductive ArithLevel where
  | sum | product | atom
deriving DecidableEq

/-- The level of a right operand below an operator of the level. -/
def ArithLevel.above : ArithLevel → ArithLevel
  | .sum => .product
  | .product | .atom => .atom

namespace ArithOp

def level : ArithOp → ArithLevel
  | .plus | .minus => .sum
  | .times | .divide | .remainder => .product

def sign : ArithOp → Char
  | .plus => '+'
  | .minus => '-'
  | .times => '*'
  | .divide => '/'
  | .remainder => '%'

def ofSign? : Char → Option ArithOp
  | '+' => some .plus
  | '-' => some .minus
  | '*' => some .times
  | '/' => some .divide
  | '%' => some .remainder
  | _ => none

/-- The value of an operation. Division is toward zero; by zero there is none. -/
def apply : ArithOp → Int → Int → Option Int
  | .plus, x, y => some (x + y)
  | .minus, x, y => some (x - y)
  | .times, x, y => some (x * y)
  | .divide, x, y => if y = 0 then none else some (x.tdiv y)
  | .remainder, x, y => if y = 0 then none else some (x.tmod y)

end ArithOp

/-- An arithmetic expression that has been read. -/
inductive Arith where
  | column (table : Option String) (name : String)
  | number (n : Int64)
  | operation (op : ArithOp) (left right : Arith)
deriving DecidableEq

/-- The integers in the columns of a row; a column may be told by its table, too. -/
abbrev IntRow := Option String → String → Int

namespace Arith

def eval (row : IntRow) : Arith → Option Int
  | .column table name => some (row table name)
  | .number n => some n.toInt
  | .operation op left right => do op.apply (← left.eval row) (← right.eval row)

/-! ## Reading -/

/-- What waits for a right operand, at each of the two levels of operators. -/
structure Pending where
  sum : Option (Arith × ArithOp)
  product : Option (Arith × ArithOp)

/-- A right operand with what waits for it. -/
def onto : Option (Arith × ArithOp) → Arith → Arith
  | none, x => x
  | some (left, op), x => .operation op left x

namespace Pending

def empty : Pending := ⟨none, none⟩

def close (p : Pending) (x : Arith) : Arith :=
  onto p.sum (onto p.product x)

/-- An operator behind `x`. -/
def add (p : Pending) (x : Arith) (op : ArithOp) : Pending :=
  match op.level with
  | .sum => ⟨some (p.close x, op), none⟩
  | _ => ⟨p.sum, some (onto p.product x, op)⟩

end Pending

inductive Expects where
  | operand
  /-- A column behind its table and a dot. -/
  | column (table : String)
  /-- An operator, or the end, behind an operand. -/
  | operator (x : Arith)

structure State where
  expects : Expects
  here : Pending
  /-- What waits around each of the open brackets, the innermost first. -/
  outer : List Pending
  /-- The values of the placeholders to come. -/
  values : List Value

namespace State

def operand (s : State) : Lexeme → Option State
  | .name name => some { s with expects := .operator (.column none name) }
  | .sign c =>
    if c = '?' then
      match s.values with
      | .integer n :: values => some { s with expects := .operator (.number n), values }
      | _ => none
    else if c = '(' then some { s with here := .empty, outer := s.here :: s.outer }
    else none

def column (s : State) (table : String) : Lexeme → Option State
  | .name name => some { s with expects := .operator (.column (some table) name) }
  | .sign _ => none

def operator (s : State) (x : Arith) : Lexeme → Option State
  | .name _ => none
  | .sign c =>
    if c = '.' then
      -- The name that has been read was a table's.
      match x with
      | .column none table => some { s with expects := .column table }
      | _ => none
    else if c = ')' then
      match s.outer with
      | here :: outer => some { s with expects := .operator (s.here.close x), here, outer }
      | [] => none
    else (ArithOp.ofSign? c).map fun op => { s with expects := .operand, here := s.here.add x op }

def step (s : State) (l : Lexeme) : Option State :=
  match s.expects with
  | .operand => s.operand l
  | .column table => s.column table l
  | .operator x => s.operator x l

end State

/-- The expression that some lexemes are, if they are one and take all the values. -/
def read (values : List Value) (ls : List Lexeme) : Option Arith := do
  match ← ls.foldlM State.step ⟨.operand, .empty, [], values⟩ with
  | ⟨.operator x, here, [], []⟩ => some (here.close x)
  | _ => none

/-! ## Operands -/

/-- Lexemes that are read as an operand of a level. An atom leaves all that waits as it is. A
product may add to the product that waits, of which there was none, and a sum to both; what has been
read is what these give once they are closed. -/
def Reads (ls : List Lexeme) (values : List Value) (tree : Arith) : ArithLevel → Prop
  | .atom => ∀ here outer more,
    ls.foldlM State.step ⟨.operand, here, outer, values ++ more⟩ =
      some ⟨.operator tree, here, outer, more⟩
  | .product => ∀ sum outer more, ∃ product x,
    ls.foldlM State.step ⟨.operand, ⟨sum, none⟩, outer, values ++ more⟩ =
      some ⟨.operator x, ⟨sum, product⟩, outer, more⟩ ∧ onto product x = tree
  | .sum => ∀ outer more, ∃ here x,
    ls.foldlM State.step ⟨.operand, .empty, outer, values ++ more⟩ =
      some ⟨.operator x, here, outer, more⟩ ∧ here.close x = tree

variable {ls ls' : List Lexeme} {values values' : List Value} {left right tree : Arith}

theorem Reads.read (h : Reads ls values tree .sum) : read values ls = some tree := by
  obtain ⟨here, x, hfold, rfl⟩ := h [] []
  rw [List.append_nil] at hfold
  rw [Arith.read, hfold]
  rfl

theorem Reads.product (h : Reads ls values tree .atom) : Reads ls values tree .product :=
  fun sum outer more => ⟨none, tree, h ⟨sum, none⟩ outer more, rfl⟩

theorem Reads.sum (h : Reads ls values tree .product) : Reads ls values tree .sum := by
  intro outer more
  obtain ⟨product, x, hfold, hx⟩ := h none outer more
  exact ⟨⟨none, product⟩, x, hfold, hx⟩

/-- An operand of any level is a sum, too. -/
theorem Reads.toSum {level : ArithLevel} (h : Reads ls values tree level) :
    Reads ls values tree .sum := by
  cases level with
  | atom => exact h.product.sum
  | product => exact h.sum
  | sum => exact h

theorem reads_column (name : String) : Reads [.name name] [] (.column none name) .atom :=
  fun _ _ _ => rfl

theorem reads_qualified (table name : String) :
    Reads [.name table, .sign '.', .name name] [] (.column (some table) name) .atom :=
  fun _ _ _ => rfl

theorem reads_number (n : Int64) : Reads [.sign '?'] [.integer n] (.number n) .atom :=
  fun _ _ _ => rfl

theorem Reads.bracket (h : Reads ls values tree .sum) :
    Reads (.sign '(' :: (ls ++ [.sign ')'])) values tree .atom := by
  intro here outer more
  obtain ⟨inner, x, hfold, rfl⟩ := h (here :: outer) more
  have hopen : State.step ⟨.operand, here, outer, values ++ more⟩ (.sign '(') =
      some ⟨.operand, .empty, here :: outer, values ++ more⟩ := rfl
  have hclose : State.step ⟨.operator x, inner, here :: outer, more⟩ (.sign ')') =
      some ⟨.operator (inner.close x), here, outer, more⟩ := rfl
  rw [List.foldlM_cons, hopen, Option.bind_eq_bind, Option.bind_some, List.foldlM_append, hfold,
    Option.bind_eq_bind, Option.bind_some, List.foldlM_cons, hclose]
  rfl

theorem step_sign (op : ArithOp) (x : Arith) (here : Pending) (outer : List Pending)
    (values : List Value) :
    State.step ⟨.operator x, here, outer, values⟩ (.sign op.sign) =
      some ⟨.operand, here.add x op, outer, values⟩ := by
  cases op <;> rfl

/-- Operands on both sides of an operator, read one after the other. -/
theorem foldlM_operator {op : ArithOp} {x : Arith} {start here : Pending} {outer : List Pending}
    {more : List Value} {s : Option State}
    (hleft : ls.foldlM State.step ⟨.operand, start, outer, values ++ (values' ++ more)⟩ =
      some ⟨.operator x, here, outer, values' ++ more⟩)
    (hright : ls'.foldlM State.step ⟨.operand, here.add x op, outer, values' ++ more⟩ = s) :
    (ls ++ .sign op.sign :: ls').foldlM State.step
      ⟨.operand, start, outer, values ++ values' ++ more⟩ = s := by
  rw [List.append_assoc, List.foldlM_append, hleft, Option.bind_eq_bind, Option.bind_some,
    List.foldlM_cons, step_sign, Option.bind_eq_bind, Option.bind_some, hright]

/-- A right operand is of a higher level than its operator. -/
theorem Reads.operation (op : ArithOp) (hleft : Reads ls values left op.level)
    (hright : Reads ls' values' right op.level.above) :
    Reads (ls ++ .sign op.sign :: ls') (values ++ values') (.operation op left right) op.level := by
  -- Operators act on what waits by their level only.
  generalize hlevel : op.level = level at hleft hright ⊢
  cases level with
  | atom => cases op <;> cases hlevel
  | product =>
    intro sum outer more
    obtain ⟨product, x, hfold, rfl⟩ := hleft sum outer (values' ++ more)
    have hadd : Pending.add ⟨sum, product⟩ x op = ⟨sum, some (onto product x, op)⟩ := by
      rw [Pending.add, hlevel]
    refine ⟨some (onto product x, op), right, foldlM_operator hfold ?_, rfl⟩
    rw [hadd]
    exact hright _ outer more
  | sum =>
    intro outer more
    obtain ⟨here, x, hfold, rfl⟩ := hleft outer (values' ++ more)
    have hadd : here.add x op = ⟨some (here.close x, op), none⟩ := by
      rw [Pending.add, hlevel]
    obtain ⟨product, y, hfold', rfl⟩ := hright (some (here.close x, op)) outer more
    refine ⟨⟨some (here.close x, op), product⟩, y, foldlM_operator hfold ?_, rfl⟩
    rw [hadd]
    exact hfold'

end Arith
end PolyglotSql
