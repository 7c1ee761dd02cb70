import PolyglotSql.Tree.Node

/-!
# PolyglotSql.Proofs.Rendering.Logic

Conditions, as a reader of rendered SQL takes them: `NOT` binds tighter than `AND`, and `AND` tighter
than `OR`; what the connectives connect is not looked into. The reader goes through the tokens one by
one and keeps what still waits for an operand. An operand leaves all that waits as it is
(`ReadsOperand`); whatever a reader takes for a condition is an operand in brackets
(`ReadsWhole.bracket`), and operands with one connective between them are a condition
(`ReadsOperand.chain`).
-/

namespace PolyglotSql

namespace BooleanOp

def holds : BooleanOp → Bool → Bool → Bool
  | .and, x, y => x && y
  | .or, x, y => x || y

/-- What a connective makes of all of some truth values. -/
def join : BooleanOp → List Bool → Bool
  | .and, xs => xs.all id
  | .or, xs => xs.any id

theorem join_singleton (op : BooleanOp) (x : Bool) : op.join [x] = x := by
  cases op <;> simp [join]

theorem join_holds (op : BooleanOp) (x y : Bool) (xs : List Bool) :
    op.join (op.holds x y :: xs) = op.join (x :: y :: xs) := by
  cases op <;> simp [join, holds, Bool.and_assoc, Bool.or_assoc]

theorem join_append (op : BooleanOp) (xs ys : List Bool) :
    op.join (xs ++ ys) = op.holds (op.join xs) (op.join ys) := by
  cases op <;> simp [join, holds]

end BooleanOp

/-- A condition that has been read. -/
inductive Formula (α : Type) where
  | atom (a : α)
  | not (f : Formula α)
  | connect (op : BooleanOp) (left right : Formula α)

/-- A token of a condition. What is an atom, is known by its label, and written in some way. -/
inductive LogicToken (α : Type) where
  | atom (a : α) (text : List Char)
  | not
  | connective (op : BooleanOp)
  | opening
  | closing

namespace LogicToken

variable {α : Type}

def chars : LogicToken α → List Char
  | .atom _ text => text
  | .not => "NOT ".toList
  | .connective .and => " AND ".toList
  | .connective .or => " OR ".toList
  | .opening => ['(']
  | .closing => [')']

/-- The text that some tokens are written as. -/
def text (tokens : List (LogicToken α)) : List Char :=
  tokens.flatMap chars

@[simp] theorem text_nil : text ([] : List (LogicToken α)) = [] := rfl

@[simp] theorem text_cons (t : LogicToken α) (ts : List (LogicToken α)) :
    text (t :: ts) = t.chars ++ text ts := rfl

@[simp] theorem text_append (ts us : List (LogicToken α)) :
    text (ts ++ us) = text ts ++ text us :=
  List.flatMap_append

end LogicToken

namespace Formula

variable {α : Type}

/-- Whether a condition holds where each atom has a truth value. -/
def holds (σ : α → Bool) : Formula α → Bool
  | .atom a => σ a
  | .not f => !f.holds σ
  | .connect op left right => op.holds (left.holds σ) (right.holds σ)

/-! ## Reading -/

/-- An operand with the negations in front of it. -/
def negated : Nat → Formula α → Formula α
  | 0, f => f
  | n + 1, f => negated n (.not f)

/-- A right operand with what waits for it. -/
def onto (op : BooleanOp) : Option (Formula α) → Formula α → Formula α
  | none, f => f
  | some left, f => .connect op left f

/-- What waits for an operand. -/
structure Waiting (α : Type) where
  disjunction : Option (Formula α)
  conjunction : Option (Formula α)
  /-- How often the operand is negated. -/
  negations : Nat

namespace Waiting

def empty : Waiting α := ⟨none, none, 0⟩

def close (w : Waiting α) (f : Formula α) : Formula α :=
  onto .or w.disjunction (onto .and w.conjunction f)

/-- A connective behind an operand. -/
def add (w : Waiting α) (f : Formula α) : BooleanOp → Waiting α
  | .and => ⟨w.disjunction, some (onto .and w.conjunction f), 0⟩
  | .or => ⟨some (w.close f), none, 0⟩

end Waiting

structure State (α : Type) where
  /-- The operand that has been read, if none is expected. -/
  operand : Option (Formula α)
  here : Waiting α
  /-- What waits around each of the open brackets, the innermost first. -/
  outer : List (Waiting α)

namespace State

/-- Before an operand. -/
def before (here : Waiting α) (outer : List (Waiting α)) : State α :=
  ⟨none, here, outer⟩

/-- Behind an operand, to which the negations in front of it apply. -/
def behind (f : Formula α) (here : Waiting α) (outer : List (Waiting α)) : State α :=
  ⟨some (negated here.negations f), { here with negations := 0 }, outer⟩

def step (s : State α) (token : LogicToken α) : Option (State α) :=
  match s.operand, token with
  | none, .atom a _ => some (behind (.atom a) s.here s.outer)
  | none, .not => some (before { s.here with negations := s.here.negations + 1 } s.outer)
  | none, .opening => some (before .empty (s.here :: s.outer))
  | some f, .connective op => some (before (s.here.add f op) s.outer)
  | some f, .closing =>
    match s.outer with
    | here :: outer => some (behind (s.here.close f) here outer)
    | [] => none
  | _, _ => none

end State

/-- The condition that some tokens are, if they are one. -/
def read (tokens : List (LogicToken α)) : Option (Formula α) := do
  match ← tokens.foldlM State.step (State.before .empty []) with
  | ⟨some f, here, []⟩ => some (here.close f)
  | _ => none

/-- `NOT a OR b AND c`. -/
example (a b c : α) (s s' s'' : List Char) :
    read [.not, .atom a s, .connective .or, .atom b s', .connective .and, .atom c s''] =
      some (.connect .or (.not (.atom a)) (.connect .and (.atom b) (.atom c))) := rfl

end Formula

/-! ## Operands -/

section

open Formula

variable {α : Type} {tokens tokens' : List (LogicToken α)} {truth truth' : (α → Bool) → Bool}

/-- Tokens that are read as an operand, whatever waits for it. -/
def ReadsOperand (tokens : List (LogicToken α)) (truth : (α → Bool) → Bool) : Prop :=
  ∃ f, (∀ σ, f.holds σ = truth σ) ∧ ∀ here outer,
    tokens.foldlM State.step (State.before here outer) = some (State.behind f here outer)

/-- Tokens that are read as a condition, where nothing waits for it. -/
def ReadsWhole (tokens : List (LogicToken α)) (truth : (α → Bool) → Bool) : Prop :=
  ∃ f here, (∀ σ, (here.close f).holds σ = truth σ) ∧ ∀ outer,
    tokens.foldlM State.step (State.before .empty outer) = some ⟨some f, here, outer⟩

theorem ReadsWhole.read (h : ReadsWhole tokens truth) :
    ∃ f, read tokens = some f ∧ ∀ σ, f.holds σ = truth σ := by
  obtain ⟨f, here, hholds, hfold⟩ := h
  refine ⟨here.close f, ?_, hholds⟩
  rw [Formula.read, hfold]
  rfl

theorem ReadsOperand.whole (h : ReadsOperand tokens truth) : ReadsWhole tokens truth := by
  obtain ⟨f, hholds, hfold⟩ := h
  exact ⟨f, .empty, hholds, hfold .empty⟩

theorem readsOperand_atom (a : α) (text : List Char) :
    ReadsOperand [.atom a text] fun σ => σ a :=
  ⟨.atom a, fun _ => rfl, fun _ _ => rfl⟩

theorem ReadsOperand.not (h : ReadsOperand tokens truth) :
    ReadsOperand (.not :: tokens) fun σ => !truth σ := by
  obtain ⟨f, hholds, hfold⟩ := h
  refine ⟨.not f, fun σ => by rw [holds, hholds], fun here outer => ?_⟩
  have hnot : State.step (State.before here outer) .not =
      some (State.before { here with negations := here.negations + 1 } outer) := rfl
  rw [List.foldlM_cons, hnot, Option.bind_eq_bind, Option.bind_some, hfold]
  rfl

theorem ReadsWhole.bracket (h : ReadsWhole tokens truth) :
    ReadsOperand (.opening :: (tokens ++ [.closing])) truth := by
  obtain ⟨f, inner, hholds, hfold⟩ := h
  refine ⟨inner.close f, hholds, fun here outer => ?_⟩
  have hopen : State.step (State.before here outer) .opening =
      some (State.before .empty (here :: outer)) := rfl
  have hclose : State.step ⟨some f, inner, here :: outer⟩ .closing =
      some (State.behind (inner.close f) here outer) := rfl
  rw [List.foldlM_cons, hopen, Option.bind_eq_bind, Option.bind_some, List.foldlM_append, hfold,
    Option.bind_eq_bind, Option.bind_some, List.foldlM_cons, hclose]
  rfl

/-! ## Chains -/

/-- An operand with a connective behind it, and what waits then. Before a conjunction goes on, no
disjunction may wait. -/
theorem Formula.Waiting.close_add (op : BooleanOp) {w : Waiting α}
    (hop : op = .and → w.disjunction = none) (f g : Formula α) (σ : α → Bool) :
    ((w.add f op).close g).holds σ = op.holds ((w.close f).holds σ) (g.holds σ) ∧
      (op = .and → (w.add f op).disjunction = none) := by
  cases op with
  | and =>
    have hnone := hop rfl
    exact ⟨by rw [add, close, close, hnone]; rfl, fun _ => hnone⟩
  | or => exact ⟨rfl, nofun⟩

/-- What is read of more operands with a connective in front of each. -/
theorem foldlM_chain (op : BooleanOp) {w : Waiting α} (hop : op = .and → w.disjunction = none)
    (f : Formula α) {more : List (List (LogicToken α) × ((α → Bool) → Bool))}
    (hmore : ∀ p ∈ more, ReadsOperand p.1 p.2) :
    ∃ g here, (∀ σ, (Waiting.close here g).holds σ =
        op.join ((w.close f).holds σ :: more.map (·.2 σ))) ∧
      ∀ outer, (more.flatMap fun p => .connective op :: p.1).foldlM State.step ⟨some f, w, outer⟩ =
        some ⟨some g, here, outer⟩ := by
  induction more generalizing w f with
  | nil => exact ⟨f, w, fun σ => (op.join_singleton _).symm, fun _ => rfl⟩
  | cons p more ih =>
    obtain ⟨⟨g, hg, hfold⟩, hmore⟩ := List.forall_mem_cons.1 hmore
    have hadd (σ : α → Bool) := Waiting.close_add op hop f g σ
    -- What has been read so far waits for the next operand, and says what all of it says.
    obtain ⟨last, here, hlast, hrest⟩ := ih (hadd fun _ => true).2 g hmore
    refine ⟨last, here, fun σ => ?_, fun outer => ?_⟩
    · rw [hlast, (hadd σ).1, op.join_holds, hg, List.map_cons]
    · have hconnective : State.step ⟨some f, w, outer⟩ (.connective op) =
          some (State.before (w.add f op) outer) := rfl
      have hbehind : State.behind g (w.add f op) outer = ⟨some g, w.add f op, outer⟩ := by
        cases op <;> rfl
      rw [List.flatMap_cons, List.cons_append, List.foldlM_cons, hconnective, Option.bind_eq_bind,
        Option.bind_some, List.foldlM_append, hfold, hbehind, Option.bind_eq_bind,
        Option.bind_some, hrest]

theorem ReadsOperand.chain (op : BooleanOp) (h : ReadsOperand tokens truth)
    {more : List (List (LogicToken α) × ((α → Bool) → Bool))}
    (hmore : ∀ p ∈ more, ReadsOperand p.1 p.2) :
    ReadsWhole (tokens ++ more.flatMap fun p => .connective op :: p.1) fun σ =>
      op.join (truth σ :: more.map (·.2 σ)) := by
  obtain ⟨f, hf, hfold⟩ := h
  obtain ⟨g, here, hholds, hchain⟩ := foldlM_chain op (w := .empty) (fun _ => rfl) f hmore
  refine ⟨g, here, fun σ => ?_, fun outer => ?_⟩
  · dsimp only
    rw [hholds, ← hf]
    rfl
  · have hbehind : State.behind f .empty outer = ⟨some f, .empty, outer⟩ := rfl
    rw [List.foldlM_append, hfold, hbehind, Option.bind_eq_bind, Option.bind_some, hchain]

end

end PolyglotSql
