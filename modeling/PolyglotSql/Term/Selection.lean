import PolyglotSql.Term.Basic

/-!
# PolyglotSql.Term.Selection

A select under construction: its clauses are collected in any order and written into a term in the
order of SQL. Every select carries a row limiting clause, which limits nothing when both its
numbers are zero.
-/

namespace PolyglotSql

/-- The clauses of a select. -/
structure Selection where
  distinct : Bool
  results : List Term
  sources : List Term
  condition : Option Term
  groups : List Term
  having : Option Term
  orders : List Term
  limit : UInt64
  offset : UInt64
deriving Inhabited

namespace Selection

def empty : Selection :=
  { distinct := false, results := [], sources := [], condition := none, groups := [],
    having := none, orders := [], limit := 0, offset := 0 }

def addResults (s : Selection) (results : List Term) : Selection :=
  { s with results := s.results ++ results }

def addResult (s : Selection) (result : Term) : Selection :=
  s.addResults [result]

def addSource (s : Selection) (source : Term) : Selection :=
  { s with sources := s.sources ++ [source] }

def addJoin (s : Selection) (kind : JoinKind) (table : Term) (condition : Option Term) :
    Selection :=
  s.addSource (Term.of (.join kind) (table :: condition.toList))

/-- Both of two conditions, of which the first may be missing. -/
def conjoin (existing : Option Term) (condition : Term) : Term :=
  match existing with
  | some existing => Term.connect .and existing condition
  | none => condition

def addWhere (s : Selection) (condition : Term) : Selection :=
  { s with condition := some (conjoin s.condition condition) }

def addGroup (s : Selection) (group : Term) : Selection :=
  { s with groups := s.groups ++ [group] }

def addHaving (s : Selection) (condition : Term) : Selection :=
  { s with having := some (conjoin s.having condition) }

/-- Adds a sorting term; a plain term sorts ascending. -/
def addOrder (s : Selection) (order : Term) : Selection :=
  let term := match order.node with
    | .ordering _ => order
    | _ => order.ordered .ascending
  { s with orders := s.orders ++ [term] }

/-- A clause over terms, left out when there are none. -/
def clause (node : Node) (terms : List Term) : List Term :=
  if terms.isEmpty then [] else [Term.of node terms]

def toTerm (s : Selection) : Term :=
  Term.of .select
    ((if s.distinct then [Term.leaf .distinct] else [])
      ++ [Term.of .result s.results]
      ++ clause .fromClause s.sources
      ++ clause .whereClause s.condition.toList
      ++ clause .groupBy s.groups
      ++ clause .having s.having.toList
      ++ clause .orderBy s.orders
      ++ [Term.leaf (.limitOffset s.limit s.offset)])

end Selection
end PolyglotSql
