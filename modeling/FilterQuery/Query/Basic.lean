import FilterQuery.Value.Basic

/-!
# Queries

A query selects documents. Its leaves test one field by its key or compare two operands in a
script; queries are combined by negation, conjunction and disjunction. Keys are dotted texts in the
queries of filters, and nothing here depends on what they are. The statements of a filter combine
with conjunctions binding tighter than disjunctions: they are gathered from left to right into runs,
a statement that is joined by `or` begins a new run, the members of a run are required together, and
one run is enough.
-/

namespace FilterQuery

inductive Bound where
  | gt
  | gte
  | lt
  | lte
  deriving DecidableEq, Repr

def Bound.name : Bound → String
  | gt => "gt"
  | gte => "gte"
  | lt => "lt"
  | lte => "lte"

inductive Query (κ : Type) where
  | term (key : κ) (value : Value)
  | range (key : κ) (bounds : List (Bound × Value))
  | terms (key : κ) (values : List Value)
  | regexp (key : κ) (pattern : String)
  | present (key : κ)
  | compareFields (subject : κ) (c : Comparison) (object : κ)
  | compareLiterals (subject : Value) (c : Comparison) (object : Value)
  | not (query : Query κ)
  | all (queries : List (Query κ))
  | any (queries : List (Query κ))

/-- Statements on their way into runs: the runs that are closed, and the members of the open one. -/
structure Grouping (α : Type) where
  closed : List (List α)
  current : List α

namespace Grouping

variable {α : Type}

def start : Grouping α :=
  ⟨[], []⟩

/-- A member that is joined by `or` closes the open run, unless that has no member yet. -/
def join (g : Grouping α) (s : Conjunction × α) : Grouping α :=
  if s.1 = .or ∧ !g.current.isEmpty then ⟨g.closed ++ [g.current], [s.2]⟩
  else { g with current := g.current ++ [s.2] }

end Grouping

namespace Query

variable {κ : Type}

instance : Inhabited (Query κ) := ⟨all []⟩

/-- A single run needs no disjunction around it, and an empty filter is an empty conjunction. -/
def ofGrouping (g : Grouping (Query κ)) : Query κ :=
  if g.closed.isEmpty then all g.current else any ((g.closed ++ [g.current]).map all)

def ofStatements (statements : List (Conjunction × Query κ)) : Query κ :=
  ofGrouping (statements.foldl Grouping.join .start)

end Query
end FilterQuery
