/-!
# Operators and conjunctions

A clause compares two operands by an operator. Six operators are plain comparisons; the others
match a pattern, test a range or test membership, each with its negation. A conjunction joins a
statement to the one before it. Both are written by name, and the name determines them.
-/

namespace FilterQuery

inductive Comparison where
  | eq
  | neq
  | gt
  | gte
  | lt
  | lte
  deriving DecidableEq, Repr, Inhabited

namespace Comparison

def name : Comparison → String
  | eq => "eq"
  | neq => "neq"
  | gt => "gt"
  | gte => "gte"
  | lt => "lt"
  | lte => "lte"

/-- The comparison as scripts write it. -/
def symbol : Comparison → String
  | eq => "=="
  | neq => "!="
  | gt => ">"
  | gte => ">="
  | lt => "<"
  | lte => "<="

/-- The comparison that holds of the exchanged operands. -/
def flip : Comparison → Comparison
  | gt => lt
  | gte => lte
  | lt => gt
  | lte => gte
  | c => c

end Comparison

inductive Operator where
  | compare (c : Comparison)
  | like
  | unlike
  | between
  | outside
  | among
  | notAmong
  deriving DecidableEq, Repr, Inhabited

namespace Operator

def name : Operator → String
  | compare c => c.name
  | like => "like"
  | unlike => "nlike"
  | between => "between"
  | outside => "nbetween"
  | among => "in"
  | notAmong => "nin"

/-- The name in capitals, as displayed operators show it. -/
def label : Operator → String
  | compare .eq => "EQ"
  | compare .neq => "NEQ"
  | compare .gt => "GT"
  | compare .gte => "GTE"
  | compare .lt => "LT"
  | compare .lte => "LTE"
  | like => "LIKE"
  | unlike => "NLIKE"
  | between => "BETWEEN"
  | outside => "NBETWEEN"
  | among => "IN"
  | notAmong => "NIN"

def all : List Operator :=
  [compare .eq, compare .neq, compare .gt, compare .gte, compare .lt, compare .lte,
    like, unlike, between, outside, among, notAmong]

def ofName? (s : String) : Option Operator :=
  all.find? fun op => op.name = s

/-- The operator that replaces this one when the operands are exchanged, where it is another one.
Only the four orderings have such a partner. -/
def inverse? : Operator → Option Operator
  | compare c => if c.flip = c then none else some (compare c.flip)
  | _ => none

def inverse (op : Operator) : Operator :=
  op.inverse?.getD op

theorem ofName?_name (op : Operator) : ofName? op.name = some op := by
  cases op with
  | compare c => cases c <;> rfl
  | _ => rfl

@[simp] theorem inverse_compare (c : Comparison) : inverse (compare c) = compare c.flip := by
  cases c <;> rfl

end Operator

inductive Conjunction where
  | and
  | or
  deriving DecidableEq, Repr, Inhabited

namespace Conjunction

def name : Conjunction → String
  | and => "and"
  | or => "or"

def label : Conjunction → String
  | and => "AND"
  | or => "OR"

def ofName? (s : String) : Option Conjunction :=
  [and, or].find? fun c => c.name = s

theorem ofName?_name (c : Conjunction) : ofName? c.name = some c := by
  cases c <;> rfl

end Conjunction
end FilterQuery
