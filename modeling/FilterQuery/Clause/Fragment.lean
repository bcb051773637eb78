import FilterQuery.Clause.Operand
import FilterQuery.Pattern
import FilterQuery.Query.Basic

/-!
# Fragments of one comparison

Four compilers turn a comparison of a field with a literal into a query: one for the comparisons
with null, one for comparisons and range tests, one for patterns and one for membership. A compiler
that is not meant for the operator gives no query, and the first one that gives a query decides.
-/

namespace FilterQuery
namespace Fragment

variable {κ : Type}

/-- Whether a comparison with null asks for the presence of the field or for its absence. -/
def asksPresence : Comparison → Bool
  | .neq | .gt | .gte => true
  | .eq | .lt | .lte => false

def ofNull? (key : κ) (op : Operator) (v : Value) : Option (Query κ) :=
  match op, v with
  | .compare c, .null => some (if asksPresence c then .present key else .not (.present key))
  | _, _ => none

def compared (key : κ) (c : Comparison) (v : Value) : Query κ :=
  match c with
  | .eq => .term key v
  | .neq => .not (.term key v)
  | .gt => .range key [(.gt, v)]
  | .gte => .range key [(.gte, v)]
  | .lt => .range key [(.lt, v)]
  | .lte => .range key [(.lte, v)]

def withinBounds (key : κ) (v : Value) : Except Fault (Query κ) :=
  match v.bounds? with
  | some (lower, upper) => .ok (.range key [(.gte, lower), (.lte, upper)])
  | none => .error (.convert .malformed)

def ofComparison? (key : κ) (op : Operator) (v : Value) : Except Fault (Option (Query κ)) :=
  match op with
  | .compare c => .ok (some (compared key c v))
  | .between => return some (← withinBounds key v)
  | .outside => return some (.not (← withinBounds key v))
  | _ => .ok none

/-- The regular expression of a pattern; a pattern that is no string counts by its text. -/
def regexpOf (pattern : Value) : String :=
  Pattern.regexp pattern.text

def matching (key : κ) (v : Value) : Except Fault (Query κ) :=
  match v with
  | .like pattern =>
      if pattern.string?.isSome then .ok (.regexp key (regexpOf pattern))
      else .error (.convert .malformed)
  | _ => .error (.convert .malformed)

def ofPattern? (key : κ) (op : Operator) (v : Value) : Except Fault (Option (Query κ)) :=
  match op with
  | .like => return some (← matching key v)
  | .unlike => return some (.not (← matching key v))
  | _ => .ok none

def oneOf (key : κ) (v : Value) : Except Fault (Query κ) :=
  match v.members? with
  | some items => .ok (.terms key items)
  | none => .error (.convert .malformed)

def ofMembership? (key : κ) (op : Operator) (v : Value) : Except Fault (Option (Query κ)) :=
  match op with
  | .among => return some (← oneOf key v)
  | .notAmong => return some (.not (← oneOf key v))
  | _ => .ok none

/-- A compiler passes keys through unread. -/
abbrev Compiler (κ : Type) := κ → Operator → Value → Except Fault (Option (Query κ))

def compilers : List (Compiler κ) :=
  [fun key op v => .ok (ofNull? key op v), ofComparison?, ofPattern?, ofMembership?]

def firstOf (key : κ) (op : Operator) (v : Value) :
    List (Compiler κ) → Except Fault (Option (Query κ))
  | [] => .ok none
  | compiler :: rest => do
    match ← compiler key op v with
    | some query => return some query
    | none => firstOf key op v rest

def ofTargeted (key : κ) (op : Operator) (v : Value) : Except Fault (Query κ) := do
  match ← firstOf key op v compilers with
  | some query => return query
  | none => throw (.convert (.unknownOperator (.operator op)))

/-- Scripts know the six comparisons only. -/
def comparison (op : Operator) : Except Fault Comparison :=
  match op with
  | .compare c => .ok c
  | _ => .error (.convert .malformed)

def ofFields (subject : κ) (op : Operator) (object : κ) : Except Fault (Query κ) :=
  return .compareFields subject (← comparison op) object

def ofLiterals (op : Operator) (subject object : Value) : Except Fault (Query κ) :=
  return .compareLiterals subject (← comparison op) object

end Fragment
end FilterQuery
