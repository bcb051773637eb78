import FilterQuery.Filter
import FilterQuery.Target.Reading

/-!
# Drafts

A draft is a filter in the making. Statements are added to the innermost open group, or to the top
level when no group is open, and closing a group adds it as a nested filter to what surrounds it. An
empty group cannot be added: closing it fails, and the group is dropped all the same.
-/

namespace FilterQuery

structure OpenGroup where
  /-- Joins the group to what stands before it, once it is closed. -/
  conjunction : Conjunction
  statements : List Value
  deriving Inhabited

structure Draft where
  statements : List Value
  /-- The open groups, the innermost first. -/
  groups : List OpenGroup
  deriving Inhabited

namespace Draft

def empty : Draft :=
  ⟨[], []⟩

def append (d : Draft) (content : Value) (c : Conjunction) : Draft :=
  let statement := Value.statement content (.conjunction c)
  match d.groups with
  | [] => { d with statements := d.statements ++ [statement] }
  | group :: outer =>
    { d with groups := { group with statements := group.statements ++ [statement] } :: outer }

inductive Call where
  /-- Adds the clause that compares what a subject refers to with a value. -/
  | compare (conjunction : Conjunction) (subject operator value : Value)
  | add (content conjunction : Value)
  | openGroup (conjunction : Conjunction)
  | closeGroup
  | build
  | reset

inductive Outcome where
  | done
  | built (filter : Filter)

def readOperator (v : Value) : Except Fault Operator :=
  match v.operator? with
  | some op => .ok op
  | none => .error (.showing v (.badValue (.notOperator v)))

def readConjunction (v : Value) : Except Fault Conjunction :=
  match v.conjunction? with
  | some c => .ok c
  | none => .error (.showing v (.badValue (.notConjunction v)))

/-- The clause of a comparison; the subject is read before the operator. -/
def readClause (subject operator value : Value) : Except Fault Clause := do
  let target ← Target.coerce subject
  let op ← readOperator operator
  return ⟨target.toValue, .operator op, value⟩

def compare (d : Draft) (c : Conjunction) (subject operator value : Value) :
    Except Fault Outcome × Draft :=
  match readClause subject operator value with
  | .ok clause => (.ok .done, d.append clause.toValue c)
  | .error fault => (.error fault, d)

def add (d : Draft) (content conjunction : Value) : Except Fault Outcome × Draft :=
  match readConjunction conjunction with
  | .ok c => (.ok .done, d.append content c)
  | .error fault => (.error fault, d)

def openGroup (d : Draft) (c : Conjunction) : Draft :=
  { d with groups := ⟨c, []⟩ :: d.groups }

def closeGroup (d : Draft) : Except Fault Outcome × Draft :=
  match d.groups with
  | [] => (.error (.badValue .noOpenGroup), d)
  | group :: outer =>
    let rest := { d with groups := outer }
    match group.statements with
    | [] => (.error (.badValue .emptyGroup), rest)
    | statements => (.ok .done, rest.append (.filter statements) group.conjunction)

def build (d : Draft) : Except Fault Filter :=
  match d.groups, d.statements with
  | [], [] => .error (.badValue .nothingAdded)
  | [], statements => .ok ⟨statements⟩
  | groups, _ => .error (.badValue (.openGroups groups.length))

/-- Carries out a call; the draft that it leaves is given also when the call fails. -/
def perform (d : Draft) : Call → Except Fault Outcome × Draft
  | .compare c subject op value => d.compare c subject op value
  | .add content conj => d.add content conj
  | .openGroup c => (.ok .done, d.openGroup c)
  | .closeGroup => d.closeGroup
  | .build => (d.build.map .built, d)
  | .reset => (.ok .done, empty)

end Draft
end FilterQuery
