import FilterQuery.Clause.Fragment
import FilterQuery.Resolver

/-!
# Clauses

A clause compares a subject with an object. Two targets are compared by a script over the two
fields, two literals by a script over parameters. A target and a literal are compared by a query on
the target's field; when the target is the object, the operands are exchanged first and orderings
turn around.
-/

namespace FilterQuery

structure Clause where
  subject : Value
  operator : Value
  object : Value
  deriving Inhabited

namespace Clause

def toValue (c : Clause) : Value :=
  .clause c.subject c.operator c.object

def readOperator (v : Value) : Except Fault Operator :=
  match v.operator? with
  | some op => .ok op
  | none => .error (.showing v (.convert (.unknownOperator v)))

/-- Moves a target from the object to the subject; any other clause stays as it is. -/
def targetFirst (c : Clause) : Except Fault Clause :=
  match c.object.target? with
  | none => .ok c
  | some _ => return ⟨c.object, .operator (← readOperator c.operator).inverse, c.subject⟩

/-- Compares the field of a target with a literal. The operator and the shape of the operand are
checked before the target is resolved. -/
def compileTargeted (t : Target) (op : Operator) (v : Value) : Resolving (Query String) := do
  Resolving.ofExcept (Operand.check op v)
  let key ← Resolving.resolve t
  Resolving.ofExcept (Fragment.ofTargeted key op v)

def compile (c : Clause) : Resolving (Query String) :=
  match c.subject.target?, c.object.target? with
  | some subject, some object => do
    let subject ← Resolving.resolve subject
    let object ← Resolving.resolve object
    let op ← Resolving.ofExcept (readOperator c.operator)
    Resolving.ofExcept (Fragment.ofFields subject op object)
  | none, none => do
    let op ← Resolving.ofExcept (readOperator c.operator)
    Resolving.ofExcept (Fragment.ofLiterals op c.subject c.object)
  | some t, none | none, some t => do
    let c ← Resolving.ofExcept c.targetFirst
    let op ← Resolving.ofExcept (readOperator c.operator)
    compileTargeted t op c.object

end Clause

namespace Value

def clause? : Value → Option Clause
  | clause subject op object => some ⟨subject, op, object⟩
  | _ => none

end Value
end FilterQuery
