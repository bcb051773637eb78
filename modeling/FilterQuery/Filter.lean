import FilterQuery.Clause.Basic
import FilterQuery.Query.Document

/-!
# Filters and their conversion

A filter is a list of statements; a statement joins a clause or a nested filter to what stands
before it. Conversion compiles the statements from left to right and stops at the first fault. At
the end every required field has to be among those that the filter mentions.
-/

namespace FilterQuery

structure Filter where
  statements : List Value
  deriving Inhabited

namespace Filter

def toValue (f : Filter) : Value :=
  .filter f.statements

/-- The filter of what a value yields when it is run through. -/
def ofValue (v : Value) : Except Fault Filter :=
  match v.elements? with
  | some statements => .ok ⟨statements⟩
  | none => .error (.badKind (.notIterable v))

def readConjunction (v : Value) : Except Fault Conjunction :=
  match v.conjunction? with
  | some c => .ok c
  | none => .error (.showing v (.convert (.unknownConjunction v)))

mutual

def compileContent : Value → Resolving (Query String)
  | .filter statements => return .ofStatements (← compileStatements statements)
  | .clause subject op object => Clause.compile ⟨subject, op, object⟩
  | _ => throw (.convert .malformed)
termination_by structural v => v

def compileStatement : Value → Resolving (Conjunction × Query String)
  | .statement content conj => do
    let c ← Resolving.ofExcept (readConjunction conj)
    let query ← compileContent content
    return (c, query)
  | _ => throw (.convert .malformed)
termination_by structural v => v

def compileStatements : List Value → Resolving (List (Conjunction × Query String))
  | [] => return []
  | v :: vs => do
    let first ← compileStatement v
    let rest ← compileStatements vs
    return first :: rest
termination_by structural vs => vs

end

def compile (f : Filter) : Resolving (Query String) :=
  return .ofStatements (← compileStatements f.statements)

end Filter

/-- The outcome of a conversion: the fields that the filter mentions, in the order of first
mention, and the query. -/
structure Conversion where
  fields : List String
  query : Query String
  deriving Inhabited

def Conversion.document (c : Conversion) : Value :=
  Document.single "filter" c.query.document

namespace Filter

def missingField? (r : Resolver) : Option String :=
  r.policy.require.find? fun field => !r.hasField field

def convert (f : Filter) (p : Policy) : Except Fault Conversion :=
  match f.compile.runFrom (Resolver.start p) with
  | (.error fault, _) => .error fault
  | (.ok query, r) =>
    match missingField? r with
    | some field => .error (.required field)
    | none => .ok ⟨r.fields, query⟩

end Filter

namespace Value

/-- Converts a value that has to be a filter under one that has to be a policy or null. -/
def convert (filter policy : Value) : Except Fault Conversion :=
  match filter, policy with
  | .filter statements, .null => Filter.convert ⟨statements⟩ .unrestricted
  | .filter statements, .policy p => Filter.convert ⟨statements⟩ p
  | .filter _, _ => .error (.badKind .notPolicy)
  | _, _ => .error (.badKind .notFilter)

end Value
end FilterQuery
