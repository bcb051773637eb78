import FilterQuery.Fault

/-!
# Operands

Some operators need an operand of a certain shape: a range test needs a range, a pattern match a
pattern given as a string, and a membership test a list or a tuple. An operand of another shape makes
the clause malformed; other operators take any operand.
-/

namespace FilterQuery

namespace Operator

def testsRange : Operator → Bool
  | between | outside => true
  | _ => false

def matchesPattern : Operator → Bool
  | like | unlike => true
  | _ => false

def testsMembership : Operator → Bool
  | among | notAmong => true
  | _ => false

end Operator

namespace Value

def bounds? : Value → Option (Value × Value)
  | range lower upper => some (lower, upper)
  | _ => none

/-- Whether a value is a pattern given as a string or something that counts as one. -/
def isPattern : Value → Bool
  | like pattern => pattern.string?.isSome
  | _ => false

def members? : Value → Option (List Value)
  | list items | tuple items => some items
  | _ => none

end Value

namespace Operand

def require (shaped : Bool) : Except Fault Unit :=
  if shaped then .ok () else .error (.convert .malformed)

def checkRange (op : Operator) (v : Value) : Except Fault Unit :=
  require (!op.testsRange || v.bounds?.isSome)

def checkPattern (op : Operator) (v : Value) : Except Fault Unit :=
  require (!op.matchesPattern || v.isPattern)

def checkMembers (op : Operator) (v : Value) : Except Fault Unit :=
  require (!op.testsMembership || v.members?.isSome)

/-- All three checks; a clause does not get as far as its field when one of them fails. -/
def check (op : Operator) (v : Value) : Except Fault Unit := do
  checkRange op v
  checkPattern op v
  checkMembers op v

end Operand
end FilterQuery
