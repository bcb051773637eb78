import FilterQuery.Fault
import FilterQuery.Value.Same

/-!
# The members of sets

The members of a set are looked up, so a member must not be able to change. Lists, sets and mappings
can, and so can every value with such a part; an immutable set has been checked when it was made.
-/

namespace FilterQuery
namespace Value

mutual

/-- The first part of a value that can change. -/
def changeable? : Value → Option Value
  | v@(list _) | v@(set _) | v@(mapping _) => some v
  | tuple items | filter items => firstChangeable? items
  | target head tail => head.changeable?.or (firstChangeable? tail)
  | range lower upper => lower.changeable?.or upper.changeable?
  | like pattern => pattern.changeable?
  | clause subject op object =>
      subject.changeable?.or (op.changeable?.or object.changeable?)
  | statement content conj => content.changeable?.or conj.changeable?
  | _ => none
termination_by structural v => v

def firstChangeable? : List Value → Option Value
  | [] => none
  | v :: vs => v.changeable?.or (firstChangeable? vs)
termination_by structural vs => vs

end

def requireFixed (v : Value) : Except Fault Unit :=
  match v.changeable? with
  | some part => .error (.badKind (.canChange part))
  | none => .ok ()

def readMembers (vs : List Value) : Except Fault (List Value) :=
  match firstChangeable? vs with
  | some part => .error (.badKind (.canChange part))
  | none => .ok (distinct vs)

end Value
end FilterQuery
