import FilterQuery.Value.Number

/-!
# Sameness of values

Two values are the same when they are of one kind and have the same parts, with three exceptions:
numbers and truth values are compared as numbers, an operator or a conjunction is the same as its
name, and a set is the same as an immutable set of the same members. What is not a number is not
the same as anything, itself included.
-/

namespace FilterQuery

namespace Policy

def sameNames (xs ys : List String) : Bool :=
  xs.all ys.contains && ys.all xs.contains

/-- Allow and deny lists count as sets, required fields as a list. -/
def same (p q : Policy) : Bool :=
  sameNames p.allow q.allow && sameNames p.deny q.deny && p.require == q.require

end Policy

namespace Value

/-- Sameness of values without parts that are neither integers nor strings. -/
def sameAtom : Value → Value → Bool
  | null, null => true
  | float a, float b => a == b && a != "nan"
  | policy p, policy q => p.same q
  | _, _ => false

def sameScalar (v w : Value) : Bool :=
  match v.number?, w.number? with
  | some m, some n => m == n
  | _, _ =>
    match v.string?, w.string? with
    | some a, some b => a == b
    | _, _ => sameAtom v w

mutual

def same : Value → Value → Bool
  | list xs, list ys => sameItems xs ys
  | tuple xs, tuple ys => sameItems xs ys
  | set xs, set ys | set xs, sealedSet ys | sealedSet xs, set ys | sealedSet xs, sealedSet ys =>
      xs.length == ys.length && sameMembers xs ys
  | mapping xs, mapping ys => xs.length == ys.length && sameEntries xs ys
  | target h t, target h' t' => same h h' && sameItems t t'
  | range a b, range a' b' => same a a' && same b b'
  | like a, like a' => same a a'
  | clause a b c, clause a' b' c' => same a a' && same b b' && same c c'
  | statement a b, statement a' b' => same a a' && same b b'
  | filter xs, filter ys => sameItems xs ys
  | v, w => sameScalar v w
termination_by structural v => v

def sameItems : List Value → List Value → Bool
  | [], [] => true
  | x :: xs, y :: ys => same x y && sameItems xs ys
  | _, _ => false
termination_by structural xs => xs

/-- Every member of the first list is among those of the second. -/
def sameMembers : List Value → List Value → Bool
  | [], _ => true
  | x :: xs, ys => ys.any (fun y => same x y) && sameMembers xs ys
termination_by structural xs => xs

/-- Every entry of the first list has the same value under its key in the second. -/
def sameEntries : List (String × Value) → List (String × Value) → Bool
  | [], _ => true
  | (key, x) :: xs, ys =>
      (match ys.lookup key with
        | some y => same x y
        | none => false) && sameEntries xs ys
termination_by structural xs => xs

end

/-- The members of a set given as a list: of several that are the same, the first stays. -/
def distinct (members : List Value) : List Value :=
  members.foldl (fun kept v => if kept.any (same v) then kept else kept ++ [v]) []

end Value
end FilterQuery
