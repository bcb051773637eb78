/-!
# Field policies

A policy says which top-level fields a filter may mention and which it must mention. An allow
list, when it has entries, admits its own entries only; a deny list refuses its entries. A policy
never has both.
-/

namespace FilterQuery

structure Policy where
  allow : List String
  deny : List String
  /-- Fields that must be mentioned, in the order in which their absence is reported. -/
  require : List String
  exclusive : allow = [] ∨ deny = []
  deriving DecidableEq

namespace Policy

/-- Admits every field and asks for none. -/
def unrestricted : Policy := ⟨[], [], [], .inl rfl⟩

instance : Inhabited Policy := ⟨unrestricted⟩

inductive Rejection where
  | nonallowed
  | denied
  deriving DecidableEq, Repr

def rejection? (p : Policy) (field : String) : Option Rejection :=
  if p.allow ≠ [] ∧ field ∉ p.allow then some .nonallowed
  else if field ∈ p.deny then some .denied
  else none

def permits (p : Policy) (field : String) : Bool :=
  (p.rejection? field).isNone

theorem rejection?_eq_nonallowed_iff (p : Policy) (field : String) :
    p.rejection? field = some .nonallowed ↔ p.allow ≠ [] ∧ field ∉ p.allow := by
  unfold rejection?
  split
  · simp_all
  · split <;> simp_all

theorem rejection?_eq_denied_iff (p : Policy) (field : String) :
    p.rejection? field = some .denied ↔ field ∈ p.deny := by
  have exclusive := p.exclusive
  unfold rejection?
  split
  · simp_all
  · split <;> simp_all

end Policy
end FilterQuery
