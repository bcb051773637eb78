import FilterQuery.Policy.Settings

/-!
# Resolving targets

A resolver turns the targets of one conversion into keys. It asks the policy about a target's field
first, then looks at the segments, and records the field of every target it accepts, each field
once, in the order of first mention. A refused target leaves no record. What is looked at is text,
so the field and then the other segments have to be writable.
-/

namespace FilterQuery

/-- The fields that have been met: a set to look them up in and a list in the order of first
mention, two copies that always have the same members. -/
structure FieldRecord where
  seen : List String
  fields : List String
  mem_seen_iff : ∀ field, field ∈ seen ↔ field ∈ fields

namespace FieldRecord

def empty : FieldRecord :=
  ⟨[], [], fun _ => Iff.rfl⟩

def add (record : FieldRecord) (field : String) : FieldRecord where
  seen := field :: record.seen
  fields := record.fields ++ [field]
  mem_seen_iff other := by simp [record.mem_seen_iff, or_comm]

/-- Fields in the order of first mention stand for the record that has met them. -/
instance : Coe (List String) FieldRecord :=
  ⟨fun fields => ⟨fields.reverse, fields, fun _ => List.mem_reverse⟩⟩

end FieldRecord

structure Resolver where
  policy : Policy
  recorded : FieldRecord

namespace Resolver

def start (p : Policy) : Resolver :=
  ⟨p, .empty⟩

def fields (r : Resolver) : List String :=
  r.recorded.fields

def hasField (r : Resolver) (field : String) : Bool :=
  r.recorded.seen.contains field

def record (r : Resolver) (field : String) : Resolver :=
  if r.hasField field then r else { r with recorded := r.recorded.add field }

/-- The key of a target, if the policy permits its field and its segments are legal. -/
def keyOf (p : Policy) (t : Target) : Except Fault String := do
  t.head.requireWritable
  p.check t.field
  t.toValue.requireWritable
  if t.isLegal then .ok t.key else .error (.invalidTarget t)

def resolve (r : Resolver) (t : Target) : Except Fault String × Resolver :=
  match keyOf r.policy t with
  | .ok key => (.ok key, r.record t.field)
  | .error fault => (.error fault, r)

@[simp] theorem policy_record (r : Resolver) (field : String) :
    (r.record field).policy = r.policy := by
  unfold record
  split <;> rfl

theorem hasField_iff (r : Resolver) (field : String) :
    r.hasField field = true ↔ field ∈ r.fields := by
  rw [hasField, List.contains_iff_mem]
  exact r.recorded.mem_seen_iff field

@[simp] theorem mem_fields_record (r : Resolver) (field other : String) :
    other ∈ (r.record field).fields ↔ other ∈ r.fields ∨ other = field := by
  unfold record
  split
  · rename_i known
    have mem := (r.hasField_iff field).1 known
    constructor
    · exact .inl
    · rintro (h | rfl)
      · exact h
      · exact mem
  · simp [fields, FieldRecord.add]

@[simp] theorem policy_resolve (r : Resolver) (t : Target) :
    (r.resolve t).2.policy = r.policy := by
  unfold resolve
  split <;> simp

end Resolver

/-- A computation that resolves targets and may fail; a failure keeps the record made so far. -/
abbrev Resolving := ExceptT Fault (StateM Resolver)

namespace Resolving

variable {α β : Type}

def resolve (t : Target) : Resolving String :=
  ExceptT.mk (modifyGet fun r => r.resolve t)

/-- A result that does not depend on what has been resolved. -/
def ofExcept (result : Except Fault α) : Resolving α :=
  ExceptT.mk (pure result)

def runFrom (r : Resolver) (m : Resolving α) : Except Fault α × Resolver :=
  StateT.run (ExceptT.run m) r

@[simp] theorem runFrom_resolve (r : Resolver) (t : Target) :
    (resolve t).runFrom r = r.resolve t := rfl

@[simp] theorem runFrom_ofExcept (r : Resolver) (result : Except Fault α) :
    (ofExcept result).runFrom r = (result, r) := rfl

@[simp] theorem runFrom_pure (r : Resolver) (a : α) :
    (pure a : Resolving α).runFrom r = (.ok a, r) := rfl

theorem runFrom_bind (r : Resolver) (m : Resolving α) (next : α → Resolving β) :
    (m >>= next).runFrom r =
      match m.runFrom r with
      | (.ok a, r') => (next a).runFrom r'
      | (.error fault, r') => (.error fault, r') := by
  simp only [runFrom, ExceptT.run_bind, StateT.run_bind]
  cases (StateT.run (ExceptT.run m) r) with
  | mk result r' => cases result <;> rfl

end Resolving
end FilterQuery
