import FilterQuery.Proofs.Mentions
import FilterQuery.Proofs.Parts
import FilterQuery.Proofs.Scripts

/-!
# The record of a resolver

A resolver is asked about one target after the other, and it goes on after a target that it refuses.
What it answers depends on the policy and the target alone: the field is held against the policy
first, and the segments are looked at after that. A field or a segment that cannot be written is in
the way of both, unless the policy has refused the field before. What has been recorded follows from
the answers: the field of every accepted target, once and in the order of first acceptance, and
nothing else. A target whose field is permitted and which fails at a later segment leaves no trace.
-/

namespace FilterQuery

/-- Letters and digits are legal. -/
theorem Target.legal_of_alphanum {t : Target}
    (h : ∀ v ∈ t.path, ∀ c ∈ v.text.toList, c.isAlphanum = true) : t.Legal := by
  have hforbidden : forbiddenChars.all (fun c => !c.isAlphanum) = true := rfl
  rw [List.all_eq_true] at hforbidden
  intro s hs
  obtain ⟨v, hv, rfl⟩ := List.mem_map.mp hs
  refine ⟨fun c hc hmem => ?_, fun hhyphens => ?_⟩
  · simpa [h v hv c hc] using hforbidden c hmem
  · exact absurd (h v hv '-' (hhyphens.subset (by simp))) (by decide)

theorem Value.isAlphanum_of_mem_text (n : Nat) {c : Char}
    (h : c ∈ (Value.int n).text.toList) : c.isAlphanum = true := by
  have hdigits : (Value.int n).text.toList = Nat.toDigits 10 n := String.toList_ofList
  rw [hdigits] at h
  simp [Char.isAlphanum, Nat.isDigit_of_mem_toDigits (by decide) (by decide) h]

namespace Resolver

section Call

variable {r : Resolver} {t : Target}

/-- What can come of a call, in the order in which it is looked for. -/
inductive Call (r : Resolver) (t : Target) : Except Fault String × Resolver → Prop
  | longField : ¬ t.head.isWritable = true → Call r t (.error (.badValue .numberTooLong), r)
  | refused : t.head.isWritable = true → ¬ r.policy.Admits t.field →
      Call r t (.error (r.policy.refusal t.field), r)
  | longSegment : t.head.isWritable = true → r.policy.Admits t.field →
      ¬ t.toValue.isWritable = true → Call r t (.error (.badValue .numberTooLong), r)
  | illegal : t.toValue.isWritable = true → r.policy.Admits t.field → ¬ t.Legal →
      Call r t (.error (.invalidTarget t), r)
  | accepted : r.policy.Admits t.field → t.Resolvable → Call r t (.ok t.key, r.record t.field)

theorem call_resolve (r : Resolver) (t : Target) : Call r t (r.resolve t) := by
  by_cases hhead : t.head.isWritable = true
  · by_cases hfield : r.policy.Admits t.field
    · by_cases hwritable : t.toValue.isWritable = true
      · by_cases hlegal : t.Legal
        · rw [resolve_of_accepted hwritable hfield hlegal]
          exact .accepted hfield ⟨hwritable, hlegal⟩
        · rw [resolve_of_illegal hwritable hfield hlegal]
          exact .illegal hwritable hfield hlegal
      · rw [resolve_of_long_segment hhead hfield hwritable]
        exact .longSegment hhead hfield hwritable
    · rw [resolve_of_refused hhead hfield]
      exact .refused hhead hfield
  · rw [resolve_of_long_field hhead]
    exact .longField hhead

/-- A target is either refused, and then the resolver stays as it is, or accepted and recorded. -/
theorem resolve_cases (r : Resolver) (t : Target) :
    (∃ fault, r.resolve t = (.error fault, r)) ∨
      r.policy.Admits t.field ∧ t.Resolvable ∧ r.resolve t = (.ok t.key, r.record t.field) := by
  have hcall := r.call_resolve t
  generalize r.resolve t = result at hcall ⊢
  cases hcall with
  | accepted hfield ht => exact .inr ⟨hfield, ht, rfl⟩
  | _ => exact .inl ⟨_, rfl⟩

theorem resolve_of_error {fault : Fault} (h : (r.resolve t).1 = .error fault) :
    r.resolve t = (.error fault, r) := by
  obtain ⟨other, hrefused⟩ | ⟨-, -, haccepted⟩ := r.resolve_cases t
  · rw [hrefused] at h ⊢
    exact Prod.ext h rfl
  · rw [haccepted] at h
    cases h

theorem isOk_resolve (r : Resolver) (t : Target) :
    (r.resolve t).1.isOk = (r.policy.permits t.field && (t.toValue.isWritable && t.isLegal)) := by
  rw [Bool.eq_iff_iff, Bool.and_eq_true, Bool.and_eq_true, r.policy.permits_iff, t.isLegal_iff]
  constructor
  · intro h
    obtain ⟨fault, hrefused⟩ | ⟨hfield, hresolvable, -⟩ := r.resolve_cases t
    · rw [hrefused] at h
      cases h
    · exact ⟨hfield, hresolvable⟩
  · rintro ⟨hfield, hwritable, hlegal⟩
    rw [resolve_of_accepted hwritable hfield hlegal]
    rfl

theorem resolve_numberTooLong_iff (r : Resolver) (t : Target) :
    (r.resolve t).1 = .error (.badValue .numberTooLong) ↔
      ¬ t.head.isWritable = true ∨ r.policy.Admits t.field ∧ ¬ t.toValue.isWritable = true := by
  have hcall := r.call_resolve t
  generalize r.resolve t = result at hcall ⊢
  cases hcall with
  | longField hhead => exact iff_of_true rfl (.inl hhead)
  | refused hhead hfield =>
    have hfault := r.policy.refusal_ne_badValue t.field .numberTooLong
    exact iff_of_false (by simp [hfault]) (by simp [hhead, hfield])
  | longSegment _ hfield hlong => exact iff_of_true rfl (.inr ⟨hfield, hlong⟩)
  | illegal hwritable _ _ =>
    exact iff_of_false (by simp) (by simp [Target.isWritable_head hwritable, hwritable])
  | accepted _ ht =>
    exact iff_of_false (by simp) (by simp [Target.isWritable_head ht.1, ht.1])

end Call

/-- Resolves the targets one after the other: each of them with its answer, and the resolver at the
end. -/
def resolveAll (r : Resolver) : List Target → List (Target × Except Fault String) × Resolver
  | [] => ([], r)
  | t :: ts =>
    let call := r.resolve t
    let rest := call.2.resolveAll ts
    ((t, call.1) :: rest.1, rest.2)

def accepted (calls : List (Target × Except Fault String)) : List Target :=
  (calls.filter fun call => call.2.isOk).map Prod.fst

section Run

variable (r : Resolver) (ts : List Target)

theorem targets_resolveAll : (r.resolveAll ts).1.map Prod.fst = ts := by
  induction ts generalizing r with
  | nil => rfl
  | cons t ts ih => exact congrArg (t :: ·) (ih (r.resolve t).2)

/-- What has been recorded so far has no influence on which targets are accepted. -/
theorem accepted_resolveAll :
    accepted (r.resolveAll ts).1 = ts.filter fun t =>
      r.policy.permits t.field && (t.toValue.isWritable && t.isLegal) := by
  induction ts generalizing r with
  | nil => rfl
  | cons t ts ih =>
    have hrest := ih (r.resolve t).2
    rw [policy_resolve] at hrest
    rw [List.filter_cons, ← isOk_resolve, ← hrest]
    simp only [resolveAll, accepted, List.filter_cons]
    split <;> rfl

theorem resolveAll_eq_recordAll :
    (r.resolveAll ts).2 = r.recordAll ((accepted (r.resolveAll ts).1).map Target.field) := by
  induction ts generalizing r with
  | nil => rfl
  | cons t ts ih =>
    obtain ⟨fault, hcall⟩ | ⟨-, -, hcall⟩ := r.resolve_cases t
    · simp only [resolveAll, hcall]
      exact ih r
    · simp only [resolveAll, hcall]
      exact ih (r.record t.field)

theorem mem_fields_resolveAll_start (p : Policy) (field : String) :
    field ∈ ((start p).resolveAll ts).2.fields ↔
      ∃ t ∈ ts, t.field = field ∧ p.permits field = true ∧ t.Resolvable := by
  rw [resolveAll_eq_recordAll, fields_recordAll_start, List.mem_eraseDups, accepted_resolveAll]
  simp only [start, List.mem_map, List.mem_filter, Bool.and_eq_true, Target.isLegal_iff]
  constructor
  · rintro ⟨t, ⟨ht, hfield, hresolvable⟩, rfl⟩
    exact ⟨t, ht, rfl, hfield, hresolvable⟩
  · rintro ⟨t, ht, rfl, hfield, hresolvable⟩
    exact ⟨t, ⟨ht, hfield, hresolvable⟩, rfl⟩

end Run

theorem key_eq_intercalate (t : Target) : t.key = ".".intercalate t.segmentTexts := by
  apply String.toList_inj.mp
  rw [String.toList_intercalate, Target.key, String.toList_ofList]
  rfl

/-- A resolver accepts a target exactly when the policy permits its field and its segments can be
written and are legal. A field that cannot be written comes before the policy, the policy before the
other segments, and a refused target changes nothing. After any run the list has the fields of the
accepted targets, each at its first acceptance, and looking a field up agrees with it. -/
theorem resolver_records_accepted_fields (r : Resolver) (t : Target) (p : Policy)
    (ts : List Target) :
    (((∃ key, (r.resolve t).1 = .ok key) ↔ r.policy.permits t.field = true ∧ t.Resolvable) ∧
      (∀ key, (r.resolve t).1 = .ok key → key = ".".intercalate t.segmentTexts) ∧
      ((r.resolve t).1 = .error (.badValue .numberTooLong) ↔ ¬ t.head.isWritable = true ∨
        r.policy.permits t.field = true ∧ ¬ t.toValue.isWritable = true) ∧
      (t.head.isWritable = true → r.policy.permits t.field = false →
        (r.resolve t).1 = .error (r.policy.refusal t.field)) ∧
      (t.toValue.isWritable = true → r.policy.permits t.field = true → ¬ t.Legal →
        (r.resolve t).1 = .error (.invalidTarget t)) ∧
      ∀ fault, (r.resolve t).1 = .error fault →
        (r.resolve t).2.fields = r.fields ∧ (r.resolve t).2.hasField = r.hasField) ∧
    let calls := ((start p).resolveAll ts).1
    let last := ((start p).resolveAll ts).2
    calls.map Prod.fst = ts ∧ last.fields = ((accepted calls).map Target.field).eraseDups ∧
      last.fields.Nodup ∧ (∀ field, last.hasField field = true ↔ field ∈ last.fields) ∧
      (∀ field, last.hasField field = true ↔
        ∃ t ∈ ts, t.field = field ∧ p.permits field = true ∧ t.Resolvable) ∧
      ∀ field ∈ last.fields, p.permits field = true := by
  constructor
  · simp only [Policy.permits_iff, ← Bool.not_eq_true]
    refine ⟨⟨?_, ?_⟩, ?_, r.resolve_numberTooLong_iff t, ?_, ?_, ?_⟩
    · rintro ⟨key, hkey⟩
      obtain ⟨hfield, hresolvable, -⟩ := resolvable_of_resolve_ok hkey
      exact ⟨hfield, hresolvable⟩
    · rintro ⟨hfield, hwritable, hlegal⟩
      exact ⟨t.key, by rw [resolve_of_accepted hwritable hfield hlegal]⟩
    · intro key hkey
      obtain ⟨-, -, rfl⟩ := resolvable_of_resolve_ok hkey
      exact key_eq_intercalate t
    · intro hhead hfield
      rw [resolve_of_refused hhead hfield]
    · intro hwritable hfield hlegal
      rw [resolve_of_illegal hwritable hfield hlegal]
    · intro fault hfault
      rw [resolve_of_error hfault]
      exact ⟨rfl, rfl⟩
  · intro calls last
    have hlast : last = (start p).recordAll ((accepted calls).map Target.field) :=
      resolveAll_eq_recordAll _ ts
    have hmem := mem_fields_resolveAll_start ts p
    refine ⟨targets_resolveAll _ ts, ?_, ?_, last.hasField_iff, ?_, ?_⟩
    · rw [hlast, fields_recordAll_start]
    · rw [hlast]
      exact nodup_fields_recordAll_start p _
    · intro field
      exact (last.hasField_iff field).trans (hmem field)
    · intro field hfield
      obtain ⟨u, -, -, hpermits, -⟩ := (hmem field).mp hfield
      exact hpermits

/-- One target is denied, and another fails at its last segment after its field was permitted. -/
theorem resolver_records_accepted_fields_failing_calls :
    let p : Policy := ⟨[], ["b"], [], .inl rfl⟩
    let partly : Target := ⟨.string "d", [.string "e;f"]⟩
    let ts : List Target :=
      [⟨.string "a", [.int 0]⟩, ⟨.string "b", []⟩, partly, ⟨.string "c", []⟩, ⟨.string "a", []⟩]
    let r := ((start p).resolveAll ts).2
    p.permits "d" = true ∧ ¬ partly.Legal ∧
      ((start p).resolve partly).1 = .error (.invalidTarget partly) ∧
      r.fields = ["a", "c"] ∧ r.fields.Nodup ∧ r.hasField "d" = false ∧ p.permits "c" = true := by
  have hfirst : ((accepted ((start ⟨[], ["b"], [], .inl rfl⟩).resolveAll
      [⟨.string "a", [.int 0]⟩, ⟨.string "b", []⟩, ⟨.string "d", [.string "e;f"]⟩,
        ⟨.string "c", []⟩, ⟨.string "a", []⟩]).1).map Target.field).eraseDups = ["a", "c"] := by
    decide
  intro p partly ts r
  have hillegal : ¬ partly.Legal := by
    rw [← partly.isLegal_iff]
    decide
  obtain ⟨⟨-, -, -, -, hinvalid, -⟩, -, hfields, hnodup, hhas, -, hpermits⟩ :=
    resolver_records_accepted_fields (start p) partly p ts
  have hrecord : r.fields = ["a", "c"] := hfields.trans hfirst
  have hunseen : ¬ r.hasField "d" = true := by
    rw [hhas "d", hrecord]
    decide
  refine ⟨rfl, hillegal, hinvalid rfl rfl hillegal, hrecord, hnodup, ?_, ?_⟩
  · exact Bool.not_eq_true _ ▸ hunseen
  · exact hpermits "c" (by rw [hrecord]; decide)

/-- A permitted target with nothing but letters and digits in it fails, and its field is not
recorded. -/
theorem resolver_fails_at_long_segment :
    let t : Target := ⟨.string "a", [.int Value.leastUnwritable]⟩
    let r := start .unrestricted
    r.policy.permits t.field = true ∧ t.Legal ∧
      r.resolve t = (.error (.badValue .numberTooLong), r) := by
  have hlong := Target.not_isWritable_of_segment (t := ⟨.string "a", [.int Value.leastUnwritable]⟩)
    Value.not_isWritable_leastUnwritable (List.mem_cons_of_mem _ (List.mem_singleton.mpr rfl))
  have hlegal : Target.Legal ⟨.string "a", [.int Value.leastUnwritable]⟩ := by
    apply Target.legal_of_alphanum
    simp only [Target.path, List.forall_mem_cons]
    refine ⟨fun c hc => ?_, fun c hc => Value.isAlphanum_of_mem_text _ hc, by simp⟩
    obtain rfl : c = 'a' := List.mem_singleton.mp hc
    rfl
  exact ⟨rfl, hlegal, resolve_of_long_segment rfl ⟨.inl rfl, List.not_mem_nil⟩ hlong⟩

end Resolver
end FilterQuery
