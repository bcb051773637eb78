import FilterQuery.Proofs.Walk

/-!
# Comparisons written backwards

A clause with a target may have it on either side. With the target as its object the clause says the
same as with exchanged operands, when an ordering is turned around; every other operator, and also a
value that is no operator at all, stays as it is. The operator is read before anything else, so the
two clauses agree in their faults and in what they record, too.
-/

namespace FilterQuery

def Comparison.reversals : List (Comparison × Comparison) :=
  [(.gt, .lt), (.gte, .lte), (.lt, .gt), (.lte, .gte)]

theorem Comparison.flip_of_mem_reversals {c d : Comparison} (h : (c, d) ∈ reversals) :
    c.flip = d := by
  simp only [reversals, List.mem_cons, Prod.mk.injEq, List.not_mem_nil, or_false] at h
  rcases h with ⟨rfl, rfl⟩ | ⟨rfl, rfl⟩ | ⟨rfl, rfl⟩ | ⟨rfl, rfl⟩ <;> rfl

theorem Comparison.mem_reversals_or (c : Comparison) : (c, c.flip) ∈ reversals ∨ c.flip = c := by
  cases c <;> decide

/-- What stands in the place of an operator when the operands are exchanged: for an ordering the
reversed one, by itself or by name, and any other value as it is. -/
inductive Value.Reverses : Value → Value → Prop
  | ordering {op op' : Value} {c d : Comparison} :
      (c, d) ∈ Comparison.reversals → op.IsOperator (.compare c) → op'.IsOperator (.compare d) →
      Reverses op op'
  | other {op : Value} :
      (∀ c d, (c, d) ∈ Comparison.reversals → ¬ op.IsOperator (.compare c)) → Reverses op op

theorem Operator.inverse_of_not_ordering {o : Operator}
    (h : ∀ c d, (c, d) ∈ Comparison.reversals → o ≠ .compare c) : o.inverse = o := by
  cases o with
  | compare c =>
    rcases c.mem_reversals_or with hmem | hflip
    · exact absurd rfl (h c c.flip hmem)
    · rw [inverse_compare, hflip]
  | _ => rfl

namespace Clause

theorem readOperator_of_reverses {op op' : Value} (h : op.Reverses op') :
    readOperator op' = Operator.inverse <$> readOperator op := by
  cases h with
  | ordering hmem hop hop' =>
    rw [readOperator_of_isOperator hop, readOperator_of_isOperator hop',
      ← Comparison.flip_of_mem_reversals hmem, ← Operator.inverse_compare]
    rfl
  | other hother =>
    by_cases known : ∃ o, op.IsOperator o
    · obtain ⟨o, ho⟩ := known
      have hinverse : o.inverse = o := by
        refine Operator.inverse_of_not_ordering fun c d hmem hc => hother c d hmem ?_
        rwa [← hc]
      rw [readOperator_of_isOperator ho]
      exact congrArg Except.ok hinverse.symm
    · rw [readOperator_of_not_isOperator known]
      rfl

section OneTarget

variable (t : Target) (op : Value) {v : Value} (hv : v.target? = none)
include hv

omit hv in
theorem targetFirst_object : targetFirst ⟨v, op, t.toValue⟩ =
    (fun o => ⟨t.toValue, .operator (Operator.inverse o), v⟩) <$> readOperator op := by
  simp only [targetFirst, Value.target?_toValue]
  cases readOperator op <;> rfl

/-- Moving the target to the front and compiling what comes out is to compile the clause. -/
theorem compile_eq_targetFirst : compile ⟨v, op, t.toValue⟩ =
    Resolving.ofExcept (targetFirst ⟨v, op, t.toValue⟩) >>= compile := by
  rw [compile_object t op hv, targetFirst_object t op]
  cases readOperator op with
  | error fault => rfl
  | ok o => exact (compile_subject t (.operator o.inverse) hv).symm

theorem compile_object_of_reverses {op op' : Value} (h : op.Reverses op') :
    compile ⟨v, op, t.toValue⟩ = compile ⟨t.toValue, op', v⟩ := by
  rw [compile_object t op hv, compile_subject t op' hv, readOperator_of_reverses h]
  cases readOperator op <;> rfl

end OneTarget

/-- A clause whose object is the target compiles as the clause with exchanged operands does, and as
what it becomes when its target is moved to the front: with the same fragment or fault, and with the
same record afterwards. -/
theorem reversed_clause_compiles_alike (r : Resolver) (t : Target) (v op op' : Value)
    (hv : v.target? = none) (hop : op.Reverses op') :
    (compile ⟨v, op, t.toValue⟩).runFrom r = (compile ⟨t.toValue, op', v⟩).runFrom r ∧
    (compile ⟨v, op, t.toValue⟩).runFrom r =
      (Resolving.ofExcept (targetFirst ⟨v, op, t.toValue⟩) >>= compile).runFrom r := by
  constructor
  · rw [compile_object_of_reverses t hv hop]
  · rw [← compile_eq_targetFirst t op hv]

/-- Null counts as less than every value that is present, so the side on which it stands matters. -/
theorem reversed_clause_compiles_alike_null :
    Value.Reverses (.string "gt") (.operator (.compare .lt)) ∧
      (compile ⟨.null, .string "gt", .target (.string "a") [.int 0]⟩).runFrom
        ⟨.unrestricted, ["b"]⟩ =
        (compile ⟨.target (.string "a") [.int 0], .operator (.compare .lt), .null⟩).runFrom
          ⟨.unrestricted, ["b"]⟩ ∧
      (compile ⟨.target (.string "a") [.int 0], .operator (.compare .lt), .null⟩).runFrom
        ⟨.unrestricted, ["b"]⟩ =
        (.ok (.not (.present "a.0")), ⟨.unrestricted, ["b", "a"]⟩) := by
  have hop : Value.Reverses (.string "gt") (.operator (.compare .lt)) :=
    .ordering (List.mem_cons_self ..) (.inr rfl) (.inl rfl)
  have halike := reversed_clause_compiles_alike ⟨.unrestricted, ["b"]⟩
    ⟨.string "a", [.int 0]⟩ .null _ _ rfl hop
  exact ⟨hop, halike.1, rfl⟩

end Clause
end FilterQuery
