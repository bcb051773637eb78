import FilterQuery.Proofs.Walk

/-!
# Operators and conjunctions by name

An operator stands in a clause as itself or by its name, and so does a conjunction in a statement.
The two forms can be exchanged for each other at any places of a filter, however deep, and nothing
comes of it: a form is read wherever it is needed, and only what was read is used from there on. A
message shows an operator or a conjunction as it was given, but only when it cannot be read, and then
it has no other form. So the filter is refused with the same fault or converts to the same query.
-/

namespace FilterQuery

namespace Value

def SameOperator (op op' : Value) : Prop :=
  op = op' ∨ ∃ o, op.IsOperator o ∧ op'.IsOperator o

def SameConjunction (conj conj' : Value) : Prop :=
  conj = conj' ∨ ∃ c, conj.IsConjunction c ∧ conj'.IsConjunction c

mutual

/-- The values differ at most in the forms of operators and conjunctions: those of clauses and
statements, and of what statements and filters hold. Operands are data and stay. -/
inductive Renamed : Value → Value → Prop
  | refl (v : Value) : Renamed v v
  | clause {op op' : Value} (subject object : Value) : op.SameOperator op' →
      Renamed (.clause subject op object) (.clause subject op' object)
  | statement {content content' conj conj' : Value} : Renamed content content' →
      conj.SameConjunction conj' → Renamed (.statement content conj) (.statement content' conj')
  | filter {vs ws : List Value} : AllRenamed vs ws → Renamed (.filter vs) (.filter ws)

inductive AllRenamed : List Value → List Value → Prop
  | nil : AllRenamed [] []
  | cons {v w : Value} {vs ws : List Value} : Renamed v w → AllRenamed vs ws →
      AllRenamed (v :: vs) (w :: ws)

end

end Value

namespace Clause

theorem readOperator_of_sameOperator {op op' : Value} (h : op.SameOperator op') :
    readOperator op = readOperator op' := by
  rcases h with rfl | ⟨o, ho, ho'⟩
  · rfl
  · rw [readOperator_of_isOperator ho, readOperator_of_isOperator ho']

/-- A clause uses its operator only as it is read. -/
theorem compile_of_readOperator_eq {op op' : Value} (h : readOperator op = readOperator op')
    (subject object : Value) :
    compile ⟨subject, op, object⟩ = compile ⟨subject, op', object⟩ := by
  cases hv : subject.target? with
  | some s =>
    obtain rfl := Value.target?_eq_some_iff.mp hv
    cases hw : object.target? with
    | some o => simp only [compile, hv, hw, h]
    | none => rw [compile_subject s op hw, compile_subject s op' hw, h]
  | none =>
    cases hw : object.target? with
    | some o =>
      obtain rfl := Value.target?_eq_some_iff.mp hw
      rw [compile_object o op hv, compile_object o op' hv, h]
    | none => simp only [compile, hv, hw, h]

end Clause

namespace Filter

theorem readConjunction_of_sameConjunction {conj conj' : Value}
    (h : conj.SameConjunction conj') : readConjunction conj = readConjunction conj' := by
  rcases h with rfl | ⟨c, hc, hc'⟩
  · rfl
  · rw [readConjunction_of_isConjunction hc, readConjunction_of_isConjunction hc']

-- The induction is on the first tree. The computations are equal as such, so the resolver that they
-- start from does not come in.
mutual

theorem compileContent_of_renamed (v : Value) {w : Value} (h : v.Renamed w) :
    compileContent v = compileContent w := by
  cases v with
  | filter statements =>
    cases h with
    | filter hstatements =>
      rw [compileContent, compileContent, compileStatements_of_renamed statements hstatements]
    | refl => rfl
  | clause subject op object =>
    cases h with
    | clause _ _ hop =>
      have hread := Clause.readOperator_of_sameOperator hop
      exact Clause.compile_of_readOperator_eq hread subject object
    | refl => rfl
  | _ => cases h <;> rfl
termination_by structural v

theorem compileStatement_of_renamed (v : Value) {w : Value} (h : v.Renamed w) :
    compileStatement v = compileStatement w := by
  cases v with
  | statement content conj =>
    cases h with
    | statement hcontent hconj =>
      rw [compileStatement, compileStatement, readConjunction_of_sameConjunction hconj,
        compileContent_of_renamed content hcontent]
    | refl => rfl
  | _ => cases h <;> rfl
termination_by structural v

theorem compileStatements_of_renamed (vs : List Value) {ws : List Value}
    (h : Value.AllRenamed vs ws) : compileStatements vs = compileStatements ws := by
  cases vs with
  | nil =>
    cases h
    rfl
  | cons v vs =>
    cases h with
    | cons hfirst hrest =>
      rw [compileStatements, compileStatements, compileStatement_of_renamed v hfirst,
        compileStatements_of_renamed vs hrest]
termination_by structural vs

end

theorem convert_of_renamed {f f' : Filter} (h : f.toValue.Renamed f'.toValue) (p : Policy) :
    f.convert p = f'.convert p := by
  have hcompile : f.compile = f'.compile := compileContent_of_renamed f.toValue h
  unfold convert
  rw [hcompile]

/-- Filters that differ only in the forms of operators and conjunctions are refused with the same
fault, or they convert with the same fields to the same query. -/
theorem names_and_members_are_interchangeable (f f' : Filter)
    (h : f.toValue.Renamed f'.toValue) (policy : Value) :
    f.toValue.convert policy = f'.toValue.convert policy := by
  cases policy with
  | null => exact convert_of_renamed h .unrestricted
  | policy p => exact convert_of_renamed h p
  | _ => rfl

/-- The forms are exchanged in both directions, also in a clause whose operator is reversed. -/
theorem names_and_members_are_interchangeable_reversed_clause :
    let f : Filter := ⟨[.statement (.filter [
      .statement (.clause (.int 5) (.string "gt") (.target (.string "a") [])) (.conjunction .or)])
        (.string "and")]⟩
    let f' : Filter := ⟨[.statement (.filter [
      .statement (.clause (.int 5) (.operator (.compare .gt)) (.target (.string "a") []))
        (.string "or")]) (.conjunction .and)]⟩
    f.toValue.Renamed f'.toValue ∧ f.toValue.convert .null = f'.toValue.convert .null ∧
      f.toValue.convert .null =
        .ok ⟨["a"], .all [.all [.range "a" [(.lt, .int 5)]]]⟩ := by
  intro f f'
  have hop : Value.SameOperator (.string "gt") (.operator (.compare .gt)) :=
    .inr ⟨.compare .gt, .inr rfl, .inl rfl⟩
  have hinner : Value.SameConjunction (.conjunction .or) (.string "or") :=
    .inr ⟨.or, .inl rfl, .inr rfl⟩
  have houter : Value.SameConjunction (.string "and") (.conjunction .and) :=
    .inr ⟨.and, .inr rfl, .inl rfl⟩
  have h : f.toValue.Renamed f'.toValue :=
    .filter (.cons (.statement (.filter (.cons (.statement (.clause _ _ hop) hinner) .nil)) houter)
      .nil)
  exact ⟨h, names_and_members_are_interchangeable f f' h .null, rfl⟩

end Filter
end FilterQuery
