import FilterQuery.Proofs.Recording
import FilterQuery.Proofs.Selection

/-!
# Operators that deny each other

Eight of the operators come in pairs, and the second one of a pair denies what the first one says.
Both take the same operands, and both are checked and resolved in the same way, so a clause compiles
with the one exactly when it does with the other. The fragment of the negative operator is then the
negation of the positive one's. Only for an equality with null it is the other way round: presence is
what a query asks for, and absence is its negation.
-/

namespace FilterQuery

/-- A positive operator and the one that denies it. -/
inductive Operator.Complements : Operator → Operator → Prop
  | equality : Complements (.compare .eq) (.compare .neq)
  | pattern : Complements .like .unlike
  | bounds : Complements .between .outside
  | membership : Complements .among .notAmong

/-- One query is the negation of the other: that of the negative operator, unless the positive one
asks for equality with null. -/
def Query.Opposed {κ : Type} (pos : Operator) (v : Value) (q q' : Query κ) : Prop :=
  (pos = .compare .eq ∧ v = .null → q = .not q') ∧
    (¬ (pos = .compare .eq ∧ v = .null) → q' = .not q)

namespace Operator.Complements

variable {pos neg : Operator} (pair : pos.Complements neg)
include pair

theorem inverse_eq : pos.inverse = pos ∧ neg.inverse = neg := by
  cases pair <;> exact ⟨rfl, rfl⟩

theorem fits_iff (v : Value) : Operand.Fits neg v ↔ Operand.Fits pos v := by
  cases pair <;> exact Iff.rfl

theorem exists_opposed {κ : Type} (key : κ) {v : Value} (fits : Operand.Fits pos v) :
    ∃ q q', Fragment.Gives key pos v q ∧ Fragment.Gives key neg v q' ∧ Query.Opposed pos v q q' := by
  cases pair with
  | equality =>
    by_cases hnull : v = .null
    · subst hnull
      exact ⟨_, _, .null .eq, .null .neq, fun _ => rfl, fun h => absurd ⟨rfl, rfl⟩ h⟩
    · exact ⟨_, _, .compare .eq hnull, .compare .neq hnull, fun h => absurd h.2 hnull, fun _ => rfl⟩
  | pattern =>
    obtain ⟨pattern, name, rfl, hname⟩ := fits
    exact ⟨_, _, .like hname, .unlike hname, nofun, fun _ => rfl⟩
  | bounds =>
    obtain ⟨lower, upper, rfl⟩ := fits
    exact ⟨_, _, .between lower upper, .outside lower upper, nofun, fun _ => rfl⟩
  | membership =>
    obtain ⟨items, rfl | rfl⟩ := fits
    all_goals exact ⟨_, _, .among rfl, .notAmong rfl, nofun, fun _ => rfl⟩

end Operator.Complements

theorem Query.Opposed.xor_holds {pos : Operator} {v : Value} {q q' : Query String}
    (h : Query.Opposed pos v q q') (truth : Value → Prop) :
    Xor (Document.Holds truth q.document) (Document.Holds truth q'.document) := by
  rw [xor_iff_iff_not]
  by_cases hnull : pos = .compare .eq ∧ v = .null
  · rw [h.1 hnull]
    exact Iff.rfl
  · rw [h.2 hnull]
    exact not_not.symm

namespace Clause

/-- Two outcomes of compilations from the same resolver: the same fault, which leaves it as it is, or
opposed queries and the same resolver afterwards. -/
def Opposite (pos : Operator) (v : Value) (r : Resolver)
    (positive negative : Except Fault (Query String) × Resolver) : Prop :=
  (∃ fault, positive = (.error fault, r) ∧ negative = (.error fault, r)) ∨
    ∃ q q' r', positive = (.ok q, r') ∧ negative = (.ok q', r') ∧ Query.Opposed pos v q q'

theorem runFrom_compileTargeted_of_not_fits {o : Operator} {v : Value} (h : ¬ Operand.Fits o v)
    (t : Target) (r : Resolver) :
    (compileTargeted t o v).runFrom r = (.error (.convert .malformed), r) := by
  unfold compileTargeted
  rw [Operand.check_of_not_fits h]
  rfl

theorem runFrom_compileTargeted_of_error {o : Operator} {v : Value} (fits : Operand.Fits o v)
    {t : Target} {r : Resolver} {fault : Fault} (h : (r.resolve t).1 = .error fault) :
    (compileTargeted t o v).runFrom r = (.error fault, r) := by
  unfold compileTargeted
  rw [Operand.check_of_fits fits]
  simp only [Resolving.runFrom_bind, Resolving.runFrom_ofExcept, Resolving.runFrom_resolve]
  rw [Resolver.resolve_of_error h]

section Pair

variable {pos neg : Operator} (pair : pos.Complements neg)
include pair

theorem opposite_compileTargeted (t : Target) (v : Value) (r : Resolver) :
    Opposite pos v r ((compileTargeted t pos v).runFrom r) ((compileTargeted t neg v).runFrom r) := by
  by_cases fits : Operand.Fits pos v
  · have fits' : Operand.Fits neg v := (pair.fits_iff v).mpr fits
    cases hkey : (r.resolve t).1 with
    | error fault =>
      exact .inl ⟨fault, runFrom_compileTargeted_of_error fits hkey,
        runFrom_compileTargeted_of_error fits' hkey⟩
    | ok key =>
      obtain ⟨q, q', hq, hq', hopposed⟩ := pair.exists_opposed key fits
      exact .inr ⟨q, q', (r.resolve t).2, runFrom_compileTargeted hkey fits hq,
        runFrom_compileTargeted hkey fits' hq', hopposed⟩
  · have fits' : ¬ Operand.Fits neg v := mt (pair.fits_iff v).mp fits
    exact .inl ⟨_, runFrom_compileTargeted_of_not_fits fits t r,
      runFrom_compileTargeted_of_not_fits fits' t r⟩

variable {op op' : Value} (hop : op.IsOperator pos) (hop' : op'.IsOperator neg) {t : Target}
  {v : Value} (hv : v.target? = none)
include hop hop' hv

theorem opposite_subject (r : Resolver) :
    Opposite pos v r ((compile ⟨t.toValue, op, v⟩).runFrom r)
      ((compile ⟨t.toValue, op', v⟩).runFrom r) := by
  rw [compile_subject t op hv, compile_subject t op' hv, readOperator_of_isOperator hop,
    readOperator_of_isOperator hop']
  exact opposite_compileTargeted pair t v r

theorem opposite_object (r : Resolver) :
    Opposite pos v r ((compile ⟨v, op, t.toValue⟩).runFrom r)
      ((compile ⟨v, op', t.toValue⟩).runFrom r) := by
  rw [compile_object t op hv, compile_object t op' hv, readOperator_of_isOperator hop,
    readOperator_of_isOperator hop']
  change Opposite pos v r ((compileTargeted t pos.inverse v).runFrom r)
    ((compileTargeted t neg.inverse v).runFrom r)
  rw [pair.inverse_eq.1, pair.inverse_eq.2]
  exact opposite_compileTargeted pair t v r

end Pair

theorem exists_of_one_target {c : Clause} (h : c.targets.length = 1) :
    ∃ (t : Target) (v : Value), v.target? = none ∧
      (c.subject = t.toValue ∧ c.object = v ∨ c.subject = v ∧ c.object = t.toValue) := by
  unfold targets at h
  cases hsubject : c.subject.target? with
  | none =>
    cases hobject : c.object.target? with
    | none => simp [hsubject, hobject] at h
    | some t => exact ⟨t, _, hsubject, .inr ⟨rfl, Value.target?_eq_some_iff.mp hobject⟩⟩
  | some t =>
    cases hobject : c.object.target? with
    | none => exact ⟨t, _, hobject, .inl ⟨Value.target?_eq_some_iff.mp hsubject, rfl⟩⟩
    | some u => simp [hsubject, hobject] at h

/-- Compiled with an operator and with the one that denies it, a clause with one target gives the
same fault, or fragments one of which is the negation of the other; it leaves the same resolver. So
exactly one of the two fragments holds. -/
theorem negative_operators_are_complements (r : Resolver) (c : Clause) (hc : c.targets.length = 1)
    (pos neg : Operator) (pair : pos.Complements neg) (op op' : Value) (hop : op.IsOperator pos)
    (hop' : op'.IsOperator neg) :
    let positive := (compile { c with operator := op }).runFrom r
    let negative := (compile { c with operator := op' }).runFrom r
    let equalsNull := pos = .compare .eq ∧ .null ∈ [c.subject, c.object]
    (∃ fault, positive = (.error fault, r) ∧ negative = (.error fault, r)) ∨
    ∃ q q' r', positive = (.ok q, r') ∧ negative = (.ok q', r') ∧
      (¬ equalsNull → q'.document = Document.negation q.document) ∧
      (equalsNull → q.document = Document.negation q'.document) ∧
      ∀ truth, Xor (Document.Holds truth q.document) (Document.Holds truth q'.document) := by
  intro positive negative equalsNull
  obtain ⟨t, v, hv, hsides⟩ := exists_of_one_target hc
  have hopposite : Opposite pos v r positive negative := by
    rcases hsides with ⟨hs, ho⟩ | ⟨hs, ho⟩
    · simp only [positive, negative, hs, ho]
      exact opposite_subject pair hop hop' hv r
    · simp only [positive, negative, hs, ho]
      exact opposite_object pair hop hop' hv r
  have hnull : equalsNull ↔ pos = .compare .eq ∧ v = .null := by
    have htarget : Value.null ≠ t.toValue := nofun
    rcases hsides with ⟨hs, ho⟩ | ⟨hs, ho⟩
    all_goals simp [equalsNull, hs, ho, htarget, eq_comm]
  rcases hopposite with hfaults | ⟨q, q', r', hpositive, hnegative, hopposed⟩
  · exact .inl hfaults
  · refine .inr ⟨q, q', r', hpositive, hnegative, ?_, ?_, hopposed.xor_holds⟩
    · intro h
      rw [hopposed.2 (mt hnull.mpr h)]
      exact Query.document_not q
    · intro h
      rw [hopposed.1 (hnull.mp h)]
      exact Query.document_not q'

/-- Null stands on the side of the subject, and the operators are given by name and by themselves. -/
theorem negative_operators_are_complements_null :
    let r := Resolver.start .unrestricted
    let c : Clause := ⟨.null, .null, .target (.string "a") [.int 0]⟩
    let neq : Value := .operator (.compare .neq)
    c.targets.length = 1 ∧ Operator.Complements (.compare .eq) (.compare .neq) ∧
      Value.IsOperator (.string "eq") (.compare .eq) ∧ neq.IsOperator (.compare .neq) ∧
      ∃ q q' r', (compile { c with operator := .string "eq" }).runFrom r = (.ok q, r') ∧
        (compile { c with operator := neq }).runFrom r = (.ok q', r') ∧ r'.fields = ["a"] ∧
        q.document = Document.negation q'.document ∧
        ∀ truth, Xor (Document.Holds truth q.document) (Document.Holds truth q'.document) := by
  intro r c neq
  have hop : Value.IsOperator (.string "eq") (.compare .eq) := .inr rfl
  have hop' : neq.IsOperator (.compare .neq) := .inl rfl
  have hrun : (compile ⟨.null, .string "eq", .target (.string "a") [.int 0]⟩).runFrom
      (.start .unrestricted) = (.ok (.not (.present "a.0")), ⟨.unrestricted, ["a"]⟩) := rfl
  refine ⟨rfl, .equality, hop, hop', ?_⟩
  obtain ⟨fault, hfault, -⟩ | ⟨q, q', r', hpositive, hnegative, -, hnull, hxor⟩ :=
    negative_operators_are_complements r c rfl _ _ .equality _ _ hop hop'
  · cases hrun.symm.trans hfault
  · cases hrun.symm.trans hpositive
    exact ⟨_, q', _, hpositive, hnegative, rfl, hnull ⟨rfl, List.mem_cons_self ..⟩, hxor⟩

end Clause
end FilterQuery
