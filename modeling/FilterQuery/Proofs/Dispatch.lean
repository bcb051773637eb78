import FilterQuery.Proofs.Complements

/-!
# The compilers of a comparison

The compilers of a comparison are tried one after the other, and the first that gives a query
decides. Behind the one for null, each operator has a compiler of its own, and the others leave it
alone. A compiler fails only on an operand of the wrong shape. The operands have been checked for
their shapes before, one check for each kind of operator, and the checks let nothing pass that a
compiler refuses. So there is a query for every operand that has passed, the order of the compilers
does not matter, and a clause with one target does not fail once its target has been resolved.
-/

namespace FilterQuery
namespace Fragment

variable {κ : Type}

def forNull : Compiler κ :=
  fun key op v => .ok (ofNull? key op v)

def byOperator : List (Compiler κ) :=
  [ofComparison?, ofPattern?, ofMembership?]

theorem compilers_eq : (compilers : List (Compiler κ)) = forNull :: byOperator := rfl

/-- The compiler never leaves the operator to another one. -/
def Accepts (compiler : Compiler κ) (op : Operator) : Prop :=
  ∀ key v, compiler key op v ≠ .ok none

/-- The compiler leaves the operator to another one, whatever the operand is. -/
def Declines (compiler : Compiler κ) (op : Operator) : Prop :=
  ∀ key v, compiler key op v = .ok none

theorem bind_some_ne_none {α β : Type} (g : α → β) (result : Except Fault α) :
    (result >>= fun a => pure (some (g a))) ≠ .ok none := by
  cases result <;> nofun

theorem exists_accepting (op : Operator) :
    ∃ before accepting after, (byOperator : List (Compiler κ)) = before ++ accepting :: after ∧
      Accepts accepting op ∧ ∀ other ∈ before ++ after, Declines other op := by
  cases op with
  | compare c =>
    refine ⟨[], ofComparison?, [ofPattern?, ofMembership?], rfl, nofun, ?_⟩
    simp [Declines, ofPattern?, ofMembership?]
  | between | outside =>
    refine ⟨[], ofComparison?, [ofPattern?, ofMembership?], rfl, ?_, ?_⟩
    · exact fun _ _ => bind_some_ne_none _ _
    · simp [Declines, ofPattern?, ofMembership?]
  | like | unlike =>
    refine ⟨[ofComparison?], ofPattern?, [ofMembership?], rfl, ?_, ?_⟩
    · exact fun _ _ => bind_some_ne_none _ _
    · simp [Declines, ofComparison?, ofMembership?]
  | among | notAmong =>
    refine ⟨[ofComparison?, ofPattern?], ofMembership?, [], rfl, ?_, ?_⟩
    · exact fun _ _ => bind_some_ne_none _ _
    · simp [Declines, ofComparison?, ofPattern?]

theorem exists_ok_of_fits {op : Operator} {v : Value} (fits : Operand.Fits op v) (key : κ)
    {compiler : Compiler κ} (h : compiler ∈ compilers) :
    ∃ result, compiler key op v = .ok result := by
  rw [compilers_eq, byOperator] at h
  simp only [List.mem_cons, List.not_mem_nil, or_false] at h
  rcases h with rfl | rfl | rfl | rfl
  · exact ⟨_, rfl⟩
  · cases op with
    | between | outside =>
      obtain ⟨lower, upper, rfl⟩ := fits
      exact ⟨_, rfl⟩
    | _ => exact ⟨_, rfl⟩
  · cases op with
    | like | unlike =>
      obtain ⟨pattern, name, rfl, hname⟩ := fits
      simp only [ofPattern?, matching_like key hname]
      exact ⟨_, rfl⟩
    | _ => exact ⟨_, rfl⟩
  · cases op with
    | among | notAmong =>
      obtain ⟨items, rfl | rfl⟩ := fits <;> exact ⟨_, rfl⟩
    | _ => exact ⟨_, rfl⟩

section First

variable {key : κ} {op : Operator} {v : Value} {compiler : Compiler κ} {cs : List (Compiler κ)}
  {q : Query κ}

theorem firstOf_cons_of_some (h : compiler key op v = .ok (some q)) :
    firstOf key op v (compiler :: cs) = .ok (some q) := by
  rw [firstOf, h]
  rfl

theorem firstOf_cons_of_none (h : compiler key op v = .ok none) :
    firstOf key op v (compiler :: cs) = firstOf key op v cs := by
  rw [firstOf, h]
  rfl

theorem firstOf_eq_some (hsome : ∃ c ∈ cs, c key op v = .ok (some q))
    (hothers : ∀ c ∈ cs, c key op v = .ok none ∨ c key op v = .ok (some q)) :
    firstOf key op v cs = .ok (some q) := by
  induction cs with
  | nil => simp at hsome
  | cons c cs ih =>
    rcases hothers c (by simp) with hnone | hgiven
    · rw [firstOf_cons_of_none hnone]
      apply ih
      · obtain ⟨d, hd, hgiven⟩ := hsome
        rcases List.mem_cons.mp hd with rfl | hd
        · cases hnone.symm.trans hgiven
        · exact ⟨d, hd, hgiven⟩
      · exact fun d hd => hothers d (by simp [hd])
    · exact firstOf_cons_of_some hgiven

end First

theorem exists_firstOf_of_perm {op : Operator} {v : Value} (fits : Operand.Fits op v) (key : κ) :
    ∃ q, ∀ order, order.Perm byOperator → firstOf key op v order = .ok (some q) := by
  obtain ⟨before, accepting, after, hsplit, haccepts, hdeclines⟩ := exists_accepting (κ := κ) op
  have hmem : accepting ∈ byOperator := by simp [hsplit]
  obtain ⟨result, hresult⟩ := exists_ok_of_fits fits key (List.mem_cons_of_mem forNull hmem)
  cases result with
  | none => exact absurd hresult (haccepts key v)
  | some q =>
    refine ⟨q, fun order horder => firstOf_eq_some ?_ ?_⟩
    · exact ⟨accepting, horder.mem_iff.mpr hmem, hresult⟩
    · intro c hc
      have hc : c ∈ before ++ accepting :: after := hsplit ▸ horder.mem_iff.mp hc
      rcases List.mem_append.mp hc with hc | hc
      · exact .inl (hdeclines c (by simp [hc]) key v)
      · rcases List.mem_cons.mp hc with rfl | hc
        · exact .inr hresult
        · exact .inl (hdeclines c (by simp [hc]) key v)

theorem exists_chain_of_fits {op : Operator} {v : Value} (fits : Operand.Fits op v) (key : κ) :
    ∃ q, ofTargeted key op v = .ok q ∧
      ∀ order, order.Perm byOperator → firstOf key op v (forNull :: order) = .ok (some q) := by
  have hchain : ∃ q, ∀ order, order.Perm byOperator →
      firstOf key op v (forNull :: order) = .ok (some q) := by
    cases hnull : ofNull? key op v with
    | some q => exact ⟨q, fun order _ => firstOf_cons_of_some (congrArg Except.ok hnull)⟩
    | none =>
      obtain ⟨q, hq⟩ := exists_firstOf_of_perm fits key
      refine ⟨q, fun order horder => ?_⟩
      rw [firstOf_cons_of_none (congrArg Except.ok hnull), hq order horder]
  obtain ⟨q, hq⟩ := hchain
  refine ⟨q, ?_, hq⟩
  rw [ofTargeted, compilers_eq, hq byOperator (.refl _)]
  rfl

end Fragment

theorem Operand.fits_of_checks {op : Operator} {v : Value} (hrange : checkRange op v = .ok ())
    (hpattern : checkPattern op v = .ok ()) (hmembers : checkMembers op v = .ok ()) :
    Fits op v := by
  by_contra h
  have hcheck : check op v = .ok () := by
    rw [check, hrange, hpattern, hmembers]
    rfl
  rw [check_of_not_fits h] at hcheck
  cases hcheck

theorem Operand.check_inverse (op : Operator) (v : Value) : check op.inverse v = check op v := by
  by_cases fits : Fits op v
  · rw [check_of_fits fits, check_of_fits ((fits_inverse op v).mpr fits)]
  · rw [check_of_not_fits fits, check_of_not_fits (mt (fits_inverse op v).mp fits)]

namespace Clause

/-- What can keep a clause with one target from compiling: its operator is none, its operand does
not pass the checks, or its target cannot be resolved. -/
inductive Obstacle (r : Resolver) (t : Target) (op v : Value) : Fault → Prop
  | operator {fault : Fault} : readOperator op = .error fault → Obstacle r t op v fault
  | operand {o : Operator} {fault : Fault} : readOperator op = .ok o →
      Operand.check o v = .error fault → Obstacle r t op v fault
  | target {fault : Fault} : (r.resolve t).1 = .error fault → Obstacle r t op v fault

/-- The computation succeeds and leaves what resolving the target leaves, or it meets an obstacle and
leaves the resolver as it is. -/
def FailsAtObstacle (r : Resolver) (t : Target) (op v : Value) (m : Resolving (Query String)) :
    Prop :=
  (∃ key q, (r.resolve t).1 = .ok key ∧ m.runFrom r = (.ok q, (r.resolve t).2)) ∨
    ∃ fault, Obstacle r t op v fault ∧ m.runFrom r = (.error fault, r)

section Targeted

-- The operator is exchanged for another one that is checked alike.
variable (exchange : Operator → Operator)
  (hexchange : ∀ o v, Operand.check (exchange o) v = Operand.check o v)
include hexchange

theorem failsAtObstacle_targeted (r : Resolver) (t : Target) (op v : Value) :
    FailsAtObstacle r t op v
      (Resolving.ofExcept (readOperator op) >>= fun o => compileTargeted t (exchange o) v) := by
  cases hop : readOperator op with
  | error fault => exact .inr ⟨fault, .operator hop, rfl⟩
  | ok o =>
    change FailsAtObstacle r t op v (compileTargeted t (exchange o) v)
    by_cases fits : Operand.Fits (exchange o) v
    · cases hkey : (r.resolve t).1 with
      | error fault =>
        exact .inr ⟨fault, .target hkey, runFrom_compileTargeted_of_error fits hkey⟩
      | ok key =>
        obtain ⟨q, hq, -⟩ := Fragment.exists_chain_of_fits fits key
        have hgives := Fragment.gives_of_ofTargeted fits hq
        exact .inl ⟨key, q, hkey, runFrom_compileTargeted hkey fits hgives⟩
    · have hcheck := (hexchange o v).symm.trans (Operand.check_of_not_fits fits)
      exact .inr ⟨_, .operand hop hcheck, runFrom_compileTargeted_of_not_fits fits t r⟩

end Targeted

theorem failsAtObstacle_compile {t : Target} {op v : Value} (hv : v.target? = none)
    (r : Resolver) : ∀ c ∈ eitherWay t op v, FailsAtObstacle r t op v c.compile := by
  simp only [eitherWay, List.forall_mem_cons]
  refine ⟨?_, ?_, by simp⟩
  · rw [compile_subject t op hv]
    exact failsAtObstacle_targeted id (fun _ _ => rfl) r t op v
  · rw [compile_object t op hv]
    exact failsAtObstacle_targeted Operator.inverse Operand.check_inverse r t op v

end Clause

namespace Fragment

/-- For an operand that has passed the checks no compiler fails, exactly one of those behind the one
for null accepts the operator, and all together give one query, in whichever order these are tried.
So a clause with one target does not fail once its target has been resolved. -/
theorem checked_operands_compile_in_any_order :
    (∀ (κ : Type) (key : κ) (op : Operator) (v : Value), Operand.checkRange op v = .ok () →
      Operand.checkPattern op v = .ok () → Operand.checkMembers op v = .ok () →
      (∀ compiler ∈ compilers, ∃ result, compiler key op v = .ok result) ∧
      (∃ before accepting after, (byOperator : List (Compiler κ)) = before ++ accepting :: after ∧
        Accepts accepting op ∧ ∀ other ∈ before ++ after, Declines other op) ∧
      ∃ q, ofTargeted key op v = .ok q ∧
        ∀ order, order.Perm byOperator → firstOf key op v (forNull :: order) = .ok (some q)) ∧
    ∀ (t : Target) (op v : Value), v.target? = none → ∀ c ∈ Clause.eitherWay t op v,
      ∀ r : Resolver, Clause.FailsAtObstacle r t op v c.compile := by
  refine ⟨?_, fun t op v hv c hc r => Clause.failsAtObstacle_compile hv r c hc⟩
  intro κ key op v hrange hpattern hmembers
  have fits := Operand.fits_of_checks hrange hpattern hmembers
  exact ⟨fun _ => exists_ok_of_fits fits key, exists_accepting op, exists_chain_of_fits fits key⟩

/-- The compiler that accepts the operator is tried last, and the target stands behind the range. -/
theorem checked_operands_compile_in_any_order_reversed :
    let v : Value := .range (.int 1) .null
    let c : Clause := ⟨v, .string "nbetween", .target (.string "a") []⟩
    Operand.checkRange .outside v = .ok () ∧ Operand.checkPattern .outside v = .ok () ∧
      Operand.checkMembers .outside v = .ok () ∧
      (∃ q, ofTargeted "a" .outside v = .ok q ∧
        firstOf "a" .outside v (forNull :: byOperator.reverse) = .ok (some q)) ∧
      v.target? = none ∧ c ∈ Clause.eitherWay ⟨.string "a", []⟩ (.string "nbetween") v ∧
      ∃ q r, c.compile.runFrom (.start .unrestricted) = (.ok q, r) ∧ r.fields = ["a"] := by
  have hrun : (Clause.compile ⟨.range (.int 1) .null, .string "nbetween",
      .target (.string "a") []⟩).runFrom (.start .unrestricted) =
        (.ok (.not (.range "a" [(.gte, .int 1), (.lte, .null)])), ⟨.unrestricted, ["a"]⟩) := rfl
  intro v c
  obtain ⟨hchain, hclause⟩ := checked_operands_compile_in_any_order
  obtain ⟨-, -, q, hq, horder⟩ := hchain String "a" .outside v rfl rfl rfl
  have hc : c ∈ Clause.eitherWay ⟨.string "a", []⟩ (.string "nbetween") v := .tail _ (.head _)
  refine ⟨rfl, rfl, rfl, ⟨q, hq, horder _ (List.reverse_perm _)⟩, rfl, hc, ?_⟩
  obtain ⟨key, q, -, hok⟩ | ⟨fault, -, herror⟩ := hclause _ _ v rfl c hc (.start .unrestricted)
  · exact ⟨q, _, hok, rfl⟩
  · cases hrun.symm.trans herror

end Fragment
end FilterQuery
