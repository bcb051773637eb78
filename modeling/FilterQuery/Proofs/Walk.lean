import FilterQuery.Proofs.Checks

/-!
# The walk through a filter

Compiling a filter makes its checks one after the other and stops at the first that fails. When all
of them pass, it has recorded the fields of the filter's targets and gives a query that depends
neither on the policy nor on what had been recorded before. `Performs` says this of a computation;
it is proved for the parts of a clause, for clauses, and then along the tree for filters.
-/

namespace FilterQuery

namespace Resolver

def recordAll (r : Resolver) (fields : List String) : Resolver :=
  fields.foldl record r

@[simp] theorem recordAll_nil (r : Resolver) : r.recordAll [] = r := rfl

@[simp] theorem recordAll_append (r : Resolver) (fields more : List String) :
    r.recordAll (fields ++ more) = (r.recordAll fields).recordAll more := by
  simp [recordAll]

@[simp] theorem policy_recordAll (r : Resolver) (fields : List String) :
    (r.recordAll fields).policy = r.policy := by
  induction fields generalizing r with
  | nil => rfl
  | cons field fields ih => exact (ih (r.record field)).trans (policy_record r field)

theorem fields_record (r : Resolver) (field : String) :
    (r.record field).fields = if field ∈ r.fields then r.fields else r.fields ++ [field] := by
  simp only [record, hasField_iff]
  split <;> rfl

/-- A fresh resolver keeps the first mention of every field. -/
theorem fields_recordAll_start (p : Policy) (fields : List String) :
    ((start p).recordAll fields).fields = fields.eraseDups := by
  induction fields using List.reverseRecOn with
  | nil => rfl
  | append_singleton fields field ih =>
    rw [recordAll_append, List.eraseDups_append, ← ih]
    change (((start p).recordAll fields).record field).fields = _
    rw [fields_record, ih]
    by_cases known : field ∈ fields <;> simp [List.removeAll, List.eraseDups_cons, known]

theorem hasField_recordAll_start (p : Policy) (fields : List String) (field : String) :
    ((start p).recordAll fields).hasField field = fields.contains field := by
  rw [Bool.eq_iff_iff, hasField_iff, fields_recordAll_start, List.mem_eraseDups,
    List.contains_iff_mem]

section Call

-- Everything that can come of a call, in the order in which it is looked for.
variable {r : Resolver} {t : Target}

theorem resolve_of_long_field (h : ¬ t.head.isWritable = true) :
    r.resolve t = (.error (.badValue .numberTooLong), r) := by
  unfold resolve keyOf
  rw [Value.requireWritable_of_not_isWritable h]
  rfl

theorem resolve_of_refused (hhead : t.head.isWritable = true) (h : ¬ r.policy.Admits t.field) :
    r.resolve t = (.error (r.policy.refusal t.field), r) := by
  unfold resolve keyOf
  rw [Value.requireWritable_of_isWritable hhead, Policy.check_of_not_admits h]
  rfl

theorem resolve_of_long_segment (hhead : t.head.isWritable = true)
    (hfield : r.policy.Admits t.field) (h : ¬ t.toValue.isWritable = true) :
    r.resolve t = (.error (.badValue .numberTooLong), r) := by
  unfold resolve keyOf
  rw [Value.requireWritable_of_isWritable hhead, Policy.check_of_admits hfield,
    Value.requireWritable_of_not_isWritable h]
  rfl

theorem resolve_of_illegal (hwritable : t.toValue.isWritable = true)
    (hfield : r.policy.Admits t.field) (h : ¬ t.Legal) :
    r.resolve t = (.error (.invalidTarget t), r) := by
  unfold resolve keyOf
  rw [Value.requireWritable_of_isWritable (Target.isWritable_head hwritable),
    Policy.check_of_admits hfield, Value.requireWritable_of_isWritable hwritable,
    if_neg (mt t.isLegal_iff.mp h)]
  rfl

theorem resolve_of_accepted (hwritable : t.toValue.isWritable = true)
    (hfield : r.policy.Admits t.field) (hlegal : t.Legal) :
    r.resolve t = (.ok t.key, r.record t.field) := by
  unfold resolve keyOf
  rw [Value.requireWritable_of_isWritable (Target.isWritable_head hwritable),
    Policy.check_of_admits hfield, Value.requireWritable_of_isWritable hwritable,
    if_pos (t.isLegal_iff.mpr hlegal)]
  rfl

end Call

end Resolver

namespace Fragment

variable {κ : Type} (key : κ)

theorem ofTargeted_compare (c : Comparison) {v : Value} (h : v ≠ .null) :
    ofTargeted key (.compare c) v = .ok (compared key c v) := by
  simp [ofTargeted, firstOf, compilers, ofNull?, ofComparison?, h, bind, Except.bind, pure,
    Except.pure]

theorem matching_like {pattern : Value} {name : Name} (h : pattern.name? = some name) :
    matching key (.like pattern) = .ok (.regexp key (regexpOf pattern)) := by
  simp [matching, Value.string?, h]

theorem ofTargeted_like {pattern : Value} {name : Name} (h : pattern.name? = some name) :
    ofTargeted key .like (.like pattern) = .ok (.regexp key (regexpOf pattern)) := by
  simp [ofTargeted, firstOf, compilers, ofNull?, ofComparison?, ofPattern?, matching_like key h,
    bind, Except.bind, pure, Except.pure]

theorem ofTargeted_unlike {pattern : Value} {name : Name} (h : pattern.name? = some name) :
    ofTargeted key .unlike (.like pattern) = .ok (.not (.regexp key (regexpOf pattern))) := by
  simp [ofTargeted, firstOf, compilers, ofNull?, ofComparison?, ofPattern?, matching_like key h,
    bind, Except.bind, pure, Except.pure]

theorem oneOf_of_members {v : Value} {items : List Value} (h : v.members? = some items) :
    oneOf key v = .ok (.terms key items) := by
  simp [oneOf, h]

/-- The query that a comparison of a field with a literal gives, by its operator. -/
inductive Gives : Operator → Value → Query κ → Prop
  | null (c : Comparison) :
      Gives (.compare c) .null (if asksPresence c then .present key else .not (.present key))
  | compare (c : Comparison) {v : Value} : v ≠ .null → Gives (.compare c) v (compared key c v)
  | between (lower upper : Value) :
      Gives .between (.range lower upper) (.range key [(.gte, lower), (.lte, upper)])
  | outside (lower upper : Value) :
      Gives .outside (.range lower upper) (.not (.range key [(.gte, lower), (.lte, upper)]))
  | like {pattern : Value} {name : Name} :
      pattern.name? = some name → Gives .like (.like pattern) (.regexp key (regexpOf pattern))
  | unlike {pattern : Value} {name : Name} :
      pattern.name? = some name →
      Gives .unlike (.like pattern) (.not (.regexp key (regexpOf pattern)))
  | among {v : Value} {items : List Value} :
      v.members? = some items → Gives .among v (.terms key items)
  | notAmong {v : Value} {items : List Value} :
      v.members? = some items → Gives .notAmong v (.not (.terms key items))

variable {key} {op : Operator} {v : Value} {q : Query κ}

theorem Gives.ofTargeted_eq (h : Gives key op v q) : ofTargeted key op v = .ok q := by
  cases h with
  | null _ | between _ _ | outside _ _ => rfl
  | compare c hnull => exact ofTargeted_compare key c hnull
  | like hname => exact ofTargeted_like key hname
  | unlike hname => exact ofTargeted_unlike key hname
  | among hitems | notAmong hitems =>
    simp [ofTargeted, firstOf, compilers, ofNull?, ofComparison?, ofPattern?, ofMembership?,
      oneOf_of_members key hitems, bind, Except.bind, pure, Except.pure]

theorem exists_gives (key : κ) (h : Operand.Fits op v) : ∃ q, Gives key op v q := by
  cases op with
  | compare c =>
    by_cases hnull : v = .null
    · subst hnull
      exact ⟨_, .null c⟩
    · exact ⟨_, .compare c hnull⟩
  | between =>
    obtain ⟨lower, upper, rfl⟩ := h
    exact ⟨_, .between lower upper⟩
  | outside =>
    obtain ⟨lower, upper, rfl⟩ := h
    exact ⟨_, .outside lower upper⟩
  | like =>
    obtain ⟨pattern, name, rfl, hname⟩ := h
    exact ⟨_, .like hname⟩
  | unlike =>
    obtain ⟨pattern, name, rfl, hname⟩ := h
    exact ⟨_, .unlike hname⟩
  | among =>
    obtain ⟨items, rfl | rfl⟩ := h <;> exact ⟨_, .among rfl⟩
  | notAmong =>
    obtain ⟨items, rfl | rfl⟩ := h <;> exact ⟨_, .notAmong rfl⟩

theorem exists_ofTargeted (key : κ) (h : Operand.Fits op v) : ∃ q, ofTargeted key op v = .ok q := by
  obtain ⟨q, hq⟩ := exists_gives key h
  exact ⟨q, hq.ofTargeted_eq⟩

theorem gives_of_ofTargeted (fits : Operand.Fits op v) (h : ofTargeted key op v = .ok q) :
    Gives key op v q := by
  obtain ⟨q', hq'⟩ := exists_gives key fits
  obtain rfl : q' = q := Except.ok.inj (hq'.ofTargeted_eq.symm.trans h)
  exact hq'

end Fragment

namespace Resolving

variable {α β : Type}

/-- The computation makes the checks in order. A failed one decides the outcome; otherwise the
fields are recorded and the result is the given one. -/
structure Performs (m : Resolving α) (checks : List Check) (fields : List String) (a : α) :
    Prop where
  ok : ∀ r : Resolver, (∀ c ∈ checks, c.Passes r.policy) →
    m.runFrom r = (.ok a, r.recordAll fields)
  error : ∀ (r : Resolver) (fault : Fault), Check.FirstFault r.policy checks fault →
    (m.runFrom r).1 = .error fault

namespace Performs

variable {m : Resolving α} {next : α → Resolving β} {checks more : List Check}
  {fields others : List String} {a : α} {b : β}

theorem pure (a : α) : Performs (Pure.pure a) [] [] a where
  ok _ _ := rfl
  error _ _ h := nomatch h

theorem bind (hm : Performs m checks fields a) (hnext : Performs (next a) more others b) :
    Performs (m >>= next) (checks ++ more) (fields ++ others) b where
  ok r h := by
    have hchecks := hm.ok r fun c hc => h c (List.mem_append_left _ hc)
    have hmore := hnext.ok (r.recordAll fields) fun c hc => by
      rw [Resolver.policy_recordAll]
      exact h c (List.mem_append_right _ hc)
    rw [runFrom_bind, hchecks, Resolver.recordAll_append]
    exact hmore
  error r fault h := by
    rw [runFrom_bind]
    rcases Check.firstFault_append.mp h with h | ⟨hchecks, h⟩
    · have hrun := hm.error r fault h
      revert hrun
      generalize m.runFrom r = run
      obtain ⟨result, r'⟩ := run
      rintro rfl
      rfl
    · rw [hm.ok r hchecks]
      exact hnext.error (r.recordAll fields) fault (by rwa [Resolver.policy_recordAll])

theorem of_runFrom_ok (hm : Performs m checks fields a) {r r' : Resolver} {result : α}
    (h : m.runFrom r = (.ok result, r')) :
    (∀ c ∈ checks, c.Passes r.policy) ∧ result = a ∧ r' = r.recordAll fields := by
  rcases Check.passes_or_firstFault r.policy checks with hpass | ⟨fault, hfault⟩
  · have hrun := (hm.ok r hpass).symm.trans h
    exact ⟨hpass, (Except.ok.inj (congrArg Prod.fst hrun)).symm, (congrArg Prod.snd hrun).symm⟩
  · have herror := hm.error r fault hfault
    rw [h] at herror
    cases herror

theorem map (g : α → β) (hm : Performs m checks fields a) :
    Performs (m >>= fun a => Pure.pure (g a)) checks fields (g a) where
  ok r h := by
    rw [runFrom_bind, hm.ok r h]
    rfl
  error r fault h := by
    have hbind : Performs (m >>= fun a => Pure.pure (g a)) (checks ++ []) (fields ++ []) (g a) :=
      hm.bind (pure (g a))
    exact hbind.error r fault (by rwa [List.append_nil])

/-- A check that never passes makes everything after it irrelevant. -/
theorem of_failing {c : Check} (hc : ∀ p, ¬ c.Passes p)
    (hm : ∀ r, (m.runFrom r).1 = .error (c.fault r.policy)) :
    Performs m (c :: checks) fields a where
  ok r h := absurd (h c (by simp)) (hc r.policy)
  error r fault h := by
    cases h with
    | here _ => exact hm r
    | later h _ => exact absurd h (hc r.policy)

theorem cons {c : Check} (hc : ∀ p, c.Passes p) (hm : Performs m checks fields a) :
    Performs m (c :: checks) fields a where
  ok r h := hm.ok r fun d hd => h d (by simp [hd])
  error r fault h := by
    cases h with
    | here h => exact absurd (hc r.policy) h
    | later _ h => exact hm.error r fault h

theorem ofExcept {result : Except Fault α} (h : result = .ok a) :
    Performs (Resolving.ofExcept result) [] [] a := by
  subst h
  exact pure a

theorem resolve (t : Target) :
    Performs (Resolving.resolve t) [.admitted t, .legal t] [t.field] t.key where
  ok r h := by
    obtain ⟨-, hfield⟩ := h (.admitted t) (by simp)
    obtain ⟨hwritable, hlegal⟩ := h (.legal t) (by simp)
    rw [runFrom_resolve, Resolver.resolve_of_accepted hwritable hfield hlegal]
    rfl
  error r fault h := by
    rw [runFrom_resolve]
    cases h with
    | here h =>
      by_cases hhead : t.head.isWritable = true
      · have hfield : ¬ r.policy.Admits t.field := fun hfield => h ⟨hhead, hfield⟩
        rw [Resolver.resolve_of_refused hhead hfield,
          Check.fault_of_isWritten (c := .admitted t) hhead]
        rfl
      · rw [Resolver.resolve_of_long_field hhead,
          Check.fault_of_not_isWritten (c := .admitted t) hhead]
    | later hpass h =>
      obtain ⟨hhead, hfield⟩ := hpass
      cases h with
      | here h =>
        by_cases hwritable : t.toValue.isWritable = true
        · have hlegal : ¬ t.Legal := fun hlegal => h ⟨hwritable, hlegal⟩
          rw [Resolver.resolve_of_illegal hwritable hfield hlegal,
            Check.fault_of_isWritten (c := .legal t) hwritable]
          rfl
        · rw [Resolver.resolve_of_long_segment hhead hfield hwritable,
            Check.fault_of_not_isWritten (c := .legal t) hwritable]
      | later _ h => cases h

end Performs
end Resolving

namespace Clause

open Resolving

theorem readOperator_of_isOperator {v : Value} {op : Operator} (h : v.IsOperator op) :
    readOperator v = .ok op := by
  rw [readOperator, Value.operator?_eq_some_iff.mpr h]

theorem readOperator_of_not_isOperator {v : Value} (h : ¬ ∃ op, v.IsOperator op) :
    readOperator v = .error (.showing v (.convert (.unknownOperator v))) := by
  cases hv : v.operator? with
  | none => rw [readOperator, hv]
  | some op => exact absurd ⟨op, Value.operator?_eq_some_iff.mp hv⟩ h

/-- Both kinds of script read the operator and then ask for a comparison. -/
theorem performs_script_of_comparison {op : Value} {c : Comparison}
    (h : op.IsOperator (.compare c)) (build : Comparison → Query String) :
    Performs
      (Resolving.ofExcept (readOperator op) >>= fun o =>
        Resolving.ofExcept (return build (← Fragment.comparison o)))
      [.isOperator op, .isComparison op] [] (build c) := by
  refine .cons (fun _ => ⟨h.isWritable, _, h⟩) (.cons (fun _ => ⟨rfl, c, h⟩) ?_)
  refine (Performs.ofExcept (readOperator_of_isOperator h)).bind ?_
  exact .ofExcept rfl

theorem performs_script (op : Value) (build : Comparison → Query String) :
    ∃ q, Performs
      (Resolving.ofExcept (readOperator op) >>= fun o =>
        Resolving.ofExcept (return build (← Fragment.comparison o)))
      [.isOperator op, .isComparison op] [] q := by
  by_cases known : ∃ o, op.IsOperator o
  · obtain ⟨o, ho⟩ := known
    cases o with
    | compare c => exact ⟨build c, performs_script_of_comparison ho build⟩
    | _ =>
      refine ⟨default, .cons (fun _ => ⟨ho.isWritable, _, ho⟩) (.of_failing ?_ ?_)⟩
      · rintro - ⟨-, c, hc⟩
        cases hc.unique ho
      · intro r
        rw [readOperator_of_isOperator ho]
        rfl
  · refine ⟨default, .of_failing (fun _ h => known h.2) fun r => ?_⟩
    rw [readOperator_of_not_isOperator known]
    rfl

section Targeted

-- The operator is exchanged for another one that takes the same operands.
variable (exchange : Operator → Operator)
  (hexchange : ∀ o v, Operand.Fits (exchange o) v ↔ Operand.Fits o v)
include hexchange

theorem performs_targeted_of_fits {t : Target} {op v : Value} {o : Operator} {q : Query String}
    (ho : op.IsOperator o) (fits : Operand.Fits o v)
    (hq : Fragment.ofTargeted t.key (exchange o) v = .ok q) :
    Performs
      (Resolving.ofExcept (readOperator op) >>= fun o => compileTargeted t (exchange o) v)
      (targetedChecks t op v) [t.field] q := by
  have hoperator : ∀ p, (Check.isOperator op).Passes p := fun _ => ⟨ho.isWritable, o, ho⟩
  have hoperand : ∀ p, (Check.operandFits op v).Passes p :=
    fun _ => ⟨rfl, fun o' ho' => ho.unique ho' ▸ fits⟩
  refine .cons hoperator (.cons hoperand ?_)
  have hread := Performs.ofExcept (readOperator_of_isOperator ho)
  have hcheck := Performs.ofExcept (Operand.check_of_fits ((hexchange o v).mpr fits))
  have hresolve := Performs.resolve t
  refine hread.bind (hcheck.bind (hresolve.bind ?_))
  exact .ofExcept hq

theorem performs_targeted (t : Target) (op v : Value) :
    ∃ q, Performs
      (Resolving.ofExcept (readOperator op) >>= fun o => compileTargeted t (exchange o) v)
      (targetedChecks t op v) [t.field] q := by
  by_cases known : ∃ o, op.IsOperator o
  · obtain ⟨o, ho⟩ := known
    by_cases fits : Operand.Fits o v
    · obtain ⟨q, hq⟩ := Fragment.exists_ofTargeted t.key ((hexchange o v).mpr fits)
      exact ⟨q, performs_targeted_of_fits exchange hexchange ho fits hq⟩
    · have hoperator : ∀ p, (Check.isOperator op).Passes p := fun _ => ⟨ho.isWritable, o, ho⟩
      refine ⟨default, .cons hoperator (.of_failing (fun _ h => fits (h.2 o ho)) ?_)⟩
      intro r
      rw [readOperator_of_isOperator ho]
      change ((compileTargeted t (exchange o) v).runFrom r).1 = _
      rw [compileTargeted, Operand.check_of_not_fits (mt (hexchange o v).mp fits)]
      rfl
  · refine ⟨default, .of_failing (fun _ h => known h.2) fun r => ?_⟩
    rw [readOperator_of_not_isOperator known]
    rfl

end Targeted

section OneTarget

variable (t : Target) (op : Value) {v : Value} (hv : v.target? = none)
include hv

theorem compile_subject : compile ⟨t.toValue, op, v⟩ =
    Resolving.ofExcept (readOperator op) >>= fun o => compileTargeted t o v := by
  simp only [compile, targetFirst, Value.target?_toValue, hv]
  rfl

theorem compile_object : compile ⟨v, op, t.toValue⟩ =
    Resolving.ofExcept (readOperator op) >>= fun o => compileTargeted t o.inverse v := by
  simp only [compile, targetFirst, Value.target?_toValue, hv]
  cases readOperator op <;> rfl

end OneTarget

/-- Which fragment a clause has, by the places of its targets. -/
inductive Compiles : Clause → Query String → Prop
  | fields {s o : Target} {op : Value} {c : Comparison} :
      op.IsOperator (.compare c) → s.Resolvable → o.Resolvable →
      Compiles ⟨s.toValue, op, o.toValue⟩ (.compareFields s.key c o.key)
  | literals {v w op : Value} {c : Comparison} :
      v.target? = none → w.target? = none → op.IsOperator (.compare c) →
      Compiles ⟨v, op, w⟩ (.compareLiterals v c w)
  | subject {t : Target} {v op : Value} {o : Operator} {q : Query String} :
      v.target? = none → op.IsOperator o → Operand.Fits o v → t.Resolvable →
      Fragment.ofTargeted t.key o v = .ok q → Compiles ⟨t.toValue, op, v⟩ q
  | object {t : Target} {v op : Value} {o : Operator} {q : Query String} :
      v.target? = none → op.IsOperator o → Operand.Fits o v → t.Resolvable →
      Fragment.ofTargeted t.key o.inverse v = .ok q → Compiles ⟨v, op, t.toValue⟩ q

theorem Compiles.performs {c : Clause} {q : Query String} (h : c.Compiles q) :
    Performs c.compile c.checks (c.targets.map Target.field) q := by
  cases h with
  | @fields s o op c hop _ _ =>
    have hscript := performs_script_of_comparison hop (.compareFields s.key · o.key)
    exact (Performs.resolve s).bind ((Performs.resolve o).bind hscript)
  | @literals v w op c hv hw hop =>
    simp only [compile, checks, targets, hv, hw]
    exact performs_script_of_comparison hop (.compareLiterals v · w)
  | @subject t v op o q hv ho fits _ hq =>
    rw [compile_subject t op hv]
    simp only [checks, targets, hv, Value.target?_toValue]
    exact performs_targeted_of_fits id (fun _ _ => Iff.rfl) ho fits hq
  | @object t v op o q hv ho fits _ hq =>
    rw [compile_object t op hv]
    simp only [checks, targets, hv, Value.target?_toValue]
    exact performs_targeted_of_fits Operator.inverse Operand.fits_inverse ho fits hq

theorem performs_compile (c : Clause) :
    ∃ q, Performs c.compile c.checks (c.targets.map Target.field) q := by
  obtain ⟨v, op, w⟩ := c
  cases hv : v.target? with
  | some s =>
    obtain rfl := Value.target?_eq_some_iff.mp hv
    cases hw : w.target? with
    | some o =>
      obtain rfl := Value.target?_eq_some_iff.mp hw
      obtain ⟨q, hq⟩ := performs_script op (.compareFields s.key · o.key)
      exact ⟨q, (Performs.resolve s).bind ((Performs.resolve o).bind hq)⟩
    | none =>
      rw [compile_subject s op hw]
      simp only [checks, targets, hw, Value.target?_toValue]
      exact performs_targeted id (fun _ _ => Iff.rfl) s op w
  | none =>
    cases hw : w.target? with
    | some o =>
      obtain rfl := Value.target?_eq_some_iff.mp hw
      rw [compile_object o op hv]
      simp only [checks, targets, hv, Value.target?_toValue]
      exact performs_targeted Operator.inverse Operand.fits_inverse o op v
    | none =>
      simp only [compile, checks, targets, hv, hw]
      exact performs_script op (.compareLiterals v · w)

end Clause

namespace Filter

open Resolving

theorem readConjunction_of_isConjunction {v : Value} {c : Conjunction} (h : v.IsConjunction c) :
    readConjunction v = .ok c := by
  rw [readConjunction, Value.conjunction?_eq_some_iff.mpr h]

theorem readConjunction_of_not_isConjunction {v : Value} (h : ¬ ∃ c, v.IsConjunction c) :
    readConjunction v = .error (.showing v (.convert (.unknownConjunction v))) := by
  cases hv : v.conjunction? with
  | none => rw [readConjunction, hv]
  | some c => exact absurd ⟨c, Value.conjunction?_eq_some_iff.mp hv⟩ h

theorem performs_statement_of_content {content conj : Value} {c : Conjunction} {q : Query String}
    (hc : conj.IsConjunction c) (hq : Performs (compileContent content) (contentChecks content)
      ((contentTargets content).map Target.field) q) :
    Performs (compileStatement (.statement content conj))
      (statementChecks (.statement content conj))
      ((statementTargets (.statement content conj)).map Target.field) (c, q) := by
  have hread := Performs.ofExcept (readConjunction_of_isConjunction hc)
  have hstatement : ∀ p, (Check.isStatement (.statement content conj)).Passes p :=
    fun _ => ⟨rfl, content, conj, rfl⟩
  refine .cons hstatement (.cons (fun _ => ⟨hc.isWritable, c, hc⟩) (hread.bind ?_))
  exact hq.map fun q => (c, q)

theorem performs_statements_cons {v : Value} {vs : List Value} {cq : Conjunction × Query String}
    {sq : List (Conjunction × Query String)}
    (hcq : Performs (compileStatement v) (statementChecks v)
      ((statementTargets v).map Target.field) cq)
    (hsq : Performs (compileStatements vs) (statementsChecks vs)
      ((statementsTargets vs).map Target.field) sq) :
    Performs (compileStatements (v :: vs)) (statementsChecks (v :: vs))
      ((statementsTargets (v :: vs)).map Target.field) (cq :: sq) := by
  rw [statementsChecks, statementsTargets, List.map_append]
  refine hcq.bind ?_
  exact hsq.map fun sq => cq :: sq

mutual

theorem performs_content (v : Value) :
    ∃ q, Performs (compileContent v) (contentChecks v) ((contentTargets v).map Target.field) q := by
  cases v with
  | filter statements =>
    obtain ⟨sq, hsq⟩ := performs_statements statements
    exact ⟨.ofStatements sq, hsq.map Query.ofStatements⟩
  | clause subject op object =>
    obtain ⟨q, hq⟩ := Clause.performs_compile ⟨subject, op, object⟩
    exact ⟨q, .cons (fun _ => ⟨rfl, subject, op, object, rfl⟩) hq⟩
  | _ => exact ⟨default, .of_failing (by rintro - ⟨-, _, _, _, h⟩; cases h) fun _ => rfl⟩
termination_by structural v

theorem performs_statement (v : Value) :
    ∃ cq, Performs (compileStatement v) (statementChecks v)
      ((statementTargets v).map Target.field) cq := by
  cases v with
  | statement content conj =>
    by_cases known : ∃ c, conj.IsConjunction c
    · obtain ⟨c, hc⟩ := known
      obtain ⟨q, hq⟩ := performs_content content
      exact ⟨(c, q), performs_statement_of_content hc hq⟩
    · have hstatement : ∀ p, (Check.isStatement (.statement content conj)).Passes p :=
        fun _ => ⟨rfl, content, conj, rfl⟩
      refine ⟨default, .cons hstatement (.of_failing (fun _ h => known h.2) ?_)⟩
      intro r
      rw [compileStatement, readConjunction_of_not_isConjunction known]
      rfl
  | _ => exact ⟨default, .of_failing (by rintro - ⟨-, _, _, h⟩; cases h) fun _ => rfl⟩
termination_by structural v

theorem performs_statements (vs : List Value) :
    ∃ sq, Performs (compileStatements vs) (statementsChecks vs)
      ((statementsTargets vs).map Target.field) sq := by
  cases vs with
  | nil => exact ⟨[], .pure []⟩
  | cons v vs =>
    obtain ⟨cq, hcq⟩ := performs_statement v
    obtain ⟨sq, hsq⟩ := performs_statements vs
    exact ⟨cq :: sq, performs_statements_cons hcq hsq⟩
termination_by structural vs

end

theorem firstFault_mentioned {p : Policy} {required fields : List String} {fault : Fault} :
    Check.FirstFault p (required.map fun field => .mentioned field fields) fault ↔
      ∃ field, required.find? (fun field => !fields.contains field) = some field ∧
        fault = .required field := by
  induction required with
  | nil => exact ⟨nofun, nofun⟩
  | cons field required ih =>
    rw [List.map_cons, List.find?_cons]
    by_cases known : field ∈ fields
    · rw [List.contains_iff_mem.mpr known]
      refine Iff.trans ⟨fun h => ?_, fun h => .later ⟨rfl, known⟩ h⟩ ih
      cases h with
      | here missing => exact absurd ⟨rfl, known⟩ missing
      | later _ h => exact h
    · rw [List.contains_eq_mem, decide_eq_false known]
      constructor
      · intro h
        cases h with
        | here _ => exact ⟨field, rfl, rfl⟩
        | later h _ => exact absurd h.2 known
      · rintro ⟨other, hother, rfl⟩
        obtain rfl : field = other := Option.some.inj hother
        exact .here fun h => known h.2

theorem missingField?_recordAll (p : Policy) (fields : List String) :
    missingField? ((Resolver.start p).recordAll fields) =
      p.require.find? fun field => !fields.contains field := by
  rw [missingField?, Resolver.policy_recordAll]
  simp only [Resolver.hasField_recordAll_start]
  rfl

/-- A conversion does what its statements do, and then looks for the required fields. -/
theorem convert_of_performs {f : Filter} {sq : List (Conjunction × Query String)}
    (hsq : Performs (compileStatements f.statements) (statementsChecks f.statements)
      (f.targets.map Target.field) sq) (p : Policy) :
    ((∀ c ∈ f.checks p, c.Passes p) →
      f.convert p = .ok ⟨(f.targets.map Target.field).eraseDups, .ofStatements sq⟩) ∧
    ∀ fault, Check.FirstFault p (f.checks p) fault → f.convert p = .error fault := by
  have hcompile : Performs f.compile (statementsChecks f.statements)
      (f.targets.map Target.field) (.ofStatements sq) := hsq.map Query.ofStatements
  constructor
  · intro h
    have hrun := hcompile.ok (.start p) fun c hc => h c (List.mem_append_left _ hc)
    have hnone : p.require.find?
        (fun field => !(f.targets.map Target.field).contains field) = none := by
      rw [List.find?_eq_none]
      intro field hfield
      have hmentioned : field ∈ f.targets.map Target.field :=
        (h (.mentioned field _) (List.mem_append_right _ (List.mem_map_of_mem hfield))).2
      simpa using hmentioned
    simp only [convert, hrun, missingField?_recordAll, hnone, Resolver.fields_recordAll_start]
  · intro fault h
    rcases Check.firstFault_append.mp h with h | ⟨hpass, h⟩
    · have hrun := hcompile.error (.start p) fault h
      unfold convert
      revert hrun
      generalize f.compile.runFrom (.start p) = run
      obtain ⟨result, r⟩ := run
      rintro rfl
      rfl
    · obtain ⟨field, hfield, rfl⟩ := firstFault_mentioned.mp h
      simp only [convert, hcompile.ok (.start p) hpass, missingField?_recordAll, hfield]

/-- A filter has one query, which is the outcome of its conversion under every policy that lets all
checks pass; under any other policy the first failing check decides. -/
theorem convert_performs (f : Filter) : ∃ q, ∀ p : Policy,
    ((∀ c ∈ f.checks p, c.Passes p) →
      f.convert p = .ok ⟨(f.targets.map Target.field).eraseDups, q⟩) ∧
    ∀ fault, Check.FirstFault p (f.checks p) fault → f.convert p = .error fault := by
  obtain ⟨sq, hsq⟩ := performs_statements f.statements
  exact ⟨.ofStatements sq, convert_of_performs hsq⟩

end Filter
end FilterQuery
