import FilterQuery.Proofs.Leaves
import FilterQuery.Proofs.Trees
import FilterQuery.Proofs.Verdict

/-!
# Drafted filters convert

A draft to which comparisons are added, and no finished values, holds nothing but comparisons of a
target by an operator and groups of them, and a group is closed only when it has members. So the
filter that is built is a tree of such comparisons. What can still be wrong with it are the operands
and the names: when every operand fits its operator, the filter converts, or one of its targets
cannot be resolved. The first of these targets decides: the conversion names it when it is illegal,
and fails without a notice when it cannot be written.
-/

namespace FilterQuery

def Value.IsTargetClause (v : Value) : Prop :=
  ∃ (t : Target) (op : Operator) (operand : Value), v = .clause t.toValue (.operator op) operand

namespace Filter

theorem areTreeStatements_append {vs ws : List Value} :
    AreTreeStatements (vs ++ ws) ↔ AreTreeStatements vs ∧ AreTreeStatements ws := by
  induction vs with
  | nil => simp [AreTreeStatements]
  | cons v vs ih => simp [AreTreeStatements, ih, and_assoc]

end Filter

namespace Draft

open FilterQuery.Filter

/-- The statements of a draft, at the top level and in the open groups, are those of trees. -/
structure HoldsTrees (d : Draft) : Prop where
  statements : AreTreeStatements d.statements
  groups : ∀ group ∈ d.groups, AreTreeStatements group.statements

theorem holdsTrees_empty : empty.HoldsTrees :=
  ⟨trivial, by simp [empty]⟩

theorem HoldsTrees.append {d : Draft} {content : Value} (hd : d.HoldsTrees)
    (hcontent : IsTreeContent content) (c : Conjunction) : (d.append content c).HoldsTrees := by
  have hnew : AreTreeStatements [.statement content (.conjunction c)] := ⟨hcontent, trivial⟩
  obtain ⟨statements, groups⟩ := d
  cases groups with
  | nil => exact ⟨areTreeStatements_append.mpr ⟨hd.statements, hnew⟩, hd.groups⟩
  | cons group outer =>
    obtain ⟨hgroup, houter⟩ := List.forall_mem_cons.mp hd.groups
    refine ⟨hd.statements, List.forall_mem_cons.mpr ⟨?_, houter⟩⟩
    exact areTreeStatements_append.mpr ⟨hgroup, hnew⟩

theorem HoldsTrees.outer {d : Draft} {group : OpenGroup} {outer : List OpenGroup}
    (hd : d.HoldsTrees) (h : d.groups = group :: outer) :
    AreTreeStatements group.statements ∧ HoldsTrees { d with groups := outer } := by
  obtain ⟨hstatements, hgroups⟩ := hd
  rw [h, List.forall_mem_cons] at hgroups
  exact ⟨hgroups.1, hstatements, hgroups.2⟩

theorem Step.holdsTrees {d d' : Draft} {call : Call} {result : Except Fault Outcome}
    (h : Step d call result d') (hadd : ∀ content conj, call ≠ .add content conj)
    (hd : d.HoldsTrees) : d'.HoldsTrees := by
  cases h with
  | compared hclause =>
    obtain ⟨t, o, -, -, rfl⟩ := readClause_eq_ok_iff.mp hclause
    refine hd.append ?_ _
    trivial
  | @added content conj c _ => exact absurd rfl (hadd content conj)
  | opened => exact ⟨hd.statements, List.forall_mem_cons.mpr ⟨trivial, hd.groups⟩⟩
  | closed hgroups hnonempty =>
    obtain ⟨hgroup, houter⟩ := hd.outer hgroups
    refine houter.append ?_ _
    exact ⟨hnonempty, hgroup⟩
  | dropped hgroups _ => exact (hd.outer hgroups).2
  | reset => exact holdsTrees_empty
  | _ => exact hd

theorem HoldsTrees.run {d : Draft} (hd : d.HoldsTrees) {calls : List Call}
    (hadd : ∀ content conj, Call.add content conj ∉ calls) : (d.run calls).HoldsTrees := by
  induction calls generalizing d with
  | nil => exact hd
  | cons call calls ih =>
    apply ih
    · apply (d.step_perform call).holdsTrees _ hd
      rintro content conj rfl
      exact hadd content conj (List.mem_cons_self ..)
    · intro content conj hmem
      exact hadd content conj (List.mem_cons_of_mem _ hmem)

theorem succeeding_sublist (d : Draft) (calls : List Call) :
    (d.succeeding calls).Sublist calls := by
  induction calls generalizing d with
  | nil => exact .slnil
  | cons call calls ih =>
    rw [succeeding]
    split
    · exact (ih _).cons_cons call
    · exact (ih _).cons call

/-- The leaves come from the calls, so without finished values they are comparisons of targets. -/
theorem isTargetClause_of_mem_leaves {calls : List Call}
    (hadd : ∀ content conj, Call.add content conj ∉ calls) :
    ∀ v ∈ (empty.run calls).leaves, v.IsTargetClause := by
  rw [leaves_run]
  intro v hv
  obtain ⟨value, hvalue, hv⟩ := List.mem_flatMap.mp hv
  obtain ⟨call, hcall, hvalue⟩ := List.mem_filterMap.mp hvalue
  have hmem : call ∈ calls :=
    (succeeding_sublist _ _).subset ((List.rtakeWhile_suffix _ _).subset hcall)
  cases call with
  | compare c subject op operand =>
    rw [Call.value?] at hvalue
    split at hvalue
    · rename_i t o _ _
      obtain rfl := Option.some.inj hvalue
      obtain rfl := List.mem_singleton.mp hv
      exact ⟨t, o, operand, rfl⟩
    · cases hvalue
  | add content conj => exact absurd hmem (hadd content conj)
  | _ => cases hvalue

end Draft

namespace Check

/-- Without a policy every check passes, apart from those of the targets, which come in order. -/
inductive OnlyTargets : List Check → List Target → Prop
  | nil : OnlyTargets [] []
  | pass {c : Check} {checks : List Check} {targets : List Target} :
      c.Passes .unrestricted → OnlyTargets checks targets → OnlyTargets (c :: checks) targets
  | target (t : Target) {checks : List Check} {targets : List Target} :
      OnlyTargets checks targets → OnlyTargets (.admitted t :: .legal t :: checks) (t :: targets)

namespace OnlyTargets

variable {checks more : List Check} {targets others : List Target}

theorem append (h : OnlyTargets checks targets) (h' : OnlyTargets more others) :
    OnlyTargets (checks ++ more) (targets ++ others) := by
  induction h with
  | nil => exact h'
  | pass hc _ ih => exact .pass hc ih
  | target t _ ih => exact .target t ih

/-- A target that cannot be resolved fails at its segments, whether or not its field can be
written. -/
theorem firstFault_of_target {t : Target} (h : ¬ t.Resolvable) (checks : List Check) :
    FirstFault .unrestricted (.admitted t :: .legal t :: checks)
      ((Check.legal t).fault .unrestricted) := by
  by_cases hhead : t.head.isWritable = true
  · exact .later (passes_admitted hhead) (.here h)
  · have hlong : ¬ (Check.legal t).isWritten = true := mt Target.isWritable_head hhead
    rw [fault_of_not_isWritten hlong, ← fault_of_not_isWritten (c := .admitted t) hhead]
    exact .here fun hpass => hhead hpass.1

/-- Either all checks pass, or the first target that cannot be resolved is the fault. -/
theorem passes_or_firstFault_of_target (h : OnlyTargets checks targets) :
    (∀ t ∈ targets, t.Resolvable) ∧ (∀ c ∈ checks, c.Passes .unrestricted) ∨
      ∃ passed t rest, targets = passed ++ t :: rest ∧ (∀ u ∈ passed, u.Resolvable) ∧
        ¬ t.Resolvable ∧ FirstFault .unrestricted checks ((Check.legal t).fault .unrestricted) := by
  induction h with
  | nil => exact .inl (by simp)
  | pass hc _ ih =>
    rcases ih with ⟨htargets, hchecks⟩ | ⟨passed, t, rest, rfl, hpassed, ht, hfault⟩
    · exact .inl ⟨htargets, List.forall_mem_cons.mpr ⟨hc, hchecks⟩⟩
    · exact .inr ⟨passed, t, rest, rfl, hpassed, ht, .later hc hfault⟩
  | @target t checks targets _ ih =>
    by_cases ht : t.Resolvable
    · have hadmitted := passes_admitted (Target.isWritable_head ht.1)
      rcases ih with ⟨htargets, hchecks⟩ | ⟨passed, u, rest, rfl, hpassed, hu, hfault⟩
      · refine .inl ⟨List.forall_mem_cons.mpr ⟨ht, htargets⟩, ?_⟩
        exact List.forall_mem_cons.mpr ⟨hadmitted, List.forall_mem_cons.mpr ⟨ht, hchecks⟩⟩
      · refine .inr ⟨t :: passed, u, rest, rfl, List.forall_mem_cons.mpr ⟨ht, hpassed⟩, hu, ?_⟩
        exact .later hadmitted (.later ht hfault)
    · exact .inr ⟨[], t, targets, rfl, by simp, ht, firstFault_of_target ht checks⟩

end OnlyTargets
end Check

namespace Clause

theorem onlyTargets_checks (t : Target) {op : Operator} {operand : Value}
    (fits : Operand.Fits op operand) :
    let c : Clause := ⟨t.toValue, .operator op, operand⟩
    Check.OnlyTargets c.checks c.targets := by
  intro c
  have hoperator : (Check.isOperator (.operator op)).Passes .unrestricted := ⟨rfl, op, .inl rfl⟩
  cases hobject : operand.target? with
  | some o =>
    obtain rfl := Value.target?_eq_some_iff.mp hobject
    -- of all operators only the comparisons take a target as their operand
    have hcomparison : (Check.isComparison (.operator op)).Passes .unrestricted := by
      cases op with
      | compare comparison => exact ⟨rfl, comparison, .inl rfl⟩
      | _ => simp [Operand.Fits, Target.toValue] at fits
    simp only [c, checks, targets, Value.target?_toValue]
    exact .target t (.target o (.pass hoperator (.pass hcomparison .nil)))
  | none =>
    have hfits : (Check.operandFits (.operator op) operand).Passes .unrestricted := by
      refine ⟨rfl, ?_⟩
      rintro o (⟨⟨⟩⟩ | ⟨⟨⟩⟩)
      exact fits
    simp only [c, checks, targetedChecks, targets, Value.target?_toValue, hobject]
    exact .pass hoperator (.pass hfits (.target t .nil))

end Clause

namespace Filter

open Check (OnlyTargets)

/-- The value compares a target by an operator, and its operand fits. -/
def IsFittingClause (v : Value) : Prop :=
  ∃ (t : Target) (op : Operator) (operand : Value),
    v = .clause t.toValue (.operator op) operand ∧ Operand.Fits op operand

-- The induction is on the tree: a filter hands its leaves down to its statements, and what is left
-- at a leaf is a comparison that fits.
mutual

theorem onlyTargets_content (v : Value) (h : IsTreeContent v)
    (hleaves : ∀ leaf ∈ contentLeaves v, IsFittingClause leaf) :
    OnlyTargets (contentChecks v) (contentTargets v) := by
  cases v with
  | filter statements => exact onlyTargets_statements statements h.2 hleaves
  | clause subject op object =>
    obtain ⟨t, o, operand, ⟨⟩, fits⟩ := hleaves _ (List.mem_singleton_self _)
    exact .pass ⟨rfl, _, _, _, rfl⟩ (Clause.onlyTargets_checks t fits)
  | _ => obtain ⟨t, op, operand, ⟨⟩, _⟩ := hleaves _ (List.mem_singleton_self _)
termination_by structural v

theorem onlyTargets_statement (v : Value) (h : IsTreeStatement v)
    (hleaves : ∀ leaf ∈ statementLeaves v, IsFittingClause leaf) :
    OnlyTargets (statementChecks v) (statementTargets v) := by
  cases v with
  | statement content conj =>
    cases conj with
    | conjunction c =>
      have hconj : (Check.isConjunction (.conjunction c)).Passes .unrestricted :=
        ⟨rfl, c, .inl rfl⟩
      exact .pass ⟨rfl, _, _, rfl⟩ (.pass hconj (onlyTargets_content content h hleaves))
    | _ => exact h.elim
  | _ => exact h.elim
termination_by structural v

theorem onlyTargets_statements (vs : List Value) (h : AreTreeStatements vs)
    (hleaves : ∀ leaf ∈ statementsLeaves vs, IsFittingClause leaf) :
    OnlyTargets (statementsChecks vs) (statementsTargets vs) := by
  cases vs with
  | nil => exact .nil
  | cons v vs =>
    obtain ⟨hfirst, hrest⟩ := List.forall_mem_append.mp hleaves
    exact (onlyTargets_statement v h.1 hfirst).append (onlyTargets_statements vs h.2 hrest)
termination_by structural vs

end

/-- What a conversion gives when nothing but the targets can be wrong: the first target that cannot
be resolved is named if it is illegal, and left without a notice if it cannot be written. -/
def TargetsDecide (f : Filter) : Prop :=
  (∀ t ∈ f.targets, t.Resolvable) ∧ (∃ r, f.toValue.convert .null = .ok r) ∨
    ∃ passed t rest, f.targets = passed ++ t :: rest ∧ (∀ u ∈ passed, u.Resolvable) ∧
      (t.toValue.isWritable = true ∧ ¬ t.Legal ∧
          f.toValue.convert .null = .error (.invalidTarget t) ∨
        ¬ t.toValue.isWritable = true ∧
          f.toValue.convert .null = .error (.badValue .numberTooLong))

theorem IsTree.targetsDecide {f : Filter} (h : f.IsTree)
    (hleaves : ∀ leaf ∈ f.leaves, IsFittingClause leaf) : f.TargetsDecide := by
  have hchecks : OnlyTargets (f.checks .unrestricted) f.targets := by
    rw [checks_unrestricted]
    exact onlyTargets_statements f.statements h.2 hleaves
  rcases hchecks.passes_or_firstFault_of_target with
    ⟨htargets, hpass⟩ | ⟨passed, t, rest, hsplit, hpassed, ht, hfault⟩
  · exact .inl ⟨htargets, exists_convert_ok_iff.mpr hpass⟩
  · have hconvert := convert_error_iff.mpr hfault
    refine .inr ⟨passed, t, rest, hsplit, hpassed, ?_⟩
    by_cases hwritable : t.toValue.isWritable = true
    · rw [Check.fault_of_isWritten (c := .legal t) hwritable] at hconvert
      exact .inl ⟨hwritable, fun hlegal => ht ⟨hwritable, hlegal⟩, hconvert⟩
    · rw [Check.fault_of_not_isWritten (c := .legal t) hwritable] at hconvert
      exact .inr ⟨hwritable, hconvert⟩

theorem TargetsDecide.convert_of_long_target {f : Filter} (h : f.TargetsDecide) {t : Target}
    (htargets : f.targets = [t]) (hlong : ¬ t.toValue.isWritable = true) :
    f.toValue.convert .null = .error (.badValue .numberTooLong) := by
  rcases h with ⟨hresolvable, -⟩ | ⟨passed, u, rest, hsplit, -, hfault⟩
  · exact absurd (hresolvable t (by simp [htargets])).1 hlong
  · obtain rfl : u = t := by
      have hmem : u ∈ f.targets := by simp [hsplit]
      simpa [htargets] using hmem
    exact (hfault.resolve_left fun hnamed => hlong hnamed.1).2

end Filter

namespace Draft

theorem HoldsTrees.isTree {d : Draft} (hd : d.HoldsTrees) {f : Filter}
    (hbuild : (d.perform .build).1 = .ok (.built f)) : f.IsTree := by
  have hstep := d.step_perform .build
  rw [hbuild] at hstep
  cases hstep with
  | built _ hnonempty => exact ⟨hnonempty, hd.statements⟩

/-- Whatever calls were made and failed, a filter that is built without adding finished values is a
tree, and its leaves are comparisons of targets by operators. When the operands fit these operators
it converts without a policy, unless one of its targets cannot be resolved; the first of these
targets is the fault, or it cannot be written. -/
theorem drafted_filter_converts_or_faults_at_target (calls : List Call)
    (hadd : ∀ content conj, Call.add content conj ∉ calls) (f : Filter)
    (hbuild : ((empty.run calls).perform .build).1 = .ok (.built f)) :
    f.IsTree ∧ (∀ v ∈ f.leaves, v.IsTargetClause) ∧
      ((∀ subject op operand, .clause subject (.operator op) operand ∈ f.leaves →
          Operand.Fits op operand) → f.TargetsDecide) := by
  have htree : f.IsTree := (holdsTrees_empty.run hadd).isTree hbuild
  have hleaves : ∀ v ∈ f.leaves, v.IsTargetClause := by
    rw [leaves_of_build_ok hbuild]
    exact isTargetClause_of_mem_leaves hadd
  refine ⟨htree, hleaves, fun fits => htree.targetsDecide fun leaf hleaf => ?_⟩
  obtain ⟨t, op, operand, rfl⟩ := hleaves leaf hleaf
  exact ⟨t, op, operand, rfl, fits _ op operand hleaf⟩

/-- An unknown operator, an empty group and a reset leave no trace; the field that has a bracket is
the fault. -/
theorem drafted_filter_converts_or_faults_at_target_in_group :
    let calls : List Call := [.compare .and (.string "/x") (.string "in") (.int 0), .reset,
      .compare .or (.string "/a") (.string "like") (.like (.string "b*")), .openGroup .or,
      .compare .and (.string "/a") (.string "is") .null, .openGroup .and, .closeGroup,
      .compare .and (.string "/a/0") (.string "lte") (.target (.string "b[") []), .closeGroup]
    let f : Filter := ⟨[
      .statement (.clause (.target (.string "a") []) (.operator .like) (.like (.string "b*")))
        (.conjunction .or),
      .statement (.filter [.statement (.clause (.target (.string "a") [.int 0])
        (.operator (.compare .lte)) (.target (.string "b[") [])) (.conjunction .and)])
        (.conjunction .or)]⟩
    ((empty.run calls).perform .build).1 = .ok (.built f) ∧ f.IsTree ∧ f.TargetsDecide ∧
      f.toValue.convert .null = .error (.invalidTarget ⟨.string "b[", []⟩) := by
  intro calls f
  have hbuild : ((empty.run calls).perform .build).1 = .ok (.built f) := rfl
  obtain ⟨htree, -, hconvert⟩ :=
    drafted_filter_converts_or_faults_at_target calls (by simp [calls]) f hbuild
  refine ⟨hbuild, htree, hconvert ?_, rfl⟩
  intro subject op operand hleaf
  rcases List.mem_pair.mp hleaf with ⟨⟨⟩⟩ | ⟨⟨⟩⟩
  · exact ⟨_, _, rfl, rfl⟩
  · trivial

theorem drafted_filter_fails_without_notice :
    let calls : List Call :=
      [.compare .and (.list [.int Value.leastUnwritable]) (.string "eq") (.int 1)]
    let f : Filter := ⟨[.statement (.clause (.target (.int Value.leastUnwritable) [])
      (.operator (.compare .eq)) (.int 1)) (.conjunction .and)]⟩
    ((empty.run calls).perform .build).1 = .ok (.built f) ∧ Operand.Fits (.compare .eq) (.int 1) ∧
      f.toValue.convert .null = .error (.badValue .numberTooLong) ∧
      (Fault.badValue .numberTooLong).notice?.isNone := by
  intro calls f
  have htree : f.IsTree := ⟨nofun, trivial, trivial⟩
  have hdecide : f.TargetsDecide := htree.targetsDecide fun leaf hleaf => by
    obtain rfl := List.mem_singleton.mp hleaf
    exact ⟨⟨.int Value.leastUnwritable, []⟩, _, _, rfl, trivial⟩
  have hlong := Target.not_isWritable_of_segment (t := ⟨.int Value.leastUnwritable, []⟩)
    Value.not_isWritable_leastUnwritable (List.mem_singleton.mpr rfl)
  exact ⟨rfl, trivial, hdecide.convert_of_long_target rfl hlong, rfl⟩

end Draft
end FilterQuery
