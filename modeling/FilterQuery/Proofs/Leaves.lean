import FilterQuery.Proofs.Drafts
import Mathlib.Data.List.DropRight

/-!
# The leaves of a draft

The leaves of a filter are the values that its statements hold, with the leaves of a nested filter
in the place of that filter. A statement of a draft stands at the top level, in an open group or in
a group that has been closed, and it moves when groups are closed. Read from the top level to the
innermost open group, the leaves stay where they are: a call that succeeds adds the leaves of its
value at the end, and a call that fails adds nothing, even when it drops an empty group.
-/

namespace FilterQuery

namespace Filter

mutual

/-- A nested filter counts by its statements, any other value is a leaf. -/
def contentLeaves : Value → List Value
  | .filter statements => statementsLeaves statements
  | v => [v]
termination_by structural v => v

/-- A member of a filter that is no statement counts as a content does. -/
def statementLeaves : Value → List Value
  | .statement content _ => contentLeaves content
  | .filter statements => statementsLeaves statements
  | v => [v]
termination_by structural v => v

def statementsLeaves : List Value → List Value
  | [] => []
  | v :: vs => statementLeaves v ++ statementsLeaves vs
termination_by structural vs => vs

end

/-- The values in a filter that are no filters, in document order. -/
def leaves (f : Filter) : List Value :=
  statementsLeaves f.statements

@[simp] theorem statementsLeaves_append (vs ws : List Value) :
    statementsLeaves (vs ++ ws) = statementsLeaves vs ++ statementsLeaves ws := by
  induction vs with
  | nil => rfl
  | cons v vs ih => simp [statementsLeaves, ih]

@[simp] theorem statementsLeaves_statement (content conj : Value) :
    statementsLeaves [.statement content conj] = contentLeaves content :=
  List.append_nil _

end Filter

namespace Draft

open FilterQuery.Filter

/-- The leaves at the top level and then those of the open groups, the outermost first. -/
def leaves (d : Draft) : List Value :=
  statementsLeaves d.statements ++
    d.groups.reverse.flatMap fun group => statementsLeaves group.statements

theorem leaves_empty : empty.leaves = [] := rfl

theorem leaves_of_groups_eq_cons {d : Draft} {group : OpenGroup} {outer : List OpenGroup}
    (h : d.groups = group :: outer) :
    d.leaves = { d with groups := outer }.leaves ++ statementsLeaves group.statements := by
  simp [leaves, h]

theorem leaves_openGroup (d : Draft) (c : Conjunction) : (d.openGroup c).leaves = d.leaves := by
  rw [leaves_of_groups_eq_cons (d := d.openGroup c) rfl]
  exact List.append_nil _

theorem leaves_append (d : Draft) (content : Value) (c : Conjunction) :
    (d.append content c).leaves = d.leaves ++ contentLeaves content := by
  obtain ⟨statements, groups⟩ := d
  cases groups with
  | nil => simp [append, leaves]
  | cons group outer => simp [append, leaves]

namespace Call

def isReset : Call → Bool
  | reset => true
  | _ => false

/-- The value that a call adds when it succeeds: the clause that it describes, or what it is
given. -/
def value? : Call → Option Value
  | compare _ subject op value =>
    match Target.coerce subject, op.operator? with
    | .ok t, some o => some (.clause t.toValue (.operator o) value)
    | _, _ => none
  | add content _ => some content
  | _ => none

end Call

theorem readClause_eq_ok_iff {subject op value : Value} {clause : Clause} :
    readClause subject op value = .ok clause ↔
      ∃ t o, Target.coerce subject = .ok t ∧ op.operator? = some o ∧
        clause = ⟨t.toValue, .operator o, value⟩ := by
  unfold readClause readOperator
  cases Target.coerce subject with
  | error fault => simp [bind, Except.bind]
  | ok t => cases op.operator? <;> simp [bind, Except.bind, pure, Except.pure, eq_comm]

section Step

variable {d d' : Draft} {call : Call} {outcome : Outcome} {fault : Fault}

theorem Step.leaves_of_error (h : Step d call (.error fault) d') : d'.leaves = d.leaves := by
  cases h with
  | dropped hgroups hempty =>
    rw [leaves_of_groups_eq_cons hgroups, hempty]
    exact (List.append_nil _).symm
  | _ => rfl

theorem Step.leaves_of_reset (h : Step d call (.ok outcome) d') (hreset : call.isReset = true) :
    d'.leaves = [] := by
  cases h with
  | reset => exact leaves_empty
  | _ => cases hreset

theorem Step.leaves_of_ok (h : Step d call (.ok outcome) d') (hreset : call.isReset = false) :
    d'.leaves = d.leaves ++ call.value?.toList.flatMap contentLeaves := by
  cases h with
  | compared hclause =>
    obtain ⟨t, o, ht, ho, rfl⟩ := readClause_eq_ok_iff.mp hclause
    rw [leaves_append]
    simp [Call.value?, ht, ho, Clause.toValue]
  | added _ =>
    rw [leaves_append]
    simp [Call.value?]
  | opened =>
    rw [leaves_openGroup]
    exact (List.append_nil _).symm
  | closed hgroups _ =>
    -- the group becomes the last statement outside, so its leaves stay the last ones
    rw [leaves_append, leaves_of_groups_eq_cons hgroups]
    exact (List.append_nil _).symm
  | built _ _ => exact (List.append_nil _).symm
  | reset => cases hreset

end Step

theorem succeeding_append (d : Draft) (calls more : List Call) :
    d.succeeding (calls ++ more) = d.succeeding calls ++ (d.run calls).succeeding more := by
  induction calls generalizing d with
  | nil => rfl
  | cons call calls ih =>
    rw [List.cons_append, succeeding, succeeding, run_cons]
    cases hperform : d.perform call with
    | mk result d' =>
      cases result with
      | ok outcome => simp [ih]
      | error fault => simp [ih]

/-- The calls of a history that have succeeded since the draft was begun or last reset. -/
def effective (calls : List Call) : List Call :=
  (empty.succeeding calls).rtakeWhile fun call => !call.isReset

theorem effective_concat (calls : List Call) (call : Call) :
    effective (calls ++ [call]) =
      match (empty.run calls).perform call with
      | (.ok _, _) => if call.isReset then [] else effective calls ++ [call]
      | (.error _, _) => effective calls := by
  rw [effective, succeeding_append, succeeding]
  cases hperform : (empty.run calls).perform call with
  | mk result d' =>
    cases result with
    | ok outcome =>
      simp only [succeeding, List.rtakeWhile_concat]
      cases call.isReset <;> rfl
    | error fault =>
      simp only [succeeding, List.append_nil]
      rfl

theorem leaves_run (calls : List Call) :
    (empty.run calls).leaves = ((effective calls).filterMap Call.value?).flatMap contentLeaves := by
  induction calls using List.reverseRecOn with
  | nil => rfl
  | append_singleton calls call ih =>
    have hstep := (empty.run calls).step_perform call
    rw [run_append, run_cons, run_nil, effective_concat]
    cases hperform : (empty.run calls).perform call with
    | mk result d' =>
      rw [hperform] at hstep
      cases result with
      | error fault => exact hstep.leaves_of_error.trans ih
      | ok outcome =>
        cases hreset : call.isReset with
        | true => exact hstep.leaves_of_reset hreset
        | false =>
          dsimp only
          rw [hstep.leaves_of_ok hreset, ih, if_neg Bool.false_ne_true, List.filterMap_append,
            List.flatMap_append]
          cases hvalue : call.value? <;> simp [hvalue]

theorem leaves_of_build_ok {d : Draft} {f : Filter} (h : (d.perform .build).1 = .ok (.built f)) :
    f.leaves = d.leaves := by
  have hstep := d.step_perform .build
  rw [h] at hstep
  cases hstep with
  | built hgroups _ => simp [Filter.leaves, leaves, hgroups]

/-- After any calls, the leaves of a draft are those of the values that were added by the calls
that have succeeded since the draft was begun or last reset, in the order of the calls; a filter
that is built has the same leaves. -/
theorem leaves_are_those_of_added_values (calls : List Call) :
    let d := empty.run calls
    let added := (effective calls).filterMap Call.value?
    d.leaves = added.flatMap contentLeaves ∧
      ∀ f, (d.perform .build).1 = .ok (.built f) → f.leaves = added.flatMap contentLeaves := by
  intro d added
  have hleaves : d.leaves = added.flatMap contentLeaves := leaves_run calls
  refine ⟨hleaves, ?_⟩
  intro f hf
  rw [leaves_of_build_ok hf, hleaves]

/-- A reset, an unknown conjunction and a dropped group leave no trace; two filters are
flattened. -/
theorem leaves_are_those_of_added_values_after_reset :
    let calls : List Call := [.add (.int 0) (.conjunction .and), .reset, .openGroup .or,
      .compare .and (.string "/a/0") (.string "gt") (.int 1), .add (.int 2) (.string "nor"),
      .openGroup .and, .closeGroup, .closeGroup,
      .add (.filter [.statement (.int 3) (.string "or"), .int 4]) (.conjunction .or)]
    let clause : Value :=
      .clause (.target (.string "a") [.int 0]) (.operator (.compare .gt)) (.int 1)
    let f : Filter := ⟨[.statement (.filter [.statement clause (.conjunction .and)])
      (.conjunction .or), .statement (.filter [.statement (.int 3) (.string "or"), .int 4])
      (.conjunction .or)]⟩
    ((empty.run calls).perform .build).1 = .ok (.built f) ∧
      f.leaves = [clause, .int 3, .int 4] := by
  intro calls clause f
  have hbuild : ((empty.run calls).perform .build).1 = .ok (.built f) := rfl
  exact ⟨hbuild, (leaves_are_those_of_added_values calls).2 f hbuild⟩

end Draft
end FilterQuery
