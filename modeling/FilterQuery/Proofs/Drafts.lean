import FilterQuery.Draft

/-!
# Histories of drafts

A draft is reached by calls, and some of them fail. What a call can do is laid out once, as a
relation between the draft before it, its result and the draft after it. A call that fails leaves
the draft as it was, with one exception: closing an empty group fails after the group has been
taken away. So a history in which no empty group is closed reaches the same draft without its failed
calls.
-/

namespace FilterQuery
namespace Draft

/-- The draft that a sequence of calls leaves, whether they succeed or not. -/
def run (d : Draft) (calls : List Call) : Draft :=
  calls.foldl (fun d call => (d.perform call).2) d

@[simp] theorem run_nil (d : Draft) : d.run [] = d := rfl

@[simp] theorem run_cons (d : Draft) (call : Call) (calls : List Call) :
    d.run (call :: calls) = (d.perform call).2.run calls := rfl

theorem run_append (d : Draft) (calls more : List Call) :
    d.run (calls ++ more) = (d.run calls).run more :=
  List.foldl_append

/-- What a call gives and leaves, by the state that it finds. -/
inductive Step (d : Draft) : Call → Except Fault Outcome → Draft → Prop
  | compared {c : Conjunction} {subject op value : Value} {clause : Clause} :
      readClause subject op value = .ok clause →
      Step d (.compare c subject op value) (.ok .done) (d.append clause.toValue c)
  | notCompared {c : Conjunction} {subject op value : Value} {fault : Fault} :
      readClause subject op value = .error fault →
      Step d (.compare c subject op value) (.error fault) d
  | added {content conj : Value} {c : Conjunction} :
      readConjunction conj = .ok c → Step d (.add content conj) (.ok .done) (d.append content c)
  | notAdded {content conj : Value} {fault : Fault} :
      readConjunction conj = .error fault → Step d (.add content conj) (.error fault) d
  | opened {c : Conjunction} : Step d (.openGroup c) (.ok .done) (d.openGroup c)
  | closed {group : OpenGroup} {outer : List OpenGroup} :
      d.groups = group :: outer → group.statements ≠ [] →
      Step d .closeGroup (.ok .done)
        ({ d with groups := outer }.append (.filter group.statements) group.conjunction)
  | dropped {group : OpenGroup} {outer : List OpenGroup} :
      d.groups = group :: outer → group.statements = [] →
      Step d .closeGroup (.error (.badValue .emptyGroup)) { d with groups := outer }
  | notClosed :
      d.groups = [] → Step d .closeGroup (.error (.badValue .noOpenGroup)) d
  | built :
      d.groups = [] → d.statements ≠ [] → Step d .build (.ok (.built ⟨d.statements⟩)) d
  | notFinished :
      d.groups ≠ [] → Step d .build (.error (.badValue (.openGroups d.groups.length))) d
  | notBegun :
      d.groups = [] → d.statements = [] → Step d .build (.error (.badValue .nothingAdded)) d
  | reset : Step d .reset (.ok .done) empty

theorem step_closeGroup (d : Draft) : Step d .closeGroup d.closeGroup.1 d.closeGroup.2 := by
  obtain ⟨statements, groups⟩ := d
  cases groups with
  | nil => exact .notClosed rfl
  | cons group outer =>
    obtain ⟨c, members⟩ := group
    cases members with
    | nil => exact .dropped rfl rfl
    | cons first rest => exact .closed rfl (List.cons_ne_nil first rest)

theorem step_build (d : Draft) : Step d .build (d.build.map .built) d := by
  obtain ⟨statements, groups⟩ := d
  cases groups with
  | nil =>
    cases statements with
    | nil => exact .notBegun rfl rfl
    | cons first rest => exact .built rfl (List.cons_ne_nil first rest)
  | cons group outer => exact .notFinished (List.cons_ne_nil group outer)

theorem step_perform (d : Draft) (call : Call) :
    Step d call (d.perform call).1 (d.perform call).2 := by
  cases call with
  | compare c subject op value =>
    rw [perform, compare]
    cases h : readClause subject op value with
    | ok clause => exact .compared h
    | error fault => exact .notCompared h
  | add content conj =>
    rw [perform, add]
    cases h : readConjunction conj with
    | ok c => exact .added h
    | error fault => exact .notAdded h
  | openGroup c => exact .opened
  | closeGroup => exact d.step_closeGroup
  | build => exact d.step_build
  | reset => exact .reset

def ClosesEmptyGroup (d : Draft) (call : Call) : Prop :=
  call = .closeGroup ∧ ∃ group outer, d.groups = group :: outer ∧ group.statements = []

section Step

variable {d d' : Draft} {call : Call} {result : Except Fault Outcome} {fault : Fault}

theorem Step.eq_of_error (h : Step d call (.error fault) d') (hclose : ¬ d.ClosesEmptyGroup call) :
    d' = d := by
  cases h with
  | dropped hgroups hempty => exact absurd ⟨rfl, _, _, hgroups, hempty⟩ hclose
  | _ => rfl

theorem Step.of_closesEmptyGroup (h : Step d call result d') (hclose : d.ClosesEmptyGroup call) :
    result = .error (.badValue .emptyGroup) ∧ d' = { d with groups := d.groups.tail } := by
  obtain ⟨rfl, group, outer, hgroups, hempty⟩ := hclose
  cases h with
  | closed hother hstatements =>
    obtain ⟨rfl, -⟩ := List.cons.inj (hgroups.symm.trans hother)
    exact absurd hempty hstatements
  | dropped hother _ => exact ⟨rfl, by rw [hother, List.tail_cons]⟩
  | notClosed hnone => cases hgroups.symm.trans hnone

theorem ClosesEmptyGroup.ne (h : d.ClosesEmptyGroup call) :
    { d with groups := d.groups.tail } ≠ d := by
  obtain ⟨-, group, outer, hgroups, -⟩ := h
  intro heq
  have hlength := congrArg (fun e : Draft => e.groups.length) heq
  simp [hgroups] at hlength

end Step

/-- The calls that succeed when they are made one after the other. -/
def succeeding (d : Draft) : List Call → List Call
  | [] => []
  | call :: calls =>
    match d.perform call with
    | (.ok _, d') => call :: d'.succeeding calls
    | (.error _, d') => d'.succeeding calls

/-- When no empty group is closed, the failed calls of a history can be left out. -/
theorem run_succeeding {d : Draft} {calls : List Call}
    (h : ∀ before call after, calls = before ++ call :: after →
      ¬ (d.run before).ClosesEmptyGroup call) : d.run (d.succeeding calls) = d.run calls := by
  induction calls generalizing d with
  | nil => rfl
  | cons call calls ih =>
    have hrest : (d.perform call).2.run ((d.perform call).2.succeeding calls) =
        (d.perform call).2.run calls := by
      apply ih
      intro before other after hcalls
      exact h (call :: before) other after (by rw [hcalls, List.cons_append])
    have hstep := d.step_perform call
    rw [run_cons, ← hrest, succeeding]
    cases hperform : d.perform call with
    | mk result d' =>
      rw [hperform] at hstep
      cases result with
      | ok outcome => rw [run_cons, hperform]
      | error fault =>
        -- the failed call may be left out because the rest starts from the same draft
        obtain rfl : d' = d := hstep.eq_of_error (h [] call calls rfl)
        rfl

/-- A call that fails leaves the draft as it was exactly when it does not close an empty group;
closing one fails and drops the group. So a history in which no empty group is closed reaches what
its succeeding calls alone reach. -/
theorem failed_call_keeps_draft_iff (calls : List Call) :
    let d := empty.run calls
    (∀ call fault, (d.perform call).1 = .error fault →
      ((d.perform call).2 = d ↔ ¬ d.ClosesEmptyGroup call)) ∧
    (∀ call, d.ClosesEmptyGroup call →
      d.perform call = (.error (.badValue .emptyGroup), { d with groups := d.groups.tail })) ∧
    ((∀ before call after, calls = before ++ call :: after →
      ¬ (empty.run before).ClosesEmptyGroup call) → empty.run (empty.succeeding calls) = d) := by
  intro d
  refine ⟨?_, ?_, run_succeeding⟩
  · intro call fault hfault
    have hstep := d.step_perform call
    constructor
    · intro hkept hclose
      apply hclose.ne
      rw [← (hstep.of_closesEmptyGroup hclose).2, hkept]
    · rw [hfault] at hstep
      exact hstep.eq_of_error
  · intro call hclose
    obtain ⟨hresult, hdraft⟩ := (d.step_perform call).of_closesEmptyGroup hclose
    exact Prod.ext hresult hdraft

/-- A bad escape, then a group that is still open; the second history leaves an empty group. -/
theorem failed_call_keeps_draft_iff_open_group :
    let calls : List Call := [.openGroup .or,
      .compare .and (.string "/a~") (.string "eq") (.int 1),
      .compare .and (.string "a") (.string "eq") (.int 1)]
    let d := empty.run calls
    let e := empty.run [.openGroup .or, .openGroup .and]
    (d.perform .build).1 = .error (.badValue (.openGroups 1)) ∧
      ¬ d.ClosesEmptyGroup .build ∧ (d.perform .build).2 = d ∧
      empty.run (empty.succeeding calls) = d ∧ e.ClosesEmptyGroup .closeGroup ∧
      e.perform .closeGroup = (.error (.badValue .emptyGroup), empty.run [.openGroup .or]) := by
  intro calls d e
  have hbuild : ¬ d.ClosesEmptyGroup .build := fun hclose => nomatch hclose.1
  have hnever : ∀ before call after, calls = before ++ call :: after →
      ¬ (empty.run before).ClosesEmptyGroup call := by
    rintro before call after hcalls ⟨rfl, -⟩
    have hmem : Call.closeGroup ∈ calls := by simp [hcalls]
    simp [calls] at hmem
  have hempty : e.ClosesEmptyGroup .closeGroup := ⟨rfl, _, _, rfl, rfl⟩
  obtain ⟨hkeeps, -, hhistory⟩ := failed_call_keeps_draft_iff calls
  have hdrops := (failed_call_keeps_draft_iff [.openGroup .or, .openGroup .and]).2.1
  exact ⟨rfl, hbuild, (hkeeps .build _ rfl).mpr hbuild, hhistory hnever, hempty, hdrops _ hempty⟩

/-- Closing an inner group that has just been opened fails, and only the outer one is left. -/
theorem closing_empty_group_drops_it :
    let d := empty.run [.openGroup .and, .openGroup .or]
    (d.perform .closeGroup).1 = .error (.badValue .emptyGroup) ∧
      (d.perform .closeGroup).2 = empty.run [.openGroup .and] ∧ (d.perform .closeGroup).2 ≠ d := by
  intro d
  refine ⟨rfl, rfl, fun h => ?_⟩
  cases congrArg Draft.groups h

end Draft
end FilterQuery
