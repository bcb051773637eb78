import FilterQuery.Proofs.Drafts

/-!
# Drafting a given filter

A filter can be drafted by walking through it: a value is added under its conjunction, and a nested
filter is drafted between the opening and the closing of a group. When no filter in it is empty and
the conjunctions are given as such, all these calls succeed. Wherever they start, they add the
statements of the filter to the group that is open there and change nothing else, so from an empty
draft the filter itself is built.
-/

namespace FilterQuery

namespace Filter

open Draft (Call)

mutual

/-- A nested filter has statements and they are those of a tree; any other value is a leaf. -/
def IsTreeContent : Value → Prop
  | .filter statements => statements ≠ [] ∧ AreTreeStatements statements
  | _ => True
termination_by structural v => v

def IsTreeStatement : Value → Prop
  | .statement content (.conjunction _) => IsTreeContent content
  | _ => False
termination_by structural v => v

def AreTreeStatements : List Value → Prop
  | [] => True
  | v :: vs => IsTreeStatement v ∧ AreTreeStatements vs
termination_by structural vs => vs

end

/-- Neither the filter nor one that is nested in it is empty, and all members are statements with a
conjunction. -/
def IsTree (f : Filter) : Prop :=
  f.statements ≠ [] ∧ AreTreeStatements f.statements

mutual

def contentCalls (c : Conjunction) : Value → List Call
  | .filter statements => .openGroup c :: (statementsCalls statements ++ [.closeGroup])
  | v => [.add v (.conjunction c)]
termination_by structural v => v

def statementCalls : Value → List Call
  | .statement content (.conjunction c) => contentCalls c content
  | _ => []
termination_by structural v => v

def statementsCalls : List Value → List Call
  | [] => []
  | v :: vs => statementCalls v ++ statementsCalls vs
termination_by structural vs => vs

end

def calls (f : Filter) : List Call :=
  statementsCalls f.statements

end Filter

namespace Draft

/-- Adds statements to the innermost open group, or to the top level when no group is open. -/
def extend (d : Draft) (statements : List Value) : Draft :=
  match d.groups with
  | [] => { d with statements := d.statements ++ statements }
  | group :: outer =>
    { d with groups := { group with statements := group.statements ++ statements } :: outer }

theorem extend_nil (d : Draft) : d.extend [] = d := by
  obtain ⟨statements, groups⟩ := d
  cases groups <;> simp [extend]

theorem extend_append (d : Draft) (vs ws : List Value) :
    d.extend (vs ++ ws) = (d.extend vs).extend ws := by
  obtain ⟨statements, groups⟩ := d
  cases groups <;> simp [extend]

theorem append_eq_extend (d : Draft) (content : Value) (c : Conjunction) :
    d.append content c = d.extend [.statement content (.conjunction c)] := rfl

/-- All calls succeed one after the other, and they lead from the first draft to the last. -/
inductive Completes : Draft → List Call → Draft → Prop
  | nil {d : Draft} : Completes d [] d
  | cons {d d' e : Draft} {call : Call} {calls : List Call} :
      d.perform call = (.ok .done, d') → Completes d' calls e → Completes d (call :: calls) e

namespace Completes

variable {d d' e : Draft} {call : Call} {calls more : List Call}

theorem single (h : d.perform call = (.ok .done, e)) : Completes d [call] e :=
  .cons h .nil

theorem append (h : Completes d calls d') (h' : Completes d' more e) :
    Completes d (calls ++ more) e := by
  induction h with
  | nil => exact h'
  | cons hcall _ ih => exact .cons hcall (ih h')

theorem run_eq (h : Completes d calls e) : d.run calls = e := by
  induction h with
  | nil => rfl
  | cons hcall _ ih => rw [run_cons, hcall, ih]

end Completes

theorem perform_closeGroup_extend (d : Draft) (c : Conjunction) {statements : List Value}
    (h : statements ≠ []) :
    ((d.openGroup c).extend statements).perform .closeGroup =
      (.ok .done, d.append (.filter statements) c) := by
  cases statements with
  | nil => exact absurd rfl h
  | cons first rest => rfl

open FilterQuery.Filter

-- The induction is on the tree; inside a group the surrounding draft is another one, so the draft
-- stays general.
mutual

theorem completes_content (v : Value) (h : IsTreeContent v) (c : Conjunction) (d : Draft) :
    Completes d (contentCalls c v) (d.append v c) := by
  cases v with
  | filter statements =>
    obtain ⟨hnonempty, hstatements⟩ := h
    have hinside := completes_statements statements hstatements (d.openGroup c)
    have hclose := Completes.single (d.perform_closeGroup_extend c hnonempty)
    exact .cons rfl (hinside.append hclose)
  | _ => exact .single rfl
termination_by structural v

theorem completes_statement (v : Value) (h : IsTreeStatement v) (d : Draft) :
    Completes d (statementCalls v) (d.extend [v]) := by
  cases v with
  | statement content conj =>
    cases conj with
    | conjunction c =>
      rw [← append_eq_extend]
      exact completes_content content h c d
    | _ => exact h.elim
  | _ => exact h.elim
termination_by structural v

theorem completes_statements (vs : List Value) (h : AreTreeStatements vs) (d : Draft) :
    Completes d (statementsCalls vs) (d.extend vs) := by
  cases vs with
  | nil =>
    rw [extend_nil]
    exact .nil
  | cons v vs =>
    have hfirst := completes_statement v h.1 d
    have hrest := completes_statements vs h.2 (d.extend [v])
    rw [← extend_append] at hrest
    exact hfirst.append hrest
termination_by structural vs

end

theorem build_extend_empty {statements : List Value} (h : statements ≠ []) :
    ((empty.extend statements).perform .build).1 = .ok (.built ⟨statements⟩) := by
  cases statements with
  | nil => exact absurd rfl h
  | cons first rest => rfl

/-- The calls of a tree succeed in every draft and add the statements of the tree to the innermost
open group, nothing else; on a draft that is new or has been reset they build the tree. -/
theorem calls_of_tree_build_it (f : Filter) (h : f.IsTree) :
    (∀ d : Draft, Completes d f.calls (d.extend f.statements)) ∧
      ((empty.run f.calls).perform .build).1 = .ok (.built f) ∧
      ∀ history : List Call,
        ((empty.run (history ++ .reset :: f.calls)).perform .build).1 = .ok (.built f) := by
  have hcompletes : ∀ d : Draft, Completes d f.calls (d.extend f.statements) :=
    completes_statements f.statements h.2
  have hbuild : ((empty.run f.calls).perform .build).1 = .ok (.built f) := by
    rw [(hcompletes empty).run_eq]
    exact build_extend_empty h.1
  refine ⟨hcompletes, hbuild, ?_⟩
  intro history
  rw [run_append, run_cons]
  exact hbuild

/-- A group inside a group, drafted inside a third one. -/
theorem calls_of_tree_build_it_nested :
    let f : Filter := ⟨[.statement (.int 1) (.conjunction .or),
      .statement (.filter [.statement (.filter [.statement .null (.conjunction .and)])
        (.conjunction .or), .statement (.string "x") (.conjunction .and)]) (.conjunction .and)]⟩
    let d := empty.run [.add (.int 0) (.conjunction .and), .openGroup .or]
    f.IsTree ∧ Completes d f.calls ⟨d.statements, [⟨.or, f.statements⟩]⟩ ∧
      ((empty.run f.calls).perform .build).1 = .ok (.built f) := by
  intro f d
  have hf : f.IsTree := by simp [f, IsTree, AreTreeStatements, IsTreeStatement, IsTreeContent]
  obtain ⟨hcompletes, hbuild, -⟩ := calls_of_tree_build_it f hf
  exact ⟨hf, hcompletes d, hbuild⟩

end Draft
end FilterQuery
