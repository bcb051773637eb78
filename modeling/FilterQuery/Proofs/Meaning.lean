import FilterQuery.Proofs.Compilation
import FilterQuery.Proofs.Documents

/-!
# The meaning of queries

A truth assignment says which documents hold among those that are no boolean combination, and the
combinations follow: `must` asks for all of its members, `should` for one of them and `must_not`
for the opposite of what it holds. A filter has a meaning of its own, read off its statements with
conjunctions binding tighter than disjunctions. Its document has the same meaning.
-/

namespace FilterQuery

namespace Document

mutual

/-- Whether a document holds, given the truth of those that are no boolean combination. -/
def Holds (truth : Value → Prop) : Value → Prop
  | .mapping [("bool", .mapping [("must", .list documents)])] => HoldAll truth documents
  | .mapping [("bool", .mapping [("should", .list documents)])] => HoldSome truth documents
  | .mapping [("bool", .mapping [("must_not", document)])] => ¬ Holds truth document
  | document => truth document
termination_by structural document => document

def HoldAll (truth : Value → Prop) : List Value → Prop
  | [] => True
  | document :: documents => Holds truth document ∧ HoldAll truth documents
termination_by structural documents => documents

def HoldSome (truth : Value → Prop) : List Value → Prop
  | [] => False
  | document :: documents => Holds truth document ∨ HoldSome truth documents
termination_by structural documents => documents

end

variable (truth : Value → Prop)

theorem holdAll_iff (documents : List Value) :
    HoldAll truth documents ↔ ∀ d ∈ documents, Holds truth d := by
  induction documents with
  | nil => simp [HoldAll]
  | cons d documents ih => simp [HoldAll, ih]

theorem holdSome_iff (documents : List Value) :
    HoldSome truth documents ↔ ∃ d ∈ documents, Holds truth d := by
  induction documents with
  | nil => simp [HoldSome]
  | cons d documents ih => simp [HoldSome, ih]

end Document

/-- Some run has only true members; no statements at all count as true. -/
def SomeRunHolds (statements : List (Conjunction × Prop)) : Prop :=
  statements = [] ∨ ∃ runs, IsCut statements runs ∧ ∃ run ∈ runs, ∀ s ∈ run, s.2

namespace Filter

mutual

/-- A nested filter is read as a filter is, and a clause holds when its own fragment does. -/
def ContentHolds (truth : Value → Prop) : Value → Prop
  | .filter statements => SomeRunHolds (statementsTruths truth statements)
  | .clause subject op object =>
      ∃ q, Clause.fragment ⟨subject, op, object⟩ = .ok q ∧ Document.Holds truth q.document
  | _ => False
termination_by structural v => v

def statementTruth (truth : Value → Prop) : Value → Conjunction × Prop
  | .statement content conj => (conj.conjunction?.getD .and, ContentHolds truth content)
  | _ => (.and, False)
termination_by structural v => v

def statementsTruths (truth : Value → Prop) : List Value → List (Conjunction × Prop)
  | [] => []
  | v :: vs => statementTruth truth v :: statementsTruths truth vs
termination_by structural vs => vs

end

/-- Whether a filter holds, given the truth of the documents that are no boolean combination. -/
def Holds (truth : Value → Prop) (f : Filter) : Prop :=
  SomeRunHolds (statementsTruths truth f.statements)

end Filter

namespace Query

variable (truth : Value → Prop)

theorem holds_all (qs : List (Query String)) :
    Document.Holds truth (all qs).document ↔ ∀ q ∈ qs, Document.Holds truth q.document := by
  rw [document_all]
  exact (Document.holdAll_iff truth _).trans List.forall_mem_map

theorem holds_any (qs : List (Query String)) :
    Document.Holds truth (any qs).document ↔ ∃ q ∈ qs, Document.Holds truth q.document := by
  rw [document_any]
  refine (Document.holdSome_iff truth _).trans ?_
  simp only [List.mem_map, exists_exists_and_eq_and]

theorem holds_ofRuns (runs : List (List (Query String))) :
    Document.Holds truth (ofRuns runs).document ↔
      runs = [] ∨ ∃ run ∈ runs, ∀ q ∈ run, Document.Holds truth q.document := by
  match runs with
  | [] =>
    rw [ofRuns, holds_all]
    simp
  | [run] =>
    rw [ofRuns, holds_all]
    simp
  | first :: second :: runs =>
    have hany := holds_any truth ((first :: second :: runs).map all)
    simp only [List.mem_map, exists_exists_and_eq_and, holds_all] at hany
    exact hany.trans (or_iff_right (by simp)).symm

theorem holds_ofStatements (statements : List (Conjunction × Query String)) :
    Document.Holds truth (ofStatements statements).document ↔
      SomeRunHolds (statements.map fun s => (s.1, Document.Holds truth s.2.document)) := by
  obtain ⟨runs, hcut⟩ : ∃ runs, IsCut statements runs := ⟨_, isCut_splitBy statements⟩
  have htruths := hcut.map fun q : Query String => Document.Holds truth q.document
  rw [hcut.ofStatements_eq, holds_ofRuns]
  refine or_congr ?_ ⟨?_, ?_⟩
  · rw [List.map_eq_nil_iff, List.map_eq_nil_iff, ← hcut.flatten]
    constructor
    · rintro rfl
      rfl
    · intro hnil
      rw [List.flatten_eq_nil_iff] at hnil
      refine List.eq_nil_iff_forall_not_mem.mpr fun run hrun => ?_
      exact hcut.nonempty run hrun (hnil run hrun)
  · rintro ⟨run, hrun, hall⟩
    obtain ⟨source, hsource, rfl⟩ := List.mem_map.mp hrun
    refine ⟨_, htruths, _, List.mem_map_of_mem hsource, ?_⟩
    rw [List.forall_mem_map] at hall ⊢
    exact hall
  · rintro ⟨others, hothers, run, hrun, hall⟩
    obtain rfl := hothers.unique htruths
    obtain ⟨source, hsource, rfl⟩ := List.mem_map.mp hrun
    refine ⟨_, List.mem_map_of_mem hsource, ?_⟩
    rw [List.forall_mem_map] at hall ⊢
    exact hall

end Query

namespace Filter

variable (truth : Value → Prop)

theorem compositional_holds : Compositional
    (fun v q => Document.Holds truth q.document ↔ ContentHolds truth v)
    (fun vs sq => (sq.map fun s => (s.1, Document.Holds truth s.2.document)) =
      statementsTruths truth vs) where
  clause c q hq := by
    constructor
    · intro h
      exact ⟨q, hq, h⟩
    · rintro ⟨q', hq', h⟩
      obtain rfl : q = q' := Except.ok.inj (hq.symm.trans hq')
      exact h
  filter vs sq h := by
    rw [Query.holds_ofStatements, h]
    rfl
  nil := rfl
  cons content conj c q vs sq hconj hq h := by
    have hread : conj.conjunction? = some c := Value.conjunction?_eq_some_iff.mpr hconj
    rw [List.map_cons, h, statementsTruths, statementTruth, hread, propext hq]
    rfl

/-- The document of a filter holds exactly when the filter does. -/
theorem document_holds_iff (f : Filter) (policy : Value) (r : Conversion)
    (h : f.toValue.convert policy = .ok r) :
    ∃ document, r.document = .mapping [("filter", document)] ∧
      (Document.Holds truth document ↔ f.Holds truth) := by
  obtain ⟨p, hp⟩ := exists_policy_of_convert_ok h
  exact ⟨r.query.document, rfl, (compositional_holds truth).of_convert hp⟩

theorem document_holds_iff_second_run :
    let equals (name : String) (n : Int) : Value :=
      .clause (.target (.string name) []) (.string "eq") (.int n)
    let f : Filter := ⟨[.statement (equals "a" 1) (.conjunction .and),
      .statement (equals "b" 2) (.string "and"), .statement (equals "c" 3) (.conjunction .or)]⟩
    let truth (document : Value) : Prop :=
      document = .mapping [("term", .mapping [("c", .int 3)])]
    ∃ r, f.toValue.convert .null = .ok r ∧ f.Holds truth := by
  intro equals f truth
  obtain ⟨document, hdocument, hiff⟩ := document_holds_iff truth f .null _ rfl
  cases hdocument
  have hlast : Document.HoldAll truth [.mapping [("term", .mapping [("c", .int 3)])]] :=
    ⟨rfl, trivial⟩
  exact ⟨_, rfl, hiff.mp (.inr (.inl hlast))⟩

end Filter
end FilterQuery
