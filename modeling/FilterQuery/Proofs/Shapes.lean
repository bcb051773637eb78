import FilterQuery.Proofs.Keys
import Mathlib.Data.List.Forall2

/-!
# The shape of a filter

Two filters have the same shape when their statements fall into as many runs of the same lengths,
and the statements in the same place are both clauses with one fragment or both nested filters of
the same shape. A document shows the shape: clauses give no conjunction and no disjunction, so the
groups in a document are those of the filters, and every run of statements can be told from the
nested filters in it. So filters of one document have the same shape, and the other way round.
-/

namespace FilterQuery

theorem forall₂_iff_of_mem {α β : Type} {R S : α → β → Prop} {as : List α} {bs : List β}
    (h : ∀ a ∈ as, ∀ b ∈ bs, (R a b ↔ S a b)) : List.Forall₂ R as bs ↔ List.Forall₂ S as bs := by
  rw [List.forall₂_iff_zip, List.forall₂_iff_zip]
  refine and_congr_right fun _ => forall₂_congr fun a b => imp_congr_right fun hmem => ?_
  obtain ⟨ha, hb⟩ := List.of_mem_zip hmem
  exact h a ha b hb

theorem map_eq_map_iff_forall₂ {α β γ : Type} {f : α → γ} {g : β → γ} {as : List α}
    {bs : List β} : as.map f = bs.map g ↔ List.Forall₂ (fun a b => f a = g b) as bs := by
  rw [← List.forall₂_eq_eq_eq, List.forall₂_map_left_iff, List.forall₂_map_right_iff]

namespace Query

variable {κ : Type}

/-- Whether a query is a conjunction or a disjunction. -/
def isGroup : Query κ → Bool
  | all _ | any _ => true
  | _ => false

theorem isGroup_ofRuns (runs : List (List (Query κ))) : (ofRuns runs).isGroup = true := by
  match runs with
  | [] => rfl
  | [run] => rfl
  | first :: second :: runs => rfl

theorem ofRuns_injective {runs others : List (List (Query κ))} (hruns : ∀ run ∈ runs, run ≠ [])
    (hothers : ∀ run ∈ others, run ≠ []) (h : ofRuns runs = ofRuns others) : runs = others := by
  match runs, others with
  | [], [] => rfl
  | [], [run] =>
    cases h
    exact absurd rfl (hothers [] (by simp))
  | [run], [] =>
    cases h
    exact absurd rfl (hruns [] (by simp))
  | [run], [other] =>
    cases h
    rfl
  | first :: second :: runs, first' :: second' :: others =>
    have hinjective : Function.Injective (all : List (Query κ) → Query κ) :=
      fun _ _ heq => all.inj heq
    exact List.map_injective_iff.mpr hinjective (any.inj h)
  | [], _ :: _ :: _ | [_], _ :: _ :: _ | _ :: _ :: _, [] | _ :: _ :: _, [_] => cases h

theorem ofRuns_map_eq_iff {α : Type} {runs others : List (List (α × Query κ))}
    (hruns : ∀ run ∈ runs, run ≠ []) (hothers : ∀ run ∈ others, run ≠ []) :
    ofRuns (runs.map fun run => run.map (·.2)) = ofRuns (others.map fun run => run.map (·.2)) ↔
      List.Forall₂ (List.Forall₂ fun s t => s.2 = t.2) runs others :=
  calc
    _ ↔ (runs.map fun run => run.map (·.2)) = others.map fun run => run.map (·.2) :=
      ⟨ofRuns_injective (by simpa using hruns) (by simpa using hothers), congrArg _⟩
    _ ↔ List.Forall₂ (fun run other => run.map (·.2) = other.map (·.2)) runs others :=
      map_eq_map_iff_forall₂
    _ ↔ List.Forall₂ (List.Forall₂ fun s t => s.2 = t.2) runs others :=
      forall₂_iff_of_mem fun _ _ _ _ => map_eq_map_iff_forall₂

end Query

theorem Fragment.Gives.isGroup_eq {κ : Type} {key : κ} {op : Operator} {v : Value} {q : Query κ}
    (h : Gives key op v q) : q.isGroup = false := by
  cases h with
  | null c | compare c _ => cases c <;> rfl
  | _ => rfl

theorem Clause.Compiles.isGroup_eq {c : Clause} {q : Query String} (h : c.Compiles q) :
    q.isGroup = false := by
  cases h with
  | fields _ _ _ | literals _ _ _ => rfl
  | subject _ _ fits _ hq => exact (Fragment.gives_of_ofTargeted fits hq).isGroup_eq
  | object _ _ fits _ hq =>
    exact (Fragment.gives_of_ofTargeted ((Operand.fits_inverse _ _).mpr fits) hq).isGroup_eq

theorem Clause.fragment_ne_ofStatements {c : Clause} {q : Query String} (h : c.fragment = .ok q)
    (sq : List (Conjunction × Query String)) : q ≠ .ofStatements sq := by
  rintro rfl
  have hleaf := (compiles_of_fragment h).isGroup_eq
  rw [(isCut_splitBy sq).ofStatements_eq, Query.isGroup_ofRuns] at hleaf
  cases hleaf

namespace Filter

/-- The member of a filter is a statement with the conjunction and the content. -/
def Joins (v : Value) (s : Conjunction × Value) : Prop :=
  ∃ conj, v = .statement s.2 conj ∧ conj.IsConjunction s.1

/-- The contents of the statements, cut into runs. -/
def HasRuns (statements : List Value) (runs : List (List Value)) : Prop :=
  ∃ joined cut, List.Forall₂ Joins statements joined ∧ IsCut joined cut ∧
    runs = cut.map fun run => run.map (·.2)

/-- Two contents are clauses with the same fragment, or filters with the same numbers of runs and of
members in each run and with the same shapes in the same places. -/
inductive SameShape : Value → Value → Prop
  | clause {c d : Clause} {q : Query String} :
      c.fragment = .ok q → d.fragment = .ok q → SameShape c.toValue d.toValue
  | filter {vs ws : List Value} {runs others : List (List Value)} :
      HasRuns vs runs → HasRuns ws others → List.Forall₂ (List.Forall₂ SameShape) runs others →
      SameShape (.filter vs) (.filter ws)

theorem Joins.unique {v : Value} {s s' : Conjunction × Value} (h : Joins v s) (h' : Joins v s') :
    s = s' := by
  obtain ⟨conj, rfl, hconj⟩ := h
  obtain ⟨conj', heq, hconj'⟩ := h'
  obtain ⟨hcontent, rfl⟩ := Value.statement.inj heq
  exact Prod.ext (hconj.unique hconj') hcontent

theorem HasRuns.unique {vs : List Value} {runs others : List (List Value)} (h : HasRuns vs runs)
    (h' : HasRuns vs others) : runs = others := by
  obtain ⟨joined, cut, hjoined, hcut, rfl⟩ := h
  obtain ⟨joined', cut', hjoined', hcut', rfl⟩ := h'
  have hunique : Relator.RightUnique Joins := fun _ _ _ => Joins.unique
  obtain rfl := hunique.forall₂ hjoined hjoined'
  rw [hcut.unique hcut']

theorem StatementsCompile.exists_joined {vs : List Value}
    {sq : List (Conjunction × Query String)} (h : StatementsCompile vs sq) :
    ∃ joined : List (Conjunction × (Value × Query String)),
      List.Forall₂ Joins vs (joined.map fun s => (s.1, s.2.1)) ∧
      sq = joined.map (fun s => (s.1, s.2.2)) ∧
      ∀ s ∈ joined, ContentCompiles s.2.1 s.2.2 ∧ ∃ conj, Value.statement s.2.1 conj ∈ vs := by
  induction vs generalizing sq with
  | nil =>
    cases h
    exact ⟨[], .nil, rfl, by simp⟩
  | cons v vs ih =>
    cases h with
    | @cons content conj c q _ sq hconj hq h =>
      obtain ⟨joined, hjoins, rfl, hcompiles⟩ := ih h
      refine ⟨(c, content, q) :: joined, .cons ⟨conj, rfl, hconj⟩ hjoins, rfl, ?_⟩
      rw [List.forall_mem_cons]
      refine ⟨⟨hq, conj, List.mem_cons_self ..⟩, fun s hs => ?_⟩
      obtain ⟨hs, conj', hmem⟩ := hcompiles s hs
      exact ⟨hs, conj', List.mem_cons_of_mem _ hmem⟩

/-- Compiled statements are cut where the statements are, and every content stands in the place of
its query. -/
theorem StatementsCompile.exists_runs {vs : List Value} {sq : List (Conjunction × Query String)}
    (h : StatementsCompile vs sq) :
    ∃ runs : List (List (Value × Query String)),
      HasRuns vs (runs.map fun run => run.map (·.1)) ∧
      Query.ofStatements sq = .ofRuns (runs.map fun run => run.map (·.2)) ∧
      (∀ run ∈ runs, run ≠ []) ∧
      ∀ run ∈ runs, ∀ s ∈ run,
        ContentCompiles s.1 s.2 ∧ ∃ conj, Value.statement s.1 conj ∈ vs := by
  obtain ⟨joined, hjoins, rfl, hcompiles⟩ := h.exists_joined
  obtain ⟨cut, hcut⟩ : ∃ cut, IsCut joined cut := ⟨_, isCut_splitBy joined⟩
  refine ⟨cut.map fun run => run.map (·.2), ⟨_, _, hjoins, hcut.map fun s => s.1, ?_⟩, ?_, ?_, ?_⟩
  · simp
  · rw [(hcut.map fun s => s.2).ofStatements_eq, List.map_map, List.map_map]
    simp only [Function.comp_def, List.map_map]
  · simpa using hcut.nonempty
  · simp only [List.forall_mem_map]
    intro run hrun s hs
    refine hcompiles s ?_
    rw [← hcut.flatten]
    exact List.mem_flatten_of_mem hrun hs

theorem SameShape.exists_fragment {c d : Clause} (h : SameShape c.toValue d.toValue) :
    ∃ q, c.fragment = .ok q ∧ d.fragment = .ok q := by
  obtain ⟨subject, op, object⟩ := c
  obtain ⟨subject', op', object'⟩ := d
  cases h with
  | clause hc hd => exact ⟨_, hc, hd⟩

theorem not_sameShape_clause_filter (c : Clause) (ws : List Value) :
    ¬ SameShape c.toValue (.filter ws) := by
  obtain ⟨subject, op, object⟩ := c
  nofun

theorem not_sameShape_filter_clause (vs : List Value) (d : Clause) :
    ¬ SameShape (.filter vs) d.toValue := by
  obtain ⟨subject, op, object⟩ := d
  nofun

theorem sameShape_filter_iff {vs ws : List Value} {runs others : List (List Value)}
    (h : HasRuns vs runs) (h' : HasRuns ws others) :
    SameShape (.filter vs) (.filter ws) ↔ List.Forall₂ (List.Forall₂ SameShape) runs others := by
  constructor
  · intro hshape
    cases hshape with
    | filter hruns hothers hshapes => rwa [h.unique hruns, h'.unique hothers]
  · exact .filter h h'

/-- Among the contents that compile, those with the query of this one are those of its shape. -/
def QueryShowsShape (v : Value) : Prop :=
  ∀ w q q', ContentCompiles v q → ContentCompiles w q' → (q = q' ↔ SameShape v w)

theorem queryShowsShape_clause (c : Clause) : QueryShowsShape c.toValue := by
  intro w q q' hv hw
  obtain ⟨subject, op, object⟩ := c
  cases hv with
  | @clause c _ hc =>
    cases hw with
    | @clause d _ hd =>
      constructor
      · rintro rfl
        exact .clause hc hd
      · intro h
        obtain ⟨q, hc', hd'⟩ := h.exists_fragment
        rw [hc] at hc'
        rw [hd] at hd'
        exact Except.ok.inj (hc'.trans hd'.symm)
    | @filter ws sq hws =>
      exact iff_of_false (Clause.fragment_ne_ofStatements hc sq) (not_sameShape_clause_filter c ws)

theorem queryShowsShape_filter {vs : List Value}
    (hcontents : ∀ content conj, .statement content conj ∈ vs → QueryShowsShape content) :
    QueryShowsShape (.filter vs) := by
  intro w q q' hv hw
  cases hv with
  | @filter _ sq hvs =>
    cases hw with
    | @clause d _ hd =>
      have hne := (Clause.fragment_ne_ofStatements hd sq).symm
      exact iff_of_false hne (not_sameShape_filter_clause vs d)
    | @filter ws sq' hws =>
      obtain ⟨runs, hruns, hquery, hnonempty, hcompiles⟩ := hvs.exists_runs
      obtain ⟨others, hothers, hquery', hnonempty', hcompiles'⟩ := hws.exists_runs
      rw [hquery, hquery', Query.ofRuns_map_eq_iff hnonempty hnonempty',
        sameShape_filter_iff hruns hothers]
      simp only [List.forall₂_map_left_iff, List.forall₂_map_right_iff]
      -- the runs correspond, so it is enough to compare the statements one by one
      refine forall₂_iff_of_mem fun run hrun other hother => ?_
      refine forall₂_iff_of_mem fun s hs t ht => ?_
      obtain ⟨hcompiled, conj, hmem⟩ := hcompiles run hrun s hs
      exact hcontents s.1 conj hmem t.1 s.2 t.2 hcompiled (hcompiles' other hother t ht).1

mutual

theorem queryShowsShape_content (v : Value) : QueryShowsShape v := by
  cases v with
  | filter statements => exact queryShowsShape_filter (queryShowsShape_statements statements)
  | clause subject op object => exact queryShowsShape_clause ⟨subject, op, object⟩
  | _ => exact fun _ _ _ hv => nomatch hv
termination_by structural v

theorem queryShowsShape_statement (v : Value) {content conj : Value}
    (h : v = .statement content conj) : QueryShowsShape content := by
  cases v with
  | statement inner _ =>
    obtain ⟨rfl, -⟩ := Value.statement.inj h
    exact queryShowsShape_content inner
  | _ => cases h
termination_by structural v

theorem queryShowsShape_statements (vs : List Value) (content conj : Value)
    (h : .statement content conj ∈ vs) : QueryShowsShape content := by
  cases vs with
  | nil => cases h
  | cons v vs =>
    rcases List.mem_cons.mp h with h | h
    · exact queryShowsShape_statement v h.symm
    · exact queryShowsShape_statements vs content conj h
termination_by structural vs

end

/-- Filters that convert have the same document exactly when they have the same shape. -/
theorem same_document_iff_same_shape (f g : Filter) (policy policy' : Value) (r s : Conversion)
    (hf : f.toValue.convert policy = .ok r) (hg : g.toValue.convert policy' = .ok s) :
    r.document = s.document ↔ SameShape f.toValue g.toValue := by
  obtain ⟨p, hf⟩ := exists_policy_of_convert_ok hf
  obtain ⟨p', hg⟩ := exists_policy_of_convert_ok hg
  have hquery : r.document = s.document ↔ r.query = s.query := by
    refine ⟨query_eq_of_document_eq hf hg, fun h => ?_⟩
    rw [Conversion.document, Conversion.document, h]
  rw [hquery]
  exact queryShowsShape_content f.toValue g.toValue _ _ (compositional_compiles.of_convert hf)
    (compositional_compiles.of_convert hg)

/-- The conjunction of the first statement and the order of the operands do not show. -/
theorem same_document_iff_same_shape_reversed_clause :
    let f : Filter := ⟨[
      .statement (.clause (.target (.string "a") []) (.string "eq") .null) (.string "and"),
      .statement (.filter [.statement (.clause (.target (.string "b") [.int 0]) (.string "lt")
        (.int 2)) (.conjunction .and)]) (.conjunction .or)]⟩
    let g : Filter := ⟨[
      .statement (.clause .null (.string "eq") (.target (.string "a") [])) (.string "or"),
      .statement (.filter [.statement (.clause (.int 2) (.string "gt")
        (.target (.string "b.0") [])) (.conjunction .or)]) (.conjunction .or)]⟩
    let policy : Value := .policy ⟨[], ["b"], [], .inl rfl⟩
    ∃ r s, f.toValue.convert .null = .ok r ∧ g.toValue.convert policy = .ok s ∧
      r.document = s.document ∧ SameShape f.toValue g.toValue := by
  intro f g policy
  have hiff := same_document_iff_same_shape f g .null policy _ _ rfl rfl
  exact ⟨_, _, rfl, rfl, rfl, hiff.mp rfl⟩

end Filter
end FilterQuery
