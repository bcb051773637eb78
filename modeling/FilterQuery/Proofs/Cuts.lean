import FilterQuery.Proofs.Documents
import FilterQuery.Proofs.Parts

/-!
# Where statements are cut

The conjunctions say at which positions a list of statements is cut: wherever a statement other than
the first is joined by `or`. The runs are the slices between these positions, so there is one more
of them than there are cuts. Gathering the statements one after the other gives just these slices,
although it never looks at a position.
-/

namespace FilterQuery

variable {α β : Type}

/-- The positions, the first one aside, at which a statement is joined by `or`. -/
def cutPositions (conjunctions : List Conjunction) : List Nat :=
  (List.range conjunctions.length).filter fun i => i ≠ 0 ∧ conjunctions[i]? = some .or

/-- The slice from the start up to the first position, those between one position and the next, and
the one from the last position to the end. -/
def slicesFrom (l : List α) : Nat → List Nat → List (List α)
  | start, [] => [l.drop start]
  | start, stop :: positions => (l.take stop).drop start :: slicesFrom l stop positions

def slices (l : List α) (positions : List Nat) : List (List α) :=
  slicesFrom l 0 positions

theorem lt_length_of_mem_cutPositions {conjunctions : List Conjunction} {i : Nat}
    (h : i ∈ cutPositions conjunctions) : i < conjunctions.length :=
  List.mem_range.mp (List.mem_filter.mp h).1

theorem mem_cutPositions {conjunctions : List Conjunction} {i : Nat} :
    i ∈ cutPositions conjunctions ↔ i ≠ 0 ∧ conjunctions[i]? = some .or := by
  simp only [cutPositions, List.mem_filter, List.mem_range, decide_eq_true_eq]
  refine and_iff_right_of_imp fun h => ?_
  exact (List.getElem?_eq_some_iff.mp h.2).1

theorem cutPositions_append (conjunctions : List Conjunction) (c : Conjunction) :
    cutPositions (conjunctions ++ [c]) =
      cutPositions conjunctions ++
        if conjunctions ≠ [] ∧ c = .or then [conjunctions.length] else [] := by
  have hinit : (List.range conjunctions.length).filter
      (fun i => i ≠ 0 ∧ (conjunctions ++ [c])[i]? = some .or) = cutPositions conjunctions := by
    refine List.filter_congr fun i hi => ?_
    rw [List.getElem?_append_left (List.mem_range.mp hi)]
  rw [cutPositions, List.length_append, List.length_singleton, List.range_succ,
    List.filter_append, hinit]
  simp [List.filter_singleton]

section Slices

variable (l : List α)

theorem length_slicesFrom (start : Nat) (positions : List Nat) :
    (slicesFrom l start positions).length = positions.length + 1 := by
  induction positions generalizing start with
  | nil => rfl
  | cons stop positions ih => rw [slicesFrom, List.length_cons, List.length_cons, ih]

theorem slicesFrom_map (f : α → β) (start : Nat) (positions : List Nat) :
    slicesFrom (l.map f) start positions = (slicesFrom l start positions).map (List.map f) := by
  induction positions generalizing start with
  | nil => simp [slicesFrom]
  | cons stop positions ih => simp [slicesFrom, ih]

theorem slices_map (f : α → β) (positions : List Nat) :
    slices (l.map f) positions = (slices l positions).map (List.map f) :=
  slicesFrom_map l f 0 positions

variable {l}

/-- A cut behind the last member leaves what comes next in a slice of its own. -/
theorem slicesFrom_append_cut (a : α) {start : Nat} {positions : List Nat}
    (h : ∀ i ∈ positions, i ≤ l.length) :
    slicesFrom (l ++ [a]) start (positions ++ [l.length]) =
      slicesFrom l start positions ++ [[a]] := by
  induction positions generalizing start with
  | nil => simp [slicesFrom]
  | cons stop positions ih =>
    have hstop : stop ≤ l.length := h stop (List.mem_cons_self ..)
    have hrest : slicesFrom (l ++ [a]) stop (positions ++ [l.length]) = _ :=
      ih fun i hi => h i (List.mem_cons_of_mem _ hi)
    rw [List.cons_append, slicesFrom, slicesFrom, hrest, List.take_append_of_le_length hstop]
    rfl

/-- Without a new cut, what comes next goes to the end of the last slice. -/
theorem exists_slicesFrom_append (a : α) {start : Nat} {positions : List Nat}
    (hstart : start ≤ l.length) (h : ∀ i ∈ positions, i ≤ l.length) :
    ∃ closed last, slicesFrom l start positions = closed ++ [last] ∧
      slicesFrom (l ++ [a]) start positions = closed ++ [last ++ [a]] := by
  induction positions generalizing start with
  | nil =>
    refine ⟨[], l.drop start, rfl, ?_⟩
    rw [slicesFrom, List.drop_append_of_le_length hstart]
    rfl
  | cons stop positions ih =>
    have hstop : stop ≤ l.length := h stop (List.mem_cons_self ..)
    obtain ⟨closed, last, hslices, happend⟩ :=
      ih hstop fun i hi => h i (List.mem_cons_of_mem _ hi)
    refine ⟨(l.take stop).drop start :: closed, last, ?_, ?_⟩
    · rw [slicesFrom, hslices, List.cons_append]
    · rw [slicesFrom, happend, List.take_append_of_le_length hstop, List.cons_append]

end Slices

theorem isCut_slices {statements : List (Conjunction × α)} (h : statements ≠ []) :
    IsCut statements (slices statements (cutPositions (statements.map (·.1)))) := by
  -- from the end, since whether a statement is cut off depends on what stands before it
  induction statements using List.reverseRecOn with
  | nil => exact absurd rfl h
  | append_singleton statements s ih =>
    by_cases hfirst : statements = []
    · subst hfirst
      have hnone : cutPositions [s.1] = [] := by simp [cutPositions]
      simpa [hnone, slices, slicesFrom] using isCut_singleton s
    · have hcut := ih hfirst
      have hle : ∀ i ∈ cutPositions (statements.map (·.1)), i ≤ statements.length := by
        intro i hi
        have hlt := lt_length_of_mem_cutPositions hi
        rw [List.length_map] at hlt
        omega
      rw [List.map_append, List.map_singleton, cutPositions_append]
      by_cases hor : s.1 = .or
      · have hlater : statements.map (·.1) ≠ [] := by simpa using hfirst
        rw [if_pos ⟨hlater, hor⟩, List.length_map, slices, slicesFrom_append_cut s hle]
        exact hcut.append_or hor
      · rw [if_neg (fun hc => hor hc.2), List.append_nil]
        obtain ⟨closed, last, hslices, happend⟩ :=
          exists_slicesFrom_append s (Nat.zero_le _) hle
        rw [slices, hslices] at hcut
        rw [slices, happend]
        exact hcut.append_inner hor

theorem flatten_slices (statements : List (Conjunction × α)) :
    (slices statements (cutPositions (statements.map (·.1)))).flatten = statements := by
  by_cases hnil : statements = []
  · subst hnil
    rfl
  · exact (isCut_slices hnil).flatten

theorem ne_nil_of_cut {statements : List (Conjunction × α)}
    (h : cutPositions (statements.map (·.1)) ≠ []) : statements ≠ [] := by
  rintro rfl
  exact h rfl

namespace Query

variable {κ : Type} {statements : List (Conjunction × Query κ)}

theorem ofStatements_of_no_cut (h : cutPositions (statements.map (·.1)) = []) :
    ofStatements statements = all (statements.map (·.2)) := by
  by_cases hnil : statements = []
  · subst hnil
    rfl
  · rw [(isCut_slices hnil).ofStatements_eq, h]
    rfl

theorem ofStatements_of_cut (h : cutPositions (statements.map (·.1)) ≠ []) :
    ofStatements statements =
      any ((slices (statements.map (·.2)) (cutPositions (statements.map (·.1)))).map all) := by
  have hlength : 2 ≤ (slices (statements.map (·.2))
      (cutPositions (statements.map (·.1)))).length := by
    have hpos := List.length_pos_iff.mpr h
    rw [slices, length_slicesFrom]
    omega
  rw [(isCut_slices (ne_nil_of_cut h)).ofStatements_eq, ← slices_map, ofRuns_of_two_le hlength]

end Query

namespace Filter

/-- The statement is joined to those before it by the conjunction. -/
def JoinedBy (c : Conjunction) (v : Value) : Prop :=
  ∃ content conj, v = .statement content conj ∧ conj.IsConjunction c

theorem Yields.joinedBy_iff {p : Policy} {v : Value} {s : Conjunction × Query String}
    (h : Yields p v s) (c : Conjunction) : JoinedBy c v ↔ s.1 = c := by
  obtain ⟨content, conj, rfl, hconj, -⟩ := exists_of_statement_ok (h (.start p) rfl)
  constructor
  · rintro ⟨content', conj', hstatement, hc⟩
    cases hstatement
    exact hconj.unique hc
  · rintro rfl
    exact ⟨content, conj, rfl, hconj⟩

theorem getElem?_conjunctions_iff {p : Policy} {vs : List Value}
    {statements : List (Conjunction × Query String)} (h : List.Forall₂ (Yields p) vs statements)
    (i : Nat) (c : Conjunction) :
    (statements.map (·.1))[i]? = some c ↔ ∃ v, vs[i]? = some v ∧ JoinedBy c v := by
  induction h generalizing i with
  | nil => simp
  | cons hv _ ih =>
    cases i with
    | zero => simp [hv.joinedBy_iff]
    | succ i => simpa using ih i

/-- The document of a filter that compiles is made of the slices between the cuts: a single slice
gives a conjunction, and several give the disjunction of their conjunctions. No slice is empty then,
and together they are the fragments of the statements. The cuts are where a statement of the filter
other than the first is joined by `or`. -/
theorem grouping_cuts_before_or (f : Filter) (r r' : Resolver) (q : Query String)
    (h : f.compile.runFrom r = (.ok q, r')) :
    ∃ statements : List (Conjunction × Query String),
      List.Forall₂ (Yields r.policy) f.statements statements ∧
      let cuts := cutPositions (statements.map (·.1))
      let fragments := statements.map (·.2.document)
      let runs := slices fragments cuts
      (∀ i, i ∈ cuts ↔ i ≠ 0 ∧ ∃ v, f.statements[i]? = some v ∧ JoinedBy .or v) ∧
      (cuts = [] → q.document = .mapping [("bool", .mapping [("must", .list fragments)])]) ∧
      (cuts ≠ [] →
        q.document = .mapping [("bool", .mapping [("should",
          .list (runs.map fun run => .mapping [("bool", .mapping [("must", .list run)])]))])] ∧
        ∀ run ∈ runs, run ≠ []) ∧
      runs.length = cuts.length + 1 ∧ runs.flatten = fragments := by
  obtain ⟨statements, s, hrun, hpure⟩ := Resolving.exists_of_bind_ok h
  cases hpure
  have hyields := forall₂_yields_of_runFrom hrun
  refine ⟨statements, hyields, ?_, ?_, ?_, length_slicesFrom _ _ _, ?_⟩
  · intro i
    rw [mem_cutPositions, getElem?_conjunctions_iff hyields]
  · intro hnone
    rw [Query.ofStatements_of_no_cut hnone, Query.document_all, List.map_map]
    rfl
  · intro hcut
    constructor
    · simp only [Query.ofStatements_of_cut hcut, Query.document_any, slices_map, List.map_map,
        Function.comp_def, Query.document_all]
    · rw [slices_map, List.forall_mem_map]
      intro run hrun
      simpa using (isCut_slices (ne_nil_of_cut hcut)).nonempty run hrun
  · rw [slices_map, ← List.map_flatten, flatten_slices]

/-- A nested filter without statements is a member like any other, and an `or` at the front cuts
nothing. -/
theorem grouping_cuts_before_or_empty_nested :
    let clause (name : String) : Value :=
      .clause (.target (.string name) []) (.string "eq") (.int 1)
    let f : Filter := ⟨[.statement (.filter []) (.conjunction .or),
      .statement (clause "a") (.conjunction .and), .statement (clause "b") (.string "or")]⟩
    let r : Resolver := ⟨.unrestricted, ["c"]⟩
    ∃ q r' statements, f.compile.runFrom r = (.ok q, r') ∧
      List.Forall₂ (Yields r.policy) f.statements statements ∧
      cutPositions (statements.map (·.1)) = [2] ∧
      (slices (statements.map (·.2.document)) [2]).length = 2 ∧
      (slices (statements.map (·.2.document)) [2]).flatten = statements.map (·.2.document) := by
  intro clause f r
  obtain ⟨statements, hyields, -, -, -, hlength, hflatten⟩ := grouping_cuts_before_or f r _ _ rfl
  have hstatements : ((compileStatements f.statements).runFrom r).1 = .ok statements := by
    rw [runFrom_of_forall₂_yields hyields r rfl]
  have hcuts : cutPositions (statements.map (·.1)) = [2] := by
    cases hstatements
    rfl
  rw [hcuts] at hlength hflatten
  exact ⟨_, _, statements, rfl, hyields, hcuts, hlength, hflatten⟩

end Filter
end FilterQuery
