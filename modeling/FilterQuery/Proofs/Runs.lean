import FilterQuery.Query.Basic
import Mathlib.Data.List.SplitBy

/-!
# Runs of statements

The runs of a list of statements are described by what they are: put together they give the list,
none is empty, a statement joined by `or` stands at the front of its run, and every run after the
first has such a statement at its front. There is exactly one way to cut a list like this. Gathering
the statements from left to right cuts them so: after the first statement the open run always has a
member, so every later `or` begins a new run.
-/

namespace FilterQuery

variable {α β : Type}

/-- The list is cut before every statement joined by `or`, the first statement aside. -/
structure IsCut (statements : List (Conjunction × α)) (runs : List (List (Conjunction × α))) :
    Prop where
  flatten : runs.flatten = statements
  nonempty : ∀ run ∈ runs, run ≠ []
  inner : ∀ run ∈ runs, ∀ s ∈ run.tail, s.1 ≠ .or
  front : ∀ run ∈ runs.tail, ∃ s ∈ run.head?, s.1 = .or

/-- A chain of a relation that looks at the later member only. -/
theorem isChain_right_iff (P : α → Prop) (l : List α) :
    l.IsChain (fun _ next => P next) ↔ ∀ next ∈ l.tail, P next := by
  induction l with
  | nil => simp
  | cons a l ih =>
    cases l with
    | nil => simp
    | cons b l => simpa using fun _ => ih

theorem splitBy_eq_iff_isCut {statements : List (Conjunction × α)}
    {runs : List (List (Conjunction × α))} :
    statements.splitBy (fun _ next => next.1 ≠ .or) = runs ↔ IsCut statements runs := by
  rw [List.splitBy_eq_iff]
  constructor
  · rintro ⟨hflatten, hnonempty, hinner, hfront⟩
    refine ⟨hflatten.symm, fun run hrun => ?_, fun run hrun => ?_, ?_⟩
    · rintro rfl
      exact hnonempty hrun
    · have hchain := (isChain_right_iff _ run).mp (hinner run hrun)
      simpa using hchain
    · refine (isChain_right_iff _ runs).mp (hfront.imp ?_)
      rintro _ run ⟨-, hrun, hor⟩
      exact ⟨run.head hrun, List.head_mem_head? hrun, by simpa using hor⟩
  · rintro ⟨hflatten, hnonempty, hinner, hfront⟩
    refine ⟨hflatten.symm, fun hnil => hnonempty [] hnil rfl, fun run hrun => ?_, ?_⟩
    · exact (isChain_right_iff _ run).mpr (by simpa using hinner run hrun)
    · refine ((isChain_right_iff _ runs).mpr hfront).imp_of_mem_imp ?_
      rintro a b ha hb ⟨s, hs, hor⟩
      refine ⟨hnonempty a ha, hnonempty b hb, ?_⟩
      rw [List.head_of_mem_head? hs]
      simpa using hor

theorem isCut_splitBy (statements : List (Conjunction × α)) :
    IsCut statements (statements.splitBy fun _ next => next.1 ≠ .or) :=
  splitBy_eq_iff_isCut.mp rfl

theorem IsCut.unique {statements : List (Conjunction × α)}
    {runs others : List (List (Conjunction × α))} (h : IsCut statements runs)
    (h' : IsCut statements others) : runs = others :=
  (splitBy_eq_iff_isCut.mpr h).symm.trans (splitBy_eq_iff_isCut.mpr h')

/-- Where a list is cut depends on the conjunctions only. -/
theorem IsCut.map {statements : List (Conjunction × α)} {runs : List (List (Conjunction × α))}
    (h : IsCut statements runs) (g : α → β) :
    IsCut (statements.map fun s => (s.1, g s.2))
      (runs.map fun run => run.map fun s => (s.1, g s.2)) where
  flatten := by rw [← h.flatten, List.map_flatten]
  nonempty := by
    intro run hrun
    obtain ⟨source, hsource, rfl⟩ := List.mem_map.mp hrun
    simpa using h.nonempty source hsource
  inner := by
    intro run hrun s hs
    obtain ⟨source, hsource, rfl⟩ := List.mem_map.mp hrun
    rw [← List.map_tail] at hs
    obtain ⟨t, ht, rfl⟩ := List.mem_map.mp hs
    exact h.inner source hsource t ht
  front := by
    intro run hrun
    rw [← List.map_tail] at hrun
    obtain ⟨source, hsource, rfl⟩ := List.mem_map.mp hrun
    obtain ⟨s, hs, hor⟩ := h.front source hsource
    exact ⟨(s.1, g s.2), by rw [List.head?_map]; exact Option.mem_map_of_mem _ hs, hor⟩

/-- A statement that is joined by `or` is cut off from what stands before it. -/
theorem IsCut.append_or {statements : List (Conjunction × α)}
    {runs : List (List (Conjunction × α))} (h : IsCut statements runs) {s : Conjunction × α}
    (hs : s.1 = .or) : IsCut (statements ++ [s]) (runs ++ [[s]]) where
  flatten := by simp [h.flatten]
  nonempty := by
    intro run hrun
    rcases List.mem_append.mp hrun with hrun | hrun
    · exact h.nonempty run hrun
    · obtain rfl := List.mem_singleton.mp hrun
      exact List.cons_ne_nil _ _
  inner := by
    intro run hrun t ht
    rcases List.mem_append.mp hrun with hrun | hrun
    · exact h.inner run hrun t ht
    · obtain rfl := List.mem_singleton.mp hrun
      cases ht
  front := by
    intro run hrun
    cases runs with
    | nil => cases hrun
    | cons first rest =>
      rcases List.mem_append.mp hrun with hrun | hrun
      · exact h.front run hrun
      · obtain rfl := List.mem_singleton.mp hrun
        exact ⟨s, rfl, hs⟩

theorem IsCut.append_inner {statements : List (Conjunction × α)}
    {runs : List (List (Conjunction × α))} {last : List (Conjunction × α)}
    (h : IsCut statements (runs ++ [last])) {s : Conjunction × α} (hs : s.1 ≠ .or) :
    IsCut (statements ++ [s]) (runs ++ [last ++ [s]]) := by
  have hlast : last ∈ runs ++ [last] := List.mem_append_right _ (List.mem_singleton.mpr rfl)
  have hne : last ≠ [] := h.nonempty last hlast
  refine ⟨?_, ?_, ?_, ?_⟩
  · rw [← h.flatten]
    simp
  · intro run hrun
    rcases List.mem_append.mp hrun with hrun | hrun
    · exact h.nonempty run (List.mem_append_left _ hrun)
    · obtain rfl := List.mem_singleton.mp hrun
      exact List.append_ne_nil_of_left_ne_nil hne _
  · intro run hrun t ht
    rcases List.mem_append.mp hrun with hrun | hrun
    · exact h.inner run (List.mem_append_left _ hrun) t ht
    · obtain rfl := List.mem_singleton.mp hrun
      rw [List.tail_append_of_ne_nil hne] at ht
      rcases List.mem_append.mp ht with ht | ht
      · exact h.inner last hlast t ht
      · obtain rfl := List.mem_singleton.mp ht
        exact hs
  · intro run hrun
    cases runs with
    | nil => cases hrun
    | cons first rest =>
      rcases List.mem_append.mp hrun with hrun | hrun
      · exact h.front run (List.mem_append_left _ hrun)
      · obtain rfl := List.mem_singleton.mp hrun
        obtain ⟨t, ht, hor⟩ := h.front last (List.mem_append_right _ (List.mem_singleton.mpr rfl))
        exact ⟨t, List.mem_head?_append_of_mem_head? ht, hor⟩

theorem isCut_singleton (s : Conjunction × α) : IsCut [s] [[s]] where
  flatten := rfl
  nonempty := by simp
  inner := by simp
  front := by simp

namespace Grouping

/-- The runs are those of the statements seen so far, and the last of them is open. -/
def Gathers (g : Grouping α) (seen : List (Conjunction × α)) : Prop :=
  ∃ closed current, IsCut seen (closed ++ [current]) ∧
    g = ⟨closed.map fun run => run.map (·.2), current.map (·.2)⟩

theorem gathers_join_start (s : Conjunction × α) : (start.join s).Gathers [s] :=
  ⟨[], [s], isCut_singleton s, by simp [join, start]⟩

/-- The open run is not empty, so that `or` closes it. -/
theorem Gathers.join {g : Grouping α} {seen : List (Conjunction × α)} (h : g.Gathers seen)
    (s : Conjunction × α) : (g.join s).Gathers (seen ++ [s]) := by
  obtain ⟨closed, current, hcut, rfl⟩ := h
  have hne : current ≠ [] :=
    hcut.nonempty current (List.mem_append_right _ (List.mem_singleton.mpr rfl))
  by_cases hor : s.1 = .or
  · refine ⟨closed ++ [current], [s], hcut.append_or hor, ?_⟩
    simp [Grouping.join, hor, hne]
  · refine ⟨closed, current ++ [s], hcut.append_inner hor, ?_⟩
    simp [Grouping.join, hor]

theorem Gathers.foldl {g : Grouping α} {seen : List (Conjunction × α)} (h : g.Gathers seen)
    (rest : List (Conjunction × α)) : (rest.foldl Grouping.join g).Gathers (seen ++ rest) := by
  induction rest generalizing g seen with
  | nil => simpa using h
  | cons s rest ih => simpa using ih (h.join s)

end Grouping

namespace Query

variable {κ : Type}

/-- The conjunctions of the runs, with a disjunction around them when there are several. -/
def ofRuns : List (List (Query κ)) → Query κ
  | [] => all []
  | [run] => all run
  | runs => any (runs.map all)

theorem ofRuns_of_two_le {runs : List (List (Query κ))} (h : 2 ≤ runs.length) :
    ofRuns runs = any (runs.map all) := by
  match runs with
  | [] | [_] => simp at h
  | first :: second :: runs => rfl

theorem ofGrouping_eq_ofRuns (g : Grouping (Query κ)) :
    ofGrouping g = ofRuns (g.closed ++ [g.current]) := by
  obtain ⟨closed, current⟩ := g
  match closed with
  | [] => rfl
  | [first] => rfl
  | first :: second :: closed => rfl

end Query

theorem IsCut.ofStatements_eq {κ : Type} {statements : List (Conjunction × Query κ)}
    {runs : List (List (Conjunction × Query κ))} (h : IsCut statements runs) :
    Query.ofStatements statements = .ofRuns (runs.map fun run => run.map (·.2)) := by
  cases statements with
  | nil =>
    have hnil : runs = [] := by
      refine List.eq_nil_iff_forall_not_mem.mpr fun run hrun => h.nonempty run hrun ?_
      exact List.flatten_eq_nil_iff.mp h.flatten run hrun
    rw [hnil]
    rfl
  | cons s rest =>
    obtain ⟨closed, current, hcut, hg⟩ := (Grouping.gathers_join_start s).foldl rest
    rw [Query.ofStatements, List.foldl_cons, hg, Query.ofGrouping_eq_ofRuns, h.unique hcut]
    simp

end FilterQuery
