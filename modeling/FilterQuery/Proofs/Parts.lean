import FilterQuery.Proofs.Compilation
import Mathlib.Data.List.Forall2

/-!
# The parts of a filter

A statement gives the same query wherever it stands: neither the statements before it nor the fields
that have been recorded matter. So a filter can be put together from separate conversions, of its
nested filters as they stand and of its clauses as filters of a single statement. Its fields are
those of the parts, each at its first mention.
-/

namespace FilterQuery

namespace Resolver

theorem record_of_mem {r : Resolver} {field : String} (h : field ∈ r.fields) :
    r.record field = r := by
  rw [record, if_pos ((r.hasField_iff field).mpr h)]

theorem mem_fields_recordAll (r : Resolver) (fields : List String) (other : String) :
    other ∈ (r.recordAll fields).fields ↔ other ∈ r.fields ∨ other ∈ fields := by
  induction fields generalizing r with
  | nil => simp
  | cons field fields ih =>
    change other ∈ ((r.record field).recordAll fields).fields ↔ _
    rw [ih, mem_fields_record, List.mem_cons, or_assoc]

theorem recordAll_eraseDups (r : Resolver) (fields : List String) :
    r.recordAll fields.eraseDups = r.recordAll fields := by
  induction fields using List.reverseRecOn with
  | nil => rfl
  | append_singleton fields field ih =>
    rw [List.eraseDups_append, recordAll_append, recordAll_append, ih]
    by_cases known : field ∈ fields
    · have hrecorded : field ∈ (r.recordAll fields).fields :=
        (r.mem_fields_recordAll fields field).mpr (.inr known)
      have hagain : (r.recordAll fields).recordAll [field] = r.recordAll fields :=
        record_of_mem hrecorded
      rw [hagain]
      simp [List.removeAll, known]
    · simp [List.removeAll, List.eraseDups_cons, known]

end Resolver

namespace Filter

/-- Under the policy the statement compiles to the query, whatever has been recorded before. -/
def Yields (p : Policy) (v : Value) (s : Conjunction × Query String) : Prop :=
  ∀ r : Resolver, r.policy = p →
    (compileStatement v).runFrom r = (.ok s, r.recordAll ((statementTargets v).map Target.field))

theorem Yields.unique {p : Policy} {v : Value} {s t : Conjunction × Query String}
    (hs : Yields p v s) (ht : Yields p v t) : s = t := by
  have hrun := (hs (.start p) rfl).symm.trans (ht (.start p) rfl)
  exact Except.ok.inj (congrArg Prod.fst hrun)

theorem yields_of_runFrom {v : Value} {r r' : Resolver} {s : Conjunction × Query String}
    (h : (compileStatement v).runFrom r = (.ok s, r')) :
    Yields r.policy v s ∧ r'.policy = r.policy := by
  obtain ⟨t, ht⟩ := performs_statement v
  obtain ⟨hpass, rfl, rfl⟩ := ht.of_runFrom_ok h
  constructor
  · intro other hother
    exact ht.ok other (hother ▸ hpass)
  · exact r.policy_recordAll _

theorem forall₂_yields_of_runFrom {vs : List Value} {r r' : Resolver}
    {sq : List (Conjunction × Query String)}
    (h : (compileStatements vs).runFrom r = (.ok sq, r')) :
    List.Forall₂ (Yields r.policy) vs sq := by
  induction vs generalizing r sq with
  | nil =>
    cases h
    exact .nil
  | cons v vs ih =>
    obtain ⟨first, s, hfirst, hrest⟩ := Resolving.exists_of_bind_ok h
    obtain ⟨rest, s', hrest, hpure⟩ := Resolving.exists_of_bind_ok hrest
    cases hpure
    obtain ⟨hyields, hpolicy⟩ := yields_of_runFrom hfirst
    exact .cons hyields (hpolicy ▸ ih hrest)

theorem runFrom_of_forall₂_yields {p : Policy} {vs : List Value}
    {sq : List (Conjunction × Query String)} (h : List.Forall₂ (Yields p) vs sq) (r : Resolver)
    (hr : r.policy = p) :
    (compileStatements vs).runFrom r =
      (.ok sq, r.recordAll ((statementsTargets vs).map Target.field)) := by
  induction h generalizing r with
  | nil => rfl
  | @cons v s vs sq hv _ ih =>
    have hrest := ih (r.recordAll ((statementTargets v).map Target.field))
      ((r.policy_recordAll _).trans hr)
    simp only [compileStatements, Resolving.runFrom_bind, hv r hr, hrest, Resolving.runFrom_pure,
      statementsTargets, List.map_append, Resolver.recordAll_append]

/-- What the last statements give depends neither on those before them nor on the record. -/
theorem drop_eq_of_runFrom {p : Policy} {xs ys others : List Value}
    {sq result : List (Conjunction × Query String)} (h : List.Forall₂ (Yields p) (xs ++ ys) sq)
    {r r' : Resolver} (hr : r.policy = p)
    (hrun : (compileStatements (others ++ ys)).runFrom r = (.ok result, r')) :
    result.drop others.length = sq.drop xs.length := by
  have hresult : List.Forall₂ (Yields p) (others ++ ys) result :=
    hr ▸ forall₂_yields_of_runFrom hrun
  have hback := List.forall₂_drop others.length hresult
  have hback' := List.forall₂_drop xs.length h
  rw [List.drop_left] at hback hback'
  have hunique : Relator.RightUnique (Yields p) := fun _ _ _ => Yields.unique
  exact hunique.forall₂ hback hback'

/-- A statement of a filter, with what its content gives when it is converted on its own. -/
structure Part where
  conjunction : Conjunction
  fields : List String
  fragment : Query String

def Part.statement (part : Part) : Conjunction × Query String :=
  (part.conjunction, part.fragment)

/-- The content converts on its own, with the fields and the fragment: a nested filter as it stands,
and a clause as the single statement of a filter. -/
inductive ConvertsAlone (p : Policy) : Value → List String → Query String → Prop
  | filter {g : Filter} {r : Conversion} {q : Query String} :
      g.toValue.convert (.policy p) = .ok r →
      r.document = .mapping [("filter", q.document)] →
      ConvertsAlone p g.toValue r.fields q
  | clause {c : Clause} {r : Conversion} {q : Query String} :
      (toValue ⟨[.statement c.toValue (.conjunction .and)]⟩).convert (.policy p) = .ok r →
      r.document =
        .mapping [("filter", .mapping [("bool", .mapping [("must", .list [q.document])])])] →
      ConvertsAlone p c.toValue r.fields q

def IsPart (p : Policy) (v : Value) (part : Part) : Prop :=
  ∃ content conj, v = .statement content conj ∧ conj.IsConjunction part.conjunction ∧
    ConvertsAlone p content part.fields part.fragment

theorem exists_part_of_mem {p : Policy} {vs : List Value} {parts : List Part}
    (h : List.Forall₂ (IsPart p) vs parts) {v : Value} (hv : v ∈ vs) : ∃ part, IsPart p v part := by
  induction h with
  | nil => cases hv
  | cons hpart _ ih =>
    rcases List.mem_cons.mp hv with rfl | hv
    · exact ⟨_, hpart⟩
    · exact ih hv

/-- The filter itself or one that is nested in it, at any depth. -/
inductive Contains (f : Filter) : Filter → Prop
  | self : Contains f f
  | nested {g : Filter} {statements : List Value} {conj : Value} :
      Contains f g → .statement (.filter statements) conj ∈ g.statements →
      Contains f ⟨statements⟩

theorem compile_single {content : Value} {q : Query String} {r r' : Resolver}
    (h : (compileContent content).runFrom r = (.ok q, r')) :
    (compile ⟨[.statement content (.conjunction .and)]⟩).runFrom r = (.ok (.all [q]), r') := by
  have hread : readConjunction (.conjunction .and) = .ok .and := rfl
  simp only [compile, compileStatements, compileStatement, Resolving.runFrom_bind, hread,
    Resolving.runFrom_ofExcept, h, Resolving.runFrom_pure]
  rfl

section Separate

variable {p : Policy} (hrequire : p.require = [])
include hrequire

/-- Where nothing is required, a filter that compiles converts. -/
theorem convert_of_runFrom {f : Filter} {q : Query String} {fields : List String}
    (h : f.compile.runFrom (.start p) = (.ok q, (Resolver.start p).recordAll fields)) :
    f.convert p = .ok ⟨fields.eraseDups, q⟩ := by
  simp only [convert, h, missingField?_recordAll, hrequire, List.find?_nil,
    Resolver.fields_recordAll_start]

theorem exists_part_of_yields {v : Value} {s : Conjunction × Query String} (h : Yields p v s) :
    ∃ part, IsPart p v part ∧ part.statement = s ∧
      part.fields = ((statementTargets v).map Target.field).eraseDups := by
  obtain ⟨c, q⟩ := s
  obtain ⟨content, conj, rfl, hconj, hrun⟩ := exists_of_statement_ok (h (.start p) rfl)
  refine ⟨⟨c, _, q⟩, ⟨content, conj, rfl, hconj, ?_⟩, rfl, rfl⟩
  cases content with
  | filter statements =>
    have hconvert : convert ⟨statements⟩ p = _ := convert_of_runFrom hrequire hrun
    exact .filter (g := ⟨statements⟩) hconvert rfl
  | clause subject op object =>
    have hconvert := convert_of_runFrom hrequire (compile_single hrun)
    exact .clause (c := ⟨subject, op, object⟩) hconvert rfl
  | _ => cases congrArg Prod.fst hrun

theorem exists_parts {vs : List Value} {sq : List (Conjunction × Query String)}
    (h : List.Forall₂ (Yields p) vs sq) :
    ∃ parts, List.Forall₂ (IsPart p) vs parts ∧ parts.map Part.statement = sq ∧
      ∀ r : Resolver, r.recordAll (parts.flatMap Part.fields) =
        r.recordAll ((statementsTargets vs).map Target.field) := by
  induction h with
  | nil => exact ⟨[], .nil, rfl, fun _ => rfl⟩
  | cons hv _ ih =>
    obtain ⟨part, hpart, rfl, hfields⟩ := exists_part_of_yields hrequire hv
    obtain ⟨parts, hparts, rfl, hrecord⟩ := ih
    refine ⟨part :: parts, .cons hpart hparts, rfl, fun r => ?_⟩
    rw [List.flatMap_cons, Resolver.recordAll_append, hfields, Resolver.recordAll_eraseDups,
      hrecord, statementsTargets, List.map_append, Resolver.recordAll_append]

theorem exists_parts_of_convert_ok {f : Filter} {r : Conversion} (h : f.convert p = .ok r) :
    ∃ parts, List.Forall₂ (IsPart p) f.statements parts ∧
      List.Forall₂ (Yields p) f.statements (parts.map Part.statement) ∧
      r.query = .ofStatements (parts.map Part.statement) ∧
      r.fields = (parts.flatMap Part.fields).eraseDups := by
  obtain ⟨sq, s, hrun, hquery⟩ := exists_of_convert_ok h
  have hyields : List.Forall₂ (Yields p) f.statements sq := forall₂_yields_of_runFrom hrun
  obtain ⟨parts, hparts, rfl, hrecord⟩ := exists_parts hrequire hyields
  refine ⟨parts, hparts, hyields, hquery, ?_⟩
  rw [(convert_ok h).2.1, ← Resolver.fields_recordAll_start p, ← Resolver.fields_recordAll_start p,
    hrecord]
  rfl

theorem convert_of_contains {f g : Filter} (hg : f.Contains g) {r : Conversion}
    (h : f.convert p = .ok r) : ∃ s, g.convert p = .ok s := by
  induction hg with
  | self => exact ⟨r, h⟩
  | @nested g statements conj _ hmem ih =>
    obtain ⟨s, hs⟩ := ih
    obtain ⟨parts, hparts, -⟩ := exists_parts_of_convert_ok hrequire hs
    obtain ⟨⟨c, fields, q⟩, content, conj', hv, -, halone⟩ := exists_part_of_mem hparts hmem
    cases hv
    cases halone with
    | filter hconvert _ => exact ⟨_, hconvert⟩

end Separate

/-- A filter and every filter in it are put together from separate conversions of their statements,
and what the last statements give depends neither on those before them nor on the fields that have
been recorded. -/
theorem conversion_is_compositional (f : Filter) (p : Policy) (r : Conversion)
    (hrequire : p.require = []) (h : f.toValue.convert (.policy p) = .ok r) (g : Filter)
    (hg : f.Contains g) :
    ∃ s parts, g.toValue.convert (.policy p) = .ok s ∧
      List.Forall₂ (IsPart p) g.statements parts ∧
      s.document = .mapping [("filter", (Query.ofStatements (parts.map Part.statement)).document)] ∧
      s.fields = (parts.flatMap Part.fields).eraseDups ∧
      ∀ xs ys, g.statements = xs ++ ys → ∀ resolver : Resolver, resolver.policy = p →
        ((compileStatements ys).runFrom resolver).1 =
          .ok ((parts.map Part.statement).drop xs.length) ∧
        ∀ others result final,
          (compileStatements (others ++ ys)).runFrom resolver = (.ok result, final) →
          result.drop others.length = (parts.map Part.statement).drop xs.length := by
  obtain ⟨s, hs⟩ := convert_of_contains hrequire hg h
  obtain ⟨parts, hparts, hyields, hquery, hfields⟩ := exists_parts_of_convert_ok hrequire hs
  refine ⟨s, parts, hs, hparts, by rw [← hquery]; rfl, hfields, ?_⟩
  intro xs ys hsplit resolver hresolver
  rw [hsplit] at hyields
  constructor
  · have hback := List.forall₂_drop xs.length hyields
    rw [List.drop_left] at hback
    rw [runFrom_of_forall₂_yields hback resolver hresolver]
  · intro others result final hrun
    exact drop_eq_of_runFrom hyields hresolver hrun

/-- The last clause of a nested filter gives the same after any other statements, also when a field
has been recorded that the filter does not mention. -/
theorem conversion_is_compositional_nested :
    let last : Value := .statement
      (.clause (.int 2) (.string "lt") (.target (.string "a") [.int 0])) (.conjunction .or)
    let g : Filter := ⟨[.statement (.clause (.target (.string "b") []) (.string "eq") .null)
      (.string "and"), last]⟩
    let f : Filter := ⟨[
      .statement (.clause (.target (.string "a") []) (.string "eq") (.target (.string "b") []))
        (.conjunction .and), .statement g.toValue (.string "or")]⟩
    let p : Policy := ⟨["a", "b"], [], [], .inr rfl⟩
    let resolver : Resolver := ⟨p, ["b", "c"]⟩
    f.Contains g ∧ (∃ r, f.toValue.convert (.policy p) = .ok r ∧ r.fields = ["a", "b"]) ∧
      ∃ s fragments, g.toValue.convert (.policy p) = .ok s ∧ s.fields = ["b", "a"] ∧
        ((compileStatements [last]).runFrom resolver).1 = .ok fragments ∧
        ∀ others result final,
          (compileStatements (others ++ [last])).runFrom resolver = (.ok result, final) →
          result.drop others.length = fragments := by
  intro last g f p resolver
  have hg : f.Contains g := .nested .self (List.mem_cons_of_mem _ (List.mem_singleton.mpr rfl))
  obtain ⟨s, parts, hs, -, -, -, hframe⟩ := conversion_is_compositional f p _ rfl rfl g hg
  obtain ⟨halone, hafter⟩ := hframe g.statements.dropLast [last] rfl resolver rfl
  refine ⟨hg, ⟨_, rfl, rfl⟩, s, _, hs, ?_, halone, hafter⟩
  cases hs
  rfl

end Filter
end FilterQuery
