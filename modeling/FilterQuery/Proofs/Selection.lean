import FilterQuery.Proofs.Meaning
import FilterQuery.Proofs.Reversal
import Mathlib.Data.Int.Order.Basic
import Mathlib.Order.Lattice

/-!
# What comparisons select

A stored document has a value under a key, or it has none there. The queries of comparisons can be
read on it, once the literals of the queries are read as values of the same ordered type. A clause
with one target then selects the documents that it speaks of: those whose value stands in the
relation that the operator names to the literal, on whichever side the target is. A document without
a value is selected by the negative operators only.
-/

namespace FilterQuery

variable {α : Type*} [LinearOrder α]

namespace Comparison

def Relates : Comparison → α → α → Prop
  | eq, x, y => x = y
  | neq, x, y => x ≠ y
  | gt, x, y => x > y
  | gte, x, y => x ≥ y
  | lt, x, y => x < y
  | lte, x, y => x ≤ y

theorem relates_flip (c : Comparison) (x y : α) : c.flip.Relates x y ↔ c.Relates y x := by
  cases c with
  | eq => exact eq_comm
  | neq => exact ne_comm
  | _ => exact Iff.rfl

theorem flip_ne_neq {c : Comparison} (h : c ≠ .neq) : c.flip ≠ .neq := by
  cases c with
  | neq => exact absurd rfl h
  | _ => nofun

end Comparison

namespace Document

def Respects (x : α) (bound : String) (y : α) : Prop :=
  match bound with
  | "gt" => x > y
  | "gte" => x ≥ y
  | "lt" => x < y
  | "lte" => x ≤ y
  | _ => False

/-- Whether a document with the stored values matches a query that is no boolean combination.
Patterns and scripts are not read. -/
def Matches (stored : String → Option α) (read : Value → α) : Value → Prop
  | .mapping [("term", .mapping [(key, v)])] => ∃ x ∈ stored key, x = read v
  | .mapping [("range", .mapping [(key, .mapping bounds)])] =>
      ∃ x ∈ stored key, ∀ b ∈ bounds, Respects x b.1 (read b.2)
  | .mapping [("terms", .mapping [(key, .list values)])] =>
      ∃ x ∈ stored key, ∃ v ∈ values, x = read v
  | .mapping [("exists", .mapping [("field", .string key)])] => ∃ x, x ∈ stored key
  | _ => False

end Document

namespace Query

variable (stored : String → Option α) (read : Value → α)

def Selects (q : Query String) : Prop :=
  Document.Holds (Document.Matches stored read) q.document

theorem selects_not {q : Query String} {condition : Prop}
    (h : q.Selects stored read ↔ condition) : (not q).Selects stored read ↔ ¬ condition :=
  not_congr h

theorem selects_term (key : String) (v : Value) :
    (term key v).Selects stored read ↔ ∃ x ∈ stored key, x = read v := Iff.rfl

theorem selects_terms (key : String) (values : List Value) :
    (terms key values).Selects stored read ↔
      ∃ x ∈ stored key, ∃ v ∈ values, x = read v := Iff.rfl

theorem selects_range (key : String) (bounds : List (Bound × Value)) :
    (range key bounds).Selects stored read ↔
      ∃ x ∈ stored key, ∀ b ∈ bounds, Document.Respects x b.1.name (read b.2) := by
  refine exists_congr fun x => and_congr_right fun _ => ?_
  exact List.forall_mem_map

theorem selects_between (key : String) (lower upper : Value) :
    (range key [(.gte, lower), (.lte, upper)]).Selects stored read ↔
      ∃ x ∈ stored key, read lower ≤ x ∧ x ≤ read upper := by
  rw [selects_range]
  refine exists_congr fun x => and_congr_right fun _ => ?_
  simp [Bound.name, Document.Respects]

/-- Every comparison but `neq` asks for a value that stands in its relation to the literal. -/
theorem selects_compared (key : String) {c : Comparison} (h : c ≠ .neq) (v : Value) :
    (Fragment.compared key c v).Selects stored read ↔
      ∃ x ∈ stored key, c.Relates x (read v) := by
  cases c with
  | eq => exact selects_term stored read key v
  | neq => exact absurd rfl h
  | _ =>
    rw [Fragment.compared, selects_range]
    refine exists_congr fun x => and_congr_right fun _ => ?_
    simp [Bound.name, Document.Respects, Comparison.Relates]

end Query

namespace Clause

variable (stored : String → Option α) (read : Value → α)

/-- The clause compiles, and a document with the stored values is selected by its fragment exactly
when the condition holds. -/
def SelectsWhen (r : Resolver) (c : Clause) (condition : Prop) : Prop :=
  ∃ q r', c.compile.runFrom r = (.ok q, r') ∧ (q.Selects stored read ↔ condition)

/-- The comparison of a target with an operand, with the target on either side. -/
def eitherWay (t : Target) (op v : Value) : List Clause :=
  [⟨t.toValue, op, v⟩, ⟨v, op, t.toValue⟩]

section Resolved

variable {r : Resolver} {t : Target} {key : String} (hkey : (r.resolve t).1 = .ok key)
include hkey

/-- Once the target is resolved and the operand fits, the query of the key is the fragment. -/
theorem runFrom_compileTargeted {o : Operator} {v : Value} {q : Query String}
    (fits : Operand.Fits o v) (hq : Fragment.Gives key o v q) :
    (compileTargeted t o v).runFrom r = (.ok q, (r.resolve t).2) := by
  have hresolve : r.resolve t = (.ok key, (r.resolve t).2) := Prod.ext hkey rfl
  rw [compileTargeted, Operand.check_of_fits fits]
  simp only [Resolving.runFrom_bind, Resolving.runFrom_ofExcept, Resolving.runFrom_resolve]
  rw [hresolve]
  simp only [hq.ofTargeted_eq]

variable {o : Operator} {op v : Value} {q : Query String} {condition : Prop}

theorem selectsWhen_subject (hv : v.target? = none) (hop : op.IsOperator o)
    (fits : Operand.Fits o v) (hq : Fragment.Gives key o v q)
    (hselects : q.Selects stored read ↔ condition) :
    SelectsWhen stored read r ⟨t.toValue, op, v⟩ condition := by
  refine ⟨q, (r.resolve t).2, ?_, hselects⟩
  rw [compile_subject t op hv, readOperator_of_isOperator hop]
  exact runFrom_compileTargeted hkey fits hq

theorem selectsWhen_object (hv : v.target? = none) (hop : op.IsOperator o)
    (fits : Operand.Fits o v) (hq : Fragment.Gives key o.inverse v q)
    (hselects : q.Selects stored read ↔ condition) :
    SelectsWhen stored read r ⟨v, op, t.toValue⟩ condition := by
  refine ⟨q, (r.resolve t).2, ?_, hselects⟩
  rw [compile_object t op hv, readOperator_of_isOperator hop]
  exact runFrom_compileTargeted hkey ((Operand.fits_inverse o v).mpr fits) hq

theorem selectsWhen_eitherWay (hv : v.target? = none) (hop : op.IsOperator o)
    (hinverse : o.inverse = o) (fits : Operand.Fits o v) (hq : Fragment.Gives key o v q)
    (hselects : q.Selects stored read ↔ condition) :
    ∀ c ∈ eitherWay t op v, SelectsWhen stored read r c condition := by
  simp only [eitherWay, List.forall_mem_cons]
  refine ⟨selectsWhen_subject stored read hkey hv hop fits hq hselects,
    selectsWhen_object stored read hkey hv hop fits (hinverse.symm ▸ hq) hselects, by simp⟩

end Resolved

/-- A clause with one target selects the stored values that stand in its relation to the literal, on
whichever side the target is; the negative operators select what the positive ones do not. -/
theorem one_target_clause_selects_related_values (r : Resolver) (t : Target) (key : String)
    (hkey : (r.resolve t).1 = .ok key) :
    (∀ (c : Comparison) (op v : Value), c ≠ .neq → op.IsOperator (.compare c) →
      v.target? = none → v ≠ .null →
      SelectsWhen stored read r ⟨t.toValue, op, v⟩ (∃ x ∈ stored key, c.Relates x (read v)) ∧
      SelectsWhen stored read r ⟨v, op, t.toValue⟩ (∃ x ∈ stored key, c.Relates (read v) x)) ∧
    (∀ op v : Value, op.IsOperator (.compare .neq) → v.target? = none → v ≠ .null →
      ∀ c ∈ eitherWay t op v,
        SelectsWhen stored read r c (¬ ∃ x ∈ stored key, x = read v)) ∧
    (∀ op lower upper : Value, op.IsOperator .between →
      ∀ c ∈ eitherWay t op (.range lower upper),
        SelectsWhen stored read r c (∃ x ∈ stored key, read lower ≤ x ∧ x ≤ read upper)) ∧
    (∀ op lower upper : Value, op.IsOperator .outside →
      ∀ c ∈ eitherWay t op (.range lower upper),
        SelectsWhen stored read r c (¬ ∃ x ∈ stored key, read lower ≤ x ∧ x ≤ read upper)) ∧
    (∀ (op v : Value) (items : List Value), op.IsOperator .among →
      v = .list items ∨ v = .tuple items → ∀ c ∈ eitherWay t op v,
        SelectsWhen stored read r c (∃ x ∈ stored key, ∃ w ∈ items, x = read w)) ∧
    (∀ (op v : Value) (items : List Value), op.IsOperator .notAmong →
      v = .list items ∨ v = .tuple items → ∀ c ∈ eitherWay t op v,
        SelectsWhen stored read r c (¬ ∃ x ∈ stored key, ∃ w ∈ items, x = read w)) := by
  refine ⟨?_, ?_, ?_, ?_, ?_, ?_⟩
  · intro c op v hc hop hv hnull
    constructor
    · exact selectsWhen_subject stored read hkey hv hop trivial (.compare c hnull)
        (Query.selects_compared stored read key hc v)
    · have hgives : Fragment.Gives key (Operator.compare c).inverse v
          (Fragment.compared key c.flip v) := by
        rw [Operator.inverse_compare]
        exact .compare c.flip hnull
      refine selectsWhen_object stored read hkey hv hop trivial hgives ?_
      rw [Query.selects_compared stored read key (Comparison.flip_ne_neq hc) v]
      simp only [Comparison.relates_flip]
  · intro op v hop hv hnull
    exact selectsWhen_eitherWay stored read hkey hv hop rfl trivial (.compare .neq hnull)
      (Query.selects_not stored read (Query.selects_term stored read key v))
  · intro op lower upper hop
    exact selectsWhen_eitherWay stored read hkey rfl hop rfl ⟨lower, upper, rfl⟩
      (.between lower upper) (Query.selects_between stored read key lower upper)
  · intro op lower upper hop
    exact selectsWhen_eitherWay stored read hkey rfl hop rfl ⟨lower, upper, rfl⟩
      (.outside lower upper)
      (Query.selects_not stored read (Query.selects_between stored read key lower upper))
  · rintro op v items hop (rfl | rfl)
    all_goals
      exact selectsWhen_eitherWay stored read hkey rfl hop rfl ⟨items, by simp⟩ (.among rfl)
        (Query.selects_terms stored read key items)
  · rintro op v items hop (rfl | rfl)
    all_goals
      exact selectsWhen_eitherWay stored read hkey rfl hop rfl ⟨items, by simp⟩ (.notAmong rfl)
        (Query.selects_not stored read (Query.selects_terms stored read key items))

/-- A document with the value 5 under the key is selected by `7 gt` the target, and one without a
value by `nin`. -/
theorem one_target_clause_selects_related_values_integer :
    let stored (key : String) : Option ℤ := if key = "a.0" then some 5 else none
    let read : Value → ℤ := fun | .int n => n | _ => 0
    let r : Resolver := .start .unrestricted
    let t : Target := ⟨.string "a", [.int 0]⟩
    (r.resolve t).1 = .ok "a.0" ∧
      (∃ q r', (compile ⟨.int 7, .string "gt", t.toValue⟩).runFrom r = (.ok q, r') ∧
        q.Selects stored read) ∧
      ∃ q r', (compile ⟨t.toValue, .operator .notAmong, .tuple [.int 5]⟩).runFrom r = (.ok q, r') ∧
        q.Selects (fun _ => none) read := by
  have hkey : ((Resolver.start .unrestricted).resolve ⟨.string "a", [.int 0]⟩).1 =
      .ok "a.0" := rfl
  intro stored read r t
  obtain ⟨hcompare, -⟩ := one_target_clause_selects_related_values stored read r t _ hkey
  obtain ⟨-, -, -, -, -, hnotAmong⟩ :=
    one_target_clause_selects_related_values (fun _ => none) read r t _ hkey
  obtain ⟨q, s, hrun, hiff⟩ :=
    (hcompare .gt (.string "gt") (.int 7) (by decide) (.inr rfl) rfl nofun).2
  obtain ⟨q', s', hrun', hiff'⟩ := hnotAmong (.operator .notAmong) (.tuple [.int 5]) [.int 5]
    (.inl rfl) (.inr rfl) ⟨t.toValue, .operator .notAmong, .tuple [.int 5]⟩ (List.mem_cons_self ..)
  refine ⟨hkey, ⟨q, s, hrun, hiff.mpr ⟨5, rfl, ?_⟩⟩, q', s', hrun', hiff'.mpr ?_⟩
  · change (7 : ℤ) > 5
    decide
  · rintro ⟨x, hx, -⟩
    cases hx

end Clause
end FilterQuery
