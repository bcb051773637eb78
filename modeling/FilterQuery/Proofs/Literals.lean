import FilterQuery.Proofs.Documents
import FilterQuery.Proofs.Walk

/-!
# Literals are data

The scalars of a filter are the texts, numbers and truth values among its operands, in its lists and
tuples and at the ends of its ranges. No step of a conversion looks at them: when they are exchanged
for others, the same checks fail, the same fields are reported and the document is the same but for
the exchange. Compiling is a computation in a monad, so at every node of the tree this is one
equation: to exchange the scalars and compile is to compile and exchange them in the result.
-/

namespace FilterQuery

/-- A literal without parts. -/
inductive Scalar where
  | bool (b : Bool)
  | int (n : Int)
  | float (text : String)
  | string (s : String)
  deriving DecidableEq, Repr

def Scalar.toValue : Scalar → Value
  | bool b => .bool b
  | int n => .int n
  | float text => .float text
  | string s => .string s

namespace Value

def mapScalar (g : Scalar → Scalar) : Value → Value
  | bool b => (g (.bool b)).toValue
  | int n => (g (.int n)).toValue
  | float text => (g (.float text)).toValue
  | string s => (g (.string s)).toValue
  | v => v

/-- Exchanges the scalars of an operand: the operand itself, the members of a list or a tuple, or
the bounds of a range. -/
def mapOperand (g : Scalar → Scalar) : Value → Value
  | list items => .list (items.map (mapScalar g))
  | tuple items => .tuple (items.map (mapScalar g))
  | range lower upper => .range (lower.mapScalar g) (upper.mapScalar g)
  | v => v.mapScalar g

end Value

/-- Exchanges the scalars of bounds. A single bound is the operand of a comparison; two bounds are
those of a range. -/
def mapBounds {β : Type} (g : Scalar → Scalar) : List (β × Value) → List (β × Value)
  | [(bound, v)] => [(bound, v.mapOperand g)]
  | bounds => bounds.map fun b => (b.1, b.2.mapScalar g)

namespace Filter

mutual

def mapContent (g : Scalar → Scalar) : Value → Value
  | .filter statements => .filter (mapStatements g statements)
  | .clause subject op object => .clause (subject.mapOperand g) op (object.mapOperand g)
  | v => v
termination_by structural v => v

def mapStatement (g : Scalar → Scalar) : Value → Value
  | .statement content conj => .statement (mapContent g content) conj
  | v => v
termination_by structural v => v

def mapStatements (g : Scalar → Scalar) : List Value → List Value
  | [] => []
  | v :: vs => mapStatement g v :: mapStatements g vs
termination_by structural vs => vs

end

/-- Exchanges the scalars among the operands of all clauses. -/
def mapLiterals (g : Scalar → Scalar) (f : Filter) : Filter :=
  ⟨mapStatements g f.statements⟩

end Filter

namespace Query

variable {κ : Type}

mutual

def mapLiterals (g : Scalar → Scalar) : Query κ → Query κ
  | term key v => term key (v.mapOperand g)
  | range key bounds => range key (mapBounds g bounds)
  | terms key values => terms key (values.map (Value.mapScalar g))
  | compareLiterals subject c object =>
      compareLiterals (subject.mapOperand g) c (object.mapOperand g)
  | not query => not (query.mapLiterals g)
  | all queries => all (mapLiteralsOf g queries)
  | any queries => any (mapLiteralsOf g queries)
  | query => query
termination_by structural query => query

def mapLiteralsOf (g : Scalar → Scalar) : List (Query κ) → List (Query κ)
  | [] => []
  | q :: qs => q.mapLiterals g :: mapLiteralsOf g qs
termination_by structural qs => qs

end

end Query

namespace Document

mutual

/-- Exchanges the scalars where a document has values: in terms and ranges, among several terms and
in the parameters of a script. Names, keys and script sources stay. -/
def mapLiterals (g : Scalar → Scalar) : Value → Value
  | .mapping [("filter", document)] => .mapping [("filter", mapLiterals g document)]
  | .mapping [("bool", .mapping [("must", .list documents)])] =>
      .mapping [("bool", .mapping [("must", .list (mapLiteralsOf g documents))])]
  | .mapping [("bool", .mapping [("should", .list documents)])] =>
      .mapping [("bool", .mapping [("should", .list (mapLiteralsOf g documents))])]
  | .mapping [("bool", .mapping [("must_not", document)])] =>
      .mapping [("bool", .mapping [("must_not", mapLiterals g document)])]
  | .mapping [("term", .mapping [(key, v)])] =>
      .mapping [("term", .mapping [(key, v.mapOperand g)])]
  | .mapping [("range", .mapping [(key, .mapping bounds)])] =>
      .mapping [("range", .mapping [(key, .mapping (mapBounds g bounds))])]
  | .mapping [("terms", .mapping [(key, .list values)])] =>
      .mapping [("terms", .mapping [(key, .list (values.map (Value.mapScalar g)))])]
  | .mapping [("script", .mapping [("script", .mapping [source, ("params", .mapping params)])])] =>
      .mapping [("script", .mapping [("script", .mapping [source,
        ("params", .mapping (params.map fun param => (param.1, param.2.mapOperand g)))])])]
  | document => document
termination_by structural document => document

def mapLiteralsOf (g : Scalar → Scalar) : List Value → List Value
  | [] => []
  | document :: documents => mapLiterals g document :: mapLiteralsOf g documents
termination_by structural documents => documents

end

end Document

variable (g : Scalar → Scalar)

namespace Scalar

@[simp] theorem target?_toValue (s : Scalar) : s.toValue.target? = none := by
  cases s <;> rfl

@[simp] theorem bounds?_toValue (s : Scalar) : s.toValue.bounds? = none := by
  cases s <;> rfl

@[simp] theorem members?_toValue (s : Scalar) : s.toValue.members? = none := by
  cases s <;> rfl

@[simp] theorem isPattern_toValue (s : Scalar) : s.toValue.isPattern = false := by
  cases s <;> rfl

theorem toValue_ne_null (s : Scalar) : s.toValue ≠ .null := by
  cases s <;> nofun

end Scalar

namespace Value

@[simp] theorem target?_mapOperand (v : Value) : (v.mapOperand g).target? = v.target? := by
  cases v with
  | bool _ | int _ | float _ | string _ => exact Scalar.target?_toValue _
  | _ => rfl

theorem bounds?_mapOperand (v : Value) :
    (v.mapOperand g).bounds? = v.bounds?.map (Prod.map (mapScalar g) (mapScalar g)) := by
  cases v with
  | bool _ | int _ | float _ | string _ => exact Scalar.bounds?_toValue _
  | _ => rfl

theorem members?_mapOperand (v : Value) :
    (v.mapOperand g).members? = v.members?.map (List.map (mapScalar g)) := by
  cases v with
  | bool _ | int _ | float _ | string _ => exact Scalar.members?_toValue _
  | _ => rfl

theorem isPattern_mapOperand (v : Value) : (v.mapOperand g).isPattern = v.isPattern := by
  cases v with
  | bool _ | int _ | float _ | string _ => exact Scalar.isPattern_toValue _
  | _ => rfl

theorem mapOperand_ne_null {v : Value} (h : v ≠ .null) : v.mapOperand g ≠ .null := by
  cases v with
  | null => exact absurd rfl h
  | bool _ | int _ | float _ | string _ => exact Scalar.toValue_ne_null _
  | _ => nofun

end Value

theorem Operand.check_mapOperand (op : Operator) (v : Value) :
    check op (v.mapOperand g) = check op v := by
  simp only [check, checkRange, checkPattern, checkMembers, Value.bounds?_mapOperand,
    Value.members?_mapOperand, Value.isPattern_mapOperand, Option.isSome_map]

namespace Fragment

variable {κ : Type} {key : κ} {op : Operator} {v : Value} {q : Query κ}

theorem Gives.mapLiterals (h : Gives key op v q) :
    Gives key op (v.mapOperand g) (q.mapLiterals g) := by
  cases h with
  | null c => cases c <;> exact .null _
  | compare c hnull => cases c <;> exact .compare _ (Value.mapOperand_ne_null g hnull)
  | between lower upper => exact .between _ _
  | outside lower upper => exact .outside _ _
  | like hname => exact .like hname
  | unlike hname => exact .unlike hname
  | among hitems =>
    refine .among ?_
    rw [Value.members?_mapOperand, hitems, Option.map_some]
  | notAmong hitems =>
    refine .notAmong ?_
    rw [Value.members?_mapOperand, hitems, Option.map_some]

theorem ofTargeted_mapOperand (key : κ) (fits : Operand.Fits op v) :
    ofTargeted key op (v.mapOperand g) = Query.mapLiterals g <$> ofTargeted key op v := by
  obtain ⟨q, hq⟩ := exists_gives key fits
  rw [hq.ofTargeted_eq, (hq.mapLiterals g).ofTargeted_eq]
  rfl

theorem ofFields_mapLiterals (subject : κ) (op : Operator) (object : κ) :
    Query.mapLiterals g <$> ofFields subject op object = ofFields subject op object := by
  cases op <;> rfl

theorem ofLiterals_mapOperand (op : Operator) (v w : Value) :
    ofLiterals op (v.mapOperand g) (w.mapOperand g) =
      (Query.mapLiterals g <$> ofLiterals op v w : Except Fault (Query κ)) := by
  cases op <;> rfl

end Fragment

namespace Resolving

variable {α β : Type}

theorem ofExcept_map (φ : α → β) (result : Except Fault α) :
    ofExcept (φ <$> result) = φ <$> ofExcept result := by
  cases result <;> rfl

theorem runFrom_map (φ : α → β) (m : Resolving α) (r : Resolver) :
    (φ <$> m).runFrom r = ((m.runFrom r).1.map φ, (m.runFrom r).2) := by
  rw [← bind_pure_comp, runFrom_bind]
  generalize m.runFrom r = run
  obtain ⟨result, r'⟩ := run
  cases result <;> rfl

end Resolving

namespace Clause

def mapLiterals (c : Clause) : Clause :=
  ⟨c.subject.mapOperand g, c.operator, c.object.mapOperand g⟩

theorem compileTargeted_mapOperand (t : Target) (op : Operator) (v : Value) :
    compileTargeted t op (v.mapOperand g) = Query.mapLiterals g <$> compileTargeted t op v := by
  rw [compileTargeted, compileTargeted, Operand.check_mapOperand]
  by_cases fits : Operand.Fits op v
  · simp only [Fragment.ofTargeted_mapOperand g _ fits, Resolving.ofExcept_map, map_bind]
  · rw [Operand.check_of_not_fits fits]
    rfl

theorem compile_mapLiterals (c : Clause) :
    (c.mapLiterals g).compile = Query.mapLiterals g <$> c.compile := by
  obtain ⟨v, op, w⟩ := c
  -- a target has no scalars, so only the literals on the other side are exchanged
  cases hv : v.target? with
  | some s =>
    obtain rfl := Value.target?_eq_some_iff.mp hv
    cases hw : w.target? with
    | some o =>
      obtain rfl := Value.target?_eq_some_iff.mp hw
      change compile ⟨s.toValue, op, o.toValue⟩ = _
      simp only [compile, Value.target?_toValue, map_bind, ← Resolving.ofExcept_map,
        Fragment.ofFields_mapLiterals]
    | none =>
      change compile ⟨s.toValue, op, w.mapOperand g⟩ = _
      rw [compile_subject s op hw, compile_subject s op ((w.target?_mapOperand g).trans hw)]
      simp only [map_bind, compileTargeted_mapOperand]
  | none =>
    have hmapped := (v.target?_mapOperand g).trans hv
    cases hw : w.target? with
    | some o =>
      obtain rfl := Value.target?_eq_some_iff.mp hw
      change compile ⟨v.mapOperand g, op, o.toValue⟩ = _
      rw [compile_object o op hv, compile_object o op hmapped]
      simp only [map_bind, compileTargeted_mapOperand]
    | none =>
      simp only [compile, mapLiterals, hmapped, hv, hw, Value.target?_mapOperand, map_bind,
        ← Resolving.ofExcept_map, Fragment.ofLiterals_mapOperand]

end Clause

namespace Query

variable {κ : Type}

theorem mapLiteralsOf_eq_map (qs : List (Query κ)) :
    mapLiteralsOf g qs = qs.map (mapLiterals g) := by
  induction qs with
  | nil => rfl
  | cons q qs ih => rw [mapLiteralsOf, ih, List.map_cons]

theorem mapLiterals_all (qs : List (Query κ)) :
    (all qs).mapLiterals g = all (qs.map (mapLiterals g)) := by
  rw [mapLiterals, mapLiteralsOf_eq_map]

theorem mapLiterals_ofRuns (runs : List (List (Query κ))) :
    (ofRuns runs).mapLiterals g = ofRuns (runs.map (List.map (mapLiterals g))) := by
  match runs with
  | [] => rfl
  | [run] => exact mapLiterals_all g run
  | first :: second :: runs =>
    have hall : mapLiterals g ∘ all = all ∘ List.map (mapLiterals (κ := κ) g) :=
      funext (mapLiterals_all g)
    simp only [ofRuns, mapLiterals, mapLiteralsOf_eq_map, List.map_map, hall, List.map_cons]

/-- Statements are cut where they are by their conjunctions, whatever their queries are. -/
theorem mapLiterals_ofStatements (statements : List (Conjunction × Query κ)) :
    (ofStatements statements).mapLiterals g =
      ofStatements (statements.map (Prod.map id (mapLiterals g))) := by
  have hcut := isCut_splitBy statements
  have hmapped : ofStatements (statements.map (Prod.map id (mapLiterals g))) = _ :=
    (hcut.map (mapLiterals g)).ofStatements_eq
  rw [hcut.ofStatements_eq, mapLiterals_ofRuns, hmapped]
  simp only [List.map_map, Function.comp_def]

end Query

namespace Filter

mutual

theorem compileContent_mapContent (v : Value) :
    compileContent (mapContent g v) = Query.mapLiterals g <$> compileContent v := by
  cases v with
  | filter statements =>
    rw [mapContent, compileContent, compileContent, compileStatements_mapStatements statements]
    simp [Query.mapLiterals_ofStatements]
  | clause subject op object => exact Clause.compile_mapLiterals g ⟨subject, op, object⟩
  | _ => rfl
termination_by structural v

theorem compileStatement_mapStatement (v : Value) :
    compileStatement (mapStatement g v) =
      Prod.map id (Query.mapLiterals g) <$> compileStatement v := by
  cases v with
  | statement content conj =>
    rw [mapStatement, compileStatement, compileStatement, compileContent_mapContent content]
    simp
  | _ => rfl
termination_by structural v

theorem compileStatements_mapStatements (vs : List Value) :
    compileStatements (mapStatements g vs) =
      List.map (Prod.map id (Query.mapLiterals g)) <$> compileStatements vs := by
  cases vs with
  | nil => rfl
  | cons v vs =>
    rw [mapStatements, compileStatements, compileStatements, compileStatement_mapStatement v,
      compileStatements_mapStatements vs]
    simp
termination_by structural vs

end

theorem compile_mapLiterals (f : Filter) :
    (f.mapLiterals g).compile = Query.mapLiterals g <$> f.compile :=
  compileContent_mapContent g f.toValue

theorem convert_mapLiterals (f : Filter) (p : Policy) :
    (f.mapLiterals g).convert p =
      (f.convert p).map fun r => ⟨r.fields, r.query.mapLiterals g⟩ := by
  unfold convert
  rw [compile_mapLiterals, Resolving.runFrom_map]
  generalize f.compile.runFrom (.start p) = run
  obtain ⟨result, r⟩ := run
  cases result with
  | error fault => rfl
  | ok q =>
    dsimp only [Except.map]
    cases missingField? r <;> rfl

end Filter

namespace Query

theorem mapBounds_names (bounds : List (Bound × Value)) :
    ((mapBounds g bounds).map fun b => (b.1.name, b.2)) =
      mapBounds g (bounds.map fun b => (b.1.name, b.2)) := by
  match bounds with
  | [] => rfl
  | [b] => rfl
  | b :: b' :: bounds => simp [mapBounds]

mutual

theorem document_mapLiterals (q : Query String) :
    (q.mapLiterals g).document = Document.mapLiterals g q.document := by
  cases q with
  | range key bounds =>
    rw [mapLiterals, document_range, document_range, mapBounds_names]
    rfl
  | not inner =>
    rw [mapLiterals, document_not, document_not, document_mapLiterals inner]
    rfl
  | all inner =>
    rw [mapLiterals, document_all, document_all, documents_mapLiterals inner]
    rfl
  | any inner =>
    rw [mapLiterals, document_any, document_any, documents_mapLiterals inner]
    rfl
  | _ => rfl
termination_by structural q

theorem documents_mapLiterals (qs : List (Query String)) :
    (mapLiteralsOf g qs).map document = Document.mapLiteralsOf g (qs.map document) := by
  cases qs with
  | nil => rfl
  | cons q qs =>
    rw [mapLiteralsOf, List.map_cons, document_mapLiterals q, documents_mapLiterals qs]
    rfl
termination_by structural qs

end

end Query

namespace Filter

/-- Whatever its scalars are exchanged for, a filter is refused with the same fault, or it converts
with the same fields to the same document but for the exchange. -/
theorem literals_steer_nothing (f : Filter) (policy : Value) :
    ((f.mapLiterals g).toValue.convert policy).map (fun r => (r.fields, r.document)) =
      (f.toValue.convert policy).map fun r =>
        (r.fields, Document.mapLiterals g r.document) := by
  have hconvert (p : Policy) :
      ((f.mapLiterals g).convert p).map (fun r => (r.fields, r.document)) =
        (f.convert p).map fun r => (r.fields, Document.mapLiterals g r.document) := by
    rw [convert_mapLiterals]
    cases f.convert p with
    | error fault => rfl
    | ok r =>
      change Except.ok (r.fields, Document.single "filter" (r.query.mapLiterals g).document) = _
      rw [Query.document_mapLiterals]
      rfl
  cases policy with
  | null => exact hconvert .unrestricted
  | policy p => exact hconvert p
  | _ => rfl

/-- Null and what stands deeper than the members of a list are no scalars of the filter. -/
example :
    let g : Scalar → Scalar := fun _ => .bool false
    let f : Filter := ⟨[
      .statement (.clause (.target (.string "a") []) (.string "in")
        (.list [.int 1, .null, .list [.int 2]])) (.conjunction .and),
      .statement (.clause (.string "b") (.string "lt") (.target (.string "c") []))
        (.conjunction .and)]⟩
    (f.toValue.convert .null).map (fun r => Document.mapLiterals g r.document) =
      .ok (.mapping [("filter", Document.conjunction [
        .mapping [("terms", .mapping [("a", .list [.bool false, .null, .list [.int 2]])])],
        .mapping [("range", .mapping [("c", .mapping [("gt", .bool false)])])]])]) :=
  rfl

end Filter
end FilterQuery
