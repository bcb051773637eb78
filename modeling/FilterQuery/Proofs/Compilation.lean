import FilterQuery.Proofs.Verdict

/-!
# Successful compilations

What holds of the queries of all clauses and is kept when statements are combined holds of the query
of every filter that compiles. A clause compiles to the same fragment wherever it stands: it is the
fragment of the clause compiled on its own.
-/

namespace FilterQuery

theorem Resolving.exists_of_bind_ok {α β : Type} {m : Resolving α} {next : α → Resolving β}
    {r r' : Resolver} {b : β} (h : (m >>= next).runFrom r = (.ok b, r')) :
    ∃ a s, m.runFrom r = (.ok a, s) ∧ (next a).runFrom s = (.ok b, r') := by
  rw [runFrom_bind] at h
  generalize m.runFrom r = run at h
  obtain ⟨result, s⟩ := run
  cases result with
  | ok a => exact ⟨a, s, rfl, h⟩
  | error fault => cases congrArg Prod.fst h

namespace Clause

/-- The fragment of the clause on its own, under no policy. -/
def fragment (c : Clause) : Except Fault (Query String) :=
  (c.compile.runFrom (.start .unrestricted)).1

theorem fragment_of_runFrom {c : Clause} {r r' : Resolver} {q : Query String}
    (h : c.compile.runFrom r = (.ok q, r')) : c.fragment = .ok q := by
  obtain ⟨q', hq⟩ := c.performs_compile
  obtain ⟨hpass, rfl, -⟩ := hq.of_runFrom_ok h
  have hfree := hq.ok (.start .unrestricted) fun d hd => (hpass d hd).unrestricted
  exact congrArg Prod.fst hfree

theorem checks_pass_of_fragment {c : Clause} {q : Query String} (h : c.fragment = .ok q) :
    ∀ d ∈ c.checks, d.Passes .unrestricted := by
  obtain ⟨q', hq⟩ := c.performs_compile
  have hrun : c.compile.runFrom (.start .unrestricted) = (.ok q, _) := Prod.ext h rfl
  exact (hq.of_runFrom_ok hrun).1

theorem exists_compiles_of_checks_pass {c : Clause} {p : Policy}
    (hpass : ∀ d ∈ c.checks, d.Passes p) : ∃ q, c.Compiles q := by
  obtain ⟨subject, op, object⟩ := c
  unfold checks at hpass
  cases hs : subject.target? with
  | some s =>
    obtain rfl := Value.target?_eq_some_iff.mp hs
    cases ho : object.target? with
    | some o =>
      obtain rfl := Value.target?_eq_some_iff.mp ho
      obtain ⟨-, c, hc⟩ := hpass (.isComparison op) (by simp)
      have hsubject : s.Resolvable := hpass (.legal s) (by simp)
      have hobject : o.Resolvable := hpass (.legal o) (by simp)
      exact ⟨_, .fields hc hsubject hobject⟩
    | none =>
      simp only [hs, ho, targetedChecks] at hpass
      obtain ⟨-, o, hop⟩ := hpass (.isOperator op) (by simp)
      have fits : Operand.Fits o object := (hpass (.operandFits op object) (by simp)).2 o hop
      have hsubject : s.Resolvable := hpass (.legal s) (by simp)
      obtain ⟨q, hq⟩ := Fragment.exists_ofTargeted s.key fits
      exact ⟨q, .subject ho hop fits hsubject hq⟩
  | none =>
    cases ho : object.target? with
    | some t =>
      obtain rfl := Value.target?_eq_some_iff.mp ho
      simp only [hs, ho, targetedChecks] at hpass
      obtain ⟨-, o, hop⟩ := hpass (.isOperator op) (by simp)
      have fits : Operand.Fits o subject := (hpass (.operandFits op subject) (by simp)).2 o hop
      have hobject : t.Resolvable := hpass (.legal t) (by simp)
      obtain ⟨q, hq⟩ := Fragment.exists_ofTargeted t.key ((Operand.fits_inverse o _).mpr fits)
      exact ⟨q, .object hs hop fits hobject hq⟩
    | none =>
      simp only [hs, ho] at hpass
      obtain ⟨-, c, hc⟩ := hpass (.isComparison op) (by simp)
      exact ⟨_, .literals hs ho hc⟩

theorem Compiles.checks_pass {c : Clause} {q : Query String} (h : c.Compiles q) :
    ∀ d ∈ c.checks, d.Passes .unrestricted := by
  have admitted {t : Target} (h : t.Resolvable) : (Check.admitted t).Passes .unrestricted :=
    Check.passes_admitted (Target.isWritable_head h.1)
  have fitting {op v : Value} {o : Operator} (hop : op.IsOperator o) (fits : Operand.Fits o v) :
      (Check.operandFits op v).Passes .unrestricted :=
    ⟨rfl, fun o' ho' => hop.unique ho' ▸ fits⟩
  cases h with
  | fields hop hs ho =>
    simp only [checks, Value.target?_toValue, List.forall_mem_cons]
    exact ⟨admitted hs, hs, admitted ho, ho, ⟨hop.isWritable, _, hop⟩, ⟨rfl, _, hop⟩, by simp⟩
  | literals hv hw hop =>
    simp only [checks, hv, hw, List.forall_mem_cons]
    exact ⟨⟨hop.isWritable, _, hop⟩, ⟨rfl, _, hop⟩, by simp⟩
  | @subject t v op o q hv hop fits ht hq =>
    simp only [checks, targetedChecks, hv, Value.target?_toValue, List.forall_mem_cons]
    exact ⟨⟨hop.isWritable, _, hop⟩, fitting hop fits, admitted ht, ht, by simp⟩
  | @object t v op o q hv hop fits ht hq =>
    simp only [checks, targetedChecks, hv, Value.target?_toValue, List.forall_mem_cons]
    exact ⟨⟨hop.isWritable, _, hop⟩, fitting hop fits, admitted ht, ht, by simp⟩

theorem compiles_of_fragment {c : Clause} {q : Query String} (h : c.fragment = .ok q) :
    c.Compiles q := by
  have hpass := checks_pass_of_fragment h
  obtain ⟨q', hq'⟩ := exists_compiles_of_checks_pass hpass
  have hrun := congrArg Prod.fst (hq'.performs.ok (.start .unrestricted) hpass)
  obtain rfl : q' = q := Except.ok.inj (hrun.symm.trans h)
  exact hq'

end Clause

namespace Filter

theorem exists_of_statement_ok {v : Value} {r r' : Resolver} {cq : Conjunction × Query String}
    (h : (compileStatement v).runFrom r = (.ok cq, r')) :
    ∃ content conj, v = .statement content conj ∧ conj.IsConjunction cq.1 ∧
      (compileContent content).runFrom r = (.ok cq.2, r') := by
  cases v with
  | statement content conj =>
    obtain ⟨c, s, hread, hrest⟩ := Resolving.exists_of_bind_ok h
    obtain ⟨q, s', hcontent, hpure⟩ := Resolving.exists_of_bind_ok hrest
    cases hpure
    cases hconj : conj.conjunction? with
    | none =>
      rw [readConjunction, hconj] at hread
      cases congrArg Prod.fst hread
    | some d =>
      rw [readConjunction, hconj] at hread
      cases hread
      exact ⟨content, conj, rfl, Value.conjunction?_eq_some_iff.mp hconj, hcontent⟩
  | _ => cases congrArg Prod.fst h

/-- A relation of contents to queries, and one of statements to their queries, that follow the way
in which queries are put together. -/
structure Compositional (C : Value → Query String → Prop)
    (S : List Value → List (Conjunction × Query String) → Prop) : Prop where
  clause : ∀ (c : Clause) q, c.fragment = .ok q → C c.toValue q
  filter : ∀ vs sq, S vs sq → C (.filter vs) (.ofStatements sq)
  nil : S [] []
  cons : ∀ content conj c q vs sq, conj.IsConjunction c → C content q → S vs sq →
    S (.statement content conj :: vs) ((c, q) :: sq)

namespace Compositional

variable {C : Value → Query String → Prop}
  {S : List Value → List (Conjunction × Query String) → Prop}

-- The induction is on the tree; the resolver is another one at every node, so it stays general.
mutual

theorem content (rules : Compositional C S) (v : Value) {r r' : Resolver} {q : Query String}
    (h : (compileContent v).runFrom r = (.ok q, r')) : C v q := by
  cases v with
  | filter statements =>
    obtain ⟨sq, s, hstatements, hpure⟩ := Resolving.exists_of_bind_ok h
    cases hpure
    exact rules.filter _ _ (rules.statements statements hstatements)
  | clause subject op object =>
    exact rules.clause ⟨subject, op, object⟩ q (Clause.fragment_of_runFrom h)
  | _ => cases congrArg Prod.fst h
termination_by structural v

theorem statement (rules : Compositional C S) (v : Value) {r r' : Resolver}
    {cq : Conjunction × Query String} (h : (compileStatement v).runFrom r = (.ok cq, r')) :
    ∃ content conj, v = .statement content conj ∧ conj.IsConjunction cq.1 ∧ C content cq.2 := by
  cases v with
  | statement inner conj =>
    obtain ⟨_, _, ⟨⟩, hconj, hinner⟩ := exists_of_statement_ok h
    exact ⟨inner, conj, rfl, hconj, rules.content inner hinner⟩
  | _ => cases congrArg Prod.fst h
termination_by structural v

theorem statements (rules : Compositional C S) (vs : List Value) {r r' : Resolver}
    {sq : List (Conjunction × Query String)}
    (h : (compileStatements vs).runFrom r = (.ok sq, r')) : S vs sq := by
  cases vs with
  | nil =>
    cases h
    exact rules.nil
  | cons v vs =>
    obtain ⟨cq, s, hfirst, hrest⟩ := Resolving.exists_of_bind_ok h
    obtain ⟨rest, s', htail, hpure⟩ := Resolving.exists_of_bind_ok hrest
    cases hpure
    obtain ⟨content, conj, rfl, hconj, hcontent⟩ := rules.statement v hfirst
    exact rules.cons _ _ _ _ _ _ hconj hcontent (rules.statements vs htail)
termination_by structural vs

end

end Compositional

theorem exists_policy_of_convert_ok {f : Filter} {policy : Value} {r : Conversion}
    (h : f.toValue.convert policy = .ok r) : ∃ p, f.convert p = .ok r := by
  cases policy with
  | null => exact ⟨_, h⟩
  | policy p => exact ⟨p, h⟩
  | _ => cases h

theorem exists_of_convert_ok {f : Filter} {p : Policy} {r : Conversion}
    (h : f.convert p = .ok r) :
    ∃ sq s, (compileStatements f.statements).runFrom (.start p) = (.ok sq, s) ∧
      r.query = .ofStatements sq := by
  unfold convert at h
  cases hrun : f.compile.runFrom (.start p) with
  | mk result s =>
    rw [hrun] at h
    cases result with
    | error fault => cases h
    | ok q =>
      obtain ⟨sq, s', hstatements, hpure⟩ := Resolving.exists_of_bind_ok hrun
      cases hpure
      refine ⟨sq, _, hstatements, ?_⟩
      dsimp only at h
      split at h
      · cases h
      · cases h
        rfl

theorem Compositional.of_convert {C : Value → Query String → Prop}
    {S : List Value → List (Conjunction × Query String) → Prop} (rules : Compositional C S)
    {f : Filter} {p : Policy} {r : Conversion} (h : f.convert p = .ok r) :
    C f.toValue r.query := by
  obtain ⟨sq, s, hstatements, hquery⟩ := exists_of_convert_ok h
  rw [hquery]
  exact rules.filter _ _ (rules.statements f.statements hstatements)

mutual

/-- How a content and its query are made up, without the resolver. -/
inductive ContentCompiles : Value → Query String → Prop
  | clause {c : Clause} {q : Query String} : c.fragment = .ok q → ContentCompiles c.toValue q
  | filter {vs : List Value} {sq : List (Conjunction × Query String)} :
      StatementsCompile vs sq → ContentCompiles (.filter vs) (.ofStatements sq)

inductive StatementsCompile : List Value → List (Conjunction × Query String) → Prop
  | nil : StatementsCompile [] []
  | cons {content conj : Value} {c : Conjunction} {q : Query String} {vs : List Value}
      {sq : List (Conjunction × Query String)} :
      conj.IsConjunction c → ContentCompiles content q → StatementsCompile vs sq →
      StatementsCompile (.statement content conj :: vs) ((c, q) :: sq)

end

theorem compositional_compiles : Compositional ContentCompiles StatementsCompile where
  clause _ _ h := .clause h
  filter _ _ h := .filter h
  nil := .nil
  cons _ _ _ _ _ _ hconj hq h := .cons hconj hq h

end Filter
end FilterQuery
