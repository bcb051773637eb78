import FilterQuery.Proofs.Keys

/-!
# Respelled targets

A document shows keys and no fields, so a policy that is asked about fields can treat two filters of
one document differently. The segments of a key are separated by dots, but a segment may have a dot
of its own: a target of the path `a.b` has the key of the target of the path `a`, `b`. Filters of
one document get the same verdict from all policies that require nothing when their targets have the
same fields, and the document alone decides the verdict when none of its keys has a dot. A dotted
key can be respelled in two ways, as one segment and cut at its first dot, and the policy that
denies the whole key tells the two apart.
-/

namespace FilterQuery

namespace Target

variable {t : Target}

theorem Legal.resolvable_of_infix (h : t.Legal) {u : Target}
    (hu : ∀ v ∈ u.path, ∃ s, v = .string s ∧ s.toList <:+: t.key.toList) : u.Resolvable := by
  refine ⟨u.isWritable_iff.mpr fun v hv => ?_, fun s hs => ?_⟩
  · obtain ⟨s, rfl, -⟩ := hu v hv
    rfl
  · obtain ⟨v, hv, rfl⟩ := List.mem_map.mp hs
    obtain ⟨s, rfl, hwithin⟩ := hu v hv
    refine ⟨fun c hc hforbidden => ?_, fun hhyphens => ?_⟩
    · exact h.notMem_key hforbidden (hwithin.subset hc)
    · exact h.not_hyphens_infix_key (hhyphens.trans hwithin)

theorem Legal.exists_whole (h : t.Legal) :
    ∃ u : Target, u.Resolvable ∧ u.key = t.key ∧ u.field = u.key := by
  let u : Target := ⟨.string t.key, []⟩
  have hkey : u.key = t.key := String.toList_inj.mp (by simp [toList_key u, u, field, Value.text])
  refine ⟨u, h.resolvable_of_infix fun v hv => ?_, hkey, hkey.symm⟩
  exact ⟨t.key, List.mem_singleton.mp hv, List.infix_rfl⟩

/-- Every key is that of a target whose field has no dot: the key is cut at its first one. -/
theorem Legal.exists_cut (h : t.Legal) :
    ∃ u : Target, u.Resolvable ∧ u.key = t.key ∧ '.' ∉ u.field.toList := by
  by_cases hdot : '.' ∈ t.key.toList
  · obtain ⟨before, after, hcut, hbefore⟩ := List.eq_append_cons_of_mem hdot
    let u : Target := ⟨.string (String.ofList before), [.string (String.ofList after)]⟩
    have hkey : u.key.toList = t.key.toList := by
      rw [toList_key, hcut]
      simp [u, field, Value.text]
    refine ⟨u, h.resolvable_of_infix fun v hv => ?_, String.toList_inj.mp hkey, ?_⟩
    · rcases List.mem_cons.mp hv with rfl | hv
      · exact ⟨_, rfl, [], '.' :: after, by simp [hcut]⟩
      · obtain rfl := List.mem_singleton.mp hv
        exact ⟨_, rfl, before ++ ['.'], [], by simp [hcut]⟩
    · simpa [u, field, Value.text] using hbefore
  · obtain ⟨u, hu, hkey, hfield⟩ := h.exists_whole
    exact ⟨u, hu, hkey, by rwa [hfield, hkey]⟩

end Target

open Resolving

-- a property of targets that every legal one gets when it is respelled
variable {Q : Target → Prop} (respell : ∀ t : Target, t.Legal → ∃ u : Target, u.Resolvable ∧
  u.key = t.key ∧ Q u)

include respell

theorem Clause.Compiles.exists_respelled {c : Clause} {q : Query String} (h : c.Compiles q) :
    ∃ d : Clause, d.Compiles q ∧ ∀ t ∈ d.targets, Q t := by
  cases h with
  | @fields s o op c hop hs ho =>
    obtain ⟨s', hs', hskey, hsQ⟩ := respell s hs.2
    obtain ⟨o', ho', hokey, hoQ⟩ := respell o ho.2
    refine ⟨⟨s'.toValue, op, o'.toValue⟩, ?_, by simp [targets, hsQ, hoQ]⟩
    rw [← hskey, ← hokey]
    exact .fields hop hs' ho'
  | literals hv hw hop => exact ⟨_, .literals hv hw hop, by simp [targets, hv, hw]⟩
  | @subject t v op o q hv hop fits ht hq =>
    obtain ⟨u, hu, hkey, huQ⟩ := respell t ht.2
    rw [← hkey] at hq
    exact ⟨⟨u.toValue, op, v⟩, .subject hv hop fits hu hq, by simpa [targets, hv] using huQ⟩
  | @object t v op o q hv hop fits ht hq =>
    obtain ⟨u, hu, hkey, huQ⟩ := respell t ht.2
    rw [← hkey] at hq
    exact ⟨⟨v, op, u.toValue⟩, .object hv hop fits hu hq, by simpa [targets, hv] using huQ⟩

omit respell

structure Respelled (Q : Target → Prop) {α : Type} (m : Resolving α) (checks : List Check)
    (targets : List Target) (a : α) : Prop where
  performs : Performs m checks (targets.map Target.field) a
  passes : ∀ c ∈ checks, c.Passes .unrestricted
  targets_have : ∀ t ∈ targets, Q t

namespace Filter

include respell

theorem compositional_respelled : Compositional
    (fun _ q => ∃ w, Respelled Q (compileContent w) (contentChecks w) (contentTargets w) q)
    (fun _ sq => ∃ ws,
      Respelled Q (compileStatements ws) (statementsChecks ws) (statementsTargets ws) sq) where
  clause c q hq := by
    obtain ⟨d, hd, hdQ⟩ := (Clause.compiles_of_fragment hq).exists_respelled respell
    have hclause : ∀ p, (Check.isClause d.toValue).Passes p := fun _ => ⟨rfl, _, _, _, rfl⟩
    refine ⟨d.toValue, hd.performs.cons hclause, ?_, hdQ⟩
    exact List.forall_mem_cons.mpr ⟨hclause _, hd.checks_pass⟩
  filter vs sq := by
    rintro ⟨ws, h⟩
    exact ⟨.filter ws, h.performs.map Query.ofStatements, h.passes, h.targets_have⟩
  nil := ⟨[], .pure [], by simp [statementsChecks], by simp [statementsTargets]⟩
  cons _ conj c q _ sq hconj := by
    rintro ⟨w, hw⟩ ⟨ws, hws⟩
    refine ⟨.statement w conj :: ws, ?_, ?_, ?_⟩
    · exact performs_statements_cons (performs_statement_of_content hconj hw.performs) hws.performs
    · rw [statementsChecks, statementChecks, List.forall_mem_append, List.forall_mem_cons,
        List.forall_mem_cons]
      exact ⟨⟨⟨rfl, w, conj, rfl⟩, ⟨hconj.isWritable, c, hconj⟩, hw.passes⟩, hws.passes⟩
    · rw [statementsTargets, statementTargets]
      exact List.forall_mem_append.mpr ⟨hw.targets_have, hws.targets_have⟩

/-- If targets can be respelled, so can filters, and the document stays the same. -/
theorem exists_respelled_of_convert_ok {f : Filter} {r : Conversion}
    (h : f.convert .unrestricted = .ok r) :
    ∃ (g : Filter) (s : Conversion), g.convert .unrestricted = .ok s ∧ s.document = r.document ∧
      ∀ t ∈ g.targets, Q t := by
  obtain ⟨sq, _, hrun, hquery⟩ := exists_of_convert_ok h
  obtain ⟨ws, hws⟩ := (compositional_respelled respell).statements f.statements hrun
  have hpass : ∀ c ∈ checks ⟨ws⟩ .unrestricted, c.Passes .unrestricted := by
    rw [checks_unrestricted]
    exact hws.passes
  have hconvert := (convert_of_performs (f := ⟨ws⟩) hws.performs .unrestricted).1 hpass
  refine ⟨⟨ws⟩, _, hconvert, ?_, hws.targets_have⟩
  rw [Conversion.document, Conversion.document, hquery]

omit respell

variable {f g : Filter} {r s : Conversion}

theorem keys_eq_of_document_eq (hf : f.convert .unrestricted = .ok r)
    (hg : g.convert .unrestricted = .ok s) (h : s.document = r.document) :
    g.targets.map Target.key = f.targets.map Target.key := by
  rw [← (keys_of_convert_ok hf).1, ← (keys_of_convert_ok hg).1, query_eq_of_document_eq hg hf h]

theorem convert_ok_deny_iff (h : f.convert .unrestricted = .ok r) (field : String) :
    (∃ a, f.convert ⟨[], [field], [], .inl rfl⟩ = .ok a) ↔ field ∉ f.targets.map Target.field := by
  rw [convert_ok_iff_admits h rfl, List.mem_map]
  constructor
  · rintro hadmits ⟨t, ht, rfl⟩
    exact (hadmits t ht).2 (List.mem_singleton.mpr rfl)
  · intro hfield t ht
    exact ⟨.inl rfl, fun hdenied => hfield ⟨t, ht, List.mem_singleton.mp hdenied⟩⟩

theorem same_verdicts_iff_same_fields (hf : f.convert .unrestricted = .ok r)
    (hg : g.convert .unrestricted = .ok s) :
    (∀ p : Policy, p.require = [] →
        ((∃ a, f.convert p = .ok a) ↔ ∃ b, g.convert p = .ok b)) ↔
      ∀ field, field ∈ f.targets.map Target.field ↔ field ∈ g.targets.map Target.field := by
  constructor
  · intro hverdict field
    have hdeny := hverdict ⟨[], [field], [], .inl rfl⟩ rfl
    rwa [convert_ok_deny_iff hf, convert_ok_deny_iff hg, not_iff_not] at hdeny
  · intro hfields p hrequire
    have hadmits : (∀ t ∈ f.targets, p.Admits t.field) ↔ ∀ t ∈ g.targets, p.Admits t.field := by
      rw [← List.forall_mem_map (f := Target.field) (P := p.Admits),
        ← List.forall_mem_map (f := Target.field) (P := p.Admits)]
      exact forall_congr' fun field => imp_congr_left (hfields field)
    exact (convert_ok_iff_admits hf hrequire).trans
      (hadmits.trans (convert_ok_iff_admits hg hrequire).symm)

/-- Filters of one document get the same verdicts exactly when they have targets in the same fields,
and the document alone decides the verdicts exactly when none of its keys has a dot. -/
theorem document_decides_verdict_iff_undotted_keys (f : Filter) (r : Conversion)
    (h : f.toValue.convert .null = .ok r) :
    (∀ (g : Filter) (s : Conversion), g.toValue.convert .null = .ok s → s.document = r.document →
      ((∀ p : Policy, p.require = [] → ((∃ a, f.toValue.convert (.policy p) = .ok a) ↔
          ∃ b, g.toValue.convert (.policy p) = .ok b)) ↔
        ∀ field, field ∈ f.targets.map Target.field ↔ field ∈ g.targets.map Target.field)) ∧
    ((∀ (g : Filter) (s : Conversion), g.toValue.convert .null = .ok s →
        s.document = r.document → ∀ p : Policy, p.require = [] →
          ((∃ a, f.toValue.convert (.policy p) = .ok a) ↔
            ∃ b, g.toValue.convert (.policy p) = .ok b)) ↔
      ∀ t ∈ f.targets, '.' ∉ t.key.toList) := by
  refine ⟨fun g s hg _ => same_verdicts_iff_same_fields h hg, fun hverdict t ht hdot => ?_, ?_⟩
  · -- the two respellings of `f` have its verdicts, but only one has a target in the field `t.key`
    obtain ⟨whole, _, hwhole, hdoc, hfield⟩ :=
      exists_respelled_of_convert_ok (fun _ => Target.Legal.exists_whole) h
    obtain ⟨cut, _, hcut, hdoc', hundotted⟩ :=
      exists_respelled_of_convert_ok (fun _ => Target.Legal.exists_cut) h
    have hsame := (same_verdicts_iff_same_fields h hwhole).mp (hverdict whole _ hwhole hdoc)
    have hsame' := (same_verdicts_iff_same_fields h hcut).mp (hverdict cut _ hcut hdoc')
    have hmem : t.key ∈ whole.targets.map Target.field := by
      rw [List.map_congr_left hfield, keys_eq_of_document_eq h hwhole hdoc]
      exact List.mem_map_of_mem ht
    obtain ⟨u, hu, hukey⟩ := List.mem_map.mp ((hsame' _).mp ((hsame _).mpr hmem))
    exact hundotted u hu (hukey ▸ hdot)
  · intro hundotted g s hg hdoc
    have hkeys := keys_eq_of_document_eq h hg hdoc
    have hundotted' : ∀ key ∈ g.targets.map Target.key, '.' ∉ key.toList := by
      rw [hkeys]
      exact List.forall_mem_map.mpr hundotted
    have hfields : g.targets.map Target.field = f.targets.map Target.field := by
      rw [List.map_congr_left fun t ht => Target.field_eq_key (hundotted t ht), ← hkeys]
      exact List.map_congr_left fun t ht =>
        Target.field_eq_key (hundotted' _ (List.mem_map_of_mem ht))
    exact (same_verdicts_iff_same_fields h hg).mpr fun field => by rw [hfields]

/-- Keys without dots: the filter reversed gets the same verdict. -/
theorem document_decides_verdict_iff_undotted_keys_reversed :
    let f : Filter := ⟨[.statement
      (.clause (.target (.string "a") []) (.string "lt") (.int 1)) (.conjunction .and)]⟩
    let g : Filter := ⟨[.statement
      (.clause (.int 1) (.operator (.compare .gt)) (.target (.string "a") []))
      (.conjunction .and)]⟩
    let p : Policy := ⟨[], ["b"], [], .inl rfl⟩
    ∃ r s, f.toValue.convert .null = .ok r ∧ g.toValue.convert .null = .ok s ∧
      s.document = r.document ∧ (∀ t ∈ f.targets, '.' ∉ t.key.toList) ∧ p.require = [] ∧
      ((∃ a, f.toValue.convert (.policy p) = .ok a) ↔
        ∃ b, g.toValue.convert (.policy p) = .ok b) := by
  intro f g p
  have hf : ∀ t ∈ f.targets, '.' ∉ t.key.toList := by decide
  refine ⟨_, _, rfl, rfl, rfl, hf, rfl, ?_⟩
  exact (document_decides_verdict_iff_undotted_keys f _ rfl).2.mpr hf g _ rfl rfl p rfl

/-- A denied field passes when the target is respelled with a dot in its first segment. -/
theorem respelled_target_evades_denied_field :
    let filterOn (head : Value) (tail : List Value) : Filter :=
      ⟨[.statement (.clause (.target head tail) (.string "eq") (.int 1)) (.conjunction .and)]⟩
    let f := filterOn (.string "a") [.string "b"]
    let g := filterOn (.string "a.b") []
    let p : Policy := ⟨[], ["a"], [], .inl rfl⟩
    ∃ r s, f.toValue.convert .null = .ok r ∧ g.toValue.convert .null = .ok s ∧
      r.document = s.document ∧ f.toValue.convert (.policy p) = .error (.denied "a") ∧
      g.toValue.convert (.policy p) = .ok s := by
  intro filterOn f g p
  exact ⟨_, _, rfl, rfl, rfl, rfl, rfl⟩

end Filter
end FilterQuery
