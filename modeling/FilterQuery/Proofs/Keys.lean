import FilterQuery.Proofs.Compilation
import FilterQuery.Proofs.Documents

/-!
# The keys of a filter

A key is made of the texts of a target's segments with dots between them. The keys in the query of a
filter are those of its targets, in the order of the document, and all of these targets are legal.
A key without a dot is the field of its target.
-/

namespace FilterQuery

namespace Target

theorem intercalate_cons_eq (sep : Char) (first : List Char) (rest : List (List Char)) :
    [sep].intercalate (first :: rest) = first ++ rest.flatMap (sep :: ·) := by
  induction rest generalizing first with
  | nil => simp
  | cons second rest ih =>
    rw [List.intercalate_cons_cons, ih]
    simp

/-- A key starts with the field, and every other segment follows a dot. -/
theorem toList_key (t : Target) :
    t.key.toList = t.field.toList ++ t.tail.flatMap fun v => '.' :: v.text.toList := by
  rw [key, segmentTexts_eq_cons, List.map_cons, intercalate_cons_eq, String.toList_ofList,
    List.map_map, List.flatMap_map]
  rfl

theorem Legal.notMem_key {t : Target} (h : t.Legal) {c : Char} (hc : c ∈ forbiddenChars) :
    c ∉ t.key.toList := by
  have hsegment : ∀ v ∈ t.path, c ∉ v.text.toList := by
    intro v hv hmem
    exact (h v.text (List.mem_map_of_mem hv)).1 c hmem hc
  rw [toList_key, List.mem_append, List.mem_flatMap]
  rintro (hfield | ⟨v, hv, hmem⟩)
  · exact hsegment t.head (List.mem_cons_self ..) hfield
  · rcases List.mem_cons.mp hmem with rfl | hmem
    · exact absurd hc (by decide)
    · exact hsegment v (List.mem_cons_of_mem _ hv) hmem

/-- A dot keeps hyphens apart. -/
theorem hasDoubleHyphen_append_dot (cs ds : List Char) :
    hasDoubleHyphen (cs ++ '.' :: ds) = (hasDoubleHyphen cs || hasDoubleHyphen ds) := by
  fun_induction hasDoubleHyphen cs with
  | case1 cs => rfl
  | case2 c cs hyphens ih =>
    rw [List.cons_append, hasDoubleHyphen, ih]
    intro rest hc hrest
    cases cs with
    | nil => cases (List.cons.inj hrest).1
    | cons c' cs =>
      obtain ⟨rfl, -⟩ := List.cons.inj hrest
      exact hyphens cs hc rfl
  | case3 => rfl

theorem hasDoubleHyphen_intercalate (segments : List (List Char)) :
    hasDoubleHyphen (['.'].intercalate segments) = segments.any hasDoubleHyphen := by
  induction segments with
  | nil => rfl
  | cons first rest ih =>
    cases rest with
    | nil => simp
    | cons second rest =>
      rw [List.intercalate_cons_cons, List.append_assoc, List.singleton_append,
        hasDoubleHyphen_append_dot, ih]
      rfl

theorem Legal.not_hyphens_infix_key {t : Target} (h : t.Legal) :
    ¬ ['-', '-'] <:+: t.key.toList := by
  rw [← hasDoubleHyphen_iff, key, String.toList_ofList, hasDoubleHyphen_intercalate,
    List.any_map, List.any_eq_true]
  rintro ⟨s, hs, hhyphens⟩
  exact (h s hs).2 ((hasDoubleHyphen_iff s.toList).mp hhyphens)

theorem field_eq_key {t : Target} (h : '.' ∉ t.key.toList) : t.field = t.key := by
  have hkey := t.toList_key
  cases htail : t.tail with
  | nil => exact String.toList_inj.mp (by simpa [htail] using hkey.symm)
  | cons v tail => exact absurd (by simp [hkey, htail]) h

end Target

theorem Fragment.Gives.keys_eq {κ : Type} {key : κ} {op : Operator} {v : Value} {q : Query κ}
    (h : Gives key op v q) : q.keys = [key] := by
  cases h with
  | null c | compare c _ => cases c <;> rfl
  | _ => rfl

theorem Clause.Compiles.keys_eq {c : Clause} {q : Query String} (h : c.Compiles q) :
    q.keys = c.targets.map Target.key ∧ ∀ t ∈ c.targets, t.Legal := by
  cases h with
  | fields _ hs ho =>
    refine ⟨rfl, ?_⟩
    intro t ht
    rcases List.mem_append.mp ht with ht | ht
    · obtain rfl := List.mem_singleton.mp ht
      exact hs.2
    · obtain rfl := List.mem_singleton.mp ht
      exact ho.2
  | literals hv hw _ => simp [targets, hv, hw, Query.keys]
  | subject hv _ fits ht hq =>
    have hgives := Fragment.gives_of_ofTargeted fits hq
    simpa [targets, hv, hgives.keys_eq] using ht.2
  | object hv _ fits ht hq =>
    have hgives := Fragment.gives_of_ofTargeted ((Operand.fits_inverse _ _).mpr fits) hq
    simpa [targets, hv, hgives.keys_eq] using ht.2

namespace Filter

theorem compositional_keys : Compositional
    (fun v q => q.keys = (contentTargets v).map Target.key ∧ ∀ t ∈ contentTargets v, t.Legal)
    (fun vs sq => (sq.flatMap fun s => s.2.keys) = (statementsTargets vs).map Target.key ∧
      ∀ t ∈ statementsTargets vs, t.Legal) where
  clause c q hq := (Clause.compiles_of_fragment hq).keys_eq
  filter vs sq h := ⟨(Query.keys_ofStatements sq).trans h.1, h.2⟩
  nil := ⟨rfl, by simp [statementsTargets]⟩
  cons content conj c q vs sq _ hq h := by
    rw [statementsTargets, statementTargets, List.map_append, List.flatMap_cons, hq.1, h.1]
    refine ⟨rfl, fun t ht => ?_⟩
    rcases List.mem_append.mp ht with ht | ht
    · exact hq.2 t ht
    · exact h.2 t ht

theorem keys_of_convert_ok {f : Filter} {p : Policy} {r : Conversion} (h : f.convert p = .ok r) :
    r.query.keys = f.targets.map Target.key ∧ ∀ t ∈ f.targets, t.Legal :=
  compositional_keys.of_convert h

theorem quotable_of_convert_ok {f : Filter} {p : Policy} {r : Conversion}
    (h : f.convert p = .ok r) : Query.Quotable r.query.keys := by
  obtain ⟨hkeys, hlegal⟩ := keys_of_convert_ok h
  rw [hkeys]
  intro key hkey
  obtain ⟨t, ht, rfl⟩ := List.mem_map.mp hkey
  exact (hlegal t ht).notMem_key (by decide)

theorem query_eq_of_document_eq {f g : Filter} {p p' : Policy} {r s : Conversion}
    (hf : f.convert p = .ok r) (hg : g.convert p' = .ok s) (h : r.document = s.document) :
    r.query = s.query := by
  have hdocument : r.query.document = s.query.document := by
    simpa [Conversion.document, Document.single] using h
  exact Query.document_injective _ _ (quotable_of_convert_ok hf) (quotable_of_convert_ok hg)
    hdocument

end Filter
end FilterQuery
