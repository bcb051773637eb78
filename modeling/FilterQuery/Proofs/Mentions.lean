import FilterQuery.Proofs.Keys
import Mathlib.Data.List.Nodup

/-!
# What a conversion mentions

A conversion reports the fields that the filter mentions, and its document names keys. Both are
those of the targets that stand as operands in the filter, in the order of the filter: of the fields
the first mention is reported, of the keys every one is named. The policy has admitted each of these
targets and no key has a character or a pair of hyphens that a segment must not have.
-/

namespace FilterQuery

namespace Resolver

theorem nodup_fields_record {r : Resolver} (h : r.fields.Nodup) (field : String) :
    (r.record field).fields.Nodup := by
  rw [fields_record]
  split
  · exact h
  · rename_i hnew
    have hconcat := h.concat hnew
    rwa [List.concat_eq_append] at hconcat

theorem nodup_fields_recordAll {r : Resolver} (h : r.fields.Nodup) (fields : List String) :
    (r.recordAll fields).fields.Nodup := by
  induction fields generalizing r with
  | nil => exact h
  | cons field fields ih => exact ih (nodup_fields_record h field)

theorem nodup_fields_recordAll_start (p : Policy) (fields : List String) :
    ((start p).recordAll fields).fields.Nodup :=
  nodup_fields_recordAll (r := start p) List.nodup_nil fields

end Resolver

theorem Check.admits_of_passes {p : Policy} {cs : List Check} (h : ∀ c ∈ cs, c.Passes p) :
    ∀ field ∈ cs.filterMap askedField?, p.Admits field := by
  intro field hfield
  obtain ⟨c, hc, hasked⟩ := List.mem_filterMap.mp hfield
  cases c with
  | admitted t =>
    obtain rfl : t.field = field := Option.some.inj hasked
    exact (h _ hc).2
  | _ => cases hasked

namespace Filter

variable {f : Filter} {p : Policy} {r : Conversion}

theorem nodup_fields_of_convert_ok (h : f.convert p = .ok r) : r.fields.Nodup := by
  rw [(convert_ok h).2.1, ← Resolver.fields_recordAll_start p]
  exact Resolver.nodup_fields_recordAll_start p _

theorem admits_of_convert_ok (h : f.convert p = .ok r) : ∀ t ∈ f.targets, p.Admits t.field := by
  intro t ht
  have hpass : ∀ c ∈ statementsChecks f.statements, c.Passes p := by
    intro c hc
    exact (convert_ok h).1 c (List.mem_append_left _ hc)
  apply Check.admits_of_passes hpass
  rw [askedFields_statements]
  exact List.mem_map_of_mem ht

theorem mentions_required_of_convert_ok (h : f.convert p = .ok r) :
    ∀ field ∈ p.require, field ∈ r.fields := by
  intro field hfield
  obtain ⟨hpass, hfields, -⟩ := convert_ok h
  have hmentioned : field ∈ f.targets.map Target.field :=
    (hpass (.mentioned field _) (List.mem_append_right _ (List.mem_map_of_mem hfield))).2
  rw [hfields]
  exact List.mem_eraseDups.mpr hmentioned

/-- The reported fields are those of the targets, each at its first mention; all of them are
permitted, and the required ones are among them. -/
theorem fields_are_first_mentions (f : Filter) (p : Policy) (r : Conversion)
    (h : f.toValue.convert (.policy p) = .ok r) :
    r.fields = (f.targets.map Target.field).eraseDups ∧ r.fields.Nodup ∧
      (∀ field ∈ r.fields, p.permits field = true) ∧ ∀ field ∈ p.require, field ∈ r.fields := by
  have hfields : r.fields = (f.targets.map Target.field).eraseDups := (convert_ok h).2.1
  refine ⟨hfields, nodup_fields_of_convert_ok h, ?_, mentions_required_of_convert_ok h⟩
  intro field hfield
  rw [hfields, List.mem_eraseDups] at hfield
  obtain ⟨t, ht, rfl⟩ := List.mem_map.mp hfield
  exact (p.permits_iff t.field).mpr (admits_of_convert_ok h t ht)

/-- Two of four mentions are repetitions, and a comparison of literals has none. -/
theorem fields_are_first_mentions_repeated :
    let f : Filter := ⟨[
      .statement (.clause (.int 1) (.string "lt") (.target (.string "b") [.int 0]))
        (.conjunction .and),
      .statement (.filter [
        .statement (.clause (.target (.string "a") []) (.string "eq") (.target (.string "b") []))
          (.string "and"),
        .statement (.clause (.string "c") (.string "eq") (.int 1)) (.string "or")])
        (.conjunction .or),
      .statement (.clause (.target (.string "a") [.string "d"]) (.string "neq") .null)
        (.conjunction .and)]⟩
    let p : Policy := ⟨["a", "b", "c"], [], ["a"], .inr rfl⟩
    ∃ r, f.toValue.convert (.policy p) = .ok r ∧ r.fields = ["b", "a"] ∧ "a" ∈ r.fields := by
  intro f p
  obtain ⟨hfields, -, -, hrequired⟩ := fields_are_first_mentions f p _ rfl
  exact ⟨_, rfl, hfields, hrequired "a" (List.mem_singleton.mpr rfl)⟩

end Filter

namespace Document

def alternate {α : Type} : List α → List α
  | _ :: second :: rest => second :: alternate rest
  | _ => []

def quotations (source : String) : List String :=
  (alternate (source.toList.splitOn '\'')).map String.ofList

mutual

/-- The keys that stand in the place of a field, in document order: the names of entries, the field
that has to be present and what a script quotes. -/
def fieldKeys : Value → List String
  | .mapping [("bool", .mapping [("must", .list documents)])]
  | .mapping [("bool", .mapping [("should", .list documents)])] => fieldKeysOf documents
  | .mapping [("bool", .mapping [("must_not", document)])] => fieldKeys document
  | .mapping [("term", .mapping entries)] | .mapping [("range", .mapping entries)]
  | .mapping [("terms", .mapping entries)]
  | .mapping [("regexp", .mapping entries)] => entries.map (·.1)
  | .mapping [("exists", .mapping [("field", .string key)])] => [key]
  | .mapping [("script", .mapping [("script", .string source)])] => quotations source
  | _ => []
termination_by structural document => document

def fieldKeysOf : List Value → List String
  | [] => []
  | document :: documents => fieldKeys document ++ fieldKeysOf documents
termination_by structural documents => documents

end

theorem quotations_fieldScript {subject object : String} (hs : '\'' ∉ subject.toList)
    (ho : '\'' ∉ object.toList) (c : Comparison) :
    quotations (fieldScript subject c object) = [subject, object] := by
  -- cut at the apostrophes, the script has five parts, and the keys are the second and the fourth
  let between := "].value ".toList ++ c.symbol.toList ++ " doc[".toList
  have hbetween : '\'' ∉ between := by cases c <;> decide
  have hscript : (fieldScript subject c object).toList = ['\''].intercalate
      ["doc[".toList, subject.toList, between, object.toList, "].value".toList] := by
    rw [Target.intercalate_cons_eq]
    simp [fieldScript, between]
  rw [quotations, hscript, List.splitOn_intercalate]
  · simp [alternate]
  · simpa using ⟨hs, hbetween, ho⟩
  · exact List.cons_ne_nil _ _

end Document

namespace Query

open Document

mutual

theorem fieldKeys_document (q : Query String) (h : Quotable q.keys) :
    fieldKeys q.document = q.keys := by
  cases q with
  | compareFields subject c object =>
    exact quotations_fieldScript (h subject (by simp [keys])) (h object (by simp [keys])) c
  | not inner => exact fieldKeys_document inner h
  | all inner =>
    rw [document_all]
    exact fieldKeysOf_documents inner h
  | any inner =>
    rw [document_any]
    exact fieldKeysOf_documents inner h
  | _ => rfl
termination_by structural q

theorem fieldKeysOf_documents (qs : List (Query String)) (h : Quotable (keysOf qs)) :
    fieldKeysOf (qs.map document) = keysOf qs := by
  cases qs with
  | nil => rfl
  | cons q qs =>
    rw [List.map_cons, fieldKeysOf, keysOf, fieldKeys_document q h.left,
      fieldKeysOf_documents qs h.right]
termination_by structural qs

end

end Query

namespace Filter

/-- The keys that the document names are those of the targets, in order; the fields of the targets
are permitted, and the keys have nothing that a segment must not have. -/
theorem document_names_checked_keys (f : Filter) (p : Policy) (r : Conversion)
    (h : f.toValue.convert (.policy p) = .ok r) :
    ∃ document, r.document = .mapping [("filter", document)] ∧
      Document.fieldKeys document = f.targets.map Target.key ∧
      (∀ t ∈ f.targets, p.permits t.field = true) ∧
      ∀ key ∈ Document.fieldKeys document,
        (∀ c ∈ key.toList, c ∉ Target.forbiddenChars) ∧ ¬ ['-', '-'] <:+: key.toList := by
  obtain ⟨hkeys, hlegal⟩ := keys_of_convert_ok h
  have hnamed : Document.fieldKeys r.query.document = f.targets.map Target.key :=
    (Query.fieldKeys_document r.query (quotable_of_convert_ok h)).trans hkeys
  refine ⟨r.query.document, rfl, hnamed, ?_, ?_⟩
  · intro t ht
    exact (p.permits_iff t.field).mpr (admits_of_convert_ok h t ht)
  · intro key hkey
    rw [hnamed] at hkey
    obtain ⟨t, ht, rfl⟩ := List.mem_map.mp hkey
    have ht := hlegal t ht
    refine ⟨?_, ht.not_hyphens_infix_key⟩
    intro c hmem hforbidden
    exact ht.notMem_key hforbidden hmem

/-- Hyphens meet at a dot, and a script names two keys. -/
theorem document_names_checked_keys_hyphens_at_dot :
    let f : Filter := ⟨[
      .statement (.clause (.target (.string "a-") [.string "-b"]) (.string "eq") .null)
        (.conjunction .and),
      .statement (.filter [
        .statement (.clause (.int 1) (.string "lt") (.target (.string "c") [.int 0]))
          (.string "and"),
        .statement (.clause (.target (.string "c") []) (.string "eq")
          (.target (.string "a-") [.string "-b"])) (.string "or")]) (.conjunction .or)]⟩
    let p : Policy := ⟨["a-", "c"], [], ["c"], .inr rfl⟩
    ∃ r document, f.toValue.convert (.policy p) = .ok r ∧
      r.document = .mapping [("filter", document)] ∧
      Document.fieldKeys document = ["a-.-b", "c.0", "c", "a-.-b"] ∧
      ¬ ['-', '-'] <:+: "a-.-b".toList := by
  intro f p
  obtain ⟨document, hdocument, hkeys, -, hlegal⟩ := document_names_checked_keys f p _ rfl
  have hnamed : Document.fieldKeys document = ["a-.-b", "c.0", "c", "a-.-b"] := hkeys
  refine ⟨_, document, rfl, hdocument, hnamed, (hlegal "a-.-b" ?_).2⟩
  rw [hnamed]
  exact List.mem_cons_self ..

end Filter
end FilterQuery
