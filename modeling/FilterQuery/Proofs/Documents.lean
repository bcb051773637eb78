import FilterQuery.Proofs.Runs
import FilterQuery.Query.Document

/-!
# Queries and their documents

The keys of a query stand in its document as names, as values and inside scripts. Keys without an
apostrophe can be told from the text of a script around them, so the document determines the query.
-/

namespace FilterQuery

theorem eq_of_append_cons_eq {c : Char} {xs ys rest rest' : List Char} (hx : c ∉ xs) (hy : c ∉ ys)
    (h : xs ++ c :: rest = ys ++ c :: rest') : xs = ys ∧ rest = rest' := by
  induction xs generalizing ys with
  | nil =>
    cases ys with
    | nil => exact ⟨rfl, (List.cons.inj h).2⟩
    | cons y ys =>
      rw [List.nil_append, List.cons_append, List.cons.injEq] at h
      exact absurd (by simp [h.1]) hy
  | cons x xs ih =>
    cases ys with
    | nil =>
      rw [List.nil_append, List.cons_append, List.cons.injEq] at h
      exact absurd (by simp [h.1]) hx
    | cons y ys =>
      rw [List.cons_append, List.cons_append, List.cons.injEq] at h
      obtain ⟨rfl, h⟩ := h
      obtain ⟨rfl, hrest⟩ := ih (fun hc => hx (by simp [hc])) (fun hc => hy (by simp [hc])) h
      exact ⟨rfl, hrest⟩

theorem Comparison.symbol_injective {c c' : Comparison} (h : c.symbol = c'.symbol) : c = c' := by
  cases c <;> cases c' <;> first | rfl | exact absurd h (by decide)

namespace Document

/-- The script of two fields determines them and the comparison, unless the first one has an
apostrophe. -/
theorem fieldScript_injective {subject subject' object object' : String} {c c' : Comparison}
    (hs : '\'' ∉ subject.toList) (hs' : '\'' ∉ subject'.toList)
    (h : fieldScript subject c object = fieldScript subject' c' object') :
    subject = subject' ∧ c = c' ∧ object = object' := by
  have hchars :
      ("doc['" ++ subject ++ "'].value " ++ c.symbol ++ " doc['" ++ object ++ "'].value").toList =
        ("doc['" ++ subject' ++ "'].value " ++ c'.symbol ++ " doc['" ++ object' ++
          "'].value").toList := congrArg String.toList h
  simp only [String.toList_append, List.append_assoc] at hchars
  have hopen := List.append_cancel_left hchars
  obtain ⟨hsubject, hrest⟩ := eq_of_append_cons_eq (c := '\'') hs hs' hopen
  have hspace : ∀ c : Comparison, ' ' ∉ c.symbol.toList := by
    intro c
    cases c <;> decide
  have hvalue := List.append_cancel_left
    (show "].value ".toList ++ _ = "].value ".toList ++ _ from hrest)
  obtain ⟨hsymbol, hrest⟩ := eq_of_append_cons_eq (c := ' ') (hspace c) (hspace c') hvalue
  have hdoc := List.append_cancel_left (show "doc['".toList ++ _ = "doc['".toList ++ _ from hrest)
  have hobject := List.append_cancel_right hdoc
  exact ⟨String.toList_inj.mp hsubject, Comparison.symbol_injective (String.toList_inj.mp hsymbol),
    String.toList_inj.mp hobject⟩

theorem literalScript_injective {c c' : Comparison} (h : literalScript c = literalScript c') :
    c = c' := by
  have hchars : ("params.subject " ++ c.symbol ++ " params.object").toList =
      ("params.subject " ++ c'.symbol ++ " params.object").toList := congrArg String.toList h
  simp only [String.toList_append, List.append_assoc] at hchars
  have hsymbol := List.append_cancel_right (List.append_cancel_left hchars)
  exact Comparison.symbol_injective (String.toList_inj.mp hsymbol)

end Document

namespace Query

variable {κ : Type}

mutual

def keys : Query κ → List κ
  | term key _ | range key _ | terms key _ | regexp key _ | present key => [key]
  | compareFields subject _ object => [subject, object]
  | compareLiterals .. => []
  | not query => query.keys
  | all queries | any queries => keysOf queries
termination_by structural query => query

def keysOf : List (Query κ) → List κ
  | [] => []
  | q :: qs => q.keys ++ keysOf qs
termination_by structural qs => qs

end

theorem keysOf_eq_flatMap (qs : List (Query κ)) : keysOf qs = qs.flatMap keys := by
  induction qs with
  | nil => rfl
  | cons q qs ih => rw [keysOf, ih, List.flatMap_cons]

theorem keysOf_map_all (runs : List (List (Query κ))) :
    keysOf (runs.map all) = runs.flatten.flatMap keys := by
  induction runs with
  | nil => rfl
  | cons run runs ih =>
    rw [List.map_cons, keysOf, keys, keysOf_eq_flatMap, ih, List.flatten_cons, List.flatMap_append]

theorem keys_ofRuns (runs : List (List (Query κ))) :
    (ofRuns runs).keys = runs.flatten.flatMap keys := by
  match runs with
  | [] => rfl
  | [run] => rw [ofRuns, keys, keysOf_eq_flatMap, List.flatten_singleton]
  | first :: second :: runs => exact keysOf_map_all (first :: second :: runs)

theorem keys_ofStatements (statements : List (Conjunction × Query κ)) :
    (ofStatements statements).keys = statements.flatMap fun s => s.2.keys := by
  have hcut := isCut_splitBy statements
  rw [hcut.ofStatements_eq, keys_ofRuns, ← List.map_flatten, hcut.flatten,
    List.flatMap_map]

section Documents

theorem document_term (key : String) (v : Value) :
    (term key v).document = .mapping [("term", .mapping [(key, v)])] := rfl

theorem document_range (key : String) (bounds : List (Bound × Value)) :
    (range key bounds).document =
      .mapping [("range", .mapping [(key, .mapping (bounds.map fun b => (b.1.name, b.2)))])] := rfl

theorem document_terms (key : String) (values : List Value) :
    (terms key values).document = .mapping [("terms", .mapping [(key, .list values)])] := rfl

theorem document_regexp (key pattern : String) :
    (regexp key pattern).document = .mapping [("regexp", .mapping [(key, .string pattern)])] := rfl

theorem document_present (key : String) :
    (present key).document = .mapping [("exists", .mapping [("field", .string key)])] := rfl

theorem document_compareFields (subject : String) (c : Comparison) (object : String) :
    (compareFields subject c object).document = .mapping [("script", .mapping [("script",
      .string (Document.fieldScript subject c object))])] := rfl

theorem document_compareLiterals (subject : Value) (c : Comparison) (object : Value) :
    (compareLiterals subject c object : Query String).document =
      .mapping [("script", .mapping [("script", .mapping
        [("source", .string (Document.literalScript c)),
          ("params", .mapping [("subject", subject), ("object", object)])])])] := rfl

theorem document_not (q : Query String) :
    (not q).document = .mapping [("bool", .mapping [("must_not", q.document)])] := rfl

theorem document_all (qs : List (Query String)) :
    (all qs).document = .mapping [("bool", .mapping [("must", .list (qs.map document))])] := by
  rw [document, documentIn, documentsIn_eq_map]
  rfl

theorem document_any (qs : List (Query String)) :
    (any qs).document = .mapping [("bool", .mapping [("should", .list (qs.map document))])] := by
  rw [document, documentIn, documentsIn_eq_map]
  rfl

attribute [simp] document_term document_range document_terms document_regexp document_present
  document_compareFields document_compareLiterals document_not document_all document_any

end Documents

theorem bounds_injective {bounds bounds' : List (Bound × Value)}
    (h : (bounds.map fun b => (b.1.name, b.2)) = bounds'.map fun b => (b.1.name, b.2)) :
    bounds = bounds' := by
  refine List.map_injective_iff.mpr ?_ h
  rintro ⟨bound, v⟩ ⟨bound', v'⟩ hpair
  simp only [Prod.mk.injEq] at hpair
  obtain ⟨hname, rfl⟩ := hpair
  cases bound <;> cases bound' <;> first | rfl | simp [Bound.name] at hname

def Quotable (keys : List String) : Prop :=
  ∀ key ∈ keys, '\'' ∉ key.toList

theorem Quotable.left {keys keys' : List String} (h : Quotable (keys ++ keys')) : Quotable keys :=
  fun key hkey => h key (List.mem_append_left _ hkey)

theorem Quotable.right {keys keys' : List String} (h : Quotable (keys ++ keys')) :
    Quotable keys' :=
  fun key hkey => h key (List.mem_append_right _ hkey)

mutual

/-- A document comes from one query only. -/
theorem document_injective (q q' : Query String) (hq : Quotable q.keys) (hq' : Quotable q'.keys)
    (h : q.document = q'.document) : q = q' := by
  -- Documents of different kinds differ in a name, so there is one case for each kind.
  cases q with
  | term key v =>
    cases q' with
    | term key' v' => simpa using h
    | _ => simp at h
  | range key bounds =>
    cases q' with
    | range key' bounds' =>
      simp only [document_range, Value.mapping.injEq, List.cons.injEq, Prod.mk.injEq] at h
      obtain ⟨⟨-, ⟨hkey, hbounds⟩, -⟩, -⟩ := h
      rw [hkey, bounds_injective hbounds]
    | _ => simp at h
  | terms key values =>
    cases q' with
    | terms key' values' => simpa using h
    | _ => simp at h
  | regexp key pattern =>
    cases q' with
    | regexp key' pattern' => simpa using h
    | _ => simp at h
  | present key =>
    cases q' with
    | present key' => simpa using h
    | _ => simp at h
  | compareFields subject c object =>
    cases q' with
    | compareFields subject' c' object' =>
      have hscript : Document.fieldScript subject c object =
          Document.fieldScript subject' c' object' := by simpa using h
      obtain ⟨rfl, rfl, rfl⟩ := Document.fieldScript_injective (hq _ (by simp [keys]))
        (hq' _ (by simp [keys])) hscript
      rfl
    | _ => simp at h
  | compareLiterals subject c object =>
    cases q' with
    | compareLiterals subject' c' object' =>
      simp only [document_compareLiterals, Value.mapping.injEq, List.cons.injEq, Prod.mk.injEq,
        Value.string.injEq] at h
      obtain ⟨⟨-, ⟨-, ⟨-, hscript⟩, ⟨-, ⟨-, rfl⟩, ⟨-, rfl⟩, -⟩, -⟩, -⟩, -⟩ := h
      rw [Document.literalScript_injective hscript]
    | _ => simp at h
  | not inner =>
    cases q' with
    | not inner' => rw [document_injective inner inner' hq hq' (by simpa using h)]
    | _ => simp at h
  | all inner =>
    cases q' with
    | all inner' => rw [documents_injective inner inner' hq hq' (by simpa using h)]
    | _ => simp at h
  | any inner =>
    cases q' with
    | any inner' => rw [documents_injective inner inner' hq hq' (by simpa using h)]
    | _ => simp at h
termination_by structural q

theorem documents_injective (qs qs' : List (Query String)) (hqs : Quotable (keysOf qs))
    (hqs' : Quotable (keysOf qs')) (h : qs.map document = qs'.map document) : qs = qs' := by
  cases qs with
  | nil =>
    cases qs' with
    | nil => rfl
    | cons q' qs' => cases h
  | cons q qs =>
    cases qs' with
    | nil => cases h
    | cons q' qs' =>
      obtain ⟨hfirst, hrest⟩ := List.cons.inj h
      have hq := document_injective q q' hqs.left hqs'.left hfirst
      have hrest := documents_injective qs qs' hqs.right hqs'.right hrest
      rw [hq, hrest]
termination_by structural qs

end

end Query
end FilterQuery
