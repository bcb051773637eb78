import FilterQuery.Query.Basic

/-!
# Query documents

The document of a query is what the search engine receives. Literals stand in it as they were given;
two compared fields stand inside the text of a script, while compared literals are passed to their
script as parameters.
-/

namespace FilterQuery
namespace Document

def single (key : String) (v : Value) : Value :=
  .mapping [(key, v)]

/-- Selects what the given document does not select. -/
def negation (document : Value) : Value :=
  single "bool" (single "must_not" document)

def conjunction (documents : List Value) : Value :=
  single "bool" (single "must" (.list documents))

def disjunction (documents : List Value) : Value :=
  single "bool" (single "should" (.list documents))

def fieldScript (subject : String) (c : Comparison) (object : String) : String :=
  "doc['" ++ subject ++ "'].value " ++ c.symbol ++ " doc['" ++ object ++ "'].value"

def literalScript (c : Comparison) : String :=
  "params.subject " ++ c.symbol ++ " params.object"

end Document

/-- How a key shows in a document: as the name of an entry, as a value and inside a script. -/
structure KeyForm (κ : Type) where
  name : κ → String
  value : κ → Value
  text : κ → String

/-- Keys that are texts show as they are. -/
def KeyForm.plain : KeyForm String :=
  ⟨id, .string, id⟩

namespace Query

open Document

variable {κ : Type}

mutual

def documentIn (form : KeyForm κ) : Query κ → Value
  | term key v => single "term" (single (form.name key) v)
  | range key bounds =>
      single "range" (single (form.name key) (.mapping (bounds.map fun b => (b.1.name, b.2))))
  | terms key values => single "terms" (single (form.name key) (.list values))
  | regexp key pattern => single "regexp" (single (form.name key) (.string pattern))
  | present key => single "exists" (single "field" (form.value key))
  | compareFields subject c object =>
      single "script" (single "script"
        (.string (fieldScript (form.text subject) c (form.text object))))
  | compareLiterals subject c object =>
      single "script" (single "script" (.mapping
        [("source", .string (literalScript c)),
          ("params", .mapping [("subject", subject), ("object", object)])]))
  | not query => negation (query.documentIn form)
  | all queries => conjunction (documentsIn form queries)
  | any queries => disjunction (documentsIn form queries)
termination_by structural query => query

def documentsIn (form : KeyForm κ) : List (Query κ) → List Value
  | [] => []
  | q :: qs => q.documentIn form :: documentsIn form qs
termination_by structural qs => qs

end

def document (q : Query String) : Value :=
  q.documentIn .plain

theorem documentsIn_eq_map (form : KeyForm κ) (qs : List (Query κ)) :
    documentsIn form qs = qs.map (documentIn form) := by
  induction qs with
  | nil => rfl
  | cons q qs ih => simp [documentsIn, ih]

end Query
end FilterQuery
