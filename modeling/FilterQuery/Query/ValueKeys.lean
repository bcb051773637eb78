import FilterQuery.Query.Document
import FilterQuery.Value.Members

/-!
# Queries on values as keys

A query can be asked for with any value as its key. The name of an entry is always a text: a string
gives itself and a number, a truth value or null its literal. Only a value that cannot change can
name an entry, and only a writable one can stand in a script.
-/

namespace FilterQuery

namespace Value

/-- The name under which an entry with the value as its key is filed. -/
def entryName (v : Value) : String :=
  match v with
  | null => "null"
  | bool b => if b then "true" else "false"
  | v => v.string?.getD v.text

end Value

/-- Values as keys: any value can stand as a value and inside a script. -/
def KeyForm.ofValue : KeyForm Value :=
  ⟨Value.entryName, id, Value.text⟩

namespace Query

/-- The key that names an entry of the query's document. -/
def entryKey? {κ : Type} : Query κ → Option κ
  | term key _ | range key _ | terms key _ | regexp key _ => some key
  | not query => query.entryKey?
  | _ => none

def scriptKeys {κ : Type} : Query κ → List κ
  | compareFields subject _ object => [subject, object]
  | not query => query.scriptKeys
  | _ => []

def documentOfValueKeys (q : Query Value) : Except Fault Value := do
  q.entryKey?.forM Value.requireFixed
  q.scriptKeys.forM Value.requireWritable
  return q.documentIn .ofValue

end Query
end FilterQuery
