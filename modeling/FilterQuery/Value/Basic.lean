import FilterQuery.Operator
import FilterQuery.Policy.Basic

/-!
# Values

Filters are assembled from values of any kind, and whether a value is fit for its place is found
out only when the filter is converted. So clauses, statements and filters are values themselves,
next to the literals that they compare. A target is a path with at least one segment, and its
segments may again be any values.
-/

namespace FilterQuery

inductive Value where
  | null
  | bool (b : Bool)
  | int (n : Int)
  /-- A floating-point number, kept as its shortest text. -/
  | float (text : String)
  | string (s : String)
  | operator (op : Operator)
  | conjunction (c : Conjunction)
  | list (items : List Value)
  | tuple (items : List Value)
  | set (members : List Value)
  /-- A set that cannot change. -/
  | sealedSet (members : List Value)
  | mapping (entries : List (String × Value))
  | target (head : Value) (tail : List Value)
  | range (lower upper : Value)
  | like (pattern : Value)
  | clause (subject operator object : Value)
  | statement (value conjunction : Value)
  | filter (statements : List Value)
  | policy (p : Policy)
  deriving Inhabited

/-- A text, or an operator or a conjunction that counts as the text of its name. -/
inductive Name where
  | plain (s : String)
  | operator (op : Operator)
  | conjunction (c : Conjunction)
  deriving DecidableEq, Repr, Inhabited

namespace Name

def text : Name → String
  | plain s => s
  | operator op => op.name
  | conjunction c => c.name

def toValue : Name → Value
  | plain s => .string s
  | operator op => .operator op
  | conjunction c => .conjunction c

end Name

namespace Value

/-- The kind of a value, as messages name it. -/
def kind : Value → String
  | null => "NoneType"
  | bool _ => "bool"
  | int _ => "int"
  | float _ => "float"
  | string _ => "str"
  | operator _ => "FilterOperator"
  | conjunction _ => "Conjunction"
  | list _ => "list"
  | tuple _ => "tuple"
  | set _ => "set"
  | sealedSet _ => "frozenset"
  | mapping _ => "dict"
  | target .. => "Target"
  | range .. => "Range"
  | like _ => "Like"
  | clause .. => "Clause"
  | statement .. => "Statement"
  | filter _ => "Filter"
  | policy _ => "FieldPolicy"

/-- A value that counts as a string, as a name. -/
def name? : Value → Option Name
  | string s => some (.plain s)
  | operator op => some (.operator op)
  | conjunction c => some (.conjunction c)
  | _ => none

def string? (v : Value) : Option String :=
  v.name?.map Name.text

/-- The operator a value stands for, given itself or by name. -/
def operator? : Value → Option Operator
  | operator op => some op
  | string s => Operator.ofName? s
  | _ => none

/-- The conjunction a value stands for, given itself or by name. -/
def conjunction? : Value → Option Conjunction
  | conjunction c => some c
  | string s => Conjunction.ofName? s
  | _ => none

def ofNames (names : List String) : List Value :=
  names.map string

def ofChars (s : String) : List Value :=
  s.toList.map fun c => string (String.singleton c)

/-- What a value yields when it is run through: members, the keys of a mapping, the statements of
a filter, the characters of a text, and the settings of a policy as pairs. -/
def elements? : Value → Option (List Value)
  | list items | tuple items | set items | sealedSet items | filter items => some items
  | mapping entries => some (ofNames (entries.map (·.1)))
  | policy p => some
      [tuple [string "allow", sealedSet (ofNames p.allow)],
        tuple [string "deny", sealedSet (ofNames p.deny)],
        tuple [string "require", tuple (ofNames p.require)]]
  | v => v.string?.map ofChars

@[simp] theorem operator?_string_name (op : Operator) :
    (string op.name).operator? = some op :=
  Operator.ofName?_name op

@[simp] theorem conjunction?_string_name (c : Conjunction) :
    (string c.name).conjunction? = some c :=
  Conjunction.ofName?_name c

end Value
end FilterQuery
