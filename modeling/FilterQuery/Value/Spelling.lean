import FilterQuery.Pointer
import FilterQuery.Text.Quoted
import FilterQuery.Value.Basic

/-!
# The text of values

A value has two texts. Its spelling shows how it was put together, with strings in quotation marks,
and appears in messages. Its plain text names it inside a path or a pattern: a string is itself, a
target is its pointer, an operator or conjunction is its label, and every other value is spelled.

Both texts show every number among the parts of the value, and a number that has too many digits
cannot be written. Whoever needs a text has to ask first whether the value is writable.
-/

namespace FilterQuery

namespace Text

def commaSeparated (parts : List String) : String :=
  String.intercalate ", " parts

def bracketed (parts : List String) : String :=
  "[" ++ commaSeparated parts ++ "]"

def braced (parts : List String) : String :=
  "\x7b" ++ commaSeparated parts ++ "\x7d"

/-- A single part in parentheses keeps its comma, so that it is not taken for a mere grouping. -/
def parenthesized : List String → String
  | [part] => "(" ++ part ++ ",)"
  | parts => "(" ++ commaSeparated parts ++ ")"

/-- The empty set has no braces: those would be an empty mapping. -/
def spelledSet : List String → String
  | [] => "set()"
  | parts => braced parts

def spelledSealedSet : List String → String
  | [] => "frozenset()"
  | parts => "frozenset(" ++ braced parts ++ ")"

end Text

namespace Policy

/-- The three settings with their values, in the order in which a policy shows them. -/
def settingTexts (p : Policy) : List String :=
  ["allow=" ++ Text.spelledSealedSet (p.allow.map Text.quote),
    "deny=" ++ Text.spelledSealedSet (p.deny.map Text.quote),
    "require=" ++ Text.parenthesized (p.require.map Text.quote)]

def spelling (p : Policy) : String :=
  "FieldPolicy(" ++ Text.commaSeparated p.settingTexts ++ ")"

def text (p : Policy) : String :=
  String.intercalate " " p.settingTexts

end Policy

namespace Operator

def text (op : Operator) : String :=
  "FilterOperator." ++ op.label

def spelling (op : Operator) : String :=
  "<" ++ op.text ++ ": " ++ Text.quote op.name ++ ">"

end Operator

namespace Conjunction

def text (c : Conjunction) : String :=
  "Conjunction." ++ c.label

def spelling (c : Conjunction) : String :=
  "<" ++ c.text ++ ": " ++ Text.quote c.name ++ ">"

end Conjunction

namespace Value

mutual

def spelling : Value → String
  | null => "None"
  | bool b => if b then "True" else "False"
  | int n => toString n
  | float text => text
  | string s => Text.quote s
  | operator op => op.spelling
  | conjunction c => c.spelling
  | list items => Text.bracketed (spellings items)
  | tuple items => Text.parenthesized (spellings items)
  | set members => Text.spelledSet (spellings members)
  | sealedSet members => Text.spelledSealedSet (spellings members)
  | mapping entries => Text.braced (entrySpellings entries)
  | target head tail =>
      "Target(path=" ++ Text.parenthesized (head.spelling :: spellings tail) ++ ")"
  | range lower upper => "Range(lower=" ++ lower.spelling ++ ", upper=" ++ upper.spelling ++ ")"
  | like pattern => "Like(value=" ++ pattern.spelling ++ ")"
  | clause subject op object =>
      "Clause(subject=" ++ subject.spelling ++ ", operator=" ++ op.spelling ++ ", object=" ++
        object.spelling ++ ")"
  | statement value conj =>
      "Statement(value=" ++ value.spelling ++ ", conjunction=" ++ conj.spelling ++ ")"
  | filter statements => "Filter(statements=" ++ Text.parenthesized (spellings statements) ++ ")"
  | policy p => p.spelling

def spellings : List Value → List String
  | [] => []
  | v :: vs => v.spelling :: spellings vs

def entrySpellings : List (String × Value) → List String
  | [] => []
  | (key, v) :: entries => (Text.quote key ++ ": " ++ v.spelling) :: entrySpellings entries

end

mutual

def text : Value → String
  | string s => s
  | operator op => op.text
  | conjunction c => c.text
  | policy p => p.text
  | target head tail =>
      String.ofList ('/' :: Pointer.escape head.text.toList ++ pointerChars tail)
  | v => v.spelling

def pointerChars : List Value → List Char
  | [] => []
  | v :: vs => '/' :: Pointer.escape v.text.toList ++ pointerChars vs

end

mutual

/-- The numbers among the parts of a value. -/
def numbers : Value → List Int
  | int n => [n]
  | list items | tuple items | set items | sealedSet items | filter items => numbersOf items
  | mapping entries => entryNumbers entries
  | target head tail => head.numbers ++ numbersOf tail
  | range lower upper => lower.numbers ++ upper.numbers
  | like pattern => pattern.numbers
  | clause subject op object => subject.numbers ++ op.numbers ++ object.numbers
  | statement value conj => value.numbers ++ conj.numbers
  | _ => []

def numbersOf : List Value → List Int
  | [] => []
  | v :: vs => v.numbers ++ numbersOf vs

def entryNumbers : List (String × Value) → List Int
  | [] => []
  | (_, v) :: entries => v.numbers ++ entryNumbers entries

end

/-- Whether the texts of a value can be written. -/
def isWritable (v : Value) : Bool :=
  v.numbers.all fun n => (Nat.toDigits 10 n.natAbs).length ≤ maxDigits

theorem pointerChars_eq_flatMap (vs : List Value) :
    pointerChars vs = vs.flatMap fun v => '/' :: Pointer.escape v.text.toList := by
  induction vs with
  | nil => rfl
  | cons v vs ih => simp [pointerChars, ih]

end Value
end FilterQuery
