import FilterQuery.Fault

/-!
# Reading targets

A target is made from a JSON pointer, from a single segment or from a path of segments. In a
pointer, segments that are indices become numbers and all others keep their unescaped text.
-/

namespace FilterQuery
namespace Pointer

def unescapeSegment (raw : String) : Except Fault String :=
  match unescape? raw.toList with
  | some cs => .ok (String.ofList cs)
  | none => .error (.badValue (.badEscape raw))

/-- The segment that an unescaped text stands for: the number, if it is an index. -/
def ofText (text : String) : Except Fault Value :=
  if isIndex text.toList then
    if text.length ≤ maxDigits then .ok (.int (indexValue text.toList))
    else .error (.badValue (.indexTooLong text.length))
  else .ok (.string text)

def readSegment (raw : List Char) : Except Fault Value := do
  ofText (← unescapeSegment (String.ofList raw))

end Pointer

namespace Target

def ofPath : List Value → Except Fault Target
  | [] => .error (.badValue .emptyPath)
  | head :: tail => .ok ⟨head, tail⟩

/-- Reads a pointer segment by segment from the left; the first one that cannot be read decides. -/
def ofPointer (pointer : String) : Except Fault Target :=
  match pointer.toList with
  | '/' :: cs => do ofPath (← (Pointer.segments cs).mapM Pointer.readSegment)
  | _ => .error (.badValue (.missingSlash pointer))

/-- The path that a value yields when it is run through. -/
def ofElements (v : Value) : Except Fault Target :=
  match v.elements? with
  | some path => ofPath path
  | none => .error (.badKind (.notIterable v))

/-- A string, a number or a truth value is a path of one segment; any other value is run through. -/
def ofValue (v : Value) : Except Fault Target :=
  match v with
  | .string _ | .operator _ | .conjunction _ | .int _ | .bool _ => .ok ⟨v, []⟩
  | v => ofElements v

/-- Takes a target as it is, a string that starts with a slash as a pointer and any other string
as the name of a field; any other value is run through. -/
def coerce (v : Value) : Except Fault Target :=
  match v with
  | .target head tail => .ok ⟨head, tail⟩
  | .string s => if s.toList.head? = some '/' then ofPointer s else .ok ⟨v, []⟩
  | .operator _ | .conjunction _ => .ok ⟨v, []⟩
  | v => ofElements v

end Target
end FilterQuery
