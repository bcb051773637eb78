import FilterQuery.Value.Spelling

/-!
# Targets

A target names a place in a document by a path of at least one segment. The first segment is its
field, the one that policies speak about. Queries name the place by a dotted key, and a segment is
legal there when it has none of the characters that the query language gives a meaning to and no
two hyphens in a row.
-/

namespace FilterQuery

structure Target where
  head : Value
  tail : List Value
  deriving Inhabited

namespace Target

def path (t : Target) : List Value :=
  t.head :: t.tail

def toValue (t : Target) : Value :=
  .target t.head t.tail

/-- The top-level document field that the target points into. -/
def field (t : Target) : String :=
  t.head.text

def pointer (t : Target) : String :=
  String.ofList (Value.pointerChars t.path)

def segmentTexts (t : Target) : List String :=
  t.path.map Value.text

def key (t : Target) : String :=
  String.ofList (['.'].intercalate (t.segmentTexts.map String.toList))

def forbiddenChars : List Char :=
  ['"', '{', '}', ';', ',', '[', ']', ':', '(', ')', '\'', '*', '>', '#', '~', '@', '&', '%', '?',
    '\x60']

def hasDoubleHyphen : List Char → Bool
  | '-' :: '-' :: _ => true
  | _ :: cs => hasDoubleHyphen cs
  | [] => false

def isLegalSegment (cs : List Char) : Bool :=
  !cs.any forbiddenChars.contains && !hasDoubleHyphen cs

def isLegal (t : Target) : Bool :=
  t.segmentTexts.all fun s => isLegalSegment s.toList

theorem segmentTexts_eq_cons (t : Target) :
    t.segmentTexts = t.field :: t.tail.map Value.text := rfl

end Target

namespace Value

def target? : Value → Option Target
  | target head tail => some ⟨head, tail⟩
  | _ => none

@[simp] theorem target?_toValue (t : Target) : t.toValue.target? = some t := rfl

theorem target?_eq_some_iff {v : Value} {t : Target} : v.target? = some t ↔ v = t.toValue := by
  constructor
  · intro h
    cases v <;> simp only [target?, Option.some.injEq, reduceCtorEq] at h
    subst h
    rfl
  · rintro rfl
    rfl

end Value
end FilterQuery
