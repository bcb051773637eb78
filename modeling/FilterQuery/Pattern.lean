/-!
# Wildcard patterns

In a pattern the star stands for any run of characters and the underscore for exactly one. A
backslash makes the next character literal, and one at the end is itself literal. A pattern is
rendered as a regular expression from left to right, with the characters escaped that have a meaning
there. The expression has anchors at both ends; where it has to match a whole text anyway, it goes
without them.
-/

namespace FilterQuery
namespace Pattern

def reservedChars : List Char :=
  ['.', '?', '+', '*', '|', '{', '}', '[', ']', '(', ')', '"', '\\', '#', '@', '&', '<', '>', '~',
    '^', '$']

/-- A character that stands for itself. -/
def renderLiteral (c : Char) : List Char :=
  if c ∈ reservedChars then ['\\', c] else [c]

/-- What a character renders to, and whether it makes the next one literal. It may itself have been
made literal by the one before it. -/
def step (escaped : Bool) (c : Char) : List Char × Bool :=
  if escaped then (renderLiteral c, false)
  else if c = '\\' then ([], true)
  else if c = '*' then (['.', '*'], false)
  else if c = '_' then (['.', '{', '1', '}'], false)
  else (renderLiteral c, false)

def renderFrom (escaped : Bool) : List Char → List Char
  | [] => if escaped then renderLiteral '\\' else []
  | c :: cs => (step escaped c).1 ++ renderFrom (step escaped c).2 cs

def anchored (pattern : String) : String :=
  String.ofList ('^' :: renderFrom false pattern.toList ++ ['$'])

/-- Takes an anchor away from either end, if there is one. -/
def dropAnchors (regex : List Char) : List Char :=
  let rest := if regex.head? = some '^' then regex.tail else regex
  if rest.getLast? = some '$' then rest.dropLast else rest

def regexp (pattern : String) : String :=
  String.ofList (dropAnchors (anchored pattern).toList)

theorem step_of_plain {c : Char} (notBackslash : c ≠ '\\') (notStar : c ≠ '*')
    (notUnderscore : c ≠ '_') : step false c = (renderLiteral c, false) := by
  simp [step, notBackslash, notStar, notUnderscore]

/-- Only the two anchors go; an escaped one before the second stays. -/
theorem dropAnchors_anchored (cs : List Char) : dropAnchors ('^' :: cs ++ ['$']) = cs := by
  simp [dropAnchors]

theorem regexp_eq_renderFrom (pattern : String) :
    regexp pattern = String.ofList (renderFrom false pattern.toList) := by
  rw [regexp, anchored, String.toList_ofList, dropAnchors_anchored]

end Pattern
end FilterQuery
