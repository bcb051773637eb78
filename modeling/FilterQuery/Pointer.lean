/-!
# JSON pointers

A pointer spells a path as segments that each follow a slash. Inside a segment the tilde is written
`~0` and the slash `~1`; a tilde followed by anything else is refused. A segment that is a decimal
numeral without leading zeros is an index.
-/

namespace FilterQuery

/-- A number of more decimal digits than this is neither read nor written. -/
def maxDigits : Nat := 4300

namespace Pointer

def escapeChar (c : Char) : List Char :=
  if c = '~' then ['~', '0']
  else if c = '/' then ['~', '1']
  else [c]

def escape (cs : List Char) : List Char :=
  cs.flatMap escapeChar

def unescape? : List Char → Option (List Char)
  | [] => some []
  | '~' :: '0' :: cs => (unescape? cs).map ('~' :: ·)
  | '~' :: '1' :: cs => (unescape? cs).map ('/' :: ·)
  | c :: cs => if c = '~' then none else (unescape? cs).map (c :: ·)

/-- The parts of a text between slashes; there is one more part than there are slashes. -/
def segments : List Char → List (List Char)
  | [] => [[]]
  | c :: cs => if c = '/' then [] :: segments cs else (segments cs).modifyHead (c :: ·)

/-- A numeral in ASCII digits without leading zeros. -/
def isIndex : List Char → Bool
  | [] => false
  | ['0'] => true
  | c :: cs => '1' ≤ c && c ≤ '9' && cs.all Char.isDigit

def indexValue (digits : List Char) : Nat :=
  Nat.ofDigitChars 10 digits 0

theorem escape_cons (c : Char) (cs : List Char) :
    escape (c :: cs) = escapeChar c ++ escape cs := rfl

theorem unescape?_escape (cs : List Char) : unescape? (escape cs) = some cs := by
  induction cs with
  | nil => rfl
  | cons c cs ih =>
    by_cases tilde : c = '~'
    · subst tilde
      simp [escape_cons, escapeChar, unescape?, ih]
    · by_cases slash : c = '/'
      · subst slash
        simp [escape_cons, escapeChar, unescape?, ih]
      · simp [escape_cons, escapeChar, unescape?, tilde, slash, ih]

theorem slash_notMem_escape (cs : List Char) : '/' ∉ escape cs := by
  induction cs with
  | nil => simp [escape]
  | cons c cs ih =>
    rw [escape_cons, List.mem_append, not_or]
    refine ⟨?_, ih⟩
    unfold escapeChar
    split
    · decide
    · split
      · decide
      · rename_i slash
        simpa using fun h => slash h.symm

theorem segments_ne_nil (cs : List Char) : segments cs ≠ [] := by
  induction cs with
  | nil => simp [segments]
  | cons c cs ih =>
    unfold segments
    split
    · simp
    · cases h : segments cs with
      | nil => exact absurd h ih
      | cons s ss => simp [List.modifyHead]

end Pointer
end FilterQuery
