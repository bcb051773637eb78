import FilterQuery.Value.Basic

/-!
# Values as numbers

A truth value counts as one or zero. A floating-point number is kept as the shortest decimal that
reads back as it, so a text from a certain size on only approximates the number: its exact value is
the nearest one that 53 binary digits can express, and of two that are equally near the one with
the even last digit.
-/

namespace FilterQuery
namespace Decimal

/-- The nearest number with at most 53 significant binary digits, a tie going to the even one. -/
def roundBinary (n : Nat) : Nat :=
  let unit := Nat.pow 2 (n.log2 + 1 - 53)
  let quotient := n / unit
  let twice := 2 * (n % unit)
  if unit < twice ∨ (twice = unit ∧ quotient % 2 = 1) then (quotient + 1) * unit
  else quotient * unit

def natural (digits : List Char) : Nat :=
  Nat.ofDigitChars 10 digits 0

def exponent : List Char → Int
  | '-' :: digits => -(natural digits)
  | '+' :: digits => natural digits
  | digits => natural digits

/-- The value of an unsigned decimal, if it is one and has no fractional part. -/
def magnitude? (cs : List Char) : Option Nat :=
  let mantissa := cs.takeWhile (· ≠ 'e')
  let whole := mantissa.takeWhile (· ≠ '.')
  let fraction := (mantissa.dropWhile (· ≠ '.')).drop 1
  let scale := exponent ((cs.dropWhile (· ≠ 'e')).drop 1) - fraction.length
  let digits := whole ++ fraction
  if digits = [] ∨ !digits.all Char.isDigit then none
  else
    match scale with
    | .ofNat k => some (roundBinary (natural digits * Nat.pow 10 k))
    | .negSucc k =>
      let unit := Nat.pow 10 (k + 1)
      if natural digits % unit = 0 then some (roundBinary (natural digits / unit)) else none

/-- The integer that a floating-point text stands for, if it stands for one. -/
def integer? (text : String) : Option Int :=
  match text.toList with
  | '-' :: cs => (magnitude? cs).map fun n => -n
  | cs => (magnitude? cs).map fun n => n

end Decimal

namespace Value

/-- The integer that a value counts as. -/
def number? : Value → Option Int
  | bool b => some (if b then 1 else 0)
  | int n => some n
  | float text => Decimal.integer? text
  | _ => none

end Value
end FilterQuery
