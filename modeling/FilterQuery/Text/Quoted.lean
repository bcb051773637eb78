import FilterQuery.Text.Printable

/-!
# Quoted text

Messages show a text between quotation marks, on one line and without hidden characters. The mark
is the apostrophe unless the text holds apostrophes and no double quote. Inside, the mark and the
backslash are escaped, tab, newline and carriage return have short names, and any other hidden
character is written as its code point in hexadecimal.
-/

namespace FilterQuery
namespace Text

/-- Lower-case hexadecimal digits, padded with zeros on the left. -/
def hex (width n : Nat) : List Char :=
  (Nat.toDigits 16 n).leftpad width '0'

/-- The shortest of the two-, four- and eight-digit forms that holds the code point. -/
def codePoint (c : Char) : List Char :=
  if c.toNat < 0x100 then '\\' :: 'x' :: hex 2 c.toNat
  else if c.toNat < 0x10000 then '\\' :: 'u' :: hex 4 c.toNat
  else '\\' :: 'U' :: hex 8 c.toNat

def quotationMark (cs : List Char) : Char :=
  if cs.contains '\'' && !cs.contains '"' then '"' else '\''

def quoteChar (mark c : Char) : List Char :=
  if c = mark ∨ c = '\\' then ['\\', c]
  else if c = '\t' then ['\\', 't']
  else if c = '\n' then ['\\', 'n']
  else if c = '\r' then ['\\', 'r']
  else if isPrintable c then [c]
  else codePoint c

def quote (s : String) : String :=
  let mark := quotationMark s.toList
  String.ofList (mark :: s.toList.flatMap (quoteChar mark) ++ [mark])

end Text
end FilterQuery
