/-!
# Natural numbers in decimal digits

A natural number is written with digits, perhaps behind a plus sign. A number of more than 64 bits
is none.
-/

namespace Dialogue.Natural

/-- The value of a digit. -/
def digit? (c : Char) : Option Nat := if c.isDigit then some (c.toNat - '0'.toNat) else none

/-- The number that goes on with the given digits. -/
def digits? (n : Nat) : List Char → Option Nat
  | [] => some n
  | c :: cs => (digit? c).bind fun d => digits? (10 * n + d) cs

/-- The digits of a written number, without the sign. -/
def unsigned : List Char → List Char
  | '+' :: cs => cs
  | cs => cs

/-- The number that a text writes. -/
def read? (s : String) : Option Nat :=
  let cs := unsigned s.toList
  if cs.isEmpty then none else (digits? 0 cs).filter (· < Nat.pow 2 64)

end Dialogue.Natural
