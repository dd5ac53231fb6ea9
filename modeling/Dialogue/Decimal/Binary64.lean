/-!
# Finite binary64 numbers, exactly

A `Binary64` is a finite double written as a sign, a whole mantissa and a power of two:

    ± mantissa · 2 ^ exponent

All arithmetic here is on natural numbers, so nothing is lost to a machine float. The
only rounding is `Binary64.nearest?`, which sends a fraction to the closest double, a
half going to the even mantissa, and answers `none` beyond the largest double. Products
and quotients are the exact fraction followed by that one rounding.
-/

namespace Dialogue

/-- A finite double. The values built here have a mantissa below `2 ^ 53`, an exponent of at
least `-1074`, and a mantissa below `2 ^ 52` only at that least exponent. -/
structure Binary64 where
  negative : Bool
  mantissa : Nat
  exponent : Int
  deriving DecidableEq, Repr, Inhabited

namespace Binary64

/-- Mantissas have at most this many bits. -/
def mantissaBits : Nat := 53

/-- The least exponent: subnormal numbers and zero stand there. -/
def leastExponent : Int := -1074

/-- The greatest exponent of a finite double. -/
def greatestExponent : Int := 971

/-- Zero of the given sign. -/
def zero (negative : Bool) : Binary64 := ⟨negative, 0, leastExponent⟩

/-- Is this one of the two zeros? -/
def isZero (x : Binary64) : Bool := x.mantissa == 0

/-- The same number with the other sign. -/
def neg (x : Binary64) : Binary64 := { x with negative := !x.negative }

/-- The absolute value as a fraction: numerator and (positive) denominator. -/
def magnitude (x : Binary64) : Nat × Nat :=
  if 0 ≤ x.exponent then (x.mantissa * Nat.pow 2 x.exponent.toNat, 1)
  else (x.mantissa, Nat.pow 2 (-x.exponent).toNat)

/-! ### Rounding a fraction -/

/-- `num / den` to the nearest whole number, a half going to the even neighbour. -/
def roundDiv (num den : Nat) : Nat :=
  let q := num / den
  let r := num % den
  if 2 * r < den then q
  else if den < 2 * r then q + 1
  else q + q % 2

/-- The fraction `num / den` measured in units of `2 ^ e`, rounded to a whole number. -/
def scaled (num den : Nat) (e : Int) : Nat :=
  if 0 ≤ e then roundDiv num (den * Nat.pow 2 e.toNat)
  else roundDiv (num * Nat.pow 2 (-e).toNat) den

/-- Does `num / den` reach `2 ^ e`? -/
def reaches (num den : Nat) (e : Int) : Bool :=
  if 0 ≤ e then den * Nat.pow 2 e.toNat ≤ num else den ≤ num * Nat.pow 2 (-e).toNat

/-- The exponent of the leading binary digit of a positive fraction. The bit lengths give it up
to one, and one comparison settles it. -/
def leadingBit (num den : Nat) : Int :=
  let guess : Int := (num.log2 : Int) - (den.log2 : Int)
  if reaches num den guess then guess else guess - 1

/-- The double closest to `± num / den`, for a positive `den`; `none` when it is out of range. -/
def nearest? (negative : Bool) (num den : Nat) : Option Binary64 :=
  if num = 0 then some (zero negative)
  else
    let e := max (leadingBit num den - (mantissaBits - 1 : Nat)) leastExponent
    let m := scaled num den e
    let x : Binary64 :=
      if m = Nat.pow 2 mantissaBits then ⟨negative, Nat.pow 2 (mantissaBits - 1), e + 1⟩
      else ⟨negative, m, e⟩
    if greatestExponent < x.exponent then none else some x

/-- The double closest to an integer of at most 64 bits; larger ones may be out of range. -/
def ofInt? (n : Int) : Option Binary64 := nearest? (n < 0) n.natAbs 1

/-! ### Scaling by powers of ten -/

/-- The double closest to `10 ^ k`. -/
def tenPow? (k : Nat) : Option Binary64 := nearest? false (Nat.pow 10 k) 1

/-- The rounded product with a positive number. -/
def mul? (x y : Binary64) : Option Binary64 :=
  let (a, b) := x.magnitude
  let (c, d) := y.magnitude
  nearest? x.negative (a * c) (b * d)

/-- The rounded quotient by a positive number. -/
def div? (x y : Binary64) : Option Binary64 :=
  let (a, b) := x.magnitude
  let (c, d) := y.magnitude
  nearest? x.negative (a * d) (b * c)

end Binary64

end Dialogue
