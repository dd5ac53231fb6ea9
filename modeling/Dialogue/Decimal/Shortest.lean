import Dialogue.Decimal.Binary64
/-!
# The fewest digits that read back

Every double has an interval of reals that round to it: half-way to the neighbour below,
half-way to the neighbour above, the two ends included when the mantissa is even. The text
of a double is the decimal with the fewest digits inside that interval, and of those the
one closest to the double.

The search goes grid by grid. On the grid of `n` significant digits only the two points
around the double can be candidates: if any point of the grid lies in the interval, so does
one of these two.
-/

namespace Dialogue

namespace Binary64

/-- A decimal number: its digits, the first of them standing before the point, and the power of
ten of that first digit. -/
structure Decimal where
  digits : List Char
  exponent : Int
  deriving DecidableEq, Repr, Inhabited

/-! ### The interval of a positive double -/

/-- The double and the two ends of its interval, in units of `2 ^ (exponent - 2)`. The interval is
narrower below a power of two, where the doubles underneath are twice as dense. -/
def interval (x : Binary64) : Nat × Nat × Nat :=
  let v := 4 * x.mantissa
  let below :=
    if x.mantissa = Nat.pow 2 (mantissaBits - 1) ∧ leastExponent < x.exponent then 1 else 2
  (v - below, v, v + 2)

/-- A whole number of units of `2 ^ e` as a fraction. -/
def unitFraction (n : Nat) (e : Int) : Nat × Nat :=
  if 0 ≤ e then (n * Nat.pow 2 e.toNat, 1) else (n, Nat.pow 2 (-e).toNat)

/-- Does `num / den` reach `10 ^ e`? -/
def reachesTen (num den : Nat) (e : Int) : Bool :=
  if 0 ≤ e then den * Nat.pow 10 e.toNat ≤ num else den ≤ num * Nat.pow 10 (-e).toNat

/-- The power of ten of the leading digit of a positive fraction. The lengths of numerator and
denominator give it up to one. -/
def leadingTen (num den : Nat) : Int :=
  let guess : Int := ((Nat.toDigits 10 num).length : Int) - ((Nat.toDigits 10 den).length : Int)
  if reachesTen num den guess then guess else guess - 1

/-- Is the grid point `k · 10 ^ e` inside the interval from `lo` to `hi` (in units of `2 ^ u`)? -/
def inside (lo hi : Nat) (u : Int) (closed : Bool) (k : Nat) (e : Int) : Bool :=
  -- compare k · 10^e with lo · 2^u and hi · 2^u over common factors
  let (p, q) := if 0 ≤ e then (k * Nat.pow 10 e.toNat, 1) else (k, Nat.pow 10 (-e).toNat)
  let (l, d) := unitFraction lo u
  let (h, _) := unitFraction hi u
  if closed then l * q ≤ p * d && p * d ≤ h * q else l * q < p * d && p * d < h * q

/-- The point of the grid of spacing `10 ^ e` that stands for the double, if one does: the nearer of
the two candidates inside the interval, and of two equally near the even one. -/
def onGrid (x : Binary64) (e : Int) : Option Nat :=
  let (lo, v, hi) := x.interval
  let u := x.exponent - 2
  let closed := x.mantissa % 2 = 0
  let (num, den) := unitFraction v u
  -- v / 10^e
  let (n, d) :=
    if 0 ≤ e then (num, den * Nat.pow 10 e.toNat) else (num * Nat.pow 10 (-e).toNat, den)
  let k := n / d
  let r := n % d
  let low := inside lo hi u closed k e
  let high := inside lo hi u closed (k + 1) e
  match low, high with
  | false, false => none
  | true, false => some k
  | false, true => some (k + 1)
  | true, true =>
    if 2 * r < d then some k else if d < 2 * r then some (k + 1) else some (k + k % 2)

/-- The first grid, from `n` digits on, that holds a point of the interval. Seventeen digits always
suffice, so the search is given that many tries. -/
def search (x : Binary64) (lead : Int) : Nat → Nat → Option (Nat × Int)
  | 0, _ => none
  | tries + 1, n =>
    let e := lead - (n : Int) + 1
    match x.onGrid e with
    | some k => some (k, e)
    | none => search x lead tries (n + 1)

/-- Drops the zeros at the end of a digit list, but not the last digit left. -/
def trimZeros (digits : List Char) : List Char :=
  match (digits.reverse.dropWhile (· = '0')).reverse with
  | [] => ['0']
  | ds => ds

/-- The shortest decimal of the absolute value. -/
def shortest (x : Binary64) : Decimal :=
  if x.isZero then ⟨['0'], 0⟩
  else
    let (_, v, _) := x.interval
    let (num, den) := unitFraction v (x.exponent - 2)
    match x.search (leadingTen num den) 17 1 with
    | none => ⟨['0'], 0⟩
    | some (k, e) =>
      let ds := Nat.toDigits 10 k
      ⟨trimZeros ds, e + (ds.length : Int) - 1⟩

end Binary64

/-! ### Writing a decimal -/

/-- How a number is laid out: between which powers of ten of the leading digit it is written with
a plain point. Outside them it has one digit before the point and a signed exponent. -/
structure NumberFormat where
  leastPlain : Int
  greatestPlain : Int
  deriving Repr

/-- Numbers in documents are plain from `0.00001` up to sixteen digits before the point. -/
def documentNumbers : NumberFormat := ⟨-5, 15⟩

/-- Plain notation: at least one digit on each side of the point. -/
def plainText (d : Binary64.Decimal) : String :=
  if d.exponent < 0 then
    "0." ++ String.ofList (List.replicate ((-d.exponent).toNat - 1) '0' ++ d.digits)
  else
    let whole := d.exponent.toNat + 1
    if d.digits.length ≤ whole then
      String.ofList (d.digits ++ List.replicate (whole - d.digits.length) '0') ++ ".0"
    else
      String.ofList (d.digits.take whole) ++ "." ++ String.ofList (d.digits.drop whole)

/-- Exponent notation: one digit before the point, no point without a digit after it. -/
def exponentText (d : Binary64.Decimal) : String :=
  let mantissa := match d.digits with
    | [] => "0"
    | [c] => String.ofList [c]
    | c :: cs => String.ofList (c :: '.' :: cs)
  let sign := if d.exponent < 0 then "-" else "+"
  mantissa ++ "e" ++ sign ++ toString d.exponent.natAbs

/-- The text of a double in the given layout. -/
def NumberFormat.text (f : NumberFormat) (x : Binary64) : String :=
  let d := x.shortest
  let body := if f.leastPlain ≤ d.exponent ∧ d.exponent ≤ f.greatestPlain then plainText d
    else exponentText d
  if x.negative then "-" ++ body else body

end Dialogue
