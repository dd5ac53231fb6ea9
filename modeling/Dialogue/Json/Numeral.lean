import Dialogue.Json.Value
/-!
# The value of a written number

A numeral is split into its parts by `Numeral.parse?` and valued by `Numeral.value`. Its digits
are gathered into a significand of 64 bits; what does not fit any more only counts as a power of
ten. A numeral without point and exponent that fits 64 bits is a whole number, and everything
else is the significand as a double, scaled by one power of ten.
-/

namespace Dialogue

/-- The parts of a written number: its digits before and after the point and its exponent. -/
structure Numeral where
  negative : Bool
  whole : List Char
  fraction : Option (List Char)
  exponent : Option (Bool × List Char)
  deriving Repr, DecidableEq

namespace Numeral

/-! ### Splitting -/

/-- The digits at the front, at least one, and what follows them. -/
def digits? (cs : List Char) : Option (List Char × List Char) :=
  match cs.takeWhile Char.isDigit with
  | [] => none
  | ds => some (ds, cs.dropWhile Char.isDigit)

/-- The digits before the point: a single zero, or digits that start with another one. -/
def whole? (cs : List Char) : Option (List Char × List Char) :=
  match digits? cs with
  | some ('0' :: _ :: _, _) => none
  | r => r

/-- The digits after a point, when there is a point. -/
def fraction? : List Char → Option (Option (List Char) × List Char)
  | '.' :: cs => (digits? cs).map fun (ds, rest) => (some ds, rest)
  | cs => some (none, cs)

/-- The sign of an exponent (does it point up?) and what follows it. -/
def exponentSign : List Char → Bool × List Char
  | '-' :: cs => (false, cs)
  | '+' :: cs => (true, cs)
  | cs => (true, cs)

/-- The exponent, when there is one. -/
def exponent? : List Char → Option (Option (Bool × List Char) × List Char)
  | [] => some (none, [])
  | c :: cs =>
    if c = 'e' ∨ c = 'E' then
      let (up, cs) := exponentSign cs
      (digits? cs).map fun (ds, rest) => (some (up, ds), rest)
    else some (none, c :: cs)

/-- The sign of the number and what follows it. -/
def sign : List Char → Bool × List Char
  | '-' :: cs => (true, cs)
  | cs => (false, cs)

/-- Splits a numeral; `none` when the characters are not one. -/
def parse? (cs : List Char) : Option Numeral := do
  let (negative, cs) := sign cs
  let (whole, cs) ← whole? cs
  let (fraction, cs) ← fraction? cs
  let (exponent, cs) ← exponent? cs
  if cs.isEmpty then some ⟨negative, whole, fraction, exponent⟩ else none

/-! ### Gathering the significand -/

/-- The value of a decimal digit. -/
def digit (c : Char) : Nat := c.toNat - '0'.toNat

/-- The largest significand. -/
def greatest : Nat := Nat.pow 2 64 - 1

/-- Appends digits to a significand while it fits, and tells how many were left over. -/
def gather : Nat → List Char → Nat × Nat
  | n, [] => (n, 0)
  | n, c :: cs =>
    let n' := 10 * n + digit c
    if n' ≤ greatest then gather n' cs else (n, cs.length + 1)

/-- The value of a digit list. -/
def decimalValue (cs : List Char) : Nat := cs.foldl (fun n c => 10 * n + digit c) 0

/-- Exponents stay below this bound; a larger one makes any number vanish or overflow. -/
def exponentBound : Nat := Nat.pow 2 31 - 1

/-! ### Scaling -/

/-- The power of ten that is applied in one step. -/
def stepTen : Nat := 308

/-- A double times `10 ^ e`. A power within reach is applied at once; a smaller one is approached
in steps of `10 ^ 308` until the number vanishes. -/
def scale? (x : Binary64) (e : Int) : Option Binary64 :=
  if e.natAbs ≤ stepTen then do
    let p ← Binary64.tenPow? e.natAbs
    if 0 ≤ e then x.mul? p else x.div? p
  else if x.isZero then some x
  else if 0 ≤ e then none
  else do
    let p ← Binary64.tenPow? stepTen
    let y ← x.div? p
    scale? y (e + stepTen)
termination_by e.natAbs
decreasing_by simp_all [stepTen]; omega

/-- The double of a sign, a significand and a power of ten. -/
def real? (negative : Bool) (significand : Nat) (e : Int) : Option Number := do
  let x ← Binary64.ofInt? significand
  let y ← scale? x e
  some (.real (if negative then y.neg else y))

/-- The number of a significand and a decimal exponent, with the written exponent applied. -/
def withExponent? (negative : Bool) (significand : Nat) (start : Int) :
    Option (Bool × List Char) → Option Number
  | none => real? negative significand start
  | some (up, ds) =>
    let e := decimalValue ds
    if e ≤ exponentBound then real? negative significand (if up then start + e else start - e)
    else if up ∧ significand ≠ 0 then none
    else some (.real (Binary64.zero negative))

/-- A numeral without point and exponent, all of whose digits were gathered. -/
def integer? (negative : Bool) (n : Nat) : Option Number :=
  if ¬ negative then some (.int n)
  else if n = 0 ∨ Nat.pow 2 63 < n then real? true n 0
  else some (.int (-(n : Int)))

/-- The number that a numeral stands for; `none` when it is beyond the doubles. -/
def value (x : Numeral) : Option Number :=
  let (n, extra) := gather 0 x.whole
  match x.fraction, x.exponent with
  | none, none => if extra = 0 then integer? x.negative n else real? x.negative n extra
  | none, e => withExponent? x.negative n extra e
  | some ds, e =>
    let (n, left) := gather n ds
    withExponent? x.negative n ((extra : Int) - ((ds.length - left : Nat) : Int)) e

end Numeral

end Dialogue
