/-!
# Sets of characters

A `CharSet` is a list of ranges of code points, both ends included. The operations keep the
ranges in order and apart (`CharSet.normalize`), so a complement can be read off the gaps.

Tables of standard properties are written as *stretches*: the lengths, in hexadecimal, of
alternating runs of code points outside and inside the set, starting outside at zero.
-/

namespace Dialogue

/-- The greatest code point. -/
def greatestCodePoint : Nat := 0x10FFFF

/-- A set of code points as a list of ranges, both ends included. -/
structure CharSet where
  ranges : List (Nat × Nat)
  deriving DecidableEq, Repr, Inhabited

namespace CharSet

/-- The set without members. -/
def empty : CharSet := ⟨[]⟩

/-- The set of all code points. -/
def full : CharSet := ⟨[(0, greatestCodePoint)]⟩

/-- The range from `lo` to `hi`. -/
def range (lo hi : Nat) : CharSet := ⟨[(lo, hi)]⟩

/-- The range between two characters. -/
def span (lo hi : Char) : CharSet := range lo.toNat hi.toNat

/-- The set of one character. -/
def single (c : Char) : CharSet := span c c

/-- Is the code point in the set? -/
def contains (s : CharSet) (n : Nat) : Bool := s.ranges.any fun r => r.1 ≤ n && n ≤ r.2

/-- Is the character in the set? -/
def mem (s : CharSet) (c : Char) : Bool := s.contains c.toNat

/-- Adds a range to a list of ranges in reverse order, none of which starts after it. -/
def absorb (done : List (Nat × Nat)) (r : Nat × Nat) : List (Nat × Nat) :=
  match done with
  | [] => [r]
  | s :: ss => if r.1 ≤ s.2 + 1 then (s.1, max s.2 r.2) :: ss else r :: s :: ss

/-- Orders the ranges by lower ends and merges those that touch, dropping empty ones. -/
def normalize (s : CharSet) : CharSet :=
  let ordered := (s.ranges.filter fun r => r.1 ≤ r.2).mergeSort fun a b => a.1 ≤ b.1
  ⟨(ordered.foldl absorb []).reverse⟩

/-- Members of either set. -/
def union (s t : CharSet) : CharSet := normalize ⟨s.ranges ++ t.ranges⟩

/-- The gaps of an ordered list of ranges, from `start` on. -/
def gaps (start : Nat) : List (Nat × Nat) → List (Nat × Nat)
  | [] => if start ≤ greatestCodePoint then [(start, greatestCodePoint)] else []
  | r :: rest =>
    if start < r.1 then (start, r.1 - 1) :: gaps (r.2 + 1) rest else gaps (r.2 + 1) rest

/-- Everything that is not a member. -/
def complement (s : CharSet) : CharSet := ⟨gaps 0 s.normalize.ranges⟩

/-- Members of both sets. -/
def inter (s t : CharSet) : CharSet := (s.complement.union t.complement).complement

/-- Members of the first set that are not in the second. -/
def diff (s t : CharSet) : CharSet := s.inter t.complement

/-- Members of exactly one of the sets. -/
def symmDiff (s t : CharSet) : CharSet := (s.union t).diff (s.inter t)

/-- Members of any of the sets. -/
def unions (sets : List CharSet) : CharSet := normalize ⟨sets.flatMap (·.ranges)⟩

/-- Are all members ASCII? -/
def isAscii (s : CharSet) : Bool := s.ranges.all fun r => r.2 < 128

/-! ### Reading tables -/

/-- The value of a hexadecimal digit; other characters count as zero. -/
def hexDigitValue (c : Char) : Nat :=
  if c.isDigit then c.toNat - '0'.toNat
  else if 'A' ≤ c ∧ c ≤ 'F' then c.toNat - 'A'.toNat + 10
  else 0

/-- The value of a hexadecimal number. -/
def hexValue (cs : List Char) : Nat := cs.foldl (fun n c => 16 * n + hexDigitValue c) 0

/-- The words among some characters, with spaces between them. The first word goes on with what was
read of it, the last character first. -/
def wordsOf (read : List Char) : List Char → List (List Char)
  | [] => if read.isEmpty then [] else [read.reverse]
  | c :: cs =>
    if c = ' ' then
      if read.isEmpty then wordsOf [] cs else read.reverse :: wordsOf [] cs
    else wordsOf (c :: read) cs

/-- The words of a table, which is a list of lines. -/
def words (table : List String) : List (List Char) :=
  table.flatMap fun line => wordsOf [] line.toList

/-- Reads alternating stretches outside and inside a set. -/
def ofLengths (start : Nat) : List Nat → List (Nat × Nat)
  | out :: len :: rest => (start + out, start + out + len - 1) :: ofLengths (start + out + len) rest
  | _ => []

/-- The set written as stretches. -/
def ofStretches (table : List String) : CharSet := ⟨ofLengths 0 ((words table).map hexValue)⟩

end CharSet

end Dialogue
