import Dialogue.Text.Property
/-!
# Matching

An `Expr` is a pattern whose flags are settled. It is run on sets of positions: `Expr.ends` sends
the positions at which a match may start to those at which one may end, all at once. There is no
backtracking and no search, so every pattern is matched in time bounded by its size and the length
of the text, also when it repeats something that can be empty.

Positions are a list of booleans, one for each place between characters and at the two ends.
-/

namespace Dialogue.Pattern

/-- Conditions on a position, with their flags settled. -/
inductive Look where
  | start
  | finish
  | startLine
  | endLine
  | startLineCrlf
  | endLineCrlf
  | wordBoundary (unicode : Bool)
  | notWordBoundary (unicode : Bool)
  | wordStart (unicode : Bool)
  | wordEnd (unicode : Bool)
  | wordStartHalf (unicode : Bool)
  | wordEndHalf (unicode : Bool)
  deriving Repr, DecidableEq

/-- A pattern that can be run. -/
inductive Expr where
  | empty
  | chars (set : CharSet)
  | look (l : Look)
  | cat (a b : Expr)
  | alt (a b : Expr)
  | repetition (min : Nat) (max : Option Nat) (a : Expr)
  deriving Repr, Inhabited

/-! ### Conditions on a position -/

/-- The characters next to a position: the one before it and the one after it. -/
abbrev Context := Option Char × Option Char

/-- The contexts of all positions of a text, after the given character. -/
def contexts (before : Option Char) : List Char → List Context
  | [] => [(before, none)]
  | c :: cs => (before, some c) :: contexts (some c) cs

/-- Is the character part of a word? -/
def isWord (unicode : Bool) (c : Option Char) : Bool :=
  match c with
  | none => false
  | some c => if unicode then Property.word.mem c else c.isAlphanum || c = '_'

/-- Does the condition hold in the context? -/
def Look.holds (l : Look) (x : Context) : Bool :=
  match l with
  | .start => x.1.isNone
  | .finish => x.2.isNone
  | .startLine => x.1.isNone || x.1 = some '\n'
  | .endLine => x.2.isNone || x.2 = some '\n'
  | .startLineCrlf => x.1.isNone || x.1 = some '\n' || (x.1 = some '\r' && x.2 ≠ some '\n')
  | .endLineCrlf => x.2.isNone || x.2 = some '\r' || (x.2 = some '\n' && x.1 ≠ some '\r')
  | .wordBoundary u => isWord u x.1 != isWord u x.2
  | .notWordBoundary u => isWord u x.1 == isWord u x.2
  | .wordStart u => !isWord u x.1 && isWord u x.2
  | .wordEnd u => isWord u x.1 && !isWord u x.2
  | .wordStartHalf u => !isWord u x.1
  | .wordEndHalf u => !isWord u x.2

/-! ### Sets of positions -/

/-- A set of positions of a text. -/
abbrev Positions := List Bool

/-- Positions in either set. -/
def Positions.union (s t : Positions) : Positions := List.zipWith (· || ·) s t

/-- Applies a step `n` times. Once a step changes nothing the rest is passed over. -/
def times (f : Positions → Positions) : Nat → Positions → Positions
  | 0, s => s
  | n + 1, s =>
    let t := f s
    if t == s then s else times f n t

/-- The positions reached by at most `n` steps. -/
def upTo (f : Positions → Positions) : Nat → Positions → Positions
  | 0, s => s
  | n + 1, s =>
    let t := s.union (f s)
    if t == s then s else upTo f n t

namespace Expr

/-- The positions at which a match ends that starts at one of the given ones. An unbounded
repetition adds a position with every step that matters, so the number of positions bounds it. -/
def ends (text : List Char) : Expr → Positions → Positions
  | .empty, s => s
  | .chars set, s => false :: List.zipWith (fun b c => b && set.mem c) s text
  | .look l, s => List.zipWith (fun b x => b && l.holds x) s (contexts none text)
  | .cat a b, s => b.ends text (a.ends text s)
  | .alt a b, s => (a.ends text s).union (b.ends text s)
  | .repetition min max a, s =>
    let more := match max with
      | none => s.length
      | some m => m - min
    upTo (a.ends text) more (times (a.ends text) min s)

/-- Does the pattern match somewhere in the text? -/
def isMatch (e : Expr) (text : List Char) : Bool :=
  (e.ends text (List.replicate (text.length + 1) true)).contains true

/-! ### The size of a pattern -/

/-- The size of one state of a compiled pattern, in bytes. -/
def stateSize : Nat := 24

/-- The bytes of a character in a text. -/
def byteCount (n : Nat) : Nat :=
  if n < 0x80 then 1 else if n < 0x800 then 2 else if n < 0x10000 then 3 else 4

/-- About how many bytes a compiled pattern takes: a state for every byte of a literal, more for a
class, and copies for a counted repetition. -/
def weight : Expr → Nat
  | .empty => stateSize
  | .chars set =>
    match set.ranges with
    | [(lo, hi)] => if lo = hi then stateSize * byteCount lo else stateSize * 2
    | rs => if set.isAscii then stateSize + 8 * rs.length else stateSize + 60 * rs.length
  | .look _ => stateSize
  | .cat a b => a.weight + b.weight
  | .alt a b => a.weight + b.weight + stateSize
  | .repetition min max a =>
    match max with
    | none => Nat.max min 1 * a.weight + 2 * stateSize
    | some m => Nat.max min m * (a.weight + if min < m then stateSize else 0) + stateSize

/-- Patterns that take more bytes are refused. -/
def greatestWeight : Nat := 10 * Nat.pow 2 20

end Expr

end Dialogue.Pattern
