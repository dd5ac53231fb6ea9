/-!
# The shape of a pattern

A pattern as it is written: literals, classes, assertions, groups, repetitions, alternatives. Flags
stand where they were written; what they do is settled when the pattern is given its meaning.
-/

namespace Dialogue.Pattern

/-- A literal character. An escape of two hexadecimal digits is a single byte where patterns are
not about characters. -/
structure Literal where
  char : Char
  byte : Bool
  deriving Repr, DecidableEq

/-- The classes with a letter of their own. -/
inductive LetterClass where
  | digit
  | space
  | word
  deriving Repr, DecidableEq

/-- A property of characters: by its name, or by the name and a value. -/
inductive PropertyName where
  | named (name : String)
  | valued (name value : String)
  deriving Repr, DecidableEq

/-- The operations on bracketed classes. -/
inductive SetOp where
  | intersection
  | difference
  | symmetricDifference
  deriving Repr, DecidableEq

/-- What stands between the brackets of a class. -/
inductive ClassSet where
  | literal (l : Literal)
  | range (lo hi : Literal)
  | ascii (negated : Bool) (name : String)
  | property (negated : Bool) (name : PropertyName)
  | letter (negated : Bool) (kind : LetterClass)
  | bracketed (negated : Bool) (set : ClassSet)
  | union (items : List ClassSet)
  | binary (op : SetOp) (lhs rhs : ClassSet)
  deriving Repr, Inhabited

/-- Conditions on a position. -/
inductive Assertion where
  | startLine
  | endLine
  | startText
  | endText
  | wordBoundary
  | notWordBoundary
  | wordStart
  | wordEnd
  | wordStartHalf
  | wordEndHalf
  deriving Repr, DecidableEq

/-- Flags that change the meaning of what follows. -/
inductive Flag where
  | ignoreCase
  | multiLine
  | dotAll
  | swapGreed
  | unicode
  | crlf
  | ignoreBlank
  deriving Repr, DecidableEq

/-- A list of flags: those switched on, and those switched off. -/
structure FlagChange where
  on : List Flag
  off : List Flag
  deriving Repr, DecidableEq

/-- The change that a list of flags makes to one of them. -/
def FlagChange.state? (f : FlagChange) (flag : Flag) : Option Bool :=
  if f.on.contains flag then some true
  else if f.off.contains flag then some false
  else none

/-- A pattern. -/
inductive Ast where
  | empty
  | flags (change : FlagChange)
  | literal (l : Literal)
  | dot
  | assertion (a : Assertion)
  | property (negated : Bool) (name : PropertyName)
  | letter (negated : Bool) (kind : LetterClass)
  | bracketed (negated : Bool) (set : ClassSet)
  | repetition (min : Nat) (max : Option Nat) (sub : Ast)
  | group (change : FlagChange) (sub : Ast)
  | alternation (branches : List Ast)
  | concat (parts : List Ast)
  deriving Repr, Inhabited

/-! ### Nesting -/

mutual

/-- How deeply the parts of a class are nested. -/
def ClassSet.depth : ClassSet → Nat
  | .bracketed _ s => s.depth + 1
  | .union items => ClassSet.depths items + 1
  | .binary _ l r => max l.depth r.depth + 1
  | .literal _ | .range _ _ | .ascii _ _ | .property _ _ | .letter _ _ => 0

/-- The greatest depth of several classes. -/
def ClassSet.depths : List ClassSet → Nat
  | [] => 0
  | s :: ss => max s.depth (ClassSet.depths ss)

end

mutual

/-- How deeply the parts of a pattern are nested. -/
def Ast.depth : Ast → Nat
  | .bracketed _ s => s.depth + 1
  | .repetition _ _ a => a.depth + 1
  | .group _ a => a.depth + 1
  | .alternation as => Ast.depths as + 1
  | .concat as => Ast.depths as + 1
  | .empty | .flags _ | .literal _ | .dot | .assertion _ | .property _ _ | .letter _ _ => 0

/-- The greatest depth of several patterns. -/
def Ast.depths : List Ast → Nat
  | [] => 0
  | a :: as => max a.depth (Ast.depths as)

end

/-- Patterns nested deeper than this are refused. -/
def greatestDepth : Nat := 250

end Dialogue.Pattern
