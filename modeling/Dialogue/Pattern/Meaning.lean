import Dialogue.Pattern.Ast
import Dialogue.Pattern.Expr
import Dialogue.Text.WritingSystem
import Dialogue.Text.CaseFold
import Dialogue.Text.Blank
/-!
# The meaning of a pattern

`Ast.meaning?` settles the flags of a pattern and turns it into an `Expr`. A change of flags holds
to the end of the group in which it stands, alternatives included. Without the flag `u` classes are
about bytes; since a text is a sequence of characters, a pattern that could then match part of one
has no meaning.
-/

namespace Dialogue.Pattern

/-- The flags in force. -/
structure Flags where
  ignoreCase : Bool
  multiLine : Bool
  dotAll : Bool
  unicode : Bool
  crlf : Bool
  deriving Repr, DecidableEq

namespace Flags

/-- The flags at the start of a pattern. -/
def standard : Flags := ⟨false, false, false, true, false⟩

/-- The flags after a change. -/
def apply (f : Flags) (c : FlagChange) : Flags where
  ignoreCase := (c.state? .ignoreCase).getD f.ignoreCase
  multiLine := (c.state? .multiLine).getD f.multiLine
  dotAll := (c.state? .dotAll).getD f.dotAll
  unicode := (c.state? .unicode).getD f.unicode
  crlf := (c.state? .crlf).getD f.crlf

/-- A class closed under variants of case, when case is ignored. -/
def fold (f : Flags) (s : CharSet) : CharSet :=
  if !f.ignoreCase then s
  else if f.unicode then CaseFold.close s
  else CaseFold.closeAscii s

/-- The other characters; without the flag `u` they would be bytes. -/
def negate? (f : Flags) (negated : Bool) (s : CharSet) : Option CharSet :=
  if !negated then some s
  else if f.unicode then some s.complement
  else none

end Flags

/-! ### Properties -/

/-- The name of a property in lower case, without separators and without `is` at its front. -/
def looseName (name : String) : String :=
  let cs := name.toList.filter fun c => c.toNat < 128 && c ≠ ' ' && c ≠ '_' && c ≠ '-'
  let cs := cs.map Text.lowerAscii
  match cs with
  | ['i', 's', 'c'] => "isc"
  | 'i' :: 's' :: rest => String.ofList rest
  | cs => String.ofList cs

/-- The characters of a property. Three short names are those of a general category although there
are properties of these names as well. -/
def PropertyName.set? : PropertyName → Option CharSet
  | .named name =>
    let n := looseName name
    let binary := if n = "cf" ∨ n = "sc" ∨ n = "lc" then none else Property.set? n
    (binary.orElse fun _ => GeneralCategory.set? n).orElse fun _ => WritingSystem.set? n
  | .valued name value =>
    let n := looseName name
    let v := looseName value
    if n = "gc" ∨ n = "generalcategory" then GeneralCategory.set? v
    else if n = "sc" ∨ n = "script" then WritingSystem.set? v
    else if n = "scx" ∨ n = "scriptextensions" then WritingSystem.extension? v
    else none

/-! ### Classes -/

/-- The characters of an ASCII class. -/
def asciiSet (name : String) : CharSet :=
  let digit := CharSet.span '0' '9'
  let upper := CharSet.span 'A' 'Z'
  let lower := CharSet.span 'a' 'z'
  let alnum := CharSet.unions [digit, upper, lower]
  match name with
  | "alnum" => alnum
  | "alpha" => CharSet.unions [upper, lower]
  | "ascii" => CharSet.range 0 127
  | "blank" => CharSet.unions [CharSet.single '\t', CharSet.single ' ']
  | "cntrl" => CharSet.unions [CharSet.range 0 31, CharSet.range 127 127]
  | "digit" => digit
  | "graph" => CharSet.span '!' '~'
  | "lower" => lower
  | "print" => CharSet.span ' ' '~'
  | "punct" => (CharSet.span '!' '~').diff alnum
  | "space" => CharSet.unions [CharSet.range 9 13, CharSet.single ' ']
  | "upper" => upper
  | "word" => CharSet.unions [alnum, CharSet.single '_']
  | "xdigit" => CharSet.unions [digit, CharSet.span 'A' 'F', CharSet.span 'a' 'f']
  | _ => CharSet.empty

/-- The characters of a one-letter class. -/
def LetterClass.set (unicode : Bool) : LetterClass → CharSet
  | .digit => if unicode then Property.decimalDigit else asciiSet "digit"
  | .space => if unicode then Property.whiteSpace else asciiSet "space"
  | .word => if unicode then Property.word else asciiSet "word"

/-- A literal inside brackets. Without the flag `u` it has to be ASCII. -/
def Literal.inClass? (f : Flags) (l : Literal) : Option Char :=
  if f.unicode || l.char.toNat < 128 then some l.char else none

/-- The characters with a property; without the flag `u` there are none. -/
def propertySet? (f : Flags) (negated : Bool) (name : PropertyName) : Option CharSet := do
  if !f.unicode then none
  f.negate? negated (f.fold (← name.set?))

/-- Combines two classes. -/
def SetOp.apply : SetOp → CharSet → CharSet → CharSet
  | .intersection => CharSet.inter
  | .difference => CharSet.diff
  | .symmetricDifference => CharSet.symmDiff

mutual

/-- The characters of a class. -/
def ClassSet.set? (f : Flags) : ClassSet → Option CharSet
  | .literal l => (l.inClass? f).map CharSet.single
  | .range lo hi => do return CharSet.span (← lo.inClass? f) (← hi.inClass? f)
  | .ascii negated name => f.negate? negated (f.fold (asciiSet name))
  | .property negated name => propertySet? f negated name
  | .letter negated kind => f.negate? negated (kind.set f.unicode)
  | .bracketed negated s => do f.negate? negated (f.fold (← s.set? f))
  | .union items => ClassSet.unionSet? f items
  | .binary op l r => do return op.apply (f.fold (← l.set? f)) (f.fold (← r.set? f))

/-- The characters of any of several classes. -/
def ClassSet.unionSet? (f : Flags) : List ClassSet → Option CharSet
  | [] => some CharSet.empty
  | s :: ss => do return (← s.set? f).union (← ClassSet.unionSet? f ss)

end

/-! ### Patterns -/

/-- A literal outside of brackets. Without the flag `u` an escaped byte has to be ASCII. -/
def Literal.expr? (f : Flags) (l : Literal) : Option Expr :=
  if !f.unicode && l.byte && 128 ≤ l.char.toNat then none
  else some (.chars (f.fold (CharSet.single l.char)))

/-- The characters that a dot stands for. -/
def dotSet (f : Flags) : CharSet :=
  if f.dotAll then CharSet.full
  else if f.crlf then (CharSet.unions [CharSet.single '\n', CharSet.single '\r']).complement
  else (CharSet.single '\n').complement

/-- The condition that an assertion stands for. -/
def Assertion.look (f : Flags) : Assertion → Look
  | .startLine => if !f.multiLine then .start else if f.crlf then .startLineCrlf else .startLine
  | .endLine => if !f.multiLine then .finish else if f.crlf then .endLineCrlf else .endLine
  | .startText => .start
  | .endText => .finish
  | .wordBoundary => .wordBoundary f.unicode
  | .notWordBoundary => .notWordBoundary f.unicode
  | .wordStart => .wordStart f.unicode
  | .wordEnd => .wordEnd f.unicode
  | .wordStartHalf => .wordStartHalf f.unicode
  | .wordEndHalf => .wordEndHalf f.unicode

mutual

/-- The meaning of a pattern under the given flags, and the flags after it. -/
def Ast.expr? (f : Flags) : Ast → Option (Expr × Flags)
  | .empty => some (.empty, f)
  | .flags c => some (.empty, f.apply c)
  | .literal l => do return (← l.expr? f, f)
  | .dot => if f.unicode then some (.chars (dotSet f), f) else none
  | .assertion a => some (.look (a.look f), f)
  | .property negated name => do return (.chars (← propertySet? f negated name), f)
  | .letter negated kind => do return (.chars (← f.negate? negated (kind.set f.unicode)), f)
  | .bracketed negated s => do return (.chars (← f.negate? negated (f.fold (← s.set? f))), f)
  | .repetition min max a => do
    let (e, f) ← a.expr? f
    return (.repetition min max e, f)
  | .group c a => do
    let (e, _) ← a.expr? (f.apply c)
    return (e, f)
  | .alternation as => Ast.branches? f as
  | .concat as => Ast.parts? f as

/-- The meaning of alternatives. -/
def Ast.branches? (f : Flags) : List Ast → Option (Expr × Flags)
  | [] => none
  | [a] => a.expr? f
  | a :: as => do
    let (e, f) ← a.expr? f
    let (e', f) ← Ast.branches? f as
    return (.alt e e', f)

/-- The meaning of parts in a row. -/
def Ast.parts? (f : Flags) : List Ast → Option (Expr × Flags)
  | [] => some (.empty, f)
  | [a] => a.expr? f
  | a :: as => do
    let (e, f) ← a.expr? f
    let (e', f) ← Ast.parts? f as
    return (.cat e e', f)

end

/-- The meaning of a pattern; `none` when it has none or is too large. -/
def Ast.meaning? (a : Ast) : Option Expr := do
  let (e, _) ← a.expr? Flags.standard
  if e.weight ≤ Expr.greatestWeight then some e else none

end Dialogue.Pattern
