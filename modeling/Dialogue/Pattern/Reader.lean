import Dialogue.Pattern.Ast
import Dialogue.Text.Blank
/-!
# Reading patterns

`Ast.read?` reads a pattern. The reader is a state monad over the characters left; a pattern that is
not well formed makes it fail, without saying why. Open groups and open brackets are kept on
explicit stacks, and every turn of the two loops takes at least one character, so the length of the
pattern bounds them.

With the flag `x` blanks and comments between the parts of a pattern are passed over.
-/

namespace Dialogue.Pattern

/-- The state of the reader: the characters left, whether blanks are passed over, and the names of
groups so far. -/
structure ReaderState where
  rest : List Char
  ignoreBlank : Bool
  names : List String

/-- The reader. -/
abbrev Reader := StateT ReaderState Option

namespace Reader

/-! ### Moving along the pattern -/

/-- Passes over blanks and comments. -/
def skipBlank (inComment : Bool) : List Char → List Char
  | [] => []
  | c :: cs =>
    if inComment then skipBlank (c ≠ '\n') cs
    else if Text.isBlank c then skipBlank false cs
    else if c = '#' then skipBlank true cs
    else c :: cs

/-- The characters left. -/
def rest : Reader (List Char) := do return (← get).rest

/-- The next character, if any. -/
def peek? : Reader (Option Char) := do return (← get).rest.head?

/-- The next character; there has to be one. -/
def peek : Reader Char := do
  match (← get).rest with
  | c :: _ => return c
  | [] => failure

/-- Goes to the given characters. -/
def goTo (cs : List Char) : Reader Unit := modify fun s => { s with rest := cs }

/-- Takes one character. -/
def bump : Reader Unit := modify fun s => { s with rest := s.rest.drop 1 }

/-- Passes over blanks, when they are ignored. -/
def space : Reader Unit :=
  modify fun s => if s.ignoreBlank then { s with rest := skipBlank false s.rest } else s

/-- Takes one character and the ignored blanks after it. -/
def bumpSpace : Reader Unit := do bump; space

/-- Takes one character and the ignored blanks after it; more has to follow. -/
def advance : Reader Unit := do
  bumpSpace
  let _ ← peek

/-- Takes the given characters if they are next. -/
def take? (cs : List Char) : Reader Bool := do
  let r ← rest
  if cs.isPrefixOf r then
    goTo (r.drop cs.length)
    return true
  return false

/-- The character after the next one and the ignored blanks in between. -/
def peekSecond? : Reader (Option Char) := do
  let s ← get
  let r := s.rest.drop 1
  return (if s.ignoreBlank then skipBlank false r else r).head?

/-- Takes characters while they satisfy a test, with the ignored blanks after each. `n` bounds their
number. -/
def takeWhile (p : Char → Bool) : Nat → Reader (List Char)
  | 0 => return []
  | n + 1 => do
    match ← peek? with
    | some c =>
      if p c then
        bumpSpace
        return c :: (← takeWhile p n)
      else return []
    | none => return []

/-- Takes all characters up to a closing brace, which stays. Blanks are passed over as usual. -/
def upToBrace : Nat → Reader (List Char)
  | 0 => failure
  | n + 1 => do
    bumpSpace
    let c ← peek
    if c = '\x7d' then return [] else return c :: (← upToBrace n)

/-- The number of characters left, which bounds every loop. -/
def length : Reader Nat := do return (← rest).length

/-! ### Numbers -/

/-- The value of a hexadecimal digit. -/
def hexValue? (c : Char) : Option Nat :=
  if c.isDigit then some (c.toNat - '0'.toNat)
  else if 'a' ≤ c ∧ c ≤ 'f' then some (c.toNat - 'a'.toNat + 10)
  else if 'A' ≤ c ∧ c ≤ 'F' then some (c.toNat - 'A'.toNat + 10)
  else none

/-- The character with the given code point, if there is one. -/
def ofCodePoint? (n : Nat) : Option Char :=
  if h : n.isValidChar then some (Char.ofNatAux n h) else none

/-- The character that hexadecimal digits name. -/
def ofHex? (ds : List Char) : Option Char := do
  if ds.isEmpty then none
  let values ← ds.mapM hexValue?
  ofCodePoint? (values.foldl (fun n d => 16 * n + d) 0)

/-- A decimal number of 32 bits, blanks around it allowed. -/
def decimal : Reader Nat := do
  goTo ((← rest).dropWhile Text.isBlank)
  let ds ← takeWhile Char.isDigit (← length)
  let _ ← takeWhile Text.isBlank (← length)
  if ds.isEmpty then failure
  let n := ds.foldl (fun n c => 10 * n + (c.toNat - '0'.toNat)) 0
  if n < Nat.pow 2 32 then return n else failure

/-! ### Escapes -/

/-- What a single item can be, inside or outside of brackets. -/
inductive Item where
  | literal (l : Literal)
  | letter (negated : Bool) (kind : LetterClass)
  | property (negated : Bool) (name : PropertyName)
  | assertion (a : Assertion)
  | dot

/-- Exactly `n` more hexadecimal digits. -/
def hexDigits : Nat → Reader (List Char)
  | 0 => return []
  | n + 1 => do
    advance
    let c ← peek
    if (hexValue? c).isNone then failure
    return c :: (← hexDigits n)

/-- A hexadecimal escape, at the letter that tells the number of digits. -/
def hex (digits : Nat) : Reader Item := do
  advance
  let c ← peek
  if c = '\x7b' then
    let ds ← upToBrace (← length)
    bumpSpace
    return .literal ⟨← ofHex? ds, false⟩
  if (hexValue? c).isNone then failure
  let ds := c :: (← hexDigits (digits - 1))
  bumpSpace
  return .literal ⟨← ofHex? ds, digits = 2⟩

/-- Splits at the first place where a text occurs. -/
def splitAt? (mark : List Char) : List Char → Option (List Char × List Char)
  | [] => none
  | c :: cs =>
    if mark.isPrefixOf (c :: cs) then some ([], (c :: cs).drop mark.length)
    else (splitAt? mark cs).map fun (a, b) => (c :: a, b)

/-- The property that a braced name stands for, and whether its sense is turned. -/
def propertyOf (cs : List Char) : Bool × PropertyName :=
  let valued := fun (a, b) => PropertyName.valued (String.ofList a) (String.ofList b)
  match splitAt? ['!', '='] cs with
  | some p => (true, valued p)
  | none =>
    match splitAt? [':'] cs with
    | some p => (false, valued p)
    | none =>
      match splitAt? ['='] cs with
      | some p => (false, valued p)
      | none => (false, .named (String.ofList cs))

/-- A property escape, at its letter. -/
def property (negated : Bool) : Reader Item := do
  advance
  let c ← peek
  if c = '\x7b' then
    let name ← upToBrace (← length)
    bump
    let (turned, name) := propertyOf name
    return .property (negated != turned) name
  if c = '\\' then failure
  bumpSpace
  return .property negated (.named (String.ofList [c]))

/-- The characters with a meaning of their own in patterns. -/
def metaChars : List Char :=
  ['\\', '.', '+', '*', '?', '(', ')', '|', '[', ']', '\x7b', '\x7d', '^', '$', '#', '&', '-', '~']

/-- May the character be escaped to stand for itself? Letters, digits and the two angles may not. -/
def isEscapable (c : Char) : Bool :=
  metaChars.contains c || (c.toNat < 128 && !c.isAlphanum && c ≠ '<' && c ≠ '>')

/-- The special word boundary with the given name. -/
def boundaryOf? (name : List Char) : Option Assertion :=
  if name = ['s', 't', 'a', 'r', 't'] then some .wordStart
  else if name = ['e', 'n', 'd'] then some .wordEnd
  else if name = ['s', 't', 'a', 'r', 't', '-', 'h', 'a', 'l', 'f'] then some .wordStartHalf
  else if name = ['e', 'n', 'd', '-', 'h', 'a', 'l', 'f'] then some .wordEndHalf
  else none

/-- May the character occur in the name of a special word boundary? -/
def isBoundaryChar (c : Char) : Bool := c.isAlpha || c = '-'

/-- A word boundary, after its letter. A brace can follow that names a special one, or else is the
start of a repetition. -/
def boundary : Reader Item := do
  let start ← rest
  match start with
  | '\x7b' :: _ =>
    advance
    if isBoundaryChar (← peek) then
      let name ← takeWhile isBoundaryChar (← length)
      if (← peek) ≠ '\x7d' then failure
      bump
      return .assertion (← boundaryOf? name)
    else
      goTo start
      return .assertion .wordBoundary
  | _ => return .assertion .wordBoundary

/-- The control characters that have a letter. -/
def control? : Char → Option Char
  | 'a' => some '\x07'
  | 'f' => some '\x0c'
  | 't' => some '\t'
  | 'n' => some '\n'
  | 'r' => some '\r'
  | 'v' => some '\x0b'
  | _ => none

/-- A one-letter class. -/
def letter (negated : Bool) (kind : LetterClass) : Reader Item := do
  bump
  return .letter negated kind

/-- An escape, at its backslash. -/
def escape : Reader Item := do
  bump
  let c ← peek
  match c with
  | 'x' => hex 2
  | 'u' => hex 4
  | 'U' => hex 8
  | 'p' => property false
  | 'P' => property true
  | 'd' => letter false .digit
  | 's' => letter false .space
  | 'w' => letter false .word
  | 'D' => letter true .digit
  | 'S' => letter true .space
  | 'W' => letter true .word
  | _ =>
    bump
    if isEscapable c then return .literal ⟨c, false⟩
    match control? c, c with
    | some c, _ => return .literal ⟨c, false⟩
    | none, 'A' => return .assertion .startText
    | none, 'z' => return .assertion .endText
    | none, 'b' => boundary
    | none, 'B' => return .assertion .notWordBoundary
    | none, '<' => return .assertion .wordStart
    | none, '>' => return .assertion .wordEnd
    | none, _ => failure

/-! ### Bracketed classes -/

/-- An open bracket, or an operation whose right side is under way. Items are held in reverse. -/
inductive ClassFrame where
  | opened (parent : List ClassSet) (negated : Bool)
  | operation (op : SetOp) (lhs : ClassSet)

/-- The set of the items so far. -/
def unionOf (items : List ClassSet) : ClassSet :=
  match items with
  | [s] => s
  | _ => .union items.reverse

/-- An item in brackets. -/
def classItem : Reader Item := do
  let c ← peek
  if c = '\\' then escape
  else
    bump
    return .literal ⟨c, false⟩

/-- An item as part of a class. -/
def Item.toSet? : Item → Option ClassSet
  | .literal l => some (.literal l)
  | .letter n k => some (.letter n k)
  | .property n p => some (.property n p)
  | .assertion _ => none
  | .dot => none

/-- An item as the end of a range. -/
def Item.toLiteral? : Item → Option Literal
  | .literal l => some l
  | _ => none

/-- An item or a range. -/
def classRange : Reader ClassSet := do
  let first ← classItem
  space
  let c ← peek
  let next ← peekSecond?
  if c ≠ '-' ∨ next = some ']' ∨ next = some '-' then
    return ← first.toSet?
  advance
  let last ← classItem
  let lo ← first.toLiteral?
  let hi ← last.toLiteral?
  if lo.char ≤ hi.char then return .range lo hi else failure

/-- Hyphens at the start of a class. -/
def hyphens : Nat → Reader (List ClassSet)
  | 0 => return []
  | n + 1 => do
    if (← peek) = '-' then
      advance
      return .literal ⟨'-', false⟩ :: (← hyphens n)
    else return []

/-- The start of a class, at its bracket: whether it is negated, and the items that have to stand
first, in reverse. -/
def openClass : Reader (Bool × List ClassSet) := do
  advance
  let negated := (← peek) = '^'
  if negated then advance
  let items ← hyphens (← length)
  if items.isEmpty ∧ (← peek) = ']' then
    advance
    return (negated, [.literal ⟨']', false⟩])
  return (negated, items)

/-- The names of ASCII classes. -/
def asciiNames : List String :=
  ["alnum", "alpha", "ascii", "blank", "cntrl", "digit", "graph", "lower", "print", "punct",
    "space", "upper", "word", "xdigit"]

/-- An ASCII class, if the characters are one: its sense and name, and what follows it. -/
def asciiClass? (cs : List Char) : Option (Bool × String × List Char) := do
  match cs with
  | '[' :: ':' :: cs =>
    let (negated, cs) := match cs with
      | '^' :: cs => (true, cs)
      | cs => (false, cs)
    match cs.dropWhile (· ≠ ':') with
    | ':' :: ']' :: rest =>
      let name := String.ofList (cs.takeWhile (· ≠ ':'))
      if asciiNames.contains name then some (negated, name, rest) else none
    | _ => none
  | _ => none

/-- Ends the operation whose right side is complete. -/
def endOperation (rhs : ClassSet) : List ClassFrame → ClassSet × List ClassFrame
  | .operation op lhs :: fs => (.binary op lhs rhs, fs)
  | fs => (rhs, fs)

/-- The operation that starts at the given characters. -/
def operation? : List Char → Option SetOp
  | '&' :: '&' :: _ => some .intersection
  | '-' :: '-' :: _ => some .difference
  | '~' :: '~' :: _ => some .symmetricDifference
  | _ => none

/-- The inside of a class, up to the bracket that ends the outermost one. -/
def classLoop : Nat → List ClassFrame → List ClassSet → Reader (Bool × ClassSet)
  | 0, _, _ => failure
  | n + 1, frames, items => do
    space
    let cs ← rest
    match cs with
    | [] => failure
    | '[' :: _ =>
      match asciiClass? cs with
      | some (negated, name, after) =>
        goTo after
        classLoop n frames (.ascii negated name :: items)
      | none =>
        let (negated, first) ← openClass
        classLoop n (.opened items negated :: frames) first
    | ']' :: _ =>
      match endOperation (unionOf items) frames with
      | (set, .opened parent negated :: fs) =>
        bump
        if fs.isEmpty then return (negated, set)
        else classLoop n fs (.bracketed negated set :: parent)
      | _ => failure
    | _ =>
      match operation? cs with
      | some op =>
        goTo (cs.drop 2)
        let (lhs, fs) := endOperation (unionOf items) frames
        classLoop n (.operation op lhs :: fs) []
      | none =>
        let s ← classRange
        classLoop n frames (s :: items)

/-- A bracketed class, at its bracket. -/
def bracketed : Reader Ast := do
  let (negated, first) ← openClass
  let (negated, set) ← classLoop ((← length) + 1) [.opened [] negated] first
  return .bracketed negated set

/-! ### Groups and flags -/

/-- The flag with the given letter. -/
def flagOf? : Char → Option Flag
  | 'i' => some .ignoreCase
  | 'm' => some .multiLine
  | 's' => some .dotAll
  | 'U' => some .swapGreed
  | 'u' => some .unicode
  | 'R' => some .crlf
  | 'x' => some .ignoreBlank
  | _ => none

/-- Flags up to a colon or a closing parenthesis, which stays. No flag may be repeated, and a minus
has to be followed by one. -/
def flagLoop (change : FlagChange) (minus : Bool) (dangling : Bool) :
    Nat → Reader (FlagChange × Bool)
  | 0 => failure
  | n + 1 => do
    let c ← peek
    if c = ':' ∨ c = ')' then
      if dangling then failure
      return (change, minus)
    if c = '-' then
      if minus then failure
      bump
      flagLoop change true true n
    else
      let f ← flagOf? c
      if (change.state? f).isSome then failure
      bump
      let change := if minus then { change with off := f :: change.off }
        else { change with on := f :: change.on }
      flagLoop change minus false n

/-- May the character occur in the name of a group? -/
def isGroupNameChar (first : Bool) (c : Char) : Bool :=
  if first then c = '_' || Property.alphabetic.mem c
  else c = '_' || c = '.' || c = '[' || c = ']' || Property.alphabetic.mem c
    || (GeneralCategory.setOf ["Nd", "Nl", "No"]).mem c

/-- The name of a group, up to its closing angle. -/
def groupName : Reader Unit := do
  let cs ← rest
  let name := cs.takeWhile (· ≠ '>')
  match name, cs.dropWhile (· ≠ '>') with
  | c :: more, _ :: after =>
    if !isGroupNameChar true c || !more.all (isGroupNameChar false) then failure
    let n := String.ofList name
    if (← get).names.contains n then failure
    modify fun s => { s with rest := after, names := n :: s.names }
  | _, _ => failure

/-- What an opening parenthesis starts: a group, or a change of flags for the rest. -/
inductive Opening where
  | group (change : FlagChange)
  | flags (change : FlagChange)

/-- An opening, at its parenthesis. -/
def opening : Reader Opening := do
  bumpSpace
  let cs ← rest
  let looksAround := [['?', '='], ['?', '!'], ['?', '<', '='], ['?', '<', '!']].any
    fun mark => mark.isPrefixOf cs
  if looksAround then failure
  if (← take? ['?', 'P', '<']) || (← take? ['?', '<']) then
    groupName
    return .group ⟨[], []⟩
  if ← take? ['?'] then
    let (change, _) ← flagLoop ⟨[], []⟩ false false ((← length) + 1)
    let c ← peek
    bump
    if c = ':' then return .group change
    if change.on.isEmpty ∧ change.off.isEmpty then failure
    return .flags change
  return .group ⟨[], []⟩

/-- Sets whether blanks are ignored. -/
def setIgnoreBlank (b : Bool) : Reader Unit := modify fun s => { s with ignoreBlank := b }

/-! ### Repetitions -/

/-- May the part be repeated? -/
def isRepeatable : Ast → Bool
  | .empty => false
  | .flags _ => false
  | _ => true

/-- Splits off the part that a repetition applies to. -/
def repeated? : List Ast → Option (Ast × List Ast)
  | a :: parts => if isRepeatable a then some (a, parts) else none
  | [] => none

/-- A mark that makes a repetition lazy; it changes nothing about what matches. -/
def lazyMark : Reader Unit := do
  if (← peek?) = some '?' then bump

/-- A repetition with a count, at its brace. -/
def counted (parts : List Ast) : Reader (List Ast) := do
  let (a, parts) ← repeated? parts
  advance
  -- a missing lower count only fails once the form of the rest is known, which fails as well
  let min ← decimal
  let max ←
    if (← peek) = ',' then do
      advance
      if (← peek) = '\x7d' then pure none else some <$> decimal
    else pure (some min)
  if (← peek) ≠ '\x7d' then failure
  bumpSpace
  lazyMark
  match max with
  | some m => if min ≤ m then return .repetition min max a :: parts else failure
  | none => return .repetition min none a :: parts

/-- A repetition with a sign. -/
def signed (min : Nat) (max : Option Nat) (parts : List Ast) : Reader (List Ast) := do
  let (a, parts) ← repeated? parts
  bump
  lazyMark
  return .repetition min max a :: parts

/-! ### The whole pattern -/

/-- An open group, or alternatives under way. Parts and branches are held in reverse. -/
inductive GroupFrame where
  | group (parts : List Ast) (change : FlagChange) (ignoreBlank : Bool)
  | alternation (branches : List Ast)

/-- The pattern of the parts so far. -/
def concatOf (parts : List Ast) : Ast :=
  match parts with
  | [] => .empty
  | [a] => a
  | _ => .concat parts.reverse

/-- Ends the alternatives under way with a last branch. -/
def endAlternation (last : Ast) : List GroupFrame → Ast × List GroupFrame
  | .alternation branches :: fs => (.alternation (last :: branches).reverse, fs)
  | fs => (last, fs)

/-- Starts another branch. -/
def addBranch (branch : Ast) : List GroupFrame → List GroupFrame
  | .alternation branches :: fs => .alternation (branch :: branches) :: fs
  | fs => .alternation [branch] :: fs

/-- An item as a pattern. -/
def Item.toAst : Item → Ast
  | .literal l => .literal l
  | .letter n k => .letter n k
  | .property n p => .property n p
  | .assertion a => .assertion a
  | .dot => .dot

/-- A single item outside of brackets. -/
def single : Reader Item := do
  let c ← peek
  match c with
  | '\\' => escape
  | '.' => do bump; return .dot
  | '^' => do bump; return .assertion .startLine
  | '$' => do bump; return .assertion .endLine
  | c => do bump; return .literal ⟨c, false⟩

/-- The parts of a pattern, up to its end. -/
def loop : Nat → List GroupFrame → List Ast → Reader Ast
  | 0, _, _ => failure
  | n + 1, frames, parts => do
    space
    match ← peek? with
    | none =>
      match endAlternation (concatOf parts) frames with
      | (a, []) => return a
      | _ => failure
    | some '(' =>
      match ← opening with
      | .flags change =>
        match change.state? .ignoreBlank with
        | some b => setIgnoreBlank b
        | none => pure ()
        loop n frames (.flags change :: parts)
      | .group change =>
        let old := (← get).ignoreBlank
        setIgnoreBlank ((change.state? .ignoreBlank).getD old)
        loop n (.group parts change old :: frames) []
    | some ')' =>
      match endAlternation (concatOf parts) frames with
      | (a, .group before change old :: fs) =>
        setIgnoreBlank old
        bump
        loop n fs (.group change a :: before)
      | _ => failure
    | some '|' =>
      bump
      loop n (addBranch (concatOf parts) frames) []
    | some '[' => do loop n frames ((← bracketed) :: parts)
    | some '?' => do loop n frames (← signed 0 (some 1) parts)
    | some '*' => do loop n frames (← signed 0 none parts)
    | some '+' => do loop n frames (← signed 1 none parts)
    | some '\x7b' => do loop n frames (← counted parts)
    | some _ => do loop n frames ((← single).toAst :: parts)

end Reader

/-- Reads a pattern; `none` when it is not well formed or nested too deeply. -/
def Ast.read? (pattern : String) : Option Ast := do
  let cs := pattern.toList
  let (a, _) ← (Reader.loop (cs.length + 1) [] []).run ⟨cs, false, []⟩
  if a.depth ≤ greatestDepth then some a else none

end Dialogue.Pattern
