import Dialogue.Json.Numeral
/-!
# The tokens of a JSON text

`Token.scan` runs over the characters once, holding the token under way in a `Scan`. A string
or a number may be written correctly and still have no value: an escape can name half of a
surrogate pair, a number can lie beyond the doubles. Such a token carries `none`, since a
reader that skips it need not value it.
-/

namespace Dialogue

/-- A token: punctuation, a word, a number or a string. -/
inductive Token where
  | openArray | closeArray | openObject | closeObject | comma | colon
  | null
  | bool (value : Bool)
  | number (value : Option Number)
  | string (value : Option String)
  deriving Repr

namespace Token

/-! ### The inside of a string -/

/-- A piece of a string: a character, or a UTF-16 unit that is half of one. -/
inductive Piece where
  | char (c : Char)
  | high (n : Nat)
  | low (n : Nat)

/-- The value of a hexadecimal digit. -/
def hexValue? (c : Char) : Option Nat :=
  if c.isDigit then some (c.toNat - '0'.toNat)
  else if 'a' ≤ c ∧ c ≤ 'f' then some (c.toNat - 'a'.toNat + 10)
  else if 'A' ≤ c ∧ c ≤ 'F' then some (c.toNat - 'A'.toNat + 10)
  else none

/-- The piece that a four-digit escape stands for. -/
def Piece.ofUnit (n : Nat) : Piece :=
  if 0xD800 ≤ n ∧ n < 0xDC00 then .high n
  else if 0xDC00 ≤ n ∧ n < 0xE000 then .low n
  else .char (Char.ofNat n)

/-- The character that a one-letter escape stands for. -/
def escaped? : Char → Option Char
  | '"' => some '"'
  | '\\' => some '\\'
  | '/' => some '/'
  | 'b' => some '\x08'
  | 'f' => some '\x0c'
  | 'n' => some '\n'
  | 'r' => some '\r'
  | 't' => some '\t'
  | _ => none

/-- Splits the inside of a string into pieces. Control characters have to be escaped. -/
def pieces? : List Char → Option (List Piece)
  | [] => some []
  | '\\' :: 'u' :: a :: b :: c :: d :: rest => do
    let n := 4096 * (← hexValue? a) + 256 * (← hexValue? b) + 16 * (← hexValue? c) + (← hexValue? d)
    return Piece.ofUnit n :: (← pieces? rest)
  | '\\' :: e :: rest => do
    return .char (← escaped? e) :: (← pieces? rest)
  | c :: rest => do
    if c = '\\' ∨ c.toNat < 32 then none
    return .char c :: (← pieces? rest)

/-- Joins surrogate pairs; `none` when a half is left alone. -/
def join? : List Piece → Option (List Char)
  | [] => some []
  | .char c :: rest => (join? rest).map (c :: ·)
  | .high h :: .low l :: rest =>
    (join? rest).map (Char.ofNat (0x10000 + (h - 0xD800) * 0x400 + (l - 0xDC00)) :: ·)
  | .high _ :: _ => none
  | .low _ :: _ => none

/-- The token of the inside of a string. -/
def ofString? (body : List Char) : Option Token :=
  (pieces? body).map fun ps => .string ((join? ps).map String.ofList)

/-! ### Words, numbers, punctuation -/

/-- The token of a word. -/
def ofWord? (cs : List Char) : Option Token :=
  if cs = ['n', 'u', 'l', 'l'] then some .null
  else if cs = ['t', 'r', 'u', 'e'] then some (.bool true)
  else if cs = ['f', 'a', 'l', 's', 'e'] then some (.bool false)
  else (Numeral.parse? cs).map fun x => .number x.value

/-- The token of a punctuation mark. -/
def ofMark? : Char → Option Token
  | '[' => some .openArray
  | ']' => some .closeArray
  | '\x7b' => some .openObject
  | '\x7d' => some .closeObject
  | ',' => some .comma
  | ':' => some .colon
  | _ => none

/-- The blanks that may stand between tokens. -/
def isBlank (c : Char) : Bool := c = ' ' || c = '\n' || c = '\t' || c = '\r'

/-! ### Scanning -/

/-- What the scan is in the middle of: nothing, a word or number, a string, or an escape in a
string. Characters are held in reverse. -/
inductive Mode where
  | between
  | word (seen : List Char)
  | quoted (seen : List Char)
  | escape (seen : List Char)

/-- A scan under way: its mode and the tokens so far, in reverse. -/
structure Scan where
  mode : Mode
  tokens : List Token

/-- Ends a word, if one is under way. -/
def Scan.endWord (s : Scan) : Option Scan :=
  match s.mode with
  | .word seen => (ofWord? seen.reverse).map fun t => ⟨.between, t :: s.tokens⟩
  | _ => some s

/-- Takes a character that stands outside strings. -/
def Scan.plain (s : Scan) (c : Char) : Option Scan :=
  if isBlank c then s.endWord
  else if c = '"' then s.endWord.map fun s => ⟨.quoted [], s.tokens⟩
  else match ofMark? c with
    | some t => s.endWord.map fun s => ⟨.between, t :: s.tokens⟩
    | none =>
      match s.mode with
      | .word seen => some ⟨.word (c :: seen), s.tokens⟩
      | _ => some ⟨.word [c], s.tokens⟩

/-- Takes one character. -/
def Scan.step (s : Scan) (c : Char) : Option Scan :=
  match s.mode with
  | .quoted seen =>
    if c = '"' then (ofString? seen.reverse).map fun t => ⟨.between, t :: s.tokens⟩
    else if c = '\\' then some ⟨.escape (c :: seen), s.tokens⟩
    else some ⟨.quoted (c :: seen), s.tokens⟩
  | .escape seen => some ⟨.quoted (c :: seen), s.tokens⟩
  | _ => s.plain c

/-- The tokens of a text; `none` when a token is malformed or a string does not end. -/
def scan (text : List Char) : Option (List Token) := do
  let s ← text.foldlM Scan.step ⟨.between, []⟩
  let s ← s.endWord
  match s.mode with
  | .between => some s.tokens.reverse
  | _ => none

end Token

end Dialogue
