import Dialogue.Json.Value
/-!
# Writing JSON

Two layouts of one value: `Json.compact` on a single line without blanks, and `Json.pretty`
with two blanks of indentation for every level. In a string the quote, the backslash and the
control characters are escaped, and nothing else.
-/

namespace Dialogue

/-- A hexadecimal digit, in lower case. -/
def hexDigit (n : Nat) : Char := Nat.digitChar n

namespace Json

/-! ### Strings and numbers -/

/-- One character inside a quoted string. -/
def escapeChar (c : Char) : List Char :=
  if c = '"' then ['\\', '"']
  else if c = '\\' then ['\\', '\\']
  else if c = '\x08' then ['\\', 'b']
  else if c = '\x0c' then ['\\', 'f']
  else if c = '\n' then ['\\', 'n']
  else if c = '\r' then ['\\', 'r']
  else if c = '\t' then ['\\', 't']
  else if c.toNat < 32 then
    ['\\', 'u', '0', '0', hexDigit (c.toNat / 16), hexDigit (c.toNat % 16)]
  else [c]

/-- A string in quotes. -/
def quote (s : String) : String :=
  String.ofList ('"' :: (s.toList.flatMap escapeChar ++ ['"']))

end Json

/-- The text of a number. -/
def Number.text : Number → String
  | .int n => toString n
  | .real x => documentNumbers.text x

namespace Json

/-! ### The compact layout -/

mutual

/-- The value on one line, without blanks. -/
def compact : Json → String
  | .null => "null"
  | .bool true => "true"
  | .bool false => "false"
  | .number n => n.text
  | .string s => quote s
  | .array xs => "[" ++ ",".intercalate (compactItems xs) ++ "]"
  | .object ms => "\x7b" ++ ",".intercalate (compactMembers ms) ++ "\x7d"

/-- The texts of the items of an array. -/
def compactItems : List Json → List String
  | [] => []
  | x :: xs => compact x :: compactItems xs

/-- The texts of the members of an object. -/
def compactMembers : List (String × Json) → List String
  | [] => []
  | (n, x) :: xs => (quote n ++ ":" ++ compact x) :: compactMembers xs

end

/-! ### The indented layout -/

/-- The blanks before a line at the given level. -/
def indent (level : Nat) : String := String.ofList (List.replicate (2 * level) ' ')

/-- Lines between two brackets, the closing one back at the outer level. -/
def block (opening closing : String) (level : Nat) (lines : List String) : String :=
  if lines.isEmpty then opening ++ closing
  else
    opening ++ "\n"
      ++ ",\n".intercalate (lines.map (indent (level + 1) ++ ·))
      ++ "\n" ++ indent level ++ closing

mutual

/-- The value over several lines, standing at the given level. -/
def prettyAt (level : Nat) : Json → String
  | .array xs => block "[" "]" level (prettyItems (level + 1) xs)
  | .object ms => block "\x7b" "\x7d" level (prettyMembers (level + 1) ms)
  | .null => "null"
  | .bool true => "true"
  | .bool false => "false"
  | .number n => n.text
  | .string s => quote s

/-- The items of an array, each at the given level. -/
def prettyItems (level : Nat) : List Json → List String
  | [] => []
  | x :: xs => prettyAt level x :: prettyItems level xs

/-- The members of an object, each at the given level. -/
def prettyMembers (level : Nat) : List (String × Json) → List String
  | [] => []
  | (n, x) :: xs => (quote n ++ ": " ++ prettyAt level x) :: prettyMembers level xs

end

/-- The value over several lines. -/
def pretty (v : Json) : String := prettyAt 0 v

/-- The text by which a value is matched, substituted and shown: a string stands for itself, and
everything else for its compact text. -/
def text : Json → String
  | .string s => s
  | v => v.compact

end Json

end Dialogue
