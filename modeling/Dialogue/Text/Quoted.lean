import Dialogue.Text.Property
/-!
# Quoted text for messages

How a text is shown inside an error message or a description: in double quotes, with the quote,
the backslash and the usual control characters escaped by a letter, and every other character
that cannot be shown on its own (an unassigned or invisible one, or one that joins the character
before it) written as its code point.
-/

namespace Dialogue.Quoted

/-- The characters that can be shown: everything assigned but controls, formats, private ones and
separators. The plain blank can. -/
def showable : CharSet :=
  ((GeneralCategory.setOf ["Cc", "Cf", "Cs", "Co", "Cn", "Zl", "Zp", "Zs"]).diff
    (CharSet.single ' ')).complement

/-- The characters shown as they are. -/
def plain : CharSet := showable.diff Property.graphemeExtend

/-- The code point in braces. -/
def codePoint (c : Char) : List Char :=
  '\\' :: 'u' :: '\x7b' :: (Nat.toDigits 16 c.toNat ++ ['\x7d'])

/-- One character inside the quotes. -/
def escapeChar (c : Char) : List Char :=
  if c = '"' ∨ c = '\\' then ['\\', c]
  else if c = '\n' then ['\\', 'n']
  else if c = '\r' then ['\\', 'r']
  else if c = '\t' then ['\\', 't']
  else if c = '\x00' then ['\\', '0']
  else if ' ' ≤ c ∧ c ≤ '~' then [c]
  else if plain.mem c then [c]
  else codePoint c

/-- The text in quotes. -/
def quote (s : String) : String :=
  String.ofList ('"' :: (s.toList.flatMap escapeChar ++ ['"']))

/-- A list of texts in brackets, each quoted. -/
def quoteList (xs : List String) : String := "[" ++ ", ".intercalate (xs.map quote) ++ "]"

/-- An optional text: present and quoted, or absent. -/
def quoteOption : Option String → String
  | none => "None"
  | some s => "Some(" ++ quote s ++ ")"

end Dialogue.Quoted
