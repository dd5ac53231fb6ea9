import Dialogue.Text.Property
/-!
# Blanks at the ends of a text

`Text.trim` takes the blank characters off both ends. Blank is every character with the
white space property, not only the ASCII ones.
-/

namespace Dialogue.Text

/-- Is the character blank? -/
def isBlank (c : Char) : Bool := Property.whiteSpace.mem c

/-- The characters without the blanks at the front. -/
def trimLeft (cs : List Char) : List Char := cs.dropWhile isBlank

/-- The characters without the blanks at the back. -/
def trimRight (cs : List Char) : List Char := (trimLeft cs.reverse).reverse

/-- The text without blanks at its ends. -/
def trim (s : String) : String := String.ofList (trimRight (trimLeft s.toList))

/-! ### Letters -/

/-- The lower-case form of an ASCII letter; other characters are left. -/
def lowerAscii (c : Char) : Char := if 'A' ≤ c ∧ c ≤ 'Z' then Char.ofNat (c.toNat + 32) else c

/-- Do two texts agree when the case of ASCII letters is ignored? -/
def agreesIgnoringCase (s t : String) : Bool :=
  s.toList.map lowerAscii == t.toList.map lowerAscii

end Dialogue.Text
