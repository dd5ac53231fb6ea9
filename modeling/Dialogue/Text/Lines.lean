/-!
# Lines of a text

A line ends with a line feed, or with a carriage return and a line feed; what stands behind the
last line feed is a line too, unless it is empty.
-/

namespace Dialogue.Text

/-- A line without the carriage return at its end. -/
def dropReturn (line : List Char) : List Char :=
  if line.getLast? = some '\r' then line.dropLast else line

/-- The lines of some characters, when the line at hand has begun with `line`. -/
def linesFrom (line : List Char) : List Char → List (List Char)
  | [] => if line.isEmpty then [] else [line]
  | '\n' :: cs => dropReturn line :: linesFrom [] cs
  | c :: cs => linesFrom (line ++ [c]) cs

/-- The lines of a text. -/
def lines (s : String) : List String := (linesFrom [] s.toList).map String.ofList

end Dialogue.Text
