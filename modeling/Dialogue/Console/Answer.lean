import Dialogue.Content.Message
import Dialogue.Decimal.Natural
import Dialogue.Text.Blank
/-!
# Answers on the console

`Prompting` is what the console keeps in mind between the messages it shows and the lines that are
typed: the options shown last, whether a file was asked for, and the lines of an answer with
several lines. `resolve` makes an answer of a line.

A request for a file comes first. In a field of several lines an empty line ends the answer, and
nothing else ends it. Otherwise a line is the number of an option, counted from 1, or the text of
one, or an answer of its own; the options are used up in each case.
-/

namespace Dialogue

/-- An answer of the user. -/
inductive Answer where
  | text (s : String)
  | upload (value : Json)
  deriving Inhabited

/-- What the console keeps in mind. -/
structure Prompting where
  /-- The options shown last. -/
  options : List OptionItem
  /-- Was a file asked for? -/
  upload : Bool
  /-- The lines of an answer that has not ended. -/
  lines : List String
  deriving Inhabited

namespace Prompting

/-- Nothing is kept in mind. -/
def empty : Prompting := ⟨[], false, []⟩

/-- Takes notice of a message that is shown. -/
def observe (p : Prompting) (m : Message) : Prompting :=
  match m.payload with
  | .options items _ _ _ => { p with options := items }
  | .uploader _ => { p with upload := true }
  | _ => p

/-- The index of the option that a line gives the number of. -/
def index? (line : String) : Option Nat :=
  match Natural.read? line with
  | some (n + 1) => some n
  | _ => none

/-- The option that a line chooses: by its number, or else by its text. -/
def chosen? (options : List OptionItem) (line : String) : Option OptionItem :=
  ((index? line).bind (options[·]?)).or
    (options.find? fun o => Text.agreesIgnoringCase o.display line)

/-- The answer that a line gives, if it gives one, and what is kept in mind afterwards. -/
def resolve (p : Prompting) (line : String) (textArea : Bool) : Option Answer × Prompting :=
  if p.upload then
    (some (.upload (.object [("path", .string (Text.trim line))])), { p with upload := false })
  else if textArea then
    if line ≠ "" then (none, { p with lines := p.lines ++ [line] })
    else (some (.text ("\n".intercalate p.lines)), { p with lines := [] })
  else
    let line := Text.trim line
    match chosen? p.options line with
    | some o => (some (.text o.value.text), { p with options := [] })
    | none => (some (.text line), { p with options := [] })

end Prompting

end Dialogue
