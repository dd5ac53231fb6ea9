import Dialogue.Content.Message
import Dialogue.Host.Settings
/-!
# What the console shows

The text of a message on the console, and the prompt that invites an answer.
-/

namespace Dialogue.Console

/-- The line that uses the button of the last message that has one. -/
def fixWord : String := "!fix"

/-- The line that shows a button. -/
def fixLine (label : String) : String := "  (" ++ fixWord ++ ") " ++ label

/-- The line that shows an option, with its number. -/
def optionLine (o : OptionItem) (number : Nat) : String :=
  "  [" ++ toString number ++ "] " ++ o.display

/-- The text of a message; `none` when nothing is shown for it. -/
def format? (h : HostSettings) (m : Message) : Option String :=
  match m.payload with
  | .to text => some ("💬 " ++ text)
  | .options items _ _ fixme =>
    let lines := (items.zipIdx 1).map fun (o, n) => optionLine o n
    some ("\n".intercalate (lines ++ fixme.toList.map fixLine))
  | .uploader _ => some ("📎 " ++ h.content.uploadFile ++ "（输入文件路径）")
  | .from _ fixme => fixme.map fixLine
  | .typing => none

/-- The prompt. A question without a placeholder of its own has that of the settings. -/
def prompt (i : InputState) (c : Settings) : String :=
  let placeholder := if i.placeholder = "" then c.inputPlaceholder else i.placeholder
  if i.textArea then placeholder ++ "（空行" ++ c.sendButton ++ "）\n> "
  else placeholder ++ " > "

end Dialogue.Console
