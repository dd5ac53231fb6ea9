import Dialogue.Command.Table
import Dialogue.Error
import Dialogue.Record
import Dialogue.Script.Document
/-!
# Events

What a host can notice of a conversation besides its messages: the callbacks of runs, the hooks of
messages, the commands and functions that were called, and how tasks ended.
-/

namespace Dialogue

/-- Something that the host is told. -/
inductive Event where
  /-- A value was recorded under a key. -/
  | collected (key : String) (value : Json)
  /-- The meta entries of a step were delivered. -/
  | noted (entries : Meta)
  /-- An event of a step was fired. -/
  | fired (value : Json)
  /-- A command was called; the record is shown as it was then. -/
  | command (name : String) (args : List Argument) (record : Record)
  /-- A message with a hook was delivered. -/
  | hook (name : String)
  /-- The button of a message was used. -/
  | fixme (name : String)
  /-- A function from the queue was started. -/
  | called (name : String)
  /-- A task came to its end. -/
  | ended (name : String) (result : Except ChatError Json)
  deriving Inhabited

end Dialogue
