import Dialogue.Entries
import Dialogue.Json.Value
import Dialogue.Text.Quoted
/-!
# Command tables

A table holds commands by name; what a command is, is left open. `Argument` is what a command is
called with, and `Callbacks` says which of the host's callbacks are there.
-/

namespace Dialogue

/-! ### Tables -/

/-- Commands by name. -/
structure CommandTable (α : Type) where
  entries : List (String × α)

namespace CommandTable

variable {α : Type}

/-- The table without commands. -/
def empty : CommandTable α := ⟨[]⟩

/-- The table of the given commands. -/
def ofList (xs : List (String × α)) : CommandTable α := ⟨Entries.ofList xs⟩

/-- Enters a command, in place of an earlier one of that name. -/
def register (t : CommandTable α) (name : String) (command : α) : CommandTable α :=
  ⟨Entries.insert name command t.entries⟩

/-- The command of a name. -/
def find? (t : CommandTable α) (name : String) : Option α := Entries.get? name t.entries

/-- Is there a command of that name? -/
def contains (t : CommandTable α) (name : String) : Bool := (t.find? name).isSome

/-- The number of commands. -/
def size (t : CommandTable α) : Nat := t.entries.length

/-- The description of a table, which lists the names. -/
def text (t : CommandTable α) : String :=
  "CommandTable \x7b commands: " ++ Quoted.quoteList (t.entries.map (·.1)) ++ " \x7d"

end CommandTable

/-! ### Arguments -/

/-- What a command is called with. -/
inductive Argument where
  /-- The record of the run. -/
  | record
  /-- The table in which the command was found. -/
  | context
  /-- The key of the step, if it has one. -/
  | key (name : Option String)
  /-- What the user answered to a request for a file. -/
  | upload (value : Json)
  deriving Inhabited

namespace Argument

/-- Is it the record? -/
def isRecord : Argument → Bool
  | .record => true
  | _ => false

/-- Is it the table? -/
def isContext : Argument → Bool
  | .context => true
  | _ => false

/-- The key that it holds. -/
def key? : Argument → Option String
  | .key name => name
  | _ => none

/-- The answer that it holds. -/
def upload? : Argument → Option Json
  | .upload value => some value
  | _ => none

/-- The description of a key or a table. -/
def text? : Argument → Option String
  | .context => some "Context(..)"
  | .key name => some ("Key(" ++ Quoted.quoteOption name ++ ")")
  | _ => none

end Argument

/-! ### Callbacks -/

/-- Which callbacks the host has registered. -/
structure Callbacks where
  /-- Told of each value that is recorded. -/
  collected : Bool
  /-- Told of the meta entries of each step. -/
  noted : Bool
  /-- Told of each event. -/
  fired : Bool
  deriving DecidableEq, Repr

namespace Callbacks

/-- No callback. -/
def none : Callbacks := ⟨false, false, false⟩

/-- All callbacks. -/
def all : Callbacks := ⟨true, true, true⟩

/-- The description of the callbacks. -/
def text (c : Callbacks) : String :=
  "Callbacks \x7b collect: " ++ toString c.collected ++ ", meta: " ++ toString c.noted
    ++ ", event: " ++ toString c.fired ++ " \x7d"

end Callbacks

end Dialogue
