/-!
# Command lines

A line of a step is a command when it reads, from its first character to its last,

    cmd.NAME(BODY)

with a name of ASCII letters and underscores and a body of lower-case letters, commas and blanks.
The body lists arguments, which the run supplies; words that name none are passed over.
-/

namespace Dialogue

/-- An argument that the run supplies to a command. -/
inductive ImplicitArg where
  /-- The record of the run. -/
  | record
  /-- The table of commands. -/
  | context
  /-- The key of the step. -/
  | key
  /-- A file that the user is asked for. -/
  | uploader
  deriving DecidableEq, Repr

/-- A command line: the name of the command and its arguments. -/
structure CommandLine where
  name : String
  args : List ImplicitArg
  deriving DecidableEq, Repr

namespace ImplicitArg

/-- The word for an argument. -/
def name : ImplicitArg → String
  | .record => "record"
  | .context => "context"
  | .key => "key"
  | .uploader => "uploader"

/-- The argument that a word names. -/
def ofName? (word : String) : Option ImplicitArg :=
  [ImplicitArg.record, .context, .key, .uploader].find? fun a => a.name = word

end ImplicitArg

namespace CommandLine

/-- May the character occur in the name of a command? -/
def isNameChar (c : Char) : Bool := c.isAlpha || c = '_'

/-- Does the character separate arguments? -/
def isSeparator (c : Char) : Bool := c = ',' || c = ' '

/-- May the character occur in the body? -/
def isBodyChar (c : Char) : Bool := c.isLower || isSeparator c

/-- The stretches between separators, empty ones included. -/
def split : List Char → List (List Char)
  | [] => [[]]
  | c :: cs =>
    match split cs with
    | [] => [[]]
    | w :: ws => if isSeparator c then [] :: w :: ws else (c :: w) :: ws

/-- The arguments that a body lists. -/
def argsOf (body : List Char) : List ImplicitArg :=
  (split body).filterMap fun w => ImplicitArg.ofName? (String.ofList w)

/-- What follows the opening of a command line. -/
def afterOpening? : List Char → Option (List Char)
  | 'c' :: 'm' :: 'd' :: '.' :: cs => some cs
  | _ => none

/-- Reads a line of characters; `none` when it is no command. -/
def parseChars? (cs : List Char) : Option CommandLine := do
  let cs ← afterOpening? cs
  let name := cs.takeWhile isNameChar
  if name.isEmpty then none
  match cs.dropWhile isNameChar with
  | '(' :: cs =>
    match cs.dropWhile isBodyChar with
    | [')'] => some ⟨String.ofList name, argsOf (cs.takeWhile isBodyChar)⟩
    | _ => none
  | _ => none

/-- Reads a line; `none` when it is no command. -/
def parse? (line : String) : Option CommandLine := parseChars? line.toList

end CommandLine

end Dialogue
