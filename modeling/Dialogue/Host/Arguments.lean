import Dialogue.Decimal.Natural
/-!
# The command line

What can be given on the command line: the script, and before or behind it

    -i, --index N       the document to run
        --delay-ms N    the delay before each message
    -c, --config FILE   the settings file
        --check         only look the script over
        --dump-record   show the record at the end
    -v, --verbose       tell more, once or several times

A value stands behind its option or after an equals sign; behind a short option it may follow at
once. Short options may be joined. After `--` nothing is an option. Only `-v` may be given twice.
-/

namespace Dialogue

/-- What the command line asks for. -/
structure Arguments where
  script : String
  document : Option Nat
  timeout : Option Nat
  settings : String
  check : Bool
  dumpRecord : Bool
  verbosity : Nat
  deriving DecidableEq, Repr

/-- Why a command line does not ask for a run. -/
inductive Refusal where
  /-- It is wrong. -/
  | usage
  /-- It asks for information about the program. -/
  | information
  deriving DecidableEq, Repr

namespace Arguments

/-- What was given so far. -/
structure Given where
  script : Option String
  document : Option Nat
  timeout : Option Nat
  settings : Option String
  check : Bool
  dumpRecord : Bool
  verbosity : Nat

namespace Given

/-- Nothing was given. -/
def nothing : Given := ⟨none, none, none, none, false, false, 0⟩

/-- What was given, as a whole. A script is needed. -/
def arguments? (g : Given) : Except Refusal Arguments :=
  match g.script with
  | none => .error .usage
  | some script => .ok ⟨script, g.document, g.timeout, g.settings.getD "chat.json", g.check,
      g.dumpRecord, g.verbosity⟩

/-- A path must not be empty. -/
def path (s : String) : Except Refusal String := if s = "" then .error .usage else .ok s

/-- A number. -/
def number (s : String) : Except Refusal Nat :=
  match Natural.read? s with
  | some n => .ok n
  | none => .error .usage

/-- Fills a place that must be empty. -/
def once {α : Type} (place : Option α) (value : Except Refusal α) : Except Refusal (Option α) :=
  if place.isSome then .error .usage else value.map some

/-- Takes the script. -/
def takeScript (g : Given) (s : String) : Except Refusal Given := do
  return { g with script := ← once g.script (path s) }

end Given

/-! ### Options -/

/-- An option that has a value. -/
inductive Valued where
  | index
  | delay
  | config
  deriving DecidableEq, Repr

/-- An option without a value. -/
inductive Flag where
  | check
  | dumpRecord
  | verbose
  | help
  | version
  deriving DecidableEq, Repr

/-- An option. -/
inductive Switch where
  | valued (v : Valued)
  | flag (f : Flag)
  deriving DecidableEq, Repr

/-- The option of a long name. -/
def long? (name : String) : Option Switch :=
  match name with
  | "index" => some (.valued .index)
  | "delay-ms" => some (.valued .delay)
  | "config" => some (.valued .config)
  | "check" => some (.flag .check)
  | "dump-record" => some (.flag .dumpRecord)
  | "verbose" => some (.flag .verbose)
  | "help" => some (.flag .help)
  | "version" => some (.flag .version)
  | _ => none

/-- The option of a letter. -/
def short? (letter : Char) : Option Switch :=
  match letter with
  | 'i' => some (.valued .index)
  | 'c' => some (.valued .config)
  | 'v' => some (.flag .verbose)
  | 'h' => some (.flag .help)
  | 'V' => some (.flag .version)
  | _ => none

/-- Takes an option with its value. -/
def takeValue (g : Given) (v : Valued) (value : String) : Except Refusal Given :=
  match v with
  | .index => do return { g with document := ← Given.once g.document (Given.number value) }
  | .delay => do return { g with timeout := ← Given.once g.timeout (Given.number value) }
  | .config => do return { g with settings := ← Given.once g.settings (Given.path value) }

/-- The highest verbosity. -/
def maxVerbosity : Nat := 255

/-- Takes an option without a value. -/
def takeFlag (g : Given) (f : Flag) : Except Refusal Given :=
  match f with
  | .check => if g.check then .error .usage else .ok { g with check := true }
  | .dumpRecord => if g.dumpRecord then .error .usage else .ok { g with dumpRecord := true }
  | .verbose => .ok { g with verbosity := min (g.verbosity + 1) maxVerbosity }
  | .help => .error .information
  | .version => .error .information

/-! ### Reading -/

/-- Does a word stand for options? A dash by itself does not. -/
def isOption (word : String) : Bool :=
  match word.toList with
  | '-' :: _ :: _ => true
  | _ => false

/-- Takes the letters of a word of short options. The last one may still need a value, which is
then given back. -/
def takeLetters (g : Given) : List Char → Except Refusal (Given × Option Valued)
  | [] => .ok (g, none)
  | c :: cs =>
    match short? c with
    | none => .error .usage
    | some (.flag f) => do takeLetters (← takeFlag g f) cs
    | some (.valued v) =>
      match cs with
      | [] => .ok (g, some v)
      | '=' :: value => do return (← takeValue g v (String.ofList value), none)
      | value => do return (← takeValue g v (String.ofList value), none)

/-- Takes a word of a long option, given without its dashes. -/
def takeLong (g : Given) (word : List Char) : Except Refusal (Given × Option Valued) :=
  let name := String.ofList (word.takeWhile (· ≠ '='))
  match long? name, word.dropWhile (· ≠ '=') with
  | none, _ => .error .usage
  | some (.valued v), [] => .ok (g, some v)
  | some (.valued v), _ :: value => do return (← takeValue g v (String.ofList value), none)
  | some (.flag f), [] => do return (← takeFlag g f, none)
  | some (.flag _), _ :: _ => .error .usage

/-- Takes words none of which is an option. -/
def takeScripts (g : Given) (words : List String) : Except Refusal Given :=
  words.foldlM Given.takeScript g

/-- Takes the words of a command line. An option that still needs its value is `needed`. -/
def takeWords (g : Given) (needed : Option Valued) : List String → Except Refusal Given
  | [] => if needed.isSome then .error .usage else .ok g
  | word :: rest =>
    match needed with
    | some v =>
      if isOption word then .error .usage
      else do takeWords (← takeValue g v word) none rest
    | none =>
      if word = "--" then takeScripts g rest
      else
        match word.toList with
        | '-' :: '-' :: cs => do
          let (g, needed) ← takeLong g cs
          takeWords g needed rest
        | '-' :: c :: cs => do
          let (g, needed) ← takeLetters g (c :: cs)
          takeWords g needed rest
        | _ => do takeWords (← g.takeScript word) none rest

/-- Reads a command line. -/
def read (words : List String) : Except Refusal Arguments := do
  (← takeWords .nothing none words).arguments?

end Arguments

end Dialogue
