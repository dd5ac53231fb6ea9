import Dialogue.Host.Program
import Dialogue.Text.Lines
/-!
# The command line program

The outermost layer: it reads files and typed lines, lets time pass as `Program.State.next` asks,
and prints. Lines are read by a task of their own, so that messages appear while the program waits
for a line.
-/

namespace Dialogue.Main

/-- How the program is called. -/
def usage : String :=
  "Usage: dialogue [OPTIONS] SCRIPT\n\n"
    ++ "  -i, --index N      run document N\n"
    ++ "      --delay-ms N   wait N ms before each message\n"
    ++ "  -c, --config FILE  read settings from FILE (chat.json)\n"
    ++ "      --check        only look the script over\n"
    ++ "      --dump-record  show the record at the end\n"
    ++ "  -v, --verbose      tell more\n"

/-! ### The world -/

/-- The reason why a file cannot be read. -/
def reason (e : IO.Error) : String :=
  match e with
  | .noFileOrDirectory _ _ _ => "No such file or directory (os error 2)"
  | e => toString e

/-- The text of a file. -/
def readText (path : String) : IO (Except String String) := do
  try return .ok (← IO.FS.readFile path)
  catch e => return .error (reason e)

/-- Is there a file of that path? -/
def fileExists (path : String) : IO Bool := do
  try
    let _ ← IO.FS.readBinFile path
    return true
  catch _ => return false

/-- The first number behind a word of a text. -/
def numberBehind (word text : String) : Nat :=
  match text.splitOn word with
  | _ :: rest :: _ => (Natural.read? (String.ofList (rest.toList.takeWhile Char.isDigit))).getD 0
  | _ => 0

/-- The time of the calendar in seconds: when the machine was started, and how long it has run. -/
def calendar : IO Nat := do
  try
    let started := numberBehind "btime " (← IO.FS.readFile "/proc/stat")
    let running := numberBehind "\n" ("\n" ++ (← IO.FS.readFile "/proc/uptime"))
    return started + running
  catch _ => return 0

/-! ### Running -/

/-- A line that is being read; `none` at the end of the input. -/
abbrev Reading := Task (Except IO.Error (Option String))

/-- Begins to read a line. -/
def readLine (input : IO.FS.Stream) : IO Reading :=
  IO.asTask do
    let line ← input.getLine
    return if line.isEmpty then none else (Text.lines line).head?

/-- Prints what was printed since `shown` characters. -/
def flush (shown : Nat) (output : String) : IO Nat := do
  let stdout ← IO.getStdout
  stdout.putStr (String.ofList (output.toList.drop shown))
  stdout.flush
  return output.length

/-- The path of a file that the run is about to look for. -/
def sought? (p : Program.State) : Option String :=
  match (p.session.clients[Program.runner]?).map Client.stage with
  | some (.running _ (.seeking path _ _)) => some path
  | _ => none

/-- Looks for the file that the run wants to know of. -/
def seek (p : Program.State) : IO Program.State := do
  match sought? p with
  | none => return p
  | some path =>
    let found ← fileExists path
    return p.withSession { p.session with isFile := fun q => q = path && found }

/-- Waits a moment, at most until the given time. -/
def wait (began : Nat) (time : Option Nat) : IO Unit := do
  let now := (← IO.monoMsNow) - began
  IO.sleep (UInt32.ofNat (min 5 ((time.getD (now + 5)) - now)))

/-- Runs the program until it ends. -/
partial def loop (input : IO.FS.Stream) (began shown : Nat) (reading : Option Reading)
    (p : Program.State) : IO Outcome := do
  let shown ← flush shown p.session.output
  let p ← seek p
  let pause := fun (time : Option Nat) => do
    match reading with
    | some task =>
      if p.session.takesLine && (← IO.hasFinished task) then
        let line := (task.get.toOption).join
        let now := (← IO.monoMsNow) - began
        let now := min now ((time.getD (now + 1)) - 1)
        let p := (p.withSession (p.session.arrive (max now p.session.now))).receive line
        let reading ← if line.isSome then some <$> readLine input else pure none
        loop input began shown reading p
      else
        wait began time
        loop input began shown reading p
    | none =>
      wait began time
      loop input began shown none p
  match p.next with
  | .now p => loop input began shown reading p
  | .later time q =>
    if time ≤ (← IO.monoMsNow) - began then loop input began shown reading q else pause (some time)
  | .idle => pause none
  | .ended o =>
    let _ ← flush shown o.output
    return o

/-- Looks a script over or runs it. -/
def execute (a : Arguments) : IO Outcome := do
  let settings ← readText a.settings
  let script ← readText a.script
  let w : World := ⟨fun path => if path = a.script then script else settings, fun _ => false, [], 0⟩
  match Program.documents a w with
  | .error f => return .failed "" f
  | .ok ds =>
    if a.check then
      let o := Program.check .standard ds
      IO.print o.output
      return o
    else
      let h := Program.settings a w
      let p := Program.start .standard h ds (← calendar) fun _ => false
      let input ← IO.getStdin
      loop input (← IO.monoMsNow) 0 (some (← readLine input)) p

end Dialogue.Main

/-- The program. -/
def main (words : List String) : IO UInt32 := do
  match Dialogue.Arguments.read words with
  | .error .usage =>
    IO.eprint Dialogue.Main.usage
    return UInt32.ofNat Dialogue.Outcome.misuse.exit
  | .error .information =>
    IO.print Dialogue.Main.usage
    return 0
  | .ok a =>
    let o ← Dialogue.Main.execute a
    if let some f := o.failure then IO.eprintln f.text
    return UInt32.ofNat o.exit
