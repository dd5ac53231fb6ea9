import Dialogue.Host.Arguments
import Dialogue.Session.Schedule
/-!
# The program

The program reads its settings and a script, and then either looks the script over or runs it on
the console. What it prints, how it ends and why it fails is its `Outcome`.

The run is the main task: it goes on when no other task is ready. Once it has ended, the lines that
are still to come are left alone, and the program waits until the last messages were shown.
-/

namespace Dialogue

/-! ### Outcomes -/

/-- Why the program fails. -/
inductive Failure where
  | unreadable (path reason : String)
  | unparsable (e : DecodeError)
  | findings (count : Nat)
  | run (e : ChatError)
  deriving DecidableEq, Repr

namespace Failure

/-- The message of a failure and those of its causes, the outermost first. -/
def messages : Failure → List String
  | .unreadable path reason => ["无法读取脚本: " ++ path, reason]
  | .unparsable e => ["脚本解析失败", (ScriptError.decode e).message]
  | .findings count => ["脚本检查发现 " ++ toString count ++ " 个错误"]
  | .run e => "对话运行失败" :: e.chain

/-- A cause as it is listed: its further lines are indented. -/
def causeText (label : String) (indent : String) (message : String) : String :=
  "\n" ++ label ++ ("\n" ++ indent).intercalate (message.splitOn "\n")

/-- The list of causes. They are numbered if there are several. -/
def causesText : List String → String
  | [] => ""
  | [m] => "\n\nCaused by:" ++ causeText "    " "    " m
  | ms =>
    let numbered := ms.zipIdx.map fun (m, n) =>
      causeText ("".pushn ' ' (5 - (toString n).length) ++ toString n ++ ": ") "       " m
    "\n\nCaused by:" ++ "".intercalate numbered

/-- How a failure is reported. -/
def text (f : Failure) : String :=
  "Error: " ++ (f.messages.head?).getD "" ++ causesText f.messages.tail

end Failure

/-- How the program ends: its exit code, what it has printed, and why it failed. -/
structure Outcome where
  exit : Nat
  output : String
  failure : Option Failure

namespace Outcome

/-- The end of a program that was called wrongly. -/
def misuse : Outcome := ⟨2, "", none⟩

/-- A good end. -/
def success (output : String) : Outcome := ⟨0, output, none⟩

/-- A failure. -/
def failed (output : String) (f : Failure) : Outcome := ⟨1, output, some f⟩

/-- The program was stopped from outside before its end. -/
def stopped : Outcome := ⟨124, "", none⟩

end Outcome

/-- What the program finds outside itself. -/
structure World where
  /-- The text of a file, or the reason why it cannot be read. -/
  read : String → Except String String
  /-- Is there a file of that path? -/
  isFile : String → Bool
  /-- The lines that are typed. -/
  lines : List String
  /-- The time of the calendar, in seconds. -/
  seconds : Nat

namespace Program

/-! ### Looking over -/

/-- The line for a diagnostic of the document of the given number. -/
def diagnosticLine (number : Nat) (d : Diagnostic) : String :=
  "#" ++ toString number ++ " " ++ d.text ++ "\n"

/-- Looks documents over. -/
def check (engine : PatternEngine) (documents : List Document) : Outcome :=
  let found := documents.map fun d => d.analyze engine
  let output := "".intercalate <| found.zipIdx.flatMap fun (ds, n) => ds.map (diagnosticLine n)
  let errors := (found.map (Diagnostic.count .error)).foldl (· + ·) 0
  if errors = 0 then .success (output ++ "✅ 检查通过\n") else .failed output (.findings errors)

/-! ### Running -/

/-- How far the main task has come. -/
inductive Stage where
  /-- The run goes on. -/
  | running
  /-- The run has ended, and it is looked at the given time whether all messages were delivered. -/
  | settling (completed : Bool) (due : Nat)
  /-- The closing line is printed at the given time. -/
  | closing (completed : Bool) (due : Nat)

/-- The program while it runs a document. -/
structure State where
  settings : HostSettings
  session : Session
  stage : Stage
  /-- Was the last turn that of the run? -/
  runnerHasTurn : Bool

/-- What the program does next. -/
inductive Next where
  /-- It goes on at once. -/
  | now (p : State)
  /-- It goes on at the given time. -/
  | later (time : Nat) (p : State)
  /-- It can only go on when a line is typed. -/
  | idle
  | ended (o : Outcome)

/-- The number of the client that runs the script. -/
def runner : Nat := 0

/-- The client that runs a document. -/
def client (engine : PatternEngine) (documents : List Document) (number : Nat) : Client :=
  match ThreadIndex.ofDocuments documents number with
  | .ok ix => ⟨"", .running ⟨⟨ix, engine, .all⟩, 0, Builtin.table⟩ .fresh⟩
  | .error e => ⟨"", .failing (.script e)⟩

/-- The program when it begins to run a document. -/
def start (engine : PatternEngine) (h : HostSettings) (documents : List Document) (seconds : Nat)
    (isFile : String → Bool) : State :=
  let s := Session.start h.content .empty .running seconds isFile
  let s := { s with printsEvents := true }
  ⟨h, (s.join (client engine documents h.document)).withConsole h, .running, true⟩

namespace State

/-- Changes the session. -/
def withSession (p : State) (s : Session) : State := { p with session := s }

/-- The result of the run, if it has ended. -/
def result? (p : State) : Option (Except ChatError Json) :=
  p.session.conversation.journal.findSome? fun e => match e.2 with
    | .ended _ result => some result
    | _ => none

/-- The task that has the next turn. The run keeps its turn as long as it can go on, and otherwise
waits for all others. -/
def nextTask? (p : State) : Option TaskId :=
  let ready := p.session.ready
  if p.runnerHasTurn && ready.head? = some (.client runner) then some (.client runner)
  else (ready.find? (· ≠ .client runner)).or ready.head?

/-- A task has its turn. -/
def turn (p : State) (t : TaskId) : State :=
  { p with session := p.session.turn t, runnerHasTurn := t = .client runner }

/-! ### The end -/

/-- How long the program waits before it looks again whether all messages were delivered, in tenths
of a millisecond. -/
def settleDelay : Nat := 200

/-- The time at which a delay is over that begins now. -/
def due (p : State) (tenths : Nat) : Nat := p.session.conversation.clock.due p.session.now tenths

/-- Looks whether all messages were delivered. If so, only the notice of the last one is awaited. -/
def look (p : State) (completed : Bool) : State :=
  if p.session.conversation.isIdle then
    { p with stage := .closing completed (p.due p.session.conversation.settings.timeout) }
  else { p with stage := .settling completed (p.due settleDelay) }

/-- A good end, with a last line and the record if it is to be shown. -/
def success (p : State) (line : String) : Outcome :=
  let record := (p.session.recordAt 0).toJson.pretty ++ "\n"
  .success (p.session.output ++ line ++ if p.settings.dumpRecord then record else "")

/-- The line at the end of a run that was completed, or not. -/
def closingLine (completed : Bool) : String :=
  if completed then "✅ 对话完成\n" else "⏹ 对话结束\n"

/-- What the program does when the run has ended. No more lines are handed over. -/
def close (p : State) (result : Except ChatError Json) : Next :=
  match result with
  | .ok v => .now ((p.withSession p.session.stopForwarder).look (v.bool? = some true))
  | .error (.run .interrupted) => .ended (p.success "⚠️ 输入已结束，对话中断\n")
  | .error e => .ended (.failed p.session.output (.run e))

/-- What the program does next while the main task sleeps until the given time, which has the first
turn then. -/
def sleep (p : State) (due : Nat) (wake : State → Next) : Next :=
  match p.session.ready, p.session.nextTimer? with
  | t :: _, _ => .now (p.turn t)
  | [], some time =>
    if time < due then .later time (p.withSession (p.session.arrive time))
    else wake (p.withSession (p.session.arrive due))
  | [], none => wake (p.withSession (p.session.arrive due))

/-- What the program does next. -/
def next (p : State) : Next :=
  match p.stage with
  | .running =>
    match p.result?, p.nextTask?, p.session.nextTimer? with
    | some result, _, _ => p.close result
    | none, some t, _ => .now (p.turn t)
    | none, none, some due => .later due (p.withSession (p.session.arrive due))
    | none, none, none => .idle
  | .settling completed due => p.sleep due fun p => .later due (p.look completed)
  | .closing completed due => p.sleep due fun p => .ended (p.success (closingLine completed))

/-- Goes on to the end, when nothing more is typed, unless the fuel is used up before. -/
def complete (p : State) : (fuel : Nat) → Option Outcome
  | 0 => none
  | fuel + 1 =>
    match p.next with
    | .now p => complete p fuel
    | .later _ p => complete p fuel
    | .idle => none
    | .ended o => some o

/-! ### What is typed -/

/-- Some lines were typed before the program goes on, and perhaps the input has ended. -/
def typedAhead (p : State) (lines : List String) (closed : Bool) : State :=
  match p.session.console with
  | some k => p.withSession (p.session.setConsole { k with lines, closed })
  | none => p

/-- A line is typed, or the input ends. -/
def receive (p : State) (line : Option String) : State :=
  p.withSession (p.session.receive line)

end State

/-- The steps that the program may take. -/
def steps : Nat := 10000000

/-- The program when it begins to run a document and the lines were typed before, with which the
input has perhaps ended. -/
def begin (engine : PatternEngine) (h : HostSettings) (documents : List Document) (w : World)
    (closed : Bool) : State :=
  (start engine h documents w.seconds w.isFile).typedAhead w.lines closed

/-- Runs a document on the console, when all lines are typed at the beginning. -/
def run (engine : PatternEngine) (h : HostSettings) (documents : List Document) (w : World) :
    Option Outcome :=
  (begin engine h documents w true).complete steps

/-! ### The whole program -/

/-- The settings that hold for the given arguments. -/
def settings (a : Arguments) (w : World) : HostSettings :=
  (HostSettings.load (w.read a.settings).toOption).override a.document a.timeout a.dumpRecord

/-- Reads the script of the given arguments. -/
def documents (a : Arguments) (w : World) : Except Failure (List Document) :=
  match w.read a.script with
  | .error reason => .error (.unreadable a.script reason)
  | .ok text => (Document.loadAll text).mapError .unparsable

/-- What the program does when it is called with some words. -/
def outcome (engine : PatternEngine) (words : List String) (w : World) : Outcome :=
  match Arguments.read words with
  | .error .usage => .misuse
  | .error .information => .success ""
  | .ok a =>
    match documents a w with
    | .error f => .failed "" f
    | .ok ds =>
      if a.check then check engine ds else (run engine (settings a w) ds w).getD .stopped

end Program

end Dialogue
