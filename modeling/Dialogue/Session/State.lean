import Dialogue.Command.Behaviour
import Dialogue.Console.Answer
import Dialogue.Console.Display
import Dialogue.Conversation.Operation
import Dialogue.Run.Thread
/-!
# The state of a session

A `Session` is a conversation together with those who take part in it: clients that wait for input,
call queued functions or run scripts, and the console, which shows messages and hands typed lines
over as answers. Tasks that can go on stand in the `ready` list in the order in which they were
woken, and tasks that sleep in the list of timers.
-/

namespace Dialogue

/-! ### Clients -/

/-- What a run of a session works with. -/
structure RunContext where
  scene : Scene
  /-- The number of its record. -/
  record : Nat
  table : CommandTable Command

/-- How far the run of a client has come. -/
inductive RunStage where
  /-- The conversation will be cleared, and then the run starts. -/
  | fresh
  | going (r : Run)
  | waiting (wait : Nat) (k : Except RunError Json → Run)
  /-- A command takes its time. -/
  | working (c : CommandSpec) (args : List Argument) (due : Nat) (k : Except String Json → Run)
  /-- A file is being looked for. -/
  | seeking (path : String) (args : List Argument) (k : Except String Json → Run)

/-- How far a client has come. -/
inductive ClientStage where
  /-- It is about to wait for input. -/
  | aboutToWait (enable : Bool)
  | waiting (wait : Nat)
  /-- It is about to call a queued function. -/
  | aboutToCall (job : Job)
  | calling (ticket : Nat)
  | running (ctx : RunContext) (stage : RunStage)
  /-- It is about to fail. -/
  | failing (e : ChatError)
  | ended

/-- Someone who takes part in a conversation. -/
structure Client where
  name : String
  stage : ClientStage

namespace Client

/-- Has the client come to its end? -/
def hasEnded (c : Client) : Bool :=
  match c.stage with
  | .ended => true
  | _ => false

end Client

/-! ### The console -/

/-- How far the handing over of lines has come. -/
inductive ForwarderStage where
  /-- It takes the next line. -/
  | receiving
  /-- It holds a line until somebody waits for input. -/
  | holding (line : String)
  /-- There are no more lines; it interrupts the next wait. -/
  | closing
  | ended
  deriving Inhabited

/-- The console of a session. -/
structure ConsoleState where
  settings : HostSettings
  prompting : Prompting
  /-- The lines that were typed and not taken yet. -/
  lines : List String
  /-- Will no line be typed any more? -/
  closed : Bool
  forwarder : ForwarderStage
  /-- The number of notices that were looked at. -/
  seen : Nat
  deriving Inhabited

/-! ### Sessions -/

/-- The state of a session. -/
structure Session where
  conversation : Conversation
  clients : List Client
  records : List Record
  console : Option ConsoleState
  /-- The tasks that can go on, in the order in which they were woken. -/
  ready : List TaskId
  /-- The tasks that sleep, each with the time at which it wakes, in the order in which they fell
  asleep. -/
  timers : List (Nat × TaskId)
  /-- What was printed. -/
  output : String
  /-- Is there a file of that path? -/
  isFile : String → Bool
  /-- The time at which the session began, in seconds of the calendar. -/
  began : Nat
  /-- Are events of scripts printed? -/
  printsEvents : Bool

namespace Session

/-- A session in which nothing has happened, with one record. -/
def start (settings : Settings) (record : Record) (clock : Clock) (began : Nat)
    (isFile : String → Bool) : Session where
  conversation := .start settings clock
  clients := []
  records := [record]
  console := none
  ready := []
  timers := []
  output := ""
  isFile := isFile
  began := began
  printsEvents := false

/-- Starts the tasks of a console. -/
def withConsole (s : Session) (settings : HostSettings) : Session :=
  { s with
    console := some ⟨settings, .empty, [], false, .receiving, 0⟩
    ready := s.ready ++ [.renderer, .forwarder] }

/-- The time in milliseconds. -/
def now (s : Session) : Nat := s.conversation.now

/-- A record; one that was never entered is empty. -/
def recordAt (s : Session) (n : Nat) : Record := (s.records[n]?).getD .empty

/-- Changes a record. -/
def setRecord (s : Session) (n : Nat) (r : Record) : Session :=
  { s with records := s.records.set n r }

/-- Prints a text. -/
def print (s : Session) (text : String) : Session := { s with output := s.output ++ text }

/-- Changes the stage of a client. -/
def setClient (s : Session) (n : Nat) (stage : ClientStage) : Session :=
  match s.clients[n]? with
  | some c => { s with clients := s.clients.set n { c with stage } }
  | none => s

/-! ### Waking tasks -/

/-- Puts a task behind those that can go on, unless it is among them. -/
def wake (s : Session) (t : TaskId) : Session :=
  if s.ready.contains t then s else { s with ready := s.ready ++ [t] }

/-- Puts a task to sleep until the given time. -/
def sleepUntil (s : Session) (due : Nat) (t : TaskId) : Session :=
  { s with timers := s.timers ++ [(due, t)] }

/-- Obeys a signal of the conversation. -/
def obey (s : Session) : Signal → Session
  | .wake t => s.wake t
  | .wakeAt due t => s.sleepUntil due t
  | .published => if s.console.isSome then s.wake .renderer else s

/-- Obeys the signals of the conversation. -/
def obeySignals (s : Session) : Session :=
  let signals := s.conversation.signals
  signals.foldl obey { s with conversation := { s.conversation with signals := [] } }

/-- Changes the conversation and obeys its signals. -/
def change (s : Session) (f : Conversation → Conversation) : Session :=
  { s with conversation := f s.conversation }.obeySignals

/-- Does something to the conversation. -/
def operate (s : Session) (op : Operation) : Session := s.change fun c => c.perform op

end Session

end Dialogue
