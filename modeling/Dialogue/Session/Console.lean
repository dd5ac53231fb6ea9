import Dialogue.Session.Client
/-!
# Turns of the console

The renderer shows what was delivered, a notice at a time, and invites an answer while the input
field is open. The forwarder takes the typed lines one by one, holds each until somebody waits for
input, and hands over the answer that the line gives; it looks every twenty milliseconds. When no
more lines can come it interrupts the next wait.
-/

namespace Dialogue.Session

/-- Changes the state of the console. -/
def setConsole (s : Session) (k : ConsoleState) : Session := { s with console := some k }

/-! ### Showing messages -/

/-- Shows a message, and a prompt when the input field is open. -/
def showMessage (s : Session) (k : ConsoleState) (m : Message) : Session :=
  let s := s.setConsole { k with prompting := k.prompting.observe m, seen := k.seen + 1 }
  let s := match Console.format? k.settings m with
    | some text => s.print (text ++ "\n")
    | none => s
  if s.conversation.input.enabled then
    s.print (Console.prompt s.conversation.input k.settings.content)
  else s

/-- The renderer goes on by one notice. Notices that it was too slow for are passed over. -/
def stepRenderer (s : Session) : Session × Bool :=
  match s.console with
  | none => (s, false)
  | some k =>
    match s.conversation.noticesAfter k.seen with
    | (_, []) => (s, false)
    | (0, m :: _) => (s.showMessage k m, true)
    | (missed, _) => (s.setConsole { k with seen := k.seen + missed }, true)

/-! ### Handing over lines -/

/-- How long the forwarder waits before it looks again, in tenths of a millisecond. -/
def pollDelay : Nat := 200

/-- The index of the last message with a button. -/
def lastWithButton? (messages : List Message) : Option Nat :=
  ((messages.zipIdx).filter fun m => m.1.payload.fixme.isSome).getLast?.map (·.2)

/-- Uses the button of the last message that has one. -/
def useLastButton (s : Session) : Session :=
  match lastWithButton? s.conversation.messages with
  | some i =>
    if (s.conversation.fixmeAt? i).isSome then s.converse fun v => v.useFixme i
    else s.print "⚠️ 没有可以修改的回答\n"
  | none => s.print "⚠️ 没有可以修改的回答\n"

/-- Hands over an answer. A text that is not accepted is refused. -/
def submit (s : Session) : Option Answer → Session
  | some (.text t) =>
    if s.conversation.validates t then s.converse fun v => v.addFrom t
    else s.print "⚠️ 输入无效，请重新输入\n"
  | some (.upload v) => s.converse fun c => c.report v
  | none => s

/-- Hands a line over to whoever waits for input. -/
def forward (s : Session) (k : ConsoleState) (line : String) : Session :=
  let (answer, prompting) := k.prompting.resolve line s.conversation.input.textArea
  (s.setConsole { k with prompting, forwarder := .receiving }).submit answer

/-- The forwarder looks again later. -/
def lookAgain (s : Session) : Session × Bool :=
  (s.sleepUntil (s.conversation.clock.due s.now pollDelay) .forwarder, false)

/-- The forwarder goes on by one step. -/
def stepForwarder (s : Session) : Session × Bool :=
  match s.console with
  | none => (s, false)
  | some k =>
    match k.forwarder with
    | .receiving =>
      match k.lines with
      | line :: lines =>
        if Text.trim line = Console.fixWord then
          ((s.setConsole { k with lines }).useLastButton, true)
        else (s.setConsole { k with lines, forwarder := .holding line }, true)
      | [] => if k.closed then (s.setConsole { k with forwarder := .closing }, true) else (s, false)
    | .holding line =>
      if s.conversation.isAwaiting then (s.forward k line, true) else s.lookAgain
    | .closing =>
      if s.conversation.isAwaiting then
        ((s.setConsole { k with forwarder := .ended }).converse Conversation.clear, false)
      else s.lookAgain
    | .ended => (s, false)

/-- The forwarder is woken if it waits for a line. -/
def wakeForwarder (s : Session) (k : ConsoleState) : Session :=
  match k.forwarder with
  | .receiving => s.wake .forwarder
  | _ => s

/-- Can a line be typed? -/
def takesLine (s : Session) : Bool :=
  match s.console with
  | some k => !k.closed
  | none => false

/-- A line is typed. No line comes after the end of the input. -/
def type (s : Session) (line : String) : Session :=
  match s.console with
  | some k =>
    if s.takesLine then (s.setConsole { k with lines := k.lines ++ [line] }).wakeForwarder k else s
  | none => s

/-- No more lines will be typed. -/
def close (s : Session) : Session :=
  match s.console with
  | some k => (s.setConsole { k with closed := true }).wakeForwarder k
  | none => s

/-- A line is typed, or the input ends. -/
def receive (s : Session) (line : Option String) : Session :=
  match line with
  | some line => s.type line
  | none => s.close

/-- The forwarder is stopped. -/
def stopForwarder (s : Session) : Session :=
  match s.console with
  | some k => s.setConsole { k with forwarder := .ended }
  | none => s

end Dialogue.Session
