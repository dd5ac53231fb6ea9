import Dialogue.Content.Message
import Dialogue.Content.Settings
import Dialogue.Conversation.Clock
import Dialogue.Conversation.Event
import Dialogue.Conversation.Slot
/-!
# The state of a conversation

A `Conversation` holds the list of messages, the queue of items that are still to come, and all
that is under way: the pumps that work the queue off, the notices that follow messages, the calls
of queued functions and the waits for input. Each of these goes on in steps, between which
anything else may happen; other modules define the steps, and this one the state and the changes
that concern the message list alone.

What has to go on later is announced by `Signal`s. A scheduler reads them; the conversation itself
does not depend on when, or whether, it does.
-/

namespace Dialogue

/-! ### Things under way -/

/-- A function in the queue. -/
inductive Job where
  /-- Opens the input field. -/
  | openInput
  /-- A function of the host that takes some milliseconds and gives a value. -/
  | host (name : String) (duration : Nat) (value : Json)
  deriving Inhabited

/-- The value of a function. -/
def Job.value : Job → Json
  | .openInput => .null
  | .host _ _ value => value

/-- A message on its way: its payload, the event on its delivery, and the callback of its button. -/
structure Delivery where
  payload : Payload
  hook : Option Event
  fixme : Option String
  deriving Inhabited

/-- An item of the queue. -/
inductive Item where
  | message (d : Delivery)
  /-- A function, and the number of the ticket that its value goes to. -/
  | call (ticket : Nat) (job : Job)
  deriving Inhabited

/-- An item that was taken out of the queue. A message has a placeholder at an index of the list. -/
inductive Work where
  | message (d : Delivery) (placeholder : Nat)
  | call (ticket : Nat) (job : Job)
  deriving Inhabited

/-- The item as it is worked on. A message has its placeholder at the given index. -/
def Item.work (i : Item) (placeholder : Nat) : Work :=
  match i with
  | .message d => .message d placeholder
  | .call ticket job => .call ticket job

/-- How far a pump has come. -/
inductive PumpStage where
  /-- It has taken an item and not begun with it. -/
  | taken (work : Work)
  /-- A message is being typed until the given time. -/
  | typing (d : Delivery) (placeholder : Nat) (due : Nat)
  /-- A function runs until the given time. -/
  | calling (ticket : Nat) (job : Job) (due : Nat)
  /-- It is through with its item, and has neither told of its message nor looked for the next
  item. -/
  | through (work : Work) (news : Option Message)
  /-- It has ended. -/
  | ended
  deriving Inhabited

/-- A task that works the queue off. It belongs to the generation in which it was started. -/
structure Pump where
  generation : Nat
  stage : PumpStage
  deriving Inhabited

/-- How far the notice of a message has come. -/
inductive Notice where
  /-- It will be sent after a delay, given in tenths of a millisecond. -/
  | fresh (message : Message) (delay : Nat)
  /-- It will be sent at the given time. -/
  | pending (message : Message) (due : Nat)
  | sent
  deriving Inhabited

/-- What became of the call of a queued function. -/
inductive Fate where
  | waiting
  | answered (value : Json)
  /-- The item was thrown away. -/
  | lost
  /-- The caller has gone. -/
  | dropped
  deriving Inhabited

/-- The call of a queued function, and the client that made it. -/
structure Ticket where
  owner : Nat
  fate : Fate
  deriving Inhabited

/-- The call after it has got a fate; one that is not open any more keeps its own. -/
def Ticket.settle (f : Fate) : Ticket → Ticket
  | ⟨owner, .waiting⟩ => ⟨owner, f⟩
  | t => t

/-- How far a wait for input has come. -/
inductive WaitStage where
  /-- The item that opens the input field has not been answered. -/
  | opening (ticket : Nat)
  /-- A receiver of the input slot is listened to. -/
  | listening (receiver : Nat)
  | ended (result : Except RunError Json)
  /-- The one who waited has gone. -/
  | dropped
  deriving Inhabited

/-- A wait for input, and the client that waits. -/
structure Wait where
  owner : Nat
  /-- Does it open the input field? -/
  enable : Bool
  stage : WaitStage
  deriving Inhabited

/-! ### Signals -/

/-- Something that goes on in steps. -/
inductive TaskId where
  | pump (n : Nat)
  | notice (n : Nat)
  | client (n : Nat)
  /-- Prints what was delivered. -/
  | renderer
  /-- Hands lines over as answers. -/
  | forwarder
  deriving DecidableEq, Repr, Inhabited

/-- What a scheduler is told. -/
inductive Signal where
  /-- The task can go on. -/
  | wake (t : TaskId)
  /-- The task can go on at the given time. -/
  | wakeAt (due : Nat) (t : TaskId)
  /-- A notice was sent to the subscribers. -/
  | published
  deriving DecidableEq, Repr, Inhabited

/-! ### The conversation -/

/-- The state of a conversation. -/
structure Conversation where
  messages : List Message
  queue : List Item
  /-- Is the queue being worked off? -/
  pumping : Bool
  /-- How often the conversation was cleared. -/
  generation : Nat
  input : InputState
  settings : Settings
  /-- The callback of the buttons of messages to come. -/
  fixme : Option String
  /-- Which texts are accepted as answers. -/
  validator : Option (String → Bool)
  /-- The callbacks of the buttons of messages, by index, the newest first. -/
  fixmes : List (Nat × String)
  slot : InputSlot
  pumps : List Pump
  notices : List Notice
  tickets : List Ticket
  waits : List Wait
  clock : Clock
  /-- The time in milliseconds. -/
  now : Nat
  /-- The notices that were sent, the oldest first. -/
  sent : List Message
  /-- The events so far, each with its time. -/
  journal : List (Nat × Event)
  signals : List Signal
  deriving Inhabited

namespace Conversation

/-- A conversation in which nothing has happened. -/
def start (settings : Settings) (clock : Clock) : Conversation where
  messages := []
  queue := []
  pumping := false
  generation := 0
  input := .standard
  settings := settings
  fixme := none
  validator := none
  fixmes := []
  slot := .empty
  pumps := []
  notices := []
  tickets := []
  waits := []
  clock := clock
  now := 0
  sent := []
  journal := []
  signals := []

/-- Is nothing queued or being delivered? -/
def isIdle (c : Conversation) : Bool := !c.pumping && c.queue.isEmpty

/-- Is somebody waiting for input? -/
def isAwaiting (c : Conversation) : Bool := c.slot.isPending

/-- The description of a conversation. -/
def text (c : Conversation) : String :=
  "ContentManager \x7b messages: " ++ toString c.messages.length
    ++ ", queued: " ++ toString c.queue.length ++ ", pumping: " ++ toString c.pumping ++ " \x7d"

/-! ### Signals and events -/

/-- Adds a signal. -/
def signal (c : Conversation) (s : Signal) : Conversation := { c with signals := c.signals ++ [s] }

/-- Tells that a task can go on. -/
def wake (c : Conversation) (t : TaskId) : Conversation := c.signal (.wake t)

/-- Tells when a task can go on, unless it can do so now. -/
def wakeAt (c : Conversation) (due : Nat) (t : TaskId) : Conversation :=
  { c with signals := if due ≤ c.now then c.signals else c.signals ++ [.wakeAt due t] }

/-- Writes events into the journal. -/
def recordAll (c : Conversation) (es : List Event) : Conversation :=
  { c with journal := c.journal ++ es.map fun e => (c.now, e) }

/-- Writes an event into the journal. -/
def record (c : Conversation) (e : Event) : Conversation := c.recordAll [e]

/-! ### The message list -/

/-- Does a message of kind `k` start a group when it stands after `before`? -/
def startsGroup (before : List Message) (k : MessageKind) : Bool :=
  match before.getLast? with
  | none => true
  | some m => m.kind ≠ k

/-- The message that a payload becomes at the end of the list. -/
def newMessage (c : Conversation) (p : Payload) : Message := ⟨p, startsGroup c.messages p.kind⟩

/-- Adds a message at the end. -/
def add (c : Conversation) (p : Payload) : Conversation :=
  { c with messages := c.messages ++ [c.newMessage p] }

/-- The message that a payload becomes at an index; behind the end it is a new one. -/
def messageAt (c : Conversation) (i : Nat) (p : Payload) : Message :=
  ⟨p, startsGroup (c.messages.take i) p.kind⟩

/-- Puts a message in place of the one at an index; behind the end it is added. -/
def replaceAt (c : Conversation) (i : Nat) (p : Payload) : Conversation :=
  { c with messages :=
      if i < c.messages.length then c.messages.set i (c.messageAt i p)
      else c.messages ++ [c.newMessage p] }

/-- The index of the last message. -/
def lastIndex (c : Conversation) : Nat := c.messages.length - 1

/-- Puts a message in place of the last one. -/
def replaceLast (c : Conversation) (p : Payload) : Conversation := c.replaceAt c.lastIndex p

/-! ### Buttons -/

/-- The label of the buttons of messages to come. -/
def fixLabel (c : Conversation) : Option String := c.fixme.map fun _ => c.settings.fixLabel

/-- Gives the message at an index a callback for its button. -/
def setFixme (c : Conversation) (i : Nat) (hook : Option String) : Conversation :=
  { c with fixmes := (hook.toList.map fun h => (i, h)) ++ c.fixmes }

/-- The callback of the button of the message at an index. -/
def fixmeAt? (c : Conversation) (i : Nat) : Option String :=
  (c.fixmes.find? (·.1 = i)).map (·.2)

/-- Uses the button of the message at an index, if there is a callback for it. -/
def useFixme (c : Conversation) (i : Nat) : Conversation :=
  c.recordAll ((c.fixmeAt? i).toList.map .fixme)

/-! ### Notices -/

/-- The number of notices that are kept for a subscriber who is slow to take them. -/
def noticesKept : Nat := 256

/-- Sends a notice to the subscribers. -/
def publish (c : Conversation) (m : Message) : Conversation :=
  { c with sent := c.sent ++ [m] }.signal .published

/-- Sends a notice a tenth of the delay of messages later, at once when there is no delay. -/
def announce (c : Conversation) (m : Message) : Conversation :=
  let delay := c.settings.timeout
  { c with
    sent := if delay = 0 then c.sent ++ [m] else c.sent
    notices := if delay = 0 then c.notices else c.notices ++ [.fresh m delay]
    signals := c.signals ++ [if delay = 0 then .published else .wake (.notice c.notices.length)] }

/-- A subscriber that has seen the first `seen` notices gets how many it has missed, and those that
are left for it. -/
def noticesAfter (c : Conversation) (seen : Nat) : Nat × List Message :=
  let fresh := c.sent.drop seen
  (fresh.length - noticesKept, fresh.drop (fresh.length - noticesKept))

/-- Can a notice go on? -/
def noticeReady (c : Conversation) (n : Nat) : Bool :=
  match c.notices[n]? with
  | some (.fresh _ _) => true
  | some (.pending _ due) => due ≤ c.now
  | _ => false

/-- One step of a notice: its delay begins, or it is sent when the delay is over. -/
def stepNotice (c : Conversation) (n : Nat) : Conversation :=
  match c.notices[n]? with
  | some (.fresh m delay) =>
    let due := c.clock.due c.now delay
    { c with notices := c.notices.set n (.pending m due) }.wakeAt due (.notice n)
  | some (.pending m due) =>
    if due ≤ c.now then { c with notices := c.notices.set n .sent }.publish m else c
  | _ => c

end Conversation

end Dialogue
