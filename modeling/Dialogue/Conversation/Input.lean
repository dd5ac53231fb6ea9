import Dialogue.Conversation.Queue
/-!
# Waiting for input

A wait that opens the input field first sends a function through the queue, so that all messages
queued before it are delivered; then it registers with the input slot, and at last it gets the
value that is reported, which closes the field. `clear` throws everything away and interrupts
whoever waits.
-/

namespace Dialogue.Conversation

/-! ### Waits -/

/-- Changes the stage of a wait. -/
def setWait (c : Conversation) (n : Nat) (stage : WaitStage) : Conversation :=
  { c with waits := c.waits.modify n fun w => { w with stage } }

/-- The stage of a wait. One that was never begun counts as dropped. -/
def waitStage (c : Conversation) (n : Nat) : WaitStage :=
  ((c.waits[n]?).map Wait.stage).getD .dropped

/-- A wait registers with the input slot. -/
def listen (c : Conversation) (n : Nat) : Conversation :=
  match c.slot.register with
  | .ok (r, slot) => { c with slot }.setWait n (.listening r)
  | .error e => c.setWait n (.ended (.error e))

/-- Begins a wait on behalf of a client. Its number is the number of waits before. -/
def beginWait (c : Conversation) (owner : Nat) (enable : Bool) : Conversation :=
  let n := c.waits.length
  if enable then
    { c with waits := c.waits ++ [Wait.mk owner enable (.opening c.tickets.length)] }.call owner
      .openInput
  else { c with waits := c.waits ++ [Wait.mk owner enable .dropped] }.listen n

/-- Can a wait go on? -/
def waitReady (c : Conversation) (n : Nat) : Bool :=
  match c.waitStage n with
  | .opening ticket => (c.callResult? ticket).isSome
  | .listening r => !(c.slot.receiver r).isWaiting
  | _ => false

/-- One step of a wait; nothing happens when it cannot go on. -/
def stepWait (c : Conversation) (n : Nat) : Conversation :=
  match c.waitStage n with
  | .opening ticket =>
    match c.callResult? ticket with
    | some (.ok _) => c.listen n
    | some (.error e) => c.setWait n (.ended (.error e))
    | none => c
  | .listening r =>
    match c.slot.take r with
    | (.holding v, slot) =>
      { c with slot, input := { c.input with enabled := false } }.setWait n (.ended (.ok v))
    | (.waiting, _) => c
    | _ => c.setWait n (.ended (.error .interrupted))
  | _ => c

/-- The result of a wait that has ended. -/
def waitResult? (c : Conversation) (n : Nat) : Option (Except RunError Json) :=
  match c.waitStage n with
  | .ended result => some result
  | _ => none

/-- The one who waits goes away. -/
def dropWait (c : Conversation) (n : Nat) : Conversation :=
  match c.waitStage n with
  | .opening ticket => (c.dropCall ticket).setWait n .dropped
  | .listening r => { c with slot := c.slot.drop r }.setWait n .dropped
  | _ => c

/-! ### Values and answers -/

/-- The client whose wait listens to a receiver. -/
def listener? (c : Conversation) (r : Nat) : Option Nat :=
  (c.waits.find? fun w => match w.stage with
    | .listening r' => r = r'
    | _ => false).map Wait.owner

/-- Wakes the client that listens to a receiver, if there is one. -/
def wakeWaiter (c : Conversation) (waiter : Option Nat) : Conversation :=
  { c with signals := c.signals ++ (waiter.bind c.listener?).toList.map fun owner =>
      .wake (.client owner) }

/-- Reports a value to whoever waits; it is lost when nobody does. -/
def report (c : Conversation) (v : Json) : Conversation :=
  { c with slot := c.slot.report v }.wakeWaiter c.slot.waiter?

/-- Takes back what was set for one question. -/
def resetPrompt (c : Conversation) : Conversation :=
  { c with input := c.input.resetPrompt, validator := none, fixme := none }

/-- Adds a text from the user at once and reports it as a value. -/
def addFrom (c : Conversation) (text : String) : Conversation :=
  let p : Payload := .from text c.fixLabel
  let message := c.newMessage p
  let c := (c.add p).setFixme c.messages.length c.fixme
  ((c.report (.string text)).announce message).resetPrompt

/-- Is a text accepted as an answer? -/
def validates (c : Conversation) (text : String) : Bool :=
  match c.validator with
  | some accepts => accepts text
  | none => true

/-! ### Clearing -/

/-- Interrupts the callers of the functions in a list of items. -/
def loseCalls (c : Conversation) (items : List Item) : Conversation :=
  items.foldl (fun c i => match i with
    | .call ticket _ => c.settle ticket .lost
    | .message _ => c) c

/-- Throws all messages and all queued items away and interrupts whoever waits. A pump that is at
work ends when it notices. -/
def clear (c : Conversation) : Conversation :=
  let queue := c.queue
  let c := { c with
    messages := [], fixmes := [], queue := [], pumping := false, generation := c.generation + 1 }
  let c := c.loseCalls queue
  { c with slot := c.slot.cancel }.wakeWaiter c.slot.waiter?

end Dialogue.Conversation
