import Dialogue.Conversation.Input
/-!
# Histories of a conversation

Whatever happens to a conversation is an `Operation`: something that the host or a run does, a step
of something that is under way, or the passing of time. `perform` says what it does. A step that
cannot be taken changes nothing, so a list of operations is a history in which everything under
way goes on in an arbitrary order, with anything else in between.
-/

namespace Dialogue

/-- Something that happens to a conversation. -/
inductive Operation where
  | queue (payload : Payload) (hook : Option Event)
  | queueFrom (text : String)
  | addOptions (lead : Option String) (items : List OptionItem) (selected : Option Json)
      (multi : Bool)
  | addUploader (lead : Option String) (options : Option Json)
  | add (payload : Payload)
  | replace (payload : Payload)
  | addFrom (text : String)
  | report (value : Json)
  | clear
  | setSettings (settings : Settings)
  | setTimeout (timeout : Nat)
  | setFixme (hook : Option String)
  | setValidator (validator : Option (String → Bool))
  /-- Changes the input field, but not whether it is open. -/
  | setInput (change : InputState → InputState)
  | useFixme (index : Nat)
  | call (owner : Nat) (job : Job)
  | dropCall (ticket : Nat)
  | beginWait (owner : Nat) (enable : Bool)
  | dropWait (wait : Nat)
  | stepPump (pump : Nat)
  | stepNotice (notice : Nat)
  | stepWait (wait : Nat)
  /-- Time passes. -/
  | pass (milliseconds : Nat)

namespace Conversation

/-- Changes the input field, but not whether it is open. -/
def changeInput (c : Conversation) (change : InputState → InputState) : Conversation :=
  { c with input := { change c.input with enabled := c.input.enabled } }

/-- Sets the delay of messages. -/
def setTimeout (c : Conversation) (timeout : Nat) : Conversation :=
  { c with settings := { c.settings with timeout } }

/-- Is a ticket held by a wait? The call then goes away with the wait and not by itself. -/
def heldByWait (c : Conversation) (ticket : Nat) : Bool :=
  c.waits.any fun w => match w.stage with
    | .opening t => ticket = t
    | _ => false

/-- What an operation does. -/
def perform (c : Conversation) : Operation → Conversation
  | .queue p hook => c.queueMessage p hook
  | .queueFrom text => c.queueFrom text
  | .addOptions lead items selected multi => c.addOptions lead items selected multi
  | .addUploader lead options => c.addUploader lead options
  | .add p => c.add p
  | .replace p => c.replaceLast p
  | .addFrom text => c.addFrom text
  | .report v => c.report v
  | .clear => c.clear
  | .setSettings settings => { c with settings }
  | .setTimeout timeout => c.setTimeout timeout
  | .setFixme fixme => { c with fixme }
  | .setValidator validator => { c with validator }
  | .setInput change => c.changeInput change
  | .useFixme i => c.useFixme i
  | .call owner job => c.call owner job
  | .dropCall ticket => if c.heldByWait ticket then c else c.dropCall ticket
  | .beginWait owner enable => c.beginWait owner enable
  | .dropWait n => c.dropWait n
  | .stepPump n => c.stepPump n
  | .stepNotice n => c.stepNotice n
  | .stepWait n => c.stepWait n
  | .pass ms => { c with now := c.now + ms }

/-- What a history makes of a conversation. -/
def after (c : Conversation) (history : List Operation) : Conversation := history.foldl perform c

end Conversation

end Dialogue
