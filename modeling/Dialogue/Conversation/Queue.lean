import Dialogue.Conversation.State
/-!
# The queue of a conversation

Items are worked off one after another, in the order in which they were put in. Whoever puts an
item into an idle queue takes the head out and starts a pump with it; a pump that is through with
its item takes the next one, and ends when there is none. For a message that is taken out a
placeholder is added to the list; after the delay the message stands in its place, and notice is
given of it. A function is called and its value goes to whoever holds its ticket.

A pump notices by its generation that the conversation was cleared, and then ends without touching
anything.
-/

namespace Dialogue.Conversation

/-! ### Tickets -/

/-- What became of a call. One that was never made counts as dropped. -/
def fate (c : Conversation) (ticket : Nat) : Fate :=
  ((c.tickets[ticket]?).map Ticket.fate).getD .dropped

/-- Who waits for the value of a call, if the call is still open. -/
def caller? (c : Conversation) (ticket : Nat) : Option Nat :=
  match c.tickets[ticket]? with
  | some ⟨owner, .waiting⟩ => some owner
  | _ => none

/-- Settles a call that is still open, and wakes its owner. -/
def settle (c : Conversation) (ticket : Nat) (f : Fate) : Conversation :=
  { c with
    tickets := c.tickets.modify ticket (Ticket.settle f)
    signals := c.signals ++ (c.caller? ticket).toList.map fun owner => .wake (.client owner) }

/-! ### Taking the head -/

/-- A message that is taken out of the queue gets a placeholder at the end of the list. -/
def makeRoom (c : Conversation) (i : Item) : Conversation :=
  { c with messages := match i with
    | .message _ => (c.add .typing).messages
    | .call _ _ => c.messages }

/-- Takes the head out of the queue. -/
def takeHead? (c : Conversation) : Option (Work × Conversation) :=
  match c.queue with
  | [] => none
  | i :: rest => some (i.work c.messages.length, { c with queue := rest }.makeRoom i)

/-- Starts a pump of the current generation. -/
def startPump (c : Conversation) (w : Work) : Conversation :=
  { c with pumps := c.pumps ++ [Pump.mk c.generation (.taken w)] }.wake (.pump c.pumps.length)

/-- Puts an item into the queue, and starts a pump unless one is at work. -/
def push (c : Conversation) (i : Item) : Conversation :=
  let c := { c with queue := c.queue ++ [i] }
  if c.pumping then c
  else
    match { c with pumping := true }.takeHead? with
    | some (w, c) => c.startPump w
    | none => c

/-! ### Steps of a pump -/

/-- Changes the stage of a pump. -/
def setStage (c : Conversation) (n : Nat) (stage : PumpStage) : Conversation :=
  { c with pumps := c.pumps.modify n fun p => { p with stage } }

/-- A pump begins with the item it has taken. -/
def beginWork (c : Conversation) (n : Nat) (w : Work) : Conversation :=
  match w with
  | .message d placeholder =>
    let due := c.clock.due c.now (10 * c.settings.timeout)
    (c.setStage n (.typing d placeholder due)).wakeAt due (.pump n)
  | .call ticket .openInput =>
    let c := { c with input := { c.input with enabled := true } }
    (c.settle ticket (.answered .null)).setStage n (.through w none)
  | .call ticket (.host name duration value) =>
    let c := c.record (.called name)
    let due := if duration = 0 then c.now else c.clock.due c.now (10 * duration)
    (c.setStage n (.calling ticket (.host name duration value) due)).wakeAt due (.pump n)

/-- A message takes the place of its placeholder, and its hook is called. -/
def deliver (c : Conversation) (d : Delivery) (placeholder : Nat) : Conversation :=
  ((c.setFixme placeholder d.fixme).replaceAt placeholder d.payload).recordAll d.hook.toList

/-- The message of a pump is delivered, unless the conversation was cleared since the pump was
started. -/
def finishTyping (c : Conversation) (n : Nat) (generation : Nat) (d : Delivery)
    (placeholder : Nat) : Conversation :=
  if c.generation ≠ generation then c.setStage n .ended
  else
    let message := c.messageAt placeholder d.payload
    (c.deliver d placeholder).setStage n (.through (.message d placeholder) (some message))

/-- The function of a pump gives its value. -/
def finishCall (c : Conversation) (n : Nat) (ticket : Nat) (job : Job) : Conversation :=
  (c.settle ticket (.answered job.value)).setStage n (.through (.call ticket job) none)

/-- Tells of a message, if there is one to tell of. -/
def tell (c : Conversation) (news : Option Message) : Conversation :=
  match news with
  | some m => c.announce m
  | none => c

/-- What a pump does after an item: it ends when the conversation was cleared since it was started,
and otherwise takes the next item or stops the work. -/
def nextItem (c : Conversation) (n : Nat) (generation : Nat) : Conversation :=
  if c.generation ≠ generation then c.setStage n .ended
  else
    match c.takeHead? with
    | some (w, c) => c.setStage n (.taken w)
    | none => { c with pumping := false }.setStage n .ended

/-- Can a pump go on? -/
def pumpReady (c : Conversation) (n : Nat) : Bool :=
  match (c.pumps[n]?).map Pump.stage with
  | some (.taken _) => true
  | some (.typing _ _ due) => due ≤ c.now
  | some (.calling _ _ due) => due ≤ c.now
  | some (.through _ _) => true
  | _ => false

/-- One step of a pump; nothing happens when it cannot go on. Between two steps of one turn stands
what a hook or a function does to the conversation. -/
def stepPump (c : Conversation) (n : Nat) : Conversation :=
  match c.pumps[n]? with
  | some ⟨_, .taken w⟩ => c.beginWork n w
  | some ⟨g, .typing d placeholder due⟩ =>
    if due ≤ c.now then c.finishTyping n g d placeholder else c
  | some ⟨_, .calling ticket job due⟩ => if due ≤ c.now then c.finishCall n ticket job else c
  | some ⟨g, .through _ news⟩ => (c.tell news).nextItem n g
  | _ => c

/-! ### Putting things into the queue -/

/-- Queues a message. -/
def queueMessage (c : Conversation) (p : Payload) (hook : Option Event) : Conversation :=
  c.push (.message ⟨p, hook, none⟩)

/-- Queues a text to the user. -/
def addTo (c : Conversation) (text : String) (hook : Option Event) : Conversation :=
  c.queueMessage (.to text) hook

/-- Queues a text from the user, with a button if one is set. -/
def queueFrom (c : Conversation) (text : String) : Conversation :=
  c.push (.message ⟨.from text c.fixLabel, none, c.fixme⟩)

/-- Queues a text, if there is one, without a hook. -/
def addLead (c : Conversation) (text : Option String) : Conversation :=
  match text with
  | some t => c.addTo t none
  | none => c

/-- Queues a list of options behind an optional text, with a button if one is set. -/
def addOptions (c : Conversation) (lead : Option String) (items : List OptionItem)
    (selected : Option Json) (multi : Bool) : Conversation :=
  let c := c.addLead lead
  c.push (.message ⟨.options items selected multi c.fixLabel, none, c.fixme⟩)

/-- Queues a request for a file behind an optional text. -/
def addUploader (c : Conversation) (lead : Option String) (options : Option Json) : Conversation :=
  (c.addLead lead).queueMessage (.uploader options) none

/-- Queues a function on behalf of a client. The ticket is the number of tickets before. -/
def call (c : Conversation) (owner : Nat) (job : Job) : Conversation :=
  { c with tickets := c.tickets ++ [Ticket.mk owner .waiting] }.push (.call c.tickets.length job)

/-- The caller of a queued function goes away. The function stays in the queue. -/
def dropCall (c : Conversation) (ticket : Nat) : Conversation :=
  { c with tickets := c.tickets.modify ticket fun t => { t with fate := .dropped } }

/-- What the caller of a queued function gets: nothing yet, a value, or an interruption. -/
def callResult? (c : Conversation) (ticket : Nat) : Option (Except RunError Json) :=
  match c.fate ticket with
  | .answered v => some (.ok v)
  | .lost => some (.error .interrupted)
  | _ => none

end Dialogue.Conversation
