import Dialogue.Session.State
/-!
# Turns of clients

What a client does in one step: it begins to wait or to call, takes a result, or lets its script go
on by one request. Each step also says whether the client can go on at once; a client that cannot
goes on after it was woken.
-/

namespace Dialogue.Session

/-- Changes the conversation. Its signals are obeyed at the end of the step. -/
def converse (s : Session) (f : Conversation → Conversation) : Session :=
  { s with conversation := f s.conversation }

/-- A client comes to its end. -/
def finish (s : Session) (n : Nat) (result : Except ChatError Json) : Session :=
  match s.clients[n]? with
  | some c => (s.converse fun v => v.record (.ended c.name result)).setClient n .ended
  | none => s

/-! ### Waits and calls -/

/-- A client that waits for input goes on. -/
def stepWaiting (s : Session) (n wait : Nat) : Session × Bool :=
  let s := s.converse fun v => v.stepWait wait
  match s.conversation.waitResult? wait with
  | some result => (s.finish n (result.mapError .run), false)
  | none => (s, s.conversation.waitReady wait)

/-- A client that has called a queued function goes on. -/
def stepCalling (s : Session) (n ticket : Nat) : Session × Bool :=
  match s.conversation.callResult? ticket with
  | some result => (s.finish n (result.mapError .run), false)
  | none => (s, false)

/-! ### Commands -/

/-- What a command of a run can look at. -/
def surroundings (s : Session) (ctx : RunContext) (args : List Argument) : Surroundings where
  args := args
  record := s.recordAt ctx.record
  knows := ctx.table.contains
  settings := s.conversation.settings
  seconds := s.began + s.now / 1000

/-- Does what a command says. -/
def heed (s : Session) (ctx : RunContext) (r : Reply) : Session :=
  let s := s.setRecord ctx.record r.record
  let s := match r.said with
    | some text => s.converse fun v => v.addTo text none
    | none => s
  match r.printed with
  | some text => s.print text
  | none => s

/-- A command described by data replies. -/
def replySpec (s : Session) (ctx : RunContext) (c : CommandSpec) (args : List Argument)
    (k : Except String Json → Run) : Session × RunStage × Bool :=
  let r := c.reply (s.surroundings ctx args)
  (s.heed ctx r, .going (k r.result), true)

/-- A run calls a command. -/
def callCommand (s : Session) (n : Nat) (ctx : RunContext) (name : String) (args : List Argument)
    (k : Except String Json → Run) : Session × RunStage × Bool :=
  match ctx.table.find? name with
  | some (.spec c) =>
    let s := s.converse fun v => v.record (.command name args (s.recordAt ctx.record))
    let due := s.conversation.clock.due s.now (10 * c.delay.getD 0)
    if c.delay.isNone || due ≤ s.now then s.replySpec ctx c args k
    else (s.sleepUntil due (.client n), .working c args due k, false)
  | some (.builtin b) =>
    match b.reply (s.surroundings ctx args) with
    | .inl r => (s.heed ctx r, .going (k r.result), true)
    | .inr path => (s.converse fun v => v.wake (.client n), .seeking path args k, false)
  | none => (s, .going (k (.error "")), true)

/-! ### Runs -/

/-- Answers a request of a run. -/
def answer (s : Session) (n : Nat) (ctx : RunContext) :
    (q : Request) → (q.Answer → Run) → Session × RunStage × Bool
  | .record, k => (s, .going (k (s.recordAt ctx.record)), true)
  | .say text noted, k =>
    (s.converse fun v => v.addTo text (noted.map .noted), .going (k ()), true)
  | .offer items, k =>
    (s.converse fun v => v.addOptions none items none false, .going (k ()), true)
  | .requestFile, k => (s.converse fun v => v.addUploader none none, .going (k ()), true)
  | .openTextArea, k =>
    (s.converse fun v => v.changeInput fun i => { i with textArea := true }, .going (k ()), true)
  | .input, k =>
    (s.converse fun v => v.beginWait n true, .waiting s.conversation.waits.length k, true)
  | .resolve name, k => (s, .going (k (ctx.table.contains name)), true)
  | .call name args, k => s.callCommand n ctx name args k
  | .store key v, k =>
    (s.setRecord ctx.record ((s.recordAt ctx.record).set key v), .going (k ()), true)
  | .collected key value, k =>
    (s.converse fun v => v.record (.collected key value), .going (k ()), true)
  | .noted entries, k => (s.converse fun v => v.record (.noted entries), .going (k ()), true)
  | .fired value, k =>
    let s := s.converse fun v => v.record (.fired value)
    (if s.printsEvents then s.print ("🔔 " ++ value.text ++ "\n") else s, .going (k ()), true)
  | .acting _ _, k => (s, .going (k ()), true)
  | .enter _, k => (s, .going (k false), true)

/-- A run goes on by one step. -/
def stepRun (s : Session) (n : Nat) (ctx : RunContext) (stage : RunStage) : Session × Bool :=
  let resume := fun (x : Session × RunStage × Bool) =>
    (x.1.setClient n (.running ctx x.2.1), x.2.2)
  match stage with
  | .fresh => resume (s.converse Conversation.clear, .going (.start ctx.scene), true)
  | .going r =>
    match r.next ctx.scene with
    | .ended result => (s.finish n (result.map .bool), false)
    | .moved r => resume (s, .going r, true)
    | .asks q k => resume (s.answer n ctx q k)
  | .waiting wait k =>
    let s := s.converse fun v => v.stepWait wait
    match s.conversation.waitResult? wait with
    | some result => resume (s, .going (k result), true)
    | none => (s, s.conversation.waitReady wait)
  | .working c args due k =>
    if due ≤ s.now then resume (s.replySpec ctx c args k) else (s, false)
  | .seeking path args k =>
    let r := Builtin.replyUpload (s.surroundings ctx args) path (s.isFile path)
    resume (s.heed ctx r, .going (k r.result), true)

/-! ### All clients -/

/-- A client goes on by one step. -/
def stepClient (s : Session) (n : Nat) : Session × Bool :=
  match (s.clients[n]?).map Client.stage with
  | some (.aboutToWait enable) =>
    let wait := s.conversation.waits.length
    ((s.converse fun v => v.beginWait n enable).setClient n (.waiting wait), true)
  | some (.waiting wait) => s.stepWaiting n wait
  | some (.aboutToCall job) =>
    let ticket := s.conversation.tickets.length
    ((s.converse fun v => v.call n job).setClient n (.calling ticket), true)
  | some (.calling ticket) => s.stepCalling n ticket
  | some (.running ctx stage) => s.stepRun n ctx stage
  | some (.failing e) => (s.finish n (.error e), false)
  | _ => (s, false)

/-- Lets a client take part. It goes on when its turn comes. -/
def join (s : Session) (c : Client) : Session :=
  { s with clients := s.clients ++ [c] }.wake (.client s.clients.length)

/-- Takes a client out of the conversation, whatever it is doing. -/
def dismiss (s : Session) (n : Nat) : Session :=
  let s := match (s.clients[n]?).map Client.stage with
    | some (.waiting wait) => s.converse fun v => v.dropWait wait
    | some (.calling ticket) => s.converse fun v => v.dropCall ticket
    | some (.running _ (.waiting wait _)) => s.converse fun v => v.dropWait wait
    | _ => s
  s.setClient n .ended

end Dialogue.Session
