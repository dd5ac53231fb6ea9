import Dialogue.Proofs.Queue.Alike
import Dialogue.Proofs.Session.Noted
/-!
# What a session does to its conversation

In a session clients, the console and the host take turns with the conversation. Whatever they do
to it are operations, so the conversation of a session has a history like any other conversation,
and what is known of all histories is known of all sessions.

* `Session.operations` — the operations of an incident.
* `alike_undergo` — an incident does what its operations do, but for what is told.
* `alike_after` — so do incidents one after the other.
* `history_eq_of_operations` — where an incident stands in the history.
-/

namespace Dialogue

/-- What a command that replies does to the conversation. -/
def Reply.operations (r : Reply) : List Operation :=
  r.said.toList.map fun text => .queue (.to text) none

/-- What a request of a client does to the conversation, unless it calls a command. -/
def Request.operations (owner : Nat) : Request → List Operation
  | .say text entries => [.queue (.to text) (entries.map .noted)]
  | .offer items => [.addOptions none items none false]
  | .requestFile => [.addUploader none none]
  | .openTextArea => [.setInput fun i => { i with textArea := true }]
  | .input => [.beginWait owner true]
  | _ => []

namespace Session

open Conversation

variable {s : Session} {n : Nat}

/-! ## The operations of an incident -/

/-- What the call of a command does to the conversation. A command that takes its time does nothing
yet. -/
def callOperations (s : Session) (ctx : RunContext) (name : String) (args : List Argument) :
    List Operation :=
  match ctx.table.find? name with
  | some (.spec c) =>
    if c.delay.isNone || s.conversation.clock.due s.now (10 * c.delay.getD 0) ≤ s.now then
      (c.reply (s.surroundings ctx args)).operations
    else []
  | some (.builtin b) =>
    match b.reply (s.surroundings ctx args) with
    | .inl r => r.operations
    | .inr _ => []
  | none => []

/-- What a request of a client does to the conversation. -/
def requestOperations (s : Session) (n : Nat) (ctx : RunContext) : Request → List Operation
  | .call name args => s.callOperations ctx name args
  | q => q.operations n

/-- What a step of a run does to the conversation. -/
def runOperations (s : Session) (n : Nat) (ctx : RunContext) : RunStage → List Operation
  | .fresh => [.clear]
  | .going r =>
    match r.next ctx.scene with
    | .asks q _ => s.requestOperations n ctx q
    | _ => []
  | .waiting wait _ => [.stepWait wait]
  | .working c args due _ =>
    if due ≤ s.now then (c.reply (s.surroundings ctx args)).operations else []
  | .seeking path args _ =>
    (Builtin.replyUpload (s.surroundings ctx args) path (s.isFile path)).operations

/-- What a step of a client does to the conversation. -/
def clientOperations (s : Session) (n : Nat) : List Operation :=
  match s.stage? n with
  | some (.aboutToWait enable) => [.beginWait n enable]
  | some (.waiting wait) => [.stepWait wait]
  | some (.aboutToCall job) => [.call n job]
  | some (.running ctx stage) => s.runOperations n ctx stage
  | _ => []

/-- What an answer does to the conversation. -/
def submitOperations (s : Session) : Option Answer → List Operation
  | some (.text t) => if s.conversation.validates t then [.addFrom t] else []
  | some (.upload v) => [.report v]
  | none => []

/-- What the forwarder does to the conversation; a button that it uses is told of only. -/
def forwarderOperations (s : Session) : List Operation :=
  match s.console with
  | none => []
  | some k =>
    match k.forwarder with
    | .holding line =>
      if s.conversation.isAwaiting then
        s.submitOperations (k.prompting.resolve line s.conversation.input.textArea).1
      else []
    | .closing => if s.conversation.isAwaiting then [.clear] else []
    | _ => []

/-- What a session does to its conversation in an incident. -/
def operations (s : Session) : Incident → List Operation
  | .move (.turn (.pump n)) => [.stepPump n]
  | .move (.turn (.notice n)) => [.stepNotice n]
  | .move (.turn (.client n)) => s.clientOperations n
  | .move (.turn .forwarder) => s.forwarderOperations
  | .move (.arrive time) => [.pass (time - s.now)]
  | .operate op => [op]
  | _ => []

/-- What a session does to its conversation in some incidents. -/
def history (s : Session) (is : List Incident) : List Operation := s.gathered operations is

/-! ## Clients -/

theorem alike_finish (result : Except ChatError Json) :
    Alike s.conversation (s.finish n result).conversation := by
  unfold finish
  split
  · rw [conversation_setClient]
    exact alike_told _ _ _
  · exact Alike.refl _

theorem heed_conversation (ctx : RunContext) (r : Reply) :
    (s.heed ctx r).conversation = s.conversation.after r.operations := by
  unfold heed Reply.operations
  cases r.said <;> cases r.printed <;> rfl

theorem alike_callCommand (hw : s.conversation.WorkedOff) (ctx : RunContext) (name : String)
    (args : List Argument) (k : Except String Json → Run) :
    Alike (s.conversation.after (s.callOperations ctx name args))
      (s.callCommand n ctx name args k).1.conversation := by
  have hcalled : ∀ e, Alike s.conversation (s.conversation.record e) := fun e => alike_told _ _ _
  unfold callOperations callCommand
  cases ctx.table.find? name with
  | none => exact Alike.refl _
  | some command =>
      cases command with
      | spec c =>
          dsimp only
          split
          · next hdue =>
            split
            · -- The call is only told of, so the reply does the same after it.
              show Alike _ (heed _ ctx _).conversation
              rw [heed_conversation]
              exact ((hcalled _).after hw _).1
            · next hlater => exact absurd hdue hlater
          · next hlater =>
            split
            · next hdue => exact absurd hdue hlater
            · exact hcalled _
      | builtin b =>
          dsimp only
          cases b.reply (s.surroundings ctx args) with
          | inl r => exact heed_conversation (s := s) ctx r ▸ Alike.refl _
          | inr path => exact alike_told _ _ _

theorem alike_answer (hw : s.conversation.WorkedOff) (ctx : RunContext) (q : Request)
    (k : q.Answer → Run) : Alike (s.conversation.after (s.requestOperations n ctx q))
      (s.answer n ctx q k).1.conversation := by
  cases q with
  | call name args => exact alike_callCommand hw ctx name args k
  | collected | noted => exact alike_told _ _ _
  | fired v =>
      unfold answer
      dsimp only
      split <;> exact alike_told _ _ _
  | say | offer | requestFile | openTextArea | input | record | resolve | store | acting | enter =>
      exact Alike.refl _

theorem alike_stepRun (hw : s.conversation.WorkedOff) (ctx : RunContext) (stage : RunStage) :
    Alike (s.conversation.after (s.runOperations n ctx stage))
      (s.stepRun n ctx stage).1.conversation := by
  unfold stepRun runOperations
  cases stage with
  | fresh =>
      dsimp only
      rw [conversation_setClient]
      exact Alike.refl _
  | going r =>
      dsimp only
      cases r.next ctx.scene with
      | ended result => exact alike_finish _
      | moved r =>
          dsimp only
          rw [conversation_setClient]
          exact Alike.refl _
      | asks q k =>
          dsimp only
          rw [conversation_setClient]
          exact alike_answer hw ctx q k
  | waiting wait k =>
      dsimp only
      split
      · rw [conversation_setClient]
        exact Alike.refl _
      · exact Alike.refl _
  | working c args due k =>
      dsimp only
      split
      · rw [conversation_setClient]
        exact heed_conversation (s := s) ctx _ ▸ Alike.refl _
      · exact Alike.refl _
  | seeking path args k =>
      dsimp only
      rw [conversation_setClient, heed_conversation]
      exact Alike.refl _

theorem alike_stepClient (hw : s.conversation.WorkedOff) (n : Nat) :
    Alike (s.conversation.after (s.clientOperations n)) (s.stepClient n).1.conversation := by
  have hstage : s.stage? n = (s.clients[n]?).map Client.stage := rfl
  unfold clientOperations stepClient
  rw [← hstage]
  cases hs : s.stage? n with
  | none => exact Alike.refl _
  | some stage =>
      cases stage with
      | aboutToWait enable =>
          dsimp only
          rw [conversation_setClient]
          exact Alike.refl _
      | waiting wait =>
          show Alike (s.conversation.stepWait wait) (s.stepWaiting n wait).1.conversation
          unfold stepWaiting
          dsimp only
          split
          · exact alike_finish _
          · exact Alike.refl _
      | aboutToCall job =>
          dsimp only
          rw [conversation_setClient]
          exact Alike.refl _
      | calling ticket =>
          show Alike s.conversation (s.stepCalling n ticket).1.conversation
          unfold stepCalling
          split
          · exact alike_finish _
          · exact Alike.refl _
      | running ctx stage => exact alike_stepRun hw ctx stage
      | failing e => exact alike_finish _
      | ended => exact Alike.refl _

/-! ## The console -/

theorem submit_conversation (a : Option Answer) :
    (s.submit a).conversation = s.conversation.after (s.submitOperations a) := by
  unfold submit submitOperations
  cases a with
  | none => rfl
  | some a =>
      cases a with
      | text t =>
          dsimp only
          split <;> rfl
      | upload v => rfl

theorem alike_useLastButton : Alike s.conversation s.useLastButton.conversation := by
  unfold useLastButton
  split
  · split
    · exact alike_told _ _ _
    · exact Alike.refl _
  · exact Alike.refl _

theorem alike_stepForwarder :
    Alike (s.conversation.after s.forwarderOperations) s.stepForwarder.1.conversation := by
  unfold forwarderOperations stepForwarder
  cases s.console with
  | none => exact Alike.refl _
  | some k =>
      dsimp only
      cases k.forwarder with
      | receiving =>
          dsimp only
          split
          · split
            · exact alike_useLastButton
            · exact Alike.refl _
          · split <;> exact Alike.refl _
      | holding line =>
          dsimp only
          split
          · show Alike _ ((s.setConsole _).submit _).conversation
            rw [submit_conversation]
            exact Alike.refl _
          · exact Alike.refl _
      | closing =>
          dsimp only
          split <;> exact Alike.refl _
      | ended => exact Alike.refl _

/-! ## Incidents -/

theorem alike_step (hw : s.conversation.WorkedOff) (t : TaskId) :
    Alike (s.conversation.after (s.operations (.move (.turn t)))) (s.step t).1.conversation := by
  cases t with
  | pump n => exact Alike.refl _
  | notice n => exact Alike.refl _
  | client n => exact alike_stepClient hw n
  | renderer =>
      obtain ⟨console, output, heq⟩ := stepRenderer_eq s
      show Alike s.conversation s.stepRenderer.1.conversation
      rw [heq]
      exact Alike.refl _
  | forwarder => exact alike_stepForwarder

theorem alike_move (hw : s.conversation.WorkedOff) (m : Move) :
    Alike (s.conversation.after (s.operations (.move m))) (s.move m).conversation := by
  cases m with
  | turn t =>
      show Alike _ (s.turn t).conversation
      rw [conversation_turn]
      exact (alike_step hw t).trans (alike_told _ _ _)
  | arrive time =>
      obtain ⟨ready, timers, heq⟩ := arrive_eq s time
      show Alike _ (s.arrive time).conversation
      rw [heq]
      exact Alike.refl _
  | type line =>
      obtain ⟨console, ready, heq⟩ := type_eq s line
      show Alike _ (s.type line).conversation
      rw [heq]
      exact Alike.refl _
  | close =>
      obtain ⟨console, ready, heq⟩ := close_eq s
      show Alike _ s.close.conversation
      rw [heq]
      exact Alike.refl _
  | join c =>
      obtain ⟨ready, heq⟩ := wake_eq { s with clients := s.clients ++ [c] }
        (.client s.clients.length)
      show Alike _ ({ s with clients := s.clients ++ [c] }.wake _).conversation
      rw [heq]
      exact Alike.refl _

/-- An incident does to the conversation what its operations do, but for what is told. -/
theorem alike_undergo (hw : s.conversation.WorkedOff) (i : Incident) :
    Alike (s.conversation.after (s.operations i)) (s.undergo i).conversation := by
  cases i with
  | move m => exact alike_move hw m
  | operate op =>
      obtain ⟨ready, timers, heq⟩ := operate_eq s op
      show Alike _ (s.operate op).conversation
      rw [heq]
      exact alike_told _ _ _
  | setRecord n r => exact Alike.refl _

/-- The conversation of a session is what its history makes of it, but for what is told. -/
theorem alike_after (hw : s.conversation.WorkedOff) (is : List Incident) :
    Alike (s.conversation.after (s.history is)) (s.after is).conversation := by
  induction is generalizing s with
  | nil => exact Alike.refl _
  | cons i is ih =>
      have hfirst := alike_undergo hw i
      have hafter : s.conversation.after (s.history (i :: is)) =
          (s.conversation.after (s.operations i)).after ((s.undergo i).history is) :=
        List.foldl_append
      rw [hafter]
      exact (hfirst.after (hw.after _) _).1.trans (ih ((accounts_undergo s i).worked hw))

theorem alike_start {settings : Settings} {clock : Clock}
    (hstart : s.conversation = .start settings clock) (is : List Incident) :
    Alike ((Conversation.start settings clock).after (s.history is)) (s.after is).conversation := by
  rw [← hstart]
  exact alike_after (hstart ▸ workedOff_start settings clock) is

/-! ## Parts of a history -/

theorem history_append (is is' : List Incident) :
    s.history (is ++ is') = s.history is ++ (s.after is).history is' := by
  induction is generalizing s with
  | nil => rfl
  | cons i is ih =>
      show s.operations i ++ (s.undergo i).history (is ++ is') = _
      rw [ih, ← List.append_assoc]
      rfl

/-- What comes before an incident that is one operation, and what comes after it. -/
theorem history_eq_of_operations {before : List Incident} {i : Incident} {op : Operation}
    (hop : (s.after before).operations i = [op]) (later : List Incident) :
    s.history (before ++ i :: later) =
      s.history before ++ op :: (s.after (before ++ [i])).history later := by
  rw [history_append, after_append]
  show _ ++ ((s.after before).operations i ++ _) = _
  rw [hop]
  rfl

end Session

end Dialogue
