import Dialogue.Host.Program
import Dialogue.Proofs.Queue.Pace
import Dialogue.Proofs.Session.Forwarder
/-!
# A run by itself

The run of the program is the only client of its session, and it calls only the commands that are
built in, none of which takes its time. So the run never sleeps: it goes on from request to request
until it waits for input or ends.

* `Does` — what an operation does to a conversation, but for what is written down and told.
* `runStep_stepClient` — what a step of such a run can be.
-/

namespace Dialogue

/-! ## The commands of the program -/

/-- No command of the program takes its time. -/
theorem Builtin.eq_builtin_of_find? {name : String} {command : Command}
    (h : Builtin.table.find? name = some command) : ∃ b, command = .builtin b := by
  have hget : Entries.get? name Builtin.table.entries = some command := h
  simp only [Builtin.table, CommandTable.ofList, Entries.ofList, List.map, List.foldl,
    Entries.get?_insert] at hget
  split at hget
  · exact ⟨_, (Option.some.inj hget).symm⟩
  split at hget
  · exact ⟨_, (Option.some.inj hget).symm⟩
  split at hget
  · exact ⟨_, (Option.some.inj hget).symm⟩
  split at hget
  · exact ⟨_, (Option.some.inj hget).symm⟩
  · cases hget

/-- What a run does to the conversation by itself, apart from its waits. -/
def Operation.isScripted : Operation → Bool
  | .queue p hook => (hook.bind Event.result?).isNone && p.kind ≠ .typing
  | .addOptions _ _ _ _ | .addUploader _ _ | .setInput _ | .clear => true
  | _ => false

/-- Does the client go on by itself? -/
def ClientStage.isGoing : ClientStage → Bool
  | .running _ .fresh | .running _ (.going _) | .running _ (.seeking _ _ _) | .failing _ => true
  | _ => false

/-- Does nothing remain for the client but to end with the error? -/
def ClientStage.FailsWith (e : ChatError) : ClientStage → Prop
  | .running _ (.going r) => r.current = .fail e
  | .failing e' => e' = e
  | _ => False

/-- Does the client clear the conversation next, to begin its run? -/
def ClientStage.IsFresh (stage : ClientStage) : Prop := ∃ ctx, stage = .running ctx .fresh

/-- The client is a run of the program, or it is over. -/
def ClientStage.IsPlain : ClientStage → Prop
  | .running ctx stage => ctx.table = Builtin.table ∧ ∀ c args due k, stage ≠ .working c args due k
  | .failing _ | .ended => True
  | _ => False

theorem forall_eq_none {α : Type} {P : α → Prop} : ∀ a, none = some a → P a :=
  fun _ h => by cases h

theorem forall_eq_some {α : Type} {P : α → Prop} {x : α} (h : P x) : ∀ a, some x = some a → P a :=
  fun _ ha => Option.some.inj ha ▸ h

namespace Conversation

/-- The conversation after an operation, if there is one. -/
def doing (c : Conversation) : Option Operation → Conversation
  | some op => c.perform op
  | none => c

/-- The conversation becomes what the operation makes of it, but for what is written down and for
clients that are woken. -/
def Does (c : Conversation) (op : Option Operation) (c' : Conversation) : Prop :=
  ∃ (journal : List (Nat × Event)) (clients : List Nat), c' = { c.doing op with
    journal
    signals := (c.doing op).signals ++ clients.map fun n => .wake (.client n) }

variable {c c' c'' : Conversation} {op : Option Operation}

theorem Does.refl (c : Conversation) (op : Option Operation) : c.Does op (c.doing op) :=
  ⟨_, [], by rw [List.map_nil, List.append_nil]⟩

theorem Does.recordAll (h : c.Does op c') (es : List Event) : c.Does op (c'.recordAll es) := by
  obtain ⟨journal, clients, rfl⟩ := h
  exact ⟨_, clients, rfl⟩

theorem does_wake (c : Conversation) (n : Nat) : c.Does none (c.wake (.client n)) :=
  ⟨_, [n], rfl⟩

end Conversation

namespace Session

open Conversation

variable {s s' s'' : Session} {name : String} {ctx : RunContext} {stage : ClientStage}

/-! ## What a step leaves alone -/

/-- Nobody is woken or put to sleep, and what was printed stays. -/
structure Beside (s s' : Session) : Prop where
  ready : s'.ready = s.ready
  timers : s'.timers = s.timers
  console : s'.console = s.console
  output : ∃ text, s'.output = s.output ++ text

theorem Beside.of_output (hr : s'.ready = s.ready) (ht : s'.timers = s.timers)
    (hc : s'.console = s.console) (ho : s'.output = s.output) : Beside s s' :=
  ⟨hr, ht, hc, "", ho.trans String.append_empty.symm⟩

theorem Beside.refl (s : Session) : Beside s s := .of_output rfl rfl rfl rfl

theorem Beside.trans (h : Beside s s') (h' : Beside s' s'') : Beside s s'' := by
  obtain ⟨text, ht⟩ := h.output
  obtain ⟨text', ht'⟩ := h'.output
  refine ⟨h'.ready.trans h.ready, h'.timers.trans h.timers, h'.console.trans h.console,
    text ++ text', ?_⟩
  rw [ht', ht, String.append_assoc]

theorem beside_converse (f : Conversation → Conversation) : Beside s (s.converse f) :=
  .of_output rfl rfl rfl rfl

theorem beside_setClient (n : Nat) (stage : ClientStage) : Beside s (s.setClient n stage) := by
  obtain ⟨clients, heq⟩ := setClient_eq s n stage
  rw [heq]
  exact .of_output rfl rfl rfl rfl

theorem beside_print (text : String) : Beside s (s.print text) := ⟨rfl, rfl, rfl, text, rfl⟩

theorem beside_finish (n : Nat) (result : Except ChatError Json) :
    Beside s (s.finish n result) := by
  unfold finish
  split
  · exact (beside_converse _).trans (beside_setClient n _)
  · exact Beside.refl s

theorem beside_heed (ctx : RunContext) (r : Reply) : Beside s (s.heed ctx r) := by
  have hset : Beside s (s.setRecord ctx.record r.record) := .of_output rfl rfl rfl rfl
  unfold heed
  cases r.said <;> cases r.printed
  · exact hset
  · exact hset.trans (beside_print _)
  · exact hset.trans (beside_converse _)
  · exact (hset.trans (beside_converse _)).trans (beside_print _)

/-! ## The steps of a run -/

/-- What a step of the only client can be, when it is a run of the program. -/
inductive RunStep (s s' : Session) (goesOn : Bool) : Prop where
  /-- It does something and goes on. -/
  | act {name : String} {stage : ClientStage} {ctx : RunContext} {r : Run}
    (op : Option Operation) (es : List Event)
    (hs : s.clients = [⟨name, stage⟩]) (hgo : stage.isGoing = true)
    (hf : ∀ e, ¬stage.FailsWith e)
    (hs' : s'.clients = [⟨name, .running ctx (.going r)⟩]) (htable : ctx.table = Builtin.table)
    (hop : ∀ o, op = some o → o.isScripted = true ∧ (o = .clear → stage.IsFresh))
    (hes : ∀ e ∈ es, e.result? = none)
    (hc : s'.conversation = (s.conversation.doing op).recordAll es) (hon : goesOn = true)
  /-- It looks for a file. -/
  | seek {name : String} {stage : ClientStage} {ctx : RunContext} {path : String}
    {args : List Argument} {k : Except String Json → Run} (hs : s.clients = [⟨name, stage⟩])
    (hgo : stage.isGoing = true) (hf : ∀ e, ¬stage.FailsWith e)
    (hs' : s'.clients = [⟨name, .running ctx (.seeking path args k)⟩])
    (htable : ctx.table = Builtin.table)
    (hc : s'.conversation = s.conversation.wake (.client 0)) (hon : goesOn = false)
  /-- It begins to wait for input. -/
  | ask {name : String} {stage : ClientStage} {ctx : RunContext} {k : Except RunError Json → Run}
    (hs : s.clients = [⟨name, stage⟩]) (hgo : stage.isGoing = true)
    (hf : ∀ e, ¬stage.FailsWith e)
    (hs' : s'.clients = [⟨name, .running ctx (.waiting s.conversation.waits.length k)⟩])
    (htable : ctx.table = Builtin.table)
    (hc : s'.conversation = s.conversation.beginWait 0 true) (hon : goesOn = true)
  /-- It goes on waiting. -/
  | wait {name : String} {ctx : RunContext} {w : Nat} {k : Except RunError Json → Run}
    (hs : s.clients = [⟨name, .running ctx (.waiting w k)⟩]) (hs' : s'.clients = s.clients)
    (hc : s'.conversation = s.conversation.stepWait w)
    (hr : s'.conversation.waitResult? w = none) (hon : goesOn = s'.conversation.waitReady w)
  /-- It has got an input, or it was interrupted. -/
  | resume {name : String} {ctx : RunContext} {w : Nat} {k : Except RunError Json → Run}
    {result : Except RunError Json} (hs : s.clients = [⟨name, .running ctx (.waiting w k)⟩])
    (hs' : s'.clients = [⟨name, .running ctx (.going (k result))⟩])
    (htable : ctx.table = Builtin.table)
    (hc : s'.conversation = s.conversation.stepWait w)
    (hr : s'.conversation.waitResult? w = some result) (hon : goesOn = true)
  /-- It ends. -/
  | finish {name : String} {stage : ClientStage} {result : Except ChatError Json}
    (hs : s.clients = [⟨name, stage⟩]) (hgo : stage.isGoing = true)
    (hf : ∀ e, stage.FailsWith e → result = .error e) (hs' : s'.clients = [⟨name, .ended⟩])
    (hc : s'.conversation = s.conversation.record (.ended name result)) (hon : goesOn = false)
  /-- It is over. -/
  | rest {name : String} (hs : s.clients = [⟨name, .ended⟩]) (hs' : s' = s) (hon : goesOn = false)

theorem clients_setClient {c : Client} (h : s.clients = [c])
    (stage : ClientStage) : (s.setClient 0 stage).clients = [⟨c.name, stage⟩] := by
  simp [setClient, h]

theorem clients_heed (ctx : RunContext) (r : Reply) : (s.heed ctx r).clients = s.clients := by
  unfold heed
  cases r.said <;> cases r.printed <;> rfl

/-- What a reply says is said to the conversation. -/
theorem heed_doing (ctx : RunContext) (r : Reply) (stage : ClientStage) :
    ∃ op : Option Operation,
    (∀ o, op = some o → o.isScripted = true ∧ (o = .clear → stage.IsFresh)) ∧
      (s.heed ctx r).conversation = s.conversation.doing op := by
  unfold heed
  cases r.said with
  | none =>
      refine ⟨none, forall_eq_none, ?_⟩
      cases r.printed <;> rfl
  | some text =>
      refine ⟨some (.queue (.to text) none), forall_eq_some ⟨rfl, Operation.noConfusion⟩, ?_⟩
      cases r.printed <;> rfl

theorem recordAll_nil (c : Conversation) : c.recordAll [] = c := by
  rw [recordAll, List.map_nil, List.append_nil]

/-- A step that does something, and after which the run goes on. -/
theorem runStep_resume {r : Run} (op : Option Operation) (es : List Event)
    (hs : s.clients = [⟨name, stage⟩]) (hgo : stage.isGoing = true)
    (hf : ∀ e, ¬stage.FailsWith e) (htable : ctx.table = Builtin.table)
    (hclients : s'.clients = s.clients)
    (hop : ∀ o, op = some o → o.isScripted = true ∧ (o = .clear → stage.IsFresh))
    (hes : ∀ e ∈ es, e.result? = none)
    (hc : s'.conversation = (s.conversation.doing op).recordAll es) :
    RunStep s (s'.setClient 0 (.running ctx (.going r))) true :=
  .act op es hs hgo hf (clients_setClient (hclients.trans hs) _) htable hop hes
    ((conversation_setClient _).trans hc) rfl

theorem runStep_answer (hs : s.clients = [⟨name, stage⟩]) (hgo : stage.isGoing = true)
    (hf : ∀ e, ¬stage.FailsWith e) (htable : ctx.table = Builtin.table) (q : Request)
    (k : q.Answer → Run) :
    RunStep s ((s.answer 0 ctx q k).1.setClient 0 (.running ctx (s.answer 0 ctx q k).2.1))
      (s.answer 0 ctx q k).2.2 := by
  -- Most requests take one operation or write one event down.
  have hquiet : ∀ {r : Run} {s₁ : Session}, s₁.clients = s.clients →
      s₁.conversation = s.conversation →
      RunStep s (s₁.setClient 0 (.running ctx (.going r))) true := fun hclients hc =>
    runStep_resume none [] hs hgo hf htable hclients forall_eq_none (List.forall_mem_nil _)
      (hc.trans (recordAll_nil _).symm)
  have hdoes : ∀ {r : Run} {s₁ : Session} (op : Operation), op.isScripted = true → op ≠ .clear →
      s₁.clients = s.clients → s₁.conversation = s.conversation.perform op →
      RunStep s (s₁.setClient 0 (.running ctx (.going r))) true := fun op hop hne hclients hc =>
    runStep_resume (some op) [] hs hgo hf htable hclients
      (forall_eq_some ⟨hop, fun he => absurd he hne⟩) (List.forall_mem_nil _)
      (hc.trans (recordAll_nil _).symm)
  have htells : ∀ {r : Run} {s₁ : Session} (e : Event), e.result? = none →
      s₁.clients = s.clients → s₁.conversation = s.conversation.record e →
      RunStep s (s₁.setClient 0 (.running ctx (.going r))) true := fun e he hclients hc =>
    runStep_resume none [e] hs hgo hf htable hclients forall_eq_none
      (fun _ h => List.mem_singleton.mp h ▸ he) hc
  cases q with
  | record | resolve | acting | enter | store => exact hquiet rfl rfl
  | say text entries =>
      refine hdoes (.queue (.to text) (entries.map .noted)) ?_ Operation.noConfusion rfl rfl
      cases entries <;> rfl
  | offer items =>
      exact hdoes (.addOptions none items none false) rfl Operation.noConfusion rfl rfl
  | requestFile => exact hdoes (.addUploader none none) rfl Operation.noConfusion rfl rfl
  | openTextArea =>
      exact hdoes (.setInput fun i => { i with textArea := true }) rfl Operation.noConfusion rfl rfl
  | collected key value => exact htells (.collected key value) rfl rfl rfl
  | noted entries => exact htells (.noted entries) rfl rfl rfl
  | fired value =>
      refine htells (.fired value) rfl ?_ ?_ <;>
      · unfold answer
        dsimp only
        split <;> rfl
  | input =>
      exact .ask hs hgo hf (clients_setClient (s := s.converse _) hs _) htable
        (conversation_setClient _) rfl
  | call name args =>
      unfold answer callCommand
      dsimp only
      cases hfind : ctx.table.find? name with
      | none => exact hquiet rfl rfl
      | some command =>
          obtain ⟨b, rfl⟩ := Builtin.eq_builtin_of_find? (htable ▸ hfind)
          dsimp only
          cases b.reply (s.surroundings ctx args) with
          | inl reply =>
              obtain ⟨op, hop, hc⟩ := heed_doing (s := s) ctx reply stage
              exact runStep_resume op [] hs hgo hf htable (clients_heed ctx reply) hop
                (List.forall_mem_nil _) (hc.trans (recordAll_nil _).symm)
          | inr path =>
              exact .seek hs hgo hf (clients_setClient (s := s.converse _) hs _) htable
                (conversation_setClient _) rfl

theorem runStep_finish (hs : s.clients = [⟨name, stage⟩]) (hgo : stage.isGoing = true)
    {result : Except ChatError Json} (hf : ∀ e, stage.FailsWith e → result = .error e) :
    RunStep s (s.finish 0 result) false := by
  have hfinish : s.finish 0 result =
      (s.converse fun v => v.record (.ended name result)).setClient 0 .ended := by
    simp [finish, hs]
  rw [hfinish]
  exact .finish hs hgo hf (clients_setClient (s := s.converse _) hs _) (conversation_setClient _)
    rfl

theorem runStep_stepRun {stage : RunStage} (hs : s.clients = [⟨name, .running ctx stage⟩])
    (htable : ctx.table = Builtin.table)
    (hworking : ∀ c args due k, stage ≠ .working c args due k) :
    RunStep s (s.stepRun 0 ctx stage).1 (s.stepRun 0 ctx stage).2 := by
  unfold stepRun
  cases stage with
  | fresh =>
      exact runStep_resume (some .clear) [] hs rfl (fun _ => id) htable rfl
        (forall_eq_some ⟨rfl, fun _ => ⟨ctx, rfl⟩⟩) (List.forall_mem_nil _) (recordAll_nil _).symm
  | going r =>
      dsimp only
      -- A run whose activity has failed ends at once.
      have hfailed : ∀ e, r.current = .fail e → r.next ctx.scene = .ended (.error e) := by
        intro e he
        rw [Run.next, he]
      cases hn : r.next ctx.scene with
      | ended result =>
          refine runStep_finish hs rfl fun e he => ?_
          cases hn.symm.trans (hfailed e he)
          rfl
      | moved r' =>
          exact runStep_resume none [] hs rfl (fun e he => nomatch hn.symm.trans (hfailed e he))
            htable rfl forall_eq_none (List.forall_mem_nil _) (recordAll_nil _).symm
      | asks q k =>
          exact runStep_answer hs rfl (fun e he => nomatch hn.symm.trans (hfailed e he)) htable q k
  | waiting w k =>
      dsimp only
      split
      · next result hr =>
        exact .resume (k := k) (w := w) hs
          (clients_setClient (s := s.converse _) hs _) htable (conversation_setClient _)
          ((congrArg (Conversation.waitResult? · w) (conversation_setClient _)).trans hr) rfl
      · next hr => exact .wait hs rfl rfl hr rfl
  | working c args due k => exact absurd rfl (hworking c args due k)
  | seeking path args k =>
      obtain ⟨op, hop, hc⟩ := heed_doing (s := s) ctx
        (Builtin.replyUpload (s.surroundings ctx args) path (s.isFile path)) _
      exact runStep_resume op [] hs rfl (fun _ => id) htable (clients_heed ctx _) hop
        (List.forall_mem_nil _) (hc.trans (recordAll_nil _).symm)

/-- What a step of the only client is, when it is a run of the program. -/
theorem runStep_stepClient (hs : s.clients = [⟨name, stage⟩]) (hplain : stage.IsPlain) :
    RunStep s (s.stepClient 0).1 (s.stepClient 0).2 := by
  have hstage : (s.clients[0]?).map Client.stage = some stage := by rw [hs]; rfl
  unfold stepClient
  rw [hstage]
  cases stage with
  | running ctx stage => exact runStep_stepRun hs hplain.1 hplain.2
  | failing e => exact runStep_finish hs rfl fun _ he => congrArg Except.error he
  | ended => exact .rest hs rfl rfl
  | aboutToWait | waiting | aboutToCall | calling => exact hplain.elim

theorem beside_answer (htable : ctx.table = Builtin.table) (q : Request)
    (k : q.Answer → Run) : Beside s (s.answer 0 ctx q k).1 := by
  have hsame : Beside s s := Beside.refl s
  cases q with
  | record | resolve | acting | enter => exact hsame
  | store | say | offer | requestFile | openTextArea | collected | noted | input =>
      exact .of_output rfl rfl rfl rfl
  | fired value =>
      unfold answer
      dsimp only
      split
      · exact (beside_converse _).trans (beside_print _)
      · exact beside_converse _
  | call name args =>
      unfold answer callCommand
      dsimp only
      cases hfind : ctx.table.find? name with
      | none => exact hsame
      | some command =>
          obtain ⟨b, rfl⟩ := Builtin.eq_builtin_of_find? (htable ▸ hfind)
          dsimp only
          cases b.reply (s.surroundings ctx args) with
          | inl reply => exact beside_heed ctx reply
          | inr path => exact .of_output rfl rfl rfl rfl

/-- A step of the only client neither wakes anybody nor puts anybody to sleep by itself. -/
theorem beside_stepClient (hs : s.clients = [⟨name, stage⟩]) (hplain : stage.IsPlain) :
    Beside s (s.stepClient 0).1 := by
  have hstage : (s.clients[0]?).map Client.stage = some stage := by rw [hs]; rfl
  unfold stepClient
  rw [hstage]
  cases stage with
  | running ctx stage =>
      obtain ⟨htable, hworking⟩ := hplain
      unfold stepRun
      cases stage with
      | fresh => exact (beside_converse _).trans (beside_setClient _ _)
      | going r =>
          dsimp only
          split
          · exact beside_finish _ _
          · exact beside_setClient _ _
          · exact (beside_answer htable _ _).trans (beside_setClient _ _)
      | waiting w k =>
          dsimp only
          split
          · exact (beside_converse _).trans (beside_setClient _ _)
          · exact .of_output rfl rfl rfl rfl
      | working c args due k => exact absurd rfl (hworking c args due k)
      | seeking path args k => exact (beside_heed ctx _).trans (beside_setClient _ _)
  | failing e => exact beside_finish _ _
  | ended => exact Beside.refl s
  | aboutToWait | waiting | aboutToCall | calling => exact hplain.elim

end Session

end Dialogue
