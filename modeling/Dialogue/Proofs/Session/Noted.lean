import Dialogue.Proofs.Console.Account
import Dialogue.Proofs.Queue.Owed
import Dialogue.Proofs.Run.Entries
import Dialogue.Proofs.Session.Requests
/-!
# What becomes of meta entries

A request with meta entries has them delivered at once, or queues a message that brings them along.
As long as nothing is cleared, what messages delivered and what they still owe together is what was
queued, in that order; and the journal tells of nothing else.

* `accounts_undergo` — each incident of a session keeps to its account.
* `delivered_append_owed` — so no entries are lost, and none are delivered twice.
* `entries_delivered_once` — the entries of a step are delivered once, unless its text has no lines.
-/

namespace Dialogue

/-! ## Incidents of a session -/

namespace Request

/-- The entries that a request has delivered at once. -/
def told : Request → List Meta
  | .noted entries => [entries]
  | _ => []

/-- The entries that a request queues with a message. -/
def queued : Request → List (Payload × Meta)
  | .say text (some entries) => [(.to text, entries)]
  | _ => []

end Request

namespace Session

open Conversation

/-- The entries that are delivered at once in an incident. -/
def told (s : Session) : Incident → List Meta
  | .move (.turn (.client n)) => (s.request? n).toList.flatMap Request.told
  | _ => []

/-- The entries that are queued with a message in an incident. -/
def queued (s : Session) : Incident → List (Payload × Meta)
  | .move (.turn (.client n)) => (s.request? n).toList.flatMap Request.queued
  | .operate op => op.queued
  | _ => []

/-- The entries that are delivered with a message in an incident. -/
def delivered (s : Session) : Incident → List (Payload × Meta)
  | .move (.turn (.pump n)) => s.conversation.delivering n
  | .operate op => s.conversation.deliveredIn op
  | _ => []

variable {s : Session} {n : Nat}

@[simp] theorem conversation_setClient (stage : ClientStage) :
    (s.setClient n stage).conversation = s.conversation := by
  obtain ⟨clients, heq⟩ := setClient_eq s n stage
  rw [heq]

theorem quiet_finish (result : Except ChatError Json) :
    s.conversation.Quiet (s.finish n result).conversation := by
  unfold finish
  split
  · rw [conversation_setClient]
    exact quiet_record rfl
  · exact Quiet.refl _

theorem quiet_heed (ctx : RunContext) (r : Reply) :
    s.conversation.Quiet (s.heed ctx r).conversation := by
  unfold heed
  cases r.said with
  | none => cases r.printed <;> exact Quiet.refl _
  | some text => cases r.printed <;> exact quiet_push rfl

theorem quiet_callCommand (ctx : RunContext) (name : String) (args : List Argument)
    (k : Except String Json → Run) :
    s.conversation.Quiet (s.callCommand n ctx name args k).1.conversation := by
  unfold callCommand
  split
  · dsimp only
    have hcalled : s.conversation.Quiet
        (s.converse fun v => v.record (.command name args (s.recordAt ctx.record))).conversation :=
      quiet_record rfl
    split
    · refine hcalled.trans ?_
      exact quiet_heed ctx _
    · exact hcalled
  · split
    · exact quiet_heed ctx _
    · exact .of_dispatch rfl rfl
  · exact Quiet.refl _

/-- A request with entries delivers or queues them, and no other request does. -/
theorem accounts_answer (ctx : RunContext) (q : Request) (k : q.Answer → Run) :
    s.conversation.Accounts (s.answer n ctx q k).1.conversation q.told [] q.queued := by
  cases q with
  | say text entries =>
      have h := accounts_push s.conversation
        (.message ⟨.to text, entries.map .noted, none⟩)
      cases entries <;> exact h
  | noted entries => exact accounts_record s.conversation (.noted entries)
  | offer items => exact quiet_addOptions _ _ _ _ _
  | requestFile => exact quiet_addUploader _ _ _
  | openTextArea => exact Quiet.of_dispatch rfl rfl
  | input => exact quiet_beginWait s.conversation n true
  | call name args => exact quiet_callCommand ctx name args k
  | collected key v => exact quiet_record rfl
  | fired v =>
      unfold answer
      dsimp only
      split <;> exact quiet_record rfl
  | record | resolve | store | acting | enter => exact Quiet.refl _

theorem quiet_stepWaiting (wait : Nat) :
    s.conversation.Quiet (s.stepWaiting n wait).1.conversation := by
  have hstep : s.conversation.Quiet (s.converse fun v => v.stepWait wait).conversation :=
    .of_ledger (ledger_stepWait _ _)
  unfold stepWaiting
  dsimp only
  split
  · refine hstep.trans ?_
    exact quiet_finish _
  · exact hstep

theorem accounts_stepRun (ctx : RunContext) (stage : RunStage)
    (hs : s.stage? n = some (.running ctx stage)) :
    s.conversation.Accounts (s.stepRun n ctx stage).1.conversation
      ((s.request? n).toList.flatMap Request.told) []
      ((s.request? n).toList.flatMap Request.queued) := by
  rw [request?, hs]
  unfold stepRun
  cases stage with
  | fresh =>
      dsimp only
      rw [conversation_setClient]
      exact quiet_clear s.conversation
  | going r =>
      dsimp only
      split
      · next hn =>
        rw [hn]
        exact quiet_finish _
      · next hn =>
        rw [hn, conversation_setClient]
        exact Quiet.refl _
      · next q k hn =>
        rw [hn, conversation_setClient]
        simpa using accounts_answer (s := s) (n := n) ctx q k
  | waiting wait k =>
      have hstep : s.conversation.Quiet (s.converse fun v => v.stepWait wait).conversation :=
        .of_ledger (ledger_stepWait _ _)
      dsimp only
      split
      · rw [conversation_setClient]
        exact hstep
      · exact hstep
  | working c args due k =>
      dsimp only
      split
      · rw [conversation_setClient]
        exact quiet_heed ctx _
      · exact Quiet.refl _
  | seeking path args k =>
      dsimp only
      rw [conversation_setClient]
      exact quiet_heed ctx _

/-- In its turn a client has the entries of its request delivered or queued. -/
theorem accounts_stepClient (n : Nat) : s.conversation.Accounts (s.stepClient n).1.conversation
    ((s.request? n).toList.flatMap Request.told) []
    ((s.request? n).toList.flatMap Request.queued) := by
  cases hs : s.stage? n with
  | none =>
      have hstep : s.stepClient n = (s, false) := by
        have hs : (s.clients[n]?).map Client.stage = none := hs
        rw [stepClient, hs]
      rw [request?, hs, hstep]
      exact Quiet.refl _
  | some stage =>
      have hs' : (s.clients[n]?).map Client.stage = some stage := hs
      rw [request?, hs, stepClient, hs']
      cases stage with
      | aboutToWait enable =>
          dsimp only
          rw [conversation_setClient]
          exact quiet_beginWait s.conversation n enable
      | waiting wait => exact quiet_stepWaiting wait
      | aboutToCall job =>
          dsimp only
          rw [conversation_setClient]
          exact quiet_call s.conversation n job
      | calling ticket =>
          show s.conversation.Quiet (s.stepCalling n ticket).1.conversation
          unfold stepCalling
          split
          · exact quiet_finish _
          · exact Quiet.refl _
      | running ctx stage =>
          have h := accounts_stepRun ctx stage hs
          rw [request?, hs] at h
          exact h
      | failing e => exact quiet_finish _
      | ended => exact Quiet.refl _

theorem quiet_submit (a : Option Answer) : s.conversation.Quiet (s.submit a).conversation := by
  unfold submit
  split
  · split
    · exact .of_dispatch rfl rfl
    · exact Quiet.refl _
  · exact .of_dispatch rfl rfl
  · exact Quiet.refl _

theorem quiet_useLastButton : s.conversation.Quiet s.useLastButton.conversation := by
  unfold useLastButton
  split
  · split
    · exact quiet_useFixme s.conversation _
    · exact Quiet.refl _
  · exact Quiet.refl _

theorem quiet_stepForwarder : s.conversation.Quiet s.stepForwarder.1.conversation := by
  unfold stepForwarder
  split
  · exact Quiet.refl _
  · next k _ =>
    split
    · split
      · next line lines _ =>
        split
        · show (s.setConsole { k with lines }).conversation.Quiet _
          exact quiet_useLastButton
        · exact Quiet.refl _
      · split <;> exact Quiet.refl _
    · next line _ =>
      split
      · show (s.setConsole { k with
          prompting := (k.prompting.resolve line s.conversation.input.textArea).2
          forwarder := .receiving }).conversation.Quiet _
        exact quiet_submit _
      · exact Quiet.refl _
    · split
      · exact quiet_clear s.conversation
      · exact Quiet.refl _
    · exact Quiet.refl _

theorem accounts_step (s : Session) (t : TaskId) : s.conversation.Accounts
    (s.step t).1.conversation (s.told (.move (.turn t))) (s.delivered (.move (.turn t)))
    (s.queued (.move (.turn t))) := by
  cases t with
  | pump n => exact accounts_stepPump s.conversation n
  | notice n => exact Quiet.of_ledger (ledger_stepNotice s.conversation n)
  | client n => exact accounts_stepClient n
  | renderer =>
      obtain ⟨console, output, heq⟩ := stepRenderer_eq s
      show s.conversation.Quiet s.stepRenderer.1.conversation
      rw [heq]
      exact Quiet.refl _
  | forwarder => exact quiet_stepForwarder

theorem accounts_move (s : Session) (m : Move) : s.conversation.Accounts (s.move m).conversation
    (s.told (.move m)) (s.delivered (.move m)) (s.queued (.move m)) := by
  cases m with
  | turn t =>
      show s.conversation.Accounts (s.turn t).conversation _ _ _
      rw [conversation_turn]
      exact (accounts_step s t).of_dispatch rfl rfl
  | arrive time =>
      show s.conversation.Quiet (s.arrive time).conversation
      obtain ⟨ready, timers, heq⟩ := arrive_eq s time
      rw [heq]
      exact .of_dispatch rfl rfl
  | type line =>
      obtain ⟨console, ready, heq⟩ := type_eq s line
      show s.conversation.Quiet (s.type line).conversation
      rw [heq]
      exact Quiet.refl _
  | close =>
      obtain ⟨console, ready, heq⟩ := close_eq s
      show s.conversation.Quiet s.close.conversation
      rw [heq]
      exact Quiet.refl _
  | join c =>
      show s.conversation.Quiet
        ({ s with clients := s.clients ++ [c] }.wake (.client s.clients.length)).conversation
      obtain ⟨ready, heq⟩ := wake_eq { s with clients := s.clients ++ [c] }
        (.client s.clients.length)
      rw [heq]
      exact Quiet.refl _

/-- What becomes of entries in an incident. -/
theorem accounts_undergo (s : Session) (i : Incident) :
    s.conversation.Accounts (s.undergo i).conversation (s.told i) (s.delivered i) (s.queued i) := by
  cases i with
  | move m => exact accounts_move s m
  | operate op =>
      obtain ⟨ready, timers, heq⟩ := operate_eq s op
      show s.conversation.Accounts (s.operate op).conversation [] _ _
      rw [heq]
      exact (accounts_perform s.conversation op).of_dispatch rfl rfl
  | setRecord n r => exact Quiet.refl _

/-! ## Courses of a session -/

theorem workedOff_after (h : s.conversation.WorkedOff) (is : List Incident) :
    (s.after is).conversation.WorkedOff := by
  induction is generalizing s with
  | nil => exact h
  | cons i is ih => exact ih ((accounts_undergo s i).worked h)

theorem generation_le_after (is : List Incident) :
    s.conversation.generation ≤ (s.after is).conversation.generation := by
  induction is generalizing s with
  | nil => exact Nat.le_refl _
  | cons i is ih => exact Nat.le_trans (accounts_undergo s i).later ih

/-- The journal tells of the entries that were delivered, at once or with a message. -/
theorem noted_after (is : List Incident) :
    (s.after is).conversation.noted = s.conversation.noted ++
      s.gathered (fun s i => s.told i ++ (s.delivered i).map Prod.snd) is := by
  induction is generalizing s with
  | nil => exact (List.append_nil _).symm
  | cons i is ih =>
      show ((s.undergo i).after is).conversation.noted = _
      rw [ih, (accounts_undergo s i).noted, List.append_assoc]
      rfl

/-- As long as nothing is cleared, the entries that messages have delivered and those that they owe
are the ones that were queued, in that order. -/
theorem delivered_append_owed (h : s.conversation.WorkedOff) {is : List Incident}
    (hclear : (s.after is).conversation.generation = s.conversation.generation) :
    s.gathered delivered is ++ (s.after is).conversation.owed =
      s.conversation.owed ++ s.gathered queued is := by
  induction is generalizing s with
  | nil => exact (List.append_nil _).symm
  | cons i is ih =>
      have hfirst := accounts_undergo s i
      have hlater := hfirst.later
      have hle : (s.undergo i).conversation.generation ≤
          ((s.undergo i).after is).conversation.generation := generation_le_after is
      have hclear : ((s.undergo i).after is).conversation.generation = s.conversation.generation :=
        hclear
      have hrest := ih (hfirst.worked h) (by omega)
      calc s.gathered delivered (i :: is) ++ (s.after (i :: is)).conversation.owed
          = s.delivered i ++ ((s.undergo i).gathered delivered is ++
              ((s.undergo i).after is).conversation.owed) := List.append_assoc ..
        _ = s.delivered i ++ (s.undergo i).conversation.owed ++
              (s.undergo i).gathered queued is := by rw [hrest, List.append_assoc]
        _ = s.conversation.owed ++ s.queued i ++ (s.undergo i).gathered queued is := by
              rw [hfirst.owed h (by omega)]
        _ = s.conversation.owed ++ s.gathered queued (i :: is) := List.append_assoc ..

/-- An idle conversation owes nothing. -/
theorem owed_eq_nil (h : s.conversation.WorkedOff) (hidle : s.conversation.isIdle = true) :
    s.conversation.owed = [] := by
  rw [isIdle, Bool.and_eq_true, Bool.not_eq_true', List.isEmpty_iff] at hidle
  obtain ⟨hpumping, hqueue⟩ := hidle
  rw [owed, hands, h.live_eq_nil hpumping, hqueue]
  rfl

/-- Without a clear in between, what was queued with messages is delivered once the conversation is
idle. -/
theorem delivered_eq (h : s.conversation.WorkedOff) {is : List Incident}
    (hclear : (s.after is).conversation.generation = s.conversation.generation)
    (hidle : (s.after is).conversation.isIdle = true) :
    s.gathered delivered is = s.conversation.owed ++ s.gathered queued is := by
  rw [← delivered_append_owed h hclear, owed_eq_nil (workedOff_after h is) hidle, List.append_nil]

/-! ## The entries of a step -/

/-- The entries of the request that a client makes in its turn are delivered once: at once in this
turn, or with the message, after those that are owed before it and before those that are queued
later. -/
def DeliversOnce (s : Session) (n : Nat) (later : List Incident) (m : Meta) : Request → Prop
  | .noted _ => (s.turn (.client n)).conversation.noted = s.conversation.noted ++ [m]
  | .say text _ => s.gathered delivered (.move (.turn (.client n)) :: later) =
      s.conversation.owed ++ (.to text, m) :: (s.turn (.client n)).gathered queued later
  | _ => False

theorem deliversOnce (h : s.conversation.WorkedOff) {later : List Incident} {q : Request}
    {m : Meta} (hq : s.request? n = some q) (hm : q.carried? = some m)
    (hclear : (s.after (.move (.turn (.client n)) :: later)).conversation.generation =
      s.conversation.generation)
    (hidle : (s.after (.move (.turn (.client n)) :: later)).conversation.isIdle = true) :
    s.DeliversOnce n later m q := by
  cases q
  case noted entries =>
    cases hm
    have htold : s.told (.move (.turn (.client n))) = [m] := by
      rw [told, hq]
      rfl
    have hnoted := (accounts_move s (.turn (.client n))).noted
    rw [htold] at hnoted
    exact hnoted
  case say text entries =>
    obtain rfl : entries = some m := hm
    have hqueued : s.queued (.move (.turn (.client n))) = [(.to text, m)] := by
      rw [queued, hq]
      rfl
    show s.gathered delivered _ = _
    rw [delivered_eq h hclear hidle, gathered, hqueued]
    rfl
  all_goals cases hm

/-- In one of its turns, and after certain other requests, the client has made a request with
entries, and the entries were delivered once. -/
def DeliveredOnce (s : Session) (n : Nat) (is : List Incident) (others : List Request) (q : Request)
    (m : Meta) : Prop :=
  ∃ earlier later, is = earlier ++ .move (.turn (.client n)) :: later ∧
    s.requests n earlier = others ∧ (s.after earlier).request? n = some q ∧
      (s.after earlier).DeliversOnce n later m q

theorem deliveredOnce (h : s.conversation.WorkedOff) {is : List Incident} {q : Request} {m : Meta}
    {others rest : List Request} (hq : s.requests n is = others ++ q :: rest)
    (hm : q.carried? = some m)
    (hclear : (s.after is).conversation.generation = s.conversation.generation)
    (hidle : (s.after is).conversation.isIdle = true) : s.DeliveredOnce n is others q m := by
  obtain ⟨earlier, later, rfl, hrequest, hothers⟩ := exists_turn_of_requests hq
  rw [after_append] at hclear hidle
  have hbefore : s.conversation.generation ≤ (s.after earlier).conversation.generation :=
    generation_le_after earlier
  have hafter : (s.after earlier).conversation.generation ≤
      ((s.after earlier).after (.move (.turn (.client n)) :: later)).conversation.generation :=
    generation_le_after _
  refine ⟨earlier, later, rfl, hothers, hrequest, ?_⟩
  exact deliversOnce (workedOff_after h earlier) hrequest hm (by omega) hidle

/-- With a callback, a step that comes to its end passes its entries on as `Step.Passes` says: once,
unless the text of the step has no lines. As long as nothing is cleared, all entries that a client
has passed on were delivered once by the time the conversation is idle, and the journal tells of no
others. In a run that ends without an error the step has come to its end. -/
theorem entries_delivered_once {settings : Settings} {clock : Clock} {s₀ : Session}
    (hstart : s₀.conversation = .start settings clock) (is₀ is : List Incident) {n : Nat}
    {ctx : RunContext} {place : Option Place} {st : Step} {m : Meta} {f : Bool → Activity Bool}
    {ks : List (Bool → Activity Bool)}
    (hstage : (s₀.after is₀).stage? n =
      some (.running ctx (.going ⟨ctx.scene.runStep place st >>= f, ks⟩)))
    (hnoted : ctx.scene.callbacks.noted = true) (hm : st.metaEntries = some m)
    (hclear : ((s₀.after is₀).after is).conversation.generation =
      (s₀.after is₀).conversation.generation)
    (hidle : ((s₀.after is₀).after is).conversation.isIdle = true) :
    let s := s₀.after is₀
    let r : Run := ⟨ctx.scene.runStep place st >>= f, ks⟩
    ((s.after is).conversation.noted = s.conversation.noted ++
        s.gathered (fun s i => s.told i ++ (s.delivered i).map Prod.snd) is ∧
      s.gathered delivered is = s.conversation.owed ++ s.gathered queued is) ∧
    ∃ stage t opened, (s.after is).stage? n = some stage ∧ Did ctx r stage t opened ∧
      s.requests n is = t.filterMap Deed.asked? ++ opened ∧
      (∀ before q a rest m', t = before ++ .asked q a :: rest → q.carried? = some m' →
        s.DeliveredOnce n is (before.filterMap Deed.asked?) q m') ∧
      (∀ own all rest b, t = all ++ rest → ctx.scene.Plays (ctx.scene.runStep place st) own all b →
        own.Sublist t ∧ st.Passes m own ∧
          own.filterMap Deed.carried? = if st.text = some [] then [] else [m]) ∧
      ∀ r' c, Run.Course ctx.scene r t r' → r'.next ctx.scene = .ended (.ok c) →
        ∃ own all rest b, t = all ++ rest ∧
          ctx.scene.Plays (ctx.scene.runStep place st) own all b := by
  intro s r
  have hworked : s.conversation.WorkedOff := by
    have hstarted : s₀.conversation.WorkedOff := hstart ▸ workedOff_start settings clock
    exact workedOff_after hstarted is₀
  refine ⟨⟨noted_after is, delivered_eq hworked hclear hidle⟩, ?_⟩
  obtain ⟨stage, t, opened, hended, hdid, hrequests⟩ := did_after hstage is
  refine ⟨stage, t, opened, hended, hdid, hrequests, ?_, ?_, ?_⟩
  · intro before q a rest m' ht hq
    have hsplit : s.requests n is = before.filterMap Deed.asked? ++ q ::
        (rest.filterMap Deed.asked? ++ opened) := by
      rw [hrequests, ht]
      simp [Deed.asked?]
    exact deliveredOnce hworked hsplit hq hclear hidle
  · intro own all rest b ht hplays
    have hpasses : st.Passes m own := Step.passes_of_yields hnoted hm hplays.yields
    refine ⟨?_, hpasses, hpasses.carried_eq⟩
    rw [ht]
    exact hplays.sublist.trans (List.sublist_append_left all rest)
  · intro r' c hcourse hend
    obtain ⟨own, all, rest, b, ht, hplays, -⟩ := (Run.Course.ends_iff hend).mp hcourse
    exact ⟨own, all, rest, b, ht, hplays⟩

/-! ### A step with a mood -/

/-- The entries that tell of a mood. -/
def mood : Meta := [⟨"mood", .string "glad"⟩]

/-- A step with some text and a mood. -/
def moodStep (text : List String) : Step :=
  { Step.empty with text := some text, metaEntries := some mood }

/-- A run of the step by itself, with a callback for entries. -/
def moodContext (text : List String) : RunContext where
  scene := ⟨⟨[⟨defaultTopic, [moodStep text]⟩], by simp, by simp⟩, .standard, ⟨false, true, false⟩⟩
  record := 0
  table := .empty

/-- A session in which the run is about to begin with the step. -/
def moodSession (text : List String) : Session :=
  (start .standard .empty .stepped 0 fun _ => false).after
    [.move (.join ⟨"run", .running (moodContext text) .fresh⟩), .move (.turn (.client 0))]

theorem stage?_moodSession (text : List String) : (moodSession text).stage? 0 = some (.running
    (moodContext text) (.going ⟨(moodContext text).scene.runStep (some ⟨defaultTopic, some 1⟩)
      (moodStep text) >>= fun b => if b then .done true else .done false, []⟩)) := rfl

/-- The client has made its requests, and its message is delivered after a while. -/
def moodIncidents : List Incident :=
  [.move (.turn (.client 0)), .move (.turn (.client 0)), .move (.turn (.client 0)),
    .move (.turn (.pump 0)), .move (.arrive 100000), .move (.turn (.pump 0)),
    .move (.turn (.pump 0))]

theorem entries_delivered_once_greeting :
    ((moodSession ["Hello"]).after moodIncidents).stage? 0 = some .ended ∧
      ((moodSession ["Hello"]).after moodIncidents).conversation.isIdle = true ∧
      ((moodSession ["Hello"]).after moodIncidents).conversation.noted = [mood] := by
  have hidle : ((moodSession ["Hello"]).after moodIncidents).conversation.isIdle = true := rfl
  have hstart : (start .standard .empty .stepped 0 fun _ => false).conversation =
    .start .standard .stepped := rfl
  have hnoted := (entries_delivered_once hstart _ moodIncidents (stage?_moodSession ["Hello"]) rfl
    rfl rfl hidle).1.1
  exact ⟨rfl, hidle, hnoted⟩

/-- The text is there, but it has no lines: the run ends, nothing is left to be delivered, and
nobody was told of the mood. -/
theorem entries_lost_without_lines :
    let s := moodSession []
    let s' := s.after [.move (.turn (.client 0))]
    (moodContext []).scene.callbacks.noted = true ∧ (moodStep []).metaEntries = some mood ∧
      (moodContext []).scene.Plays ((moodContext []).scene.runStep (some ⟨defaultTopic, some 1⟩)
        (moodStep [])) [] [] false ∧
      s'.stage? 0 = some .ended ∧ s'.conversation.generation = s.conversation.generation ∧
      s'.conversation.isIdle = true ∧
      s'.conversation.journal = [(0, .ended "run" (.ok (.bool false)))] ∧
      s'.conversation.noted = [] :=
  ⟨rfl, rfl, .done false, rfl, rfl, rfl, rfl, rfl⟩

end Session

end Dialogue
