import Dialogue.Proofs.Input.Answers
import Dialogue.Proofs.Run.Completion
import Dialogue.Proofs.Session.Orderly
/-!
# A run that is interrupted fails

When the input has ended the forwarder clears the conversation as soon as somebody waits for an
answer. The run that waits is bound to be interrupted then, and it does nothing after that but fail.
So a run that ends well was never interrupted, and the list still holds what was delivered.

* `OnCourse.current_of_error` — a run fails when it is interrupted while it waits.
* `Doomed` — the run will fail, and `Doomed.turn`, that it stays so.
* `Intact.turn` — the list holds what was delivered, unless the run is doomed.
-/

namespace Dialogue

namespace Conversation

variable {c : Conversation} {n : Nat}

/-! ## What is written down -/

/-- It was not written down that a task has ended. -/
def Unresolved (c : Conversation) : Prop := ∀ x ∈ c.journal, x.2.result? = none

theorem Unresolved.doing (h : c.Unresolved) (hh : c.Hushed) (op : Option Operation) :
    (c.doing op).Unresolved := by
  intro x hx
  cases op with
  | none => exact h x hx
  | some o => exact (mem_journal_perform hh hx).elim (h x) id

theorem Unresolved.recordAll {es : List Event} (h : c.Unresolved)
    (hes : ∀ e ∈ es, e.result? = none) : (c.recordAll es).Unresolved :=
  fun _ hx => (mem_journal_recordAll hx).elim (h _) (hes _)

/-- The first result that was written down of a task. -/
def firstResult? (c : Conversation) : Option (Except ChatError Json) :=
  c.journal.findSome? fun x => x.2.result?

theorem firstResult?_eq_none_iff : c.firstResult? = none ↔ c.Unresolved :=
  List.findSome?_eq_none_iff

theorem Unresolved.firstResult?_record (h : c.Unresolved) (name : String)
    (result : Except ChatError Json) :
    (c.record (.ended name result)).firstResult? = some result := by
  show (c.journal ++ [(c.now, Event.ended name result)]).findSome? _ = _
  rw [List.findSome?_append, show c.journal.findSome? _ = none from firstResult?_eq_none_iff.mpr h]
  rfl

/-! ## Clearing -/

theorem Bound.doing {result : Except RunError Json} (hb : c.Bound n result) (h : c.Attended)
    (hn : n < c.waits.length) (op : Option Operation) : (c.doing op).Bound n result := by
  cases op with
  | none => exact hb
  | some op => exact hb.of_fared (fared_perform h hn op)

theorem Bound.told {result : Except RunError Json} (hb : c.Bound n result)
    (journal : List (Nat × Event)) (signals : List Signal) :
    ({ c with journal, signals } : Conversation).Bound n result :=
  hb.of_fared (.stayed rfl (fun _ _ => .inl rfl) fun _ _ => .inl rfl)

theorem listed_clear (h : c.Tidy) : (c.perform .clear).Listed [] := by
  refine ⟨h.perform rfl, ?_⟩
  obtain ⟨signals, heq⟩ := clear_eq c
  rw [show (c.perform .clear).messages = [] by rw [perform, heq]]
  exact .refl _

end Conversation

namespace Session

open Conversation

variable {s s' : Session} {t : TaskId} {op : Option Operation} {settings : HostSettings} {log : Log}
  {presented : List (Nat × Message)} {name : String} {ctx : RunContext} {w : Nat}
  {k : Except RunError Json → Run}

/-! ## The course of the run -/

/-- Once it has begun, a run that is the first client has come to where it is on a course of its
own. -/
def OnCourse (s : Session) : Prop :=
  ∀ ctx stage, s.stage? 0 = some (.running ctx stage) → stage ≠ .fresh →
    ∃ t opened, Did ctx (.start ctx.scene) (.running ctx stage) t opened

theorem stage?_of_clients {stage : ClientStage} (hs : s.clients = [⟨name, stage⟩]) :
    s.stage? 0 = some stage := by
  rw [stage?, hs]
  rfl

theorem OnCourse.of_clients (h : s.OnCourse) (hs : s'.clients = s.clients) : s'.OnCourse := by
  intro ctx stage hstage
  rw [stage?, hs] at hstage
  exact h ctx stage hstage

theorem OnCourse.turn (h : s.OnCourse) (hsolo : s.Solo) (t : TaskId) : (s.turn t).OnCourse := by
  by_cases ht : t = .client 0
  · subst ht
    obtain ⟨name, stage, hs, hplain⟩ := hsolo
    have hstage := stage?_of_clients hs
    intro ctx' stage' hstage' _
    rw [stage?_turn] at hstage'
    have hstage' : (s.stepClient 0).1.stage? 0 = some (.running ctx' stage') := hstage'
    cases stage with
    | running ctx stage =>
        by_cases hfresh : stage = .fresh
        · subst hfresh
          rw [stepClient_running hstage, stepRun] at hstage'
          dsimp only at hstage'
          rw [stage?_setClient (by rw [stage?_converse, hstage]; rfl)] at hstage'
          cases hstage'
          exact ⟨[], [], .going (.here _)⟩
        · obtain ⟨t, opened, hdid⟩ := h ctx stage hstage hfresh
          obtain ⟨stage₁, t₁, opened₁, hs₁, hdid₁, -⟩ := hdid.turn hstage
          obtain rfl : stage₁ = .running ctx' stage' := Option.some.inj (hs₁.symm.trans hstage')
          obtain rfl : ctx' = ctx := by cases hdid₁ <;> rfl
          exact ⟨t₁, opened₁, hdid₁⟩
    | failing e =>
        have hstep : s.stepClient 0 = (s.finish 0 (.error e), false) := by
          rw [stepClient, show (s.clients[0]?).map Client.stage = _ from hstage]
        rw [hstep, stage?_finish _ (by rw [hstage]; rfl)] at hstage'
        cases hstage'
    | ended =>
        have hstep : s.stepClient 0 = (s, false) := by
          rw [stepClient, show (s.clients[0]?).map Client.stage = _ from hstage]
        rw [hstep] at hstage'
        cases hstage.symm.trans hstage'
    | aboutToWait | waiting | aboutToCall | calling => exact hplain.elim
  · exact h.of_clients ((clients_turn s t).trans (clients_step_ne hsolo ht))

/-- A run that is interrupted while it waits for input fails. -/
theorem OnCourse.current_of_error (h : s.OnCourse)
    (hs : s.clients = [⟨name, .running ctx (.waiting w k)⟩]) (e : RunError) :
    (k (.error e)).current = .fail (.run e) := by
  obtain ⟨t, opened, hdid⟩ := h ctx _ (stage?_of_clients hs) RunStage.noConfusion
  cases hdid with
  | waiting _ hcourse hasks =>
      let answer : Request.input.Answer := .error e
      have hcourse := hcourse.trans (.asked answer hasks (.here (k answer)))
      have hverdict : Deed.verdict? (.asked .input answer) = some (.fails e) := rfl
      have hfollows := hcourse.verdict.2
      rw [hcourse.findSome?_eq (by simp) hverdict] at hfollows
      exact hfollows.settled

/-! ## Who waits -/

/-- Whoever waits for an answer is the run. -/
theorem Orderly.exists_waiting (h : s.Orderly settings log)
    (ha : s.conversation.isAwaiting = true) : ∃ name ctx w k r,
      s.clients = [⟨name, .running ctx (.waiting w k)⟩] ∧
        s.conversation.waitStage w = .listening r ∧ s.conversation.slot.waiter? = some r := by
  obtain ⟨r, hr⟩ := Option.isSome_iff_exists.mp ha
  obtain ⟨w, hw⟩ := h.attended.listening.exists_wait r hr
  obtain ⟨m, hm⟩ := h.tended w (.inr ⟨r, hw⟩)
  obtain ⟨name, stage, hs, hplain⟩ := h.solo
  cases m with
  | succ m =>
      have hnone : s.stage? (m + 1) = none := by rw [stage?, hs]; rfl
      rcases hm with hm | ⟨_, _, hm⟩ <;> cases hnone.symm.trans hm
  | zero =>
      have hstage := stage?_of_clients hs
      rcases hm with hm | ⟨ctx, k, hm⟩
      · cases hstage.symm.trans hm
        exact hplain.elim
      · cases hstage.symm.trans hm
        exact ⟨name, ctx, w, k, r, hs, hw, hr⟩

/-! ## Runs that will fail -/

/-- The run was interrupted and fails, or it does so when it goes on. -/
inductive Doomed (s : Session) : Prop
  | waiting {name : String} {ctx : RunContext} {w : Nat} {k : Except RunError Json → Run}
    (hs : s.clients = [⟨name, .running ctx (.waiting w k)⟩])
    (hlt : w < s.conversation.waits.length) (hb : s.conversation.Bound w (.error .interrupted))
  | failing {name : String} {stage : ClientStage} {e : ChatError} (hs : s.clients = [⟨name, stage⟩])
    (hf : stage.FailsWith e)
  | ended {name : String} {e : ChatError} (hs : s.clients = [⟨name, .ended⟩])
    (hr : s.conversation.firstResult? = some (.error e))

theorem Doomed.of_eq (h : s.Doomed) (hs : s'.clients = s.clients)
    (hc : s'.conversation = s.conversation) : s'.Doomed := by
  cases h with
  | waiting h hlt hb => exact .waiting (hs.trans h) (hc ▸ hlt) (hc ▸ hb)
  | failing h hf => exact .failing (hs.trans h) hf
  | ended h hr => exact .ended (hs.trans h) (hc ▸ hr)

theorem Stepped.isStopped_turn (hstep : Stepped s t op) :
    (s.turn t).IsStopped ↔ s.IsStopped ∨ t = .forwarder ∧ op = some .clear := by
  rw [IsStopped, console_turn]
  exact hstep.stopped

/-- The forwarder interrupts whoever waits when the input has ended. -/
theorem Orderly.doomed_of_clear (h : s.Orderly settings log)
    (hstep : Stepped s .forwarder (some .clear)) : (s.turn .forwarder).Doomed := by
  obtain ⟨journal, hconv⟩ := hstep.conversation_eq
  obtain ⟨name, ctx, w, k, r, hs, hw, hr⟩ := h.exists_waiting (hstep.allowed _ rfl).1
  have hlt : w < s.conversation.waits.length := lt_of_waitStage hw WaitStage.noConfusion
  refine .waiting ((clients_turn s _).trans ((clients_step_ne h.solo TaskId.noConfusion).trans hs))
    ?_ ?_
  · rw [hconv]
    exact Nat.lt_of_lt_of_le hlt (length_waits_perform h.attended.worked _)
  · rw [hconv]
    exact (bound_clear h.attended (holdsSlot_iff.mpr ⟨r, hw, hr⟩)).told _ _

/-- In the turn of another task the run does not go on. -/
theorem Doomed.turn_of_ne (h : s.Doomed) (ho : s.Orderly settings log)
    (hopen : s.conversation.Unresolved) (hne : t ≠ .client 0) : (s.turn t).Doomed := by
  obtain ⟨op, hstep⟩ := ho.stepped t
  obtain ⟨journal, hconv⟩ := hstep.conversation_eq
  have hclients := (clients_turn s t).trans (clients_step_ne ho.solo hne)
  cases h with
  | @waiting _ _ w _ hs hlt hb =>
      have hlength : s.conversation.waits.length ≤ (s.conversation.doing op).waits.length := by
        cases op with
        | none => exact Nat.le_refl _
        | some o => exact length_waits_perform ho.attended.worked o
      refine .waiting (hclients.trans hs) ?_ ?_
      · rw [hconv]
        exact Nat.lt_of_lt_of_le hlt hlength
      · rw [hconv]
        exact (hb.doing ho.attended hlt op).told _ _
  | failing hs hf => exact .failing (hclients.trans hs) hf
  | ended _ hr => cases (firstResult?_eq_none_iff.mpr hopen).symm.trans hr

/-- A run that waits is doomed only if the wait is bound to be interrupted. -/
theorem Doomed.bound (h : s.Doomed)
    (hs : s.clients = [⟨name, .running ctx (.waiting w k)⟩]) :
    w < s.conversation.waits.length ∧ s.conversation.Bound w (.error .interrupted) := by
  cases h with
  | waiting hs' hlt hb =>
      cases hs'.symm.trans hs
      exact ⟨hlt, hb⟩
  | failing hs' hf =>
      cases hs'.symm.trans hs
      exact hf.elim
  | ended hs' => cases hs'.symm.trans hs

/-- A run that goes on is doomed only if it fails. -/
theorem Doomed.exists_failsWith {stage : ClientStage} (h : s.Doomed)
    (hs : s.clients = [⟨name, stage⟩]) (hgo : stage.isGoing = true) :
    ∃ e, stage.FailsWith e := by
  cases h with
  | waiting hs' =>
      cases hs'.symm.trans hs
      cases hgo
  | failing hs' hf =>
      cases hs'.symm.trans hs
      exact ⟨_, hf⟩
  | ended hs' =>
      cases hs'.symm.trans hs
      cases hgo

/-- In its own turn the run is told of the interruption, or it fails. -/
theorem Doomed.turn_run (h : s.Doomed) (ho : s.Orderly settings log) (hcourse : s.OnCourse)
    (hopen : s.conversation.Unresolved) : (s.turn (.client 0)).Doomed := by
  obtain ⟨name, stage, hs, hplain⟩ := ho.solo
  have hclients : (s.turn (.client 0)).clients = (s.stepClient 0).1.clients := clients_turn s _
  have hconv : ∀ {c}, (s.stepClient 0).1.conversation = c →
      (s.turn (.client 0)).conversation = { c with signals := [] } := by
    rintro c rfl
    exact conversation_turn _
  cases runStep_stepClient hs hplain with
  | act _ _ hs hgo hf | seek hs hgo hf | ask hs hgo hf =>
      obtain ⟨e, hfails⟩ := h.exists_failsWith hs hgo
      exact absurd hfails (hf e)
  | wait hs hs' hc =>
      obtain ⟨hlt, hb⟩ := h.bound hs
      refine .waiting (hclients.trans (hs'.trans hs)) ?_ ?_
      · rw [hconv hc]
        exact Nat.lt_of_lt_of_le hlt (length_waits_perform ho.attended.worked (.stepWait _))
      · rw [hconv hc]
        exact (hb.doing ho.attended hlt (some (.stepWait _))).told _ _
  | resume hs hs' _ hc hr =>
      obtain ⟨-, hb⟩ := h.bound hs
      rw [hc] at hr
      rcases hb.stepWait with ⟨hdropped, heq⟩ | hended
      · rw [heq, waitResult?, hdropped] at hr
        cases hr
      · rw [waitResult?, hended] at hr
        cases hr
        exact .failing (hclients.trans hs') (hcourse.current_of_error hs _)
  | finish hs hgo hf hs' hc =>
      obtain ⟨e, hfails⟩ := h.exists_failsWith hs hgo
      refine .ended (e := e) (hclients.trans hs') ?_
      rw [hconv hc, ← hf e hfails]
      exact hopen.firstResult?_record _ _
  | rest hs =>
      cases h with
      | waiting hs₁ => cases hs₁.symm.trans hs
      | failing hs₁ hf =>
          cases hs₁.symm.trans hs
          exact hf.elim
      | ended _ hr => cases (firstResult?_eq_none_iff.mpr hopen).symm.trans hr

theorem Doomed.arrive (h : s.Doomed) (ho : s.Orderly settings log) (time : Nat) :
    (s.arrive time).Doomed := by
  have hc := conversation_arrive s time
  obtain ⟨ready, timers, heq⟩ := arrive_eq s time
  have hclients : (s.arrive time).clients = s.clients := by rw [heq]
  cases h with
  | waiting hs hlt hb =>
      refine .waiting (hclients.trans hs) ?_ ?_
      · rw [hc]
        exact hlt
      · rw [hc]
        exact hb.doing ho.attended hlt (some (.pass _))
  | failing hs hf => exact .failing (hclients.trans hs) hf
  | @ended _ e hs hr =>
      refine .ended (e := e) (hclients.trans hs) ?_
      rw [hc]
      exact hr

/-! ## What was delivered stays in the list -/

/-- The run has come on its course to where it is, and the list holds what was delivered unless the
run was interrupted, and then it fails. -/
structure Intact (s : Session) (presented : List (Nat × Message)) : Prop where
  course : s.OnCourse
  doomed : s.IsStopped → s.Doomed
  listed : ¬s.IsStopped → s.conversation.Listed presented

theorem Intact.turn (h : s.Intact presented) (ho : s.Orderly settings log)
    (hopen : s.conversation.Unresolved) (hfresh : s.IsFresh → presented = []) (t : TaskId) :
    (s.turn t).Intact (presented ++ s.presents t) := by
  obtain ⟨op, hstep⟩ := ho.stepped t
  obtain ⟨journal, hconv⟩ := hstep.conversation_eq
  constructor
  · exact h.course.turn ho.solo t
  · intro hstopped
    rcases hstep.isStopped_turn.mp hstopped with hstopped | ⟨rfl, rfl⟩
    · by_cases hne : t = .client 0
      · exact hne ▸ (h.doomed hstopped).turn_run ho h.course hopen
      · exact (h.doomed hstopped).turn_of_ne ho hopen hne
    · exact ho.doomed_of_clear hstep
  · intro hstopped
    have hnot := mt hstep.isStopped_turn.mpr hstopped
    have hlisted := h.listed fun hs => hnot (.inl hs)
    rw [hconv, hstep.presents]
    by_cases hclear : op = some .clear
    · -- It is the run that clears the conversation, before it begins.
      subst hclear
      have hallowed := hstep.allowed _ rfl
      cases t with
      | pump | notice => cases hallowed
      | renderer => exact hallowed.elim
      | forwarder => exact absurd (.inr ⟨rfl, rfl⟩) hnot
      | client n =>
          rw [hfresh (hallowed.2.2.2 rfl)]
          exact (listed_clear hlisted.tidy).told _ _
    · exact (hlisted.doing hstep.plain hclear).told _ _

theorem Intact.arrive (h : s.Intact presented) (ho : s.Orderly settings log) (time : Nat) :
    (s.arrive time).Intact presented := by
  have hc := conversation_arrive s time
  obtain ⟨ready, timers, heq⟩ := arrive_eq s time
  have hstopped : (s.arrive time).IsStopped ↔ s.IsStopped := by rw [heq]; exact .rfl
  constructor
  · refine h.course.of_clients ?_
    rw [heq]
  · exact fun hs => (h.doomed (hstopped.mp hs)).arrive ho time
  · intro hs
    rw [hc]
    exact (h.listed (mt hstopped.mpr hs)).pass _

theorem Intact.receive (h : s.Intact presented) (line : Option String) :
    (s.receive line).Intact presented := by
  have hstopped := isStopped_receive s line
  obtain ⟨console, ready, heq⟩ := receive_eq s line
  rw [heq] at hstopped ⊢
  exact ⟨h.course.of_clients rfl, fun hs => (h.doomed (hstopped.mp hs)).of_eq rfl rfl,
    fun hs => h.listed (mt hstopped.mpr hs)⟩

theorem Intact.reorder (h : s.Intact presented) (ready : List TaskId) :
    ({ s with ready } : Session).Intact presented :=
  ⟨h.course.of_clients rfl, fun hs => (h.doomed hs).of_eq rfl rfl, h.listed⟩

end Session

end Dialogue
