import Mathlib.Data.List.Basic
import Dialogue.Proofs.Queue.Notices
import Dialogue.Proofs.Session.Forwarder
/-!
# The forwarder does not sleep through its work

The forwarder looks every twenty milliseconds whether somebody waits for input, and it is woken when
a line is typed. Other tasks may wake and sleep as they like: as long as there is a line to hand
over, or an end to tell of, the forwarder is ready, or a timer wakes it soon.

* `Retains` — no task that is ready is forgotten, and no timer is lost.
* `awake_of_ne` — no incident but its own turn lets the forwarder fall asleep.
* `Attentive.after` — a forwarder that has something to do is awake.
-/

namespace Dialogue.Session

open Conversation

variable {s s' : Session} {n : Nat} {i : Incident}

/-! ## No task is forgotten -/

/-- Whoever was ready is ready, and all timers are set that were. -/
structure Retains (s s' : Session) : Prop where
  ready : s.ready ⊆ s'.ready
  timers : s.timers ⊆ s'.timers

theorem Retains.refl (s : Session) : Retains s s := ⟨fun _ h => h, fun _ h => h⟩

theorem Retains.trans {s'' : Session} (h : Retains s s') (h' : Retains s' s'') :
    Retains s s'' :=
  ⟨fun _ ht => h'.ready (h.ready ht), fun _ ht => h'.timers (h.timers ht)⟩

theorem mem_ready_wake (s : Session) (t : TaskId) : t ∈ (s.wake t).ready := by
  unfold wake
  split
  case isTrue h => exact List.contains_iff_mem.mp h
  case isFalse => exact List.mem_append_right _ (List.mem_singleton_self t)

theorem retains_wake (s : Session) (t : TaskId) : Retains s (s.wake t) := by
  unfold wake
  split
  · exact Retains.refl s
  · exact ⟨List.subset_append_left _ _, fun _ h => h⟩

theorem retains_converse (s : Session) (f : Conversation → Conversation) :
    Retains s (s.converse f) := ⟨fun _ h => h, fun _ h => h⟩

theorem retains_setConsole (s : Session) (k : ConsoleState) : Retains s (s.setConsole k) :=
  ⟨fun _ h => h, fun _ h => h⟩

theorem retains_sleepUntil (s : Session) (due : Nat) (t : TaskId) :
    Retains s (s.sleepUntil due t) :=
  ⟨fun _ h => h, List.subset_append_left _ _⟩

theorem retains_obey (s : Session) (signal : Signal) : Retains s (s.obey signal) := by
  cases signal with
  | wake t => exact retains_wake s t
  | wakeAt due t => exact retains_sleepUntil s due t
  | published =>
      unfold obey
      dsimp only
      split
      · exact retains_wake s _
      · exact Retains.refl s

theorem retains_foldl_obey (signals : List Signal) (s : Session) :
    Retains s (signals.foldl obey s) := by
  induction signals generalizing s with
  | nil => exact Retains.refl s
  | cons signal rest ih => exact (retains_obey s signal).trans (ih _)

theorem retains_obeySignals (s : Session) : Retains s s.obeySignals :=
  (retains_converse s fun c => { c with signals := [] }).trans
    (retains_foldl_obey s.conversation.signals _)

theorem retains_setClient (s : Session) (n : Nat) (stage : ClientStage) :
    Retains s (s.setClient n stage) := by
  obtain ⟨clients, heq⟩ := setClient_eq s n stage
  rw [heq]
  exact ⟨fun _ h => h, fun _ h => h⟩

theorem retains_finish (s : Session) (n : Nat) (result : Except ChatError Json) :
    Retains s (s.finish n result) := by
  unfold finish
  split
  · exact (retains_converse s _).trans (retains_setClient _ n .ended)
  · exact Retains.refl s

theorem retains_heed (s : Session) (ctx : RunContext) (r : Reply) : Retains s (s.heed ctx r) := by
  unfold heed
  cases r.said <;> cases r.printed <;> exact ⟨fun _ h => h, fun _ h => h⟩

theorem retains_replySpec (s : Session) (ctx : RunContext) (c : CommandSpec)
    (args : List Argument) (k : Except String Json → Run) :
    Retains s (s.replySpec ctx c args k).1 :=
  retains_heed s ctx (c.reply (s.surroundings ctx args))

theorem retains_callCommand (s : Session) (ctx : RunContext) (name : String)
    (args : List Argument) (k : Except String Json → Run) :
    Retains s (s.callCommand n ctx name args k).1 := by
  unfold callCommand
  split
  · dsimp only
    split
    · exact (retains_converse s _).trans (retains_replySpec _ ctx _ args k)
    · exact (retains_converse s _).trans (retains_sleepUntil _ _ _)
  · split
    · exact retains_heed s ctx _
    · exact ⟨fun _ h => h, fun _ h => h⟩
  · exact Retains.refl s

theorem retains_answer (s : Session) (ctx : RunContext) (q : Request) (k : q.Answer → Run) :
    Retains s (s.answer n ctx q k).1 := by
  cases q with
  | call name args => exact retains_callCommand s ctx name args k
  | fired v =>
      unfold answer
      dsimp only
      split <;> exact ⟨fun _ h => h, fun _ h => h⟩
  | record | say | offer | requestFile | openTextArea | input | resolve | store | collected
  | noted | acting | enter => exact ⟨fun _ h => h, fun _ h => h⟩

theorem retains_stepRun (s : Session) (ctx : RunContext) (stage : RunStage) :
    Retains s (s.stepRun n ctx stage).1 := by
  unfold stepRun
  cases stage with
  | fresh => exact (retains_converse s _).trans (retains_setClient _ n _)
  | going r =>
      dsimp only
      split
      · exact retains_finish s n _
      · exact retains_setClient s n _
      · exact (retains_answer s ctx _ _).trans (retains_setClient _ n _)
  | waiting wait k =>
      dsimp only
      split
      · exact (retains_converse s _).trans (retains_setClient _ n _)
      · exact ⟨fun _ h => h, fun _ h => h⟩
  | working c args due k =>
      dsimp only
      split
      · exact (retains_replySpec s ctx c args k).trans (retains_setClient _ n _)
      · exact Retains.refl s
  | seeking path args k => exact (retains_heed s ctx _).trans (retains_setClient _ n _)

theorem retains_stepClient (s : Session) (n : Nat) : Retains s (s.stepClient n).1 := by
  unfold stepClient
  split
  · exact (retains_converse s _).trans (retains_setClient _ n _)
  · unfold stepWaiting
    dsimp only
    split
    · exact (retains_converse s _).trans (retains_finish _ n _)
    · exact ⟨fun _ h => h, fun _ h => h⟩
  · exact (retains_converse s _).trans (retains_setClient _ n _)
  · unfold stepCalling
    split
    · exact retains_finish s n _
    · exact Retains.refl s
  · exact retains_stepRun s _ _
  · exact retains_finish s n _
  · exact Retains.refl s

theorem retains_useLastButton (s : Session) : Retains s s.useLastButton := by
  obtain ⟨conversation, output, heq⟩ := useLastButton_eq s
  rw [heq]
  exact ⟨fun _ h => h, fun _ h => h⟩

theorem retains_submit (s : Session) (a : Option Answer) : Retains s (s.submit a) := by
  obtain ⟨conversation, output, heq⟩ := submit_eq s a
  rw [heq]
  exact ⟨fun _ h => h, fun _ h => h⟩

theorem retains_stepForwarder (s : Session) : Retains s s.stepForwarder.1 := by
  unfold stepForwarder
  split
  · exact Retains.refl s
  · next k _ =>
    split
    · split
      · split
        · exact (retains_setConsole s _).trans (retains_useLastButton _)
        · exact ⟨fun _ h => h, fun _ h => h⟩
      · split <;> exact ⟨fun _ h => h, fun _ h => h⟩
    · next line _ =>
      split
      · refine (retains_setConsole s { k with
          prompting := (k.prompting.resolve line s.conversation.input.textArea).2
          forwarder := .receiving }).trans ?_
        exact retains_submit _ (k.prompting.resolve line s.conversation.input.textArea).1
      · exact retains_sleepUntil s _ _
    · split
      · exact ⟨fun _ h => h, fun _ h => h⟩
      · exact retains_sleepUntil s _ _
    · exact Retains.refl s

theorem retains_step (s : Session) (t : TaskId) : Retains s (s.step t).1 := by
  cases t with
  | pump | notice => exact ⟨fun _ h => h, fun _ h => h⟩
  | client n => exact retains_stepClient s n
  | renderer =>
      obtain ⟨console, output, heq⟩ := stepRenderer_eq s
      show Retains s s.stepRenderer.1
      rw [heq]
      exact ⟨fun _ h => h, fun _ h => h⟩
  | forwarder => exact retains_stepForwarder s

/-- After its turn a task is ready if it can go on, and all others are that were. -/
theorem mem_ready_turn {t u : TaskId} (hu : u ∈ (s.step t).1.ready)
    (hstep : u = t → (s.step t).2 = true) : u ∈ (s.turn t).ready := by
  unfold turn
  dsimp only
  refine (retains_obeySignals _).ready ?_
  split
  · exact hu
  · next hstops =>
    refine (List.mem_erase_of_ne fun he => hstops ?_).mpr hu
    exact hstep he

theorem timers_turn (s : Session) (t : TaskId) : (s.step t).1.timers ⊆ (s.turn t).timers := by
  unfold turn
  dsimp only
  intro x hx
  refine (retains_obeySignals _).timers ?_
  split <;> exact hx

theorem retains_foldl_wake (due : List (Nat × TaskId)) (s : Session) :
    Retains s (due.foldl (fun s t => s.wake t.2) s) := by
  induction due generalizing s with
  | nil => exact Retains.refl s
  | cons t rest ih => exact (retains_wake s t.2).trans (ih _)

theorem mem_ready_foldl_wake {due : List (Nat × TaskId)} {x : Nat × TaskId} (hx : x ∈ due)
    (s : Session) : x.2 ∈ (due.foldl (fun s t => s.wake t.2) s).ready := by
  induction due generalizing s with
  | nil => cases hx
  | cons t rest ih =>
      rcases List.mem_cons.mp hx with rfl | hx
      · exact (retains_foldl_wake rest _).ready (mem_ready_wake s x.2)
      · exact ih hx _

/-! ## The forwarder is awake -/

/-- The time in milliseconds after which the forwarder looks again at the latest. -/
def longestNap : Nat := pollDelay / 10 + 1

/-- The forwarder is ready, or a timer wakes it soon. -/
def Awake (s : Session) : Prop :=
  .forwarder ∈ s.ready ∨ ∃ due, (due, .forwarder) ∈ s.timers ∧ due ≤ s.now + longestNap

/-- As long as there is something to do for the forwarder, it is awake. -/
def Attentive (s : Session) : Prop := ∀ b, s.belt? = some b → b.isBusy = true → s.Awake

theorem due_pollDelay_le (clock : Clock) (now : Nat) :
    clock.due now pollDelay ≤ now + longestNap := by
  cases clock <;> simp [Clock.due, pollDelay, longestNap]

theorem Awake.of_retains (h : s.Awake) (hr : Retains s s') (hnow : s.now ≤ s'.now) :
    s'.Awake := by
  rcases h with hready | ⟨due, hmem, hdue⟩
  · exact .inl (hr.ready hready)
  · exact .inr ⟨due, hr.timers hmem, by omega⟩

theorem now_le_perform {c : Conversation} (hw : c.WorkedOff) (op : Operation) :
    c.now ≤ (c.perform op).now := by
  have hkept : ∀ {b : Post}, (c.perform op).post = b → b.now = c.now →
      c.now ≤ (c.perform op).now := fun hp hb =>
    Nat.le_of_eq ((congrArg Post.now hp).trans hb).symm
  cases postStep_perform hw op with
  | pass hop hp =>
      have hnow : (c.perform op).now = c.now + _ := congrArg Post.now hp
      omega
  | stay hd ha hp => exact hkept hp rfl
  | deliver hd ha hu hp => exact hkept hp rfl
  | add hd ha hp => exact hkept hp rfl
  | tell hd ha hu hp => exact hkept hp rfl
  | begin hop hn hp => exact hkept hp rfl
  | send hop hn hdue hp => exact hkept hp rfl

/-- Time does not go back. -/
theorem now_le_undergo (hw : s.conversation.WorkedOff) (i : Incident) :
    s.now ≤ (s.undergo i).now := by
  have hafter : ∀ ops (c : Conversation), c.WorkedOff → c.now ≤ (c.after ops).now := by
    intro ops
    induction ops with
    | nil => exact fun c _ => Nat.le_refl _
    | cons op rest ih =>
        exact fun c hc => Nat.le_trans (now_le_perform hc op) (ih _ (hc.perform op))
  obtain ⟨x, heq, -⟩ := alike_undergo hw i
  show s.conversation.now ≤ (s.undergo i).conversation.now
  rw [heq]
  exact hafter (s.operations i) s.conversation hw

theorem awake_turn {t : TaskId} (hw : s.conversation.WorkedOff) (h : s.Awake)
    (hstep : .forwarder = t → (s.step t).2 = true) : (s.turn t).Awake := by
  have hnow : s.now ≤ (s.turn t).now := now_le_undergo hw (.move (.turn t))
  rcases h with hready | ⟨due, hmem, hdue⟩
  · exact .inl (mem_ready_turn ((retains_step s t).ready hready) hstep)
  · exact .inr ⟨due, timers_turn s t ((retains_step s t).timers hmem), by omega⟩

theorem awake_arrive (h : s.Awake) (time : Nat) : (s.arrive time).Awake := by
  rcases h with hready | ⟨due, hmem, hdue⟩
  · exact .inl ((retains_foldl_wake _ _).ready hready)
  · by_cases hfires : due ≤ time
    · left
      refine mem_ready_foldl_wake (x := (due, .forwarder)) (List.mem_filter.mpr ⟨hmem, ?_⟩) _
      simpa using hfires
    · right
      refine ⟨due, (retains_foldl_wake _ _).timers (List.mem_filter.mpr ⟨hmem, ?_⟩), ?_⟩
      · simpa using hfires
      · obtain ⟨ready, timers, heq⟩ := arrive_eq s time
        rw [heq]
        show due ≤ s.now + (time - s.now) + longestNap
        omega

theorem retains_wakeForwarder (s : Session) (k : ConsoleState) :
    Retains s (s.wakeForwarder k) := by
  unfold wakeForwarder
  split
  · exact retains_wake s _
  · exact Retains.refl s

theorem mem_ready_wakeForwarder {k : ConsoleState} (hk : k.forwarder = .receiving) :
    .forwarder ∈ (s.wakeForwarder k).ready := by
  unfold wakeForwarder
  rw [hk]
  exact mem_ready_wake s .forwarder

theorem retains_type (s : Session) (line : String) : Retains s (s.type line) := by
  unfold type
  split
  · split
    · exact (retains_setConsole s _).trans (retains_wakeForwarder _ _)
    · exact Retains.refl s
  · exact Retains.refl s

theorem retains_close (s : Session) : Retains s s.close := by
  unfold close
  split
  · exact (retains_setConsole s _).trans (retains_wakeForwarder _ _)
  · exact Retains.refl s

/-- No incident but its own turn lets the forwarder fall asleep. -/
theorem awake_of_ne (hw : s.conversation.WorkedOff) (h : s.Awake)
    (hi : i ≠ .move (.turn .forwarder)) : (s.undergo i).Awake := by
  have hnow := now_le_undergo hw i
  cases i with
  | move m =>
      cases m with
      | turn t => exact awake_turn hw h fun he => absurd (he ▸ rfl) hi
      | arrive time => exact awake_arrive h time
      | type line => exact h.of_retains (retains_type s line) hnow
      | close => exact h.of_retains (retains_close s) hnow
      | join c =>
          have hadded : Retains s { s with clients := s.clients ++ [c] } :=
            ⟨fun _ h => h, fun _ h => h⟩
          exact h.of_retains (hadded.trans (retains_wake _ _)) hnow
  | operate op =>
      have hdone := retains_converse s fun c => c.perform op
      exact h.of_retains (hdone.trans (retains_obeySignals _)) hnow
  | setRecord n r => exact h.of_retains ⟨fun _ h => h, fun _ h => h⟩ hnow

/-- The forwarder goes on, or a timer is set for it, or there is nothing to do for it. -/
theorem awake_forwarder (hw : s.conversation.WorkedOff) (h : s.Attentive) :
    (s.turn .forwarder).Attentive := by
  intro b hb hbusy
  rw [show (s.turn .forwarder).belt? = s.stepForwarder.1.belt? from belt?_turn .forwarder] at hb
  have hgoes : s.Awake → s.stepForwarder.2 = true → (s.turn .forwarder).Awake :=
    fun ha hs => awake_turn hw ha fun _ => hs
  have hsleeps : s.stepForwarder = s.lookAgain → (s.turn .forwarder).Awake := by
    intro hs
    refine .inr ⟨s.conversation.clock.due s.now pollDelay, timers_turn s .forwarder ?_, ?_⟩
    · show _ ∈ s.stepForwarder.1.timers
      rw [hs]
      exact List.mem_append_right _ (List.mem_singleton_self _)
    · have hnow : s.now ≤ (s.turn .forwarder).now := now_le_undergo hw (.move (.turn .forwarder))
      have hdue := due_pollDelay_le s.conversation.clock s.now
      omega
  cases hk : s.console with
  | none => simp [stepForwarder, hk, belt?] at hb
  | some k =>
      obtain ⟨settings, prompting, lines, closed, forwarder, seen⟩ := k
      have hold : s.belt? = some ⟨lines, closed, forwarder⟩ := by rw [belt?, hk]; rfl
      cases forwarder with
      | receiving =>
          cases lines with
          | nil =>
              cases closed with
              | false =>
                  rw [stepForwarder, hk] at hb
                  cases hold.symm.trans hb
                  cases hbusy
              | true => exact hgoes (h _ hold rfl) (by simp [stepForwarder, hk])
          | cons line lines =>
              refine hgoes (h _ hold rfl) ?_
              by_cases hfix : Text.trim line = Console.fixWord <;> simp [stepForwarder, hk, hfix]
      | holding line =>
          cases ha : s.conversation.isAwaiting with
          | true => exact hgoes (h _ hold rfl) (by simp [stepForwarder, hk, ha])
          | false => exact hsleeps (by simp [stepForwarder, hk, ha])
      | closing =>
          cases ha : s.conversation.isAwaiting with
          | true =>
              have hended : s.stepForwarder.1.belt? = some ⟨lines, closed, .ended⟩ := by
                simp [stepForwarder, hk, ha, converse, setConsole, belt?]
              cases hended.symm.trans hb
              cases hbusy
          | false => exact hsleeps (by simp [stepForwarder, hk, ha])
      | ended =>
          rw [stepForwarder, hk] at hb
          cases hold.symm.trans hb
          cases hbusy

/-- A forwarder that waits for a line is woken by one. -/
theorem mem_ready_type {b : Belt} (hb : s.belt? = some b) (ht : s.takesLine = true)
    (hr : b.forwarder = .receiving) (line : String) : .forwarder ∈ (s.type line).ready := by
  obtain ⟨k, hk, rfl⟩ := Option.map_eq_some_iff.mp hb
  simp only [type, hk, ht, if_true]
  exact mem_ready_wakeForwarder hr

theorem mem_ready_close {b : Belt} (hb : s.belt? = some b) (hr : b.forwarder = .receiving) :
    .forwarder ∈ s.close.ready := by
  obtain ⟨k, hk, rfl⟩ := Option.map_eq_some_iff.mp hb
  simp only [close, hk]
  exact mem_ready_wakeForwarder hr

/-- A forwarder that does not wait for a line was as busy without the lines that have come. -/
theorem isBusy_of_ne {b b' : Belt} (hb' : b'.isBusy = true) (h : b'.forwarder = b.forwarder)
    (hr : b.forwarder ≠ .receiving) : b.isBusy = true := by
  rw [← hb', Belt.isBusy, Belt.isBusy, h]
  cases hf : b.forwarder with
  | receiving => exact absurd hf hr
  | holding | closing | ended => rfl

theorem Attentive.undergo (hw : s.conversation.WorkedOff) (h : s.Attentive) (i : Incident) :
    (s.undergo i).Attentive := by
  by_cases hf : i = .move (.turn .forwarder)
  · subst hf
    exact awake_forwarder hw h
  intro b hb hbusy
  cases beltStep_undergo s i with
  | stay hsame => exact awake_of_ne hw (h b (hsame ▸ hb) hbusy) hf
  | @type line old hi hold ht hnew =>
      subst hi
      cases hnew.symm.trans hb
      by_cases hr : old.forwarder = .receiving
      · exact .inl (mem_ready_type hold ht hr _)
      · exact awake_of_ne hw (h _ hold (isBusy_of_ne hbusy rfl hr)) hf
  | @close old hi hold hnew =>
      subst hi
      cases hnew.symm.trans hb
      by_cases hr : old.forwarder = .receiving
      · exact .inl (mem_ready_close hold hr)
      · exact awake_of_ne hw (h _ hold (isBusy_of_ne hbusy rfl hr)) hf
  | skip hi | take hi | hand hi | finish hi | stop hi => exact absurd hi hf

theorem Attentive.after (hw : s.conversation.WorkedOff) (h : s.Attentive) (is : List Incident) :
    (s.after is).Attentive := by
  induction is generalizing s with
  | nil => exact h
  | cons i is ih => exact ih ((accounts_undergo s i).worked hw) (h.undergo hw i)

end Dialogue.Session
