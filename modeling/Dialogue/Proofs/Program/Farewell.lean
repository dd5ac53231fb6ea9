import Mathlib.Data.List.Perm.Subperm
import Dialogue.Proofs.Program.Courses
import Dialogue.Proofs.Session.Lull
/-!
# What is shown before the farewell

When the run has ended the program waits until the queue is empty, and then for the delay after
which the notice of the last message is sent. The notice of each message of the script is sent
before that delay is over, and the renderer shows it at once. Only when the last message was
delivered at the very time at which the program begins to wait, both are due at the same time, and
the program does not wait for the notice. That needs a line that was typed just then.

* `Sound` — what holds of the program on every course, and `Sound.step`, that each step keeps it.
* `shown_before_farewell_iff` — when everything that the script has said was shown.
* `shown_before_farewell_typed_late` — a text that is not shown.
-/

namespace Dialogue

namespace Session

open Conversation

variable {s : Session} {t : TaskId} {op : Option Operation} {settings : HostSettings} {log : Log}
  {presented : List (Nat × Message)}

/-! ## Sessions in which the run is over -/

/-- The run has ended, and no line is handed over any more. -/
structure RunOver (s : Session) : Prop where
  stopped : s.IsStopped
  ended : ∃ name, s.clients = [⟨name, .ended⟩]

theorem RunOver.step_run (h : s.RunOver) : s.step (.client 0) = (s, false) := by
  obtain ⟨name, hs⟩ := h.ended
  show s.stepClient 0 = _
  rw [stepClient, hs]
  rfl

theorem RunOver.conversation_run (h : s.RunOver) (ho : s.Orderly settings log) :
    (s.turn (.client 0)).conversation = s.conversation := by
  rw [conversation_turn, h.step_run, ← ho.signals]

theorem RunOver.turn (h : s.RunOver) (ho : s.Orderly settings log) (t : TaskId) :
    (s.turn t).RunOver := by
  obtain ⟨op, hstep⟩ := ho.stepped t
  obtain ⟨name, hs⟩ := h.ended
  refine ⟨hstep.isStopped_turn.mpr (.inl h.stopped), name, ?_⟩
  rw [clients_turn]
  by_cases ht : t = .client 0
  · rw [ht, h.step_run]
    exact hs
  · rw [clients_step_ne ho.solo ht]
    exact hs

theorem RunOver.toCome_eq_nil (h : s.RunOver) (ho : s.Orderly settings log) (t : TaskId)
    (hcome : s.conversation.toCome = []) : (s.turn t).conversation.toCome = [] := by
  obtain ⟨op, hstep⟩ := ho.stepped t
  by_cases ht : t = .client 0
  · rw [ht, h.conversation_run ho]
    exact hcome
  · exact hstep.toCome_eq_nil ho.attended.worked ht hcome

/-- Nothing is cleared any more. -/
theorem RunOver.listed_turn (h : s.RunOver) (ho : s.Orderly settings log) (t : TaskId)
    (hlisted : s.conversation.Listed presented) :
    (s.turn t).conversation.Listed (presented ++ s.presents t) := by
  obtain ⟨op, hstep⟩ := ho.stepped t
  obtain ⟨journal, hconv⟩ := hstep.conversation_eq
  by_cases ht : t = .client 0
  · subst ht
    rw [h.conversation_run ho, show s.presents (.client 0) = [] from rfl, List.append_nil]
    exact hlisted
  · rw [hconv, hstep.presents]
    refine (hlisted.doing hstep.plain ?_).told _ _
    rintro rfl
    cases hstep.inner ht fun _ => .inr h.stopped

theorem RunOver.arrive (h : s.RunOver) (time : Nat) : (s.arrive time).RunOver := by
  obtain ⟨ready, timers, heq⟩ := arrive_eq s time
  rw [heq]
  exact ⟨h.stopped, h.ended⟩

theorem RunOver.receive (h : s.RunOver) (line : Option String) : (s.receive line).RunOver := by
  refine ⟨(isStopped_receive s line).mpr h.stopped, ?_⟩
  obtain ⟨console, ready, heq⟩ := receive_eq s line
  rw [heq]
  exact h.ended

theorem RunOver.of_stopForwarder {name : String} (hs : s.clients = [⟨name, .ended⟩]) :
    s.stopForwarder.RunOver := by
  unfold Session.stopForwarder
  cases hk : s.console with
  | none =>
      refine ⟨fun k hk' => ?_, name, hs⟩
      cases hk.symm.trans hk'
  | some k =>
      refine ⟨fun k' hk' => ?_, name, hs⟩
      cases hk'
      rfl

theorem le_of_nextTimer? {time due : Nat} (h : s.nextTimer? = some time) (hle : due ≤ time) :
    ∀ x ∈ s.timers, due ≤ x.1 := by
  intro x hx
  have := (List.min?_eq_some_iff.mp h).2 x.1 (List.mem_map.mpr ⟨x, hx, rfl⟩)
  exact Nat.le_trans hle this

theorem le_of_forall_nextTimer? {due : Nat} (h : ∀ time, s.nextTimer? = some time → due ≤ time) :
    ∀ x ∈ s.timers, due ≤ x.1 := by
  cases htime : s.nextTimer? with
  | some time => exact le_of_nextTimer? htime (h time htime)
  | none =>
      intro x hx
      have hnil : s.timers.map (·.1) = [] := List.min?_eq_none_iff.mp htime
      rw [List.map_eq_nil_iff.mp hnil] at hx
      cases hx

theorem now_lt_nextTimer? {time : Nat} (h : s.Scheduled) (ht : s.nextTimer? = some time) :
    s.now < time := by
  obtain ⟨x, hx, rfl⟩ := List.mem_map.mp (List.min?_mem ht)
  exact h.ahead x hx

end Session

namespace Program.State

open Conversation Session

variable {p q r : State} {t : TaskId} {settings : HostSettings} {log : Log} {completed : Bool}
  {due : Nat}

/-! ## What holds of the program -/

/-- The closing line is to be printed when the notice of the last message is due, or later. If both
are due at the same time, something was typed when that message was delivered. -/
def Foresees (p : State) (log : Log) (due : Nat) : Prop :=
  ∀ time, lastTime? log.delivered = some time →
    Clock.running.due time p.session.conversation.settings.timeout ≤ due ∧
      (due = Clock.running.due time p.session.conversation.settings.timeout →
        ∃ line, (time, line) ∈ log.typed)

/-- How far the program is. -/
def Phase (p : State) (log : Log) : Prop :=
  match p.stage with
  | .running => p.session.Lull log p.runnerHasTurn ∧ p.session.Intact log.delivered
  | .settling _ due => p.session.RunOver ∧ p.session.conversation.Listed log.delivered ∧
    p.session.now < due
  | .closing _ due => p.session.RunOver ∧ p.session.conversation.Listed log.delivered ∧
    p.session.now < due ∧ p.session.conversation.toCome = [] ∧ p.Foresees log due

/-- What holds of the program all the time, together with what could be noticed of it. -/
structure Sound (p : State) (settings : HostSettings) (log : Log) : Prop where
  orderly : p.session.Orderly settings log
  phase : p.Phase log

theorem result?_eq_none_iff : p.result? = none ↔ p.session.conversation.Unresolved :=
  firstResult?_eq_none_iff

theorem phase_running (hs : p.stage = .running) : p.Phase log ↔
    p.session.Lull log p.runnerHasTurn ∧ p.session.Intact log.delivered := by
  rw [Phase, hs]

theorem phase_settling (hs : p.stage = .settling completed due) : p.Phase log ↔
    p.session.RunOver ∧ p.session.conversation.Listed log.delivered ∧ p.session.now < due := by
  rw [Phase, hs]

theorem phase_closing (hs : p.stage = .closing completed due) : p.Phase log ↔
    p.session.RunOver ∧ p.session.conversation.Listed log.delivered ∧ p.session.now < due ∧
      p.session.conversation.toCome = [] ∧ p.Foresees log due := by
  rw [Phase, hs]

theorem Sound.reorder (h : p.Sound settings log) {ready : List TaskId}
    (hready : ready.Perm p.session.ready) : (p.reorder ready).Sound settings log where
  orderly := h.orderly.reorder hready
  phase := by
    have hphase := h.phase
    cases hs : p.stage with
    | running =>
        rw [phase_running hs] at hphase
        exact (phase_running (p := p.reorder ready) hs).mpr
          ⟨hphase.1.reorder hready, hphase.2.reorder ready⟩
    | settling completed due =>
        rw [phase_settling hs] at hphase
        exact (phase_settling (p := p.reorder ready) hs).mpr
          ⟨⟨hphase.1.stopped, hphase.1.ended⟩, hphase.2⟩
    | closing completed due =>
        rw [phase_closing hs] at hphase
        exact (phase_closing (p := p.reorder ready) hs).mpr
          ⟨⟨hphase.1.stopped, hphase.1.ended⟩, hphase.2⟩

/-! ## Turns -/

/-- The run has a turn when it had the last one or when no other task is ready. -/
theorem alone_of_nextTask? (h : p.nextTask? = some (.client 0)) :
    p.runnerHasTurn = true ∨ ∀ u ∈ p.session.ready, u = .client 0 := by
  unfold nextTask? at h
  dsimp only at h
  split at h
  · next hturn => exact .inl (Bool.and_eq_true_iff.mp hturn).1
  · right
    cases hfind : p.session.ready.find? (· ≠ .client runner) with
    | some u =>
        rw [hfind] at h
        have hne := List.find?_some hfind
        cases h
        simp [runner] at hne
    | none =>
        intro u hu
        by_contra hne
        exact List.find?_eq_none.mp hfind u hu (decide_eq_true hne)

theorem mem_ready_of_nextTask? (h : p.nextTask? = some t) : t ∈ p.session.ready := by
  unfold nextTask? at h
  dsimp only at h
  split at h
  · next hturn =>
    cases h
    exact List.mem_of_head? (of_decide_eq_true (Bool.and_eq_true_iff.mp hturn).2)
  · rcases Option.or_eq_some_iff.mp h with h | ⟨-, h⟩
    · exact List.mem_of_find?_eq_some h
    · exact List.mem_of_head? h

/-- A turn while the run goes on. -/
theorem Sound.turn_running (h : p.Sound settings log) (hs : p.stage = .running)
    (hresult : p.result? = none) (ht : p.nextTask? = some t) :
    (p.turn t).Sound settings (log ++ p.session.logOf t) := by
  have ho := h.orderly
  obtain ⟨hlull, hintact⟩ := (phase_running hs).mp h.phase
  have hopen := result?_eq_none_iff.mp hresult
  have hready := mem_ready_of_nextTask? ht
  have hintact' := hintact.turn ho hopen hlull.delivered_eq_nil t
  have hphase : (p.session.turn t).Lull (log ++ p.session.logOf t) (decide (t = .client runner)) →
      (p.turn t).Phase (log ++ p.session.logOf t) := fun hlull =>
    (phase_running (p := p.turn t) hs).mpr ⟨hlull, hintact'⟩
  by_cases hrun : t = .client 0
  · subst hrun
    have halone := alone_of_nextTask? ht
    refine ⟨ho.turn hready fun _ => hlull.isAwaiting ho halone, hphase ?_⟩
    exact hlull.turn_run ho hopen hready halone
  · refine ⟨ho.turn hready fun he => absurd he hrun, hphase ?_⟩
    rw [decide_eq_false (show t ≠ .client runner from hrun)]
    exact hlull.turn_of_ne ho hopen hready hrun

/-- A turn while the main task sleeps. -/
theorem Sound.turn_over (h : p.Sound settings log) (hs : p.stage ≠ .running)
    (ht : t ∈ p.session.ready) : (p.turn t).Sound settings (log ++ p.session.logOf t) := by
  have ho := h.orderly
  obtain ⟨op, hstep⟩ := ho.stepped t
  have horderly : p.session.RunOver →
      (p.session.turn t).Orderly settings (log ++ p.session.logOf t) := by
    intro hover
    refine ho.turn ht fun he ha => .inl ?_
    subst he
    rwa [hover.conversation_run ho] at ha
  have hnow : (p.session.turn t).now = p.session.now := hstep.now_eq ho.signals
  have hphase := h.phase
  cases hstage : p.stage with
  | running => exact absurd hstage hs
  | settling completed due =>
      obtain ⟨hover, hlisted, hlt⟩ := (phase_settling hstage).mp hphase
      exact ⟨horderly hover, (phase_settling (p := p.turn t) hstage).mpr
        ⟨hover.turn ho t, hover.listed_turn ho t hlisted, hnow ▸ hlt⟩⟩
  | closing completed due =>
      obtain ⟨hover, hlisted, hlt, hcome, hforesees⟩ := (phase_closing hstage).mp hphase
      refine ⟨horderly hover, (phase_closing (p := p.turn t) hstage).mpr
        ⟨hover.turn ho t, hover.listed_turn ho t hlisted, hnow ▸ hlt,
          hover.toCome_eq_nil ho t hcome, ?_⟩⟩
      have hnone : p.session.presents t = [] :=
        hstep.presents_eq_nil (ripeAt_of_toCome hcome _) ho.attended.worked ho.running
      have hdelivered : (log ++ p.session.logOf t).delivered = log.delivered := by
        rw [Log.delivered_append, show (p.session.logOf t).delivered = [] from hnone,
          List.append_nil]
      have htyped : (log ++ p.session.logOf t).typed = log.typed := List.append_nil _
      have hsettings : (p.turn t).session.conversation.settings =
          p.session.conversation.settings :=
        (horderly hover).settings_eq.trans ho.settings_eq.symm
      intro time
      rw [hdelivered, htyped, hsettings]
      exact hforesees time

/-- A turn keeps the program sound. -/
theorem Sound.turn (h : p.Sound settings log) (ht : p.nextTurn? = some t) :
    (p.turn t).Sound settings (log ++ p.session.logOf t) := by
  by_cases hs : p.stage = .running
  · obtain ⟨hresult, htask⟩ := result?_of_nextTurn? hs ht
    exact h.turn_running hs hresult htask
  · refine h.turn_over hs (List.mem_of_head? ?_)
    unfold nextTurn? at ht
    split at ht
    · next hrunning => exact absurd hrunning hs
    · exact ht
    · exact ht

/-! ## The passing of time -/

/-- Time passes, when nobody is ready, until the next timer at most, and the main task goes on
sleeping. -/
theorem Sound.pass {time : Nat} (h : p.Sound settings log) (hready : p.session.ready = [])
    (hlt : p.session.now < time) (hnext : ∀ x ∈ p.session.timers, time ≤ x.1)
    (hresult : p.stage = .running → p.result? = none)
    (hsleeps : ∀ completed due,
      p.stage = .settling completed due ∨ p.stage = .closing completed due → time < due) :
    (p.withSession (p.session.arrive time)).Sound settings log := by
  have ho := h.orderly
  have hphase := h.phase
  have hnow : (p.session.arrive time).now = time := now_arrive (Nat.le_of_lt hlt)
  have hconv := conversation_arrive p.session time
  refine ⟨ho.arrive hready hlt hnext, ?_⟩
  generalize hq : p.withSession (p.session.arrive time) = q
  have hsession : q.session = p.session.arrive time := by rw [← hq]; rfl
  have hlisted : p.session.conversation.Listed log.delivered →
      q.session.conversation.Listed log.delivered := by
    rw [hsession, hconv]
    exact fun hlisted => hlisted.pass _
  have hstage' : q.stage = p.stage := by rw [← hq]; rfl
  cases hstage : p.stage with
  | running =>
      obtain ⟨hlull, hintact⟩ := (phase_running hstage).mp hphase
      refine (phase_running (hstage'.trans hstage)).mpr ?_
      rw [hsession, show q.runnerHasTurn = p.runnerHasTurn by rw [← hq]; rfl]
      exact ⟨hlull.arrive ho (result?_eq_none_iff.mp (hresult hstage)) hready hlt,
        hintact.arrive ho time⟩
  | settling completed due =>
      obtain ⟨hover, hlist, -⟩ := (phase_settling hstage).mp hphase
      refine (phase_settling (hstage'.trans hstage)).mpr ⟨?_, hlisted hlist, ?_⟩
      · rw [hsession]
        exact hover.arrive time
      · rw [hsession, hnow]
        exact hsleeps completed due (.inl hstage)
  | closing completed due =>
      obtain ⟨hover, hlist, -, hcome, hforesees⟩ := (phase_closing hstage).mp hphase
      refine (phase_closing (hstage'.trans hstage)).mpr ⟨?_, hlisted hlist, ?_, ?_, ?_⟩
      · rw [hsession]
        exact hover.arrive time
      · rw [hsession, hnow]
        exact hsleeps completed due (.inr hstage)
      · rw [hsession, hconv]
        exact hcome
      · rw [Foresees, hsession, hconv]
        exact hforesees

/-- When the queue is empty the notice of the last message is awaited. -/
theorem phase_look (ho : p.session.Orderly settings log) (hover : p.session.RunOver)
    (hlisted : p.session.conversation.Listed log.delivered)
    (htyped : lastTime? log.delivered = some p.session.now →
      ∃ line, (p.session.now, line) ∈ log.typed) (completed : Bool) :
    (p.look completed).Phase log := by
  have hdue : ∀ tenths, p.due tenths = p.session.now + tenths / 10 + 1 := by
    intro tenths
    rw [due, ho.running]
    rfl
  unfold look
  split
  · next hidle =>
    have hcome := toCome_of_isIdle ho.attended.worked hidle
    refine (phase_closing rfl).mpr ⟨hover, hlisted, ?_, hcome, fun time hlast => ?_⟩
    · show p.session.now < p.due _
      rw [hdue]
      omega
    · have hle := ho.dated.time_le hlast
      have hle : time ≤ p.session.now := hle
      rw [hdue]
      show time + p.session.conversation.settings.timeout / 10 + 1 ≤ _ ∧
        (_ = time + p.session.conversation.settings.timeout / 10 + 1 → _)
      refine ⟨by omega, fun heq => ?_⟩
      -- Both delays are the same, so they end at the same time only if they begin at the same time.
      obtain rfl : p.session.now = time := by omega
      exact htyped hlast
  · refine (phase_settling rfl).mpr ⟨hover, hlisted, ?_⟩
    show p.session.now < p.due _
    rw [hdue]
    omega

theorem orderly_look (ho : p.session.Orderly settings log) (completed : Bool) :
    (p.look completed).session.Orderly settings log := by
  unfold look
  split <;> exact ho

/-- When the run has ended well it was not interrupted. -/
theorem Sound.leave {v : Json} (h : p.Sound settings log) (hs : p.stage = .running)
    (hresult : p.result? = some (.ok v)) (completed : Bool) :
    ((p.withSession p.session.stopForwarder).look completed).Sound settings log := by
  have hsome : ¬p.session.conversation.Unresolved := fun hopen => by
    rw [result?_eq_none_iff.mpr hopen] at hresult
    cases hresult
  obtain ⟨hlull, hintact⟩ := (phase_running hs).mp h.phase
  have hlisted : p.session.conversation.Listed log.delivered := by
    -- A run that was interrupted would have failed.
    refine hintact.listed fun hstopped => ?_
    cases hlull with
    | going _ _ _ hopen | opening _ hopen | listening _ hopen => exact hsome hopen
    | ended hclients =>
        cases hintact.doomed hstopped with
        | waiting hclients' => cases hclients'.symm.trans hclients
        | failing hclients' hf =>
            cases hclients'.symm.trans hclients
            exact hf
        | ended _ hr => cases hr.symm.trans hresult
  have hover : p.session.stopForwarder.RunOver ∧ p.session.Calm log := by
    cases hlull with
    | going _ _ _ hopen | opening _ hopen | listening _ hopen => exact absurd hopen hsome
    | ended hclients _ hcalm => exact ⟨.of_stopForwarder hclients, hcalm⟩
  have hconv : p.session.stopForwarder.conversation = p.session.conversation := by
    unfold stopForwarder
    split <;> rfl
  have ho := h.orderly.stopForwarder
  refine ⟨orderly_look (p := p.withSession p.session.stopForwarder) ho _, ?_⟩
  refine phase_look (p := p.withSession p.session.stopForwarder) ho hover.1 ?_ ?_ _
  · show p.session.stopForwarder.conversation.Listed log.delivered
    rw [hconv]
    exact hlisted
  · have hnow : p.session.stopForwarder.now = p.session.now := congrArg Conversation.now hconv
    show lastTime? log.delivered = some p.session.stopForwarder.now →
      ∃ line, (p.session.stopForwarder.now, line) ∈ log.typed
    rw [hnow]
    exact hover.2.typed

/-- When the program looks whether all was delivered, time has passed since the last message was. -/
theorem Sound.look (h : p.Sound settings log) (hs : p.stage = .settling completed due)
    (hready : p.session.ready = [])
    (htime : ∀ time, p.session.nextTimer? = some time → due ≤ time) :
    ((p.withSession (p.session.arrive due)).look completed).Sound settings log := by
  have ho := h.orderly
  obtain ⟨hover, hlisted, hnow⟩ := (phase_settling hs).mp h.phase
  have ho' := ho.arrive hready hnow (le_of_forall_nextTimer? htime)
  refine ⟨orderly_look (p := p.withSession (p.session.arrive due)) ho' _, ?_⟩
  refine phase_look (p := p.withSession (p.session.arrive due)) ho' (hover.arrive due) ?_ ?_ _
  · show (p.session.arrive due).conversation.Listed log.delivered
    rw [conversation_arrive]
    exact hlisted.pass _
  · show lastTime? log.delivered = some (p.session.arrive due).now → _
    rw [now_arrive (Nat.le_of_lt hnow)]
    exact fun hlast => absurd (ho.dated.time_le hlast) (Nat.not_le.mpr hnow)

/-! ## Courses -/

/-- Each step keeps the program sound. -/
theorem Sound.step (h : p.Sound settings log) (hstep : Step p r) :
    r.Sound settings (log ++ p.turnLog) := by
  have hquiet : p.nextTurn? = none → log ++ p.turnLog = log := by
    intro hnone
    rw [turnLog, hnone]
    exact Log.append_nothing log
  cases hstep with
  | turn ht hr =>
      rw [hr, turnLog, ht]
      exact h.turn ht
  | wait hs ht hresult hready hdue hr =>
      rw [hr, hquiet ht]
      refine h.pass hready (now_lt_nextTimer? h.orderly.scheduled hdue)
        (le_of_nextTimer? hdue (Nat.le_refl _)) (fun _ => hresult) fun completed due hs' => ?_
      rcases hs' with hs' | hs' <;> cases hs.symm.trans hs'
  | leave hs ht hresult hr =>
      rw [hr, hquiet ht]
      exact h.leave hs hresult _
  | sleep hs ht hready htime hlt hr =>
      rw [hr, hquiet ht]
      refine h.pass hready (now_lt_nextTimer? h.orderly.scheduled htime)
        (le_of_nextTimer? htime (Nat.le_refl _)) (fun hs' => ?_) fun completed' due' hs' => ?_
      · rcases hs with hs | hs <;> cases hs.symm.trans hs'
      · rcases hs with hs | hs <;> rcases hs' with hs' | hs' <;> cases hs.symm.trans hs'
        · exact hlt
        · exact hlt
  | look hs ht hready htime hr =>
      rw [hr, hquiet ht]
      exact h.look hs hready htime

/-- What is typed keeps the program sound. -/
theorem Sound.receive (h : p.Sound settings log) (line : Option String) :
    (p.receive line).Sound settings (log ++ .input p.session.now line) := by
  have hphase := h.phase
  have hdelivered : (log ++ .input p.session.now line).delivered = log.delivered :=
    List.append_nil _
  have hconv : (p.receive line).session.conversation = p.session.conversation := by
    obtain ⟨console, ready, heq⟩ := receive_eq p.session line
    show (p.session.receive line).conversation = _
    rw [heq]
  have hnow : (p.receive line).session.now = p.session.now := congrArg Conversation.now hconv
  refine ⟨h.orderly.receive line, ?_⟩
  cases hs : p.stage with
  | running =>
      obtain ⟨hlull, hintact⟩ := (phase_running hs).mp hphase
      refine (phase_running (p := p.receive line) hs).mpr ⟨hlull.receive line, ?_⟩
      rw [hdelivered]
      exact hintact.receive line
  | settling completed due =>
      obtain ⟨hover, hlisted, hlt⟩ := (phase_settling hs).mp hphase
      refine (phase_settling (p := p.receive line) hs).mpr ⟨hover.receive line, ?_, ?_⟩
      · rw [hconv, hdelivered]
        exact hlisted
      · rw [hnow]
        exact hlt
  | closing completed due =>
      obtain ⟨hover, hlisted, hlt, hcome, hforesees⟩ := (phase_closing hs).mp hphase
      refine (phase_closing (p := p.receive line) hs).mpr ⟨hover.receive line, ?_, ?_, ?_, ?_⟩
      · rw [hconv, hdelivered]
        exact hlisted
      · rw [hnow]
        exact hlt
      · rw [hconv]
        exact hcome
      · intro time hlast
        rw [hdelivered] at hlast
        rw [hconv]
        obtain ⟨hle, htyped⟩ := hforesees time hlast
        refine ⟨hle, fun heq => ?_⟩
        obtain ⟨line', hline⟩ := htyped heq
        exact ⟨line', List.mem_append_left _ hline⟩

/-- On every course the program stays sound. -/
theorem Sound.course (h : p.Sound settings .nothing) (hcourse : p.Course log q) :
    q.Sound settings log := by
  induction hcourse with
  | here => exact h
  | step _ hready hnext ih => exact (ih.reorder hready).step (step_of_next hnext)
  | input _ line ih => exact ih.receive line
  | rest _ hrests hlt ih =>
      exact ih.pass hrests.ready hlt (fun x hx => Nat.le_of_lt (hrests.timers x hx)) hrests.running
        hrests.sleeping

/-! ## The beginning -/

theorem stage_client (engine : PatternEngine) (documents : List Document) (number : Nat) :
    (client engine documents number).stage.IsPlain ∧
      (client engine documents number).stage.isGoing = true := by
  unfold client
  split
  · exact ⟨⟨rfl, fun _ _ _ _ => RunStage.noConfusion⟩, rfl⟩
  · exact ⟨trivial, rfl⟩

section Begin

variable (engine : PatternEngine) (h : HostSettings) (documents : List Document) (w : World)
  (closed : Bool)

theorem conversation_begin : (begin engine h documents w closed).session.conversation =
    .start h.content .running := rfl

theorem ready_begin : (begin engine h documents w closed).session.ready =
    [.client 0, .renderer, .forwarder] := rfl

theorem clients_begin : (begin engine h documents w closed).session.clients =
    [client engine documents h.document] := rfl

theorem orderly_begin : (begin engine h documents w closed).session.Orderly h .nothing := by
  have hc := conversation_begin engine h documents w closed
  have hresumes : ∀ t, (begin engine h documents w closed).session.conversation.resumes? t =
      none := by
    intro t
    rw [hc]
    cases t <;> rfl
  constructor
  · rw [hc]
    exact attended_start h.content .running
  · rfl
  · rfl
  · rfl
  · exact List.Perm.nil
  · rw [hc]
    exact ⟨fun x hx => (by cases hx), fun m hm => (by cases hm), fun x hx => (by cases hx),
      fun time ht => (by cases ht), fun _ => rfl⟩
  · exact fun i hi => by cases hi
  · refine ⟨fun t due ht => ?_, fun t due ht => ?_, fun x hx => by cases hx⟩
    · cases (hresumes t).symm.trans ht
    · cases (hresumes t).symm.trans ht
  · intro m hm
    exact absurd hm.lt (Nat.not_lt_zero m)
  · exact ⟨_, _, clients_begin engine h documents w closed, (stage_client _ _ _).1⟩
  · exact ⟨rfl, Nat.le_refl 0, List.Perm.nil, ⟨[], rfl, List.Sublist.refl _⟩,
      fun hlt => absurd hlt (Nat.lt_irrefl 0)⟩
  · exact fun x hx => by cases hx
  · intro _
    refine ⟨rfl, ?_⟩
    have hanswers : (begin engine h documents w closed).session.answers = 0 :=
      if_neg fun hmem => by cases hmem.2
    rw [hanswers, hc]
    refine ⟨Nat.le_refl 0, fun _ hmem => (by cases hmem), fun _ => Nat.zero_le _, ?_,
      fun _ => rfl, ?_⟩
    · show 0 + (0 + (0 + (254 - 0))) ≤ 256
      decide
    · show 0 + (if h.content.timeout = 0 then 0 + (0 + (254 - 0)) else 0) ≤ 256
      split <;> omega

/-- The program is sound when it begins. -/
theorem sound_begin : (begin engine h documents w closed).Sound h .nothing where
  orderly := orderly_begin engine h documents w closed
  phase := by
    have hc := conversation_begin engine h documents w closed
    refine (phase_running rfl).mpr ⟨?_, ?_, ?_, ?_⟩
    · refine .going (clients_begin engine h documents w closed) (stage_client _ _ _).2 ?_ ?_ ?_
        fun _ => rfl
      · rw [ready_begin]
        exact List.mem_cons_self
      · rw [hc]
        exact fun x hx => by cases hx
      · exact ⟨rfl, fun hlast => by cases hlast⟩
    · intro ctx stage hstage hne
      have hstage : some (client engine documents h.document).stage = some (.running ctx stage) :=
        hstage
      unfold client at hstage
      split at hstage
      · cases hstage
        exact absurd rfl hne
      · cases hstage
    · intro hstopped
      cases hstopped _ rfl
    · intro _
      rw [hc]
      exact ⟨tidy_start _ _, .nil⟩

end Begin

/-! ## The end -/

/-- What is left of a list is part of what was taken only if nothing that counts was left. -/
theorem subperm_iff_of_perm {α : Type} {p : α → Bool} {xs shown missed unsent : List α}
    (h : xs.Perm ((shown ++ missed ++ unsent).filter p)) :
    xs.Subperm shown ↔ missed.filter p = [] ∧ unsent.filter p = [] := by
  rw [List.filter_append, List.filter_append] at h
  constructor
  · intro hsub
    have hall : xs.filter p = xs := by
      refine List.filter_eq_self.mpr fun x hx => ?_
      have hx := h.subset hx
      simp only [List.mem_append, List.mem_filter] at hx
      tauto
    have hle := (hsub.filter p).length_le
    have hlength := h.length_eq
    rw [hall] at hle
    simp only [List.length_append] at hlength
    exact ⟨List.eq_nil_of_length_eq_zero (by omega), List.eq_nil_of_length_eq_zero (by omega)⟩
  · rintro ⟨hmissed, hunsent⟩
    rw [hmissed, hunsent, List.append_nil, List.append_nil] at h
    exact h.subperm.trans List.filter_sublist.subperm

/-- Is the closing line to be printed just when the notice of the message falls due that was
delivered last? -/
def ClosesEarly (h : HostSettings) (log : Log) (due : Nat) : Prop :=
  h.content.timeout ≠ 0 ∧
    ∃ time, lastTime? log.delivered = some time ∧ due = Clock.running.due time h.content.timeout

/-- When nobody is ready before the closing line is to be printed, a notice of the script is unsent
just if it falls due at the same time. -/
theorem unsent_eq_nil_iff {s : Session} (ho : s.Orderly settings log) (hready : s.ready = [])
    (htimers : ∀ x ∈ s.timers, due ≤ x.1) (hnow : s.now < due)
    (hforesees : ∀ time, lastTime? log.delivered = some time →
      Clock.running.due time settings.content.timeout ≤ due) :
    s.conversation.unsent.filter Message.isFromScript = [] ↔ ¬ClosesEarly settings log due := by
  have hrest := ho.resting hready
  have hdated := ho.dated
  constructor
  · rintro hnil ⟨hne, time, hlast, rfl⟩
    rw [← ho.settings_eq, ← ho.running] at hnow
    -- The notice of the message that was delivered last is not due yet, and so it is not sent.
    rcases hdated.owed time hlast (ho.settings_eq ▸ hne) hnow with ⟨m, hm, -⟩ | ⟨x, hx, hscript, -⟩
    · rw [hrest.untold] at hm
      cases hm
    · obtain ⟨m, hm, hmscript⟩ := (Option.any_eq_true _ _).mp hscript
      refine List.filter_eq_nil_iff.mp hnil m ?_ hmscript
      exact List.mem_filterMap.mpr ⟨x, hx, hm⟩
  · intro hearly
    -- A notice that is left is due with that of the last message at the latest, and not before the
    -- closing line.
    refine List.filter_eq_nil_iff.mpr fun m hm hscript => hearly ?_
    obtain ⟨x, hx, hxm⟩ := List.mem_filterMap.mp hm
    obtain ⟨d, hd⟩ : ∃ d, dueOf s.conversation.clock s.conversation.now x = some d := by
      cases x with
      | fresh | pending => exact ⟨_, rfl⟩
      | sent => cases hxm
    have hle : due ≤ d := ho.le_of_mem_dues hready htimers (List.mem_filterMap.mpr ⟨x, hx, hd⟩)
    obtain ⟨time, hlast, hdle⟩ :=
      hdated.early x hx ((isFromScript_notice hxm).trans hscript) d hd
    rw [ho.settings_eq, ho.running] at hdle
    refine ⟨fun hzero => ?_, time, hlast, ?_⟩
    · rw [hdated.at_once (by rw [ho.settings_eq]; exact hzero)] at hm
      cases hm
    · exact Nat.le_antisymm (Nat.le_trans hle hdle) (hforesees time hlast)

theorem output_success (p : State) (line : String) :
    ∃ after, (p.success line).output = p.session.output ++ line ++ after := ⟨_, rfl⟩

/-- How the program comes to its end when it has waited for the last messages. -/
theorem end_of_closing {o : Outcome} (hs : p.stage = .closing completed due)
    (hend : p.next = .ended o) : p.session.ready = [] ∧
      (∀ time, p.session.nextTimer? = some time → due ≤ time) ∧
        o = (p.withSession (p.session.arrive due)).success (closingLine completed) := by
  unfold next at hend
  rw [hs] at hend
  dsimp only at hend
  unfold sleep at hend
  split at hend
  · cases hend
  · next time hready htime =>
    split at hend
    · cases hend
    · next hlt =>
      refine ⟨hready, fun time' h => ?_, (Next.ended.inj hend).symm⟩
      cases htime.symm.trans h
      exact Nat.le_of_not_lt hlt
  · next hready hnone =>
    refine ⟨hready, fun time h => ?_, (Next.ended.inj hend).symm⟩
    cases hnone.symm.trans h

/-- What was shown when the program prints its closing line. -/
structure Farewell (h : HostSettings) (log : Log) (p : State) (completed : Bool) (due : Nat)
    (o : Outcome) : Prop where
  /-- The messages of the script that stand in the list are those that were delivered. -/
  listed : (p.session.conversation.messages.filter Message.isFromScript).Perm
    (log.delivered.map Prod.snd)
  /-- All of them were shown just if none was passed over and the program does not close early. -/
  shown_iff : (p.session.conversation.messages.filter Message.isFromScript).Subperm log.shown ↔
    log.missed.filter Message.isFromScript = [] ∧ ¬ClosesEarly h log due
  /-- It closes early only if something was typed when the last of them was delivered. -/
  typed : ClosesEarly h log due →
    ∃ time line, lastTime? log.delivered = some time ∧ (time, line) ∈ log.typed
  /-- None is passed over if few lines are typed at a time. -/
  missed : (∀ time, log.typedAt time ≤ typedKept) → log.missed = []
  /-- What was shown stands before the closing line. -/
  printed : ∃ before after, o.output = before ++ closingLine completed ++ after ∧
    Prints h log.shown before

theorem Sound.farewell {o : Outcome} (h : p.Sound settings log)
    (hclosing : p.stage = .closing completed due) (hend : p.next = .ended o) :
    Farewell settings log p completed due o := by
  have ho := h.orderly
  obtain ⟨-, hlisted, hnow, -, hforesees⟩ := (phase_closing hclosing).mp h.phase
  obtain ⟨hready, htime, rfl⟩ := end_of_closing hclosing hend
  simp only [Foresees, ho.settings_eq] at hforesees
  have hunsent := unsent_eq_nil_iff ho hready (le_of_forall_nextTimer? htime) hnow
    fun time hlast => (hforesees time hlast).1
  have hperm : (p.session.conversation.messages.filter Message.isFromScript).Perm
      ((log.shown ++ log.missed ++ p.session.conversation.unsent).filter
        Message.isFromScript) := by
    refine (hlisted.perm.trans ho.mailed).trans (List.Perm.filter _ ?_)
    show (p.session.conversation.sent ++ (p.session.conversation.unsent ++
      p.session.conversation.untold)).Perm _
    rw [(ho.resting hready).untold, List.append_nil]
    exact (ho.sent_perm hready).symm.append_right _
  constructor
  · exact hlisted.perm
  · rw [subperm_iff_of_perm hperm, hunsent]
  · rintro ⟨-, time, hlast, heq⟩
    obtain ⟨line, hline⟩ := (hforesees time hlast).2 heq
    exact ⟨time, line, hlast, hline⟩
  · exact fun hfew => (ho.paced hfew).1
  · obtain ⟨after, hafter⟩ := output_success (p.withSession (p.session.arrive due))
      (closingLine completed)
    have houtput : (p.session.arrive due).output = p.session.output := by
      obtain ⟨ready, timers, heq⟩ := arrive_eq p.session due
      rw [heq]
    refine ⟨p.session.output, after, ?_, ho.rendered.prints⟩
    rw [← houtput]
    exact hafter

/-- When nothing was typed everything was shown. -/
theorem Farewell.subperm_shown {h : HostSettings} {o : Outcome}
    (hf : Farewell h log p completed due o) (htyped : log.typed = []) :
    (p.session.conversation.messages.filter Message.isFromScript).Subperm log.shown := by
  refine hf.shown_iff.mpr ⟨?_, fun hearly => ?_⟩
  · rw [hf.missed fun time => by rw [Log.typedAt, htyped]; exact Nat.zero_le _]
    rfl
  · obtain ⟨time, line, -, hline⟩ := hf.typed hearly
    rw [htyped] at hline
    cases hline

end Program.State

namespace Program

open Session

/-- **What is shown before the farewell.** Whatever the script and the delay, whatever is typed and
when, and in whatever order the tasks have their turns: when a run has ended well and the program
has waited for the last messages, each text, each list of options and each request for a file in the
list was shown, as often as it stands there, unless the renderer has passed it over or its notice
falls due just when the closing line is to be printed. The latter happens only when a line was typed
just when the last message was delivered. So everything is shown when all lines were typed before
the program has begun. -/
theorem shown_before_farewell_iff {engine : PatternEngine} {h : HostSettings}
    {documents : List Document} {w : World} :
    (∀ closed log p completed due o, (begin engine h documents w closed).Course log p →
      p.stage = .closing completed due → p.next = .ended o →
        State.Farewell h log p completed due o) ∧
    ∀ o, run engine h documents w = some o → ∃ log p,
      (begin engine h documents w true).Course log p ∧ p.next = .ended o ∧
        ∀ completed due, p.stage = .closing completed due →
          (p.session.conversation.messages.filter Message.isFromScript).Subperm log.shown := by
  have hfarewell : ∀ closed log p completed due o,
      (begin engine h documents w closed).Course log p → p.stage = .closing completed due →
        p.next = .ended o → State.Farewell h log p completed due o :=
    fun closed _ _ _ _ _ hcourse hclosing hend =>
      ((State.sound_begin engine h documents w closed).course hcourse).farewell hclosing hend
  refine ⟨hfarewell, fun o hrun => ?_⟩
  obtain ⟨log, p, hcourse, htyped, hend⟩ := State.exists_course_complete hrun
  exact ⟨log, p, hcourse, hend, fun completed due hclosing =>
    (hfarewell _ _ _ _ _ _ hcourse hclosing hend).subperm_shown htyped⟩

/-- A program with a delay of ten milliseconds, when it begins to run a script of one step. -/
def ofStep (st : Step) (closed : Bool) : State :=
  begin ⟨fun _ => .error ""⟩ ⟨{ Settings.standard with timeout := 10 }, 0, false⟩
    [⟨[⟨defaultTopic, [st]⟩]⟩] ⟨fun _ => .error "", fun _ => false, [], 0⟩ closed

/-- The program says one text and ends. -/
def hello : State := ofStep { Step.empty with text := some ["Hello"] } true

/-- The run ends at once, the text is delivered after eleven milliseconds and shown after thirteen,
and the closing line is printed after twenty-three. -/
theorem shown_before_farewell_iff_hello :
    (hello.follow 17).2.stage = .closing false 23 ∧
      ((hello.follow 17).2.session.conversation.messages.filter Message.isFromScript).length = 1 ∧
      ∃ o, (hello.follow 17).2.next = .ended o ∧
        ((hello.follow 17).2.session.conversation.messages.filter Message.isFromScript).Subperm
          (hello.follow 17).1.shown ∧
        State.Farewell ⟨{ Settings.standard with timeout := 10 }, 0, false⟩ (hello.follow 17).1
          (hello.follow 17).2 false 23 o := by
  have hclosing : (hello.follow 17).2.stage = .closing false 23 := rfl
  obtain ⟨o, hend⟩ : ∃ o, (hello.follow 17).2.next = .ended o := ⟨_, rfl⟩
  have hfarewell := shown_before_farewell_iff.1 _ _ _ _ _ _ (State.course_follow hello 17)
    hclosing hend
  exact ⟨hclosing, rfl, o, hend, hfarewell.subperm_shown rfl, hfarewell⟩

/-- The program says one text and asks for a name. -/
def helloName : State :=
  ofStep { Step.empty with
    text := some ["Hello"]
    collect := some ⟨some "name", false, []⟩ } false

/-- After eleven milliseconds the text is delivered and the run waits for the name, which is typed
at once. -/
def helloNamed : State := (helloName.follow 15).2.receive (some "Ada")

/-- The run ends at the same millisecond, and the closing line is printed after thirteen. The notice
of the text falls due at the same time, and the text is never shown. -/
theorem shown_before_farewell_typed_late : ∃ log p o, helloName.Course log p ∧
    p.stage = .closing false 13 ∧ p.next = .ended o ∧ o.output = State.closingLine false ∧
      ¬(p.session.conversation.messages.filter Message.isFromScript).Subperm log.shown := by
  have hcourse := ((State.course_follow helloName 15).input (some "Ada")).trans
    (State.course_follow helloNamed 9)
  refine ⟨_, _, _, hcourse, rfl, rfl, rfl, fun hsub => ?_⟩
  exact absurd hsub.length_le (by decide)

end Program

end Dialogue
