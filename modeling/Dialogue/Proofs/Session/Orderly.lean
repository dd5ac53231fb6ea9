import Dialogue.Proofs.Session.Rendering
/-!
# The renderer keeps up

As few messages are sent at a time, the renderer passes notices over only when many lines were typed
at the same instant.

* `Orderly` — what holds all the time of a session whose only client is a run of the program.
* `Orderly.turn`, `Orderly.arrive`, `Orderly.receive` — whatever happens keeps it in order.
* `Orderly.sent_perm` — when nobody is ready, all notices that were sent were shown or passed over.
-/

namespace Dialogue

namespace Session

open Conversation

variable {s : Session} {t u : TaskId} {op : Option Operation} {settings : HostSettings}
  {log : Log} {time : Nat}

/-! ## Sessions in order -/

/-- A run of the program is the only client, or it was. -/
def Solo (s : Session) : Prop := ∃ name stage, s.clients = [⟨name, stage⟩] ∧ stage.IsPlain

/-- The number of answers that can be given before anything is typed and before time passes. -/
def answers (s : Session) : Nat :=
  if .forwarder ∈ s.ready ∧ s.conversation.isAwaiting = true then 1 else 0

theorem answers_le_one (s : Session) : s.answers ≤ 1 := by
  unfold answers
  split
  · exact Nat.le_refl 1
  · exact Nat.zero_le 1

/-- The number of times that something may be typed at the same instant, so that the renderer does
not fall behind. A message may land at that instant, and an answer may be given that was typed
before. -/
def typedKept : Nat := noticesKept - 2

/-- As long as few lines are typed at the same instant the renderer does not fall behind. -/
def Paced (s : Session) (log : Log) : Prop :=
  (∀ time, log.typedAt time ≤ typedKept) → log.missed = [] ∧
    s.conversation.Paced noticesKept log.seen (s.answers + (typedKept - log.typedAt s.now))

/-- What holds of a session all the time in which a run of the program is its only client and a
console shows what is delivered. -/
structure Orderly (s : Session) (settings : HostSettings) (log : Log) : Prop where
  attended : s.conversation.Attended
  running : s.conversation.clock = .running
  signals : s.conversation.signals = []
  settings_eq : s.conversation.settings = settings.content
  mailed : s.conversation.Mailed log.delivered
  dated : s.conversation.Dated log.delivered
  hushed : s.conversation.Hushed
  scheduled : s.Scheduled
  tended : s.Tended
  solo : s.Solo
  rendered : s.Rendered settings log
  typed_past : ∀ x ∈ log.typed, x.1 ≤ s.now
  paced : s.Paced log

theorem Orderly.stepped (h : s.Orderly settings log) (t : TaskId) : ∃ op, Stepped s t op := by
  obtain ⟨name, stage, hs, hplain⟩ := h.solo
  exact stepped_step hs hplain t

theorem clients_step_ne (hs : s.Solo) (ht : t ≠ .client 0) :
    (s.step t).1.clients = s.clients := by
  cases t with
  | pump | notice => rfl
  | renderer =>
      obtain ⟨console, output, heq⟩ := stepRenderer_eq s
      show s.stepRenderer.1.clients = _
      rw [heq]
  | forwarder =>
      obtain ⟨conversation, console, timers, output, heq⟩ := stepForwarder_eq s
      show s.stepForwarder.1.clients = _
      rw [heq]
  | client n =>
      obtain ⟨name, stage, hs, -⟩ := hs
      rw [step_other hs fun hn => ht (hn ▸ rfl)]

theorem clients_turn (s : Session) (t : TaskId) : (s.turn t).clients = (s.step t).1.clients := by
  obtain ⟨ready, timers, heq⟩ := turn_eq s t
  rw [heq]

theorem Solo.turn (h : s.Solo) (t : TaskId) : (s.turn t).Solo := by
  rw [Solo, clients_turn]
  by_cases ht : t = .client 0
  · subst ht
    obtain ⟨name, stage, hs, hplain⟩ := h
    have hkept : ∀ {ctx : RunContext} {stage : RunStage}, ctx.table = Builtin.table →
        (∀ c args due k, stage ≠ .working c args due k) →
        (ClientStage.running ctx stage).IsPlain := fun htable hstage => ⟨htable, hstage⟩
    cases runStep_stepClient hs hplain with
    | act _ _ _ _ _ hs' htable =>
        exact ⟨_, _, hs', hkept htable fun _ _ _ _ h => by cases h⟩
    | seek _ _ _ hs' htable | ask _ _ _ hs' htable | resume _ hs' htable =>
        exact ⟨_, _, hs', hkept htable fun _ _ _ _ h => by cases h⟩
    | finish _ _ _ hs' => exact ⟨_, _, hs', trivial⟩
    | wait _ hs' => exact ⟨name, stage, hs'.trans hs, hplain⟩
    | rest _ hs' => exact ⟨name, stage, (congrArg Session.clients hs').trans hs, hplain⟩
  · rw [clients_step_ne h ht]
    exact h

/-! ## Turns -/

theorem Stepped.isAwaiting_eq (hstep : Stepped s t op) :
    (s.turn t).conversation.isAwaiting = (s.conversation.doing op).isAwaiting := by
  obtain ⟨journal, hconv⟩ := hstep.conversation_eq
  rw [hconv]
  rfl

/-- Nobody begins to wait for an answer but in a turn of the run. -/
theorem Stepped.isAwaiting (hstep : Stepped s t op) (hw : s.conversation.WorkedOff)
    (ht : t ≠ .client 0) (ha : (s.turn t).conversation.isAwaiting = true) :
    s.conversation.isAwaiting = true := by
  rw [hstep.isAwaiting_eq] at ha
  cases op with
  | none => exact ha
  | some o =>
      have hallowed := hstep.allowed o rfl
      cases t with
      | pump | notice =>
          subst hallowed
          have hslot := (slot_of_isAwaiting hw rfl (fun _ h => by cases h) ha).1
          exact (congrArg InputSlot.isPending hslot).symm.trans ha
      | client n => exact absurd (hallowed.1 ▸ rfl) ht
      | renderer => exact hallowed.elim
      | forwarder => exact hallowed.1

/-- An answer that is given is one of those that could be given. -/
theorem Stepped.answers_le (hstep : Stepped s t op) (hw : s.conversation.WorkedOff)
    (hs : s.conversation.signals = []) (ht : t ∈ s.ready)
    (hrun : t = .client 0 → (s.turn t).conversation.isAwaiting = true →
      s.conversation.isAwaiting = true ∨ .forwarder ∉ s.ready) :
    (s.turn t).answers + (op.elim [] s.conversation.puts).length ≤ s.answers := by
  by_cases hanswer : ∃ text, op = some (.addFrom text)
  · obtain ⟨text, rfl⟩ := hanswer
    have hallowed := hstep.allowed _ rfl
    cases t with
    | forwarder =>
        have hone : s.answers = 1 := if_pos ⟨ht, hallowed.1⟩
        have hzero : (s.turn .forwarder).answers = 0 := by
          refine if_neg fun h => ?_
          have ha : (s.conversation.perform (.addFrom text)).isAwaiting = true :=
            hstep.isAwaiting_eq.symm.trans h.2
          exact (slot_of_isAwaiting hw rfl (fun _ h => by cases h) ha).2 text rfl
        rw [hone, hzero]
        exact Nat.le_refl 1
    | pump | notice => cases hallowed
    | client => exact absurd rfl (hallowed.2.2.1 text)
    | renderer => exact hallowed.elim
  · have hnone : op.elim [] s.conversation.puts = [] := by
      cases op with
      | none => rfl
      | some o => exact puts_eq_nil (hstep.plain o rfl) fun text he => hanswer ⟨text, he ▸ rfl⟩
    rw [hnone, List.length_nil, Nat.add_zero, answers]
    split
    · next hmore =>
      have hready := hstep.forwarder_mem hs hmore.1
      have hwaits : s.conversation.isAwaiting = true := by
        by_cases hclient : t = .client 0
        · exact (hrun hclient hmore.2).resolve_right fun hno => hno hready
        · exact hstep.isAwaiting hw hclient hmore.2
      exact Nat.le_of_eq (if_pos ⟨hready, hwaits⟩).symm
    · exact Nat.zero_le _

/-! ## Turns of a session in order -/

theorem typedAt_logOf (log : Log) (s : Session) (t : TaskId) (time : Nat) :
    (log ++ s.logOf t).typedAt time = log.typedAt time :=
  congrArg (List.countP _) (List.append_nil log.typed)

theorem Paced.turn (h : s.Paced log) (hstep : Stepped s t op)
    (hr : s.Rendered settings log) (hr' : (s.turn t).Rendered settings (log ++ s.logOf t))
    (hw : s.conversation.WorkedOff) (hc : s.conversation.clock = .running)
    (hs : s.conversation.signals = [])
    (ha : (s.turn t).answers + (op.elim [] s.conversation.puts).length ≤ s.answers) :
    (s.turn t).Paced (log ++ s.logOf t) := by
  intro hfew
  simp only [typedAt_logOf] at hfew ⊢
  obtain ⟨hmissed, hpaced⟩ := h hfew
  have hbehind := hpaced.behind
  refine ⟨?_, ?_⟩
  · have hnone := hr.misses_eq_nil (by omega) t
    rw [Log.missed_append, hmissed, List.nil_append]
    exact hnone
  · obtain ⟨journal, hconv⟩ := hstep.conversation_eq
    have hle : log.seen ≤ (log ++ s.logOf t).seen := by
      rw [Log.seen_append]
      exact Nat.le_add_right _ _
    refine Conversation.Paced.see ?_ hle hr'.seen_le
    rw [hstep.now_eq hs, hconv]
    exact (hpaced.doing hw hc hstep.plain (by omega)).told _ _

/-- A turn keeps a session in order. When the run begins to wait for an answer in it, the forwarder
must not have a turn before time passes. -/
theorem Orderly.turn (h : s.Orderly settings log) (ht : t ∈ s.ready)
    (hrun : t = .client 0 → (s.turn t).conversation.isAwaiting = true →
      s.conversation.isAwaiting = true ∨ .forwarder ∉ s.ready) :
    (s.turn t).Orderly settings (log ++ s.logOf t) := by
  obtain ⟨op, hstep⟩ := h.stepped t
  obtain ⟨journal, hconv⟩ := hstep.conversation_eq
  have hw := h.attended.worked
  have hdelivered : (log ++ s.logOf t).delivered =
      log.delivered ++ op.elim [] s.conversation.presents :=
    congrArg (log.delivered ++ ·) hstep.presents
  have hrendered : (s.turn t).Rendered settings (log ++ s.logOf t) := by
    by_cases hr : t = .renderer
    · exact hr ▸ h.rendered.turn_renderer (hr ▸ ht)
    · exact h.rendered.turn_ne hstep hw h.signals hr
  constructor
  · rw [hconv]
    exact (h.attended.doing op).told _ _
  · rw [hconv]
    exact (clock_doing hw op).trans h.running
  · rw [hconv]
  · rw [hconv]
    exact (settings_doing hstep.plain).trans h.settings_eq
  · rw [hconv, hdelivered]
    exact h.mailed.doing hw
  · rw [hconv, hdelivered]
    exact (h.dated.doing hw hstep.plain).told _ _
  · rw [hconv]
    exact h.hushed.doing hw hstep.plain
  · exact h.scheduled.turn hstep h.signals ht
  · exact h.tended.undergo (i := .move (.turn t)) h.attended hw (Alike.refl _) trivial
  · exact h.solo.turn t
  · exact hrendered
  · intro x hx
    rw [hstep.now_eq h.signals]
    exact h.typed_past x (List.append_nil log.typed ▸ hx)
  · exact h.paced.turn hstep h.rendered hrendered hw h.running h.signals
      (hstep.answers_le hw h.signals ht hrun)

/-! ## The passing of time -/

/-- When nobody is ready, all notices that were sent were shown or passed over. -/
theorem Orderly.seen_eq (h : s.Orderly settings log) (hready : s.ready = []) :
    log.seen = s.conversation.sent.length := by
  refine Nat.le_antisymm h.rendered.seen_le (Nat.le_of_not_lt fun hlt => ?_)
  have hmem := h.rendered.ready hlt
  rw [hready] at hmem
  cases hmem

theorem Orderly.sent_perm (h : s.Orderly settings log) (hready : s.ready = []) :
    (log.shown ++ log.missed).Perm s.conversation.sent := by
  have hperm := h.rendered.perm
  rwa [h.seen_eq hready, List.take_length] at hperm

theorem Orderly.resting (h : s.Orderly settings log) (hready : s.ready = []) :
    s.conversation.Resting := by
  have hnone : ∀ t due, s.conversation.resumes? t = some due → ¬due ≤ s.now := by
    intro t due ht hdue
    have hmem := h.scheduled.ready t due ht hdue
    rw [hready] at hmem
    cases hmem
  constructor
  · exact untold_eq_nil fun n hn => hnone _ _ hn (Nat.zero_le _)
  · intro n
    cases hn : s.conversation.noticeReady n with
    | false => rfl
    | true =>
        obtain ⟨due, hresumes, hdue⟩ := exists_resumes_of_noticeReady hn
        exact absurd hdue (hnone _ _ hresumes)

/-- No notice is due before the next timer. -/
theorem Orderly.le_of_mem_dues (h : s.Orderly settings log) (hready : s.ready = []) {due : Nat}
    (hnext : ∀ x ∈ s.timers, time ≤ x.1) (hdue : due ∈ s.conversation.post.dues) : time ≤ due := by
  have hrest := h.resting hready
  obtain ⟨n, hn⟩ := exists_resumes_of_mem_dues hrest.notices hdue
  exact hnext _ (h.scheduled.timers _ _ hn (lt_of_mem_dues hrest.notices hdue))

/-- Nothing was typed at a time that is to come. -/
theorem Orderly.typedAt_eq_zero (h : s.Orderly settings log) (hlt : s.now < time) :
    log.typedAt time = 0 := by
  refine List.countP_eq_zero.mpr fun x hx => ?_
  have := h.typed_past x hx
  simp only [decide_eq_true_eq]
  omega

/-- Time passes from timer to timer, when nobody is ready. -/
theorem Orderly.arrive (h : s.Orderly settings log) (hready : s.ready = [])
    (hlt : s.now < time) (hnext : ∀ x ∈ s.timers, time ≤ x.1) :
    (s.arrive time).Orderly settings log := by
  have hrest := h.resting hready
  have hw := h.attended.worked
  have hnow : (s.arrive time).now = time := now_arrive (Nat.le_of_lt hlt)
  obtain ⟨ready, timers, heq⟩ := arrive_eq s time
  have hconv := conversation_arrive s time
  constructor
  · rw [hconv]
    exact h.attended.perform _
  · rw [hconv]
    exact h.running
  · rw [hconv]
    exact h.signals
  · rw [hconv]
    exact h.settings_eq
  · rw [hconv]
    exact h.mailed
  · rw [hconv]
    exact h.dated.pass hrest _
  · rw [hconv]
    exact h.hushed
  · exact h.scheduled.arrive (Nat.le_of_lt hlt)
  · exact h.tended.undergo (i := .move (.arrive time)) h.attended hw (Alike.refl _) trivial
  · obtain ⟨name, stage, hs, hplain⟩ := h.solo
    refine ⟨name, stage, ?_, hplain⟩
    rw [heq]
    exact hs
  · rw [heq]
    refine ⟨h.rendered.view, h.rendered.seen_le, h.rendered.perm, h.rendered.prints,
      fun hmore => ?_⟩
    rw [h.seen_eq hready] at hmore
    exact absurd hmore (Nat.lt_irrefl _)
  · intro x hx
    rw [hnow]
    exact Nat.le_of_lt (Nat.lt_of_le_of_lt (h.typed_past x hx) hlt)
  · intro hfew
    obtain ⟨hmissed, hpaced⟩ := h.paced hfew
    have hsum : s.conversation.now + (time - s.now) = time := by
      have hlt : s.conversation.now < time := hlt
      show s.conversation.now + (time - s.conversation.now) = time
      omega
    refine ⟨hmissed, ?_⟩
    -- Nothing was typed yet at the new time, so all that may be typed at it is still to come.
    rw [hnow, h.typedAt_eq_zero hlt, hconv]
    refine (hpaced.pass hw h.running (by omega) hrest (h.seen_eq hready) (by decide)
      fun due hdue => ?_).mono ?_
    · rw [hsum]
      exact h.le_of_mem_dues hready hnext hdue
    · have := answers_le_one (s.arrive time)
      show _ + (254 - 0) ≤ 256 - 1
      omega

/-! ## What does not change the conversation -/

/-- A session stays in order when the tasks that are ready stand in another order. -/
theorem Orderly.reorder (h : s.Orderly settings log) {ready : List TaskId}
    (hready : ready.Perm s.ready) : ({ s with ready } : Session).Orderly settings log where
  attended := h.attended
  running := h.running
  signals := h.signals
  settings_eq := h.settings_eq
  mailed := h.mailed
  dated := h.dated
  hushed := h.hushed
  scheduled := {
    ready := fun t due ht hdue => hready.mem_iff.mpr (h.scheduled.ready t due ht hdue)
    timers := h.scheduled.timers
    ahead := h.scheduled.ahead }
  tended := h.tended
  solo := h.solo
  rendered := {
    view := h.rendered.view
    seen_le := h.rendered.seen_le
    perm := h.rendered.perm
    prints := h.rendered.prints
    ready := fun hlt => hready.mem_iff.mpr (h.rendered.ready hlt) }
  typed_past := h.typed_past
  paced := by
    have heq : ({ s with ready } : Session).answers = s.answers := by
      unfold answers
      simp only [hready.mem_iff]
    rw [Paced, heq]
    exact h.paced

theorem Orderly.stopForwarder (h : s.Orderly settings log) :
    s.stopForwarder.Orderly settings log := by
  obtain ⟨k, hk, hview⟩ := Option.map_eq_some_iff.mp h.rendered.view
  have heq : s.stopForwarder = s.setConsole { k with forwarder := .ended } := by
    rw [Session.stopForwarder, hk]
  rw [heq]
  refine ⟨h.attended, h.running, h.signals, h.settings_eq, h.mailed, h.dated, h.hushed,
    ⟨h.scheduled.ready, h.scheduled.timers, h.scheduled.ahead⟩, h.tended, h.solo, ?_, h.typed_past,
    h.paced⟩
  exact ⟨congrArg some hview, h.rendered.seen_le, h.rendered.perm, h.rendered.prints,
    h.rendered.ready⟩

/-! ## What is typed -/

theorem receive_eq (s : Session) (line : Option String) :
    ∃ console ready, s.receive line = { s with console, ready } := by
  cases line with
  | some line => exact type_eq s line
  | none => exact close_eq s

/-- What is typed stays with the console, and only the forwarder can be woken. -/
theorem receive_cases (s : Session) (line : Option String) : s.receive line = s ∨
    ∃ k k', s.console = some k ∧ k'.settings = k.settings ∧ k'.seen = k.seen ∧
      k'.forwarder = k.forwarder ∧ s.receive line = (s.setConsole k').wakeForwarder k := by
  cases hk : s.console with
  | none =>
      left
      cases line <;> simp only [receive, type, close, hk]
  | some k =>
      cases line with
      | none =>
          refine .inr ⟨k, { k with closed := true }, rfl, rfl, rfl, rfl, ?_⟩
          simp only [receive, close, hk]
      | some line =>
          by_cases htakes : s.takesLine = true
          · refine .inr ⟨k, { k with lines := k.lines ++ [line] }, rfl, rfl, rfl, rfl, ?_⟩
            simp only [receive, type, hk, htakes, if_true]
          · left
            simp [receive, type, hk, htakes]

theorem view?_receive (s : Session) (line : Option String) : (s.receive line).view? = s.view? := by
  rcases receive_cases s line with heq | ⟨k, k', hk, hsettings, hseen, -, heq⟩
  · rw [heq]
  · obtain ⟨ready, hwake⟩ := wakeForwarder_eq (s.setConsole k') k
    rw [heq, hwake, view?, view?, hk, Option.map_some, ← hsettings, ← hseen]
    rfl

theorem isStopped_receive (s : Session) (line : Option String) :
    (s.receive line).IsStopped ↔ s.IsStopped := by
  rcases receive_cases s line with heq | ⟨k, k', hk, -, -, hforwarder, heq⟩
  · rw [heq]
  · obtain ⟨ready, hwake⟩ := wakeForwarder_eq (s.setConsole k') k
    rw [heq, hwake, IsStopped, IsStopped, hk]
    simp only [setConsole, Option.some.injEq, forall_eq']
    rw [hforwarder]

theorem mem_ready_receive (line : Option String) (h : t ∈ s.ready) :
    t ∈ (s.receive line).ready := by
  cases line with
  | some line => exact (retains_type s line).ready h
  | none => exact (retains_close s).ready h

/-- What is typed keeps a session in order. One more answer can be given then, which was counted. -/
theorem Orderly.receive (h : s.Orderly settings log) (line : Option String) :
    (s.receive line).Orderly settings (log ++ .input s.now line) := by
  have hnew : ∀ u, u ∈ s.ready → u ∈ (s.receive line).ready := fun u hu =>
    mem_ready_receive line hu
  have hview := view?_receive s line
  obtain ⟨console, ready, heq⟩ := receive_eq s line
  rw [heq] at hnew hview ⊢
  have hdelivered : (log ++ .input s.now line).delivered = log.delivered :=
    List.append_nil _
  have hshown : (log ++ .input s.now line).shown = log.shown :=
    List.append_nil _
  have hmissed : (log ++ .input s.now line).missed = log.missed :=
    List.append_nil _
  have hseen : (log ++ .input s.now line).seen = log.seen := by
    rw [Log.seen, hshown, hmissed, Log.seen]
  constructor
  · exact h.attended
  · exact h.running
  · exact h.signals
  · exact h.settings_eq
  · rw [hdelivered]
    exact h.mailed
  · rw [hdelivered]
    exact h.dated
  · exact h.hushed
  · exact ⟨fun t due ht hdue => hnew t (h.scheduled.ready t due ht hdue), h.scheduled.timers,
      h.scheduled.ahead⟩
  · exact h.tended
  · exact h.solo
  · constructor
    · rw [hview, hseen]
      exact h.rendered.view
    · rw [hseen]
      exact h.rendered.seen_le
    · rw [hseen, hshown, hmissed]
      exact h.rendered.perm
    · rw [hshown]
      exact h.rendered.prints
    · rw [hseen]
      exact fun hlt => hnew _ (h.rendered.ready hlt)
  · intro x hx
    rcases List.mem_append.mp hx with hx | hx
    · exact h.typed_past x hx
    · rw [List.mem_singleton.mp hx]
      exact Nat.le_refl s.now
  · intro hfew
    simp only [Log.typedAt_input] at hfew ⊢
    obtain ⟨hnone, hpaced⟩ := h.paced fun time => Nat.le_trans (Nat.le_add_right _ _) (hfew time)
    refine ⟨hmissed.trans hnone, ?_⟩
    rw [hseen]
    refine hpaced.mono ?_
    -- The answer that can be given now is one of those that were counted.
    have hone := answers_le_one { s with console, ready }
    have hnow := hfew s.now
    rw [if_pos rfl] at hnow
    show _ + (typedKept - (log.typedAt s.now + if s.now = s.now then 1 else 0)) ≤ _
    rw [if_pos rfl]
    omega

end Session

end Dialogue
