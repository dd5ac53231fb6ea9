import Dialogue.Proofs.Session.Turns
/-!
# Nobody is forgotten

The signals of a conversation are obeyed at the end of each turn. So a pump or a notice that can go
on is ready, and a timer is set for one that can go on later.

* `Scheduled.turn`, `Scheduled.arrive` — that stays so while tasks have their turns and time passes.
* `Stepped.forwarder_mem`, `Stepped.renderer_mem` — nobody but itself lets the forwarder go on, and
  the renderer goes on when a notice is sent.
-/

namespace Dialogue

namespace Conversation

variable {c c' : Conversation} {op : Option Operation} {o : Option TaskId} {more : List Signal}

theorem Tells.mono {t : TaskId} (h : Tells o c c' more) (ho : ∀ u, o = some u → u = t) :
    Tells (some t) c c' more where
  now := h.now
  signals := h.signals
  resumes u due hu := by
    rcases h.resumes u due hu with hu | hu | ⟨hdue, hu⟩
    · exact .inl hu
    · exact .inr (.inl hu)
    · exact .inr (.inr ⟨hdue, hu.imp_right fun he => by rw [ho u he]⟩)
  published := h.published
  later := h.later
  forwarder := h.forwarder

theorem tells_does (hp : ∀ o, op = some o → o.isPlain = true) (hd : c.Does op c') :
    ∃ more, Tells (op.bind Operation.task?) c c' more := by
  obtain ⟨journal, clients, rfl⟩ := hd
  have hwoken : Tells (op.bind Operation.task?) (c.doing op) { c.doing op with
      journal
      signals := (c.doing op).signals ++ clients.map fun n => .wake (.client n) }
      (clients.map fun n => .wake (.client n)) := by
    refine .aside rfl rfl rfl rfl rfl fun x hx => ?_
    obtain ⟨n, -, rfl⟩ := List.mem_map.mp hx
    exact ⟨n, rfl⟩
  cases op with
  | none => exact ⟨_, hwoken⟩
  | some o =>
      obtain ⟨_, hdone⟩ := tells_perform c (Operation.ne_pass_of_isPlain (hp o rfl))
      exact ⟨_, hdone.trans hwoken⟩

end Conversation

namespace Session

open Conversation

variable {s : Session} {t u : TaskId} {op : Option Operation}

/-- Whoever can go on by now is ready, a timer is set for whoever can go on later, and no timer is
late. -/
structure Scheduled (s : Session) : Prop where
  ready : ∀ t due, s.conversation.resumes? t = some due → due ≤ s.now → t ∈ s.ready
  timers : ∀ t due, s.conversation.resumes? t = some due → s.now < due → (due, t) ∈ s.timers
  ahead : ∀ x ∈ s.timers, s.now < x.1

/-! ## Turns -/

/-- What a turn tells the scheduler. -/
theorem Stepped.tells (h : Stepped s t op) (hs : s.conversation.signals = []) :
    Tells (some t) s.conversation (s.step t).1.conversation (s.step t).1.conversation.signals := by
  obtain ⟨more, htells⟩ := tells_does h.plain h.does
  have hmore : (s.step t).1.conversation.signals = more := by
    rw [htells.signals, hs, List.nil_append]
  rw [hmore]
  exact htells.mono fun u hu => h.task hu

theorem Stepped.conversation_eq (h : Stepped s t op) : ∃ journal,
    (s.turn t).conversation = { s.conversation.doing op with journal, signals := [] } := by
  obtain ⟨journal, clients, heq⟩ := h.does
  refine ⟨journal, ?_⟩
  rw [conversation_turn, heq]

theorem Stepped.now_eq (h : Stepped s t op) (hs : s.conversation.signals = []) :
    (s.turn t).now = s.now := by
  show (s.turn t).conversation.now = s.conversation.now
  rw [conversation_turn]
  exact (h.tells hs).now

/-- A task that is ready stays so, unless it cannot go on after its turn. -/
theorem Stepped.mem_ready (h : Stepped s t op) (hu : u ∈ s.ready)
    (hstep : u = t → (s.step t).2 = true) : u ∈ (s.turn t).ready :=
  mem_ready_turn (h.ready ▸ hu) hstep

theorem leave_ready_subset (s : Session) (t : TaskId) (goesOn : Bool) :
    (s.leave t goesOn).ready ⊆ s.ready := by
  unfold leave
  split
  · exact fun _ h => h
  · exact List.erase_subset

theorem leave_timers (s : Session) (t : TaskId) (goesOn : Bool) :
    (s.leave t goesOn).timers = s.timers := by
  unfold leave
  split <;> rfl

theorem leave_console (s : Session) (t : TaskId) (goesOn : Bool) :
    (s.leave t goesOn).console = s.console := by
  unfold leave
  split <;> rfl

/-- Only its own turns let the forwarder go on. -/
theorem Stepped.forwarder_mem (h : Stepped s t op) (hs : s.conversation.signals = [])
    (hf : .forwarder ∈ (s.turn t).ready) : .forwarder ∈ s.ready := by
  rw [turn_eq_foldl] at hf
  rcases ready_foldl_obey _ hf with hf | hf | hf
  · have hf := leave_ready_subset _ t _ hf
    exact h.ready ▸ hf
  · exact absurd hf (h.tells hs).forwarder
  · cases hf

/-- When a notice is sent the renderer goes on. -/
theorem Stepped.renderer_mem (h : Stepped s t op) (hs : s.conversation.signals = [])
    (hk : s.console.isSome = true)
    (hsent : s.conversation.sent.length < (s.turn t).conversation.sent.length) :
    .renderer ∈ (s.turn t).ready := by
  rw [conversation_turn] at hsent
  rw [turn_eq_foldl]
  refine renderer_mem_foldl_obey ((h.tells hs).published hsent) _ ?_
  rw [leave_console]
  exact h.console.trans hk

theorem Scheduled.turn (hsch : s.Scheduled) (h : Stepped s t op)
    (hs : s.conversation.signals = []) (ht : t ∈ s.ready) : (s.turn t).Scheduled := by
  have htells := h.tells hs
  have hnow := h.now_eq hs
  have hresumes : ∀ u, (s.turn t).conversation.resumes? u =
      (s.step t).1.conversation.resumes? u := by
    intro u
    rw [conversation_turn]
    exact resumes?_congr (c := (s.step t).1.conversation) rfl rfl u
  obtain ⟨more, hmore, hlate⟩ := h.timers
  -- A timer is set for a time to come, and whoever is told of can go on by now.
  have hgoes : ∀ {u due}, (s.step t).1.conversation.resumes? u = some due → due ≤ s.now →
      u = t → (s.step t).2 = true := by
    rintro u due hu hdue rfl
    exact h.goesOn due hu (htells.now.symm ▸ hdue)
  constructor
  · intro u due hu hdue
    rw [hresumes] at hu
    rw [hnow] at hdue
    rcases htells.resumes u due hu with hold | hold | ⟨-, hold | hold⟩
    · exact h.mem_ready (hsch.ready u due hold hdue) (hgoes hu hdue)
    · have := htells.later due u hold
      rw [htells.now] at this
      exact absurd hdue (Nat.not_le.mpr this)
    · rw [turn_eq_foldl]
      exact mem_ready_foldl_obey hold _
    · cases hold
      exact h.mem_ready ht (hgoes hu hdue)
  · intro u due hu hdue
    rw [hresumes] at hu
    rw [hnow] at hdue
    rcases htells.resumes u due hu with hold | hold | ⟨hle, -⟩
    · apply timers_turn
      rw [hmore]
      exact List.mem_append_left _ (hsch.timers u due hold hdue)
    · rw [turn_eq_foldl]
      exact mem_timers_foldl_obey hold _
    · rw [htells.now] at hle
      exact absurd hle (Nat.not_le.mpr hdue)
  · intro x hx
    rw [hnow]
    rw [turn_eq_foldl] at hx
    rcases timers_foldl_obey _ hx with hx | hx
    · rw [leave_timers] at hx
      rcases List.mem_append.mp (hmore ▸ hx) with hx | hx
      · exact hsch.ahead x hx
      · exact hlate x hx
    · have := htells.later _ _ hx
      rwa [htells.now] at this

/-! ## The passing of time -/

theorem now_arrive {time : Nat} (h : s.now ≤ time) : (s.arrive time).now = time := by
  obtain ⟨ready, timers, heq⟩ := arrive_eq s time
  rw [heq]
  show s.now + (time - s.now) = time
  omega

theorem conversation_arrive (s : Session) (time : Nat) :
    (s.arrive time).conversation = s.conversation.perform (.pass (time - s.now)) := by
  obtain ⟨ready, timers, heq⟩ := arrive_eq s time
  rw [heq]

/-- The timers of the time that is reached fire. -/
theorem mem_ready_arrive {time due : Nat} (h : (due, t) ∈ s.timers) (hdue : due ≤ time) :
    t ∈ (s.arrive time).ready :=
  mem_ready_foldl_wake (x := (due, t)) (List.mem_filter.mpr ⟨h, decide_eq_true hdue⟩) _

theorem timers_arrive (s : Session) (time : Nat) :
    (s.arrive time).timers = s.timers.filter fun x => time < x.1 := by
  unfold arrive
  dsimp only
  obtain ⟨ready, heq⟩ := foldl_wake_eq (s.timers.filter (·.1 ≤ time)) { s with
    conversation := s.conversation.perform (.pass (time - s.now))
    timers := s.timers.filter fun t => time < t.1 }
  rw [heq]

theorem Scheduled.arrive (h : s.Scheduled) {time : Nat} (hnow : s.now ≤ time) :
    (s.arrive time).Scheduled := by
  have hresumes : ∀ u, (s.arrive time).conversation.resumes? u = s.conversation.resumes? u := by
    intro u
    rw [conversation_arrive]
    exact resumes?_congr (c := s.conversation) rfl rfl u
  constructor
  · intro u due hu hdue
    rw [hresumes] at hu
    rw [now_arrive hnow] at hdue
    by_cases hpast : due ≤ s.now
    · exact (retains_foldl_wake _ _).ready (h.ready u due hu hpast)
    · exact mem_ready_arrive (h.timers u due hu (Nat.lt_of_not_le hpast)) hdue
  · intro u due hu hdue
    rw [hresumes] at hu
    rw [now_arrive hnow] at hdue
    rw [timers_arrive]
    refine List.mem_filter.mpr ⟨h.timers u due hu ?_, decide_eq_true hdue⟩
    exact Nat.lt_of_le_of_lt hnow hdue
  · intro x hx
    rw [timers_arrive] at hx
    rw [now_arrive hnow]
    exact of_decide_eq_true (List.mem_filter.mp hx).2

end Session

end Dialogue
