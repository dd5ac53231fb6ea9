import Mathlib.Data.List.Basic
import Dialogue.Conversation.Operation
/-!
# One pump for one queue

A conversation keeps all pumps that were ever started, and `clear` leaves those of earlier
generations at work. `WorkedOff` says what holds all the same: items only wait in the queue while a
pump of the present generation is at work, and there is never a second one.

* `WorkedOff.perform` — every operation keeps it; the two that matter are putting an item in
  (`WorkedOff.push`) and turning to the next one (`WorkedOff.nextItem`).
* `queue_is_worked_off` — so it holds after every history.
-/

namespace Dialogue

/-! ## Pumps at work -/

/-- The item that a pump has at a stage of its work. -/
def PumpStage.work? : PumpStage → Option Work
  | .taken w => some w
  | .typing d placeholder _ => some (.message d placeholder)
  | .calling ticket job _ => some (.call ticket job)
  | .through w _ => some w
  | .ended => none

/-- The ticket of a function in the queue. -/
def Item.ticket? : Item → Option Nat
  | .message _ => none
  | .call ticket _ => some ticket

/-- Is the pump of the given generation, and has it not ended? -/
def Pump.isLive (generation : Nat) (p : Pump) : Bool :=
  p.generation = generation && p.stage.work?.isSome

namespace Conversation

/-- The pumps of the present generation that have not ended. -/
def live (c : Conversation) : List Pump := c.pumps.filter (Pump.isLive c.generation)

/-- The items of the present generation that pumps have in their hands. -/
def inFlight (c : Conversation) : List Work := c.live.filterMap fun p => p.stage.work?

/-- What is said of the queue and its pumps depends on these parts of a conversation only. -/
structure Dispatch where
  queue : List Item
  pumping : Bool
  generation : Nat
  pumps : List Pump

/-- The queue of a conversation and its pumps. -/
def dispatch (c : Conversation) : Dispatch := ⟨c.queue, c.pumping, c.generation, c.pumps⟩

/-- The queue of a conversation together with all that is written down. -/
structure Ledger where
  dispatch : Dispatch
  messages : List Message
  journal : List (Nat × Event)

/-- The queue of a conversation and its pumps, its messages and its journal. -/
def ledger (c : Conversation) : Ledger := ⟨c.dispatch, c.messages, c.journal⟩

/-- The queue is worked off by one pump of the present generation, unless it is empty. -/
structure WorkedOff (c : Conversation) : Prop where
  live_length : c.live.length = if c.pumping then 1 else 0
  queue_nil : c.pumping = false → c.queue = []
  generation_le : ∀ p ∈ c.pumps, p.generation ≤ c.generation

variable {c c' : Conversation} {n : Nat} {p : Pump}

theorem WorkedOff.of_dispatch (h : c.WorkedOff) (e : c'.dispatch = c.dispatch) : c'.WorkedOff := by
  obtain ⟨hq, hp, hg, hps⟩ := Dispatch.mk.inj e
  constructor
  · rw [live, hps, hg, hp]
    exact h.live_length
  · rw [hp, hq]
    exact h.queue_nil
  · rw [hps, hg]
    exact h.generation_le

theorem WorkedOff.live_eq_nil (h : c.WorkedOff) (hp : c.pumping = false) : c.live = [] :=
  List.length_eq_zero_iff.mp (by simpa [hp] using h.live_length)

theorem WorkedOff.exists_live (h : c.WorkedOff) (hp : c.pumping = true) : ∃ p, c.live = [p] :=
  List.length_eq_one_iff.mp (by simpa [hp] using h.live_length)

/-! ## Changing the stage of a pump -/

/-- The other pumps stay where they are. -/
theorem exists_pumps_eq (hn : c.pumps[n]? = some p) : ∃ before after,
    c.pumps = before ++ p :: after ∧
      ∀ stage, (c.setStage n stage).pumps = before ++ { p with stage } :: after := by
  obtain ⟨hlt, hp⟩ := List.getElem?_eq_some_iff.mp hn
  refine ⟨c.pumps.take n, c.pumps.drop (n + 1), ?_, fun stage => ?_⟩
  · rw [← hp, List.getElem_cons_drop, List.take_append_drop]
  · rw [setStage, List.modify_eq_take_cons_drop hlt, hp]

/-- A pump that is at work before and after counts as much as before. -/
theorem live_setStage_length {stage : PumpStage} (hn : c.pumps[n]? = some p)
    (hs : (Pump.isLive c.generation { p with stage }) = p.isLive c.generation) :
    (c.setStage n stage).live.length = c.live.length := by
  obtain ⟨before, after, hc, hset⟩ := exists_pumps_eq hn
  have hgen : (c.setStage n stage).generation = c.generation := rfl
  rw [live, live, hset, hgen, hc]
  simp only [List.filter_append, List.filter_cons, hs]
  split <;> simp

/-- When a pump is at work, it is the only one, and its stage is all that changes. -/
theorem WorkedOff.live_setStage (h : c.WorkedOff) (hn : c.pumps[n]? = some p)
    (hp : p.isLive c.generation = true) (stage : PumpStage) : c.live = [p] ∧ c.pumping = true ∧
      (c.setStage n stage).live = [{ p with stage }].filter (Pump.isLive c.generation) := by
  obtain ⟨before, after, hc, hset⟩ := exists_pumps_eq hn
  have hlive : c.live = before.filter (Pump.isLive c.generation)
      ++ p :: after.filter (Pump.isLive c.generation) := by
    rw [live, hc, List.filter_append, List.filter_cons_of_pos hp]
  -- The list of pumps at work has this pump in it and one place at most.
  have hlen := h.live_length
  rw [hlive, List.length_append, List.length_cons] at hlen
  have hpumping : c.pumping = true := by
    by_contra hne
    simp only [hne, if_false] at hlen
    omega
  rw [hpumping, if_pos rfl] at hlen
  have hb : before.filter (Pump.isLive c.generation) = [] :=
    List.length_eq_zero_iff.mp (by omega)
  have ha : after.filter (Pump.isLive c.generation) = [] :=
    List.length_eq_zero_iff.mp (by omega)
  refine ⟨by rw [hlive, hb, ha]; rfl, hpumping, ?_⟩
  have hgen : (c.setStage n stage).generation = c.generation := rfl
  rw [live, hset, hgen, List.filter_append, hb, List.nil_append, ← List.singleton_append,
    List.filter_append, ha, List.append_nil]

/-- No pump changes its generation. -/
theorem exists_generation_eq (hn : c.pumps[n]? = some p) (stage : PumpStage) :
    ∀ q ∈ (c.setStage n stage).pumps, ∃ q' ∈ c.pumps, q.generation = q'.generation := by
  obtain ⟨before, after, hc, hset⟩ := exists_pumps_eq hn
  intro q hq
  rw [hset] at hq
  rw [hc]
  rcases List.mem_append.mp hq with hq | hq
  · exact ⟨q, List.mem_append_left _ hq, rfl⟩
  · rcases List.mem_cons.mp hq with rfl | hq
    · exact ⟨p, List.mem_append_right _ List.mem_cons_self, rfl⟩
    · exact ⟨q, List.mem_append_right _ (List.mem_cons_of_mem _ hq), rfl⟩

theorem WorkedOff.generation_le_setStage (h : c.WorkedOff) (hn : c.pumps[n]? = some p)
    (stage : PumpStage) : ∀ q ∈ (c.setStage n stage).pumps, q.generation ≤ c.generation := by
  intro q hq
  obtain ⟨q', hq', hg⟩ := exists_generation_eq hn stage q hq
  rw [hg]
  exact h.generation_le q' hq'

/-- A pump changes its stage and does not end. -/
theorem WorkedOff.setStage (h : c.WorkedOff) (hn : c.pumps[n]? = some p)
    (hp : p.stage.work?.isSome) (stage : PumpStage) (hs : stage.work?.isSome) :
    (c.setStage n stage).WorkedOff := by
  have hlive : Pump.isLive c.generation { p with stage } = p.isLive c.generation := by
    simp only [Pump.isLive, hp, hs]
  constructor
  · rw [live_setStage_length hn hlive]
    exact h.live_length
  · exact h.queue_nil
  · exact h.generation_le_setStage hn _

/-- A pump of an earlier generation ends; nobody misses it. -/
theorem WorkedOff.setStage_ended (h : c.WorkedOff) (hn : c.pumps[n]? = some p)
    (hg : c.generation ≠ p.generation) : (c.setStage n .ended).WorkedOff := by
  have hold : p.isLive c.generation = false := by simp [Pump.isLive, Ne.symm hg]
  have hnew : Pump.isLive c.generation { p with stage := .ended } = p.isLive c.generation := by
    rw [hold]
    simp [Pump.isLive, PumpStage.work?]
  constructor
  · rw [live_setStage_length hn hnew]
    exact h.live_length
  · exact h.queue_nil
  · exact h.generation_le_setStage hn _

/-! ## Turning to the next item -/

/-- The pump that is at work stops, as nothing is left to do. -/
theorem WorkedOff.stop (h : c.WorkedOff) (hn : c.pumps[n]? = some p)
    (hp : p.isLive c.generation = true) (hq : c.queue = []) :
    ({ c with pumping := false }.setStage n .ended).WorkedOff := by
  obtain ⟨-, -, hlive⟩ := h.live_setStage hn hp .ended
  have hnil : (c.setStage n .ended).live = [] := by
    rw [hlive]
    simp [Pump.isLive, PumpStage.work?]
  constructor
  · show (c.setStage n .ended).live.length = 0
    rw [hnil]
    rfl
  · intro _
    exact hq
  · exact h.generation_le_setStage hn .ended

theorem takeHead?_nil (hq : c.queue = []) : c.takeHead? = none := by
  rw [takeHead?, hq]

theorem takeHead?_cons {i : Item} {rest : List Item} (hq : c.queue = i :: rest) :
    c.takeHead? = some (i.work c.messages.length, { c with queue := rest }.makeRoom i) := by
  rw [takeHead?, hq]

theorem nextItem_of_ne {g : Nat} (hg : c.generation ≠ g) :
    c.nextItem n g = c.setStage n .ended := by
  rw [nextItem, if_pos hg]

theorem nextItem_nil (hq : c.queue = []) :
    c.nextItem n c.generation = { c with pumping := false }.setStage n .ended := by
  simp only [nextItem, ne_eq, not_true_eq_false, if_false, takeHead?_nil hq]

theorem nextItem_cons {i : Item} {rest : List Item} (hq : c.queue = i :: rest) :
    c.nextItem n c.generation = ({ c with queue := rest }.makeRoom i).setStage n
      (.taken (i.work c.messages.length)) := by
  simp only [nextItem, ne_eq, not_true_eq_false, if_false, takeHead?_cons hq]

theorem WorkedOff.nextItem (h : c.WorkedOff) (hn : c.pumps[n]? = some p)
    (hp : p.stage.work?.isSome) : (c.nextItem n p.generation).WorkedOff := by
  by_cases hg : c.generation = p.generation
  · have hlive : p.isLive c.generation = true := by simp [Pump.isLive, hg, hp]
    obtain ⟨-, hpumping, -⟩ := h.live_setStage hn hlive p.stage
    rw [← hg]
    rcases hq : c.queue with _ | ⟨i, rest⟩
    · rw [nextItem_nil hq]
      exact h.stop hn hlive hq
    · rw [nextItem_cons hq]
      have hrest : ({ c with queue := rest }.makeRoom i).WorkedOff :=
        ⟨h.live_length, fun hne => absurd (hpumping.symm.trans hne) (by decide), h.generation_le⟩
      exact hrest.setStage hn hp _ rfl
  · rw [nextItem_of_ne hg]
    exact h.setStage_ended hn hg

/-! ## Putting an item in -/

/-- An item that is put into a queue that is being worked off goes to its end. -/
theorem push_of_pumping (hp : c.pumping = true) (i : Item) :
    c.push i = { c with queue := c.queue ++ [i] } := by
  simp only [push, hp, if_true]

/-- An item that is put into an idle queue goes to a new pump. -/
theorem push_of_idle (hp : c.pumping = false) (hq : c.queue = []) (i : Item) :
    c.push i = ({ c with queue := [], pumping := true }.makeRoom i).startPump
      (i.work c.messages.length) := by
  simp only [push, hp, hq, List.nil_append, Bool.false_eq_true, if_false]
  rw [takeHead?_cons rfl]

theorem WorkedOff.push (h : c.WorkedOff) (i : Item) : (c.push i).WorkedOff := by
  cases hp : c.pumping with
  | true =>
      rw [push_of_pumping hp]
      exact ⟨h.live_length, fun hne => absurd (hp.symm.trans hne) (by decide), h.generation_le⟩
  | false =>
      -- Nobody is at work, so the new pump is the only one.
      rw [push_of_idle hp (h.queue_nil hp)]
      constructor
      · show ((c.pumps ++ [Pump.mk c.generation (.taken _)]).filter
          (Pump.isLive c.generation)).length = 1
        have hnil : c.pumps.filter (Pump.isLive c.generation) = [] := h.live_eq_nil hp
        rw [List.filter_append, hnil]
        simp [Pump.isLive, PumpStage.work?]
      · intro hne
        cases hne
      · intro q hq
        rcases List.mem_append.mp hq with hq | hq
        · exact h.generation_le q hq
        · rw [List.mem_singleton.mp hq]
          exact Nat.le_refl _

/-! ## The steps of a pump -/

theorem WorkedOff.beginWork {w : Work} (h : c.WorkedOff) (hn : c.pumps[n]? = some p)
    (hp : p.stage.work?.isSome) : (c.beginWork n w).WorkedOff := by
  -- Beginning changes the stage of the pump; the rest of it does not concern the queue.
  cases w with
  | message d placeholder =>
      exact WorkedOff.of_dispatch (h.setStage hn hp (.typing d placeholder _) rfl) rfl
  | call ticket job =>
      cases job with
      | openInput =>
          exact WorkedOff.of_dispatch (h.setStage hn hp (.through _ none) rfl) rfl
      | host name duration value =>
          exact WorkedOff.of_dispatch (h.setStage hn hp (.calling ticket _ _) rfl) rfl

theorem WorkedOff.finishTyping {d : Delivery} {placeholder : Nat} (h : c.WorkedOff)
    (hn : c.pumps[n]? = some p) (hp : p.stage.work?.isSome) :
    (c.finishTyping n p.generation d placeholder).WorkedOff := by
  rw [Conversation.finishTyping]
  split
  case isTrue hg => exact h.setStage_ended hn hg
  case isFalse =>
    have hd : (c.deliver d placeholder).WorkedOff := h.of_dispatch rfl
    exact hd.setStage hn hp _ rfl

theorem WorkedOff.stepPump (h : c.WorkedOff) (n : Nat) : (c.stepPump n).WorkedOff := by
  rw [Conversation.stepPump]
  split
  case h_1 g w hn => exact h.beginWork hn rfl
  case h_2 g d placeholder due hn =>
    split
    · exact h.finishTyping hn rfl
    · exact h
  case h_3 g ticket job due hn =>
    split
    · have hs : (c.settle ticket (.answered job.value)).WorkedOff := h.of_dispatch rfl
      exact hs.setStage hn rfl _ rfl
    · exact h
  case h_4 g w news hn =>
    have ht : (c.tell news).dispatch = c.dispatch := by cases news <;> rfl
    have hn' : (c.tell news).pumps[n]? = some ⟨g, .through w news⟩ := by
      rw [show (c.tell news).pumps = c.pumps from congrArg Dispatch.pumps ht]
      exact hn
    exact (h.of_dispatch ht).nextItem hn' rfl
  case h_5 => exact h

/-! ## Clearing -/

/-- The tickets after the functions among some items have been lost. -/
def lostTickets (tickets : List Ticket) (items : List Item) : List Ticket :=
  (items.filterMap Item.ticket?).foldl (fun ts t => ts.modify t (Ticket.settle .lost)) tickets

/-- Losing calls concerns nothing but the tickets and the signals. -/
theorem loseCalls_eq (c : Conversation) (items : List Item) : ∃ signals,
    c.loseCalls items = { c with tickets := lostTickets c.tickets items, signals } := by
  rw [loseCalls]
  induction items generalizing c with
  | nil => exact ⟨c.signals, rfl⟩
  | cons i rest ih =>
      cases i with
      | message d => exact ih c
      | call ticket job =>
          obtain ⟨signals, heq⟩ := ih (c.settle ticket .lost)
          exact ⟨signals, heq⟩

/-- What clearing does, but for the signals. -/
theorem clear_eq (c : Conversation) : ∃ signals, c.clear = { c with
    messages := []
    fixmes := []
    queue := []
    pumping := false
    generation := c.generation + 1
    tickets := lostTickets c.tickets c.queue
    slot := c.slot.cancel
    signals } := by
  obtain ⟨signals, heq⟩ := loseCalls_eq ({ c with
    messages := [], fixmes := [], queue := [], pumping := false,
    generation := c.generation + 1 }) c.queue
  rw [Conversation.clear, heq]
  exact ⟨_, rfl⟩

/-- After clearing nothing is queued, and every pump belongs to an earlier generation. -/
theorem dispatch_clear (c : Conversation) :
    c.clear.dispatch = ⟨[], false, c.generation + 1, c.pumps⟩ := by
  obtain ⟨signals, heq⟩ := clear_eq c
  rw [heq]
  rfl

theorem WorkedOff.clear (h : c.WorkedOff) : c.clear.WorkedOff := by
  obtain ⟨hq, hp, hg, hps⟩ := Dispatch.mk.inj (dispatch_clear c)
  constructor
  · -- The new generation is later than that of any pump.
    have hnil : c.clear.live = [] := by
      rw [live, hps, hg, List.filter_eq_nil_iff]
      intro q hmem
      have := h.generation_le q hmem
      have hne : q.generation ≠ c.generation + 1 := by omega
      simp [Pump.isLive, hne]
    rw [hnil, hp]
    rfl
  · intro _
    exact hq
  · intro q hmem
    rw [hps] at hmem
    rw [hg]
    exact Nat.le_succ_of_le (h.generation_le q hmem)

/-! ## Waits and notices -/

theorem ledger_listen (c : Conversation) (n : Nat) : (c.listen n).ledger = c.ledger := by
  rw [listen]
  split <;> rfl

theorem ledger_stepWait (c : Conversation) (n : Nat) : (c.stepWait n).ledger = c.ledger := by
  rw [stepWait]
  split
  · split
    · exact ledger_listen c n
    · rfl
    · rfl
  · split <;> rfl
  · rfl

theorem ledger_dropWait (c : Conversation) (n : Nat) : (c.dropWait n).ledger = c.ledger := by
  rw [dropWait]
  split <;> rfl

theorem ledger_stepNotice (c : Conversation) (n : Nat) :
    (c.stepNotice n).ledger = c.ledger := by
  rw [stepNotice]
  split
  · rfl
  · split <;> rfl
  · rfl

/-! ## Histories -/

theorem WorkedOff.call (h : c.WorkedOff) (owner : Nat) (job : Job) :
    (c.call owner job).WorkedOff := by
  have ht : ({ c with tickets := c.tickets ++ [⟨owner, .waiting⟩] } : Conversation).WorkedOff :=
    h.of_dispatch rfl
  exact ht.push _

theorem WorkedOff.addLead (h : c.WorkedOff) (lead : Option String) :
    (c.addLead lead).WorkedOff := by
  cases lead with
  | none => exact h
  | some text => exact h.push _

theorem WorkedOff.beginWait (h : c.WorkedOff) (owner : Nat) (enable : Bool) :
    (c.beginWait owner enable).WorkedOff := by
  cases enable with
  | true =>
      have hw : ({ c with waits := c.waits ++ [⟨owner, true, .opening c.tickets.length⟩] } :
          Conversation).WorkedOff := h.of_dispatch rfl
      exact hw.call owner .openInput
  | false => exact h.of_dispatch (congrArg Ledger.dispatch (ledger_listen _ _))

/-- Whatever happens, the queue goes on being worked off by one pump. -/
theorem WorkedOff.perform (h : c.WorkedOff) (op : Operation) : (c.perform op).WorkedOff := by
  cases op with
  | queue p hook => exact h.push _
  | queueFrom text => exact h.push _
  | addOptions lead items selected multi => exact (h.addLead lead).push _
  | addUploader lead options => exact (h.addLead lead).push _
  | call owner job => exact h.call owner job
  | beginWait owner enable => exact h.beginWait owner enable
  | clear => exact h.clear
  | stepPump n => exact h.stepPump n
  | stepNotice n => exact h.of_dispatch (congrArg Ledger.dispatch (ledger_stepNotice c n))
  | stepWait n => exact h.of_dispatch (congrArg Ledger.dispatch (ledger_stepWait c n))
  | dropWait n => exact h.of_dispatch (congrArg Ledger.dispatch (ledger_dropWait c n))
  | dropCall ticket =>
      rw [Conversation.perform]
      split
      · exact h
      · exact h.of_dispatch rfl
  | add | replace | addFrom | report | setSettings | setTimeout | setFixme | setValidator
  | setInput | useFixme | pass => exact h.of_dispatch rfl

theorem WorkedOff.after (h : c.WorkedOff) (history : List Operation) :
    (c.after history).WorkedOff := by
  induction history generalizing c with
  | nil => exact h
  | cons op rest ih => exact ih (h.perform op)

theorem workedOff_start (settings : Settings) (clock : Clock) :
    (start settings clock).WorkedOff :=
  ⟨rfl, fun _ => rfl, fun _ hp => by cases hp⟩

theorem inFlight_eq_nil_iff : c.inFlight = [] ↔ c.live = [] := by
  constructor
  · intro h
    rw [List.eq_nil_iff_forall_not_mem]
    intro p hp
    have hw : p.stage.work?.isSome = true := by
      have := (List.mem_filter.mp hp).2
      simp only [Pump.isLive, Bool.and_eq_true] at this
      exact this.2
    obtain ⟨w, hw⟩ := Option.isSome_iff_exists.mp hw
    have : w ∈ c.inFlight := List.mem_filterMap.mpr ⟨p, hp, hw⟩
    rw [h] at this
    cases this
  · intro h
    rw [inFlight, h]
    rfl

/-- After every history an item only waits in the queue while the queue is being worked off, which
one pump of the present generation does, and no second one; and the conversation is idle just when
no item of the present generation is queued or in the hands of a pump. -/
theorem queue_is_worked_off (settings : Settings) (clock : Clock) (history : List Operation) :
    let c := (start settings clock).after history
    (c.queue ≠ [] → c.pumping = true) ∧
      c.live.length = (if c.pumping then 1 else 0) ∧
      (c.isIdle = true ↔ c.queue = [] ∧ c.inFlight = []) := by
  intro c
  have h : c.WorkedOff := (workedOff_start settings clock).after history
  refine ⟨fun hq => ?_, h.live_length, ?_⟩
  · by_contra hp
    exact hq (h.queue_nil (by simpa using hp))
  · rw [isIdle, Bool.and_eq_true, Bool.not_eq_true', List.isEmpty_iff, inFlight_eq_nil_iff]
    constructor
    · rintro ⟨hp, hq⟩
      exact ⟨hq, h.live_eq_nil hp⟩
    · rintro ⟨hq, hl⟩
      refine ⟨?_, hq⟩
      by_contra hp
      obtain ⟨p, hlive⟩ := h.exists_live (by simpa using hp)
      rw [hl] at hlive
      cases hlive

end Conversation

end Dialogue
