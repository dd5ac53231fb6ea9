import Mathlib.Data.List.Basic
import Dialogue.Proofs.Input.Waits
/-!
# What clearing does to those who wait

`clear` is to interrupt whoever waits for input. It loses the functions in the queue and closes the
receiver that is registered, but it does not reach a wait whose function has left the queue: the
function opens the field, and the wait registers after all.

* `Bound.perform` — a wait that is bound to a result stays bound to it, whatever happens.
* `clear_interrupts_iff` — clearing interrupts just those waits whose functions have not left the
  queue, and so nobody who waited before can register just if there is no such wait.
-/

namespace Dialogue.Conversation

variable {c c' : Conversation} {n t r : Nat} {result : Except RunError Json}

/-! ## Waits that are bound to a result -/

/-- Is the receiver of a wait the one that is registered and waits for a value? -/
def holdsSlot (c : Conversation) (n : Nat) : Bool :=
  match c.waitStage n with
  | .listening r => c.slot.waiter? = some r
  | _ => false

/-- Is a wait in progress for which no value has come? -/
def isUnanswered (c : Conversation) (n : Nat) : Bool :=
  match c.waitStage n with
  | .opening _ => true
  | .listening r =>
    match c.slot.receiver r with
    | .holding _ => false
    | _ => true
  | _ => false

/-- Has the function of a wait left the queue? It was not lost, and a pump has taken it or it has
been called. -/
def isPastQueue (c : Conversation) (n : Nat) : Bool :=
  match c.waitStage n with
  | .opening t =>
    match c.fate t with
    | .lost => false
    | _ => !(c.queue.filterMap Item.ticket?).contains t
  | _ => false

/-- A wait gets the given result and no other, unless the one who waits goes away. -/
inductive Bound (c : Conversation) (n : Nat) : Except RunError Json → Prop where
  | left {result : Except RunError Json} (hs : c.waitStage n = .dropped) : Bound c n result
  | lost {t : Nat} (hs : c.waitStage n = .opening t) (hf : c.fate t = .lost) :
    Bound c n (.error .interrupted)
  | answered {r : Nat} {v : Json} (hs : c.waitStage n = .listening r)
    (hr : c.slot.receiver r = .holding v) : Bound c n (.ok v)
  | closed {r : Nat} (hs : c.waitStage n = .listening r) (hr : c.slot.receiver r = .closed) :
    Bound c n (.error .interrupted)
  | ended {result : Except RunError Json} (hs : c.waitStage n = .ended result) : Bound c n result

/-- The step of a wait that is bound to a result brings that result. -/
theorem Bound.stepWait (h : c.Bound n result) :
    (c.waitStage n = .dropped ∧ c.stepWait n = c) ∨
      (c.stepWait n).waitStage n = .ended result := by
  cases h with
  | left hs =>
      left
      refine ⟨hs, ?_⟩
      simp only [Conversation.stepWait, hs]
  | lost hs hf =>
      right
      have hlt : n < c.waits.length := lt_of_waitStage hs WaitStage.noConfusion
      simp only [Conversation.stepWait, hs, callResult?, hf]
      exact waitStage_setWait_self hlt
  | answered hs hr =>
      right
      have hlt : n < c.waits.length := lt_of_waitStage hs WaitStage.noConfusion
      simp only [Conversation.stepWait, hs, InputSlot.take, hr]
      exact waitStage_setWait_self hlt
  | closed hs hr =>
      right
      have hlt : n < c.waits.length := lt_of_waitStage hs WaitStage.noConfusion
      simp only [Conversation.stepWait, hs, InputSlot.take, hr]
      exact waitStage_setWait_self hlt
  | ended hs =>
      right
      simp only [Conversation.stepWait, hs]

theorem holdsSlot_iff : c.holdsSlot n = true ↔
    ∃ r, c.waitStage n = .listening r ∧ c.slot.waiter? = some r := by
  unfold holdsSlot
  cases hs : c.waitStage n with
  | listening r => simp
  | opening | ended | dropped => simp

/-- A wait that is bound to a result does not hold the slot. -/
theorem Bound.holdsSlot_eq_false (h : c.Bound n result) : c.holdsSlot n = false := by
  rw [Bool.eq_false_iff]
  intro hholds
  obtain ⟨r, hr, hwaiter⟩ := holdsSlot_iff.mp hholds
  have hwaiting := (InputSlot.waiter?_eq_some_iff.mp hwaiter).2
  -- The receiver of such a wait has been settled, if it has one.
  cases h with
  | left hs => exact WaitStage.noConfusion (hs.symm.trans hr)
  | lost hs => exact WaitStage.noConfusion (hs.symm.trans hr)
  | ended hs => exact WaitStage.noConfusion (hs.symm.trans hr)
  | answered hs hv =>
      cases hs.symm.trans hr
      exact Receiver.noConfusion (hv.symm.trans hwaiting)
  | closed hs hv =>
      cases hs.symm.trans hr
      exact Receiver.noConfusion (hv.symm.trans hwaiting)

theorem Bound.of_fared (hb : c.Bound n result) (h : Fared c c' n) : c'.Bound n result := by
  cases h with
  | left hs => exact .left hs
  | stepped hd =>
      have hs : c'.waitStage n = (c.stepWait n).waitStage n :=
        waitStage_of_waits (congrArg Desk.waits hd) n
      rcases hb.stepWait with ⟨h, hstep⟩ | h
      · rw [hstep, h] at hs
        exact .left hs
      · exact .ended (hs.trans h)
  | stayed hs hf hr =>
      -- What a settled fate or receiver says is kept.
      cases hb with
      | left h => exact .left (hs.trans h)
      | lost h hlost =>
          rcases hf _ h with hk | ⟨hw, -⟩
          · exact .lost (hs.trans h) (hk.trans hlost)
          · exact Fate.noConfusion (hlost.symm.trans hw)
      | answered h hv =>
          rcases hr _ h with hk | ⟨hw, -⟩
          · exact .answered (hs.trans h) (hk.trans hv)
          · exact Receiver.noConfusion (hv.symm.trans hw)
      | closed h hv =>
          rcases hr _ h with hk | ⟨hw, -⟩
          · exact .closed (hs.trans h) (hk.trans hv)
          · exact Receiver.noConfusion (hv.symm.trans hw)
      | ended h => exact .ended (hs.trans h)

/-- A wait that is bound to a result stays bound to it, whatever happens. -/
theorem Bound.after (hb : c.Bound n result) (h : c.Attended) (hn : n < c.waits.length)
    (history : List Operation) : (c.after history).Bound n result := by
  induction history generalizing c with
  | nil => exact hb
  | cons op rest ih =>
      have hop : (c.perform op).Bound n result := hb.of_fared (fared_perform h hn op)
      exact ih hop (h.perform op) (Nat.lt_of_lt_of_le hn (length_waits_perform h.worked op))

/-! ## Clearing -/

theorem waitStage_clear (n : Nat) : c.clear.waitStage n = c.waitStage n :=
  waitStage_of_waits (congrArg Desk.waits (desk_clear c)) n

theorem slot_clear : c.clear.slot = c.slot.release .closed :=
  (congrArg Desk.slot (desk_clear c)).trans (InputSlot.cancel_eq c.slot)

/-- Clearing binds a wait to a result unless its function has left the queue; and the result is the
interruption when no value has come. -/
theorem exists_bound_clear (h : c.Attended) (hp : c.isPastQueue n = false) : ∃ result,
    c.clear.Bound n result ∧ (c.isUnanswered n = true → result = .error .interrupted) := by
  cases hs : c.waitStage n with
  | dropped =>
      refine ⟨.error .interrupted, .left ?_, fun _ => rfl⟩
      rw [waitStage_clear, hs]
  | ended result =>
      refine ⟨result, .ended ?_, fun hu => ?_⟩
      · rw [waitStage_clear, hs]
      · rw [isUnanswered, hs] at hu
        cases hu
  | opening t =>
      refine ⟨.error .interrupted, .lost ((waitStage_clear n).trans hs) ?_, fun _ => rfl⟩
      rw [fate_clear]
      by_cases hlost : c.fate t = .lost
      · exact fate_loseCalls_of_settled hlost Fate.noConfusion
      · have hmem : t ∈ c.queue.filterMap Item.ticket? := by
          simpa [isPastQueue, hs, hlost] using hp
        -- A function that still stands in the queue has not got a fate.
        rcases h.carried.fate_of_mem t (List.mem_append_left _ hmem) with hw | hd
        · exact fate_loseCalls_of_mem hmem hw
        · exact absurd hd (h.asking.fate_ne n t hs)
  | listening r =>
      have hstage : c.clear.waitStage n = .listening r := (waitStage_clear n).trans hs
      cases hr : c.slot.receiver r with
      | waiting =>
          have hreg := h.listening.registered n r hs hr
          have hwaiter : c.slot.waiter? = some r := InputSlot.waiter?_eq_some_iff.mpr ⟨hreg, hr⟩
          refine ⟨.error .interrupted, .closed hstage ?_, fun _ => rfl⟩
          rw [slot_clear, InputSlot.receiver_release_self hwaiter]
      | holding v =>
          refine ⟨.ok v, .answered hstage ?_, fun hu => ?_⟩
          · rw [slot_clear]
            exact InputSlot.receiver_release_of_settled hr Receiver.noConfusion
          · rw [isUnanswered, hs] at hu
            simp [hr] at hu
      | closed =>
          refine ⟨.error .interrupted, .closed hstage ?_, fun _ => rfl⟩
          rw [slot_clear]
          exact InputSlot.receiver_release_of_settled hr Receiver.noConfusion
      | dropped => exact absurd hr (h.listening.receiver_ne n r hs)

/-! ## A wait that clearing does not reach -/

/-- A call can get its value with nothing happening to the waits and the slot. -/
def Answerable (c : Conversation) (t : Nat) : Prop :=
  ∃ history v, (c.after history).fate t = .answered v ∧
    (c.after history).waits = c.waits ∧ (c.after history).slot = c.slot

theorem Answerable.now {v : Json} (h : c.fate t = .answered v) : c.Answerable t :=
  ⟨[], v, h, rfl, rfl⟩

theorem Answerable.of_perform (op : Operation) (hc : c.perform op = c') (hw : c'.waits = c.waits)
    (hs : c'.slot = c.slot) (h : c'.Answerable t) : c.Answerable t := by
  obtain ⟨history, v, hv, hwaits, hslot⟩ := h
  subst hc
  exact ⟨op :: history, v, hv, hwaits.trans hw, hslot.trans hs⟩

/-- A function that is being called gives its value in time. -/
theorem answerable_of_calling {m g due : Nat} {job : Job}
    (hm : c.pumps[m]? = some ⟨g, .calling t job due⟩) (hw : c.fate t = .waiting) :
    c.Answerable t := by
  have hdue : due ≤ c.now + due := Nat.le_add_left due c.now
  have hstep : ({ c with now := c.now + due } : Conversation).perform (.stepPump m) =
      ({ c with now := c.now + due } : Conversation).finishCall m t job := by
    show ({ c with now := c.now + due } : Conversation).stepPump m = _
    simp only [stepPump, hm, hdue, if_true]
  have hanswered : (({ c with now := c.now + due } : Conversation).settle t
      (.answered job.value)).fate t = .answered job.value :=
    fate_settle_self (c := { c with now := c.now + due }) hw
  apply Answerable.of_perform (.pass due) rfl rfl rfl
  exact Answerable.of_perform _ hstep rfl rfl (.now hanswered)

theorem getElem?_setStage {m : Nat} {p : Pump} (hm : c.pumps[m]? = some p) (stage : PumpStage) :
    (c.setStage m stage).pumps[m]? = some { p with stage } := by
  show (c.pumps.modify m _)[m]? = _
  rw [List.getElem?_modify_eq, hm]
  rfl

/-- A function that a pump has in its hands gives its value in time. -/
theorem answerable_of_pump {m : Nat} {p : Pump} (hm : c.pumps[m]? = some p)
    (hp : p.stage.ticket? = some t) (hw : c.fate t = .waiting) : c.Answerable t := by
  obtain ⟨g, stage⟩ := p
  cases stage with
  | typing | through | ended => cases hp
  | calling t' job due =>
      cases hp
      exact answerable_of_calling hm hw
  | taken w =>
      cases w with
      | message d placeholder => cases hp
      | call t' job =>
          cases hp
          have hstep : c.perform (.stepPump m) = c.beginWork m (.call t job) := by
            show c.stepPump m = _
            simp only [stepPump, hm]
          cases job with
          | openInput =>
              have hanswered : (c.settle t (.answered .null)).fate t = .answered .null :=
                fate_settle_self hw
              exact .of_perform _ hstep rfl rfl (.now hanswered)
          | host name duration value =>
              have hm' : ∃ due, (c.beginWork m (.call t (.host name duration value))).pumps[m]? =
                  some ⟨g, .calling t (.host name duration value) due⟩ :=
                ⟨_, getElem?_setStage (c := c.record (.called name)) hm _⟩
              obtain ⟨due, hm'⟩ := hm'
              exact .of_perform _ hstep rfl rfl (answerable_of_calling hm' hw)

theorem answerable_clear (h : c.Attended) (hs : c.waitStage n = .opening t)
    (hp : c.isPastQueue n = true) : c.clear.Answerable t := by
  have hlost : c.fate t ≠ .lost := by
    intro hf
    rw [isPastQueue, hs] at hp
    simp [hf] at hp
  have hnot : t ∉ c.queue.filterMap Item.ticket? := by
    rw [isPastQueue, hs] at hp
    cases hf : c.fate t <;> simp_all
  have hfate : c.clear.fate t = c.fate t := by
    rw [fate_clear, fate_loseCalls_of_notMem hnot]
  cases hf : c.fate t with
  | answered v => exact .now (hfate.trans hf)
  | lost => exact absurd hf hlost
  | dropped => exact absurd hf (h.asking.fate_ne n t hs)
  | waiting =>
      -- An open call that has left the queue is in the hands of a pump.
      have hmem := (List.mem_append.mp (h.carried.mem_of_waiting t hf)).resolve_left hnot
      obtain ⟨p, hmem, hp⟩ := List.mem_filterMap.mp hmem
      obtain ⟨m, hm⟩ := List.mem_iff_getElem?.mp hmem
      have hpumps : c.clear.pumps = c.pumps := congrArg Dispatch.pumps (dispatch_clear c)
      exact answerable_of_pump (hpumps ▸ hm) hp (hfate.trans hf)

/-- A wait that gets the value of its function registers if nobody else waits. -/
theorem holdsSlot_stepWait {v : Json} (hs : c.waitStage n = .opening t)
    (hf : c.fate t = .answered v) (hfree : c.slot.waiter? = none) :
    (c.stepWait n).holdsSlot n = true := by
  have hlt : n < c.waits.length := lt_of_waitStage hs WaitStage.noConfusion
  have hidle : c.isAwaiting = false := by
    rw [isAwaiting, InputSlot.isPending, hfree]
    rfl
  have hstep : c.stepWait n = c.listen n := by
    simp only [stepWait, hs, callResult?, hf]
  rw [hstep, listen_of_free hidle, holdsSlot_iff]
  exact ⟨c.slot.receivers.length, waitStage_setWait_self hlt, InputSlot.waiter?_opened⟩

/-- A wait whose function has left the queue can register after clearing. -/
theorem exists_holdsSlot_of_isPastQueue (h : c.Attended) (hp : c.isPastQueue n = true) :
    ∃ later, (c.clear.after later).holdsSlot n = true := by
  cases hs : c.waitStage n with
  | listening | ended | dropped =>
      rw [isPastQueue, hs] at hp
      cases hp
  | opening t =>
      obtain ⟨history, v, hf, hwaits, hslot⟩ := answerable_clear h hs hp
      refine ⟨history ++ [.stepWait n], ?_⟩
      have hsplit : c.clear.after (history ++ [.stepWait n]) =
          (c.clear.after history).stepWait n := List.foldl_append
      rw [hsplit]
      refine holdsSlot_stepWait (t := t) ?_ hf ?_
      · rw [waitStage_of_waits hwaits, waitStage_clear, hs]
      · rw [hslot, slot_clear, InputSlot.waiter?_release]

/-- Whoever is waiting after a history is one of the waits. -/
theorem exists_holdsSlot (h : c.Attended) (ha : c.isAwaiting = true) :
    ∃ n, c.holdsSlot n = true := by
  obtain ⟨r, hr⟩ := Option.isSome_iff_exists.mp ha
  obtain ⟨n, hn⟩ := h.listening.exists_wait r hr
  exact ⟨n, holdsSlot_iff.mpr ⟨r, hn, hr⟩⟩

theorem isAwaiting_of_holdsSlot (h : c.holdsSlot n = true) : c.isAwaiting = true := by
  obtain ⟨r, -, hr⟩ := holdsSlot_iff.mp h
  rw [isAwaiting, InputSlot.isPending, hr]
  rfl

/-- No two waits hold the slot. -/
theorem holdsSlot_inj {m : Nat} (h : c.Attended) (hm : c.holdsSlot m = true)
    (hn : c.holdsSlot n = true) : m = n := by
  obtain ⟨r, hr, hwaiter⟩ := holdsSlot_iff.mp hm
  obtain ⟨r', hr', hwaiter'⟩ := holdsSlot_iff.mp hn
  cases hwaiter.symm.trans hwaiter'
  exact h.listening.inj m n r hr hr'

theorem lt_of_isPastQueue (hp : c.isPastQueue n = true) : n < c.waits.length := by
  apply lt_of_waitStage rfl
  intro hs
  rw [isPastQueue, hs] at hp
  cases hp

/-- Clearing interrupts those waits without a value whose functions have not left the queue, and no
others. So nobody who waited before registers afterwards just if there is no wait of the other
kind. -/
theorem clear_interrupts_iff (settings : Settings) (clock : Clock) (history : List Operation) :
    let c := (start settings clock).after history
    (∀ n, c.isUnanswered n = true →
      ((∀ later, (c.clear.after later).holdsSlot n = false ∧
        ((c.clear.after later).waitStage n = .dropped ∨
          ((c.clear.after later).stepWait n).waitResult? n = some (.error .interrupted))) ↔
        c.isPastQueue n = false)) ∧
    ((∀ later, (c.clear.after later).isAwaiting = true →
        ∃ n, c.waits.length ≤ n ∧ (c.clear.after later).holdsSlot n = true) ↔
      ∀ n, c.isPastQueue n = false) := by
  intro c
  have h : c.Attended := (attended_start settings clock).after history
  constructor
  · intro n hu
    have hlt : n < c.waits.length := by
      apply lt_of_waitStage rfl
      intro hs
      rw [isUnanswered, hs] at hu
      cases hu
    constructor
    · -- A wait past the queue would register at some time.
      intro hall
      by_contra hp
      obtain ⟨later, hholds⟩ := exists_holdsSlot_of_isPastQueue h (by simpa using hp)
      rw [(hall later).1] at hholds
      cases hholds
    · intro hp later
      obtain ⟨result, hb, hresult⟩ := exists_bound_clear h hp
      rw [hresult hu] at hb
      have hlt' : n < c.clear.waits.length :=
        Nat.lt_of_lt_of_le hlt (length_waits_perform h.worked .clear)
      have hb := hb.after (h.perform .clear) hlt' later
      refine ⟨hb.holdsSlot_eq_false, ?_⟩
      rcases hb.stepWait with ⟨hs, -⟩ | hs
      · exact .inl hs
      · right
        rw [waitResult?, hs]
  · constructor
    · intro hall n
      by_contra hp
      have hp : c.isPastQueue n = true := by simpa using hp
      obtain ⟨later, hholds⟩ := exists_holdsSlot_of_isPastQueue h hp
      obtain ⟨m, hm, hholds'⟩ := hall later (isAwaiting_of_holdsSlot hholds)
      have := holdsSlot_inj ((h.perform .clear).after later) hholds' hholds
      have := lt_of_isPastQueue hp
      omega
    · -- Whoever is waiting is not bound to a result, so the wait began after clearing.
      intro hall later ha
      obtain ⟨n, hn⟩ := exists_holdsSlot ((h.perform .clear).after later) ha
      refine ⟨n, ?_, hn⟩
      by_contra hlt
      obtain ⟨result, hb, -⟩ := exists_bound_clear h (hall n)
      have hlt' : n < c.clear.waits.length :=
        Nat.lt_of_lt_of_le (by omega) (length_waits_perform h.worked .clear)
      have hfree := (hb.after (h.perform .clear) hlt' later).holdsSlot_eq_false
      exact absurd (hfree.symm.trans hn) (by decide)

/-- A wait whose function stands in the queue behind a message is interrupted. -/
theorem clear_interrupts_behind_message :
    let c := (start .standard .stepped).after [.queue (.to "hello") none, .beginWait 0 true]
    c.isUnanswered 0 = true ∧
      ∀ later, (c.clear.after later).holdsSlot 0 = false ∧
        ((c.clear.after later).waitStage 0 = .dropped ∨
          ((c.clear.after later).stepWait 0).waitResult? 0 = some (.error .interrupted)) :=
  ⟨rfl, ((clear_interrupts_iff .standard .stepped
    [.queue (.to "hello") none, .beginWait 0 true]).1 0 rfl).2 rfl⟩

/-- A wait whose function was called just before clearing registers afterwards, and a value that is
reported later goes to it. -/
theorem clear_misses_wait_past_queue :
    let c := (start .standard .stepped).after [.beginWait 0 true, .stepPump 0]
    c.isUnanswered 0 = true ∧ c.waits.length = 1 ∧
      (c.clear.after [.stepWait 0]).isAwaiting = true ∧
      (c.clear.after [.stepWait 0, .report (.string "late"), .stepWait 0]).waitResult? 0 =
        some (.ok (.string "late")) :=
  ⟨rfl, rfl, rfl, rfl⟩

end Dialogue.Conversation
