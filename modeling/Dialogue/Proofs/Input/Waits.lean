import Mathlib.Data.List.Basic
import Dialogue.Proofs.Input.Tickets
/-!
# Waits and the input slot

A wait first holds the ticket of the function that opens the input field, and then a receiver of the
input slot. `Attended` says that no two waits share either of them, that nobody takes them away, and
that the receiver which is registered belongs to a wait.

* `perform_desk_cases` — the few things that can happen to tickets, waits and the slot.
* `Attended.perform` — every operation keeps this.
* `fared_perform` — what an operation can do to one wait: it steps or drops that very wait, or
  leaves it alone, and then a fate and a receiver that are settled stay as they are.
-/

namespace Dialogue

/-- The value that an operation reports to whoever waits. -/
def Operation.value? : Operation → Option Json
  | .report v => some v
  | .addFrom text => some (.string text)
  | _ => none

/-! ## The input slot -/

namespace InputSlot

variable {s : InputSlot} {n r : Nat} {x : Receiver}

theorem receiver_of_le (h : s.receivers.length ≤ r) : s.receiver r = .dropped := by
  rw [receiver, List.getElem?_eq_none h]
  rfl

theorem lt_of_receiver (h : s.receiver r ≠ .dropped) : r < s.receivers.length := by
  by_contra hge
  exact h (receiver_of_le (Nat.le_of_not_lt hge))

theorem isWaiting_iff : x.isWaiting = true ↔ x = .waiting := by
  cases x <;> simp [Receiver.isWaiting]

theorem waiter?_eq_some_iff :
    s.waiter? = some r ↔ s.registered = some r ∧ s.receiver r = .waiting := by
  rw [waiter?, Option.filter_eq_some_iff, isWaiting_iff]

theorem receiver_setReceiver_of_ne (h : r ≠ n) :
    (s.setReceiver n x).receiver r = s.receiver r := by
  rw [receiver, receiver, setReceiver, List.getElem?_set_ne (Ne.symm h)]

theorem receiver_setReceiver_self (h : n < s.receivers.length) :
    (s.setReceiver n x).receiver n = x := by
  rw [receiver, setReceiver, List.getElem?_set_self h]
  rfl

/-- A receiver comes to the state that it is given, if it is there. -/
theorem receiver_setReceiver_cases (s : InputSlot) (n : Nat) (x : Receiver) :
    (s.setReceiver n x).receiver n = x ∨ (s.setReceiver n x).receiver n = .dropped := by
  by_cases hlt : n < s.receivers.length
  · exact .inl (receiver_setReceiver_self hlt)
  · right
    apply receiver_of_le
    rw [setReceiver, List.length_set]
    omega

/-- The receiver that is registered gets its last state, and no other takes its place. -/
def release (s : InputSlot) (x : Receiver) : InputSlot :=
  match s.waiter? with
  | some n => { s.setReceiver n x with registered := none }
  | none => { s with registered := none }

theorem report_eq (s : InputSlot) (v : Json) : s.report v = s.release (.holding v) := by
  rw [report, report?, release]
  cases s.waiter? <;> rfl

theorem cancel_eq (s : InputSlot) : s.cancel = s.release .closed := rfl

theorem receiver_release_self (h : s.waiter? = some r) : (s.release x).receiver r = x := by
  have hw := (waiter?_eq_some_iff.mp h).2
  have hlt : r < s.receivers.length := by
    apply lt_of_receiver
    rw [hw]
    exact Receiver.noConfusion
  rw [release, h]
  exact receiver_setReceiver_self hlt

theorem receiver_release_of_ne (h : s.waiter? ≠ some r) :
    (s.release x).receiver r = s.receiver r := by
  rw [release]
  split
  case h_1 n hn =>
    refine receiver_setReceiver_of_ne fun he => h ?_
    rw [hn, he]
  case h_2 => rfl

/-- A receiver that does not wait is not concerned. -/
theorem receiver_release_of_settled {y : Receiver} (h : s.receiver r = y) (hy : y ≠ .waiting) :
    (s.release x).receiver r = y := by
  rw [← h]
  refine receiver_release_of_ne fun hw => hy ?_
  rw [← h]
  exact (waiter?_eq_some_iff.mp hw).2

theorem waiter?_release : (s.release x).waiter? = none := by
  rw [release]
  split <;> rfl

/-- The slot after a new receiver was registered. -/
def opened (s : InputSlot) : InputSlot := ⟨s.receivers ++ [.waiting], some s.receivers.length⟩

theorem receiver_opened_self : s.opened.receiver s.receivers.length = .waiting := by
  rw [receiver, opened, List.getElem?_concat_length]
  rfl

theorem receiver_opened_of_lt (h : r < s.receivers.length) :
    s.opened.receiver r = s.receiver r := by
  rw [receiver, receiver, opened, List.getElem?_append_left h]

theorem length_receivers_opened : s.opened.receivers.length = s.receivers.length + 1 :=
  List.length_append

theorem receiver_opened_of_ne (h : r ≠ s.receivers.length) :
    s.opened.receiver r = s.receiver r := by
  by_cases hlt : r < s.receivers.length
  · exact receiver_opened_of_lt hlt
  · have hle : s.opened.receivers.length ≤ r := by
      rw [length_receivers_opened]
      omega
    rw [receiver_of_le hle, receiver_of_le (Nat.le_of_not_lt hlt)]

theorem waiter?_opened : s.opened.waiter? = some s.receivers.length :=
  waiter?_eq_some_iff.mpr ⟨rfl, receiver_opened_self⟩

end InputSlot

namespace Conversation

variable {c c' : Conversation} {m n t r : Nat} {stage s : WaitStage}

/-! ## The stages of waits -/

theorem lt_of_waitStage (h : c.waitStage n = s) (hs : s ≠ .dropped) : n < c.waits.length := by
  by_contra hge
  rw [waitStage, List.getElem?_eq_none (by omega)] at h
  exact hs h.symm

theorem waitStage_of_waits (h : c'.waits = c.waits) (n : Nat) :
    c'.waitStage n = c.waitStage n := by
  rw [waitStage, waitStage, h]

theorem waitStage_append_of_lt {ws : List Wait} (h : c'.waits = c.waits ++ ws)
    (hn : n < c.waits.length) : c'.waitStage n = c.waitStage n := by
  rw [waitStage, waitStage, h, List.getElem?_append_left hn]

theorem waitStage_append_self {w : Wait} (h : c'.waits = c.waits ++ [w]) :
    c'.waitStage c.waits.length = w.stage := by
  rw [waitStage, h, List.getElem?_concat_length]
  rfl

theorem waitStage_setWait_self (hn : n < c.waits.length) :
    (c.setWait n stage).waitStage n = stage := by
  show (((c.waits.modify n _)[n]?).map Wait.stage).getD _ = _
  rw [List.getElem?_modify_eq, List.getElem?_eq_getElem hn]
  rfl

theorem waitStage_setWait_of_ne (h : m ≠ n) :
    (c.setWait n stage).waitStage m = c.waitStage m := by
  show (((c.waits.modify n _)[m]?).map Wait.stage).getD _ = _
  rw [List.getElem?_modify_ne _ _ (Ne.symm h)]
  rfl

/-- A wait that is at some stage after one was changed is the one that was changed, or it was at
that stage before. -/
theorem setWait_cases (h : (c.setWait n stage).waitStage m = s) (hs : s ≠ .dropped) :
    (m = n ∧ stage = s) ∨ (m ≠ n ∧ c.waitStage m = s) := by
  by_cases he : m = n
  · subst he
    have hlt : m < c.waits.length := by
      have := lt_of_waitStage h hs
      rwa [show (c.setWait m stage).waits = c.waits.modify m _ from rfl,
        List.length_modify] at this
    rw [waitStage_setWait_self hlt] at h
    exact .inl ⟨rfl, h⟩
  · rw [waitStage_setWait_of_ne he] at h
    exact .inr ⟨he, h⟩

/-- A wait that is at some stage after one was added is the new one, or it was at that stage
before. -/
theorem append_cases {w : Wait} (hw : c'.waits = c.waits ++ [w]) (h : c'.waitStage m = s)
    (hs : s ≠ .dropped) : (m = c.waits.length ∧ w.stage = s) ∨ c.waitStage m = s := by
  by_cases hlt : m < c.waits.length
  · rw [waitStage_append_of_lt hw hlt] at h
    exact .inr h
  · have hm := lt_of_waitStage h hs
    rw [hw, List.length_append, List.length_singleton] at hm
    have he : m = c.waits.length := by omega
    subst he
    rw [waitStage_append_self hw] at h
    exact .inl ⟨rfl, h⟩

theorem listen_of_free (h : c.isAwaiting = false) (n : Nat) :
    c.listen n = { c with slot := c.slot.opened }.setWait n
      (.listening c.slot.receivers.length) := by
  have hp : c.slot.isPending = false := h
  simp only [listen, InputSlot.register, hp, Bool.false_eq_true, if_false]
  rfl

theorem listen_of_awaiting (h : c.isAwaiting = true) (n : Nat) :
    c.listen n = c.setWait n (.ended (.error .inputAlreadyPending)) := by
  have hp : c.slot.isPending = true := h
  simp only [listen, InputSlot.register, hp, if_true]

/-- What one step of a wait can be. -/
inductive WaitStep (c : Conversation) (n : Nat) : Conversation → Prop where
  | stay : WaitStep c n c
  | listen {t : Nat} {v : Json} (hs : c.waitStage n = .opening t) (hf : c.fate t = .answered v) :
    WaitStep c n (c.listen n)
  | lose {t : Nat} (hs : c.waitStage n = .opening t) (hf : c.fate t = .lost) :
    WaitStep c n (c.setWait n (.ended (.error .interrupted)))
  | receive {r : Nat} {v : Json} (hs : c.waitStage n = .listening r)
    (hr : c.slot.receiver r = .holding v) :
    WaitStep c n ({ c with
      slot := c.slot.setReceiver r .closed
      input := { c.input with enabled := false } }.setWait n (.ended (.ok v)))
  | miss {r : Nat} (hs : c.waitStage n = .listening r)
    (hr : c.slot.receiver r = .closed ∨ c.slot.receiver r = .dropped) :
    WaitStep c n (c.setWait n (.ended (.error .interrupted)))

theorem waitStep_stepWait (c : Conversation) (n : Nat) : WaitStep c n (c.stepWait n) := by
  rw [stepWait]
  split
  case h_1 t hs =>
    rw [callResult?]
    cases hf : c.fate t with
    | waiting => exact .stay
    | answered v => exact .listen hs hf
    | lost => exact .lose hs hf
    | dropped => exact .stay
  case h_2 r hs =>
    rw [InputSlot.take]
    cases hr : c.slot.receiver r with
    | waiting => exact .stay
    | holding v => exact .receive hs hr
    | closed => exact .miss hs (.inl hr)
    | dropped => exact .miss hs (.inr hr)
  case h_3 => exact .stay

/-! ## Nothing is shared and nothing is taken away -/

/-- Each wait that holds a ticket has one of its own, which is not forgotten. -/
structure Asking (c : Conversation) : Prop where
  fate_ne : ∀ n t, c.waitStage n = .opening t → c.fate t ≠ .dropped
  inj : ∀ m n t, c.waitStage m = .opening t → c.waitStage n = .opening t → m = n

/-- Each wait that listens to a receiver has one of its own, which it has not left; a receiver that
still waits is registered, and it is one of these. -/
structure Listening (c : Conversation) : Prop where
  receiver_ne : ∀ n r, c.waitStage n = .listening r → c.slot.receiver r ≠ .dropped
  inj : ∀ m n r, c.waitStage m = .listening r → c.waitStage n = .listening r → m = n
  registered : ∀ n r, c.waitStage n = .listening r → c.slot.receiver r = .waiting →
    c.slot.registered = some r
  exists_wait : ∀ r, c.slot.waiter? = some r → ∃ n, c.waitStage n = .listening r

theorem Asking.of_desk (h : c.Asking) (e : c'.desk = c.desk) : c'.Asking := by
  obtain ⟨ht, hw, -⟩ := Desk.mk.inj e
  constructor
  · intro n t hn
    rw [fate_of_tickets ht]
    exact h.fate_ne n t (waitStage_of_waits hw n ▸ hn)
  · intro m n t hm hn
    rw [waitStage_of_waits hw] at hm hn
    exact h.inj m n t hm hn

/-- No wait holds a ticket that it did not hold, and no ticket that is held is forgotten. -/
theorem Asking.mono (h : c.Asking)
    (hs : ∀ n t, c'.waitStage n = .opening t → c.waitStage n = .opening t)
    (hf : ∀ n t, c'.waitStage n = .opening t → c.fate t ≠ .dropped → c'.fate t ≠ .dropped) :
    c'.Asking where
  fate_ne n t hn := hf n t hn (h.fate_ne n t (hs n t hn))
  inj m n t hm hn := h.inj m n t (hs m t hm) (hs n t hn)

/-- A wait that comes to another stage does not hold a ticket any more. -/
theorem Asking.setWait (h : c.Asking) (hw : c'.waits = (c.setWait n stage).waits)
    (hstage : ∀ t, stage ≠ .opening t) (ht : c'.tickets = c.tickets) : c'.Asking := by
  have hs : ∀ m t, c'.waitStage m = .opening t → c.waitStage m = .opening t := by
    intro m t hm
    rw [waitStage_of_waits hw] at hm
    rcases setWait_cases hm WaitStage.noConfusion with ⟨-, he⟩ | ⟨-, hm⟩
    · exact absurd he (hstage t)
    · exact hm
  refine h.mono hs fun m t _ hf => ?_
  rw [fate_of_tickets ht]
  exact hf

theorem Listening.of_slot (h : c.Listening) (hw : c'.waits = c.waits) (hs : c'.slot = c.slot) :
    c'.Listening := by
  constructor
  · intro n r hn
    rw [hs]
    exact h.receiver_ne n r (waitStage_of_waits hw n ▸ hn)
  · intro m n r hm hn
    rw [waitStage_of_waits hw] at hm hn
    exact h.inj m n r hm hn
  · intro n r hn hr
    rw [hs] at hr ⊢
    exact h.registered n r (waitStage_of_waits hw n ▸ hn) hr
  · intro r hr
    rw [hs] at hr
    obtain ⟨n, hn⟩ := h.exists_wait r hr
    exact ⟨n, by rw [waitStage_of_waits hw, hn]⟩

theorem Listening.receiver_lt (h : c.Listening) (hn : c.waitStage n = .listening r) :
    r < c.slot.receivers.length :=
  InputSlot.lt_of_receiver (h.receiver_ne n r hn)

/-- The receiver that is registered is answered or closed. -/
theorem Listening.release {x : Receiver} (h : c.Listening) (hw : c'.waits = c.waits)
    (hs : c'.slot = c.slot.release x) (hx : x ≠ .waiting) (hx' : x ≠ .dropped) :
    c'.Listening := by
  constructor
  · intro n r hn
    rw [waitStage_of_waits hw] at hn
    rw [hs]
    by_cases hr : c.slot.waiter? = some r
    · rw [InputSlot.receiver_release_self hr]
      exact hx'
    · rw [InputSlot.receiver_release_of_ne hr]
      exact h.receiver_ne n r hn
  · intro m n r hm hn
    rw [waitStage_of_waits hw] at hm hn
    exact h.inj m n r hm hn
  · intro n r hn hwaiting
    rw [waitStage_of_waits hw] at hn
    rw [hs] at hwaiting
    by_cases hr : c.slot.waiter? = some r
    · rw [InputSlot.receiver_release_self hr] at hwaiting
      exact absurd hwaiting hx
    · -- A receiver that still waits would have been the one that is registered.
      rw [InputSlot.receiver_release_of_ne hr] at hwaiting
      have hreg := h.registered n r hn hwaiting
      exact absurd (InputSlot.waiter?_eq_some_iff.mpr ⟨hreg, hwaiting⟩) hr
  · intro r hr
    rw [hs, InputSlot.waiter?_release] at hr
    cases hr

/-- A wait ends that has no receiver yet. -/
theorem Listening.turnAway (h : c.Listening) (hn : ∀ r, c.waitStage n ≠ .listening r)
    (hw : c'.waits = (c.setWait n stage).waits) (hstage : ∀ r, stage ≠ .listening r)
    (hslot : c'.slot = c.slot) : c'.Listening := by
  have hs : ∀ m r, c'.waitStage m = .listening r ↔ c.waitStage m = .listening r := by
    intro m r
    rw [waitStage_of_waits hw]
    constructor
    · intro hm
      rcases setWait_cases hm WaitStage.noConfusion with ⟨-, he⟩ | ⟨-, hm⟩
      · exact absurd he (hstage r)
      · exact hm
    · intro hm
      have hne : m ≠ n := fun he => hn r (he ▸ hm)
      rw [waitStage_setWait_of_ne hne, hm]
  constructor
  · intro m r hm
    rw [hslot]
    exact h.receiver_ne m r ((hs m r).mp hm)
  · intro m m' r hm hm'
    exact h.inj m m' r ((hs m r).mp hm) ((hs m' r).mp hm')
  · intro m r hm hr
    rw [hslot] at hr ⊢
    exact h.registered m r ((hs m r).mp hm) hr
  · intro r hr
    rw [hslot] at hr
    obtain ⟨m, hm⟩ := h.exists_wait r hr
    exact ⟨m, (hs m r).mpr hm⟩

/-- A wait that has no receiver yet gets one if nobody else waits. -/
theorem Listening.listen (h : c.Listening) (hn : n < c.waits.length)
    (hstage : ∀ r, c.waitStage n ≠ .listening r) : (c.listen n).Listening := by
  cases ha : c.isAwaiting with
  | true =>
      rw [listen_of_awaiting ha]
      exact h.turnAway hstage rfl (fun _ => WaitStage.noConfusion) rfl
  | false =>
      rw [listen_of_free ha]
      -- The new receiver stands behind all that are listened to.
      have hcases : ∀ m r, (({ c with slot := c.slot.opened } : Conversation).setWait n
          (.listening c.slot.receivers.length)).waitStage m = .listening r →
          (m = n ∧ r = c.slot.receivers.length) ∨
            (c.waitStage m = .listening r ∧ r < c.slot.receivers.length) := by
        intro m r hm
        rcases setWait_cases hm WaitStage.noConfusion with ⟨hmn, he⟩ | ⟨-, hm⟩
        · cases he
          exact .inl ⟨hmn, rfl⟩
        · exact .inr ⟨hm, h.receiver_lt hm⟩
      constructor
      · intro m r hm
        show c.slot.opened.receiver r ≠ _
        rcases hcases m r hm with ⟨-, rfl⟩ | ⟨hm, hlt⟩
        · rw [InputSlot.receiver_opened_self]
          exact Receiver.noConfusion
        · rw [InputSlot.receiver_opened_of_lt hlt]
          exact h.receiver_ne m r hm
      · intro m m' r hm hm'
        rcases hcases m r hm with ⟨rfl, rfl⟩ | ⟨hm, hlt⟩
        · rcases hcases m' _ hm' with ⟨rfl, -⟩ | ⟨-, hlt⟩
          · rfl
          · omega
        · rcases hcases m' r hm' with ⟨-, rfl⟩ | ⟨hm', -⟩
          · omega
          · exact h.inj m m' r hm hm'
      · intro m r hm hr
        rcases hcases m r hm with ⟨-, rfl⟩ | ⟨hm, hlt⟩
        · rfl
        · have hr : c.slot.opened.receiver r = .waiting := hr
          rw [InputSlot.receiver_opened_of_lt hlt] at hr
          have hreg := h.registered m r hm hr
          have hp : c.slot.waiter? = some r := InputSlot.waiter?_eq_some_iff.mpr ⟨hreg, hr⟩
          rw [isAwaiting, InputSlot.isPending, hp] at ha
          cases ha
      · intro r hr
        have hr : c.slot.opened.waiter? = some r := hr
        rw [InputSlot.waiter?_opened] at hr
        cases hr
        exact ⟨n, waitStage_setWait_self hn⟩

/-- A wait ends that listens to a receiver on which nothing can come any more. -/
theorem Listening.leave (h : c.Listening) (hn : c.waitStage n = .listening r)
    (hw : c'.waits = (c.setWait n stage).waits) (hstage : ∀ r, stage ≠ .listening r)
    (hreg : c'.slot.registered = c.slot.registered) (hr : c'.slot.receiver r ≠ .waiting)
    (hne : ∀ r', r' ≠ r → c'.slot.receiver r' = c.slot.receiver r') : c'.Listening := by
  -- Nobody else listens to the receiver that is left.
  have hs : ∀ m r', c'.waitStage m = .listening r' → c.waitStage m = .listening r' ∧ r' ≠ r := by
    intro m r' hm
    rw [waitStage_of_waits hw] at hm
    rcases setWait_cases hm WaitStage.noConfusion with ⟨-, he⟩ | ⟨hmn, hm⟩
    · exact absurd he (hstage r')
    · refine ⟨hm, fun he => hmn ?_⟩
      exact h.inj m n r (he ▸ hm) hn
  constructor
  · intro m r' hm
    obtain ⟨hm, hr'⟩ := hs m r' hm
    rw [hne r' hr']
    exact h.receiver_ne m r' hm
  · intro m m' r' hm hm'
    exact h.inj m m' r' (hs m r' hm).1 (hs m' r' hm').1
  · intro m r' hm hw'
    obtain ⟨hm, hr'⟩ := hs m r' hm
    rw [hne r' hr'] at hw'
    rw [hreg]
    exact h.registered m r' hm hw'
  · intro r' hr'
    obtain ⟨hreg', hw'⟩ := InputSlot.waiter?_eq_some_iff.mp hr'
    have he : r' ≠ r := fun he => hr (he ▸ hw')
    rw [hne r' he] at hw'
    rw [hreg] at hreg'
    obtain ⟨m, hm⟩ := h.exists_wait r' (InputSlot.waiter?_eq_some_iff.mpr ⟨hreg', hw'⟩)
    have hmn : m ≠ n := by
      intro hmn
      rw [hmn, hn] at hm
      cases hm
      exact he rfl
    exact ⟨m, by rw [waitStage_of_waits hw, waitStage_setWait_of_ne hmn, hm]⟩

/-! ## What an operation does to tickets, waits and the slot -/

/-- A pump settles a call or leaves the tickets, the waits and the slot alone. -/
theorem desk_stepPump (c : Conversation) (n : Nat) : (c.stepPump n).desk = c.desk ∨
    ∃ t v, (c.stepPump n).desk = (c.settle t (.answered v)).desk := by
  unfold stepPump
  split
  case h_1 g w hn =>
    cases w with
    | message d placeholder => exact .inl rfl
    | call ticket job =>
        cases job with
        | openInput => exact .inr ⟨ticket, .null, rfl⟩
        | host name duration value => exact .inl rfl
  case h_2 g d placeholder due hn =>
    split
    · unfold finishTyping
      split <;> exact .inl rfl
    · exact .inl rfl
  case h_3 g ticket job due hn =>
    split
    · exact .inr ⟨ticket, job.value, rfl⟩
    · exact .inl rfl
  case h_4 g w news hn =>
    refine .inl ((desk_nextItem _ n g).trans ?_)
    cases news <;> rfl
  case h_5 => exact .inl rfl

theorem waitStage_ne_of_heldByWait (h : c.heldByWait t = false) (n : Nat) :
    c.waitStage n ≠ .opening t := by
  intro hn
  have hlt : n < c.waits.length := lt_of_waitStage hn WaitStage.noConfusion
  rw [waitStage, List.getElem?_eq_getElem hlt] at hn
  unfold heldByWait at h
  have := List.any_eq_false.mp h _ (List.getElem_mem hlt)
  rw [show c.waits[n].stage = .opening t from hn] at this
  simp at this

/-- A wait that opens the field begins by sending its function through the queue. -/
theorem desk_beginWait (hw : c.WorkedOff) (owner : Nat) : (c.beginWait owner true).desk = ({ c with
    tickets := c.tickets ++ [⟨owner, .waiting⟩]
    waits := c.waits ++ [⟨owner, true, .opening c.tickets.length⟩] } : Conversation).desk := by
  have hasked : ({ c with
      tickets := c.tickets ++ [⟨owner, .waiting⟩]
      waits := c.waits ++ [⟨owner, true, .opening c.tickets.length⟩] } :
      Conversation).WorkedOff := hw.of_dispatch rfl
  exact desk_push hasked _

/-- To show something of a conversation after an operation that depends on the tickets, the waits
and the slot only, it is enough to look at the few things that can happen to these. -/
theorem perform_desk_cases {P : Conversation → Prop} (hw : c.WorkedOff) (op : Operation)
    (frame : ∀ a b : Conversation, a.desk = b.desk → P b → P a)
    (stay : P c)
    (call : ∀ owner, P { c with tickets := c.tickets ++ [⟨owner, .waiting⟩] })
    (answer : ∀ n t v, op = .stepPump n → P (c.settle t (.answered v)))
    (forget : ∀ t, (∀ n, c.waitStage n ≠ .opening t) → P (c.dropCall t))
    (report : ∀ v, op.value? = some v → P { c with slot := c.slot.release (.holding v) })
    (clear : op = .clear → P ({ c with slot := c.slot.release .closed }.loseCalls c.queue))
    (ask : ∀ owner, P { c with
      tickets := c.tickets ++ [⟨owner, .waiting⟩]
      waits := c.waits ++ [⟨owner, true, .opening c.tickets.length⟩] })
    (listen : ∀ owner, P (({ c with waits := c.waits ++ [⟨owner, false, .dropped⟩] } :
      Conversation).listen c.waits.length))
    (dropWait : ∀ n, op = .dropWait n → P (c.dropWait n))
    (stepWait : ∀ n, op = .stepWait n → P (c.stepWait n)) :
    P (c.perform op) := by
  have hreport : ∀ v, (c.report v).desk =
      ({ c with slot := c.slot.release (.holding v) } : Conversation).desk := by
    intro v
    show (⟨c.tickets, c.waits, c.slot.report v⟩ : Desk) = _
    rw [InputSlot.report_eq]
    rfl
  cases op with
  | queue p hook => exact frame _ _ (desk_push hw _) stay
  | queueFrom text => exact frame _ _ (desk_push hw _) stay
  | addOptions lead items selected multi =>
      exact frame _ _ ((desk_push (hw.addLead lead) _).trans (desk_addLead hw lead)) stay
  | addUploader lead options =>
      exact frame _ _ ((desk_push (hw.addLead lead) _).trans (desk_addLead hw lead)) stay
  | addFrom text => exact frame _ _ (hreport (.string text)) (report (.string text) rfl)
  | report v => exact frame _ _ (hreport v) (report v rfl)
  | clear =>
      refine frame _ _ ?_ (clear rfl)
      obtain ⟨signals, heq⟩ := loseCalls_eq
        ({ c with slot := c.slot.release .closed } : Conversation) c.queue
      rw [heq]
      exact desk_clear c
  | call owner job =>
      have hw' : ({ c with tickets := c.tickets ++ [⟨owner, .waiting⟩] } :
          Conversation).WorkedOff := hw.of_dispatch rfl
      exact frame _ _ (desk_push hw' _) (call owner)
  | dropCall ticket =>
      show P (if c.heldByWait ticket then c else c.dropCall ticket)
      split
      case isTrue => exact stay
      case isFalse hheld =>
        exact forget ticket (waitStage_ne_of_heldByWait (by simpa using hheld))
  | beginWait owner enable =>
      cases enable with
      | true => exact frame _ _ (desk_beginWait hw owner) (ask owner)
      | false => exact listen owner
  | dropWait n => exact dropWait n rfl
  | stepWait n => exact stepWait n rfl
  | stepPump n =>
      rcases desk_stepPump c n with hd | ⟨t, v, hd⟩
      · exact frame _ _ hd stay
      · exact frame _ _ hd (answer n t v rfl)
  | stepNotice n => exact frame _ _ (desk_stepNotice c n) stay
  | add | replace | setSettings | setTimeout | setFixme | setValidator | setInput | useFixme
  | pass => exact frame _ c rfl stay

/-- What happens to the tickets, the waits and the slot need not be known by its operation. -/
theorem perform_cases {P : Conversation → Prop} (hw : c.WorkedOff)
    (frame : ∀ a b : Conversation, a.desk = b.desk → P b → P a)
    (stay : P c)
    (call : ∀ owner, P { c with tickets := c.tickets ++ [⟨owner, .waiting⟩] })
    (answer : ∀ t v, P (c.settle t (.answered v)))
    (forget : ∀ t, (∀ n, c.waitStage n ≠ .opening t) → P (c.dropCall t))
    (report : ∀ v, P { c with slot := c.slot.release (.holding v) })
    (clear : P ({ c with slot := c.slot.release .closed }.loseCalls c.queue))
    (ask : ∀ owner, P { c with
      tickets := c.tickets ++ [⟨owner, .waiting⟩]
      waits := c.waits ++ [⟨owner, true, .opening c.tickets.length⟩] })
    (listen : ∀ owner, P (({ c with waits := c.waits ++ [⟨owner, false, .dropped⟩] } :
      Conversation).listen c.waits.length))
    (dropWait : ∀ n, P (c.dropWait n)) (stepWait : ∀ n, P (c.stepWait n)) (op : Operation) :
    P (c.perform op) :=
  perform_desk_cases hw op frame stay call (fun _ t v _ => answer t v) forget
    (fun v _ => report v) (fun _ => clear) ask listen (fun n _ => dropWait n)
    (fun n _ => stepWait n)

theorem fate_settle_ne_dropped {f : Fate} (hf : f ≠ .dropped) (h : c.fate t ≠ .dropped)
    (t' : Nat) : (c.settle t' f).fate t ≠ .dropped := by
  by_cases hw : c.fate t = .waiting
  · by_cases he : t = t'
    · subst he
      rw [fate_settle_self hw]
      exact hf
    · rw [fate_settle_of_ne he]
      exact h
  · rw [fate_settle_of_ne_waiting hw]
    exact h

/-! ## Every operation keeps the waits in order -/

theorem Asking.dropCall (h : c.Asking) (hno : ∀ n, c.waitStage n ≠ .opening t) :
    (c.dropCall t).Asking := by
  refine h.mono (fun _ _ hn => hn) fun n t' hn hf => ?_
  have hne : t' ≠ t := fun he => hno n (he ▸ hn)
  rw [fate_dropCall_of_ne hne]
  exact hf

theorem Asking.listen (h : c.Asking) (n : Nat) : (c.listen n).Asking := by
  cases ha : c.isAwaiting with
  | true =>
      rw [listen_of_awaiting ha]
      exact h.setWait rfl (fun _ => WaitStage.noConfusion) rfl
  | false =>
      rw [listen_of_free ha]
      exact h.setWait rfl (fun _ => WaitStage.noConfusion) rfl

theorem Asking.dropWait (h : c.Asking) (n : Nat) : (c.dropWait n).Asking := by
  unfold Conversation.dropWait
  split
  case h_1 t hn =>
    -- The ticket goes with its wait, and no other wait holds it.
    have hs : ∀ m t', ((c.dropCall t).setWait n .dropped).waitStage m = .opening t' →
        c.waitStage m = .opening t' ∧ m ≠ n := by
      intro m t' hm
      rcases setWait_cases hm WaitStage.noConfusion with ⟨-, he⟩ | ⟨hmn, hm⟩
      · cases he
      · exact ⟨hm, hmn⟩
    refine h.mono (fun m t' hm => (hs m t' hm).1) fun m t' hm hf => ?_
    obtain ⟨hm, hmn⟩ := hs m t' hm
    have hne : t' ≠ t := fun he => hmn (h.inj m n t (he ▸ hm) hn)
    show (c.dropCall t).fate t' ≠ _
    rw [fate_dropCall_of_ne hne]
    exact hf
  case h_2 r hn => exact h.setWait rfl (fun _ => WaitStage.noConfusion) rfl
  case h_3 => exact h

theorem Asking.stepWait (h : c.Asking) (n : Nat) : (c.stepWait n).Asking := by
  have hstep := waitStep_stepWait c n
  generalize c.stepWait n = c' at hstep ⊢
  cases hstep with
  | stay => exact h
  | listen => exact h.listen n
  | lose | receive | miss => exact h.setWait rfl (fun _ => WaitStage.noConfusion) rfl

/-- A new wait holds a new ticket. -/
theorem Asking.ask (h : c.Asking) (owner : Nat) : ({ c with
    tickets := c.tickets ++ [⟨owner, .waiting⟩]
    waits := c.waits ++ [⟨owner, true, .opening c.tickets.length⟩] } : Conversation).Asking := by
  have hcases : ∀ m t, ({ c with
      tickets := c.tickets ++ [⟨owner, .waiting⟩]
      waits := c.waits ++ [⟨owner, true, .opening c.tickets.length⟩] } : Conversation).waitStage m =
      .opening t → (m = c.waits.length ∧ t = c.tickets.length) ∨
        (c.waitStage m = .opening t ∧ t < c.tickets.length) := by
    intro m t hm
    rcases append_cases rfl hm WaitStage.noConfusion with ⟨hmn, he⟩ | hm
    · cases he
      exact .inl ⟨hmn, rfl⟩
    · exact .inr ⟨hm, lt_of_fate (h.fate_ne m t hm)⟩
  constructor
  · intro m t hm
    rcases hcases m t hm with ⟨-, rfl⟩ | ⟨hm, hlt⟩
    · rw [fate_append_self rfl]
      exact Fate.noConfusion
    · rw [fate_append_of_lt rfl hlt]
      exact h.fate_ne m t hm
  · intro m n t hm hn
    rcases hcases m t hm with ⟨rfl, rfl⟩ | ⟨hm, hlt⟩
    · rcases hcases n _ hn with ⟨rfl, -⟩ | ⟨-, hlt⟩
      · rfl
      · omega
    · rcases hcases n t hn with ⟨-, rfl⟩ | ⟨hn, -⟩
      · omega
      · exact h.inj m n t hm hn

theorem Asking.append (h : c.Asking) (owner : Nat) :
    ({ c with waits := c.waits ++ [⟨owner, false, .dropped⟩] } : Conversation).Asking := by
  refine h.mono (fun m t hm => ?_) (fun _ _ _ hf => hf)
  rcases append_cases rfl hm WaitStage.noConfusion with ⟨-, he⟩ | hm
  · cases he
  · exact hm

theorem Asking.loseCalls (h : c.Asking) (items : List Item) : (c.loseCalls items).Asking := by
  unfold Conversation.loseCalls
  induction items generalizing c with
  | nil => exact h
  | cons i rest ih =>
      cases i with
      | message d => exact ih h
      | call ticket job =>
          refine ih (h.mono (fun _ _ hn => hn) fun n t _ hf => ?_)
          exact fate_settle_ne_dropped Fate.noConfusion hf ticket

theorem Asking.perform (h : c.Asking) (hw : c.WorkedOff) (op : Operation) :
    (c.perform op).Asking := by
  apply perform_cases (P := Asking) hw
  case frame =>
    intro a b e hb
    exact hb.of_desk e
  case stay => exact h
  case call =>
    intro owner
    refine h.mono (fun _ _ hn => hn) fun n t _ hf => ?_
    rw [fate_append_of_lt rfl (lt_of_fate hf)]
    exact hf
  case answer =>
    intro t v
    refine h.mono (fun _ _ hn => hn) fun n t' _ hf => ?_
    exact fate_settle_ne_dropped Fate.noConfusion hf t
  case forget =>
    intro t hno
    exact h.dropCall hno
  case report =>
    intro v
    exact h.mono (fun _ _ hn => hn) (fun _ _ _ hf => hf)
  case clear =>
    have hslot : ({ c with slot := c.slot.release .closed } : Conversation).Asking :=
      h.mono (fun _ _ hn => hn) (fun _ _ _ hf => hf)
    exact hslot.loseCalls c.queue
  case ask => exact h.ask
  case listen =>
    intro owner
    exact (h.append owner).listen c.waits.length
  case dropWait => exact h.dropWait
  case stepWait => exact h.stepWait

theorem Listening.dropWait (h : c.Listening) (n : Nat) : (c.dropWait n).Listening := by
  unfold Conversation.dropWait
  split
  case h_1 t hn =>
    refine h.turnAway (fun r hr => ?_) rfl (fun _ => WaitStage.noConfusion) rfl
    rw [hn] at hr
    cases hr
  case h_2 r hn =>
    refine h.leave hn rfl (fun _ => WaitStage.noConfusion) rfl ?_ fun r' hne => ?_
    · show (c.slot.setReceiver r .dropped).receiver r ≠ _
      rw [InputSlot.receiver_setReceiver_self (h.receiver_lt hn)]
      exact Receiver.noConfusion
    · exact InputSlot.receiver_setReceiver_of_ne hne
  case h_3 => exact h

theorem Listening.stepWait (h : c.Listening) (n : Nat) : (c.stepWait n).Listening := by
  have hopening : ∀ t, c.waitStage n = .opening t → ∀ r, c.waitStage n ≠ .listening r := by
    intro t hs r hr
    rw [hs] at hr
    cases hr
  have hstep := waitStep_stepWait c n
  generalize c.stepWait n = c' at hstep ⊢
  cases hstep with
  | stay => exact h
  | listen hs hf =>
      have hlt : n < c.waits.length := lt_of_waitStage hs WaitStage.noConfusion
      exact h.listen hlt (hopening _ hs)
  | lose hs hf => exact h.turnAway (hopening _ hs) rfl (fun _ => WaitStage.noConfusion) rfl
  | @receive r v hs hr =>
      refine h.leave hs rfl (fun _ => WaitStage.noConfusion) rfl ?_ fun r' hne => ?_
      · show (c.slot.setReceiver r .closed).receiver r ≠ _
        rw [InputSlot.receiver_setReceiver_self (h.receiver_lt hs)]
        exact Receiver.noConfusion
      · exact InputSlot.receiver_setReceiver_of_ne hne
  | miss hs hr =>
      refine h.leave hs rfl (fun _ => WaitStage.noConfusion) rfl ?_ (fun _ _ => rfl)
      intro hwaiting
      have hwaiting : c.slot.receiver _ = .waiting := hwaiting
      rcases hr with hr | hr
      · exact Receiver.noConfusion (hr.symm.trans hwaiting)
      · exact Receiver.noConfusion (hr.symm.trans hwaiting)

/-- A new wait that has no receiver changes nothing about those that have one. -/
theorem Listening.append {w : Wait} (h : c.Listening) (hw : c'.waits = c.waits ++ [w])
    (hstage : ∀ r, w.stage ≠ .listening r) (hs : c'.slot = c.slot) : c'.Listening := by
  have hold : ∀ m r, c'.waitStage m = .listening r → c.waitStage m = .listening r := by
    intro m r hm
    rcases append_cases hw hm WaitStage.noConfusion with ⟨-, he⟩ | hm
    · exact absurd he (hstage r)
    · exact hm
  constructor
  · intro m r hm
    rw [hs]
    exact h.receiver_ne m r (hold m r hm)
  · intro m m' r hm hm'
    exact h.inj m m' r (hold m r hm) (hold m' r hm')
  · intro m r hm hr
    rw [hs] at hr ⊢
    exact h.registered m r (hold m r hm) hr
  · intro r hr
    rw [hs] at hr
    obtain ⟨m, hm⟩ := h.exists_wait r hr
    have hlt : m < c.waits.length := lt_of_waitStage hm WaitStage.noConfusion
    exact ⟨m, by rw [waitStage_append_of_lt hw hlt, hm]⟩

theorem Listening.perform (h : c.Listening) (hw : c.WorkedOff) (op : Operation) :
    (c.perform op).Listening := by
  apply perform_cases (P := Listening) hw
  case frame =>
    intro a b e hb
    obtain ⟨-, hwaits, hslot⟩ := Desk.mk.inj e
    exact hb.of_slot hwaits hslot
  case stay => exact h
  case call =>
    intro owner
    exact h.of_slot rfl rfl
  case answer =>
    intro t v
    exact h.of_slot rfl rfl
  case forget =>
    intro t _
    exact h.of_slot rfl rfl
  case report =>
    intro v
    exact h.release rfl rfl Receiver.noConfusion Receiver.noConfusion
  case clear =>
    exact h.release (waits_loseCalls _ _) (slot_loseCalls _ _) Receiver.noConfusion
      Receiver.noConfusion
  case ask =>
    intro owner
    exact h.append rfl (fun _ => WaitStage.noConfusion) rfl
  case listen =>
    intro owner
    have happend : ({ c with waits := c.waits ++ [⟨owner, false, .dropped⟩] } :
        Conversation).Listening := h.append rfl (fun _ => WaitStage.noConfusion) rfl
    -- The new wait is there and has no receiver yet.
    refine happend.listen ?_ fun r hr => ?_
    · show c.waits.length < (c.waits ++ [_]).length
      rw [List.length_append, List.length_singleton]
      omega
    · rw [waitStage_append_self rfl] at hr
      cases hr
  case dropWait => exact h.dropWait
  case stepWait => exact h.stepWait

/-- What holds of queue, tickets, waits and input slot in every state that a history leads to. -/
structure Attended (c : Conversation) : Prop where
  worked : c.WorkedOff
  carried : c.Carried
  asking : c.Asking
  listening : c.Listening

theorem Attended.perform (h : c.Attended) (op : Operation) : (c.perform op).Attended where
  worked := h.worked.perform op
  carried := h.carried.perform h.worked op
  asking := h.asking.perform h.worked op
  listening := h.listening.perform h.worked op

theorem Attended.after (h : c.Attended) (history : List Operation) :
    (c.after history).Attended := by
  induction history generalizing c with
  | nil => exact h
  | cons op rest ih => exact ih (h.perform op)

theorem attended_start (settings : Settings) (clock : Clock) :
    (start settings clock).Attended where
  worked := workedOff_start settings clock
  carried := carried_start settings clock
  asking :=
    { fate_ne := fun _ _ hn => by cases hn
      inj := fun _ _ _ hm => by cases hm }
  listening :=
    { receiver_ne := fun _ _ hn => by cases hn
      inj := fun _ _ _ hm => by cases hm
      registered := fun _ _ hn => by cases hn
      exists_wait := fun _ hr => by cases hr }

/-! ## How a wait fares -/

/-- A call that has got a fate keeps it, and one that is open is not forgotten. -/
def KeepsFate (c c' : Conversation) (t : Nat) : Prop :=
  c'.fate t = c.fate t ∨ (c.fate t = .waiting ∧ c'.fate t ≠ .dropped)

/-- A receiver that has been settled stays as it is, and one that waits is not left. -/
def KeepsReceiver (c c' : Conversation) (r : Nat) : Prop :=
  c'.slot.receiver r = c.slot.receiver r ∨
    (c.slot.receiver r = .waiting ∧ c'.slot.receiver r ≠ .dropped)

/-- What an operation can do to a wait: the one who waits goes away, the wait stays as it is, or it
takes its own step. -/
inductive Fared (c c' : Conversation) (n : Nat) : Prop where
  | left (hs : c'.waitStage n = .dropped)
  | stayed (hs : c'.waitStage n = c.waitStage n)
    (hf : ∀ t, c.waitStage n = .opening t → KeepsFate c c' t)
    (hr : ∀ r, c.waitStage n = .listening r → KeepsReceiver c c' r)
  | stepped (hd : c'.desk = (c.stepWait n).desk)

theorem Fared.of_desk (h : Fared c c' n) {c'' : Conversation} (e : c''.desk = c'.desk) :
    Fared c c'' n := by
  obtain ⟨ht, hw, hs⟩ := Desk.mk.inj e
  cases h with
  | left hl => exact .left (waitStage_of_waits hw n ▸ hl)
  | stayed hst hf hr =>
      refine .stayed (waitStage_of_waits hw n ▸ hst) (fun t hn => ?_) (fun r hn => ?_)
      · rw [KeepsFate, fate_of_tickets ht]
        exact hf t hn
      · rw [KeepsReceiver, hs]
        exact hr r hn
  | stepped hd => exact .stepped (e.trans hd)

theorem keepsFate_settle {f : Fate} (hf : f ≠ .dropped) (t' : Nat) :
    KeepsFate c (c.settle t' f) t := by
  by_cases hw : c.fate t = .waiting
  · refine .inr ⟨hw, fate_settle_ne_dropped hf ?_ t'⟩
    rw [hw]
    exact Fate.noConfusion
  · exact .inl (fate_settle_of_ne_waiting hw)

theorem keepsFate_loseCalls (items : List Item) : KeepsFate c (c.loseCalls items) t := by
  by_cases hw : c.fate t = .waiting
  · by_cases hmem : t ∈ items.filterMap Item.ticket?
    · refine .inr ⟨hw, ?_⟩
      rw [fate_loseCalls_of_mem hmem hw]
      exact Fate.noConfusion
    · exact .inl (fate_loseCalls_of_notMem hmem)
  · exact .inl (fate_loseCalls_of_ne_waiting hw)

theorem keepsReceiver_release {x : Receiver} (hs : c'.slot = c.slot.release x)
    (hx : x ≠ .dropped) : KeepsReceiver c c' r := by
  rw [KeepsReceiver, hs]
  by_cases hr : c.slot.waiter? = some r
  · refine .inr ⟨(InputSlot.waiter?_eq_some_iff.mp hr).2, ?_⟩
    rw [InputSlot.receiver_release_self hr]
    exact hx
  · exact .inl (InputSlot.receiver_release_of_ne hr)

theorem fared_listen (h : c.Listening) (hs : c'.waitStage n = c.waitStage n)
    (ht : c'.tickets = c.tickets) (hslot : c'.slot = c.slot) (hne : n ≠ m) :
    Fared c (c'.listen m) n := by
  cases ha : c'.isAwaiting with
  | true =>
      rw [listen_of_awaiting ha]
      refine .stayed ((waitStage_setWait_of_ne hne).trans hs) (fun t _ => .inl ?_)
        (fun r _ => .inl ?_)
      · exact fate_of_tickets ht t
      · exact congrArg (InputSlot.receiver · r) hslot
  | false =>
      rw [listen_of_free ha]
      refine .stayed ((waitStage_setWait_of_ne hne).trans hs) (fun t _ => .inl ?_)
        (fun r hr => .inl ?_)
      · exact fate_of_tickets ht t
      · show c'.slot.opened.receiver r = _
        rw [hslot, InputSlot.receiver_opened_of_lt (h.receiver_lt hr)]

theorem fared_dropWait (h : c.Attended) (m : Nat) : Fared c (c.dropWait m) n := by
  unfold dropWait
  split
  case h_1 t hm =>
    by_cases hne : n = m
    · subst hne
      have hlt : n < c.waits.length := lt_of_waitStage hm WaitStage.noConfusion
      exact .left (waitStage_setWait_self hlt)
    · refine .stayed (waitStage_setWait_of_ne hne) (fun t' hn => .inl ?_) (fun _ _ => .inl rfl)
      exact fate_dropCall_of_ne fun he => hne (h.asking.inj n m t (he ▸ hn) hm)
  case h_2 r hm =>
    by_cases hne : n = m
    · subst hne
      have hlt : n < c.waits.length := lt_of_waitStage hm WaitStage.noConfusion
      exact .left (waitStage_setWait_self hlt)
    · refine .stayed (waitStage_setWait_of_ne hne) (fun _ _ => .inl rfl) fun r' hn => .inl ?_
      exact InputSlot.receiver_setReceiver_of_ne
        fun he => hne (h.listening.inj n m r (he ▸ hn) hm)
  case h_3 => exact .stayed rfl (fun _ _ => .inl rfl) (fun _ _ => .inl rfl)

theorem fared_stepWait (h : c.Attended) (m : Nat) : Fared c (c.stepWait m) n := by
  by_cases hne : n = m
  · rw [hne]
    exact .stepped rfl
  -- The step of another wait concerns another ticket and another receiver.
  have hstep := waitStep_stepWait c m
  generalize c.stepWait m = c' at hstep ⊢
  cases hstep with
  | stay => exact .stayed rfl (fun _ _ => .inl rfl) (fun _ _ => .inl rfl)
  | listen => exact fared_listen h.listening rfl rfl rfl hne
  | lose | miss =>
      exact .stayed (waitStage_setWait_of_ne hne) (fun _ _ => .inl rfl) (fun _ _ => .inl rfl)
  | @receive r v hs hr =>
      refine .stayed (waitStage_setWait_of_ne hne) (fun _ _ => .inl rfl) fun r' hn => .inl ?_
      exact InputSlot.receiver_setReceiver_of_ne
        fun he => hne (h.listening.inj n m r (he ▸ hn) hs)

theorem fared_perform (h : c.Attended) (hn : n < c.waits.length) (op : Operation) :
    Fared c (c.perform op) n := by
  apply perform_cases (P := fun c' => Fared c c' n) h.worked
  case frame =>
    intro a b e hb
    exact hb.of_desk e
  case stay => exact .stayed rfl (fun _ _ => .inl rfl) (fun _ _ => .inl rfl)
  case call =>
    intro owner
    refine .stayed rfl (fun t ht => .inl ?_) (fun _ _ => .inl rfl)
    exact fate_append_of_lt rfl (lt_of_fate (h.asking.fate_ne n t ht))
  case answer =>
    intro t v
    exact .stayed rfl (fun _ _ => keepsFate_settle Fate.noConfusion t) (fun _ _ => .inl rfl)
  case forget =>
    intro t hno
    refine .stayed rfl (fun t' hn => .inl ?_) (fun _ _ => .inl rfl)
    exact fate_dropCall_of_ne fun he => hno n (he ▸ hn)
  case report =>
    intro v
    exact .stayed rfl (fun _ _ => .inl rfl)
      fun _ _ => keepsReceiver_release rfl Receiver.noConfusion
  case clear =>
    have hfate : ∀ t, KeepsFate c
        (({ c with slot := c.slot.release .closed } : Conversation).loseCalls c.queue) t := fun _ =>
      keepsFate_loseCalls (c := { c with slot := c.slot.release .closed }) c.queue
    exact .stayed (waitStage_of_waits (waits_loseCalls _ _) n) (fun t _ => hfate t)
      fun _ _ => keepsReceiver_release (slot_loseCalls _ _) Receiver.noConfusion
  case ask =>
    intro owner
    refine .stayed (waitStage_append_of_lt rfl hn) (fun t ht => .inl ?_) (fun _ _ => .inl rfl)
    exact fate_append_of_lt rfl (lt_of_fate (h.asking.fate_ne n t ht))
  case listen =>
    intro owner
    exact fared_listen h.listening (waitStage_append_of_lt rfl hn) rfl rfl (Nat.ne_of_lt hn)
  case dropWait => exact fared_dropWait h
  case stepWait => exact fared_stepWait h

/-! ## The number of waits and of tickets -/

theorem length_waits_setWait : (c.setWait n stage).waits.length = c.waits.length :=
  List.length_modify ..

theorem length_waits_listen : (c.listen n).waits.length = c.waits.length := by
  unfold listen
  split <;> exact length_waits_setWait

/-- No wait is forgotten. -/
theorem length_waits_perform (hw : c.WorkedOff) (op : Operation) :
    c.waits.length ≤ (c.perform op).waits.length := by
  apply perform_cases (P := fun c' => c.waits.length ≤ c'.waits.length) hw
  case frame =>
    intro a b e hb
    rw [show a.waits = b.waits from congrArg Desk.waits e]
    exact hb
  case stay | call | answer | forget | report =>
    intros
    exact Nat.le_refl _
  case clear =>
    have hwaits := waits_loseCalls { c with slot := c.slot.release .closed } c.queue
    exact Nat.le_of_eq (congrArg List.length hwaits).symm
  case ask =>
    intro owner
    show _ ≤ (c.waits ++ [_]).length
    rw [List.length_append]
    omega
  case listen =>
    intro owner
    rw [length_waits_listen]
    show _ ≤ (c.waits ++ [_]).length
    rw [List.length_append]
    omega
  case dropWait =>
    intro n
    unfold dropWait
    split
    · exact Nat.le_of_eq length_waits_setWait.symm
    · exact Nat.le_of_eq length_waits_setWait.symm
    · exact Nat.le_refl _
  case stepWait =>
    intro n
    have hstep := waitStep_stepWait c n
    generalize c.stepWait n = c' at hstep ⊢
    cases hstep with
    | stay => exact Nat.le_refl _
    | listen => exact Nat.le_of_eq length_waits_listen.symm
    | lose | receive | miss => exact Nat.le_of_eq length_waits_setWait.symm

theorem length_waits_after (hw : c.WorkedOff) (history : List Operation) :
    c.waits.length ≤ (c.after history).waits.length := by
  induction history generalizing c with
  | nil => exact Nat.le_refl _
  | cons op rest ih => exact Nat.le_trans (length_waits_perform hw op) (ih (hw.perform op))

theorem tickets_listen : (c.listen n).tickets = c.tickets := by
  unfold listen
  split <;> rfl

/-- No ticket is forgotten. -/
theorem length_tickets_perform (hw : c.WorkedOff) (op : Operation) :
    c.tickets.length ≤ (c.perform op).tickets.length := by
  apply perform_cases (P := fun c' => c.tickets.length ≤ c'.tickets.length) hw
  case frame =>
    intro a b e hb
    rw [show a.tickets = b.tickets from congrArg Desk.tickets e]
    exact hb
  case stay | report =>
    intros
    exact Nat.le_refl _
  case call | ask =>
    intro owner
    exact Nat.le_of_lt (List.length_append ▸ Nat.lt_succ_self _)
  case answer | forget =>
    intros
    exact Nat.le_of_eq (List.length_modify ..).symm
  case clear => exact Nat.le_of_eq (by rw [tickets_loseCalls, length_lostTickets])
  case listen =>
    intro owner
    exact Nat.le_of_eq (by rw [tickets_listen])
  case dropWait =>
    intro n
    unfold dropWait
    split
    · exact Nat.le_of_eq (List.length_modify ..).symm
    · exact Nat.le_refl _
    · exact Nat.le_refl _
  case stepWait =>
    intro n
    have hstep := waitStep_stepWait c n
    generalize c.stepWait n = c' at hstep ⊢
    cases hstep with
    | listen => exact Nat.le_of_eq (congrArg List.length tickets_listen).symm
    | stay | lose | receive | miss => exact Nat.le_refl _

end Conversation

end Dialogue
