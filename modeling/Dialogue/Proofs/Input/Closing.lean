import Mathlib.Data.List.Induction
import Mathlib.Data.List.Infix
import Dialogue.Proofs.Input.Clearing
import Dialogue.Proofs.Input.Field
/-!
# A wait whose field is closed by another one

The slot is free as soon as a value was reported, but the wait that gets the value closes the field
only when it goes on. If the function of the next wait is called in between, the field that is
closed is the field of that wait.

* `opened_perform` — no wait can register before its function has opened the field.
* `Sheltered.perform` — no other wait gets a value as long as one holds the slot.
* `closed_under_wait_iff` — so the field of a wait that holds the slot is closed just if another
  wait took its value after the function of this one was called.
-/

namespace Dialogue.Conversation

variable {c c' : Conversation} {m n t r : Nat} {stage : WaitStage}

/-! ## Waits that open the field -/

/-- Which waits open the field? -/
def enables (c : Conversation) : List Bool := c.waits.map Wait.enable

/-- Does a wait open the field? -/
def isEnabling (c : Conversation) (n : Nat) : Bool := (c.enables[n]?).getD false

/-- The function by which a wait opens the field has been called: the wait is answered, or it has
gone on. -/
def Opened (c : Conversation) (n : Nat) : Prop :=
  c.isEnabling n = true ∧
    ((∃ t v, c.waitStage n = .opening t ∧ c.fate t = .answered v) ∨
      ∃ r, c.waitStage n = .listening r)

theorem enables_setWait : (c.setWait n stage).enables = c.enables := by
  have hkept : ∀ w : Wait, Wait.enable { w with stage } = w.enable := fun _ => rfl
  exact map_modify_of_eq hkept c.waits n

theorem enables_listen : (c.listen n).enables = c.enables := by
  unfold listen
  split <;> exact enables_setWait

/-- A wait that is there keeps what was said when it began. -/
theorem enables_perform (hw : c.WorkedOff) (op : Operation) :
    c.enables <+: (c.perform op).enables := by
  apply perform_cases (P := fun c' => c.enables <+: c'.enables) hw
  case frame =>
    intro a b e hb
    have hwaits : a.waits = b.waits := congrArg Desk.waits e
    show _ <+: a.waits.map Wait.enable
    rw [hwaits]
    exact hb
  case stay | call | answer | forget | report =>
    intros
    exact List.prefix_rfl
  case clear =>
    show _ <+: List.map Wait.enable _
    rw [waits_loseCalls]
    exact List.prefix_rfl
  case ask =>
    intro owner
    exact (List.prefix_append c.waits _).map Wait.enable
  case listen =>
    intro owner
    rw [enables_listen]
    exact (List.prefix_append c.waits _).map Wait.enable
  case dropWait =>
    intro n
    unfold dropWait
    split
    · rw [enables_setWait]
      exact List.prefix_rfl
    · rw [enables_setWait]
      exact List.prefix_rfl
    · exact List.prefix_rfl
  case stepWait =>
    intro n
    have hstep := waitStep_stepWait c n
    generalize c.stepWait n = c' at hstep ⊢
    cases hstep with
    | stay => exact List.prefix_rfl
    | listen => rw [enables_listen]
    | lose | miss => rw [enables_setWait]
    | receive =>
        rw [enables_setWait]
        exact List.prefix_rfl

theorem isEnabling_perform (hw : c.WorkedOff) (hn : n < c.waits.length) (op : Operation) :
    (c.perform op).isEnabling n = c.isEnabling n := by
  obtain ⟨rest, hrest⟩ := enables_perform hw op
  have hlt : n < c.enables.length := by
    rw [enables, List.length_map]
    exact hn
  rw [isEnabling, isEnabling, ← hrest, List.getElem?_append_left hlt]

/-! ## New waits -/

/-- What a wait can be just after an operation before which it was not there. -/
inductive Fresh (c c' : Conversation) (n : Nat) : Prop where
  | absent (hs : c'.waitStage n = .dropped)
  | asking {t : Nat} (hs : c'.waitStage n = .opening t) (ht : t = c.tickets.length)
    (hf : c'.fate t = .waiting)
  | listening {r : Nat} (hs : c'.waitStage n = .listening r)
    (hr : c'.slot.receiver r = .waiting) (he : c'.isEnabling n = false)
  | refused {e : RunError} (hs : c'.waitStage n = .ended (.error e))

theorem Fresh.of_desk {c'' : Conversation} (e : c''.desk = c'.desk) (h : Fresh c c' n) :
    Fresh c c'' n := by
  obtain ⟨ht, hw, hslot⟩ := Desk.mk.inj e
  cases h with
  | absent hs => exact .absent (waitStage_of_waits hw n ▸ hs)
  | asking hs hnew hf =>
      exact .asking (waitStage_of_waits hw n ▸ hs) hnew (fate_of_tickets ht _ ▸ hf)
  | listening hs hr he =>
      refine .listening (waitStage_of_waits hw n ▸ hs) (hslot ▸ hr) ?_
      rw [isEnabling, enables, hw]
      exact he
  | refused hs => exact .refused (waitStage_of_waits hw n ▸ hs)

theorem fresh_of_le (h : c'.waits.length ≤ n) : Fresh c c' n := by
  refine .absent ?_
  rw [waitStage, List.getElem?_eq_none h]
  rfl

theorem fresh_listen {owner : Nat} (hn : c.waits.length ≤ n) :
    Fresh c (({ c with waits := c.waits ++ [⟨owner, false, .dropped⟩] } :
      Conversation).listen c.waits.length) n := by
  by_cases hlast : n = c.waits.length
  · subst hlast
    have hlt : c.waits.length < (c.waits ++ [Wait.mk owner false .dropped]).length := by simp
    cases ha : ({ c with waits := c.waits ++ [⟨owner, false, .dropped⟩] } :
        Conversation).isAwaiting with
    | true =>
        rw [listen_of_awaiting ha]
        exact .refused (waitStage_setWait_self hlt)
    | false =>
        rw [listen_of_free ha]
        refine .listening (waitStage_setWait_self hlt) InputSlot.receiver_opened_self ?_
        -- The new wait is one that does not open the field.
        have hfalse : (c.waits ++ [Wait.mk owner false .dropped]).map Wait.enable =
            c.waits.map Wait.enable ++ [false] := List.map_append
        rw [isEnabling, enables_setWait, enables, hfalse, ← List.length_map Wait.enable,
          List.getElem?_concat_length]
        rfl
  · refine fresh_of_le ?_
    rw [length_waits_listen]
    show (c.waits ++ [_]).length ≤ n
    rw [List.length_append, List.length_singleton]
    omega

theorem fresh_perform (hw : c.WorkedOff) (hn : c.waits.length ≤ n) (op : Operation) :
    Fresh c (c.perform op) n := by
  apply perform_cases (P := fun c' => Fresh c c' n) hw
  case frame => exact fun a b e hb => hb.of_desk e
  case stay => exact fresh_of_le hn
  case call => exact fun _ => fresh_of_le hn
  case answer => exact fun _ _ => fresh_of_le hn
  case forget => exact fun _ _ => fresh_of_le hn
  case report => exact fun _ => fresh_of_le hn
  case clear =>
    apply fresh_of_le
    rw [waits_loseCalls]
    exact hn
  case ask =>
    intro owner
    by_cases hlast : n = c.waits.length
    · subst hlast
      refine .asking (t := c.tickets.length) ?_ rfl ?_
      · exact waitStage_append_self (w := ⟨owner, true, .opening c.tickets.length⟩) rfl
      · exact fate_append_self (t := ⟨owner, .waiting⟩) rfl
    · refine fresh_of_le ?_
      show (c.waits ++ [_]).length ≤ n
      rw [List.length_append, List.length_singleton]
      omega
  case listen => exact fun owner => fresh_listen hn
  case dropWait =>
    intro m
    apply fresh_of_le
    unfold dropWait
    split
    · rw [length_waits_setWait]
      exact hn
    · rw [length_waits_setWait]
      exact hn
    · exact hn
  case stepWait =>
    intro m
    apply fresh_of_le
    have hstep := waitStep_stepWait c m
    generalize c.stepWait m = c' at hstep ⊢
    cases hstep with
    | stay => exact hn
    | listen =>
        rw [length_waits_listen]
        exact hn
    | lose | receive | miss =>
        rw [length_waits_setWait]
        exact hn

/-! ## The function of a wait -/

/-- The function by which a wait opens the field takes no time. -/
structure Prompt (c : Conversation) : Prop where
  own : ∀ n t, c.waitStage n = .opening t → ∀ job, (t, job) ∈ c.jobs → job = .openInput
  done : ∀ p ∈ c.pumps, ∀ t due, p.stage ≠ .calling t .openInput due

/-- A wait that has changed its stage by its own step listens or has ended. -/
theorem stage_stepWait (hn : n < c.waits.length) :
    c.stepWait n = c ∨
      (∃ t v, c.waitStage n = .opening t ∧ c.fate t = .answered v ∧
        ((∃ r, (c.stepWait n).waitStage n = .listening r ∧
          (c.stepWait n).slot.receiver r = .waiting) ∨
          ∃ result, (c.stepWait n).waitStage n = .ended result)) ∨
      ∃ result, (c.stepWait n).waitStage n = .ended result := by
  have hstep := waitStep_stepWait c n
  generalize c.stepWait n = c' at hstep ⊢
  cases hstep with
  | stay => exact .inl rfl
  | @listen t v hs hf =>
      refine .inr (.inl ⟨t, v, hs, hf, ?_⟩)
      cases ha : c.isAwaiting with
      | true =>
          rw [listen_of_awaiting ha]
          exact .inr ⟨_, waitStage_setWait_self hn⟩
      | false =>
          rw [listen_of_free ha]
          exact .inl ⟨_, waitStage_setWait_self hn, InputSlot.receiver_opened_self⟩
  | lose | receive | miss => exact .inr (.inr ⟨_, waitStage_setWait_self hn⟩)

/-- A wait that holds a ticket held it before, or the ticket is new. -/
theorem opening_perform (h : c.Attended) (op : Operation)
    (hs : (c.perform op).waitStage n = .opening t) :
    c.waitStage n = .opening t ∨ t = c.tickets.length := by
  by_cases hn : n < c.waits.length
  · left
    cases fared_perform h hn op with
    | left hl => exact WaitStage.noConfusion (hl.symm.trans hs)
    | stayed hst => exact hst.symm.trans hs
    | stepped hd =>
        rw [waitStage_of_waits (congrArg Desk.waits hd)] at hs
        rcases stage_stepWait hn with he | ⟨_, _, -, -, ⟨r, hr, -⟩ | ⟨_, he⟩⟩ | ⟨_, he⟩
        · exact he ▸ hs
        · exact WaitStage.noConfusion (hr.symm.trans hs)
        · exact WaitStage.noConfusion (he.symm.trans hs)
        · exact WaitStage.noConfusion (he.symm.trans hs)
  · right
    cases fresh_perform h.worked (Nat.le_of_not_lt hn) op with
    | asking hs' ht =>
        cases hs'.symm.trans hs
        exact ht
    | absent hs' => exact WaitStage.noConfusion (hs'.symm.trans hs)
    | listening hs' => exact WaitStage.noConfusion (hs'.symm.trans hs)
    | refused hs' => exact WaitStage.noConfusion (hs'.symm.trans hs)

/-- No other function is carried for a wait than the one that opens the field. -/
theorem Prompt.own_perform (hp : c.Prompt) (h : c.Attended) (op : Operation) {job : Job}
    (hs : (c.perform op).waitStage n = .opening t) (hmem : (t, job) ∈ (c.perform op).jobs) :
    job = .openInput := by
  have hold := opening_perform h op hs
  rcases mem_jobs_perform h.worked hmem with hmem | hmem
  · rcases hold with hs | rfl
    · exact hp.own n t hs job hmem
    · exact absurd (h.carried.lt_of_mem _ (mem_carried_of_mem_jobs hmem)) (Nat.lt_irrefl _)
  · -- A function that is queued now has a new ticket, so the wait is new, too.
    have hnew : t = c.tickets.length := eq_of_mem_enqueues hmem
    cases op with
    | call owner job' =>
        have hwaits : (c.call owner job').waits = c.waits := by
          have hcall : ({ c with tickets := c.tickets ++ [⟨owner, .waiting⟩] } :
              Conversation).WorkedOff := h.worked.of_dispatch rfl
          exact congrArg Desk.waits (desk_push hcall _)
        rw [show (c.perform (.call owner job')).waitStage n = c.waitStage n from
          waitStage_of_waits hwaits n] at hs
        have hlt := lt_of_fate (h.asking.fate_ne n t hs)
        omega
    | beginWait owner enable =>
        cases enable with
        | true =>
            cases List.mem_singleton.mp hmem
            rfl
        | false => cases hmem
    | addOptions lead | addUploader lead => cases lead <;> cases hmem
    | _ => cases hmem

/-- What a pump comes to by its step is not the call of a function that opens the field: that one is
over at once. -/
theorem mem_pumps_stepPump {q : Pump} (hq : q ∈ (c.stepPump n).pumps) :
    (∀ t due, q.stage ≠ .calling t .openInput due) ∨ q ∈ c.pumps := by
  have hset : ∀ {a : Conversation} {p : Pump} {stage : PumpStage}, a.pumps = c.pumps →
      c.pumps[n]? = some p → q ∈ (a.setStage n stage).pumps →
      (∀ t due, stage ≠ .calling t .openInput due) →
      (∀ t due, q.stage ≠ .calling t .openInput due) ∨ q ∈ c.pumps := by
    intro a p stage ha hn hq hstage
    rcases mem_pumps_setStage (c := a) (ha.symm ▸ hn) hq with rfl | hq
    · exact .inl hstage
    · exact .inr (ha ▸ hq)
  unfold stepPump at hq
  split at hq
  case h_1 g w hn =>
    cases w with
    | message d placeholder => exact hset rfl hn hq fun _ _ => PumpStage.noConfusion
    | call ticket job =>
        cases job with
        | openInput => exact hset (a := c) rfl hn hq fun _ _ => PumpStage.noConfusion
        | host name duration value =>
            refine hset (a := c) rfl hn hq fun _ _ he => ?_
            cases he
  case h_2 g d placeholder due hn =>
    split at hq
    · unfold finishTyping at hq
      split at hq
      · exact hset rfl hn hq fun _ _ => PumpStage.noConfusion
      · exact hset rfl hn hq fun _ _ => PumpStage.noConfusion
    · exact .inr hq
  case h_3 g ticket job due hn =>
    split at hq
    · exact hset rfl hn hq fun _ _ => PumpStage.noConfusion
    · exact .inr hq
  case h_4 g w news hn =>
    have hpumps : (c.tell news).pumps = c.pumps := by cases news <;> rfl
    by_cases hg : (c.tell news).generation = g
    · subst hg
      rcases hqueue : (c.tell news).queue with _ | ⟨i, rest⟩
      · rw [nextItem_nil hqueue] at hq
        exact hset hpumps hn hq fun _ _ => PumpStage.noConfusion
      · rw [nextItem_cons hqueue] at hq
        exact hset hpumps hn hq fun _ _ => PumpStage.noConfusion
    · rw [nextItem_of_ne hg] at hq
      exact hset hpumps hn hq fun _ _ => PumpStage.noConfusion
  case h_5 => exact .inr hq

theorem mem_pumps_push (hw : c.WorkedOff) {i : Item} {q : Pump} (hq : q ∈ (c.push i).pumps) :
    (∀ t due, q.stage ≠ .calling t .openInput due) ∨ q ∈ c.pumps := by
  cases hp : c.pumping with
  | true =>
      rw [push_of_pumping hp] at hq
      exact .inr hq
  | false =>
      rw [push_of_idle hp (hw.queue_nil hp)] at hq
      rcases List.mem_append.mp hq with hq | hq
      · exact .inr hq
      · rw [List.mem_singleton.mp hq]
        exact .inl fun _ _ => PumpStage.noConfusion

theorem Prompt.done_perform (hp : c.Prompt) (hw : c.WorkedOff) (op : Operation) :
    ∀ p ∈ (c.perform op).pumps, ∀ t due, p.stage ≠ .calling t .openInput due := by
  apply perform_board_cases
    (P := fun c' _ => ∀ p ∈ c'.pumps, ∀ t due, p.stage ≠ .calling t .openInput due) hw op
  case frame =>
    intro a b items hb ih
    rw [show a.pumps = b.pumps from congrArg (fun b => b.dispatch.pumps) hb]
    exact ih
  case stay => exact hp.done
  case push =>
    intro a items i ha ih p hmem
    exact (mem_pumps_push ha hmem).elim id (ih p)
  case add => exact fun _ _ => hp.done
  case replace => exact fun _ _ => hp.done
  case clear =>
    intro _
    rw [show c.clear.pumps = c.pumps from congrArg Dispatch.pumps (dispatch_clear c)]
    exact hp.done
  case stepPump => exact fun n _ p hmem => (mem_pumps_stepPump hmem).elim id (hp.done p)

theorem Prompt.perform (hp : c.Prompt) (h : c.Attended) (op : Operation) :
    (c.perform op).Prompt where
  own _ _ hs _ hmem := hp.own_perform h op hs hmem
  done := hp.done_perform h.worked op

theorem Prompt.after (hp : c.Prompt) (h : c.Attended) (history : List Operation) :
    (c.after history).Prompt := by
  induction history generalizing c with
  | nil => exact hp
  | cons op rest ih => exact ih (hp.perform h op) (h.perform op)

theorem prompt_start (settings : Settings) (clock : Clock) : (start settings clock).Prompt where
  own _ _ hs := by cases hs
  done _ hp := by cases hp

/-! ## No wait registers before its function was called -/

theorem tickets_stepWait : (c.stepWait n).tickets = c.tickets := by
  have hstep := waitStep_stepWait c n
  generalize c.stepWait n = c' at hstep ⊢
  cases hstep with
  | listen => exact tickets_listen
  | stay | lose | receive | miss => rfl

theorem fate_dropCall_ne_answered {t' : Nat} (ht : c.fate t = .waiting) (v : Json) :
    (c.dropCall t').fate t ≠ .answered v := by
  by_cases he : t = t'
  · rw [he, fate_dropCall_self]
    exact Fate.noConfusion
  · rw [fate_dropCall_of_ne he, ht]
    exact Fate.noConfusion

theorem fate_loseCalls_ne_answered {items : List Item} (ht : c.fate t = .waiting) (v : Json) :
    (c.loseCalls items).fate t ≠ .answered v := by
  by_cases hmem : t ∈ items.filterMap Item.ticket?
  · rw [fate_loseCalls_of_mem hmem ht]
    exact Fate.noConfusion
  · rw [fate_loseCalls_of_notMem hmem, ht]
    exact Fate.noConfusion

/-- Only a pump answers a call. -/
theorem fate_perform_ne_answered (h : c.Attended) (ht : c.fate t = .waiting) {op : Operation}
    (hop : ∀ k, op ≠ .stepPump k) (v : Json) : (c.perform op).fate t ≠ .answered v := by
  have hne : c.fate t ≠ .answered v := by
    rw [ht]
    exact Fate.noConfusion
  have hlt : t < c.tickets.length := lt_of_fate (by simp [ht])
  apply perform_desk_cases (P := fun c' => c'.fate t ≠ .answered v) h.worked op
  case frame =>
    intro a b e hb
    rw [fate_of_tickets (congrArg Desk.tickets e)]
    exact hb
  case stay => exact hne
  case call | ask =>
    intro owner
    rw [fate_append_of_lt rfl hlt]
    exact hne
  case answer => exact fun k _ _ he => absurd he (hop k)
  case forget => exact fun _ _ => fate_dropCall_ne_answered ht v
  case report => exact fun _ _ => hne
  case clear =>
    exact fun _ => fate_loseCalls_ne_answered (c := { c with slot := c.slot.release .closed }) ht v
  case listen =>
    intro owner
    rw [fate_of_tickets tickets_listen]
    exact hne
  case dropWait =>
    intro m _
    unfold dropWait
    split
    · exact fate_dropCall_ne_answered ht v
    · exact hne
    · exact hne
  case stepWait =>
    intro m _
    rw [fate_of_tickets tickets_stepWait]
    exact hne

/-- A pump that answers the call of a wait opens the field. -/
theorem opens_of_answered (hp : c.Prompt) (hs : c.waitStage n = .opening t)
    (ht : c.fate t = .waiting) {k : Nat} {v : Json} (hv : (c.stepPump k).fate t = .answered v) :
    c.opens (.stepPump k) = true := by
  have hne : c.fate t ≠ .answered v := by
    rw [ht]
    exact Fate.noConfusion
  unfold stepPump at hv
  rw [opens]
  split at hv
  case h_1 g w hn =>
    rw [hn]
    cases w with
    | message d placeholder => exact absurd hv hne
    | call ticket job =>
        cases job with
        | openInput => rfl
        | host name duration value => exact absurd hv hne
  case h_2 g d placeholder due hn =>
    split at hv
    · unfold finishTyping at hv
      split at hv
      · exact absurd hv hne
      · exact absurd hv hne
    · exact absurd hv hne
  case h_3 g ticket job due hn =>
    split at hv
    · have hv : (c.settle ticket (.answered job.value)).fate t = .answered v := hv
      by_cases he : t = ticket
      · -- The function of a wait is over at once, so it is not the one that comes to its end.
        subst he
        have hmem : (t, job) ∈ c.jobs :=
          mem_jobs_iff.mpr (.inr ⟨_, List.mem_of_getElem? hn, rfl⟩)
        cases hp.own n t hs job hmem
        exact absurd rfl (hp.done _ (List.mem_of_getElem? hn) t due)
      · rw [fate_settle_of_ne he] at hv
        exact absurd hv hne
    · exact absurd hv hne
  case h_4 g w news hn =>
    have htickets : ((c.tell news).nextItem k g).tickets = c.tickets :=
      (congrArg Desk.tickets (desk_nextItem _ k g)).trans (by cases news <;> rfl)
    rw [fate_of_tickets htickets] at hv
    exact absurd hv hne
  case h_5 => exact absurd hv hne

theorem not_opened_of_dropped (hs : c.waitStage n = .dropped) : ¬c.Opened n := by
  rintro ⟨-, ⟨t, v, hs', -⟩ | ⟨r, hs'⟩⟩
  · cases hs.symm.trans hs'
  · cases hs.symm.trans hs'

theorem not_opened_of_ended {result : Except RunError Json} (hs : c.waitStage n = .ended result) :
    ¬c.Opened n := by
  rintro ⟨-, ⟨t, v, hs', -⟩ | ⟨r, hs'⟩⟩
  · cases hs.symm.trans hs'
  · cases hs.symm.trans hs'

/-- A wait that was there and whose function has been called after an operation had it called
before, or the operation calls it. -/
theorem opened_of_lt (h : c.Attended) (hp : c.Prompt) (hn : n < c.waits.length) (op : Operation)
    (hopened : (c.perform op).Opened n) : c.Opened n ∨ c.opens op = true := by
  have ⟨henables, hstage⟩ := hopened
  rw [isEnabling_perform h.worked hn] at henables
  cases fared_perform h hn op with
  | left hs => exact absurd hopened (not_opened_of_dropped hs)
  | stayed hst hf hr =>
      rw [hst] at hstage
      rcases hstage with ⟨t, v, hs, hv⟩ | hs
      · rcases hf t hs with hkept | ⟨hwaiting, -⟩
        · exact .inl ⟨henables, .inl ⟨t, v, hs, hkept ▸ hv⟩⟩
        · right
          by_cases hop : ∀ k, op ≠ .stepPump k
          · exact absurd hv (fate_perform_ne_answered h hwaiting hop v)
          · obtain ⟨k, hk⟩ := not_forall.mp hop
            obtain rfl := not_not.mp hk
            exact opens_of_answered hp hs hwaiting hv
      · exact .inl ⟨henables, .inr hs⟩
  | stepped hd =>
      left
      refine ⟨henables, ?_⟩
      have hsame := waitStage_of_waits (congrArg Desk.waits hd) n
      rcases stage_stepWait hn with he | ⟨t, v, hs, hf, -⟩ | ⟨result, he⟩
      · have ht : (c.perform op).tickets = c.tickets :=
          (congrArg Desk.tickets hd).trans tickets_stepWait
        rw [hsame, he] at hstage
        rcases hstage with ⟨t, v, hs, hv⟩ | hs
        · exact .inl ⟨t, v, hs, fate_of_tickets ht t ▸ hv⟩
        · exact .inr hs
      · exact .inl ⟨t, v, hs, hf⟩
      · exact absurd hopened (not_opened_of_ended (hsame.trans he))

/-- The function of a wait has been called only if it was before, or if the operation calls it. -/
theorem opened_perform (h : c.Attended) (hp : c.Prompt) (op : Operation)
    (hopened : (c.perform op).Opened n) : c.Opened n ∨ c.opens op = true := by
  by_cases hn : n < c.waits.length
  · exact opened_of_lt h hp hn op hopened
  · cases fresh_perform h.worked (Nat.le_of_not_lt hn) op with
    | listening hs hr he => exact absurd (hopened.1.symm.trans he) (by decide)
    | absent hs => exact absurd hopened (not_opened_of_dropped hs)
    | refused hs => exact absurd hopened (not_opened_of_ended hs)
    | asking hs ht hf =>
        rcases hopened.2 with ⟨t, v, hs', hv⟩ | ⟨r, hs'⟩
        · cases hs.symm.trans hs'
          exact Fate.noConfusion (hf.symm.trans hv)
        · cases hs.symm.trans hs'

/-! ## Who has closed the field -/

/-- The calls of functions that open the field. -/
def openings (c : Conversation) (op : Operation) : List Operation :=
  if c.opens op then [op] else []

/-- After the function of a wait was called, another wait has taken its value, and no function has
opened the field since. -/
def Outrun (c : Conversation) (history : List Operation) (n : Nat) : Prop :=
  ∃ before m after, history = before ++ .stepWait m :: after ∧ m ≠ n ∧
    (c.after before).Opened n ∧ (c.after before).receives (.stepWait m) ≠ [] ∧
    (c.after (before ++ [.stepWait m])).gathered openings after = []

theorem openings_eq_nil {op : Operation} (h : c.opens op = false) : c.openings op = [] := by
  simp [openings, h]

theorem opens_eq_false {op : Operation} (h : c.openings op = []) : c.opens op = false := by
  cases ho : c.opens op with
  | false => rfl
  | true => simp [openings, ho] at h

theorem gathered_append {α : Type} (yield : Conversation → Operation → List α) (c : Conversation)
    (before later : List Operation) : c.gathered yield (before ++ later) =
      c.gathered yield before ++ (c.after before).gathered yield later := by
  induction before generalizing c with
  | nil => rfl
  | cons first rest ih =>
      rw [List.cons_append, gathered, gathered, ih, List.append_assoc]
      rfl

theorem receives_ne_nil_iff : c.receives (.stepWait n) ≠ [] ↔
    ∃ r v, c.waitStage n = .listening r ∧ c.slot.receiver r = .holding v := by
  rw [receives]
  cases c.waitStage n with
  | listening r => cases hr : c.slot.receiver r <;> simp [hr]
  | opening | ended | dropped => simp

/-- A wait that takes its value has ended. -/
theorem not_opened_of_receives (hr : c.receives (.stepWait n) ≠ []) :
    ¬(c.perform (.stepWait n)).Opened n := by
  obtain ⟨r, v, hs, hv⟩ := receives_ne_nil_iff.mp hr
  rcases (Bound.answered hs hv).stepWait with ⟨hd, -⟩ | he
  · exact WaitStage.noConfusion (hs.symm.trans hd)
  · exact not_opened_of_ended he

/-- A field that is closed though the function of a wait has been called was closed by another
wait. -/
theorem outrun_of_closed (h : c.Attended) (hp : c.Prompt)
    (hopen : c.Opened n → c.input.enabled = true) (history : List Operation)
    (hopened : (c.after history).Opened n) (hclosed : (c.after history).input.enabled = false) :
    c.Outrun history n := by
  induction history using List.reverseRecOn with
  | nil => exact absurd (hclosed.symm.trans (hopen hopened)) (by decide)
  | append_singleton history op ih =>
      rw [after_append] at hopened hclosed
      have hworked := (h.after history).worked
      have hnow : (c.after history).opens op = false ∧
          ((c.after history).input.enabled = false ∨ (c.after history).receives op ≠ []) := by
        have hclosed : ((c.after history).perform op).input.enabled = false := hclosed
        rw [enabled_perform hworked, Bool.or_eq_false_iff, Bool.and_eq_false_iff] at hclosed
        refine hclosed.imp_right fun hor => hor.imp_right fun hr he => ?_
        rw [he] at hr
        cases hr
      obtain ⟨hopens, hreason⟩ := hnow
      have hbefore : (c.after history).Opened n :=
        (opened_perform (h.after history) (hp.after h history) op hopened).resolve_right
          (by simp [hopens])
      by_cases hr : (c.after history).receives op = []
      · -- The field was closed before, and it stays so.
        obtain ⟨before, m, after, rfl, hne, hob, hrb, hg⟩ :=
          ih hbefore (hreason.resolve_right (not_not_intro hr))
        refine ⟨before, m, after ++ [op], by simp, hne, hob, hrb, ?_⟩
        rw [gathered_append, hg, List.nil_append, ← after_append, List.append_assoc, gathered,
          gathered, List.append_nil]
        exact openings_eq_nil hopens
      · -- It is closed now, and a wait that closes it has ended.
        cases op with
        | stepWait m =>
            refine ⟨history, m, [], rfl, ?_, hbefore, hr, rfl⟩
            rintro rfl
            exact not_opened_of_receives hr hopened
        | _ => exact absurd rfl hr

theorem closed_after (hw : c.WorkedOff) (hclosed : c.input.enabled = false)
    {history : List Operation} (hg : c.gathered openings history = []) :
    (c.after history).input.enabled = false := by
  induction history generalizing c with
  | nil => exact hclosed
  | cons op rest ih =>
      rw [gathered, List.append_eq_nil_iff] at hg
      refine ih (hw.perform op) ?_ hg.2
      rw [enabled_perform hw, hclosed, opens_eq_false hg.1]
      rfl

theorem closed_of_outrun (h : c.Attended) {history : List Operation} (ho : c.Outrun history n) :
    (c.after history).input.enabled = false := by
  obtain ⟨before, m, after, rfl, -, -, hr, hg⟩ := ho
  have hworked := (h.after before).worked
  rw [List.append_cons, after_append]
  refine closed_after (h.after _).worked ?_ hg
  rw [after_append]
  exact enabled_of_receives hworked hr

/-! ## While a wait holds the slot -/

theorem receiver_of_setReceiver {x : Receiver} {v : Json} {s : InputSlot}
    (hv : (s.setReceiver n x).receiver r = .holding v) (hx : x ≠ .holding v) :
    s.receiver r = .holding v := by
  by_cases hr : r = n
  · subst hr
    rcases InputSlot.receiver_setReceiver_cases s r x with h | h
    · exact absurd (h.symm.trans hv) hx
    · cases h.symm.trans hv
  · rwa [InputSlot.receiver_setReceiver_of_ne hr] at hv

theorem receiver_listen {v : Json} (hv : (c.listen n).slot.receiver r = .holding v) :
    c.slot.receiver r = .holding v := by
  cases ha : c.isAwaiting with
  | true =>
      rw [listen_of_awaiting ha] at hv
      exact hv
  | false =>
      rw [listen_of_free ha] at hv
      have hv : c.slot.opened.receiver r = .holding v := hv
      by_cases hr : r = c.slot.receivers.length
      · rw [hr, InputSlot.receiver_opened_self] at hv
        cases hv
      · rwa [InputSlot.receiver_opened_of_ne hr] at hv

/-- A receiver gets a value only when the value is reported while it is registered. -/
theorem receiver_perform (hw : c.WorkedOff) (op : Operation) {v : Json}
    (hv : (c.perform op).slot.receiver r = .holding v) :
    c.slot.receiver r = .holding v ∨ (c.slot.waiter? = some r ∧ op.value? = some v) := by
  revert hv
  apply perform_desk_cases (P := fun c' => c'.slot.receiver r = .holding v →
    c.slot.receiver r = .holding v ∨ (c.slot.waiter? = some r ∧ op.value? = some v)) hw op
  case frame =>
    intro a b e hb
    rw [show a.slot = b.slot from congrArg Desk.slot e]
    exact hb
  case stay => exact .inl
  case call => exact fun _ => .inl
  case answer => exact fun _ _ _ _ => .inl
  case forget => exact fun _ _ => .inl
  case report =>
    intro w hop hv
    have hv : (c.slot.release (.holding w)).receiver r = .holding v := hv
    by_cases hr : c.slot.waiter? = some r
    · rw [InputSlot.receiver_release_self hr] at hv
      cases hv
      exact .inr ⟨hr, hop⟩
    · exact .inl (InputSlot.receiver_release_of_ne hr ▸ hv)
  case clear =>
    intro _ hv
    rw [slot_loseCalls] at hv
    have hv : (c.slot.release .closed).receiver r = .holding v := hv
    by_cases hr : c.slot.waiter? = some r
    · rw [InputSlot.receiver_release_self hr] at hv
      cases hv
    · exact .inl (InputSlot.receiver_release_of_ne hr ▸ hv)
  case ask => exact fun _ => .inl
  case listen =>
    intro owner hv
    exact .inl (receiver_listen (c := { c with waits := c.waits ++ [⟨owner, false, .dropped⟩] }) hv)
  case dropWait =>
    intro n _ hv
    unfold dropWait at hv
    split at hv
    · exact .inl hv
    · exact .inl (receiver_of_setReceiver hv Receiver.noConfusion)
    · exact .inl hv
  case stepWait =>
    intro n _ hv
    have hstep := waitStep_stepWait c n
    generalize c.stepWait n = c' at hstep hv
    cases hstep with
    | stay | lose | miss => exact .inl hv
    | listen => exact .inl (receiver_listen hv)
    | receive => exact .inl (receiver_of_setReceiver hv Receiver.noConfusion)

/-- A wait that holds the slot does so after an operation, or it is interrupted, or the operation
reports a value, and the wait gets that. -/
theorem holdsSlot_or_bound (h : c.Attended) (hn : c.holdsSlot n = true) (op : Operation) :
    (c.perform op).holdsSlot n = true ∨ (c.perform op).Bound n (.error .interrupted) ∨
      ∃ v, op.value? = some v ∧ (c.perform op).Bound n (.ok v) := by
  obtain ⟨r, hs, hw⟩ := holdsSlot_iff.mp hn
  have hr := (InputSlot.waiter?_eq_some_iff.mp hw).2
  have hlt : n < c.waits.length := lt_of_waitStage hs WaitStage.noConfusion
  have h' := h.perform op
  have hcases : (c.perform op).waitStage n = .dropped ∨
      (c.perform op).waitStage n = .listening r := by
    cases fared_perform h hlt op with
    | left hl => exact .inl hl
    | stayed hst => exact .inr (hst.trans hs)
    | stepped hd =>
        have hstay : c.stepWait n = c := by
          simp only [stepWait, hs, InputSlot.take, hr]
        rw [hstay] at hd
        exact .inr ((waitStage_of_waits (congrArg Desk.waits hd) n).trans hs)
  rcases hcases with hl | hl
  · exact .inr (.inl (.left hl))
  · cases hr' : (c.perform op).slot.receiver r with
    | waiting =>
        have hreg := h'.listening.registered n r hl hr'
        exact .inl (holdsSlot_iff.mpr ⟨r, hl, InputSlot.waiter?_eq_some_iff.mpr ⟨hreg, hr'⟩⟩)
    | holding v =>
        rcases receiver_perform h.worked op hr' with hv | ⟨-, hop⟩
        · exact Receiver.noConfusion (hr.symm.trans hv)
        · exact .inr (.inr ⟨v, hop, .answered hl hr'⟩)
    | closed => exact .inr (.inl (.closed hl hr'))
    | dropped => exact absurd hr' (h'.listening.receiver_ne n r hl)

/-- A wait that holds the slot in the end has held it all the time. -/
theorem holdsSlot_of_after (h : c.Attended) (hn : c.holdsSlot n = true) {op : Operation}
    {later : List Operation} (hlater : ((c.perform op).after later).holdsSlot n = true) :
    (c.perform op).holdsSlot n = true := by
  obtain ⟨r, hs, -⟩ := holdsSlot_iff.mp hn
  have hlt : n < c.waits.length := lt_of_waitStage hs WaitStage.noConfusion
  have hlt' := Nat.lt_of_lt_of_le hlt (length_waits_perform h.worked op)
  have hnot : ∀ result, ¬(c.perform op).Bound n result := by
    intro result hb
    have hend := (hb.after (h.perform op) hlt' later).holdsSlot_eq_false
    exact absurd (hlater.symm.trans hend) (by decide)
  rcases holdsSlot_or_bound h hn op with hholds | hb | ⟨v, -, hb⟩
  · exact hholds
  · exact absurd hb (hnot _)
  · exact absurd hb (hnot _)

/-- A wait that has got a value had it before, or it held the slot and the value is reported. -/
theorem holding_perform (h : c.Attended) (op : Operation) {v : Json}
    (hs : (c.perform op).waitStage m = .listening r)
    (hv : (c.perform op).slot.receiver r = .holding v) :
    (c.waitStage m = .listening r ∧ c.slot.receiver r = .holding v) ∨
      (c.holdsSlot m = true ∧ op.value? = some v) := by
  by_cases hm : m < c.waits.length
  · cases fared_perform h hm op with
    | left hl => exact WaitStage.noConfusion (hl.symm.trans hs)
    | stayed hst =>
        have hs := hst.symm.trans hs
        rcases receiver_perform h.worked op hv with hv | ⟨hw, hop⟩
        · exact .inl ⟨hs, hv⟩
        · exact .inr ⟨holdsSlot_iff.mpr ⟨r, hs, hw⟩, hop⟩
    | stepped hd =>
        obtain ⟨-, hwaits, hslot⟩ := Desk.mk.inj hd
        rw [waitStage_of_waits hwaits] at hs
        rw [hslot] at hv
        rcases stage_stepWait hm with he | ⟨_, _, -, -, ⟨r', hr', hwaiting⟩ | ⟨_, he⟩⟩ | ⟨_, he⟩
        · rw [he] at hs hv
          exact .inl ⟨hs, hv⟩
        · -- A wait that has just registered has got no value.
          cases hr'.symm.trans hs
          exact Receiver.noConfusion (hwaiting.symm.trans hv)
        · exact WaitStage.noConfusion (he.symm.trans hs)
        · exact WaitStage.noConfusion (he.symm.trans hs)
  · cases fresh_perform h.worked (Nat.le_of_not_lt hm) op with
    | listening hs' hr' =>
        cases hs'.symm.trans hs
        exact Receiver.noConfusion (hr'.symm.trans hv)
    | absent hs' => exact WaitStage.noConfusion (hs'.symm.trans hs)
    | asking hs' => exact WaitStage.noConfusion (hs'.symm.trans hs)
    | refused hs' => exact WaitStage.noConfusion (hs'.symm.trans hs)

/-- A wait that takes its value leaves the slot to the wait that holds it. -/
theorem holdsSlot_of_receives (hn : c.holdsSlot n = true) (hm : c.receives (.stepWait m) ≠ []) :
    (c.perform (.stepWait m)).holdsSlot n = true := by
  obtain ⟨r, v, hs, hv⟩ := receives_ne_nil_iff.mp hm
  obtain ⟨r', hs', hw'⟩ := holdsSlot_iff.mp hn
  obtain ⟨hreg, hwaiting⟩ := InputSlot.waiter?_eq_some_iff.mp hw'
  have hr : r' ≠ r := by
    rintro rfl
    rw [hv] at hwaiting
    cases hwaiting
  have hne : n ≠ m := by
    rintro rfl
    cases hs.symm.trans hs'
    exact hr rfl
  rw [holdsSlot_iff]
  refine ⟨r', ?_, ?_⟩
  · simp only [perform, stepWait, hs, InputSlot.take, hv]
    exact (waitStage_setWait_of_ne hne).trans hs'
  · simp only [perform, stepWait, hs, InputSlot.take, hv]
    refine InputSlot.waiter?_eq_some_iff.mpr ⟨hreg, ?_⟩
    exact (InputSlot.receiver_setReceiver_of_ne hr).trans hwaiting

/-- The field is open, and no wait has a value that it has not taken. -/
structure Sheltered (c : Conversation) : Prop where
  enabled : c.input.enabled = true
  untaken : ∀ m, c.receives (.stepWait m) = []

theorem Sheltered.perform (hc : c.Sheltered) (h : c.Attended) (hn : c.holdsSlot n = true)
    {op : Operation} (hn' : (c.perform op).holdsSlot n = true) : (c.perform op).Sheltered where
  enabled := by
    have hr : c.receives op = [] := by
      cases op with
      | stepWait m => exact hc.untaken m
      | _ => rfl
    rw [enabled_perform h.worked, hc.enabled, hr]
    exact Bool.or_true _
  untaken m := by
    by_contra hr
    obtain ⟨r, v, hs, hv⟩ := receives_ne_nil_iff.mp hr
    rcases holding_perform h op hs hv with ⟨hs, hv⟩ | ⟨hm, -⟩
    · exact receives_ne_nil_iff.mpr ⟨r, v, hs, hv⟩ (hc.untaken m)
    · -- The wait that holds the slot has not got a value.
      obtain rfl := holdsSlot_inj h hm hn
      have hend := (Bound.answered hs hv).holdsSlot_eq_false
      exact absurd (hn'.symm.trans hend) (by decide)

theorem Sheltered.after (hc : c.Sheltered) (h : c.Attended) (hn : c.holdsSlot n = true)
    {later : List Operation} (hlater : (c.after later).holdsSlot n = true) :
    (c.after later).Sheltered := by
  induction later generalizing c with
  | nil => exact hc
  | cons op rest ih =>
      have hn' := holdsSlot_of_after h hn hlater
      exact ih (hc.perform h hn hn') (h.perform op) hn' hlater

/-- The field of a wait that holds the slot stays open as long as it does so just if it is open and
no other wait has a value that it has not taken. -/
theorem open_under_wait_iff (h : c.Attended) (hn : c.holdsSlot n = true) :
    (∀ later, (c.after later).holdsSlot n = true → (c.after later).input.enabled = true) ↔
      c.Sheltered := by
  constructor
  · intro hopen
    refine ⟨hopen [] hn, fun m => ?_⟩
    by_contra hr
    obtain ⟨r, v, hs, hv⟩ := receives_ne_nil_iff.mp hr
    have hholds := holdsSlot_of_receives hn hr
    have hclosed := enabled_of_receives h.worked hr
    exact absurd (hclosed.symm.trans (hopen [.stepWait m] hholds)) (by decide)
  · intro hc later hlater
    exact (hc.after h hn hlater).enabled

/-- The field of a wait that holds the slot is closed just if another wait took its value after the
function of this one was called, and no function has opened the field since; and it stays open just
if it is open and no other wait has a value that it has not taken. -/
theorem closed_under_wait_iff (settings : Settings) (clock : Clock) (history : List Operation)
    (n : Nat) (hholds : ((start settings clock).after history).holdsSlot n = true)
    (henables : ((start settings clock).after history).isEnabling n = true) :
    let c := (start settings clock).after history
    (c.input.enabled = false ↔ (start settings clock).Outrun history n) ∧
      ((∀ later, (c.after later).holdsSlot n = true → (c.after later).input.enabled = true) ↔
        c.input.enabled = true ∧ ∀ m, c.receives (.stepWait m) = []) := by
  intro c
  have h : (start settings clock).Attended := attended_start settings clock
  have hp : (start settings clock).Prompt := prompt_start settings clock
  obtain ⟨r, hs, -⟩ := holdsSlot_iff.mp hholds
  constructor
  · constructor
    · refine outrun_of_closed h hp (fun ho => ?_) history ⟨henables, .inr ⟨r, hs⟩⟩
      cases ho.1
    · exact closed_of_outrun h
  · rw [open_under_wait_iff (h.after history) hholds]
    exact ⟨fun hc => ⟨hc.enabled, hc.untaken⟩, fun hc => ⟨hc.1, hc.2⟩⟩

/-- The field of a wait that is alone stays open as long as the wait holds the slot. -/
theorem closed_under_wait_iff_alone :
    let c := (start .standard .stepped).after [.beginWait 0 true, .stepPump 0, .stepWait 0]
    c.holdsSlot 0 = true ∧ c.isEnabling 0 = true ∧
      ∀ later, (c.after later).holdsSlot 0 = true → (c.after later).input.enabled = true := by
  intro c
  have hholds : c.holdsSlot 0 = true := rfl
  have henables : c.isEnabling 0 = true := rfl
  have hiff := closed_under_wait_iff .standard .stepped
    [.beginWait 0 true, .stepPump 0, .stepWait 0] 0 hholds henables
  refine ⟨hholds, henables, hiff.2.mpr ⟨rfl, fun m => ?_⟩⟩
  cases m with
  | zero => rfl
  | succ m => rfl

/-- A wait that takes its value after the next one has registered closes the field of that one. -/
theorem closed_under_next_wait :
    let c := (start .standard .stepped).after
      [.beginWait 0 true, .stepPump 0, .stepPump 0, .stepWait 0, .beginWait 1 true,
        .report (.string "early"), .stepPump 1, .stepWait 1, .stepWait 0]
    c.holdsSlot 1 = true ∧ c.isEnabling 1 = true ∧ c.input.enabled = false :=
  ⟨rfl, rfl, rfl⟩

end Dialogue.Conversation
