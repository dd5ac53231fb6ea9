import Mathlib.Data.List.Basic
import Dialogue.Proofs.Queue.Pumps
/-!
# Every open call is carried once

Whoever puts a function into the queue holds a ticket and waits for its value. As long as the call
is open, the function stands in the queue or is in the hands of a pump, and it does so once; and a
function that is carried has not got a fate, unless its caller has gone.

* `Carried.perform` — every operation keeps this.
* `Carried.stepPump` — the step that matters: a function that is finished gets its fate.
-/

namespace Dialogue

/-- The ticket of the function that a pump has in its hands and has not finished. -/
def PumpStage.ticket? : PumpStage → Option Nat
  | .taken (.call ticket _) => some ticket
  | .calling ticket _ _ => some ticket
  | _ => none

theorem PumpStage.ticket?_taken (i : Item) (placeholder : Nat) :
    (PumpStage.taken (i.work placeholder)).ticket? = i.ticket? := by
  cases i <;> rfl

namespace Conversation

variable {c c' : Conversation} {n ticket ticket' : Nat} {p : Pump} {f : Fate}

/-! ## Tickets, waits and the input slot -/

/-- Calls and waits depend on these parts of a conversation only. -/
structure Desk where
  tickets : List Ticket
  waits : List Wait
  slot : InputSlot

/-- The tickets of a conversation, its waits and its input slot. -/
def desk (c : Conversation) : Desk := ⟨c.tickets, c.waits, c.slot⟩

theorem desk_push (h : c.WorkedOff) (i : Item) : (c.push i).desk = c.desk := by
  cases hp : c.pumping with
  | true =>
      rw [push_of_pumping hp]
      rfl
  | false =>
      rw [push_of_idle hp (h.queue_nil hp)]
      rfl

theorem desk_addLead (h : c.WorkedOff) (lead : Option String) :
    (c.addLead lead).desk = c.desk := by
  cases lead with
  | none => rfl
  | some text => exact desk_push h _

theorem desk_nextItem (c : Conversation) (n g : Nat) : (c.nextItem n g).desk = c.desk := by
  by_cases hg : c.generation = g
  · subst hg
    rcases hq : c.queue with _ | ⟨i, rest⟩
    · rw [nextItem_nil hq]
      rfl
    · rw [nextItem_cons hq]
      rfl
  · rw [nextItem_of_ne hg]
    rfl

theorem desk_stepNotice (c : Conversation) (n : Nat) : (c.stepNotice n).desk = c.desk := by
  rw [stepNotice]
  split
  · rfl
  · split <;> rfl
  · rfl

/-- A list in which one member was changed looks the same if one does not look at what was
changed. -/
theorem map_modify_of_eq {α β : Type} {f : α → α} {look : α → β} (h : ∀ a, look (f a) = look a)
    (l : List α) (n : Nat) : (l.modify n f).map look = l.map look := by
  apply List.ext_getElem?
  intro i
  rw [List.getElem?_map, List.getElem?_map, List.getElem?_modify]
  cases l[i]? with
  | none => rfl
  | some a =>
      by_cases hi : n = i
      · simp [hi, h]
      · simp [hi]

/-! ## The fate of a call -/

theorem lt_of_fate (h : c.fate ticket ≠ .dropped) : ticket < c.tickets.length := by
  by_contra hge
  rw [fate, List.getElem?_eq_none (by omega)] at h
  exact h rfl

theorem fate_of_tickets (h : c'.tickets = c.tickets) (ticket : Nat) :
    c'.fate ticket = c.fate ticket := by
  rw [fate, fate, h]

theorem fate_append_of_lt {ts : List Ticket} (h : c'.tickets = c.tickets ++ ts)
    (hlt : ticket < c.tickets.length) : c'.fate ticket = c.fate ticket := by
  rw [fate, fate, h, List.getElem?_append_left hlt]

theorem fate_append_self {t : Ticket} (h : c'.tickets = c.tickets ++ [t]) :
    c'.fate c.tickets.length = t.fate := by
  rw [fate, h, List.getElem?_concat_length]
  rfl

theorem fate_settle_of_ne (h : ticket' ≠ ticket) :
    (c.settle ticket f).fate ticket' = c.fate ticket' := by
  show (((c.tickets.modify ticket (Ticket.settle f))[ticket']?).map Ticket.fate).getD _ = _
  rw [List.getElem?_modify_ne _ _ (Ne.symm h)]
  rfl

theorem fate_settle_self (h : c.fate ticket = .waiting) : (c.settle ticket f).fate ticket = f := by
  show (((c.tickets.modify ticket (Ticket.settle f))[ticket]?).map Ticket.fate).getD _ = _
  rw [List.getElem?_modify_eq]
  rw [fate] at h
  rcases ht : c.tickets[ticket]? with _ | ⟨owner, fate⟩
  · rw [ht] at h
    cases h
  · rw [ht] at h
    cases h
    rfl

/-- A call that has got a fate keeps it. -/
theorem fate_settle_of_ne_waiting (h : c.fate ticket' ≠ .waiting) :
    (c.settle ticket f).fate ticket' = c.fate ticket' := by
  by_cases he : ticket' = ticket
  · subst he
    show (((c.tickets.modify ticket' (Ticket.settle f))[ticket']?).map Ticket.fate).getD _ = _
    rw [List.getElem?_modify_eq]
    rw [fate] at h ⊢
    rcases ht : c.tickets[ticket']? with _ | ⟨owner, fate⟩
    · rfl
    · rw [ht] at h
      cases fate with
      | waiting => exact absurd rfl h
      | answered | lost | dropped => rfl
  · exact fate_settle_of_ne he

theorem fate_dropCall_of_ne (h : ticket' ≠ ticket) :
    (c.dropCall ticket).fate ticket' = c.fate ticket' := by
  show (((c.tickets.modify ticket _)[ticket']?).map Ticket.fate).getD _ = _
  rw [List.getElem?_modify_ne _ _ (Ne.symm h)]
  rfl

theorem fate_dropCall_self : (c.dropCall ticket).fate ticket = .dropped := by
  show (((c.tickets.modify ticket _)[ticket]?).map Ticket.fate).getD _ = _
  rw [List.getElem?_modify_eq]
  rcases c.tickets[ticket]? with _ | t <;> rfl

/-! ## What the queue and the pumps hold -/

/-- What the items of the queue and the stages of the pumps have of some kind. -/
def held {α : Type} (f : Item → Option α) (g : PumpStage → Option α) (c : Conversation) :
    List α :=
  c.queue.filterMap f ++ c.pumps.filterMap fun p => g p.stage

theorem filterMap_cons_toList {α β : Type} (f : α → Option β) (a : α) (l : List α) :
    (a :: l).filterMap f = (f a).toList ++ l.filterMap f := by
  rw [List.filterMap_cons]
  cases f a <;> rfl

section Held

variable {α : Type} {f : Item → Option α} {g : PumpStage → Option α}

/-- A pump that comes to another stage gives away what it had, and has what belongs to its stage. -/
theorem held_setStage (hn : c.pumps[n]? = some p) (stage : PumpStage) :
    ((g p.stage).toList ++ (c.setStage n stage).held f g).Perm
      ((g stage).toList ++ c.held f g) := by
  classical
  obtain ⟨before, after, hc, hset⟩ := exists_pumps_eq hn
  have hqueue : (c.setStage n stage).queue = c.queue := rfl
  -- Each thing is counted in the queue and in the hands of the pumps.
  rw [held, held, hqueue, hset, hc, List.perm_iff_count]
  intro t
  simp only [List.filterMap_append, filterMap_cons_toList, List.count_append]
  omega

variable (hfg : ∀ i placeholder, g (.taken (i.work placeholder)) = f i)

include hfg

theorem held_push (h : c.WorkedOff) (i : Item) :
    ((c.push i).held f g).Perm ((f i).toList ++ c.held f g) := by
  classical
  rw [List.perm_iff_count]
  intro t
  cases hp : c.pumping with
  | true =>
      rw [push_of_pumping hp]
      simp only [held, List.filterMap_append, filterMap_cons_toList, List.count_append,
        List.filterMap_nil, List.count_nil]
      omega
  | false =>
      rw [push_of_idle hp (h.queue_nil hp)]
      have hheld : (({ c with queue := [], pumping := true }.makeRoom i).startPump
          (i.work c.messages.length)).held f g =
          (c.pumps ++ [Pump.mk c.generation (.taken (i.work c.messages.length))]).filterMap
            fun p => g p.stage := rfl
      rw [hheld, held, h.queue_nil hp]
      simp only [List.filterMap_append, filterMap_cons_toList, List.count_append, hfg,
        List.filterMap_nil, List.count_nil]
      omega

/-- A pump that turns to the next item takes it from the queue. -/
theorem held_nextItem {k : Nat} (hn : c.pumps[n]? = some p) (hp : g p.stage = none)
    (hended : g .ended = none) : ((c.nextItem n k).held f g).Perm (c.held f g) := by
  have hend := held_setStage (f := f) (g := g) hn .ended
  rw [hp, hended] at hend
  by_cases hg : c.generation = k
  · subst hg
    rcases hq : c.queue with _ | ⟨i, rest⟩
    · rw [nextItem_nil hq]
      exact hend
    · rw [nextItem_cons hq]
      have hset := held_setStage (f := f) (g := g) (c := ({ c with queue := rest }.makeRoom i)) hn
        (.taken (i.work c.messages.length))
      rw [hp, hfg] at hset
      refine hset.trans ?_
      have hrest : ({ c with queue := rest }.makeRoom i).held f g =
          rest.filterMap f ++ c.pumps.filterMap fun p => g p.stage := rfl
      rw [hrest, held, hq, filterMap_cons_toList, List.append_assoc]
  · rw [nextItem_of_ne hg]
    exact hend

end Held

/-! ## The functions that are carried -/

/-- The tickets of the functions that stand in the queue or that a pump has not finished. -/
def carried (c : Conversation) : List Nat :=
  c.queue.filterMap Item.ticket? ++ c.pumps.filterMap fun p => p.stage.ticket?

theorem carried_of_dispatch (e : c'.dispatch = c.dispatch) : c'.carried = c.carried := by
  obtain ⟨hq, -, -, hps⟩ := Dispatch.mk.inj e
  rw [carried, carried, hq, hps]

theorem carried_setStage (hn : c.pumps[n]? = some p) (stage : PumpStage) :
    (p.stage.ticket?.toList ++ (c.setStage n stage).carried).Perm
      (stage.ticket?.toList ++ c.carried) := held_setStage hn stage

theorem carried_push (h : c.WorkedOff) (i : Item) :
    (c.push i).carried.Perm (i.ticket?.toList ++ c.carried) :=
  held_push PumpStage.ticket?_taken h i

/-- A pump that turns to the next item changes nothing about what is carried. -/
theorem carried_nextItem {g : Nat} (hn : c.pumps[n]? = some p) (hp : p.stage.ticket? = none) :
    (c.nextItem n g).carried.Perm c.carried := held_nextItem PumpStage.ticket?_taken hn hp rfl

/-- Each function is carried once, an open one always and a settled one never. -/
structure Carried (c : Conversation) : Prop where
  nodup : c.carried.Nodup
  mem_of_waiting : ∀ t, c.fate t = .waiting → t ∈ c.carried
  fate_of_mem : ∀ t ∈ c.carried, c.fate t = .waiting ∨ c.fate t = .dropped
  lt_of_mem : ∀ t ∈ c.carried, t < c.tickets.length

/-- Nothing is new about calls, and what is carried is only ordered anew. -/
theorem Carried.of_perm (h : c.Carried) (ht : c'.tickets = c.tickets)
    (hc : c'.carried.Perm c.carried) : c'.Carried where
  nodup := hc.nodup_iff.mpr h.nodup
  mem_of_waiting t hw := hc.mem_iff.mpr (h.mem_of_waiting t (by rwa [← fate_of_tickets ht]))
  fate_of_mem t hmem := by
    rw [fate_of_tickets ht]
    exact h.fate_of_mem t (hc.mem_iff.mp hmem)
  lt_of_mem t hmem := by
    rw [ht]
    exact h.lt_of_mem t (hc.mem_iff.mp hmem)

/-- A new call is carried. -/
theorem Carried.begin {owner : Nat} (h : c.Carried)
    (ht : c'.tickets = c.tickets ++ [⟨owner, .waiting⟩])
    (hc : c'.carried.Perm (c.tickets.length :: c.carried)) : c'.Carried where
  nodup := by
    rw [hc.nodup_iff, List.nodup_cons]
    exact ⟨fun hmem => Nat.lt_irrefl _ (h.lt_of_mem _ hmem), h.nodup⟩
  mem_of_waiting t hw := by
    rw [hc.mem_iff, List.mem_cons]
    by_cases hlt : t < c.tickets.length
    · rw [fate_append_of_lt ht hlt] at hw
      exact .inr (h.mem_of_waiting t hw)
    · -- A ticket that was not there before can only be the new one.
      have hne : c'.fate t ≠ .dropped := by
        rw [hw]
        exact Fate.noConfusion
      have := lt_of_fate hne
      rw [ht, List.length_append, List.length_singleton] at this
      exact .inl (by omega)
  fate_of_mem t hmem := by
    rw [hc.mem_iff, List.mem_cons] at hmem
    rcases hmem with rfl | hmem
    · exact .inl (fate_append_self ht)
    · rw [fate_append_of_lt ht (h.lt_of_mem t hmem)]
      exact h.fate_of_mem t hmem
  lt_of_mem t hmem := by
    rw [hc.mem_iff, List.mem_cons] at hmem
    rw [ht, List.length_append, List.length_singleton]
    rcases hmem with rfl | hmem
    · omega
    · have := h.lt_of_mem t hmem
      omega

/-- A function that is finished is carried no longer. -/
theorem Carried.finish (h : c.Carried) (ht : c'.tickets = (c.settle ticket f).tickets)
    (hf : f ≠ .waiting) (hc : (ticket :: c'.carried).Perm c.carried) : c'.Carried := by
  have hnodup : (ticket :: c'.carried).Nodup := hc.nodup_iff.mpr h.nodup
  rw [List.nodup_cons] at hnodup
  -- The finished function was carried once, so it is not carried any more.
  have hne : ∀ t ∈ c'.carried, t ≠ ticket := fun t hmem he => hnodup.1 (he ▸ hmem)
  have hsub : ∀ t ∈ c'.carried, t ∈ c.carried := fun t hmem =>
    hc.mem_iff.mp (List.mem_cons_of_mem _ hmem)
  constructor
  · exact hnodup.2
  · intro t hw
    rw [fate_of_tickets ht] at hw
    by_cases he : t = ticket
    · subst he
      by_cases hw' : c.fate t = .waiting
      · rw [fate_settle_self hw'] at hw
        exact absurd hw hf
      · rw [fate_settle_of_ne_waiting hw'] at hw
        exact absurd hw hw'
    · rw [fate_settle_of_ne he] at hw
      have := hc.mem_iff.mpr (h.mem_of_waiting t hw)
      exact (List.mem_cons.mp this).resolve_left he
  · intro t hmem
    rw [fate_of_tickets ht, fate_settle_of_ne (hne t hmem)]
    exact h.fate_of_mem t (hsub t hmem)
  · intro t hmem
    rw [ht]
    show t < (c.tickets.modify ticket _).length
    rw [List.length_modify]
    exact h.lt_of_mem t (hsub t hmem)

theorem Carried.dropCall (h : c.Carried) (ticket : Nat) : (c.dropCall ticket).Carried where
  nodup := h.nodup
  mem_of_waiting t hw := by
    by_cases he : t = ticket
    · rw [he, fate_dropCall_self] at hw
      cases hw
    · rw [fate_dropCall_of_ne he] at hw
      exact h.mem_of_waiting t hw
  fate_of_mem t hmem := by
    by_cases he : t = ticket
    · rw [he]
      exact .inr fate_dropCall_self
    · rw [fate_dropCall_of_ne he]
      exact h.fate_of_mem t hmem
  lt_of_mem t hmem := by
    show t < (c.tickets.modify ticket _).length
    rw [List.length_modify]
    exact h.lt_of_mem t hmem

/-! ## Clearing -/

theorem tickets_loseCalls (c : Conversation) (items : List Item) :
    (c.loseCalls items).tickets = lostTickets c.tickets items := by
  obtain ⟨signals, heq⟩ := loseCalls_eq c items
  rw [heq]

theorem waits_loseCalls (c : Conversation) (items : List Item) :
    (c.loseCalls items).waits = c.waits := by
  obtain ⟨signals, heq⟩ := loseCalls_eq c items
  rw [heq]

theorem slot_loseCalls (c : Conversation) (items : List Item) :
    (c.loseCalls items).slot = c.slot := by
  obtain ⟨signals, heq⟩ := loseCalls_eq c items
  rw [heq]

theorem length_lostTickets (tickets : List Ticket) (items : List Item) :
    (lostTickets tickets items).length = tickets.length := by
  rw [lostTickets]
  induction items.filterMap Item.ticket? generalizing tickets with
  | nil => rfl
  | cons t rest ih => exact (ih _).trans (List.length_modify ..)

theorem fate_loseCalls_of_ne_waiting {items : List Item} (h : c.fate ticket ≠ .waiting) :
    (c.loseCalls items).fate ticket = c.fate ticket := by
  rw [loseCalls]
  induction items generalizing c with
  | nil => rfl
  | cons i rest ih =>
      cases i with
      | message d => exact ih h
      | call ticket' job =>
          have hs : (c.settle ticket' .lost).fate ticket = c.fate ticket :=
            fate_settle_of_ne_waiting h
          exact (ih (hs ▸ h)).trans hs

theorem fate_loseCalls_of_settled {items : List Item} (h : c.fate ticket = f) (hf : f ≠ .waiting) :
    (c.loseCalls items).fate ticket = f := by
  rw [← h] at hf ⊢
  exact fate_loseCalls_of_ne_waiting hf

theorem fate_loseCalls_of_notMem {items : List Item}
    (h : ticket ∉ items.filterMap Item.ticket?) :
    (c.loseCalls items).fate ticket = c.fate ticket := by
  rw [loseCalls]
  induction items generalizing c with
  | nil => rfl
  | cons i rest ih =>
      cases i with
      | message d => exact ih h
      | call ticket' job =>
          have h : ticket ∉ ticket' :: rest.filterMap Item.ticket? := h
          rw [List.mem_cons, not_or] at h
          exact (ih h.2).trans (fate_settle_of_ne h.1)

/-- An open call that is thrown away is lost. -/
theorem fate_loseCalls_of_mem {items : List Item} (h : ticket ∈ items.filterMap Item.ticket?)
    (hw : c.fate ticket = .waiting) : (c.loseCalls items).fate ticket = .lost := by
  induction items generalizing c with
  | nil => cases h
  | cons i rest ih =>
      cases i with
      | message d => exact ih h hw
      | call ticket' job =>
          show ((c.settle ticket' .lost).loseCalls rest).fate ticket = .lost
          have h : ticket ∈ ticket' :: rest.filterMap Item.ticket? := h
          by_cases he : ticket = ticket'
          · subst he
            exact fate_loseCalls_of_settled (fate_settle_self hw) Fate.noConfusion
          · exact ih ((List.mem_cons.mp h).resolve_left he) (by rwa [fate_settle_of_ne he])

/-- The tickets, the waits and the input slot of a conversation that is cleared. -/
theorem desk_clear (c : Conversation) :
    c.clear.desk = ⟨lostTickets c.tickets c.queue, c.waits, c.slot.cancel⟩ := by
  obtain ⟨signals, heq⟩ := clear_eq c
  rw [heq]
  rfl

theorem fate_clear (c : Conversation) (ticket : Nat) :
    c.clear.fate ticket = (c.loseCalls c.queue).fate ticket := by
  have ht : c.clear.tickets = lostTickets c.tickets c.queue := congrArg Desk.tickets (desk_clear c)
  exact fate_of_tickets (ht.trans (tickets_loseCalls c c.queue).symm) ticket

theorem Carried.clear (h : c.Carried) : c.clear.Carried := by
  have hcarried : c.clear.carried = c.pumps.filterMap fun p => p.stage.ticket? :=
    carried_of_dispatch (c := { c with
      queue := [], pumping := false, generation := c.generation + 1 }) (dispatch_clear c)
  have hlen : c.clear.tickets.length = c.tickets.length := by
    rw [show c.clear.tickets = lostTickets c.tickets c.queue from
      congrArg Desk.tickets (desk_clear c), length_lostTickets]
  have hsub : ∀ t ∈ c.clear.carried, t ∈ c.carried := fun t hmem =>
    List.mem_append_right _ (hcarried ▸ hmem)
  constructor
  · rw [hcarried]
    exact (List.nodup_append.mp h.nodup).2.1
  · intro t hw
    rw [fate_clear] at hw
    have hwaiting : c.fate t = .waiting := by
      by_contra hne
      rw [fate_loseCalls_of_ne_waiting hne] at hw
      exact hne hw
    have hnot : t ∉ c.queue.filterMap Item.ticket? := by
      intro hmem
      rw [fate_loseCalls_of_mem hmem hwaiting] at hw
      cases hw
    rw [hcarried]
    exact (List.mem_append.mp (h.mem_of_waiting t hwaiting)).resolve_left hnot
  · intro t hmem
    -- What a pump carries does not stand in the queue too.
    have hnot : t ∉ c.queue.filterMap Item.ticket? := fun hmem' =>
      (List.nodup_append.mp h.nodup).2.2 t hmem' t (hcarried ▸ hmem) rfl
    rw [fate_clear, fate_loseCalls_of_notMem hnot]
    exact h.fate_of_mem t (hsub t hmem)
  · intro t hmem
    rw [hlen]
    exact h.lt_of_mem t (hsub t hmem)

/-! ## Histories -/

theorem Carried.push (h : c.Carried) (hw : c.WorkedOff) (d : Delivery) :
    (c.push (.message d)).Carried :=
  h.of_perm (congrArg Desk.tickets (desk_push hw _)) (carried_push hw _)

theorem Carried.addLead (h : c.Carried) (hw : c.WorkedOff) (lead : Option String) :
    (c.addLead lead).Carried := by
  cases lead with
  | none => exact h
  | some text => exact h.push hw _

theorem Carried.call (h : c.Carried) (hw : c.WorkedOff) (owner : Nat) (job : Job) :
    (c.call owner job).Carried := by
  have ht : ({ c with tickets := c.tickets ++ [⟨owner, .waiting⟩] } : Conversation).WorkedOff :=
    hw.of_dispatch rfl
  exact h.begin (congrArg Desk.tickets (desk_push ht _)) (carried_push ht _)

theorem Carried.beginWork {g : Nat} {w : Work} (h : c.Carried)
    (hn : c.pumps[n]? = some ⟨g, .taken w⟩) : (c.beginWork n w).Carried := by
  cases w with
  | message d placeholder =>
      exact h.of_perm rfl (carried_setStage hn (.typing d placeholder _))
  | call ticket job =>
      cases job with
      | openInput =>
          exact h.finish rfl Fate.noConfusion (carried_setStage hn (.through _ none))
      | host name duration value =>
          refine h.of_perm rfl ?_
          exact (carried_setStage hn (.calling ticket (.host name duration value) _)).cons_inv

theorem Carried.stepPump (h : c.Carried) (n : Nat) : (c.stepPump n).Carried := by
  rw [Conversation.stepPump]
  split
  case h_1 g w hn => exact h.beginWork hn
  case h_2 g d placeholder due hn =>
    split
    · rw [Conversation.finishTyping]
      split
      · exact h.of_perm rfl (carried_setStage hn .ended)
      · exact h.of_perm rfl (carried_setStage hn (.through _ _))
    · exact h
  case h_3 g ticket job due hn =>
    split
    · exact h.finish rfl Fate.noConfusion (carried_setStage hn (.through _ none))
    · exact h
  case h_4 g w news hn =>
    have htold : (c.tell news).Carried := by
      cases news with
      | none => exact h
      | some m => exact h.of_perm rfl (List.Perm.refl _)
    have hn' : (c.tell news).pumps[n]? = some ⟨g, .through w news⟩ := by
      cases news <;> exact hn
    exact htold.of_perm (congrArg Desk.tickets (desk_nextItem _ n g)) (carried_nextItem hn' rfl)
  case h_5 => exact h

/-- What is done to waits concerns a call only if its caller goes away. -/
theorem Carried.dropWait (h : c.Carried) (n : Nat) : (c.dropWait n).Carried := by
  rw [Conversation.dropWait]
  split
  · exact (h.dropCall _).of_perm rfl (List.Perm.refl _)
  · exact h.of_perm rfl (List.Perm.refl _)
  · exact h

theorem Carried.listen (h : c.Carried) (n : Nat) : (c.listen n).Carried := by
  rw [Conversation.listen]
  split <;> exact h.of_perm rfl (List.Perm.refl _)

theorem Carried.stepWait (h : c.Carried) (n : Nat) : (c.stepWait n).Carried := by
  rw [Conversation.stepWait]
  split
  · split
    · exact h.listen n
    · exact h.of_perm rfl (List.Perm.refl _)
    · exact h
  · split
    · exact h.of_perm rfl (List.Perm.refl _)
    · exact h
    · exact h.of_perm rfl (List.Perm.refl _)
  · exact h

theorem Carried.beginWait (h : c.Carried) (hw : c.WorkedOff) (owner : Nat) (enable : Bool) :
    (c.beginWait owner enable).Carried := by
  cases enable with
  | true =>
      have hwaits : ({ c with waits := c.waits ++ [⟨owner, true, .opening c.tickets.length⟩] } :
          Conversation).Carried := h.of_perm rfl (List.Perm.refl _)
      exact hwaits.call (hw.of_dispatch rfl) owner .openInput
  | false =>
      have hwaits : ({ c with waits := c.waits ++ [⟨owner, false, .dropped⟩] } :
          Conversation).Carried := h.of_perm rfl (List.Perm.refl _)
      exact hwaits.listen c.waits.length

theorem Carried.perform (h : c.Carried) (hw : c.WorkedOff) (op : Operation) :
    (c.perform op).Carried := by
  cases op with
  | queue p hook => exact h.push hw _
  | queueFrom text => exact h.push hw _
  | addOptions lead items selected multi => exact (h.addLead hw lead).push (hw.addLead lead) _
  | addUploader lead options => exact (h.addLead hw lead).push (hw.addLead lead) _
  | call owner job => exact h.call hw owner job
  | beginWait owner enable => exact h.beginWait hw owner enable
  | clear => exact h.clear
  | stepPump n => exact h.stepPump n
  | stepNotice n =>
      have hc : (c.stepNotice n).carried = c.carried :=
        carried_of_dispatch (congrArg Ledger.dispatch (ledger_stepNotice c n))
      exact h.of_perm (congrArg Desk.tickets (desk_stepNotice c n)) (.of_eq hc)
  | stepWait n => exact h.stepWait n
  | dropWait n => exact h.dropWait n
  | dropCall ticket =>
      rw [Conversation.perform]
      split
      · exact h
      · exact h.dropCall ticket
  | add | replace | addFrom | report | setSettings | setTimeout | setFixme | setValidator
  | setInput | useFixme | pass => exact h.of_perm rfl (List.Perm.refl _)

theorem carried_start (settings : Settings) (clock : Clock) : (start settings clock).Carried where
  nodup := List.nodup_nil
  mem_of_waiting _ hw := by cases hw
  fate_of_mem _ hmem := by cases hmem
  lt_of_mem _ hmem := by cases hmem

end Conversation

end Dialogue
