import Mathlib.Data.List.Nodup
import Dialogue.Proofs.Input.Closing
import Dialogue.Proofs.Queue.Callers
/-!
# How calls are answered

Books are kept of all functions that were queued: which were called, which gave their values, which
were thrown away, and whose callers have gone. A function that was queued is still carried, has
given its value or was thrown away, and only one of these; and the fate of its call says which.

* `callStep_perform` — what an operation can be for the calls.
* `Tally.perform` — the books are right after each operation.
* `calls_are_answered_by_fate` — so each call is answered as its fate says.
-/

namespace Dialogue

/-- The function that a pump is calling, with its ticket. -/
def PumpStage.underway? : PumpStage → Option (Nat × Job)
  | .calling ticket job _ => some (ticket, job)
  | _ => none

theorem Item.ticket?_eq (i : Item) : i.ticket? = i.job?.map Prod.fst := by
  cases i <;> rfl

theorem PumpStage.job?_of_underway? {stage : PumpStage} {x : Nat × Job}
    (h : stage.underway? = some x) : stage.job? = some x := by
  cases stage with
  | calling => exact h
  | taken | typing | through | ended => cases h

namespace Conversation

variable {c c' : Conversation} {n t : Nat} {op : Operation} {x : Nat × Job}

/-! ## What happens to calls -/

/-- The functions that an operation queues, with their tickets. -/
def makes (c : Conversation) (op : Operation) : List (Nat × Job) :=
  (c.enqueues op).filterMap Item.job?

/-- The function that is called with an operation. -/
def calls (c : Conversation) : Operation → List (Nat × Job)
  | .stepPump n =>
    match c.pumps[n]? with
    | some ⟨_, .taken (.call ticket job)⟩ => [(ticket, job)]
    | _ => []
  | _ => []

/-- The function that gives its value with an operation. One that opens the field does so at
once. -/
def returns (c : Conversation) : Operation → List (Nat × Job)
  | .stepPump n =>
    match c.pumps[n]? with
    | some ⟨_, .taken (.call ticket .openInput)⟩ => [(ticket, .openInput)]
    | some ⟨_, .calling ticket job due⟩ => if due ≤ c.now then [(ticket, job)] else []
    | _ => []
  | _ => []

/-- The functions that an operation throws away: those that stand in the queue. -/
def discards (c : Conversation) : Operation → List (Nat × Job)
  | .clear => c.queue.filterMap Item.job?
  | _ => []

/-- The call whose caller goes away with an operation. -/
def abandons (c : Conversation) : Operation → List Nat
  | .dropCall ticket =>
    if ticket < c.tickets.length ∧ c.heldByWait ticket = false then [ticket] else []
  | .dropWait n =>
    match c.waitStage n with
    | .opening ticket => [ticket]
    | _ => []
  | _ => []

/-- The functions that are being called. -/
def underway (c : Conversation) : List (Nat × Job) :=
  c.pumps.filterMap fun p => p.stage.underway?

/-- Nothing happens to the calls, but that the functions may be in other hands. -/
structure Untouched (c c' : Conversation) : Prop where
  tickets : c'.tickets = c.tickets
  jobs : c'.jobs.Perm c.jobs
  underway : c'.underway.Perm c.underway

/-- What an operation can be for the calls: nothing happens to them, a function is queued, begins,
or gives its value, or both at once, the functions in the queue are thrown away, or a caller
goes. -/
inductive CallStep (c c' : Conversation) : (made called returned discarded : List (Nat × Job)) →
    (left : List Nat) → Prop where
  | stay (h : Untouched c c') : CallStep c c' [] [] [] [] []
  | make (owner : Nat) (job : Job) (ht : c'.tickets = c.tickets ++ [⟨owner, .waiting⟩])
    (hj : c'.jobs.Perm ((c.tickets.length, job) :: c.jobs)) (hu : c'.underway.Perm c.underway) :
    CallStep c c' [(c.tickets.length, job)] [] [] [] []
  | begin (x : Nat × Job) (ht : c'.tickets = c.tickets) (hj : c'.jobs.Perm c.jobs)
    (hu : c'.underway.Perm (x :: c.underway)) : CallStep c c' [] [x] [] [] []
  | atOnce (x : Nat × Job) (ht : c'.tickets = (c.settle x.1 (.answered x.2.value)).tickets)
    (hj : (x :: c'.jobs).Perm c.jobs) (hu : c'.underway.Perm c.underway) :
    CallStep c c' [] [x] [x] [] []
  | finish (x : Nat × Job) (ht : c'.tickets = (c.settle x.1 (.answered x.2.value)).tickets)
    (hj : (x :: c'.jobs).Perm c.jobs) (hu : (x :: c'.underway).Perm c.underway) :
    CallStep c c' [] [] [x] [] []
  | clear (ht : c'.tickets = (c.loseCalls c.queue).tickets)
    (hj : c.queue.filterMap Item.job? ++ c'.jobs = c.jobs) (hu : c'.underway = c.underway) :
    CallStep c c' [] [] [] (c.queue.filterMap Item.job?) []
  | leave (t : Nat) (hlt : t < c.tickets.length) (ht : c'.tickets = (c.dropCall t).tickets)
    (hj : c'.jobs = c.jobs) (hu : c'.underway = c.underway) : CallStep c c' [] [] [] [] [t]

theorem underway_eq_held (c : Conversation) :
    c.underway = c.held (fun _ => none) PumpStage.underway? := by
  simp [underway, held]

theorem underway_of_dispatch (h : c'.dispatch = c.dispatch) : c'.underway = c.underway := by
  rw [underway, underway, show c'.pumps = c.pumps from congrArg Dispatch.pumps h]

theorem untouched_of_dispatch (ht : c'.tickets = c.tickets) (hd : c'.dispatch = c.dispatch) :
    Untouched c c' :=
  ⟨ht, .of_eq (jobs_of_dispatch hd), .of_eq (underway_of_dispatch hd)⟩

theorem Untouched.trans {c'' : Conversation} (h : Untouched c c') (h' : Untouched c' c'') :
    Untouched c c'' :=
  ⟨h'.tickets.trans h.tickets, h'.jobs.trans h.jobs, h'.underway.trans h.underway⟩

/-! ## Putting items in -/

theorem jobs_push (hw : c.WorkedOff) (i : Item) :
    (c.push i).jobs.Perm (i.job?.toList ++ c.jobs) := held_push PumpStage.job?_taken hw i

theorem underway_push (hw : c.WorkedOff) (i : Item) :
    (c.push i).underway.Perm c.underway := by
  rw [underway_eq_held, underway_eq_held]
  exact held_push (fun _ _ => by cases ‹Item› <;> rfl) hw i

theorem untouched_push (hw : c.WorkedOff) (d : Delivery) : Untouched c (c.push (.message d)) :=
  ⟨congrArg Desk.tickets (desk_push hw _), jobs_push hw _, underway_push hw _⟩

theorem untouched_addLead (hw : c.WorkedOff) (lead : Option String) :
    Untouched c (c.addLead lead) := by
  cases lead with
  | none => exact untouched_of_dispatch rfl rfl
  | some text => exact untouched_push hw _

/-- A call is made when a wait may have begun with it. -/
theorem callStep_call {a : Conversation} (hw : c.WorkedOff) (ht : a.tickets = c.tickets)
    (hd : a.dispatch = c.dispatch) (owner : Nat) (job : Job) :
    CallStep c (a.call owner job) [(c.tickets.length, job)] [] [] [] [] := by
  have ha : ({ a with tickets := a.tickets ++ [⟨owner, .waiting⟩] } : Conversation).WorkedOff :=
    hw.of_dispatch hd
  have htickets : (a.call owner job).tickets = a.tickets ++ [⟨owner, .waiting⟩] :=
    congrArg Desk.tickets (desk_push ha _)
  have hjobs : (a.call owner job).jobs.Perm ((a.tickets.length, job) :: a.jobs) := jobs_push ha _
  have hunderway : (a.call owner job).underway.Perm a.underway := underway_push ha _
  rw [ht] at htickets hjobs
  rw [jobs_of_dispatch hd] at hjobs
  rw [underway_of_dispatch hd] at hunderway
  exact .make owner job htickets hjobs hunderway

/-! ## Steps of a pump -/

variable {p : Pump} {stage : PumpStage}

theorem jobs_setStage (hn : c.pumps[n]? = some p) (stage : PumpStage) :
    (p.stage.job?.toList ++ (c.setStage n stage).jobs).Perm (stage.job?.toList ++ c.jobs) :=
  held_setStage hn stage

theorem underway_setStage (hn : c.pumps[n]? = some p) (stage : PumpStage) :
    (p.stage.underway?.toList ++ (c.setStage n stage).underway).Perm
      (stage.underway?.toList ++ c.underway) := by
  rw [underway_eq_held, underway_eq_held]
  exact held_setStage hn stage

theorem callStep_beginWork {g : Nat} {w : Work} (hn : c.pumps[n]? = some ⟨g, .taken w⟩) :
    CallStep c (c.beginWork n w) [] (c.calls (.stepPump n)) (c.returns (.stepPump n)) [] [] := by
  simp only [calls, returns, hn]
  cases w with
  | message d placeholder =>
      exact .stay ⟨rfl, jobs_setStage hn (.typing d placeholder _),
        underway_setStage hn (.typing d placeholder _)⟩
  | call ticket job =>
      cases job with
      | openInput =>
          exact .atOnce (ticket, .openInput) rfl (jobs_setStage hn (.through _ none))
            (underway_setStage hn (.through _ none))
      | host name duration value =>
          refine .begin (ticket, .host name duration value) rfl ?_
            (underway_setStage hn (.calling ticket (.host name duration value) _))
          exact (jobs_setStage hn (.calling ticket (.host name duration value) _)).cons_inv

theorem untouched_nextItem {g k : Nat} {w : Work} {news : Option Message}
    (hn : c.pumps[n]? = some ⟨g, .through w news⟩) : Untouched c (c.nextItem n k) := by
  refine ⟨congrArg Desk.tickets (desk_nextItem c n k),
    held_nextItem PumpStage.job?_taken hn rfl rfl, ?_⟩
  rw [underway_eq_held, underway_eq_held]
  exact held_nextItem (fun _ _ => by cases ‹Item› <;> rfl) hn rfl rfl

theorem callStep_stepPump (c : Conversation) (n : Nat) :
    CallStep c (c.stepPump n) [] (c.calls (.stepPump n)) (c.returns (.stepPump n)) [] [] := by
  have hstay : Untouched c c := untouched_of_dispatch rfl rfl
  rcases hn : c.pumps[n]? with _ | ⟨g, stage⟩
  · simp only [stepPump, calls, returns, hn]
    exact .stay hstay
  · cases stage with
    | taken w =>
        rw [stepPump, hn]
        exact callStep_beginWork hn
    | typing d placeholder due =>
        simp only [stepPump, calls, returns, hn]
        split
        · unfold finishTyping
          split
          · exact .stay ⟨rfl, jobs_setStage hn .ended, underway_setStage hn .ended⟩
          · exact .stay ⟨rfl, jobs_setStage hn (.through _ _), underway_setStage hn (.through _ _)⟩
        · exact .stay hstay
    | calling ticket job due =>
        simp only [stepPump, calls, returns, hn]
        split
        · exact .finish (ticket, job) rfl (jobs_setStage hn (.through _ none))
            (underway_setStage hn (.through _ none))
        · exact .stay hstay
    | through w news =>
        simp only [stepPump, calls, returns, hn]
        cases news with
        | none => exact .stay (untouched_nextItem hn)
        | some m =>
            have htold : Untouched c (c.announce m) := untouched_of_dispatch rfl rfl
            exact .stay (htold.trans (untouched_nextItem hn))
    | ended =>
        simp only [stepPump, calls, returns, hn]
        exact .stay hstay

/-! ## Operations -/

theorem callStep_clear (c : Conversation) :
    CallStep c c.clear [] [] [] (c.queue.filterMap Item.job?) [] := by
  have hd := dispatch_clear c
  have hpumps : c.clear.pumps = c.pumps := congrArg Dispatch.pumps hd
  refine .clear ?_ ?_ (by rw [underway, underway, hpumps])
  · rw [show c.clear.tickets = lostTickets c.tickets c.queue from
      congrArg Desk.tickets (desk_clear c), tickets_loseCalls]
  · rw [jobs, jobs, show c.clear.queue = [] from congrArg Dispatch.queue hd,
      hpumps]
    rfl

theorem callStep_dropWait (h : c.Attended) (n : Nat) :
    CallStep c (c.dropWait n) [] [] [] [] (c.abandons (.dropWait n)) := by
  cases hs : c.waitStage n with
  | opening t =>
      simp only [dropWait, abandons, hs]
      exact .leave t (lt_of_fate (h.asking.fate_ne n t hs)) rfl rfl rfl
  | listening r =>
      simp only [dropWait, abandons, hs]
      exact .stay (untouched_of_dispatch rfl rfl)
  | ended | dropped =>
      simp only [dropWait, abandons, hs]
      exact .stay (untouched_of_dispatch rfl rfl)

theorem callStep_dropCall (c : Conversation) (t : Nat) :
    CallStep c (c.perform (.dropCall t)) [] [] [] [] (c.abandons (.dropCall t)) := by
  rw [perform]
  dsimp only [abandons]
  cases hheld : c.heldByWait t with
  | true =>
      simp only [if_true, Bool.true_eq_false, and_false, if_false]
      exact .stay (untouched_of_dispatch rfl rfl)
  | false =>
      simp only [Bool.false_eq_true, if_false, and_true]
      split
      case isTrue hlt => exact .leave t hlt rfl rfl rfl
      case isFalse hlt =>
        -- Nobody has a ticket of this number.
        refine .stay (untouched_of_dispatch ?_ rfl)
        exact List.modify_eq_self (by omega)

theorem callStep_perform (h : c.Attended) (op : Operation) : CallStep c (c.perform op)
    (c.makes op) (c.calls op) (c.returns op) (c.discards op) (c.abandons op) := by
  have hw := h.worked
  cases op with
  | queue p hook => exact .stay (untouched_push hw _)
  | queueFrom text => exact .stay (untouched_push hw _)
  | addOptions lead items selected multi =>
      have hstep := (untouched_addLead hw lead).trans (untouched_push (hw.addLead lead)
        ⟨.options items selected multi (c.addLead lead).fixLabel, none, (c.addLead lead).fixme⟩)
      cases lead <;> exact .stay hstep
  | addUploader lead options =>
      have hstep := (untouched_addLead hw lead).trans (untouched_push (hw.addLead lead)
        ⟨.uploader options, none, none⟩)
      cases lead <;> exact .stay hstep
  | call owner job => exact callStep_call hw rfl rfl owner job
  | beginWait owner enable =>
      cases enable with
      | true =>
          exact callStep_call
            (a := { c with waits := c.waits ++ [⟨owner, true, .opening c.tickets.length⟩] })
            hw rfl rfl owner .openInput
      | false =>
          exact .stay (untouched_of_dispatch tickets_listen
            (congrArg Ledger.dispatch (ledger_listen _ _)))
  | stepPump n => exact callStep_stepPump c n
  | stepNotice n =>
      exact .stay (untouched_of_dispatch (congrArg Desk.tickets (desk_stepNotice c n))
        (congrArg Ledger.dispatch (ledger_stepNotice c n)))
  | stepWait n =>
      exact .stay (untouched_of_dispatch tickets_stepWait
        (congrArg Ledger.dispatch (ledger_stepWait c n)))
  | clear => exact callStep_clear c
  | dropCall t => exact callStep_dropCall c t
  | dropWait n => exact callStep_dropWait h n
  | add | replace | addFrom | report | setSettings | setTimeout | setFixme | setValidator
  | setInput | useFixme | pass => exact .stay (untouched_of_dispatch rfl rfl)

/-! ## The books -/

theorem map_job?_fst (items : List Item) :
    (items.filterMap Item.job?).map Prod.fst = items.filterMap Item.ticket? := by
  rw [List.map_filterMap]
  exact List.filterMap_congr fun i _ => i.ticket?_eq.symm

/-- The books of the calls: those that were made, and of these the ones that were called, that gave
their values, that were thrown away, and whose callers have gone. -/
structure Tally (c : Conversation) (made called returned discarded : List (Nat × Job))
    (left : List Nat) : Prop where
  numbered : made.map Prod.fst = List.range c.tickets.length
  kept : made.Perm (c.jobs ++ (returned ++ discarded))
  begun : called.Perm (c.underway ++ returned)
  gone : ∀ t ∈ left, t < c.tickets.length ∧ c.fate t = .dropped
  waiting : ∀ x ∈ c.jobs, x.1 ∈ left ∨ c.fate x.1 = .waiting
  answered : ∀ x ∈ returned, x.1 ∈ left ∨ c.fate x.1 = .answered x.2.value
  lost : ∀ x ∈ discarded, x.1 ∈ left ∨ c.fate x.1 = .lost

variable {made called returned discarded made' called' returned' discarded' : List (Nat × Job)}
  {left left' : List Nat}

namespace Tally

/-- No function is in two places. -/
theorem nodup (h : Tally c made called returned discarded left) :
    ((c.jobs ++ (returned ++ discarded)).map Prod.fst).Nodup := by
  have hmade : (made.map Prod.fst).Nodup := h.numbered ▸ List.nodup_range
  exact (h.kept.map Prod.fst).nodup_iff.mp hmade

theorem lt_of_mem (h : Tally c made called returned discarded left)
    (hx : x ∈ c.jobs ++ (returned ++ discarded)) : x.1 < c.tickets.length := by
  have hmem : x.1 ∈ made.map Prod.fst := List.mem_map_of_mem (h.kept.mem_iff.mpr hx)
  rw [h.numbered] at hmem
  exact List.mem_range.mp hmem

/-- Nothing is new about the calls, but that a function may be called. -/
theorem carry (h : Tally c made called returned discarded left) (ht : c'.tickets = c.tickets)
    (hj : c'.jobs.Perm c.jobs) (hb : called'.Perm (c'.underway ++ returned)) :
    Tally c' made called' returned discarded left where
  numbered := ht ▸ h.numbered
  kept := h.kept.trans (hj.symm.append_right _)
  begun := hb
  gone t hl := by
    rw [ht, fate_of_tickets ht]
    exact h.gone t hl
  waiting x hx := by
    rw [fate_of_tickets ht]
    exact h.waiting x (hj.mem_iff.mp hx)
  answered x hx := by
    rw [fate_of_tickets ht]
    exact h.answered x hx
  lost x hx := by
    rw [fate_of_tickets ht]
    exact h.lost x hx

theorem make {owner : Nat} {job : Job} (h : Tally c made called returned discarded left)
    (ht : c'.tickets = c.tickets ++ [⟨owner, .waiting⟩])
    (hj : c'.jobs.Perm ((c.tickets.length, job) :: c.jobs)) (hu : c'.underway.Perm c.underway) :
    Tally c' (made ++ [(c.tickets.length, job)]) called returned discarded left := by
  have hlen : c'.tickets.length = c.tickets.length + 1 := by rw [ht, List.length_append]; rfl
  have hold : ∀ x ∈ c.jobs ++ (returned ++ discarded), c'.fate x.1 = c.fate x.1 := fun x hx =>
    fate_append_of_lt ht (h.lt_of_mem hx)
  constructor
  case numbered =>
    rw [List.map_append, h.numbered, hlen, List.range_succ]
    rfl
  case kept =>
    refine (List.perm_append_singleton _ _).trans ((h.kept.cons _).trans ?_)
    exact (hj.symm.append_right _)
  case begun => exact h.begun.trans (hu.symm.append_right _)
  case gone =>
    intro t hl
    obtain ⟨hlt, hf⟩ := h.gone t hl
    rw [hlen, fate_append_of_lt ht hlt]
    exact ⟨Nat.lt_succ_of_lt hlt, hf⟩
  case waiting =>
    intro x hx
    rcases List.mem_cons.mp (hj.mem_iff.mp hx) with rfl | hx
    · exact .inr (fate_append_self ht)
    · rw [hold x (List.mem_append_left _ hx)]
      exact h.waiting x hx
  case answered =>
    intro x hx
    rw [hold x (List.mem_append_right _ (List.mem_append_left _ hx))]
    exact h.answered x hx
  case lost =>
    intro x hx
    rw [hold x (List.mem_append_right _ (List.mem_append_right _ hx))]
    exact h.lost x hx

/-- A function gives its value. It may have been called just now. -/
theorem settle (h : Tally c made called returned discarded left)
    (ht : c'.tickets = (c.settle x.1 (.answered x.2.value)).tickets)
    (hj : (x :: c'.jobs).Perm c.jobs) (hb : called'.Perm (c'.underway ++ (returned ++ [x]))) :
    Tally c' made called' (returned ++ [x]) discarded left := by
  have hlen : c'.tickets.length = c.tickets.length := by
    rw [ht]
    exact List.length_modify ..
  have hx : x ∈ c.jobs := hj.mem_iff.mp List.mem_cons_self
  have hkept : (c.jobs ++ (returned ++ discarded)).Perm
      (c'.jobs ++ ((returned ++ [x]) ++ discarded)) := by
    classical
    rw [List.perm_iff_count]
    intro y
    have := List.perm_iff_count.mp hj y
    simp only [List.count_append, List.count_cons, List.count_nil] at this ⊢
    omega
  have hsettled : ∀ t, c.fate t ≠ .waiting → c'.fate t = c.fate t := fun t hne =>
    (fate_of_tickets ht t).trans (fate_settle_of_ne_waiting hne)
  constructor
  case numbered => rw [hlen, h.numbered]
  case kept => exact h.kept.trans hkept
  case begun => exact hb
  case gone =>
    intro t hl
    obtain ⟨hlt, hf⟩ := h.gone t hl
    rw [hlen, hsettled t (by rw [hf]; exact Fate.noConfusion)]
    exact ⟨hlt, hf⟩
  case waiting =>
    intro y hy
    -- The function is carried no longer.
    have hne : y.1 ≠ x.1 := by
      have hperm := (hj.append_right (returned ++ discarded)).map Prod.fst
      have hnodup := hperm.nodup_iff.mpr h.nodup
      rw [List.cons_append, List.map_cons, List.nodup_cons] at hnodup
      exact fun he => hnodup.1 (he ▸ List.mem_map_of_mem (List.mem_append_left _ hy))
    rw [fate_of_tickets ht, fate_settle_of_ne hne]
    exact h.waiting y (hj.mem_iff.mp (List.mem_cons_of_mem _ hy))
  case answered =>
    intro y hy
    rcases List.mem_append.mp hy with hy | hy
    · refine (h.answered y hy).imp_right fun hf => ?_
      rw [hsettled y.1 (by rw [hf]; exact Fate.noConfusion), hf]
    · rw [List.mem_singleton.mp hy]
      refine (h.waiting x hx).imp_right fun hf => ?_
      rw [fate_of_tickets ht, fate_settle_self hf]
  case lost =>
    intro y hy
    refine (h.lost y hy).imp_right fun hf => ?_
    rw [hsettled y.1 (by rw [hf]; exact Fate.noConfusion), hf]

theorem clear (h : Tally c made called returned discarded left)
    (ht : c'.tickets = (c.loseCalls c.queue).tickets)
    (hj : c.queue.filterMap Item.job? ++ c'.jobs = c.jobs) (hu : c'.underway = c.underway) :
    Tally c' made called returned (discarded ++ c.queue.filterMap Item.job?) left := by
  have hlen : c'.tickets.length = c.tickets.length := by
    rw [ht, tickets_loseCalls, length_lostTickets]
  have hqueue := (map_job?_fst c.queue).symm
  have hsettled : ∀ t, c.fate t ≠ .waiting → c'.fate t = c.fate t := fun t hne =>
    (fate_of_tickets ht t).trans (fate_loseCalls_of_ne_waiting hne)
  have hkept : (c.jobs ++ (returned ++ discarded)).Perm
      (c'.jobs ++ (returned ++ (discarded ++ c.queue.filterMap Item.job?))) := by
    classical
    rw [← hj, List.perm_iff_count]
    intro y
    simp only [List.count_append]
    omega
  constructor
  case numbered => rw [hlen, h.numbered]
  case kept => exact h.kept.trans hkept
  case begun => exact hu ▸ h.begun
  case gone =>
    intro t hl
    obtain ⟨hlt, hf⟩ := h.gone t hl
    rw [hlen, hsettled t (by rw [hf]; exact Fate.noConfusion)]
    exact ⟨hlt, hf⟩
  case waiting =>
    intro y hy
    -- What a pump has does not stand in the queue too.
    have hnot : y.1 ∉ c.queue.filterMap Item.ticket? := by
      have hnodup := h.nodup
      rw [← hj, List.append_assoc, List.map_append, List.nodup_append] at hnodup
      rw [hqueue]
      exact fun hmem => hnodup.2.2 y.1 hmem y.1
        (List.mem_map_of_mem (List.mem_append_left _ hy)) rfl
    rw [fate_of_tickets ht, fate_loseCalls_of_notMem hnot]
    exact h.waiting y (hj ▸ List.mem_append_right _ hy)
  case answered =>
    intro y hy
    refine (h.answered y hy).imp_right fun hf => ?_
    rw [hsettled y.1 (by rw [hf]; exact Fate.noConfusion), hf]
  case lost =>
    intro y hy
    rcases List.mem_append.mp hy with hy | hy
    · refine (h.lost y hy).imp_right fun hf => ?_
      rw [hsettled y.1 (by rw [hf]; exact Fate.noConfusion), hf]
    · refine (h.waiting y (hj ▸ List.mem_append_left _ hy)).imp_right fun hf => ?_
      rw [fate_of_tickets ht]
      exact fate_loseCalls_of_mem (hqueue ▸ List.mem_map_of_mem hy) hf

theorem leave (h : Tally c made called returned discarded left) (hlt : t < c.tickets.length)
    (ht : c'.tickets = (c.dropCall t).tickets) (hj : c'.jobs = c.jobs)
    (hu : c'.underway = c.underway) :
    Tally c' made called returned discarded (left ++ [t]) := by
  have hlen : c'.tickets.length = c.tickets.length := by
    rw [ht]
    exact List.length_modify ..
  have hkept : ∀ k f, k ∈ left ∨ c.fate k = f → k ∈ left ++ [t] ∨ c'.fate k = f := by
    intro k f hk
    by_cases he : k = t
    · exact .inl (List.mem_append_right _ (List.mem_singleton.mpr he))
    · rw [fate_of_tickets ht, fate_dropCall_of_ne he]
      exact hk.imp_left (List.mem_append_left _)
  constructor
  case numbered => rw [hlen, h.numbered]
  case kept => exact hj ▸ h.kept
  case begun => exact hu ▸ h.begun
  case gone =>
    intro k hk
    rw [hlen, fate_of_tickets ht]
    by_cases he : k = t
    · rw [he]
      exact ⟨hlt, fate_dropCall_self⟩
    · rw [fate_dropCall_of_ne he]
      exact h.gone k ((List.mem_append.mp hk).resolve_right fun h => he (List.mem_singleton.mp h))
  case waiting => exact fun x hx => hkept _ _ (h.waiting x (hj ▸ hx))
  case answered => exact fun x hx => hkept _ _ (h.answered x hx)
  case lost => exact fun x hx => hkept _ _ (h.lost x hx)

/-- The books are right after each operation. -/
theorem step (h : Tally c made called returned discarded left)
    (hs : CallStep c c' made' called' returned' discarded' left') :
    Tally c' (made ++ made') (called ++ called') (returned ++ returned') (discarded ++ discarded')
      (left ++ left') := by
  cases hs with
  | stay hc =>
      simp only [List.append_nil]
      exact h.carry hc.tickets hc.jobs (h.begun.trans (hc.underway.symm.append_right _))
  | make owner job ht hj hu =>
      simp only [List.append_nil]
      exact h.make ht hj hu
  | begin x ht hj hu =>
      simp only [List.append_nil]
      refine h.carry ht hj ((List.perm_append_singleton _ _).trans ((h.begun.cons x).trans ?_))
      exact hu.symm.append_right _
  | atOnce x ht hj hu =>
      simp only [List.append_nil]
      refine h.settle ht hj ?_
      rw [← List.append_assoc]
      exact (h.begun.trans (hu.symm.append_right _)).append_right _
  | finish x ht hj hu =>
      simp only [List.append_nil]
      refine h.settle ht hj (h.begun.trans ((hu.symm.append_right _).trans ?_))
      rw [List.cons_append, ← List.append_assoc]
      exact (List.perm_append_singleton _ _).symm
  | clear ht hj hu =>
      simp only [List.append_nil]
      exact h.clear ht hj hu
  | leave t hlt ht hj hu =>
      simp only [List.append_nil]
      exact h.leave hlt ht hj hu

/-- What has become of a call that was made. -/
theorem cases_of_mem (h : Tally c made called returned discarded left) (hx : x ∈ made) :
    x.1 ∈ left ∧ c.fate x.1 = .dropped ∨ x ∈ c.jobs ∧ c.fate x.1 = .waiting ∨
      x ∈ returned ∧ c.fate x.1 = .answered x.2.value ∨ x ∈ discarded ∧ c.fate x.1 = .lost := by
  by_cases hl : x.1 ∈ left
  · exact .inl ⟨hl, (h.gone x.1 hl).2⟩
  · right
    rcases List.mem_append.mp (h.kept.mem_iff.mp hx) with hj | hmem
    · exact .inl ⟨hj, (h.waiting x hj).resolve_left hl⟩
    · rcases List.mem_append.mp hmem with hr | hd
      · exact .inr (.inl ⟨hr, (h.answered x hr).resolve_left hl⟩)
      · exact .inr (.inr ⟨hd, (h.lost x hd).resolve_left hl⟩)

theorem underway_sublist (c : Conversation) : c.underway.Sublist c.jobs := by
  refine List.Sublist.trans ?_ (List.sublist_append_right _ _)
  rw [underway]
  induction c.pumps with
  | nil => exact List.Sublist.refl _
  | cons p rest ih =>
      rw [filterMap_cons_toList, filterMap_cons_toList]
      refine List.Sublist.append ?_ ih
      cases hs : p.stage.underway? with
      | none => exact List.nil_sublist _
      | some x =>
          rw [PumpStage.job?_of_underway? hs]

/-- What was called is being called or has given its value; both were made. -/
theorem called_sublist (h : Tally c made called returned discarded left) :
    ∃ l, called.Perm l ∧ l.Sublist (c.jobs ++ (returned ++ discarded)) :=
  ⟨_, h.begun, (underway_sublist c).append (List.sublist_append_left _ _)⟩

theorem mem_made_of_called (h : Tally c made called returned discarded left) (hx : x ∈ called) :
    x ∈ made := by
  obtain ⟨l, hp, hsub⟩ := h.called_sublist
  exact h.kept.mem_iff.mpr (hsub.subset (hp.mem_iff.mp hx))

/-- No function is called twice. -/
theorem nodup_called (h : Tally c made called returned discarded left) :
    (called.map Prod.fst).Nodup := by
  obtain ⟨l, hp, hsub⟩ := h.called_sublist
  exact (hp.map Prod.fst).nodup_iff.mpr (h.nodup.sublist (hsub.map Prod.fst))

/-- A function that was thrown away has not been called. -/
theorem notMem_called (h : Tally c made called returned discarded left) (hx : x ∈ discarded) :
    x.1 ∉ called.map Prod.fst := by
  intro hmem
  obtain ⟨y, hy, he⟩ := List.mem_map.mp hmem
  have hnodup := h.nodup
  rw [← List.append_assoc, List.map_append, List.nodup_append] at hnodup
  refine hnodup.2.2 y.1 (List.mem_map_of_mem ?_) x.1 (List.mem_map_of_mem hx) he
  exact ((underway_sublist c).append (List.Sublist.refl _)).subset (h.begun.mem_iff.mp hy)

theorem mem_called_of_returned (h : Tally c made called returned discarded left)
    (hx : x ∈ returned) : x ∈ called :=
  h.begun.mem_iff.mpr (List.mem_append_right _ hx)

/-- A call with a fate was made. -/
theorem exists_made (h : Tally c made called returned discarded left)
    (hf : c.fate t ≠ .dropped) : ∃ job, (t, job) ∈ made := by
  have hmem : t ∈ made.map Prod.fst := by
    rw [h.numbered]
    exact List.mem_range.mpr (lt_of_fate hf)
  obtain ⟨⟨_, job⟩, hx, rfl⟩ := List.mem_map.mp hmem
  exact ⟨job, hx⟩

end Tally

theorem tally_start (settings : Settings) (clock : Clock) :
    Tally (start settings clock) [] [] [] [] [] where
  numbered := rfl
  kept := .refl _
  begun := .refl _
  gone _ h := by cases h
  waiting _ h := by cases h
  answered _ h := by cases h
  lost _ h := by cases h

theorem Tally.after (h : Tally c made called returned discarded left) (ha : c.Attended)
    (history : List Operation) : Tally (c.after history) (made ++ c.gathered makes history)
      (called ++ c.gathered calls history) (returned ++ c.gathered returns history)
      (discarded ++ c.gathered discards history) (left ++ c.gathered abandons history) := by
  induction history generalizing c made called returned discarded left with
  | nil =>
      simp only [gathered, List.append_nil]
      exact h
  | cons op rest ih =>
      have hrest := ih (h.step (callStep_perform ha op)) (ha.perform op)
      simp only [gathered, ← List.append_assoc]
      exact hrest

/-! ## Answers -/

/-- Something was gathered with one of the operations. -/
theorem mem_gathered_iff {α : Type} {yield : Conversation → Operation → List α} {a : α}
    {history : List Operation} : a ∈ c.gathered yield history ↔
      ∃ before op later, history = before ++ op :: later ∧ a ∈ yield (c.after before) op := by
  induction history generalizing c with
  | nil =>
      refine iff_of_false List.not_mem_nil ?_
      rintro ⟨before, op, later, he, -⟩
      cases before <;> cases he
  | cons first rest ih =>
      rw [gathered, List.mem_append, ih]
      constructor
      · rintro (h | ⟨before, op, later, rfl, h⟩)
        · exact ⟨[], first, rest, rfl, h⟩
        · exact ⟨first :: before, op, later, rfl, h⟩
      · rintro ⟨before, op, later, he, h⟩
        cases before with
        | nil =>
            cases he
            exact .inl h
        | cons _ before =>
            cases he
            exact .inr ⟨before, op, later, rfl, h⟩

/-- A function was thrown away when it stood in the queue at a clearing. -/
theorem exists_discarded_iff {history : List Operation} :
    (∃ job, (t, job) ∈ c.gathered discards history) ↔
      ∃ before later, history = before ++ .clear :: later ∧
        t ∈ (c.after before).queue.filterMap Item.ticket? := by
  constructor
  · rintro ⟨job, hx⟩
    obtain ⟨before, op, later, he, hx⟩ := mem_gathered_iff.mp hx
    cases op with
    | clear =>
        refine ⟨before, later, he, ?_⟩
        rw [← map_job?_fst]
        exact List.mem_map_of_mem hx
    | _ => cases hx
  · rintro ⟨before, later, he, ht⟩
    rw [← map_job?_fst] at ht
    obtain ⟨⟨_, job⟩, hx, rfl⟩ := List.mem_map.mp ht
    exact ⟨job, mem_gathered_iff.mpr ⟨before, .clear, later, he, hx⟩⟩

theorem callResult?_eq_ok_iff {v : Json} :
    c.callResult? t = some (.ok v) ↔ c.fate t = .answered v := by
  unfold callResult?
  cases c.fate t <;> simp

theorem callResult?_eq_error_iff {e : RunError} :
    c.callResult? t = some (.error e) ↔ e = .interrupted ∧ c.fate t = .lost := by
  unfold callResult?
  cases c.fate t <;> simp [eq_comm]

/-- Whoever goes away calls no function. -/
theorem calls_of_isLeaving (ho : op.isLeaving = true) : c.calls op = [] := by
  cases op with
  | dropCall | dropWait => rfl
  | _ => cases ho

/-- Without somebody's going away the same would be left, and the same functions called. -/
theorem course_of_stay (before later : List Operation) (ho : op.isLeaving = true) :
    (c.after (before ++ later)).course = (c.after (before ++ op :: later)).course ∧
      c.gathered calls (before ++ later) = c.gathered calls (before ++ op :: later) := by
  have hcourse : (c.after before).course = ((c.after before).perform op).course :=
    (course_of_isLeaving ho).symm
  have hcalls : ∀ (a : Conversation) op', a.calls op' = a.course.calls op' := fun a op' => by
    cases op' <;> rfl
  constructor
  · rw [after_append, after_append]
    exact course_after hcourse later
  · rw [gathered_append, gathered_append, gathered, calls_of_isLeaving ho, List.nil_append,
      gathered_of_course hcalls hcourse]

/-- Each call is answered as its fate says. Its function is called once at most. It gets a value
just if its function has given that value, and an interruption just if its function stood in the
queue when everything was cleared, unless the caller has gone; and then the function is never
called. A caller who goes away takes nothing out of the queue and stops nothing: all that goes on
besides is as if he were still there. -/
theorem calls_are_answered_by_fate (settings : Settings) (clock : Clock)
    (history : List Operation) :
    let c₀ := start settings clock
    let c := c₀.after history
    let made := c₀.gathered makes history
    let called := c₀.gathered calls history
    let returned := c₀.gathered returns history
    let gone := c₀.gathered abandons history
    let Discarded (t : Nat) : Prop := ∃ before later, history = before ++ .clear :: later ∧
      t ∈ (c₀.after before).queue.filterMap Item.ticket?
    (made.map Prod.fst = List.range c.tickets.length ∧ (called.map Prod.fst).Nodup ∧
      ∀ x ∈ called, x ∈ made) ∧
    (∀ t v, c.callResult? t = some (.ok v) →
      ∃ job, (t, job) ∈ called ∧ (t, job) ∈ returned ∧ v = job.value) ∧
    (∀ t job, (t, job) ∈ returned → t ∉ gone → c.callResult? t = some (.ok job.value)) ∧
    (∀ t e, c.callResult? t = some (.error e) → e = .interrupted) ∧
    (∀ t, t ∉ gone → (c.callResult? t = some (.error .interrupted) ↔ Discarded t)) ∧
    (∀ t, Discarded t → t ∉ called.map Prod.fst) ∧
    ∀ before op later, history = before ++ op :: later → op.isLeaving = true →
      (c₀.after (before ++ later)).course = c.course ∧
        c₀.gathered calls (before ++ later) = called := by
  intro c₀ c made called returned gone Discarded
  have h := (tally_start settings clock).after (attended_start settings clock) history
  simp only [List.nil_append] at h
  have hdiscarded : ∀ t, Discarded t ↔ ∃ job, (t, job) ∈ c₀.gathered discards history :=
    fun t => exists_discarded_iff.symm
  refine ⟨⟨h.numbered, h.nodup_called, fun x => h.mem_made_of_called⟩, fun t v hv => ?_,
    fun t job hr hl => ?_, fun t e he => ?_, fun t hl => ?_, fun t ht => ?_,
    fun before op later he ho => ?_⟩
  · rw [callResult?_eq_ok_iff] at hv
    obtain ⟨job, hx⟩ := h.exists_made (t := t) (by rw [hv]; exact Fate.noConfusion)
    rcases h.cases_of_mem hx with ⟨-, hf⟩ | ⟨-, hf⟩ | ⟨hr, hf⟩ | ⟨-, hf⟩
    · cases hv.symm.trans hf
    · cases hv.symm.trans hf
    · cases hv.symm.trans hf
      exact ⟨job, h.mem_called_of_returned hr, hr, rfl⟩
    · cases hv.symm.trans hf
  · exact callResult?_eq_ok_iff.mpr ((h.answered _ hr).resolve_left hl)
  · exact (callResult?_eq_error_iff.mp he).1
  · rw [callResult?_eq_error_iff, hdiscarded]
    constructor
    · rintro ⟨-, hlost⟩
      obtain ⟨job, hx⟩ := h.exists_made (t := t) (by rw [hlost]; exact Fate.noConfusion)
      rcases h.cases_of_mem hx with ⟨-, hf⟩ | ⟨-, hf⟩ | ⟨-, hf⟩ | ⟨hd, -⟩
      · cases hlost.symm.trans hf
      · cases hlost.symm.trans hf
      · cases hlost.symm.trans hf
      · exact ⟨job, hd⟩
    · rintro ⟨job, hd⟩
      exact ⟨rfl, (h.lost _ hd).resolve_left hl⟩
  · obtain ⟨job, hd⟩ := (hdiscarded t).mp ht
    exact h.notMem_called hd
  · subst he
    exact course_of_stay before later ho

/-- One function runs and two stand in the queue when everything is cleared; the caller of the first
of these has gone. The one that runs gives its value all the same. -/
example : let c := (start .standard .stepped).after [.call 0 (.host "one" 5 (.bool true)),
      .call 1 (.host "two" 0 .null), .call 2 (.host "three" 0 .null), .stepPump 0, .dropCall 1,
      .clear, .pass 5, .stepPump 0]
    c.callResult? 0 = some (.ok (.bool true)) ∧ c.callResult? 1 = none ∧
      c.callResult? 2 = some (.error .interrupted) :=
  ⟨rfl, rfl, rfl⟩

end Conversation

end Dialogue
