import Dialogue.Proofs.Input.Tickets
import Dialogue.Proofs.Queue.Order
/-!
# What can happen to the list and the queue

Few operations concern the list of messages, the queue and its pumps: an item is put in, a message
is added or replaced, a pump takes a step, or everything is cleared. This is said once, so that an
invariant of the list and the queue is shown for these few changes only.

* `pumpStep_stepPump` — what one step of a pump can be.
* `perform_board_cases` — what an operation can be, together with the items that it queues.
* `mem_jobs_perform` — functions are carried that were carried before or that are queued now.
-/

namespace Dialogue

/-- Is the item of the pump being worked on? A pump that is through with its item has not looked for
the next one. -/
def PumpStage.isBusy : PumpStage → Bool
  | .taken _ | .typing _ _ _ | .calling _ _ _ => true
  | .through _ _ | .ended => false

theorem PumpStage.isSome_work? {stage : PumpStage} (h : stage.isBusy = true) :
    stage.work?.isSome := by
  cases stage with
  | taken | typing | calling => rfl
  | through | ended => cases h

/-- The function in the queue with its ticket. -/
def Item.job? : Item → Option (Nat × Job)
  | .message _ => none
  | .call ticket job => some (ticket, job)

/-- The function that a pump has in its hands and has not finished, with its ticket. -/
def PumpStage.job? : PumpStage → Option (Nat × Job)
  | .taken (.call ticket job) => some (ticket, job)
  | .calling ticket job _ => some (ticket, job)
  | _ => none

theorem PumpStage.job?_taken (i : Item) (placeholder : Nat) :
    (PumpStage.taken (i.work placeholder)).job? = i.job? := by
  cases i <;> rfl

namespace Conversation

variable {c c' : Conversation} {n : Nat} {p : Pump}

/-! ## The list, the queue and the pumps -/

/-- The queue of a conversation together with its messages. -/
structure Board where
  dispatch : Dispatch
  messages : List Message

/-- The queue of a conversation, its pumps and its messages. -/
def board (c : Conversation) : Board := ⟨c.dispatch, c.messages⟩

theorem board_of_ledger (h : c'.ledger = c.ledger) : c'.board = c.board := by
  obtain ⟨hd, hm, -⟩ := Ledger.mk.inj h
  rw [board, board, hd, hm]

/-- What is in flight depends on the pumps and the generation only. -/
theorem inFlight_of_dispatch (h : c'.dispatch = c.dispatch) : c'.inFlight = c.inFlight := by
  obtain ⟨-, -, hg, hps⟩ := Dispatch.mk.inj h
  rw [inFlight, inFlight, live, live, hg, hps]

/-- The pumps when one of them has come to another stage. -/
theorem mem_pumps_setStage {stage : PumpStage} {q : Pump} (hn : c.pumps[n]? = some p)
    (hq : q ∈ (c.setStage n stage).pumps) : q = { p with stage } ∨ q ∈ c.pumps := by
  obtain ⟨before, after, hc, hset⟩ := exists_pumps_eq hn
  rw [hset, List.mem_append, List.mem_cons] at hq
  rw [hc, List.mem_append, List.mem_cons]
  rcases hq with hq | hq | hq
  · exact .inr (.inl hq)
  · exact .inl hq
  · exact .inr (.inr (.inr hq))

/-- What is in flight when a pump has come to another stage: its own item, or what was. -/
theorem mem_inFlight_setStage {stage : PumpStage} {w : Work} (hn : c.pumps[n]? = some p)
    (hw : w ∈ (c.setStage n stage).inFlight) :
    (p.generation = c.generation ∧ stage.work? = some w) ∨ w ∈ c.inFlight := by
  obtain ⟨q, hq, hwork⟩ := List.mem_filterMap.mp hw
  obtain ⟨hq, hlive⟩ := List.mem_filter.mp hq
  rcases mem_pumps_setStage hn hq with rfl | hq
  · simp only [Pump.isLive, Bool.and_eq_true, decide_eq_true_eq] at hlive
    exact .inl ⟨hlive.1, hwork⟩
  · exact .inr (List.mem_filterMap.mpr ⟨q, List.mem_filter.mpr ⟨hq, hlive⟩, hwork⟩)

/-- The item of a pump of the present generation is in flight. -/
theorem mem_inFlight {w : Work} (hn : c.pumps[n]? = some p) (hg : p.generation = c.generation)
    (hw : p.stage.work? = some w) : w ∈ c.inFlight := by
  refine List.mem_filterMap.mpr ⟨p, List.mem_filter.mpr ⟨List.mem_of_getElem? hn, ?_⟩, hw⟩
  simp [Pump.isLive, hg, hw]

/-! ## Steps of a pump -/

/-- What one step of a pump can be for the list and the queue. -/
inductive PumpStep (c : Conversation) (n : Nat) (c' : Conversation) : Prop where
  | stay (hb : c'.board = c.board)
  /-- It goes on with its item. What is delivered then is not a message. -/
  | goOn (stage : PumpStage) (es : List Event) {p : Pump} (hn : c.pumps[n]? = some p)
    (hp : p.stage.work?.isSome) (hw : stage.work? = p.stage.work?)
    (ht : stage.told = p.stage.told ++ es) (hbusy : stage.isBusy → p.stage.isBusy)
    (hjob : ∀ x, stage.job? = some x → p.stage.job? = some x)
    (hd : ∀ w, stage.delivered? = some w → w.place? = none)
    (hb : c'.board = (c.setStage n stage).board)
  /-- Its message takes its place. -/
  | deliver {d : Delivery} {placeholder due : Nat} {news : Option Message}
    (hn : c.pumps[n]? = some ⟨c.generation, .typing d placeholder due⟩)
    (hb : c'.board = ((c.replaceAt placeholder d.payload).setStage n
      (.through (.message d placeholder) news)).board)
  /-- It notices that the conversation was cleared. -/
  | leave {p : Pump} (hn : c.pumps[n]? = some p) (hg : c.generation ≠ p.generation)
    (hb : c'.board = (c.setStage n .ended).board)
  /-- It finds the queue empty. -/
  | stop {w : Work} {news : Option Message}
    (hn : c.pumps[n]? = some ⟨c.generation, .through w news⟩) (hq : c.queue = [])
    (hb : c'.board = ({ c with pumping := false }.setStage n .ended).board)
  /-- It takes the head of the queue. -/
  | take {w : Work} {news : Option Message} {i : Item} {rest : List Item}
    (hn : c.pumps[n]? = some ⟨c.generation, .through w news⟩) (hq : c.queue = i :: rest)
    (hb : c'.board = (({ c with queue := rest }.makeRoom i).setStage n
      (.taken (i.work c.messages.length))).board)

theorem pumpStep_beginWork {g : Nat} {w : Work} (hn : c.pumps[n]? = some ⟨g, .taken w⟩) :
    PumpStep c n (c.beginWork n w) := by
  cases w with
  | message d placeholder =>
      refine .goOn (.typing d placeholder _) [] hn rfl rfl rfl id
        (fun _ h => by cases h) ?_ rfl
      intro w hw
      cases hw
  | call ticket job =>
      cases job with
      | openInput =>
          -- The field is opened at once, and the host is told nothing of it.
          refine .goOn (.through (.call ticket .openInput) none) [] hn rfl rfl rfl
            (fun h => by cases h) (fun _ h => by cases h) ?_ rfl
          intro w hw
          cases hw
          rfl
      | host name duration value =>
          refine .goOn (.calling ticket (.host name duration value) _) [.called name] hn rfl rfl
            rfl id (fun _ h => h) ?_ rfl
          intro w hw
          cases hw

theorem pumpStep_finishTyping {g placeholder due : Nat} {d : Delivery}
    (hn : c.pumps[n]? = some ⟨g, .typing d placeholder due⟩) :
    PumpStep c n (c.finishTyping n g d placeholder) := by
  unfold finishTyping
  split
  case isTrue hg => exact .leave hn hg rfl
  case isFalse hg =>
    obtain rfl : c.generation = g := by simpa using hg
    exact .deliver hn rfl

theorem pumpStep_finishCall {g ticket due : Nat} {job : Job}
    (hn : c.pumps[n]? = some ⟨g, .calling ticket job due⟩) :
    PumpStep c n (c.finishCall n ticket job) := by
  refine .goOn (.through (.call ticket job) none) [] hn rfl rfl
    (List.append_nil _).symm (fun h => by cases h) (fun _ h => by cases h) ?_ rfl
  intro w hw
  cases hw
  rfl

theorem pumpStep_nextItem {g : Nat} {w : Work} {news : Option Message}
    (hn : c.pumps[n]? = some ⟨g, .through w news⟩) :
    PumpStep c n ((c.tell news).nextItem n g) := by
  have hqueue : (c.tell news).queue = c.queue := by cases news <;> rfl
  have hgen : (c.tell news).generation = c.generation := by cases news <;> rfl
  by_cases hg : c.generation = g
  · subst hg
    rw [← hgen]
    rcases hq : c.queue with _ | ⟨i, rest⟩
    · rw [nextItem_nil (hqueue.trans hq)]
      exact .stop hn hq (by cases news <;> rfl)
    · rw [nextItem_cons (hqueue.trans hq)]
      exact .take hn hq (by cases news <;> rfl)
  · rw [nextItem_of_ne (hgen.symm ▸ hg)]
    exact .leave hn hg (by cases news <;> rfl)

theorem pumpStep_stepPump (c : Conversation) (n : Nat) : PumpStep c n (c.stepPump n) := by
  unfold stepPump
  split
  case h_1 g w hn => exact pumpStep_beginWork hn
  case h_2 g d placeholder due hn =>
    split
    · exact pumpStep_finishTyping hn
    · exact .stay rfl
  case h_3 g ticket job due hn =>
    split
    · exact pumpStep_finishCall hn
    · exact .stay rfl
  case h_4 g w news hn => exact pumpStep_nextItem hn
  case h_5 => exact .stay rfl

/-! ## Operations -/

/-- The payloads that an operation puts into the list at once. -/
def puts (c : Conversation) : Operation → List Payload
  | .add p => [p]
  | .replace p => [p]
  | .addFrom text => [.from text c.fixLabel]
  | _ => []

/-- To show something of the list and the queue after an operation, together with the items that the
operation queues, it is enough to look at the few things that can happen to these. -/
theorem perform_board_cases {P : Conversation → List Item → Prop} (hw : c.WorkedOff)
    (op : Operation)
    (frame : ∀ a b items, a.board = b.board → P b items → P a items)
    (stay : P c [])
    (push : ∀ a items i, a.WorkedOff → P a items → P (a.push i) (items ++ [i]))
    (add : ∀ m : Message, m.payload ∈ c.puts op → P { c with messages := c.messages ++ [m] } [])
    (replace : ∀ p, op = .replace p → P (c.replaceLast p) [])
    (clear : op = .clear → P c.clear [])
    (stepPump : ∀ n, op = .stepPump n → P (c.stepPump n) []) :
    P (c.perform op) (c.enqueues op) := by
  have hlead : ∀ lead,
      P (c.addLead lead) (lead.toList.map fun t => .message ⟨.to t, none, none⟩) := by
    intro lead
    cases lead with
    | none => exact stay
    | some text => exact push c [] _ hw stay
  have hcall : ∀ (a : Conversation) owner job, a.board = c.board →
      a.tickets.length = c.tickets.length →
      P (a.call owner job) [.call c.tickets.length job] := by
    intro a owner job hb hlen
    have ha : ({ a with tickets := a.tickets ++ [⟨owner, .waiting⟩] } : Conversation).WorkedOff :=
      hw.of_dispatch (congrArg Board.dispatch hb)
    rw [← hlen]
    exact push _ [] _ ha (frame _ c [] hb stay)
  cases op with
  | queue p hook => exact push c [] _ hw stay
  | queueFrom text => exact push c [] _ hw stay
  | addOptions lead items selected multi =>
      obtain ⟨hlabel, hfixme⟩ := fixme_addLead hw lead
      rw [enqueues, ← hlabel, ← hfixme]
      exact push _ _ _ (hw.addLead lead) (hlead lead)
  | addUploader lead options => exact push _ _ _ (hw.addLead lead) (hlead lead)
  | add p => exact add (c.newMessage p) List.mem_cons_self
  | addFrom text =>
      have hadd := add (c.newMessage (.from text c.fixLabel)) List.mem_cons_self
      exact frame _ (c.add (.from text c.fixLabel)) [] rfl hadd
  | replace p => exact replace p rfl
  | clear => exact clear rfl
  | stepPump n => exact stepPump n rfl
  | call owner job => exact hcall c owner job rfl rfl
  | beginWait owner enable =>
      cases enable with
      | true => exact hcall _ owner .openInput rfl rfl
      | false => exact frame _ c [] (board_of_ledger (ledger_listen _ _)) stay
  | dropCall ticket =>
      show P (if c.heldByWait ticket then c else c.dropCall ticket) []
      split
      · exact stay
      · exact frame _ c [] rfl stay
  | dropWait n => exact frame _ c [] (board_of_ledger (ledger_dropWait c n)) stay
  | stepNotice n => exact frame _ c [] (board_of_ledger (ledger_stepNotice c n)) stay
  | stepWait n => exact frame _ c [] (board_of_ledger (ledger_stepWait c n)) stay
  | report | setSettings | setTimeout | setFixme | setValidator | setInput | useFixme | pass =>
      exact frame _ c [] rfl stay

/-! ## The functions that are carried -/

/-- The functions that stand in the queue or that a pump has not finished, with their tickets. -/
def jobs (c : Conversation) : List (Nat × Job) :=
  c.queue.filterMap Item.job? ++ c.pumps.filterMap fun p => p.stage.job?

variable {x : Nat × Job}

theorem mem_jobs_iff : x ∈ c.jobs ↔
    (∃ i ∈ c.queue, i.job? = some x) ∨ ∃ p ∈ c.pumps, p.stage.job? = some x := by
  rw [jobs, List.mem_append, List.mem_filterMap, List.mem_filterMap]

theorem jobs_of_dispatch (h : c'.dispatch = c.dispatch) : c'.jobs = c.jobs := by
  obtain ⟨hq, -, -, hps⟩ := Dispatch.mk.inj h
  rw [jobs, jobs, hq, hps]

theorem mem_carried_of_mem_jobs (h : x ∈ c.jobs) : x.1 ∈ c.carried := by
  rcases mem_jobs_iff.mp h with ⟨i, hi, hx⟩ | ⟨p, hp, hx⟩
  · refine List.mem_append_left _ (List.mem_filterMap.mpr ⟨i, hi, ?_⟩)
    cases i with
    | message d => cases hx
    | call ticket job =>
        cases hx
        rfl
  · refine List.mem_append_right _ (List.mem_filterMap.mpr ⟨p, hp, ?_⟩)
    obtain ⟨g, stage⟩ := p
    cases stage with
    | typing | through | ended => cases hx
    | calling ticket job due =>
        cases hx
        rfl
    | taken w =>
        cases w with
        | message d placeholder => cases hx
        | call ticket job =>
            cases hx
            rfl

theorem mem_jobs_setStage {stage : PumpStage} (hn : c.pumps[n]? = some p)
    (h : x ∈ (c.setStage n stage).jobs) : stage.job? = some x ∨ x ∈ c.jobs := by
  rcases mem_jobs_iff.mp h with hq | ⟨q, hq, hx⟩
  · exact .inr (mem_jobs_iff.mpr (.inl hq))
  · rcases mem_pumps_setStage hn hq with rfl | hq
    · exact .inl hx
    · exact .inr (mem_jobs_iff.mpr (.inr ⟨q, hq, hx⟩))

theorem mem_jobs_stepPump (h : x ∈ (c.stepPump n).jobs) : x ∈ c.jobs := by
  have hstep := pumpStep_stepPump c n
  generalize c.stepPump n = c' at hstep h
  cases hstep with
  | stay hb => exact jobs_of_dispatch (congrArg Board.dispatch hb) ▸ h
  | goOn stage _ hn hp hw ht hbusy hjob hd hb =>
      rw [jobs_of_dispatch (congrArg Board.dispatch hb)] at h
      rcases mem_jobs_setStage hn h with hx | h
      · exact mem_jobs_iff.mpr (.inr ⟨_, List.mem_of_getElem? hn, hjob x hx⟩)
      · exact h
  | @deliver d placeholder due news hn hb =>
      rw [jobs_of_dispatch (congrArg Board.dispatch hb)] at h
      exact (mem_jobs_setStage (c := c.replaceAt placeholder d.payload) hn h).resolve_left nofun
  | leave hn hg hb =>
      rw [jobs_of_dispatch (congrArg Board.dispatch hb)] at h
      exact (mem_jobs_setStage hn h).resolve_left nofun
  | stop hn hq hb =>
      rw [jobs_of_dispatch (congrArg Board.dispatch hb)] at h
      exact (mem_jobs_setStage (c := { c with pumping := false }) hn h).resolve_left nofun
  | @take w news i rest hn hq hb =>
      rw [jobs_of_dispatch (congrArg Board.dispatch hb)] at h
      rcases mem_jobs_setStage (c := { c with queue := rest }.makeRoom i) hn h with hx | h
      · rw [PumpStage.job?_taken] at hx
        exact mem_jobs_iff.mpr (.inl ⟨i, hq ▸ List.mem_cons_self, hx⟩)
      · rcases mem_jobs_iff.mp h with ⟨j, hj, hx⟩ | hp
        · exact mem_jobs_iff.mpr (.inl ⟨j, hq ▸ List.mem_cons_of_mem _ hj, hx⟩)
        · exact mem_jobs_iff.mpr (.inr hp)

theorem mem_jobs_push (hw : c.WorkedOff) {i : Item} (h : x ∈ (c.push i).jobs) :
    x ∈ c.jobs ∨ i.job? = some x := by
  cases hp : c.pumping with
  | true =>
      rw [push_of_pumping hp] at h
      rcases mem_jobs_iff.mp h with ⟨j, hj, hx⟩ | h
      · rcases List.mem_append.mp hj with hj | hj
        · exact .inl (mem_jobs_iff.mpr (.inl ⟨j, hj, hx⟩))
        · rw [List.mem_singleton.mp hj] at hx
          exact .inr hx
      · exact .inl (mem_jobs_iff.mpr (.inr h))
  | false =>
      rw [push_of_idle hp (hw.queue_nil hp)] at h
      rcases mem_jobs_iff.mp h with ⟨j, hj, -⟩ | ⟨q, hq, hx⟩
      · cases hj
      · rcases List.mem_append.mp hq with hq | hq
        · exact .inl (mem_jobs_iff.mpr (.inr ⟨q, hq, hx⟩))
        · rw [List.mem_singleton.mp hq, PumpStage.job?_taken] at hx
          exact .inr hx

/-- A function that is carried after an operation was carried before, or the operation has queued
it. -/
theorem mem_jobs_perform (hw : c.WorkedOff) {op : Operation} (h : x ∈ (c.perform op).jobs) :
    x ∈ c.jobs ∨ x ∈ (c.enqueues op).filterMap Item.job? := by
  revert h
  apply perform_board_cases (P := fun c' items =>
    x ∈ c'.jobs → x ∈ c.jobs ∨ x ∈ items.filterMap Item.job?) hw op
  case frame =>
    intro a b items hb ih h
    exact ih (jobs_of_dispatch (congrArg Board.dispatch hb) ▸ h)
  case stay => exact .inl
  case add => exact fun _ _ => .inl
  case replace => exact fun _ _ => .inl
  case push =>
    intro a items i ha ih h
    rw [List.filterMap_append, List.mem_append]
    rcases mem_jobs_push ha h with h | h
    · exact (ih h).imp_right .inl
    · exact .inr (.inr (List.mem_filterMap.mpr ⟨i, List.mem_cons_self, h⟩))
  case clear =>
    intro _ h
    obtain ⟨hq, -, -, hps⟩ := Dispatch.mk.inj (dispatch_clear c)
    rw [jobs, hq, hps] at h
    exact .inl (List.mem_append_right _ h)
  case stepPump => exact fun n _ h => .inl (mem_jobs_stepPump h)

/-- A function that an operation queues has a new ticket. -/
theorem eq_of_mem_enqueues {op : Operation} (h : x ∈ (c.enqueues op).filterMap Item.job?) :
    x.1 = c.tickets.length := by
  cases op with
  | call owner job => exact congrArg Prod.fst (List.mem_singleton.mp h)
  | beginWait owner enable =>
      cases enable with
      | true => exact congrArg Prod.fst (List.mem_singleton.mp h)
      | false => cases h
  | addOptions lead | addUploader lead => cases lead <;> cases h
  | _ => cases h

end Conversation

end Dialogue
