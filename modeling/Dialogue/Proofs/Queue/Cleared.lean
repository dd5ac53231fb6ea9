import Dialogue.Proofs.Queue.Alike
import Dialogue.Proofs.Queue.Steps
/-!
# What is left of a conversation that was cleared

`clear` empties the list and the queue, but the pumps that are at work go on. Nothing that they do
can be seen in the list, the queue and the journal, unless a function was called already.

* `alike_clear` — it makes no difference whether the pumps go on that have a message.
* `notMem_gathered_starts` — a function that was thrown away is never called.
* `mem_offered_perform` — what comes to stand in the list was put into it or queued.
* `clear_leaves_nothing` — so nothing that was queued before clearing reaches the list afterwards.
-/

namespace Dialogue

/-- The pump after it has put a message out of its hands. -/
def Pump.dropDelivery (p : Pump) : Pump :=
  if p.holdsMessage then { p with stage := .ended } else p

theorem Pump.holdsMessage_dropDelivery (p : Pump) : p.dropDelivery.holdsMessage = false := by
  unfold dropDelivery
  split
  case isTrue => rfl
  case isFalse h => simpa using h

namespace Conversation

variable {c c' : Conversation} {n t : Nat} {p : Pump} {stage : PumpStage} {q : Payload}

/-! ## Ending the deliveries -/

/-- The pumps that have a message in their hands end. -/
def dropDeliveries (c : Conversation) : Conversation :=
  { c with pumps := c.pumps.map Pump.dropDelivery }

/-- Nothing depends on pumps of earlier generations that have a message in their hands. -/
theorem Alike.dropDeliveries (hg : ∀ p ∈ c.pumps, p.generation < c.generation) :
    Alike c c.dropDeliveries := by
  refine ⟨⟨_, c.notices, c.sent, c.journal, c.signals⟩, rfl, List.length_map _, fun n p hp => ?_⟩
  refine ⟨p.dropDelivery, ?_, ?_⟩
  · show (c.pumps.map Pump.dropDelivery)[n]? = _
    rw [List.getElem?_map, hp]
    rfl
  · unfold Pump.dropDelivery
    split
    case isTrue hm => exact .inr ⟨hm, hg p (List.mem_of_getElem? hp), rfl⟩
    case isFalse => exact .inl rfl

theorem alike_clear (hw : c.WorkedOff) : Alike c.clear c.clear.dropDeliveries := by
  obtain ⟨-, -, hgen, hps⟩ := Dispatch.mk.inj (dispatch_clear c)
  refine Alike.dropDeliveries fun p hp => ?_
  rw [hgen]
  exact Nat.lt_succ_of_le (hw.generation_le p (hps ▸ hp))

/-! ## Functions that are called -/

/-- The ticket of the function that an operation begins to call. -/
def starts (c : Conversation) : Operation → List Nat
  | .stepPump n =>
    match c.pumps[n]? with
    | some ⟨_, .taken (.call ticket _)⟩ => [ticket]
    | _ => []
  | _ => []

/-- A function that is begun was carried. -/
theorem exists_mem_jobs_of_starts {op : Operation} (h : t ∈ c.starts op) :
    ∃ job, (t, job) ∈ c.jobs := by
  cases op with
  | stepPump n =>
      rw [starts] at h
      split at h
      case h_1 g ticket job hn =>
        obtain rfl := List.mem_singleton.mp h
        exact ⟨job, mem_jobs_iff.mpr (.inr ⟨_, List.mem_of_getElem? hn, rfl⟩)⟩
      case h_2 => cases h
  | _ => cases h

/-- A function that is carried by nobody is not called any more. -/
theorem notMem_gathered_starts (hw : c.WorkedOff) (ht : t < c.tickets.length)
    (hc : ∀ job, (t, job) ∉ c.jobs) (history : List Operation) :
    t ∉ c.gathered starts history := by
  induction history generalizing c with
  | nil => exact List.not_mem_nil
  | cons op rest ih =>
      rw [gathered, List.mem_append, not_or]
      constructor
      · intro h
        obtain ⟨job, hmem⟩ := exists_mem_jobs_of_starts h
        exact hc job hmem
      · refine ih (hw.perform op) ?_ fun job hmem => ?_
        · exact Nat.lt_of_lt_of_le ht (length_tickets_perform hw op)
        · rcases mem_jobs_perform hw hmem with hmem | hmem
          · exact hc job hmem
          · exact Nat.ne_of_lt ht (eq_of_mem_enqueues hmem)

/-- Clearing takes the functions out of the queue, and no pump has one of these. -/
theorem notMem_carried_clear (h : c.Carried) (ht : t ∈ c.queue.filterMap Item.ticket?) :
    t ∉ c.clear.carried := by
  obtain ⟨hq, -, -, hps⟩ := Dispatch.mk.inj (dispatch_clear c)
  rw [carried, hq, hps, List.filterMap_nil, List.nil_append]
  exact fun hmem => (List.nodup_append.mp h.nodup).2.2 t ht t hmem rfl

/-! ## What can come to stand in the list -/

/-- What an item brings into the list: a message has a placeholder first. -/
def shows : Item → List Payload
  | .message d => [.typing, d.payload]
  | .call _ _ => []

/-- What an operation brings into the list, now or later. -/
def shown (c : Conversation) (op : Operation) : List Payload :=
  c.puts op ++ (c.enqueues op).flatMap shows

/-- What stands in the list, and what queued items and those in flight bring into it. -/
def offered (c : Conversation) : List Payload :=
  c.messages.map Message.payload ++ (c.queue ++ c.inFlight.map Work.item).flatMap shows

theorem mem_offered_iff : q ∈ c.offered ↔
    (∃ m ∈ c.messages, m.payload = q) ∨ (∃ i ∈ c.queue, q ∈ shows i) ∨
      ∃ w ∈ c.inFlight, q ∈ shows w.item := by
  simp [offered]

theorem offered_of_board (h : c'.board = c.board) : c'.offered = c.offered := by
  obtain ⟨hd, hm⟩ := Board.mk.inj h
  have hq : c'.queue = c.queue := congrArg Dispatch.queue hd
  rw [offered, offered, hm, inFlight_of_dispatch hd, hq]

/-- What stands in the list when room is made for an item. -/
theorem mem_makeRoom {i : Item} {m : Message} (h : m ∈ (c.makeRoom i).messages) :
    m ∈ c.messages ∨ m.payload ∈ shows i := by
  cases i with
  | message d =>
      rcases List.mem_append.mp h with h | h
      · exact .inl h
      · rw [List.mem_singleton.mp h]
        exact .inr List.mem_cons_self
  | call ticket job => exact .inl h

theorem mem_inFlight_startPump {w v : Work} (h : v ∈ (c.startPump w).inFlight) :
    v ∈ c.inFlight ∨ v = w := by
  obtain ⟨r, hr, hv⟩ := List.mem_filterMap.mp h
  obtain ⟨hr, hlive⟩ := List.mem_filter.mp hr
  rcases List.mem_append.mp hr with hr | hr
  · exact .inl (List.mem_filterMap.mpr ⟨r, List.mem_filter.mpr ⟨hr, hlive⟩, hv⟩)
  · rw [List.mem_singleton.mp hr] at hv
    cases hv
    exact .inr rfl

/-- An item that is put in offers what it shows. -/
theorem mem_offered_push (hw : c.WorkedOff) {i : Item} (h : q ∈ (c.push i).offered) :
    q ∈ c.offered ∨ q ∈ shows i := by
  cases hp : c.pumping with
  | true =>
      rw [push_of_pumping hp] at h
      rcases mem_offered_iff.mp h with hm | ⟨j, hj, hq⟩ | hf
      · exact .inl (mem_offered_iff.mpr (.inl hm))
      · rcases List.mem_append.mp hj with hj | hj
        · exact .inl (mem_offered_iff.mpr (.inr (.inl ⟨j, hj, hq⟩)))
        · exact .inr (List.mem_singleton.mp hj ▸ hq)
      · exact .inl (mem_offered_iff.mpr (.inr (.inr hf)))
  | false =>
      rw [push_of_idle hp (hw.queue_nil hp)] at h
      rcases mem_offered_iff.mp h with ⟨m, hm, rfl⟩ | ⟨j, hj, -⟩ | ⟨v, hv, hq⟩
      · rcases mem_makeRoom hm with hm | hm
        · exact .inl (mem_offered_iff.mpr (.inl ⟨m, hm, rfl⟩))
        · exact .inr hm
      · cases hj
      · rcases mem_inFlight_startPump hv with hv | rfl
        · exact .inl (mem_offered_iff.mpr (.inr (.inr ⟨v, hv, hq⟩)))
        · rw [Work.item_work] at hq
          exact .inr hq

theorem mem_offered_replaceAt {k : Nat} {r : Payload} (h : q ∈ (c.replaceAt k r).offered) :
    q ∈ c.offered ∨ q = r := by
  rcases mem_offered_iff.mp h with ⟨m, hm, rfl⟩ | hrest
  · have hmem : m ∈ c.messages ∨ m.payload = r := by
      unfold replaceAt at hm
      dsimp only at hm
      split at hm
      · exact (List.mem_or_eq_of_mem_set hm).imp_right (congrArg Message.payload)
      · exact (List.mem_append.mp hm).imp_right fun h =>
          congrArg Message.payload (List.mem_singleton.mp h)
    exact hmem.imp_left fun hm => mem_offered_iff.mpr (.inl ⟨m, hm, rfl⟩)
  · exact .inl (mem_offered_iff.mpr (.inr hrest))

theorem mem_offered_setStage (hn : c.pumps[n]? = some p)
    (h : q ∈ (c.setStage n stage).offered) : q ∈ c.offered ∨
      ∃ w, p.generation = c.generation ∧ stage.work? = some w ∧ q ∈ shows w.item := by
  rcases mem_offered_iff.mp h with hm | hj | ⟨w, hw, hq⟩
  · exact .inl (mem_offered_iff.mpr (.inl hm))
  · exact .inl (mem_offered_iff.mpr (.inr (.inl hj)))
  · rcases mem_inFlight_setStage hn hw with ⟨hg, hstage⟩ | hw
    · exact .inr ⟨w, hg, hstage, hq⟩
    · exact .inl (mem_offered_iff.mpr (.inr (.inr ⟨w, hw, hq⟩)))

/-- A pump brings nothing into the list that was not offered. -/
theorem mem_offered_stepPump (h : q ∈ (c.stepPump n).offered) : q ∈ c.offered := by
  have hstep := pumpStep_stepPump c n
  generalize c.stepPump n = c' at hstep h
  cases hstep with
  | stay hb => exact offered_of_board hb ▸ h
  | goOn stage _ hn hp hw ht hbusy hjob hd hb =>
      rw [offered_of_board hb] at h
      rcases mem_offered_setStage hn h with h | ⟨w, hg, hstage, hq⟩
      · exact h
      · exact mem_offered_iff.mpr
          (.inr (.inr ⟨w, mem_inFlight hn hg (hw ▸ hstage), hq⟩))
  | @deliver d placeholder due news hn hb =>
      -- Only a pump of the present generation delivers, and its message is in flight.
      have hflight : .message d placeholder ∈ c.inFlight := mem_inFlight hn rfl rfl
      have hmem : ∀ r ∈ shows (.message d), r ∈ c.offered := fun r hr =>
        mem_offered_iff.mpr (.inr (.inr ⟨_, hflight, hr⟩))
      rw [offered_of_board hb] at h
      rcases mem_offered_setStage (c := c.replaceAt placeholder d.payload) hn h with
        h | ⟨w, -, hstage, hq⟩
      · rcases mem_offered_replaceAt h with h | rfl
        · exact h
        · exact hmem _ (List.mem_cons_of_mem _ List.mem_cons_self)
      · cases hstage
        exact hmem q hq
  | leave hn hg hb =>
      rw [offered_of_board hb] at h
      rcases mem_offered_setStage hn h with h | ⟨w, -, hstage, -⟩
      · exact h
      · cases hstage
  | stop hn hq hb =>
      rw [offered_of_board hb] at h
      rcases mem_offered_setStage (c := { c with pumping := false }) hn h with
        h | ⟨w, -, hstage, -⟩
      · exact h
      · cases hstage
  | @take w news i rest hn hqueue hb =>
      have hi : ∀ r ∈ shows i, r ∈ c.offered := fun r hr =>
        mem_offered_iff.mpr (.inr (.inl ⟨i, hqueue ▸ List.mem_cons_self, hr⟩))
      rw [offered_of_board hb] at h
      rcases mem_offered_setStage (c := { c with queue := rest }.makeRoom i) hn h with
        h | ⟨v, -, hstage, hq⟩
      · rcases mem_offered_iff.mp h with ⟨m, hm, rfl⟩ | ⟨j, hj, hq⟩ | hf
        · rcases mem_makeRoom hm with hm | hm
          · exact mem_offered_iff.mpr (.inl ⟨m, hm, rfl⟩)
          · exact hi _ hm
        · exact mem_offered_iff.mpr
            (.inr (.inl ⟨j, hqueue ▸ List.mem_cons_of_mem _ hj, hq⟩))
        · exact mem_offered_iff.mpr (.inr (.inr hf))
      · cases hstage
        rw [Work.item_work] at hq
        exact hi q hq

theorem offered_clear (hw : c.WorkedOff) : c.clear.offered = [] := by
  obtain ⟨signals, heq⟩ := clear_eq c
  have hlive : c.clear.live = [] := hw.clear.live_eq_nil (by rw [heq])
  have hmessages : c.clear.messages = [] := by rw [heq]
  have hqueue : c.clear.queue = [] := by rw [heq]
  rw [offered, hmessages, hqueue, inFlight, hlive]
  rfl

theorem mem_offered_perform (hw : c.WorkedOff) {op : Operation} (h : q ∈ (c.perform op).offered) :
    q ∈ c.offered ∨ q ∈ c.shown op := by
  rw [shown, List.mem_append]
  revert h
  apply perform_board_cases (P := fun c' items => q ∈ c'.offered →
    q ∈ c.offered ∨ q ∈ c.puts op ∨ q ∈ items.flatMap shows) hw op
  case frame =>
    intro a b items hb ih h
    exact ih (offered_of_board hb ▸ h)
  case stay => exact .inl
  case push =>
    intro a items i ha ih h
    rw [List.flatMap_append, List.flatMap_singleton, List.mem_append]
    rcases mem_offered_push ha h with h | h
    · exact (ih h).imp_right fun h => h.imp_right .inl
    · exact .inr (.inr (.inr h))
  case add =>
    intro m hputs h
    rcases mem_offered_iff.mp h with ⟨m', hm, rfl⟩ | hrest
    · rcases List.mem_append.mp hm with hm | hm
      · exact .inl (mem_offered_iff.mpr (.inl ⟨m', hm, rfl⟩))
      · rw [List.mem_singleton.mp hm]
        exact .inr (.inl hputs)
    · exact .inl (mem_offered_iff.mpr (.inr hrest))
  case replace =>
    rintro r rfl h
    rcases mem_offered_replaceAt h with h | rfl
    · exact .inl h
    · exact .inr (.inl List.mem_cons_self)
  case clear =>
    intro _ h
    rw [offered_clear hw] at h
    cases h
  case stepPump => exact fun n _ h => .inl (mem_offered_stepPump h)

theorem mem_offered_after (hw : c.WorkedOff) {history : List Operation}
    (h : q ∈ (c.after history).offered) : q ∈ c.offered ∨ q ∈ c.gathered shown history := by
  induction history generalizing c with
  | nil => exact .inl h
  | cons op rest ih =>
      rw [gathered, List.mem_append]
      rcases ih (hw.perform op) h with h | h
      · exact (mem_offered_perform hw h).imp_right .inl
      · exact .inr (.inr h)

/-- Nothing that was queued before clearing comes to stand in the list afterwards. Whatever happens
then, the list, the callbacks of its buttons, the queue and the journal are what they would be if
no pump had a message of earlier in its hands; no function that stood in the queue is called; and
each message in the list is one that was added or queued after clearing, or its placeholder. -/
theorem clear_leaves_nothing (settings : Settings) (clock : Clock)
    (history later : List Operation) :
    let c := (start settings clock).after history
    let bare := c.clear.dropDeliveries
    (bare.messages = [] ∧ bare.queue = [] ∧ ∀ p ∈ bare.pumps, p.holdsMessage = false) ∧
      (let c' := c.clear.after later
       let bare' := bare.after later
       c'.messages = bare'.messages ∧ c'.fixmes = bare'.fixmes ∧ c'.queue = bare'.queue ∧
         c'.pumping = bare'.pumping ∧ c'.journal = bare'.journal) ∧
      (∀ t ∈ c.queue.filterMap Item.ticket?, t ∉ c.clear.gathered starts later) ∧
      ∀ m ∈ (c.clear.after later).messages, m.payload ∈ c.clear.gathered shown later := by
  intro c bare
  have h : c.Attended := (attended_start settings clock).after history
  obtain ⟨signals, heq⟩ := clear_eq c
  refine ⟨⟨?_, ?_, fun p hp => ?_⟩, ?_, fun t ht => ?_, fun m hm => ?_⟩
  · show c.clear.messages = []
    rw [heq]
  · show c.clear.queue = []
    rw [heq]
  · obtain ⟨q, -, rfl⟩ := List.mem_map.mp hp
    exact q.holdsMessage_dropDelivery
  · obtain ⟨⟨x, hx, -⟩, hj⟩ := (alike_clear h.worked).after h.worked.clear later
    refine ⟨?_, ?_, ?_, ?_, (hj rfl).symm⟩
    all_goals
      rw [hx]
      rfl
  · refine notMem_gathered_starts h.worked.clear ?_ (fun job hmem => ?_) later
    case refine_2 => exact notMem_carried_clear h.carried ht (mem_carried_of_mem_jobs hmem)
    exact Nat.lt_of_lt_of_le (h.carried.lt_of_mem t (List.mem_append_left _ ht))
      (length_tickets_perform h.worked .clear)
  · have hmem : m.payload ∈ (c.clear.after later).offered :=
      mem_offered_iff.mpr (.inl ⟨m, hm, rfl⟩)
    rcases mem_offered_after h.worked.clear hmem with hold | hnew
    · rw [offered_clear h.worked] at hold
      cases hold
    · exact hnew

/-- A text is being typed and a function stands behind it. -/
def typingAndFunction : List Operation :=
  [.setTimeout 0, .queue (.to "old") (some (.hook "greeted")), .call 0 (.host "ask" 0 .null),
    .stepPump 0]

/-- Another text is typed, with the pump of the first one still at work. -/
def anotherText : List Operation :=
  [.queue (.to "new") none, .stepPump 1, .stepPump 0, .stepPump 1]

theorem clear_leaves_nothing_of_typing :
    let c := (start .standard .stepped).after typingAndFunction
    c.queue.filterMap Item.ticket? = [0] ∧ 0 ∉ c.clear.gathered starts anotherText ∧
      (c.clear.after anotherText).messages.map Message.payload = [.to "new"] ∧
      ∀ m ∈ (c.clear.after anotherText).messages,
        m.payload ∈ c.clear.gathered shown anotherText := by
  intro c
  obtain ⟨-, -, hstarts, hshown⟩ :=
    clear_leaves_nothing .standard .stepped typingAndFunction anotherText
  have hmessages : (((start .standard .stepped).after typingAndFunction).clear.after
      anotherText).messages.map Message.payload = [.to "new"] := rfl
  exact ⟨rfl, hstarts 0 (List.mem_singleton.mpr rfl), hmessages, hshown⟩

end Conversation

end Dialogue
