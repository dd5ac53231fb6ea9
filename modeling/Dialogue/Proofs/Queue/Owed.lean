import Dialogue.Proofs.Queue.Order
/-!
# Entries in the queue

A message may bring meta entries along, which are delivered together with it. The entries that are
owed are those of the message in the hands of the pump and of the messages in the queue. The
`Accounts` of a change say which entries it has delivered, and which it has queued.

* `accounts_stepPump` — a pump delivers the entries of the message that it delivers.
* `accounts_perform` — whatever happens to a conversation, no other entries are delivered, and as
  long as nothing is cleared none are lost.
-/

namespace Dialogue

/-! ## Entries that are owed -/

/-- The meta entries that an event delivers. -/
def Event.entries? : Event → Option Meta
  | .noted entries => some entries
  | _ => none

/-- The payload of a message together with the entries that it brings along. -/
def Delivery.entries? (d : Delivery) : Option (Payload × Meta) :=
  (d.hook.bind Event.entries?).map fun m => (d.payload, m)

/-- The entries that an item brings along. -/
def Item.entries? : Item → Option (Payload × Meta)
  | .message d => d.entries?
  | .call _ _ => none

/-- The entries that a pump has in its hands. -/
def PumpStage.entries? : PumpStage → Option (Payload × Meta)
  | .taken (.message d _) => d.entries?
  | .typing d _ _ => d.entries?
  | _ => none

@[simp] theorem entries?_through (w : Work) (news : Option Message) :
    (PumpStage.through w news).entries? = none := rfl

@[simp] theorem entries?_taken (i : Item) (placeholder : Nat) :
    (PumpStage.taken (i.work placeholder)).entries? = i.entries? := by
  cases i <;> rfl

/-- The entries that an operation queues with a message. -/
def Operation.queued : Operation → List (Payload × Meta)
  | .queue p hook => (Item.message ⟨p, hook, none⟩).entries?.toList
  | _ => []

namespace Conversation

/-- The entries that were delivered. -/
def noted (c : Conversation) : List Meta := c.journal.filterMap fun e => e.2.entries?

/-- The entries that messages will bring along. -/
def owed (c : Conversation) : List (Payload × Meta) :=
  c.hands.filterMap PumpStage.entries? ++ c.queue.filterMap Item.entries?

/-- The entries that a pump delivers with its message in its next step. -/
def delivering (c : Conversation) (n : Nat) : List (Payload × Meta) :=
  match c.pumps[n]? with
  | some ⟨g, .typing d _ due⟩ =>
    if due ≤ c.now ∧ c.generation = g then d.entries?.toList else []
  | _ => []

/-- What becomes of entries when a conversation changes: some are delivered at once, some with
messages, and some are queued with messages. -/
structure Accounts (c c' : Conversation) (told : List Meta)
    (delivered queued : List (Payload × Meta)) : Prop where
  worked : c.WorkedOff → c'.WorkedOff
  later : c.generation ≤ c'.generation
  noted : c'.noted = c.noted ++ (told ++ delivered.map Prod.snd)
  owed : c.WorkedOff → c'.generation = c.generation →
    delivered ++ c'.owed = c.owed ++ queued

/-- The change does not concern entries. -/
abbrev Quiet (c c' : Conversation) : Prop := c.Accounts c' [] [] []

variable {c c' c'' : Conversation} {told : List Meta} {delivered queued : List (Payload × Meta)}
  {n : Nat} {p : Pump}

theorem Quiet.trans (h : c.Quiet c') (h' : c'.Accounts c'' told delivered queued) :
    c.Accounts c'' told delivered queued where
  worked hc := h'.worked (h.worked hc)
  later := Nat.le_trans h.later h'.later
  noted := by rw [h'.noted, h.noted]; simp
  owed hc hg := by
    have hlater := h.later
    have hlater' := h'.later
    have hgen : c'.generation = c.generation := by omega
    have howed : c'.owed = c.owed := by simpa using h.owed hc hgen
    rw [h'.owed (h.worked hc) (by omega), howed]

/-- What concerns neither the queue nor the journal does not concern entries. -/
theorem Accounts.of_dispatch (h : c.Accounts c' told delivered queued)
    (hd : c''.dispatch = c'.dispatch) (hj : c''.journal = c'.journal) :
    c.Accounts c'' told delivered queued := by
  obtain ⟨hq, -, hg, hps⟩ := Dispatch.mk.inj hd
  refine ⟨fun hc => (h.worked hc).of_dispatch hd, hg ▸ h.later, ?_, fun hc hgen => ?_⟩
  · rw [Conversation.noted, hj]
    exact h.noted
  · have howed : c''.owed = c'.owed := by
      rw [Conversation.owed, Conversation.owed, hands, hands, live, live, hq, hg, hps]
    rw [howed]
    exact h.owed hc (hg ▸ hgen)

theorem Quiet.refl (c : Conversation) : c.Quiet c :=
  ⟨id, Nat.le_refl _, by simp, fun _ _ => by simp⟩

theorem Quiet.of_dispatch (hd : c'.dispatch = c.dispatch) (hj : c'.journal = c.journal) :
    c.Quiet c' := Accounts.of_dispatch (Quiet.refl c) hd hj

theorem Quiet.of_ledger (h : c'.ledger = c.ledger) : c.Quiet c' := by
  obtain ⟨hd, -, hj⟩ := Ledger.mk.inj h
  exact .of_dispatch hd hj

/-! ## Changes of a conversation -/

/-- An event that is written down delivers its entries at once. -/
theorem accounts_record (c : Conversation) (e : Event) :
    c.Accounts (c.record e) e.entries?.toList [] [] := by
  refine ⟨fun hc => hc.of_dispatch rfl, Nat.le_refl _, ?_, fun _ _ => (List.append_nil _).symm⟩
  show (c.journal ++ [(c.now, e)]).filterMap _ = _
  cases he : e.entries? <;> simp [Conversation.noted, he]

theorem quiet_record {e : Event} (he : e.entries? = none) : c.Quiet (c.record e) := by
  have h := accounts_record c e
  rwa [he] at h

/-- The hands of an idle conversation are empty, and a new pump takes what is put in. -/
theorem hands_push (h : c.WorkedOff) (hp : c.pumping = false) (i : Item) :
    c.hands = [] ∧ (c.push i).hands = [.taken (i.work c.messages.length)] := by
  have hlive := h.live_eq_nil hp
  refine ⟨by rw [hands, hlive]; rfl, ?_⟩
  rw [push_of_idle hp (h.queue_nil hp)]
  show ((c.pumps ++ [Pump.mk c.generation (.taken _)]).filter
    (Pump.isLive c.generation)).map Pump.stage = _
  rw [List.filter_append, show c.pumps.filter (Pump.isLive c.generation) = [] from hlive]
  simp [Pump.isLive, PumpStage.work?]

/-- Putting an item in neither clears anything nor writes anything down. -/
theorem push_eq (c : Conversation) (i : Item) : ∃ messages queue pumping pumps signals,
    c.push i = { c with messages, queue, pumping, pumps, signals } := by
  unfold push
  dsimp only
  split
  · exact ⟨_, _, _, _, _, rfl⟩
  · split
    · next w c' htake =>
      unfold takeHead? at htake
      split at htake <;> cases htake
      exact ⟨_, _, _, _, _, rfl⟩
    · exact ⟨_, _, _, _, _, rfl⟩

/-- What is put into the queue is owed behind the others. -/
theorem accounts_push (c : Conversation) (i : Item) :
    c.Accounts (c.push i) [] [] i.entries?.toList := by
  obtain ⟨_, _, _, _, _, heq⟩ := push_eq c i
  refine ⟨fun hc => hc.push i, heq ▸ Nat.le_refl _, by rw [heq]; simp [Conversation.noted],
    fun hc _ => ?_⟩
  cases hp : c.pumping with
  | true =>
      rw [push_of_pumping hp]
      show c.hands.filterMap _ ++ (c.queue ++ [i]).filterMap _ = _
      cases hi : i.entries? <;> simp [Conversation.owed, hi]
  | false =>
      obtain ⟨hnone, hhands⟩ := hands_push hc hp i
      have hqueue : (c.push i).queue = [] := by
        rw [push_of_idle hp (hc.queue_nil hp)]
        cases i <;> rfl
      rw [Conversation.owed, Conversation.owed, hnone, hhands, hqueue, hc.queue_nil hp]
      cases hi : i.entries? <;> simp [hi]

theorem quiet_push {i : Item} (hi : i.entries? = none) : c.Quiet (c.push i) := by
  have h := accounts_push c i
  rwa [hi] at h

theorem quiet_call (c : Conversation) (owner : Nat) (job : Job) : c.Quiet (c.call owner job) := by
  have hticket : c.Quiet { c with tickets := c.tickets ++ [⟨owner, .waiting⟩] } :=
    .of_dispatch rfl rfl
  exact hticket.trans (quiet_push rfl)

theorem quiet_beginWait (c : Conversation) (owner : Nat) (enable : Bool) :
    c.Quiet (c.beginWait owner enable) := by
  cases enable with
  | true =>
      have hbegun : c.Quiet { c with
          waits := c.waits ++ [⟨owner, true, .opening c.tickets.length⟩] } := .of_dispatch rfl rfl
      exact hbegun.trans (quiet_call _ owner .openInput)
  | false => exact .of_ledger (ledger_listen _ _)

theorem quiet_addLead (c : Conversation) (lead : Option String) : c.Quiet (c.addLead lead) := by
  cases lead with
  | none => exact Quiet.refl c
  | some text => exact quiet_push rfl

theorem quiet_addOptions (c : Conversation) (lead : Option String) (items : List OptionItem)
    (selected : Option Json) (multi : Bool) : c.Quiet (c.addOptions lead items selected multi) :=
  (quiet_addLead c lead).trans (quiet_push rfl)

theorem quiet_addUploader (c : Conversation) (lead : Option String) (options : Option Json) :
    c.Quiet (c.addUploader lead options) := (quiet_addLead c lead).trans (quiet_push rfl)

theorem quiet_clear (c : Conversation) : c.Quiet c.clear := by
  obtain ⟨signals, heq⟩ := clear_eq c
  refine ⟨WorkedOff.clear, by rw [heq]; exact Nat.le_succ _, by rw [heq]; simp [Conversation.noted],
    fun _ hg => ?_⟩
  rw [heq] at hg
  exact absurd hg (Nat.succ_ne_self _)

theorem quiet_useFixme (c : Conversation) (i : Nat) : c.Quiet (c.useFixme i) := by
  unfold useFixme
  cases c.fixmeAt? i with
  | none => exact .of_dispatch rfl (List.append_nil _)
  | some hook => exact quiet_record rfl

/-! ## The steps of a pump -/

/-- The pump goes on with what it has in its hands. -/
theorem owed_setStage (h : c.WorkedOff) (hn : c.pumps[n]? = some p) (hp : p.stage.work?.isSome)
    {stage : PumpStage} (hs : stage.work?.isSome) (he : stage.entries? = p.stage.entries?) :
    (c.setStage n stage).owed = c.owed := by
  have hhands : (c.setStage n stage).hands.filterMap PumpStage.entries? =
      c.hands.filterMap PumpStage.entries? := by
    by_cases hg : c.generation = p.generation
    · have hlive : p.isLive c.generation = true := by simp [Pump.isLive, hg, hp]
      obtain ⟨hone, hset, -⟩ := h.hands_setStage hn hlive stage
      rw [hone, hset hs]
      simp [List.filterMap_cons, he]
    · rw [hands_setStage_of_ne hn hg]
  rw [owed, owed, hhands]
  rfl

theorem quiet_setStage (hn : c.pumps[n]? = some p) (hp : p.stage.work?.isSome)
    {stage : PumpStage} (hs : stage.work?.isSome) (he : stage.entries? = p.stage.entries?) :
    c.Quiet (c.setStage n stage) := by
  refine ⟨fun h => h.setStage hn hp stage hs, Nat.le_refl _, (List.append_nil _).symm,
    fun h _ => ?_⟩
  rw [owed_setStage h hn hp hs he]
  simp

theorem quiet_setStage_ended (hn : c.pumps[n]? = some p) (hg : c.generation ≠ p.generation) :
    c.Quiet (c.setStage n .ended) := by
  refine ⟨fun h => h.setStage_ended hn hg, Nat.le_refl _, (List.append_nil _).symm, fun _ _ => ?_⟩
  have howed : (c.setStage n .ended).owed = c.owed := by
    rw [owed, owed, hands_setStage_of_ne hn hg]
    rfl
  simp [howed]

theorem quiet_beginWork {g : Nat} {w : Work} (hn : c.pumps[n]? = some ⟨g, .taken w⟩) :
    c.Quiet (c.beginWork n w) := by
  cases w with
  | message d placeholder =>
      have hstage : c.Quiet (c.setStage n (.typing d placeholder
        (c.clock.due c.now (10 * c.settings.timeout)))) := quiet_setStage hn rfl rfl rfl
      exact Accounts.of_dispatch hstage rfl rfl
  | call ticket job =>
      cases job with
      | openInput =>
          have hstage : c.Quiet (c.setStage n (.through (.call ticket .openInput) none)) :=
            quiet_setStage hn rfl rfl rfl
          exact Accounts.of_dispatch hstage rfl rfl
      | host name duration value =>
          have hcalled : c.Quiet (c.record (.called name)) := quiet_record rfl
          have hn' : (c.record (.called name)).pumps[n]? =
              some ⟨g, .taken (.call ticket (.host name duration value))⟩ := hn
          have hstage : (c.record (.called name)).Quiet ((c.record (.called name)).setStage n
              (.calling ticket (.host name duration value)
                (if duration = 0 then c.now else c.clock.due c.now (10 * duration)))) :=
            quiet_setStage hn' rfl rfl rfl
          exact (hcalled.trans hstage).of_dispatch rfl rfl

/-- A message that is delivered brings its entries along. -/
theorem accounts_finishTyping {g placeholder due : Nat} {d : Delivery}
    (hn : c.pumps[n]? = some ⟨g, .typing d placeholder due⟩) :
    c.Accounts (c.finishTyping n g d placeholder) []
      (if c.generation = g then d.entries?.toList else []) [] := by
  unfold finishTyping
  by_cases hg : c.generation = g
  · rw [if_neg (by simpa using hg), if_pos hg]
    dsimp only
    refine ⟨fun h => ?_, Nat.le_refl _, ?_, fun h _ => ?_⟩
    · have hd : (c.deliver d placeholder).WorkedOff := h.of_dispatch rfl
      exact hd.setStage hn rfl _ rfl
    · show (c.journal ++ d.hook.toList.map fun e => (c.now, e)).filterMap _ = _
      cases hhook : d.hook with
      | none => simp [Conversation.noted, Delivery.entries?, hhook]
      | some e => cases he : e.entries? <;> simp [Conversation.noted, Delivery.entries?, hhook, he]
    · have hlive : Pump.isLive c.generation ⟨g, .typing d placeholder due⟩ = true := by
        simp [Pump.isLive, hg, PumpStage.work?]
      obtain ⟨hone, hset, -⟩ := h.hands_setStage hn hlive (.through (.message d placeholder)
        (some (c.messageAt placeholder d.payload)))
      have howed : c.owed = d.entries?.toList ++ c.queue.filterMap Item.entries? := by
        rw [owed, hone]
        cases he : d.entries? <;> simp [PumpStage.entries?, he]
      have hhands : ((c.deliver d placeholder).setStage n (.through (.message d placeholder)
          (some (c.messageAt placeholder d.payload)))).hands = [.through (.message d placeholder)
          (some (c.messageAt placeholder d.payload))] := hset rfl
      rw [howed, owed, hhands]
      exact (List.append_nil _).symm
  · rw [if_pos hg, if_neg hg]
    exact quiet_setStage_ended hn hg

/-- A pump that turns to the next item takes its entries out of the queue into its hands. -/
theorem quiet_nextItem {g : Nat} {w : Work} {news : Option Message}
    (hn : c.pumps[n]? = some ⟨g, .through w news⟩) : c.Quiet (c.nextItem n g) := by
  by_cases hg : c.generation = g
  · subst hg
    have hlive : Pump.isLive c.generation ⟨c.generation, .through w news⟩ = true := by
      simp [Pump.isLive, PumpStage.work?]
    have hworked : c.WorkedOff → (c.nextItem n c.generation).WorkedOff :=
      fun h => h.nextItem hn rfl
    rcases hq : c.queue with _ | ⟨i, rest⟩
    · rw [nextItem_nil hq] at hworked ⊢
      refine ⟨hworked, Nat.le_refl _, (List.append_nil _).symm, fun h _ => ?_⟩
      obtain ⟨hone, -, hended⟩ := h.hands_setStage hn hlive .ended
      have hhands : (({ c with pumping := false } : Conversation).setStage n .ended).hands = [] :=
        hended
      rw [owed, owed, hhands, hone]
      exact (List.append_nil _).symm
    · rw [nextItem_cons hq] at hworked ⊢
      refine ⟨hworked, Nat.le_refl _, by cases i <;> exact (List.append_nil _).symm, fun h _ => ?_⟩
      obtain ⟨hone, hset, -⟩ := h.hands_setStage hn hlive (.taken (i.work c.messages.length))
      have hhands : ((({ c with queue := rest } : Conversation).makeRoom i).setStage n
          (.taken (i.work c.messages.length))).hands = [.taken (i.work c.messages.length)] :=
        hset rfl
      have hqueue : ((({ c with queue := rest } : Conversation).makeRoom i).setStage n
          (.taken (i.work c.messages.length))).queue = rest := rfl
      rw [owed, owed, hhands, hone, hqueue, hq]
      cases hi : i.entries? <;> simp [List.filterMap_cons, hi]
  · rw [nextItem_of_ne hg]
    exact quiet_setStage_ended hn hg

theorem accounts_stepPump (c : Conversation) (n : Nat) :
    c.Accounts (c.stepPump n) [] (c.delivering n) [] := by
  rw [Conversation.stepPump, delivering]
  split
  case h_1 g w hn =>
    rw [hn]
    exact quiet_beginWork hn
  case h_2 g d placeholder due hn =>
    rw [hn]
    dsimp only
    by_cases hdue : due ≤ c.now
    · rw [if_pos hdue]
      simpa only [hdue, true_and] using accounts_finishTyping hn
    · rw [if_neg hdue, if_neg (by simp [hdue])]
      exact Quiet.refl c
  case h_3 g ticket job due hn =>
    rw [hn]
    split
    · have hstage : c.Quiet (c.setStage n (.through (.call ticket job) none)) :=
        quiet_setStage hn rfl rfl rfl
      exact Accounts.of_dispatch hstage rfl rfl
    · exact Quiet.refl c
  case h_4 g w news hn =>
    rw [hn]
    have htold : c.Quiet (c.tell news) := by
      cases news <;> exact .of_dispatch rfl rfl
    have hn' : (c.tell news).pumps[n]? = some ⟨g, .through w news⟩ := by
      cases news <;> exact hn
    exact htold.trans (quiet_nextItem hn')
  case h_5 _ _ hno _ _ =>
    split
    · next hn => exact (hno _ _ _ _ hn).elim
    · exact Quiet.refl c

/-! ## Operations -/

/-- The entries that are delivered with a message in an operation. -/
def deliveredIn (c : Conversation) : Operation → List (Payload × Meta)
  | .stepPump n => c.delivering n
  | _ => []

/-- Only messages bring entries along, whatever the host does. -/
theorem accounts_perform (c : Conversation) (op : Operation) :
    c.Accounts (c.perform op) [] (c.deliveredIn op) op.queued := by
  cases op with
  | queue p hook => exact accounts_push c _
  | queueFrom text => exact quiet_push rfl
  | addOptions lead items selected multi => exact quiet_addOptions c lead items selected multi
  | addUploader lead options => exact quiet_addUploader c lead options
  | call owner job => exact quiet_call c owner job
  | beginWait owner enable => exact quiet_beginWait c owner enable
  | clear => exact quiet_clear c
  | useFixme i => exact quiet_useFixme c i
  | stepPump n => exact accounts_stepPump c n
  | stepNotice n => exact Quiet.of_ledger (ledger_stepNotice c n)
  | stepWait n => exact Quiet.of_ledger (ledger_stepWait c n)
  | dropWait n => exact Quiet.of_ledger (ledger_dropWait c n)
  | dropCall ticket =>
      rw [Conversation.perform]
      split
      · exact Quiet.refl c
      · exact Quiet.of_dispatch rfl rfl
  | add | replace | addFrom | report | setSettings | setTimeout | setFixme | setValidator
  | setInput | pass => exact Quiet.of_dispatch rfl rfl

end Conversation

end Dialogue
