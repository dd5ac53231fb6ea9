import Dialogue.Proofs.Queue.Pumps
/-!
# Items are worked off in the order in which they were queued

As long as nothing is cleared and no message is replaced, the items that were worked off, the one
in the hands of the pump, and the queue together are the items that were ever queued, in that order.

The argument is about `Books`: what is written in the list of messages and in the journal, what is
queued, how far the pump has come, which items were worked off and which were ever queued. Each
step of a pump is one change of the books.

* `Kept.perform` — every operation keeps the books.
* `queue_keeps_order` — so they are right after every history.
-/

namespace Dialogue

/-! ## What becomes of an item -/

/-- The item that is worked on. -/
def Work.item : Work → Item
  | .message d _ => .message d
  | .call ticket job => .call ticket job

/-- Where a message stands in the list in the end, and what it says. -/
def Work.place? : Work → Option (Nat × Payload)
  | .message d placeholder => some (placeholder, d.payload)
  | .call _ _ => none

/-- What the host is told of an item: the hook of a message is called, or a function. -/
def Work.events : Work → List Event
  | .message d _ => d.hook.toList
  | .call _ .openInput => []
  | .call _ (.host name _ _) => [.called name]

/-- What the host has been told of the item of a pump. -/
def PumpStage.told : PumpStage → List Event
  | .calling ticket job _ => (Work.call ticket job).events
  | .through w _ => w.events
  | _ => []

/-- The item that a pump is through with. -/
def PumpStage.delivered? : PumpStage → Option Work
  | .through w _ => some w
  | _ => none

/-- Does an operation leave the messages and the journal to the queue? It then takes no message away
and uses no button. -/
def Operation.isOrderly : Operation → Bool
  | .clear | .replace _ | .useFixme _ => false
  | _ => true

theorem Work.item_work (i : Item) (placeholder : Nat) : (i.work placeholder).item = i := by
  cases i <;> rfl

/-! ## The books -/

/-- What is on record of the items of a queue. The list `done` holds the items that were worked off,
`hands` the stages of the pumps at work, and `all` the items that were ever queued. -/
structure Books (messages : List Message) (journal : List (Nat × Event)) (queue : List Item)
    (hands : List PumpStage) (done : List Work) (all : List Item) : Prop where
  items : (done ++ hands.filterMap PumpStage.work?).map Work.item ++ queue = all
  events : journal.map (·.2) = done.flatMap Work.events ++ hands.flatMap PumpStage.told
  stands : ∀ x ∈ (done ++ hands.filterMap PumpStage.delivered?).filterMap Work.place?,
    (messages[x.1]?).map Message.payload = some x.2
  increasing : ((done ++ hands.filterMap PumpStage.work?).filterMap Work.place?).Pairwise
    fun x y => x.1 < y.1
  inside : ∀ x ∈ (done ++ hands.filterMap PumpStage.work?).filterMap Work.place?,
    x.1 < messages.length

namespace Books

variable {messages : List Message} {journal journal' : List (Nat × Event)} {queue : List Item}
  {hands : List PumpStage} {done : List Work} {all : List Item} {stage stage' : PumpStage}
  {w : Work} {i : Item} {es : List Event}

/-- Messages that are added at the end do not disturb those that stand in the list. -/
theorem append (h : Books messages journal queue hands done all) (more : List Message) :
    Books (messages ++ more) journal queue hands done all := by
  refine { h with stands := fun x hx => ?_, inside := fun x hx => ?_ }
  · have hs := h.stands x hx
    have hlt : x.1 < messages.length := by
      by_contra hge
      rw [List.getElem?_eq_none (by omega)] at hs
      cases hs
    rw [List.getElem?_append_left hlt]
    exact hs
  · have := h.inside x hx
    rw [List.length_append]
    omega

/-- An item goes to the end of the queue. -/
theorem enqueue (h : Books messages journal queue hands done all) (i : Item) :
    Books messages journal (queue ++ [i]) hands done (all ++ [i]) := by
  refine { h with items := ?_ }
  rw [← List.append_assoc, h.items]

/-- A pump goes on with its item and tells the host something of it. -/
theorem advance (h : Books messages journal queue [stage] done all)
    (hw : stage'.work? = stage.work?) (hj : journal'.map (·.2) = journal.map (·.2) ++ es)
    (ht : stage'.told = stage.told ++ es)
    (hd : ∀ w, stage'.delivered? = some w → w.place? = none) :
    Books messages journal' queue [stage'] done all := by
  have hwork : [stage'].filterMap PumpStage.work? = [stage].filterMap PumpStage.work? := by
    simp only [List.filterMap_cons, hw]
  constructor
  · rw [hwork]
    exact h.items
  · rw [hj, h.events]
    simp [ht]
  · intro x hx
    refine h.stands x ?_
    rw [List.filterMap_append] at hx ⊢
    rcases List.mem_append.mp hx with hx | hx
    · exact List.mem_append_left _ hx
    · obtain ⟨v, hv, hx⟩ := List.mem_filterMap.mp hx
      have : stage'.delivered? = some v := by simpa using hv
      rw [hd v this] at hx
      cases hx
  · rw [hwork]
    exact h.increasing
  · rw [hwork]
    exact h.inside

/-- The message of a pump takes its place, and its hook is called. -/
theorem deliver {d : Delivery} {placeholder due : Nat} {news : Option Message} {m : Message}
    (h : Books messages journal queue [.typing d placeholder due] done all)
    (hm : m.payload = d.payload) (hj : journal'.map (·.2) = journal.map (·.2) ++ d.hook.toList) :
    Books (messages.set placeholder m) journal' queue [.through (.message d placeholder) news] done
      all := by
  have hlt : placeholder < messages.length := h.inside (placeholder, d.payload) (by
    simp [PumpStage.work?, Work.place?])
  constructor
  · exact h.items
  · rw [hj, h.events]
    simp [PumpStage.told, Work.events]
  · intro x hx
    rw [List.filterMap_append] at hx
    rcases List.mem_append.mp hx with hx | hx
    · -- What was delivered before stands in front of the placeholder.
      have hinc := h.increasing
      rw [List.filterMap_append, List.pairwise_append] at hinc
      have hbefore : x.1 < placeholder := hinc.2.2 x hx (placeholder, d.payload) (by
        simp [PumpStage.work?, Work.place?])
      rw [List.getElem?_set_ne (by omega)]
      exact h.stands x (by
        rw [List.filterMap_append]
        exact List.mem_append_left _ hx)
    · have hx : x = (placeholder, d.payload) := by
        simpa [PumpStage.delivered?, Work.place?] using hx
      rw [hx, List.getElem?_set_self hlt, Option.map_some, hm]
  · exact h.increasing
  · intro x hx
    rw [List.length_set]
    exact h.inside x hx

/-- The new last item has its place behind those of all others. -/
theorem pairwise_place {works : List Work} (messages : List Message) (i : Item)
    (hinc : (works.filterMap Work.place?).Pairwise fun x y => x.1 < y.1)
    (hin : ∀ x ∈ works.filterMap Work.place?, x.1 < messages.length) :
    ((works ++ [i.work messages.length]).filterMap Work.place?).Pairwise fun x y => x.1 < y.1 := by
  rw [List.filterMap_append, List.pairwise_append]
  refine ⟨hinc, ?_, fun x hx y hy => ?_⟩
  · cases i <;> simp [Item.work, Work.place?, List.filterMap_cons]
  · cases i with
    | call ticket job => simp [Item.work, Work.place?] at hy
    | message d =>
        have hy : y = (messages.length, d.payload) := by
          simpa [Item.work, Work.place?] using hy
        rw [hy]
        exact hin x hx

/-- An idle pump takes an item that is put in. -/
theorem start (h : Books messages journal [] [] done all) (i : Item) (more : List Message)
    (hmore : ∀ x, (i.work messages.length).place? = some x → x.1 < messages.length + more.length) :
    Books (messages ++ more) journal [] [.taken (i.work messages.length)] done (all ++ [i]) := by
  have hw : [PumpStage.taken (i.work messages.length)].filterMap PumpStage.work? =
      [i.work messages.length] := rfl
  have hall : done.map Work.item = all := by simpa using h.items
  have hin : ∀ x ∈ done.filterMap Work.place?, x.1 < messages.length := by
    simpa using h.inside
  constructor
  · rw [hw, List.append_nil, List.map_append, hall, List.map_singleton, Work.item_work]
  · simpa [PumpStage.told] using h.events
  · exact (h.append more).stands
  · rw [hw]
    exact pairwise_place messages i (by simpa using h.increasing) hin
  · rw [hw]
    intro x hx
    rw [List.filterMap_append] at hx
    rw [List.length_append]
    rcases List.mem_append.mp hx with hx | hx
    · exact Nat.lt_add_right _ (hin x hx)
    · obtain ⟨v, hv, hx⟩ := List.mem_filterMap.mp hx
      rw [List.mem_singleton.mp hv] at hx
      exact hmore x hx

/-- A pump that is through with its item has none in its hands. -/
theorem release {news : Option Message}
    (h : Books messages journal queue [.through w news] done all) :
    Books messages journal queue [] (done ++ [w]) all := by
  have hwork : [PumpStage.through w news].filterMap PumpStage.work? = [w] := rfl
  have hdone : [PumpStage.through w news].filterMap PumpStage.delivered? = [w] := rfl
  constructor
  · have := h.items
    rw [hwork] at this
    simpa using this
  · rw [h.events]
    simp [PumpStage.told]
  · have := h.stands
    rw [hdone] at this
    simpa using this
  · have := h.increasing
    rw [hwork] at this
    simpa using this
  · have := h.inside
    rw [hwork] at this
    simpa using this

/-- The head of the queue goes to a pump. -/
theorem take (h : Books messages journal (i :: queue) [] done all) (more : List Message)
    (hmore : ∀ x, (i.work messages.length).place? = some x → x.1 < messages.length + more.length) :
    Books (messages ++ more) journal queue [.taken (i.work messages.length)] done all := by
  -- The items behind the head are as good as queued later.
  have hitems := h.items
  have hhead : Books messages journal [] [] done (done.map Work.item) :=
    { h with items := by simp }
  have hstart := hhead.start i more hmore
  refine { hstart with items := ?_ }
  rw [← hitems]
  simp [PumpStage.work?, Work.item_work]

end Books

/-! ## Conversations with their books -/

namespace Conversation

/-- The stages of the pumps at work. -/
def hands (c : Conversation) : List PumpStage := c.live.map Pump.stage

/-- The books of a conversation are right, and no pump of an earlier generation is left. -/
structure Kept (c : Conversation) (done : List Work) (all : List Item) : Prop where
  worked : c.WorkedOff
  current : ∀ p ∈ c.pumps, p.generation = c.generation
  books : Books c.messages c.journal c.queue c.hands done all

variable {c c' : Conversation} {n : Nat} {p : Pump} {done : List Work} {all : List Item}

/-- Adding messages and changing what does not concern the queue leaves the books right. -/
theorem Kept.of_dispatch (h : c.Kept done all) (hd : c'.dispatch = c.dispatch)
    (hj : c'.journal = c.journal) (hm : c.messages <+: c'.messages) : c'.Kept done all := by
  obtain ⟨hq, -, hg, hps⟩ := Dispatch.mk.inj hd
  obtain ⟨more, hm⟩ := hm
  have hh : c'.hands = c.hands := by rw [hands, hands, live, live, hps, hg]
  refine ⟨h.worked.of_dispatch hd, ?_, ?_⟩
  · rw [hps, hg]
    exact h.current
  · rw [← hm, hj, hq, hh]
    exact h.books.append more

/-- What changes neither the queue nor what is written down leaves the books right. -/
theorem Kept.of_ledger (h : c.Kept done all) (e : c'.ledger = c.ledger) : c'.Kept done all := by
  obtain ⟨hd, hm, hj⟩ := Ledger.mk.inj e
  exact h.of_dispatch hd hj (hm ▸ List.prefix_refl _)

/-- Only the stage of the pump at work changes when it goes on. -/
theorem WorkedOff.hands_setStage (h : c.WorkedOff) (hn : c.pumps[n]? = some p)
    (hp : p.isLive c.generation = true) (stage : PumpStage) :
    c.hands = [p.stage] ∧ (stage.work?.isSome → (c.setStage n stage).hands = [stage]) ∧
      (c.setStage n .ended).hands = [] := by
  obtain ⟨hlive, -, hset⟩ := h.live_setStage hn hp stage
  obtain ⟨-, -, hend⟩ := h.live_setStage hn hp .ended
  have hg : p.generation = c.generation := by
    simp only [Pump.isLive, Bool.and_eq_true, decide_eq_true_eq] at hp
    exact hp.1
  refine ⟨by rw [hands, hlive, List.map_singleton], fun hs => ?_, ?_⟩
  · rw [hands, hset]
    simp [Pump.isLive, hg, hs]
  · rw [hands, hend]
    simp [Pump.isLive, PumpStage.work?]

/-- A pump of an earlier generation has nothing in its hands that counts. -/
theorem hands_setStage_of_ne (hn : c.pumps[n]? = some p) (hg : c.generation ≠ p.generation)
    (stage : PumpStage) : (c.setStage n stage).hands = c.hands := by
  obtain ⟨before, after, hc, hset⟩ := exists_pumps_eq hn
  have hgen : (c.setStage n stage).generation = c.generation := rfl
  have hdead : ∀ stage', Pump.isLive c.generation { p with stage := stage' } = false := by
    simp [Pump.isLive, Ne.symm hg]
  rw [hands, hands, live, live, hset, hgen, hc]
  simp [hdead]

/-- A pump that is started when none is at work has the item in its hands. -/
theorem hands_startPump (hlive : c.live = []) (i : Item) (w : Work) :
    (({ c with queue := [], pumping := true }.makeRoom i).startPump w).hands = [.taken w] := by
  show ((c.pumps ++ [Pump.mk c.generation (.taken w)]).filter
    (Pump.isLive c.generation)).map Pump.stage = _
  rw [List.filter_append, show c.pumps.filter (Pump.isLive c.generation) = [] from hlive]
  simp [Pump.isLive, PumpStage.work?]

/-- A message that is taken out of the queue gets its place at the end of the list. -/
theorem exists_makeRoom (c : Conversation) (i : Item) : ∃ more,
    (c.makeRoom i).messages = c.messages ++ more ∧
      ∀ x, (i.work c.messages.length).place? = some x →
        x.1 < c.messages.length + more.length := by
  cases i with
  | message d =>
      refine ⟨[c.newMessage .typing], rfl, fun x hx => ?_⟩
      cases hx
      exact Nat.lt_succ_self _
  | call ticket job =>
      refine ⟨[], (List.append_nil _).symm, fun x hx => ?_⟩
      cases hx

theorem Kept.push (h : c.Kept done all) (i : Item) : (c.push i).Kept done (all ++ [i]) := by
  -- An item that is put in waits behind the others, or a new pump takes it.
  refine ⟨h.worked.push i, ?_, ?_⟩ <;> cases hp : c.pumping
  case refine_1.true =>
    rw [push_of_pumping hp]
    exact h.current
  case refine_1.false =>
    rw [push_of_idle hp (h.worked.queue_nil hp)]
    intro q hq
    rcases List.mem_append.mp hq with hq | hq
    · exact h.current q hq
    · rw [List.mem_singleton.mp hq]
      rfl
  case refine_2.true =>
    rw [push_of_pumping hp]
    exact h.books.enqueue i
  case refine_2.false =>
    have hq := h.worked.queue_nil hp
    have hlive := h.worked.live_eq_nil hp
    obtain ⟨more, hm, hmore⟩ := exists_makeRoom ({ c with queue := [], pumping := true }) i
    have hbooks : Books c.messages c.journal [] [] done all := by
      have := h.books
      rw [hq, hands, hlive] at this
      exact this
    rw [push_of_idle hp hq]
    rw [hands_startPump hlive]
    show Books ({ c with queue := [], pumping := true }.makeRoom i).messages c.journal [] _ done _
    rw [hm]
    exact hbooks.start i more hmore

/-! ## The steps of a pump -/

theorem Kept.isLive (h : c.Kept done all) (hn : c.pumps[n]? = some p)
    (hp : p.stage.work?.isSome) : p.isLive c.generation = true := by
  rw [Pump.isLive, h.current p (List.mem_of_getElem? hn), hp]
  simp

/-- A pump changes its stage, and the books are changed accordingly. -/
theorem Kept.setStage (h : c.Kept done all) (hn : c.pumps[n]? = some p)
    (hp : p.stage.work?.isSome) (stage : PumpStage) (hs : stage.work?.isSome)
    (hd : c'.dispatch = (c.setStage n stage).dispatch)
    (hb : Books c.messages c.journal c.queue [p.stage] done all →
      Books c'.messages c'.journal c.queue [stage] done all) : c'.Kept done all := by
  obtain ⟨hq, -, hg, hps⟩ := Dispatch.mk.inj hd
  obtain ⟨hhands, hhands', -⟩ := h.worked.hands_setStage hn (h.isLive hn hp) stage
  refine ⟨(h.worked.setStage hn hp stage hs).of_dispatch hd, ?_, ?_⟩
  · intro q hmem
    rw [hps] at hmem
    obtain ⟨q', hq', hgen⟩ := exists_generation_eq hn stage q hmem
    rw [hg, hgen]
    exact h.current q' hq'
  · have hh : c'.hands = [stage] := by
      rw [← hhands' hs, hands, hands, live, live, hps, hg]
    rw [hh, hq]
    exact hb (hhands ▸ h.books)

theorem Kept.beginWork {g : Nat} {w : Work} (h : c.Kept done all)
    (hn : c.pumps[n]? = some ⟨g, .taken w⟩) : (c.beginWork n w).Kept done all := by
  cases w with
  | message d placeholder =>
      refine h.setStage hn rfl (.typing d placeholder _) rfl rfl fun hb => ?_
      exact hb.advance rfl (List.append_nil _).symm rfl (fun _ hd => by cases hd)
  | call ticket job =>
      cases job with
      | openInput =>
          -- The field is opened at once, and the host is told nothing of it.
          refine h.setStage hn rfl (.through (.call ticket .openInput) none) rfl rfl fun hb => ?_
          refine hb.advance rfl (List.append_nil _).symm rfl fun w hd => ?_
          cases hd
          rfl
      | host name duration value =>
          refine h.setStage hn rfl (.calling ticket (.host name duration value) _) rfl rfl
            fun hb => ?_
          exact hb.advance rfl (List.map_append) rfl (fun _ hd => by cases hd)

theorem Kept.finishTyping {g placeholder due : Nat} {d : Delivery} (h : c.Kept done all)
    (hn : c.pumps[n]? = some ⟨g, .typing d placeholder due⟩) :
    (c.finishTyping n g d placeholder).Kept done all := by
  have hg : g = c.generation := h.current _ (List.mem_of_getElem? hn)
  rw [Conversation.finishTyping, if_neg (by simp [hg])]
  refine h.setStage hn rfl (.through (.message d placeholder) _) rfl rfl fun hb => ?_
  -- The placeholder is inside the list, so it is overwritten.
  have hlt : placeholder < c.messages.length := hb.inside (placeholder, d.payload) (by
    simp [PumpStage.work?, Work.place?])
  have hm : ((c.deliver d placeholder).setStage n (.through (.message d placeholder)
      (some (c.messageAt placeholder d.payload)))).messages =
      c.messages.set placeholder (c.messageAt placeholder d.payload) := if_pos hlt
  rw [hm]
  refine hb.deliver rfl ?_
  show (c.journal ++ d.hook.toList.map fun e => (c.now, e)).map (·.2) = _
  rw [List.map_append, List.map_map]
  simp [Function.comp_def]

theorem Kept.finishCall {g ticket due : Nat} {job : Job} (h : c.Kept done all)
    (hn : c.pumps[n]? = some ⟨g, .calling ticket job due⟩) :
    (c.finishCall n ticket job).Kept done all := by
  refine h.setStage hn rfl (.through (.call ticket job) none) rfl rfl fun hb => ?_
  refine hb.advance rfl (List.append_nil _).symm (List.append_nil _).symm fun w hd => ?_
  cases hd
  rfl

/-- A pump that is through with its item turns to the next one. -/
theorem Kept.nextItem {g : Nat} {w : Work} {news : Option Message} (h : c.Kept done all)
    (hn : c.pumps[n]? = some ⟨g, .through w news⟩) : (c.nextItem n g).Kept (done ++ [w]) all := by
  have hg : g = c.generation := h.current _ (List.mem_of_getElem? hn)
  have hlive := h.isLive hn rfl
  have hworked := h.worked.nextItem hn rfl
  obtain ⟨hhands, -, hended⟩ := h.worked.hands_setStage hn hlive .ended
  have hbooks : Books c.messages c.journal c.queue [] (done ++ [w]) all :=
    Books.release (hhands ▸ h.books)
  subst hg
  rcases hq : c.queue with _ | ⟨i, rest⟩
  · rw [nextItem_nil hq] at hworked ⊢
    refine ⟨hworked, fun q hmem => ?_, ?_⟩
    · obtain ⟨q', hq', hgen⟩ := exists_generation_eq hn .ended q hmem
      exact hgen.trans (h.current q' hq')
    · have hh : (({ c with pumping := false } : Conversation).setStage n .ended).hands = [] :=
        hended
      rw [hh]
      exact hbooks
  · rw [nextItem_cons hq] at hworked ⊢
    refine ⟨hworked, fun q hmem => ?_, ?_⟩
    · obtain ⟨q', hq', hgen⟩ := exists_generation_eq hn (.taken (i.work c.messages.length)) q hmem
      exact hgen.trans (h.current q' hq')
    · obtain ⟨-, hset, -⟩ :=
        h.worked.hands_setStage hn hlive (.taken (i.work c.messages.length))
      obtain ⟨more, hm, hmore⟩ := exists_makeRoom ({ c with queue := rest }) i
      have hh : ((({ c with queue := rest } : Conversation).makeRoom i).setStage n
          (.taken (i.work c.messages.length))).hands = [.taken (i.work c.messages.length)] :=
        hset rfl
      rw [hh]
      show Books ({ c with queue := rest }.makeRoom i).messages c.journal rest _ _ _
      rw [hm]
      rw [hq] at hbooks
      exact hbooks.take more hmore

/-! ## Histories -/

/-- The items that an operation queues. -/
def enqueues (c : Conversation) : Operation → List Item
  | .queue p hook => [.message ⟨p, hook, none⟩]
  | .queueFrom text => [.message ⟨.from text c.fixLabel, none, c.fixme⟩]
  | .addOptions lead items selected multi =>
    lead.toList.map (fun t => .message ⟨.to t, none, none⟩) ++
      [.message ⟨.options items selected multi c.fixLabel, none, c.fixme⟩]
  | .addUploader lead options =>
    lead.toList.map (fun t => .message ⟨.to t, none, none⟩) ++
      [.message ⟨.uploader options, none, none⟩]
  | .call _ job => [.call c.tickets.length job]
  | .beginWait _ true => [.call c.tickets.length .openInput]
  | _ => []

/-- The item that an operation brings to its end: a pump that is through with it turns away. -/
def completes (c : Conversation) : Operation → List Work
  | .stepPump n =>
    match c.pumps[n]? with
    | some ⟨_, .through w _⟩ => [w]
    | _ => []
  | _ => []

/-- What the operations of a history yield one after the other. -/
def gathered {α : Type} (yield : Conversation → Operation → List α) (c : Conversation) :
    List Operation → List α
  | [] => []
  | op :: rest => yield c op ++ gathered yield (c.perform op) rest

theorem Kept.stepPump (h : c.Kept done all) (n : Nat) :
    (c.stepPump n).Kept (done ++ c.completes (.stepPump n)) all := by
  rw [Conversation.stepPump, completes]
  split
  case h_1 g w hn =>
    rw [hn, List.append_nil]
    exact h.beginWork hn
  case h_2 g d placeholder due hn =>
    rw [hn, List.append_nil]
    split
    · exact h.finishTyping hn
    · exact h
  case h_3 g ticket job due hn =>
    rw [hn, List.append_nil]
    split
    · exact h.finishCall hn
    · exact h
  case h_4 g w news hn =>
    rw [hn]
    have ht : (c.tell news).dispatch = c.dispatch := by cases news <;> rfl
    have hn' : (c.tell news).pumps[n]? = some ⟨g, .through w news⟩ := by
      rw [show (c.tell news).pumps = c.pumps from congrArg Dispatch.pumps ht]
      exact hn
    have htold : (c.tell news).Kept done all :=
      h.of_dispatch ht (by cases news <;> rfl) ⟨[], by cases news <;> exact List.append_nil _⟩
    exact htold.nextItem hn'
  case h_5 hno =>
    have hnone : (match c.pumps[n]? with
        | some ⟨_, .through w _⟩ => [w]
        | _ => []) = ([] : List Work) := by
      split
      · next hn => exact absurd hn (by intro hn; exact hno _ _ _ hn)
      · rfl
    rw [hnone, List.append_nil]
    exact h

theorem Kept.addLead (h : c.Kept done all) (lead : Option String) :
    (c.addLead lead).Kept done (all ++ lead.toList.map fun t => .message ⟨.to t, none, none⟩) := by
  cases lead with
  | none =>
      show c.Kept done (all ++ [])
      rw [List.append_nil]
      exact h
  | some text => exact h.push _

/-- Queueing a text leaves the button for messages to come as it is. -/
theorem fixme_addLead (h : c.WorkedOff) (lead : Option String) :
    (c.addLead lead).fixLabel = c.fixLabel ∧ (c.addLead lead).fixme = c.fixme := by
  cases lead with
  | none => exact ⟨rfl, rfl⟩
  | some text =>
      show (c.push _).fixLabel = _ ∧ (c.push _).fixme = _
      cases hp : c.pumping with
      | true =>
          rw [push_of_pumping hp]
          exact ⟨rfl, rfl⟩
      | false =>
          rw [push_of_idle hp (h.queue_nil hp)]
          exact ⟨rfl, rfl⟩

theorem Kept.addOptions (h : c.Kept done all) (lead : Option String) (items : List OptionItem)
    (selected : Option Json) (multi : Bool) : (c.addOptions lead items selected multi).Kept done
      (all ++ c.enqueues (.addOptions lead items selected multi)) := by
  obtain ⟨hlabel, hfixme⟩ := fixme_addLead h.worked lead
  rw [enqueues, ← List.append_assoc, ← hlabel, ← hfixme]
  exact (h.addLead lead).push _

theorem Kept.addUploader (h : c.Kept done all) (lead : Option String) (options : Option Json) :
    (c.addUploader lead options).Kept done (all ++ c.enqueues (.addUploader lead options)) := by
  rw [enqueues, ← List.append_assoc]
  exact (h.addLead lead).push _

theorem Kept.call (h : c.Kept done all) (owner : Nat) (job : Job) :
    (c.call owner job).Kept done (all ++ [.call c.tickets.length job]) := by
  have ht : ({ c with tickets := c.tickets ++ [⟨owner, .waiting⟩] } : Conversation).Kept done all :=
    h.of_ledger rfl
  exact ht.push _

theorem Kept.beginWait (h : c.Kept done all) (owner : Nat) (enable : Bool) :
    (c.beginWait owner enable).Kept done (all ++ c.enqueues (.beginWait owner enable)) := by
  cases enable with
  | true =>
      have hw : ({ c with waits := c.waits ++ [⟨owner, true, .opening c.tickets.length⟩] } :
          Conversation).Kept done all := h.of_ledger rfl
      exact hw.call owner .openInput
  | false =>
      show Kept _ done (all ++ [])
      rw [List.append_nil]
      exact h.of_ledger (ledger_listen _ _)

/-- Every orderly operation keeps the books. -/
theorem Kept.perform (h : c.Kept done all) (op : Operation) (ho : op.isOrderly = true) :
    (c.perform op).Kept (done ++ c.completes op) (all ++ c.enqueues op) := by
  cases op
  case stepPump n =>
    show Kept _ _ (all ++ [])
    rw [List.append_nil]
    exact h.stepPump n
  -- Nothing but the step of a pump brings an item to its end.
  all_goals show Kept _ (done ++ []) _
  all_goals rw [List.append_nil]
  case queue p hook => exact h.push _
  case queueFrom text => exact h.push _
  case addOptions lead items selected multi => exact h.addOptions lead items selected multi
  case addUploader lead options => exact h.addUploader lead options
  case call owner job => exact h.call owner job
  case beginWait owner enable => exact h.beginWait owner enable
  case clear => cases ho
  case replace => cases ho
  case useFixme => cases ho
  -- What is left queues nothing.
  all_goals show Kept _ done (all ++ [])
  all_goals rw [List.append_nil]
  case stepNotice n => exact h.of_ledger (ledger_stepNotice c n)
  case stepWait n => exact h.of_ledger (ledger_stepWait c n)
  case dropWait n => exact h.of_ledger (ledger_dropWait c n)
  case dropCall ticket =>
    rw [Conversation.perform]
    split
    · exact h
    · exact h.of_ledger rfl
  case add p => exact h.of_dispatch rfl rfl (List.prefix_append _ _)
  case addFrom text => exact h.of_dispatch rfl rfl (List.prefix_append _ _)
  all_goals exact h.of_ledger rfl

theorem Kept.after (h : c.Kept done all) (history : List Operation)
    (ho : ∀ op ∈ history, op.isOrderly = true) :
    (c.after history).Kept (done ++ c.gathered completes history)
      (all ++ c.gathered enqueues history) := by
  induction history generalizing c done all with
  | nil =>
      rw [gathered, gathered, List.append_nil, List.append_nil]
      exact h
  | cons op rest ih =>
      have hop := h.perform op (ho op List.mem_cons_self)
      rw [gathered, gathered, ← List.append_assoc, ← List.append_assoc]
      exact ih hop fun op' hmem => ho op' (List.mem_cons_of_mem _ hmem)

theorem kept_start (settings : Settings) (clock : Clock) : (start settings clock).Kept [] [] where
  worked := workedOff_start settings clock
  current := fun _ hp => by cases hp
  books :=
    { items := rfl
      events := rfl
      stands := fun _ hx => by cases hx
      increasing := List.Pairwise.nil
      inside := fun _ hx => by cases hx }

/-- In a history without clearing and replacing, the items that were worked off, the one in the
hands of the pump, and the queue are the items that were queued, each once and in their order. The
messages among those worked off stand in the list in that order, each at its own place; and the
journal tells of the hooks and functions in that order, of each once. -/
theorem queue_keeps_order (settings : Settings) (clock : Clock) (history : List Operation)
    (ho : ∀ op ∈ history, op.isOrderly = true) :
    let c := (start settings clock).after history
    let done := (start settings clock).gathered completes history
    done.map Work.item ++ c.inFlight.map Work.item ++ c.queue =
        (start settings clock).gathered enqueues history ∧
      c.inFlight.length ≤ 1 ∧
      ((done.filterMap Work.place?).Pairwise fun x y => x.1 < y.1) ∧
      (∀ x ∈ done.filterMap Work.place?, (c.messages[x.1]?).map Message.payload = some x.2) ∧
      c.journal.map (·.2) = done.flatMap Work.events ++ c.hands.flatMap PumpStage.told := by
  intro c done
  have h : c.Kept done ((start settings clock).gathered enqueues history) :=
    (kept_start settings clock).after history ho
  have hflight : c.inFlight = c.hands.filterMap PumpStage.work? := by
    rw [hands, List.filterMap_map]
    rfl
  refine ⟨?_, ?_, ?_, ?_, h.books.events⟩
  · rw [← List.map_append, hflight]
    exact h.books.items
  · have hlen : c.live.length ≤ 1 := by
      rw [h.worked.live_length]
      split <;> omega
    exact Nat.le_trans (List.length_filterMap_le _ _) hlen
  · have hinc := h.books.increasing
    rw [List.filterMap_append, List.pairwise_append] at hinc
    exact hinc.1
  · intro x hx
    refine h.books.stands x ?_
    rw [List.filterMap_append]
    exact List.mem_append_left _ hx

/-- A text with a hook and a function are worked off while the user writes something. -/
def textAndFunction : List Operation :=
  [.setTimeout 0, .queue (.to "hello") (some (.hook "greeted")), .call 0 (.host "ask" 0 .null),
    .stepPump 0, .addFrom "hi", .stepPump 0, .stepPump 0, .stepPump 0, .stepPump 0, .stepPump 0]

theorem queue_keeps_order_textAndFunction :
    let c := (start .standard .stepped).after textAndFunction
    (start .standard .stepped).gathered completes textAndFunction =
        [.message ⟨.to "hello", some (.hook "greeted"), none⟩ 0, .call 0 (.host "ask" 0 .null)] ∧
      (c.messages[0]?).map Message.payload = some (.to "hello") ∧
      c.journal.map (·.2) = [.hook "greeted", .called "ask"] ∧ c.queue = [] := by
  intro c
  have hdone : (start .standard .stepped).gathered completes textAndFunction =
      [.message ⟨.to "hello", some (.hook "greeted"), none⟩ 0, .call 0 (.host "ask" 0 .null)] := rfl
  obtain ⟨-, -, -, hstands, hevents⟩ := queue_keeps_order .standard .stepped textAndFunction
    (by simp [textAndFunction, Operation.isOrderly])
  rw [hdone] at hstands hevents
  exact ⟨hdone, hstands (0, .to "hello") List.mem_cons_self, hevents, rfl⟩

end Conversation

end Dialogue
