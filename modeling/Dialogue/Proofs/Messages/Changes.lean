import Dialogue.Proofs.Input.Shown
/-!
# What can happen to the list of messages

A message that is taken out of the queue has a place reserved for it, where a placeholder stands,
and later it lands there. All else that happens to the list is that it grows at the end, that its
last message is replaced, and that it is cleared. A `Sheet` is the list together with the messages
that are still to come, and each operation takes one `SheetStep`.

* `sheetStep_perform` — what an operation does to the list.
* `undelivered_perform` — messages land in the order in which they were queued.
-/

namespace Dialogue

/-- The place that is reserved for the message of a pump, as long as it has not landed. -/
def PumpStage.reserved? : PumpStage → Option (Nat × Delivery)
  | .taken (.message d placeholder) => some (placeholder, d)
  | .typing d placeholder _ => some (placeholder, d)
  | _ => none

/-- The message of an item of the queue. -/
def Item.delivery? : Item → Option Delivery
  | .message d => some d
  | .call _ _ => none

/-- Does an operation neither replace the last message nor clear the list? -/
def Operation.isSteady : Operation → Bool
  | .clear | .replace _ => false
  | _ => true

namespace Conversation

/-! ## The sheet -/

/-- The place that is reserved for a message of the present generation; there is one at most. -/
def reserved (c : Conversation) : List (Nat × Delivery) := c.hands.filterMap PumpStage.reserved?

/-- The messages in the queue. -/
def waiting (c : Conversation) : List Delivery := c.queue.filterMap Item.delivery?

/-- The list of messages, and the messages that are to come: one with a place, the others behind. -/
structure Sheet where
  messages : List Message
  reserved : List (Nat × Delivery)
  waiting : List Delivery

/-- The sheet of a conversation. -/
def sheet (c : Conversation) : Sheet := ⟨c.messages, c.reserved, c.waiting⟩

/-- The messages that an operation queues. -/
def asks (c : Conversation) (op : Operation) : List Delivery :=
  (c.enqueues op).filterMap Item.delivery?

/-- The message that lands with an operation, behind its place. -/
def lands (c : Conversation) : Operation → List (Nat × Delivery)
  | .stepPump n =>
    match c.pumps[n]? with
    | some ⟨g, .typing d placeholder due⟩ =>
      if due ≤ c.now ∧ c.generation = g then [(placeholder, d)] else []
    | _ => []
  | _ => []

/-- What an operation does to the sheet. -/
inductive SheetStep (c : Conversation) (op : Operation) (s : Sheet) : Prop where
  /-- The list stays as it is. Messages may be queued. -/
  | stay (ho : op.isSteady = true) (hp : c.puts op = []) (hl : c.lands op = [])
    (hs : s = { c.sheet with waiting := c.waiting ++ c.asks op })
  /-- A message is added past the queue. -/
  | add {p : Payload} (ho : op.isSteady = true) (hp : c.puts op = [p]) (hl : c.lands op = [])
    (ha : c.asks op = []) (hs : s = { c.sheet with messages := (c.add p).messages })
  /-- The first message that waits, or is queued now, gets a place at the end. -/
  | reserve {d : Delivery} {rest : List Delivery} (ho : op.isSteady = true) (hp : c.puts op = [])
    (hl : c.lands op = []) (hr : c.reserved = []) (hw : c.waiting ++ c.asks op = d :: rest)
    (hs : s = ⟨(c.add .typing).messages, [(c.messages.length, d)], rest⟩)
  | land {i : Nat} {d : Delivery} (ho : op.isSteady = true) (hp : c.puts op = [])
    (hl : c.lands op = [(i, d)]) (hr : c.reserved = [(i, d)]) (ha : c.asks op = [])
    (hs : s = ⟨(c.replaceAt i d.payload).messages, [], c.waiting⟩)
  | replace {p : Payload} (hop : op = .replace p)
    (hs : s = { c.sheet with messages := (c.replaceLast p).messages })
  | clear (hop : op = .clear) (hs : s = ⟨[], [], []⟩)

variable {c c' : Conversation} {n : Nat} {p : Pump} {stage : PumpStage} {op : Operation} {s : Sheet}

theorem SheetStep.still (ho : op.isSteady = true) (hp : c.puts op = []) (hl : c.lands op = [])
    (ha : c.asks op = []) (hs : s = c.sheet) : SheetStep c op s := by
  refine .stay ho hp hl ?_
  rw [hs, ha, List.append_nil]
  rfl

theorem sheet_of_board (h : c'.board = c.board) : c'.sheet = c.sheet := by
  obtain ⟨hd, hm⟩ := Board.mk.inj h
  have hq : c'.queue = c.queue := congrArg Dispatch.queue hd
  rw [sheet, sheet, reserved, reserved, waiting, waiting, hands_of_dispatch hd, hm, hq]

theorem sheet_clear (hw : c.WorkedOff) : c.clear.sheet = ⟨[], [], []⟩ := by
  obtain ⟨signals, heq⟩ := clear_eq c
  have hlive : c.clear.live = [] := hw.clear.live_eq_nil (by rw [heq])
  rw [sheet, reserved, hands, hlive, waiting, heq]
  rfl

/-! ## Queueing -/

theorem reserved_of_live (h : c.live = []) : c.reserved = [] := by
  rw [reserved, hands, h]
  rfl

/-- An item that is put in waits, or it is a message and gets a place at once. -/
theorem sheet_push (hw : c.WorkedOff) (i : Item) :
    (c.push i).sheet = { c.sheet with waiting := c.waiting ++ i.delivery?.toList } ∨
      c.reserved = [] ∧ c.waiting = [] ∧ ∃ d, i.delivery? = some d ∧
        (c.push i).sheet = ⟨(c.add .typing).messages, [(c.messages.length, d)], []⟩ := by
  cases hp : c.pumping with
  | true =>
      left
      rw [push_of_pumping hp]
      show Sheet.mk c.messages c.reserved ((c.queue ++ [i]).filterMap Item.delivery?) = _
      rw [List.filterMap_append]
      cases i <;> rfl
  | false =>
      -- The new pump has the item in its hands, and nothing else is to come.
      have hq := hw.queue_nil hp
      have hlive := hw.live_eq_nil hp
      have hr : c.reserved = [] := reserved_of_live hlive
      have hwaiting : c.waiting = [] := by rw [waiting, hq]; rfl
      have hhands := hands_startPump hlive i (i.work c.messages.length)
      rw [push_of_idle hp hq]
      cases i with
      | message d =>
          right
          refine ⟨hr, hwaiting, d, rfl, ?_⟩
          rw [sheet, reserved, hhands]
          rfl
      | call ticket job =>
          left
          rw [sheet, reserved, hhands, sheet, hr, hwaiting]
          rfl

/-- Some items were queued, and the first message among all may have got its place. -/
inductive Queued (c : Conversation) (items : List Item) (s : Sheet) : Prop where
  | wait (hs : s = { c.sheet with waiting := c.waiting ++ items.filterMap Item.delivery? })
  | reserve {d : Delivery} {rest : List Delivery} (hr : c.reserved = [])
    (hw : c.waiting ++ items.filterMap Item.delivery? = d :: rest)
    (hs : s = ⟨(c.add .typing).messages, [(c.messages.length, d)], rest⟩)

theorem Queued.push {a : Conversation} {items : List Item} (h : Queued c items a.sheet)
    (ha : a.WorkedOff) (i : Item) : Queued c (items ++ [i]) (a.push i).sheet := by
  have hone : [i].filterMap Item.delivery? = i.delivery?.toList := by cases i <;> rfl
  cases h with
  | wait hs =>
      obtain ⟨hm, hr, hw⟩ := Sheet.mk.inj hs
      rcases sheet_push ha i with hpush | ⟨hr', hw', d, hd, hpush⟩
      · refine .wait ?_
        rw [hpush, hs, hw, List.filterMap_append, hone, List.append_assoc]
      · refine .reserve (hr.symm.trans hr') (?_ : _ = [d]) ?_
        · rw [List.filterMap_append, hone, hd, ← List.append_assoc, ← hw, hw']
          rfl
        · rw [hpush, add, newMessage, hm]
          rfl
  | @reserve d rest hr hw hs =>
      obtain ⟨-, hr', hw'⟩ := Sheet.mk.inj hs
      rcases sheet_push ha i with hpush | ⟨hnone, -⟩
      · refine .reserve hr (?_ : _ = d :: (rest ++ i.delivery?.toList)) ?_
        · rw [List.filterMap_append, hone, ← List.append_assoc, hw, List.cons_append]
        · rw [hpush, hs, hw']
      · rw [hr'] at hnone
        cases hnone

/-- An operation that neither touches the list itself nor is a step of a pump may queue items. -/
theorem queued_perform (hw : c.WorkedOff) (ho : op.isSteady = true) (hp : c.puts op = [])
    (hstep : ∀ n, op ≠ .stepPump n) : Queued c (c.enqueues op) (c.perform op).sheet := by
  apply perform_board_cases (P := fun c' items => Queued c items c'.sheet) hw op
  case frame =>
    intro a b items hb h
    rw [sheet_of_board hb]
    exact h
  case stay => exact .wait (by rw [List.filterMap_nil, List.append_nil]; rfl)
  case push => exact fun a items i ha h => h.push ha i
  case add =>
    intro m hm
    rw [hp] at hm
    cases hm
  case replace =>
    rintro p rfl
    cases ho
  case clear =>
    rintro rfl
    cases ho
  case stepPump => exact fun n hn => absurd hn (hstep n)

/-! ## Steps of a pump -/

/-- A pump goes on with its item and does not let a message land. -/
theorem sheet_setStage (hw : c.WorkedOff) (hn : c.pumps[n]? = some p)
    (hp : p.stage.work?.isSome) (hs : stage.work?.isSome)
    (hr : stage.reserved? = p.stage.reserved?) : (c.setStage n stage).sheet = c.sheet := by
  have hreserved : (c.setStage n stage).reserved = c.reserved := by
    by_cases hg : c.generation = p.generation
    · obtain ⟨hhands, hset, -⟩ := hw.hands_setStage hn (isLive_of_generation hg.symm hp) stage
      rw [reserved, reserved, hhands, hset hs]
      simp only [List.filterMap_cons, hr]
    · rw [reserved, reserved, hands_setStage_of_ne hn hg]
  rw [sheet, hreserved]
  rfl

/-- A pump that is through with its item, or of an earlier generation, has no place reserved. -/
theorem sheet_setStage_ended (hw : c.WorkedOff) (hn : c.pumps[n]? = some p)
    (hp : p.stage.work?.isSome) (hr : c.generation = p.generation → p.stage.reserved? = none) :
    (c.setStage n .ended).sheet = c.sheet := by
  have hreserved : (c.setStage n .ended).reserved = c.reserved := by
    by_cases hg : c.generation = p.generation
    · obtain ⟨hhands, -, hended⟩ :=
        hw.hands_setStage hn (isLive_of_generation hg.symm hp) .ended
      rw [reserved, reserved, hhands, hended]
      simp [hr hg]
    · rw [reserved, reserved, hands_setStage_of_ne hn hg]
  rw [sheet, hreserved]
  rfl

/-- A pump that turns to the next item finds a message, for which it reserves a place, or not. -/
theorem sheet_nextItem {g : Nat} {w : Work} {news : Option Message} (hw : c.WorkedOff)
    (hn : c.pumps[n]? = some ⟨g, .through w news⟩) : (c.nextItem n g).sheet = c.sheet ∨
      c.reserved = [] ∧ ∃ d rest, c.waiting = d :: rest ∧
        (c.nextItem n g).sheet = ⟨(c.add .typing).messages, [(c.messages.length, d)], rest⟩ := by
  by_cases hg : c.generation = g
  · subst hg
    have hlive := isLive_of_generation (c := c) (p := ⟨c.generation, .through w news⟩) rfl rfl
    rcases hq : c.queue with _ | ⟨i, rest⟩
    · left
      rw [nextItem_nil hq]
      show (c.setStage n .ended).sheet = c.sheet
      exact sheet_setStage_ended hw hn rfl fun _ => rfl
    · obtain ⟨hhands, hset, -⟩ := hw.hands_setStage hn hlive (.taken (i.work c.messages.length))
      have hr : c.reserved = [] := by rw [reserved, hhands]; rfl
      have htaken : ((({ c with queue := rest } : Conversation).makeRoom i).setStage n
          (.taken (i.work c.messages.length))).hands = [.taken (i.work c.messages.length)] :=
        hset (by cases i <;> rfl)
      rw [nextItem_cons hq]
      cases i with
      | message d =>
          right
          refine ⟨hr, d, rest.filterMap Item.delivery?, by rw [waiting, hq]; rfl, ?_⟩
          rw [sheet, reserved, htaken]
          rfl
      | call ticket job =>
          left
          rw [sheet, reserved, htaken, sheet, hr, waiting, waiting, hq]
          rfl
  · left
    rw [nextItem_of_ne hg]
    exact sheet_setStage_ended hw hn rfl fun he => absurd he hg

theorem lands_typing {g placeholder due : Nat} {d : Delivery}
    (hn : c.pumps[n]? = some ⟨g, .typing d placeholder due⟩) : c.lands (.stepPump n) =
      if due ≤ c.now ∧ c.generation = g then [(placeholder, d)] else [] := by
  simp only [lands, hn]

theorem sheetStep_finishTyping {g placeholder due : Nat} {d : Delivery} (hw : c.WorkedOff)
    (hn : c.pumps[n]? = some ⟨g, .typing d placeholder due⟩) (hdue : due ≤ c.now) :
    SheetStep c (.stepPump n) (c.finishTyping n g d placeholder).sheet := by
  unfold finishTyping
  split
  case isTrue hg =>
    refine .still rfl rfl ?_ rfl (sheet_setStage_ended hw hn rfl fun he => absurd he hg)
    rw [lands_typing hn, if_neg fun h => hg h.2]
  case isFalse hg =>
    obtain rfl : c.generation = g := by simpa using hg
    have hlive := isLive_of_generation (c := c) (p := ⟨c.generation, .typing d placeholder due⟩)
      rfl rfl
    obtain ⟨hhands, hset, -⟩ := hw.hands_setStage hn hlive
      (.through (.message d placeholder) (some (c.messageAt placeholder d.payload)))
    refine .land rfl rfl (by rw [lands_typing hn, if_pos ⟨hdue, rfl⟩])
      (by rw [reserved, hhands]; rfl) rfl ?_
    have hthrough : ((c.deliver d placeholder).setStage n
        (.through (.message d placeholder) (some (c.messageAt placeholder d.payload)))).hands =
        [.through (.message d placeholder) (some (c.messageAt placeholder d.payload))] := hset rfl
    rw [sheet, reserved, hthrough]
    rfl

theorem sheetStep_stepPump (hw : c.WorkedOff) (n : Nat) :
    SheetStep c (.stepPump n) (c.stepPump n).sheet := by
  rcases hn : c.pumps[n]? with _ | ⟨g, stage⟩
  · refine .still rfl rfl (by simp only [lands, hn]) rfl ?_
    rw [stepPump, hn]
  · cases stage with
    | taken w =>
        refine .still rfl rfl (by simp only [lands, hn]) rfl ?_
        rw [stepPump, hn]
        cases w with
        | message d placeholder => exact sheet_setStage hw hn rfl rfl rfl
        | call ticket job =>
            cases job with
            | openInput => exact sheet_setStage (c := c) hw hn rfl rfl rfl
            | host name duration value => exact sheet_setStage (c := c) hw hn rfl rfl rfl
    | typing d placeholder due =>
        by_cases hdue : due ≤ c.now
        · have hstep : c.stepPump n = c.finishTyping n g d placeholder := by
            simp [stepPump, hn, hdue]
          rw [hstep]
          exact sheetStep_finishTyping hw hn hdue
        · refine .still rfl rfl (by simp [lands_typing hn, hdue]) rfl ?_
          simp [stepPump, hn, hdue]
    | calling ticket job due =>
        refine .still rfl rfl (by simp only [lands, hn]) rfl ?_
        simp only [stepPump, hn]
        split
        · exact sheet_setStage (c := c) hw hn rfl rfl rfl
        · rfl
    | through w news =>
        have hl : c.lands (.stepPump n) = [] := by simp only [lands, hn]
        have htell : (c.tell news).dispatch = c.dispatch := by cases news <;> rfl
        have hmessages : (c.tell news).messages = c.messages := by cases news <;> rfl
        have hsheet : (c.tell news).sheet = c.sheet :=
          sheet_of_board (by rw [board, board, htell, hmessages])
        obtain ⟨-, hr, hwaiting⟩ := Sheet.mk.inj hsheet
        have hn' : (c.tell news).pumps[n]? = some ⟨g, .through w news⟩ := by
          rw [show (c.tell news).pumps = c.pumps from congrArg Dispatch.pumps htell]
          exact hn
        have hstep : c.stepPump n = (c.tell news).nextItem n g := by rw [stepPump, hn]
        rw [hstep]
        rcases sheet_nextItem (hw.of_dispatch htell) hn' with hs | ⟨hnone, d, rest, hcons, hs⟩
        · exact .still rfl rfl hl rfl (hs.trans hsheet)
        · refine .reserve rfl rfl hl (hr.symm.trans hnone) (?_ : _ = d :: rest) ?_
          · rw [← hwaiting, hcons]
            exact List.append_nil _
          · rw [hs, add, newMessage, hmessages]
            rfl
    | ended =>
        refine .still rfl rfl (by simp only [lands, hn]) rfl ?_
        rw [stepPump, hn]

/-! ## Operations -/

theorem Queued.sheetStep (h : Queued c (c.enqueues op) (c.perform op).sheet)
    (ho : op.isSteady = true) (hp : c.puts op = []) (hl : c.lands op = []) :
    SheetStep c op (c.perform op).sheet := by
  cases h with
  | wait hs => exact .stay ho hp hl hs
  | reserve hr hw hs => exact .reserve ho hp hl hr hw hs

/-- What an operation does to the list: nothing, or it adds a message, reserves a place, lets a
message land, replaces the last message or clears everything. -/
theorem sheetStep_perform (hw : c.WorkedOff) (op : Operation) :
    SheetStep c op (c.perform op).sheet := by
  cases op with
  | add p => exact .add rfl rfl rfl rfl rfl
  | addFrom text => exact .add rfl rfl rfl rfl rfl
  | replace p => exact .replace rfl rfl
  | clear => exact .clear rfl (sheet_clear hw)
  | stepPump n => exact sheetStep_stepPump hw n
  | _ => exact (queued_perform hw rfl rfl fun _ h => by cases h).sheetStep rfl rfl rfl

/-- The messages that are to come, in the order in which they were queued. -/
def undelivered (c : Conversation) : List Delivery := c.reserved.map (·.2) ++ c.waiting

theorem undelivered_clear (hw : c.WorkedOff) : c.clear.undelivered = [] := by
  obtain ⟨-, hr, hq⟩ := Sheet.mk.inj (sheet_clear hw)
  rw [undelivered, hr, hq]
  rfl

/-- Messages land in the order in which they were queued. -/
theorem undelivered_perform (hw : c.WorkedOff) (hop : op ≠ .clear) :
    (c.lands op).map (·.2) ++ (c.perform op).undelivered = c.undelivered ++ c.asks op := by
  have hstep := sheetStep_perform hw op
  rw [undelivered, undelivered]
  cases hstep with
  | stay ho hp hl hs =>
      obtain ⟨-, hr, hq⟩ := Sheet.mk.inj hs
      rw [hl, hr, hq, List.append_assoc]
      rfl
  | add ho hp hl ha hs =>
      obtain ⟨-, hr, hq⟩ := Sheet.mk.inj hs
      rw [hl, hr, hq, ha, List.append_nil]
      rfl
  | reserve ho hp hl hnone hcons hs =>
      obtain ⟨-, hr, hq⟩ := Sheet.mk.inj hs
      rw [hl, hr, hq, hnone, List.append_assoc, hcons]
      rfl
  | land ho hp hl hold ha hs =>
      obtain ⟨-, hr, hq⟩ := Sheet.mk.inj hs
      rw [hl, hr, hq, hold, ha, List.append_nil]
      rfl
  | replace hop hs =>
      subst hop
      obtain ⟨-, hr, hq⟩ := Sheet.mk.inj hs
      rw [hr, hq]
      exact (List.append_nil _).symm
  | clear hop' => exact absurd hop' hop

end Conversation

end Dialogue
