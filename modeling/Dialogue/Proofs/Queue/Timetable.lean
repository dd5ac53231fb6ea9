import Dialogue.Proofs.Messages.Groups
import Dialogue.Proofs.Queue.Diary
import Dialogue.Proofs.Queue.Pace
/-!
# When items are taken out of the queue and finished

On a clock that stands still while anything can be done, the items of a queue keep a timetable: each
is taken when it was queued or when the one before was finished, whichever is later, and takes as
long as it was to take when a pump began with it.

* `fed_perform`, `pumpTurn_stepPump` — what an operation does to the queue and to the item at hand.
* `Timed.perform` — the diary stays on time with each operation.
* `Timed.exists_rest` — pumps come to rest without time passing.
* `items_keep_timetable` — so every history keeps the timetable in which nothing is cleared.
-/

namespace Dialogue

/-- How many steps a pump makes, at most, until it is through with its item and ends. -/
def PumpStage.stepsLeft : PumpStage → Nat
  | .taken _ => 3
  | .typing _ _ _ | .calling _ _ _ => 2
  | .through _ _ => 1
  | .ended => 0

namespace Conversation

/-! ## The diary of a history -/

/-- The first of some items that are queued, if no pump is at work. -/
def first (c : Conversation) (items : List Item) : List Work :=
  if c.pumping then [] else (items.take 1).map fun i => i.work c.messages.length

/-- The item that an operation takes out of the queue: the head, by a pump that is through with its
item, or the first of those that are queued when no pump is at work. -/
def takes (c : Conversation) : Operation → List Work
  | .stepPump n =>
    match c.pumps[n]? with
    | some ⟨g, .through _ _⟩ =>
      if c.generation = g then (c.queue.take 1).map fun i => i.work c.messages.length else []
    | _ => []
  | op => c.first (c.enqueues op)

/-- The item that a pump begins with. -/
def begins (c : Conversation) : Operation → List Work
  | .stepPump n =>
    match c.pumps[n]? with
    | some ⟨_, .taken w⟩ => [w]
    | _ => []
  | _ => []

/-- The item that a pump finishes. One that opens the field is finished as soon as it is begun. -/
def finishes (c : Conversation) : Operation → List Work
  | .stepPump n =>
    match c.pumps[n]? with
    | some ⟨_, .taken (.call ticket .openInput)⟩ => [.call ticket .openInput]
    | some ⟨g, .typing d placeholder due⟩ =>
      if due ≤ c.now ∧ c.generation = g then [.message d placeholder] else []
    | some ⟨_, .calling ticket job due⟩ => if due ≤ c.now then [.call ticket job] else []
    | _ => []
  | _ => []

/-- What is written into the diary of an operation. -/
def entry (c : Conversation) (op : Operation) : Diary where
  queued := (c.enqueues op).map fun i => (c.now, i)
  taken := (c.takes op).map fun w => (c.now, w)
  begun := (c.begins op).map fun w => (c.now, w, w.lasts c.settings.timeout)
  finished := (c.finishes op).map fun w => (c.now, w)

/-- The diary of a history. -/
def diary (c : Conversation) : List Operation → Diary
  | [] => .blank
  | op :: rest => c.entry op ++ (c.perform op).diary rest

/-- Does time not pass by a moment at which a pump can go on? -/
def Awaits (c : Conversation) : Operation → Prop
  | .pass ms => ∀ n past, past < ms → (c.perform (.pass past)).pumpReady n = false
  | _ => True

/-- Pumps go on as soon as they can. -/
def Punctual (c : Conversation) : List Operation → Prop
  | [] => True
  | op :: rest => c.Awaits op ∧ (c.perform op).Punctual rest

/-! ## What happens to the item at hand -/

/-- The list of messages when an item is taken out of the queue: a message gets a placeholder at the
end. -/
def entering (c : Conversation) : Work → List Message
  | .message _ _ => (c.add .typing).messages
  | .call _ _ => c.messages

/-- The list of messages when an item is finished: a message stands in place of its placeholder. -/
def leaving (c : Conversation) : Work → List Message
  | .message d placeholder => (c.replaceAt placeholder d.payload).messages
  | .call _ _ => c.messages

variable {c c' : Conversation} {n : Nat} {op : Operation} {d : Diary} {items : List Item}
  {taken begun finished : List Work}

theorem messages_makeRoom (i : Item) (k : Nat) :
    (c.makeRoom i).messages = c.entering (i.work k) := by
  cases i <;> rfl

/-- Items were put in. If no pump was at work the first of them is at hand then. -/
inductive Fed (c c' : Conversation) : List Item → Prop where
  | wait {items : List Item} (hidle : c.hands = [] → items = []) (hh : c'.hands = c.hands)
    (hq : c'.queue = c.queue ++ items) : Fed c c' items
  | start {i : Item} {rest : List Item} (hidle : c.hands = [])
    (hh : c'.hands = [.taken (i.work c.messages.length)]) (hq : c'.queue = rest)
    (hm : c'.messages = c.entering (i.work c.messages.length)) : Fed c c' (i :: rest)

/-- A pump has made a step, and may have taken an item, begun with one or finished one. -/
inductive PumpTurn (c : Conversation) (n : Nat) (c' : Conversation) :
    (taken begun finished : List Work) → Prop where
  | rest (hr : c.pumpReady n = false) (he : c' = c) : PumpTurn c n c' [] [] []
  | begin {w : Work} {stage : PumpStage} (hh : c.hands = [.taken w])
    (hs : stage.until? = some (w, c.now + w.lasts c.settings.timeout)) (hh' : c'.hands = [stage])
    (hq : c'.queue = c.queue) (hm : c'.messages = c.messages) : PumpTurn c n c' [] [w] []
  /-- A function that opens the field takes no time. -/
  | atOnce {ticket : Nat} (hh : c.hands = [.taken (.call ticket .openInput)])
    (hh' : c'.hands = [.through (.call ticket .openInput) none]) (hq : c'.queue = c.queue)
    (hm : c'.messages = c.messages) :
    PumpTurn c n c' [] [.call ticket .openInput] [.call ticket .openInput]
  | finish {w : Work} {stage : PumpStage} {due : Nat} {news : Option Message}
    (hh : c.hands = [stage]) (hs : stage.until? = some (w, due)) (hdue : due ≤ c.now)
    (hh' : c'.hands = [.through w news]) (hq : c'.queue = c.queue)
    (hm : c'.messages = c.leaving w) : PumpTurn c n c' [] [] [w]
  | take {w : Work} {news : Option Message} {i : Item} {rest : List Item}
    (hh : c.hands = [.through w news]) (hq : c.queue = i :: rest)
    (hh' : c'.hands = [.taken (i.work c.messages.length)]) (hq' : c'.queue = rest)
    (hm : c'.messages = c.entering (i.work c.messages.length)) :
    PumpTurn c n c' [i.work c.messages.length] [] []
  | stop {w : Work} {news : Option Message} (hh : c.hands = [.through w news])
    (hq : c.queue = []) (hh' : c'.hands = []) (hq' : c'.queue = []) : PumpTurn c n c' [] [] []

/-! ## Putting items in -/

theorem WorkedOff.hands_eq_nil_iff (hw : c.WorkedOff) : c.hands = [] ↔ c.pumping = false := by
  rw [hands, List.map_eq_nil_iff]
  constructor
  · intro h
    by_contra hp
    obtain ⟨p, hlive⟩ := hw.exists_live (by simpa using hp)
    rw [h] at hlive
    cases hlive
  · exact hw.live_eq_nil

theorem entering_of_messages {a : Conversation} (h : a.messages = c.messages) (w : Work) :
    a.entering w = c.entering w := by
  cases w with
  | message d placeholder => rw [entering, entering, add, add, newMessage, newMessage, h]
  | call ticket job => exact h

/-- An item that is put into an idle queue is taken at once. -/
theorem push_idle {a : Conversation} (ha : a.WorkedOff) (hp : a.pumping = false)
    (hm : a.messages = c.messages) (i : Item) :
    (a.push i).hands = [.taken (i.work c.messages.length)] ∧ (a.push i).queue = [] ∧
      (a.push i).messages = c.entering (i.work c.messages.length) := by
  obtain ⟨-, hhands⟩ := hands_push ha hp i
  refine ⟨hm ▸ hhands, ?_, ?_⟩
  · rw [push_of_idle hp (ha.queue_nil hp)]
    cases i <;> rfl
  · rw [← entering_of_messages hm, push_of_idle hp (ha.queue_nil hp)]
    cases i <;> rfl

theorem Fed.push {a : Conversation} (h : Fed c a items) (ha : a.WorkedOff)
    (hm : items = [] → a.messages = c.messages) (i : Item) : Fed c (a.push i) (items ++ [i]) := by
  cases hp : a.pumping with
  | true =>
      rw [push_of_pumping hp]
      cases h with
      | wait hidle hh hq =>
          refine .wait (fun hnil => ?_) hh (by rw [← List.append_assoc, ← hq])
          rw [ha.hands_eq_nil_iff.mp (hh.trans hnil)] at hp
          cases hp
      | start hidle hh hq hmessages =>
          exact .start hidle hh (congrArg (· ++ [i]) hq) hmessages
  | false =>
      have hnil := ha.hands_eq_nil_iff.mpr hp
      cases h with
      | wait hidle hh hq =>
          have hc : c.hands = [] := hh.symm.trans hnil
          obtain rfl := hidle hc
          obtain ⟨hhands, hqueue, hmessages⟩ := push_idle ha hp (hm rfl) i
          exact .start hc hhands hqueue hmessages
      | start hidle hh hq _ =>
          rw [hnil] at hh
          cases hh

theorem fed_of_dispatch (hd : c'.dispatch = c.dispatch) : Fed c c' [] :=
  .wait (fun _ => rfl) (hands_of_dispatch hd)
    ((congrArg Dispatch.queue hd).trans (List.append_nil _).symm)

theorem Fed.of_board {a : Conversation} (h : Fed c a items) (hb : c'.board = a.board) :
    Fed c c' items := by
  obtain ⟨hd, hmessages⟩ := Board.mk.inj hb
  have hhands := hands_of_dispatch hd
  have hqueue : c'.queue = a.queue := congrArg Dispatch.queue hd
  cases h with
  | wait hidle hh hq => exact .wait hidle (hhands.trans hh) (hqueue.trans hq)
  | start hidle hh hq hm =>
      exact .start hidle (hhands.trans hh) (hqueue.trans hq) (hmessages.trans hm)

/-- All operations feed the queue, if with nothing, but clearing and the steps of a pump. -/
theorem fed_perform (hw : c.WorkedOff) (hclear : op ≠ .clear) (hstep : ∀ n, op ≠ .stepPump n) :
    Fed c (c.perform op) (c.enqueues op) := by
  by_cases hputs : c.puts op = []
  · suffices h : Fed c (c.perform op) (c.enqueues op) ∧
        (c.enqueues op = [] → (c.perform op).messages = c.messages) from h.1
    apply perform_board_cases
      (P := fun a items => Fed c a items ∧ (items = [] → a.messages = c.messages)) hw op
    case frame =>
      intro a b items hb ih
      exact ⟨ih.1.of_board hb, fun hnil => (congrArg Board.messages hb).trans (ih.2 hnil)⟩
    case stay => exact ⟨fed_of_dispatch rfl, fun _ => rfl⟩
    case push =>
      intro a items i ha ih
      refine ⟨ih.1.push ha ih.2 i, fun hnil => ?_⟩
      exact absurd hnil (List.append_ne_nil_of_right_ne_nil _ (List.cons_ne_nil _ _))
    case add =>
      intro m hm
      rw [hputs] at hm
      cases hm
    case replace =>
      rintro p rfl
      cases hputs
    case clear => exact fun h => absurd h hclear
    case stepPump => exact fun n h => absurd h (hstep n)
  · -- What is put into the list at once is not queued.
    cases op with
    | add | addFrom | replace => exact fed_of_dispatch rfl
    | _ => exact absurd rfl hputs

theorem first_of_idle (hw : c.WorkedOff) (hidle : c.hands = []) (items : List Item) :
    c.first items = (items.take 1).map fun i => i.work c.messages.length := by
  rw [first, hw.hands_eq_nil_iff.mp hidle, if_neg (by decide)]

theorem first_of_busy (hw : c.WorkedOff) (hbusy : c.hands ≠ []) (items : List Item) :
    c.first items = [] := by
  rw [Ne, hw.hands_eq_nil_iff, Bool.not_eq_false] at hbusy
  rw [first, hbusy, if_pos rfl]

theorem first_of_wait (hw : c.WorkedOff) (hidle : c.hands = [] → items = []) :
    c.first items = [] := by
  by_cases hnil : c.hands = []
  · rw [hidle hnil, first_of_idle hw hnil]
    rfl
  · exact first_of_busy hw hnil items

/-- An item that is taken as soon as it is put in shows in the list. -/
theorem Fed.messages_of_mem (h : Fed c c' items) (hw : c.WorkedOff) {w : Work}
    (hmem : w ∈ c.first items) :
    c'.messages = c.entering w ∧ w = w.item.work c.messages.length := by
  cases h with
  | wait hidle hh hq =>
      rw [first_of_wait hw hidle] at hmem
      cases hmem
  | start hidle hh hq hm =>
      rw [first_of_idle hw hidle] at hmem
      rw [List.mem_singleton.mp hmem, Work.item_work]
      exact ⟨hm, rfl⟩

/-! ## Steps of a pump -/

theorem begins_of_taken {g : Nat} {w : Work} (hn : c.pumps[n]? = some ⟨g, .taken w⟩) :
    c.begins (.stepPump n) = [w] := by simp only [begins, hn]

theorem pumpTurn_beginWork {w : Work} (hw : c.WorkedOff) (hc : c.clock = .stepped)
    (hn : c.pumps[n]? = some ⟨c.generation, .taken w⟩) :
    PumpTurn c n (c.beginWork n w) [] [w] (c.finishes (.stepPump n)) := by
  have hlive := isLive_of_generation (c := c) (p := ⟨c.generation, .taken w⟩) rfl rfl
  cases w with
  | message d placeholder =>
      obtain ⟨hh, hset, -⟩ := hw.hands_setStage hn hlive
        (.typing d placeholder (c.clock.due c.now (10 * c.settings.timeout)))
      simp only [finishes, hn]
      refine .begin hh ?_ (hset rfl) rfl rfl
      -- Whole milliseconds are not rounded.
      rw [PumpStage.until?, hc, Clock.due, Work.lasts]
      congr 2
      omega
  | call ticket job =>
      cases job with
      | openInput =>
          obtain ⟨hh, hset, -⟩ := hw.hands_setStage hn hlive
            (.through (.call ticket .openInput) none)
          simp only [finishes, hn]
          exact .atOnce hh (hset rfl) rfl rfl
      | host name duration value =>
          obtain ⟨hh, hset, -⟩ := hw.hands_setStage hn hlive (.calling ticket
            (.host name duration value)
            (if duration = 0 then c.now else c.clock.due c.now (10 * duration)))
          simp only [finishes, hn]
          refine .begin hh ?_ (hset rfl) rfl rfl
          rw [PumpStage.until?, hc, Clock.due, Work.lasts]
          congr 2
          split <;> omega

/-- A pump that is through with its item turns to the next one, after it may have told of a
message. -/
theorem pumpTurn_nextItem {a : Conversation} {w : Work} {news : Option Message} (hw : a.WorkedOff)
    (hd : a.dispatch = c.dispatch) (hm : a.messages = c.messages)
    (hn : a.pumps[n]? = some ⟨a.generation, .through w news⟩) :
    PumpTurn c n (a.nextItem n a.generation)
      ((c.queue.take 1).map fun i => i.work c.messages.length) [] [] := by
  have hlive := isLive_of_generation (c := a) (p := ⟨a.generation, .through w news⟩) rfl rfl
  have hhands := hands_of_dispatch hd
  have hqueue : a.queue = c.queue := congrArg Dispatch.queue hd
  rcases hq : c.queue with _ | ⟨i, rest⟩
  · obtain ⟨hh, -, hended⟩ := hw.hands_setStage hn hlive .ended
    rw [nextItem_nil (hqueue.trans hq)]
    exact .stop (hhands.symm.trans hh) hq hended (hqueue.trans hq)
  · obtain ⟨hh, hset, -⟩ := hw.hands_setStage hn hlive (.taken (i.work a.messages.length))
    rw [nextItem_cons (hqueue.trans hq)]
    refine .take (hhands.symm.trans hh) hq (hm ▸ hset rfl) ?_ ?_
    · cases i <;> rfl
    · rw [← entering_of_messages hm]
      exact messages_makeRoom i _

theorem pumpTurn_stepPump (hw : c.WorkedOff) (hpresent : ∀ p ∈ c.pumps, p.generation = c.generation)
    (hc : c.clock = .stepped) (n : Nat) : PumpTurn c n (c.stepPump n) (c.takes (.stepPump n))
      (c.begins (.stepPump n)) (c.finishes (.stepPump n)) := by
  rcases hn : c.pumps[n]? with _ | ⟨g, stage⟩
  · simp only [takes, begins, finishes, stepPump, hn]
    exact .rest (by simp [pumpReady, hn]) rfl
  · obtain rfl : g = c.generation := hpresent _ (List.mem_of_getElem? hn)
    cases stage with
    | taken w =>
        have hstep : c.stepPump n = c.beginWork n w := by simp only [stepPump, hn]
        have htakes : c.takes (.stepPump n) = [] := by simp only [takes, hn]
        rw [hstep, htakes, begins_of_taken hn]
        exact pumpTurn_beginWork hw hc hn
    | typing d placeholder due =>
        simp only [takes, begins, finishes, stepPump, hn]
        by_cases hdue : due ≤ c.now
        · rw [if_pos hdue, if_pos ⟨hdue, trivial⟩, finishTyping, if_neg (by simp)]
          obtain ⟨hh, hset, -⟩ := hw.hands_setStage hn (isLive_of_generation rfl rfl)
            (.through (.message d placeholder) (some (c.messageAt placeholder d.payload)))
          exact .finish hh rfl hdue (hset rfl) rfl rfl
        · rw [if_neg hdue, if_neg fun h => hdue h.1]
          exact .rest (by simp [pumpReady, hn, hdue]) rfl
    | calling ticket job due =>
        simp only [takes, begins, finishes, stepPump, hn]
        by_cases hdue : due ≤ c.now
        · rw [if_pos hdue, if_pos hdue]
          obtain ⟨hh, hset, -⟩ := hw.hands_setStage hn (isLive_of_generation rfl rfl)
            (.through (.call ticket job) none)
          exact .finish hh rfl hdue (hset rfl) rfl rfl
        · rw [if_neg hdue, if_neg hdue]
          exact .rest (by simp [pumpReady, hn, hdue]) rfl
    | through w news =>
        have hstep : c.stepPump n = (c.tell news).nextItem n c.generation := by
          rw [stepPump, hn]
        have htakes : c.takes (.stepPump n) =
            (c.queue.take 1).map fun i => i.work c.messages.length := by
          simp only [takes, hn, if_true]
        simp only [begins, finishes, hn]
        rw [hstep, htakes]
        cases news with
        | none => exact pumpTurn_nextItem hw rfl rfl hn
        | some m => exact pumpTurn_nextItem (a := c.announce m) (hw.of_dispatch rfl) rfl rfl hn
    | ended =>
        simp only [takes, begins, finishes, stepPump, hn]
        exact .rest (by simp [pumpReady, hn]) rfl

theorem PumpTurn.messages (h : PumpTurn c n c' taken begun finished) (w : Work) :
    (w ∈ taken → c'.messages = c.entering w ∧ w = w.item.work c.messages.length) ∧
      (w ∈ begun → c'.messages = c.messages) ∧ (w ∈ finished → c'.messages = c.leaving w) := by
  cases h with
  | rest | stop => exact ⟨nofun, nofun, nofun⟩
  | begin hh hs hh' hq hm => exact ⟨nofun, fun _ => hm, nofun⟩
  | atOnce hh hh' hq hm =>
      refine ⟨nofun, fun _ => hm, fun hw => ?_⟩
      rw [List.mem_singleton.mp hw]
      exact hm
  | finish hh hs hdue hh' hq hm =>
      refine ⟨nofun, nofun, fun hw => ?_⟩
      rw [List.mem_singleton.mp hw]
      exact hm
  | take hh hq hh' hq' hm =>
      refine ⟨fun hw => ?_, nofun, nofun⟩
      rw [List.mem_singleton.mp hw, Work.item_work]
      exact ⟨hm, rfl⟩

/-! ## The diary stays on time -/

/-- Nothing was cleared, time stands still while anything can be done, and the diary is right. -/
structure Timed (c : Conversation) (d : Diary) : Prop where
  worked : c.WorkedOff
  generation : c.generation = 0
  clock : c.clock = .stepped
  follows : d.Follows c.now c.queue c.hands

theorem timed_start (settings : Settings) : (start settings .stepped).Timed .blank where
  worked := workedOff_start settings .stepped
  generation := rfl
  clock := rfl
  follows := .blank

theorem generation_perform (hw : c.WorkedOff) (hop : op ≠ .clear) :
    (c.perform op).generation = c.generation := by
  apply perform_board_cases (P := fun a _ => a.generation = c.generation) hw op
  case frame =>
    intro a b _ hb ih
    exact (congrArg (fun b => b.dispatch.generation) hb).trans ih
  case stay => rfl
  case push =>
    intro a _ i ha ih
    cases hp : a.pumping with
    | true =>
        rw [push_of_pumping hp]
        exact ih
    | false =>
        rw [push_of_idle hp (ha.queue_nil hp)]
        exact ih
  case add => exact fun _ _ => rfl
  case replace => exact fun _ _ => rfl
  case clear => exact fun h => absurd h hop
  case stepPump =>
    intro n _
    cases pumpStep_stepPump c n with
    | stay hb | goOn _ _ _ _ _ _ _ _ _ hb | deliver _ hb | leave _ _ hb | stop _ _ hb
    | take _ _ hb => exact congrArg (fun b => b.dispatch.generation) hb

theorem Timed.present (h : c.Timed d) : ∀ p ∈ c.pumps, p.generation = c.generation := by
  intro p hp
  have hle := h.worked.generation_le p hp
  rw [h.generation] at hle ⊢
  exact Nat.le_zero.mp hle

/-- A pump that cannot go on has an item that is not due yet. -/
theorem until_of_rest (hrest : ∀ n, c.pumpReady n = false) :
    ∀ stage ∈ c.hands, ∃ w due, stage.until? = some (w, due) ∧ c.now < due := by
  intro stage hstage
  obtain ⟨p, hp, rfl⟩ := List.mem_map.mp hstage
  obtain ⟨hp, hlive⟩ := List.mem_filter.mp hp
  obtain ⟨n, hn⟩ := List.mem_iff_getElem?.mp hp
  have hready := hrest n
  simp only [pumpReady, hn, Option.map_some] at hready
  obtain ⟨g, stage⟩ := p
  cases stage with
  | taken | through => cases hready
  | typing d placeholder due => exact ⟨_, due, rfl, by simpa using hready⟩
  | calling ticket job due => exact ⟨_, due, rfl, by simpa using hready⟩
  | ended => simp [Pump.isLive, PumpStage.work?] at hlive

theorem Timed.fed (h : c.Timed d) (hf : Fed c c' items) : Diary.Follows
    (d ++ ⟨items.map fun i => (c.now, i), (c.first items).map fun w => (c.now, w), [], []⟩)
    c.now c'.queue c'.hands := by
  rw [Diary.append_mk]
  simp only [List.append_nil]
  cases hf with
  | wait hidle hh hq =>
      rw [first_of_wait h.worked hidle, hh, hq, List.map_nil, List.append_nil]
      exact h.follows.wait items
  | @start i rest hidle hh hq hm =>
      have hempty : c.queue = [] := h.worked.queue_nil (h.worked.hands_eq_nil_iff.mp hidle)
      have hfollows := h.follows
      rw [hempty, hidle] at hfollows
      rw [first_of_idle h.worked hidle, hh, hq]
      exact hfollows.start i rest _

theorem Timed.turn (h : c.Timed d) {taken begun finished : List Work}
    (ht : PumpTurn c n c' taken begun finished) : Diary.Follows
    (d ++ ⟨[], taken.map fun w => (c.now, w),
      begun.map fun w => (c.now, w, w.lasts c.settings.timeout),
      finished.map fun w => (c.now, w)⟩) c.now c'.queue c'.hands := by
  rw [Diary.append_mk]
  have hfollows := h.follows
  cases ht with
  | rest hr he =>
      simp only [List.map_nil, List.append_nil]
      exact he ▸ hfollows
  | begin hh hs hh' hq hm =>
      simp only [List.map_nil, List.append_nil]
      rw [hh] at hfollows
      rw [hh', hq]
      exact hfollows.begin hs
  | @atOnce ticket hh hh' hq hm =>
      simp only [List.map_nil, List.append_nil]
      rw [hh] at hfollows
      rw [hh', hq]
      -- As if it were called and gave its value in the same moment.
      have hs : (PumpStage.calling ticket .openInput c.now).until? =
          some (.call ticket .openInput, c.now + 0) := rfl
      exact (hfollows.begin hs).finish hs (Nat.le_refl _) none
  | finish hh hs hdue hh' hq hm =>
      simp only [List.map_nil, List.append_nil]
      rw [hh] at hfollows
      rw [hh', hq]
      exact hfollows.finish hs hdue _
  | take hh hq hh' hq' hm =>
      simp only [List.map_nil, List.append_nil]
      rw [hh, hq] at hfollows
      rw [hh', hq']
      exact hfollows.take _
  | stop hh hq hh' hq' =>
      simp only [List.map_nil, List.append_nil]
      rw [hh, hq] at hfollows
      rw [hh', hq']
      exact hfollows.stop

theorem entry_of_ne (hstep : ∀ n, op ≠ .stepPump n) : c.entry op =
    ⟨(c.enqueues op).map fun i => (c.now, i),
      (c.first (c.enqueues op)).map fun w => (c.now, w), [], []⟩ := by
  cases op with
  | stepPump n => exact absurd rfl (hstep n)
  | _ => rfl

theorem Timed.follows_perform (h : c.Timed d) (hop : op ≠ .clear) (ha : c.Awaits op) :
    (d ++ c.entry op).Follows (c.perform op).now (c.perform op).queue (c.perform op).hands := by
  by_cases hstep : ∃ n, op = .stepPump n
  · obtain ⟨n, rfl⟩ := hstep
    rw [now_perform h.worked fun _ he => by cases he]
    exact h.turn (pumpTurn_stepPump h.worked h.present h.clock n)
  · have hne : ∀ n, op ≠ .stepPump n := fun n he => hstep ⟨n, he⟩
    have hfed := h.fed (fed_perform h.worked hop hne)
    rw [← entry_of_ne hne] at hfed
    by_cases hpass : ∃ ms, op = .pass ms
    · obtain ⟨ms, rfl⟩ := hpass
      refine hfed.pass fun stage hstage past hlt => ?_
      exact until_of_rest (c := c.perform (.pass past)) (fun n => ha n past hlt) stage hstage
    · rw [now_perform h.worked fun ms he => hpass ⟨ms, he⟩]
      exact hfed

theorem Timed.perform (h : c.Timed d) (hop : op ≠ .clear) (ha : c.Awaits op) :
    (c.perform op).Timed (d ++ c.entry op) where
  worked := h.worked.perform op
  generation := (generation_perform h.worked hop).trans h.generation
  clock := (clock_perform h.worked op).trans h.clock
  follows := h.follows_perform hop ha

theorem Timed.after (h : c.Timed d) {history : List Operation} (hclear : .clear ∉ history)
    (hpunctual : c.Punctual history) : (c.after history).Timed (d ++ c.diary history) := by
  induction history generalizing c d with
  | nil =>
      rw [diary, Diary.append_blank]
      exact h
  | cons op rest ih =>
      rw [List.mem_cons, not_or] at hclear
      rw [diary, ← Diary.append_assoc]
      exact ih (h.perform (Ne.symm hclear.1) hpunctual.1) hclear.2 hpunctual.2

/-- Nothing waits in the queue when no item is at hand. -/
theorem Timed.upToDate (h : c.Timed d) (hrest : ∀ n, c.pumpReady n = false) :
    d.UpToDate c.now :=
  h.follows.upToDate (fun hidle => h.worked.queue_nil (h.worked.hands_eq_nil_iff.mp hidle))
    (until_of_rest hrest)

/-! ## Coming to rest -/

/-- How many steps of the pump are left, at most, until time has to pass. -/
def load (c : Conversation) : Nat :=
  4 * c.queue.length + (c.hands.head?.map PumpStage.stepsLeft).getD 0

theorem stepsLeft_of_until? {stage : PumpStage} {w : Work} {due : Nat}
    (hs : stage.until? = some (w, due)) : stage.stepsLeft = 2 := by
  cases stage with
  | typing | calling => rfl
  | taken | through | ended => cases hs

theorem load_of_hands {stage : PumpStage} (hh : c.hands = [stage]) :
    c.load = 4 * c.queue.length + stage.stepsLeft := by
  rw [load, hh]
  rfl

theorem PumpTurn.load_lt (h : PumpTurn c n c' taken begun finished) (hr : c.pumpReady n = true) :
    c'.load < c.load := by
  cases h with
  | rest hr' => exact absurd (hr.symm.trans hr') (by decide)
  | begin hh hs hh' hq =>
      rw [load_of_hands hh, load_of_hands hh', hq, stepsLeft_of_until? hs]
      exact Nat.lt_succ_self _
  | atOnce hh hh' hq =>
      rw [load_of_hands hh, load_of_hands hh', hq]
      exact Nat.add_lt_add_left (by decide : 1 < 3) _
  | finish hh hs _ hh' hq =>
      rw [load_of_hands hh, load_of_hands hh', hq, stepsLeft_of_until? hs]
      exact Nat.lt_succ_self _
  | take hh hq hh' hq' =>
      rw [load_of_hands hh, load_of_hands hh', hq, hq', List.length_cons, PumpStage.stepsLeft,
        PumpStage.stepsLeft]
      omega
  | stop hh hq hh' hq' =>
      rw [load_of_hands hh, load, hh', hq, hq']
      exact Nat.lt_succ_self _

/-- Pumps go on for a while at most before time has to pass. -/
theorem Timed.exists_rest (h : c.Timed d) :
    ∃ pumps : List Nat, ∀ n, (c.after (pumps.map .stepPump)).pumpReady n = false := by
  induction hload : c.load using Nat.strongRecOn generalizing c d with
  | _ load ih =>
      by_cases hrest : ∃ n, c.pumpReady n = true
      · obtain ⟨n, hr⟩ := hrest
        have hlt := (pumpTurn_stepPump h.worked h.present h.clock n).load_lt hr
        have hnext : (c.perform (.stepPump n)).Timed (d ++ c.entry (.stepPump n)) :=
          h.perform (by nofun) trivial
        obtain ⟨pumps, hpumps⟩ := ih _ (hload ▸ hlt) hnext rfl
        exact ⟨n :: pumps, hpumps⟩
      · exact ⟨[], fun n => Bool.eq_false_iff.mpr fun hr => hrest ⟨n, hr⟩⟩

/-! ## Placeholders -/

/-- A placeholder stands at the place that is reserved for a message. -/
def ShowsTyping (c : Conversation) : Prop :=
  ∀ x ∈ c.reserved, (c.messages[x.1]?).map Message.payload = some .typing

theorem ShowsTyping.perform (h : c.ShowsTyping) (hw : c.WorkedOff)
    (hop : ∀ p, op ≠ .replace p) : (c.perform op).ShowsTyping := by
  intro x hx
  cases sheetStep_perform hw op with
  | stay _ _ _ hs =>
      obtain ⟨hmessages, hr, -⟩ := Sheet.mk.inj hs
      rw [hr] at hx
      rw [hmessages]
      exact h x hx
  | add _ _ _ _ hs =>
      obtain ⟨hmessages, hr, -⟩ := Sheet.mk.inj hs
      rw [hr] at hx
      have hx' := h x hx
      obtain ⟨m, hm, -⟩ := Option.map_eq_some_iff.mp hx'
      rw [hmessages, getElem?_add_of_lt (List.getElem?_eq_some_iff.mp hm).1]
      exact hx'
  | reserve _ _ _ _ _ hs =>
      obtain ⟨hmessages, hr, -⟩ := Sheet.mk.inj hs
      rw [hr] at hx
      rw [hmessages, List.mem_singleton.mp hx, getElem?_add_self]
      rfl
  | land _ _ _ _ _ hs =>
      obtain ⟨-, hr, -⟩ := Sheet.mk.inj hs
      rw [hr] at hx
      cases hx
  | replace he _ => exact absurd he (hop _)
  | clear _ hs =>
      obtain ⟨-, hr, -⟩ := Sheet.mk.inj hs
      rw [hr] at hx
      cases hx

theorem ShowsTyping.after (h : c.ShowsTyping) (hw : c.WorkedOff) {history : List Operation}
    (hreplace : ∀ p, .replace p ∉ history) : (c.after history).ShowsTyping := by
  induction history generalizing c with
  | nil => exact h
  | cons op rest ih =>
      have hop : ∀ p, op ≠ .replace p := fun p he => hreplace p (he ▸ List.mem_cons_self)
      exact ih (h.perform hw hop) (hw.perform op) fun p hp => hreplace p (List.mem_cons_of_mem _ hp)

/-- A message that was taken out of the queue and not finished has a place reserved. -/
theorem Timed.mem_reserved (h : c.Timed d) {t placeholder : Nat} {m : Delivery}
    (hx : (t, .message m placeholder) ∈ d.taken.drop d.finished.length) :
    (placeholder, m) ∈ c.reserved := by
  obtain ⟨stage, hstage, hbusy, hwork⟩ := h.follows.exists_hand hx
  refine List.mem_filterMap.mpr ⟨stage, hstage, ?_⟩
  cases stage with
  | taken | typing =>
      cases hwork
      rfl
  | calling => cases hwork
  | through | ended => cases hbusy

/-- What an operation does to the list of messages with an item. -/
theorem Timed.messages_perform (h : c.Timed d) (hop : op ≠ .clear) (w : Work) :
    (w ∈ c.takes op → (c.perform op).messages = c.entering w ∧
        w = w.item.work c.messages.length) ∧
      (w ∈ c.begins op → (c.perform op).messages = c.messages) ∧
      (w ∈ c.finishes op → (c.perform op).messages = c.leaving w) := by
  by_cases hstep : ∃ n, op = .stepPump n
  · obtain ⟨n, rfl⟩ := hstep
    exact (pumpTurn_stepPump h.worked h.present h.clock n).messages w
  · have hne : ∀ n, op ≠ .stepPump n := fun n he => hstep ⟨n, he⟩
    have hfed := fed_perform h.worked hop hne
    cases op with
    | stepPump n => exact absurd rfl (hne n)
    | _ => exact ⟨hfed.messages_of_mem h.worked, nofun, nofun⟩

/-! ## Histories -/

/-- When nothing is cleared and time stands still while a pump can go on: items are taken out of the
queue in their order, each at the later of the time at which it was queued and the time at which the
one before was finished; a pump begins with an item at the time at which it was taken, and finishes
it after the delay that was set when it began, or after the time that the function takes. When no
pump can go on all this was done that is due by now, and pumps come to that without time passing.
A message gets a placeholder at the end of the list when it is taken, and lands there when it is
finished; a function changes nothing in the list; and unless a message is replaced the placeholder
stands until then. -/
theorem items_keep_timetable (settings : Settings) (history : List Operation)
    (hclear : .clear ∉ history) (hpunctual : (start settings .stepped).Punctual history) :
    let c := (start settings .stepped).after history
    let d := (start settings .stepped).diary history
    d.OnTime ∧
      ((∀ n, c.pumpReady n = false) → d.UpToDate c.now) ∧
      (∃ pumps : List Nat, ∀ n, (c.after (pumps.map .stepPump)).pumpReady n = false) ∧
      (∀ op, op ≠ .clear → ∀ w,
        (w ∈ c.takes op → (c.perform op).messages = c.entering w ∧
          w = w.item.work c.messages.length) ∧
        (w ∈ c.begins op → (c.perform op).messages = c.messages) ∧
        (w ∈ c.finishes op → (c.perform op).messages = c.leaving w)) ∧
      ((∀ p, .replace p ∉ history) → ∀ t m placeholder,
        (t, .message m placeholder) ∈ d.taken.drop d.finished.length →
        (c.messages[placeholder]?).map Message.payload = some .typing) := by
  intro c d
  have h : c.Timed d := (timed_start settings).after hclear hpunctual
  refine ⟨h.follows.onTime, h.upToDate, h.exists_rest, fun op hop => h.messages_perform hop,
    fun hreplace t m placeholder hx => ?_⟩
  have hshown : c.ShowsTyping :=
    ShowsTyping.after (fun x hx => by cases hx) (workedOff_start settings .stepped) hreplace
  exact hshown _ (h.mem_reserved hx)

/-- While a text is typed the delay is changed and a function is queued. -/
def typedMeanwhile : List Operation :=
  [.setTimeout 3, .queue (.to "hello") none, .stepPump 0, .setTimeout 7, .pass 1,
    .call 0 (.host "ask" 5 .null), .pass 2, .stepPump 0, .stepPump 0, .stepPump 0, .pass 5,
    .stepPump 0, .stepPump 0]

theorem punctual_typedMeanwhile : (start .standard .stepped).Punctual typedMeanwhile := by
  refine ⟨trivial, trivial, trivial, trivial, ?_, trivial, ?_, trivial, trivial, trivial, ?_,
    trivial, trivial, trivial⟩
  -- There is one pump, and its item is due at the end of the time that passes, or later.
  · rintro (_ | n) past hlt
    · show decide (3 ≤ 0 + past) = false
      exact decide_eq_false (by omega)
    · rfl
  · rintro (_ | n) past hlt
    · show decide (3 ≤ 0 + 1 + past) = false
      exact decide_eq_false (by omega)
    · rfl
  · rintro (_ | n) past hlt
    · show decide (8 ≤ 0 + 1 + 2 + past) = false
      exact decide_eq_false (by omega)
    · rfl

theorem items_keep_timetable_typedMeanwhile :
    let d := (start .standard .stepped).diary typedMeanwhile
    .clear ∉ typedMeanwhile ∧ (start .standard .stepped).Punctual typedMeanwhile ∧
      d.OnTime ∧ d.UpToDate 8 ∧
      d.queued.map (·.1) = [0, 1] ∧ d.taken.map (·.1) = [0, 3] ∧
      d.begun.map (fun b => (b.1, b.2.2)) = [(0, 3), (3, 5)] ∧ d.finished.map (·.1) = [3, 8] := by
  intro d
  have hclear : .clear ∉ typedMeanwhile := by simp [typedMeanwhile]
  have hrest : ∀ n, ((start .standard .stepped).after typedMeanwhile).pumpReady n = false := by
    rintro (_ | n) <;> rfl
  obtain ⟨honTime, hupToDate, -⟩ :=
    items_keep_timetable .standard typedMeanwhile hclear punctual_typedMeanwhile
  exact ⟨hclear, punctual_typedMeanwhile, honTime, hupToDate hrest, rfl, rfl, rfl, rfl⟩

end Conversation

end Dialogue
