import Dialogue.Proofs.Input.Clearing
import Dialogue.Proofs.Queue.Steps
/-!
# What is queued before a wait is shown before it listens

A wait that opens the input field sends a function through the queue, and it registers when the
function has been called. By then all items that were queued before have been worked off, unless
they were thrown away.

The argument is about the books of the queue, which begin anew whenever the conversation is cleared.
The list of messages agrees with the books but for messages that the host has replaced, and nothing
that pumps of earlier generations do is on record.

* `Booked.perform` — every operation keeps the books, or begins new ones.
* `Standing.perform` — a wait listens only after its function was called.
* `shown_of_holdsSlot` — so all messages that were queued before it stand in the list.
-/

namespace Dialogue

/-- What still counts after an operation: nothing that was before a clearing. -/
def Operation.keeps {α : Type} (xs : List α) : Operation → List α
  | .clear => []
  | _ => xs

theorem Operation.keeps_of_ne {α : Type} {op : Operation} (h : op ≠ .clear) (xs : List α) :
    op.keeps xs = xs := by
  cases op with
  | clear => exact absurd rfl h
  | _ => rfl

/-- The item of a pump that is not through with it. -/
def PumpStage.pending? (stage : PumpStage) : Option Item :=
  if stage.isBusy then stage.work?.map Work.item else none

theorem PumpStage.job?_of_pending? {stage : PumpStage} {i : Item} (h : stage.pending? = some i) :
    stage.job? = i.job? := by
  cases stage with
  | taken w =>
      cases w <;>
      · cases h
        rfl
  | typing | calling =>
      cases h
      rfl
  | through | ended => cases h

namespace Conversation

variable {c c' : Conversation} {n t : Nat} {p : Pump} {past : List Operation} {seen : List Work}
  {all : List Item}

section Since

variable {α : Type} {yield : Conversation → Operation → List α} {history : List Operation}

/-- What the operations of a history yield since the conversation was last cleared, behind what has
counted before. -/
def gatheredSince (yield : Conversation → Operation → List α) (c : Conversation) (xs : List α) :
    List Operation → List α
  | [] => xs
  | op :: rest => (c.perform op).gatheredSince yield (op.keeps xs ++ yield c op) rest

theorem gatheredSince_append (xs : List α) (before after : List Operation) :
    c.gatheredSince yield xs (before ++ after) =
      (c.after before).gatheredSince yield (c.gatheredSince yield xs before) after := by
  induction before generalizing c xs with
  | nil => rfl
  | cons op rest ih => exact ih _

theorem gatheredSince_of_notMem (h : .clear ∉ history) (xs : List α) :
    c.gatheredSince yield xs history = xs ++ c.gathered yield history := by
  induction history generalizing c xs with
  | nil => exact (List.append_nil _).symm
  | cons op rest ih =>
      rw [List.mem_cons, not_or] at h
      rw [gatheredSince, gathered, Operation.keeps_of_ne (Ne.symm h.1), ih h.2, List.append_assoc]

/-- What was before a clearing does not count. -/
theorem gatheredSince_suffix (h : .clear ∈ history) (xs : List α) :
    c.gatheredSince yield xs history <:+ c.gathered yield history := by
  induction history generalizing c xs with
  | nil => cases h
  | cons op rest ih =>
      by_cases hrest : .clear ∈ rest
      · exact (ih hrest _).trans (List.suffix_append _ _)
      · obtain rfl : op = .clear := ((List.mem_cons.mp h).resolve_right hrest).symm
        rw [gatheredSince, gathered, gatheredSince_of_notMem hrest]
        exact List.suffix_rfl

/-- What an operation has yielded counts as long as nothing is cleared. -/
theorem mem_gatheredSince {x : α} {earlier between : List Operation} {op : Operation}
    (hx : x ∈ yield (c.after earlier) op) (hclear : .clear ∉ between) (xs : List α) :
    x ∈ c.gatheredSince yield xs (earlier ++ op :: between) := by
  rw [gatheredSince_append, gatheredSince, gatheredSince_of_notMem hclear]
  exact List.mem_append_left _ (List.mem_append_right _ hx)

end Since

/-! ## The list and the books -/

/-- A list of messages says what another one says, but for messages that were replaced. -/
structure Agrees (messages list : List Message) (past : List Operation) : Prop where
  length : list.length = messages.length
  payload : ∀ (k : Nat) (m : Message), messages[k]? = some m →
    ∃ m', list[k]? = some m' ∧ (m.payload = m'.payload ∨ .replace m.payload ∈ past)

namespace Agrees

variable {messages list : List Message}

theorem mono {op : Operation} (h : Agrees messages list past) :
    Agrees messages list (past ++ [op]) where
  length := h.length
  payload k m hm := by
    obtain ⟨m', hm', hp⟩ := h.payload k m hm
    exact ⟨m', hm', hp.imp_right (List.mem_append_left _)⟩

theorem append (h : Agrees messages list past) (more : List Message) :
    Agrees (messages ++ more) (list ++ more) past where
  length := by rw [List.length_append, List.length_append, h.length]
  payload k m hm := by
    by_cases hk : k < messages.length
    · rw [List.getElem?_append_left hk] at hm
      rw [List.getElem?_append_left (h.length ▸ hk)]
      exact h.payload k m hm
    · have hk : messages.length ≤ k := Nat.not_lt.mp hk
      rw [List.getElem?_append_right hk] at hm
      rw [List.getElem?_append_right (h.length ▸ hk), h.length]
      exact ⟨m, hm, .inl rfl⟩

/-- The same is written at one place of both lists. -/
theorem set {m m' : Message} {k : Nat} (h : Agrees messages list past)
    (hm : m.payload = m'.payload) : Agrees (messages.set k m) (list.set k m') past where
  length := by rw [List.length_set, List.length_set, h.length]
  payload j x hx := by
    by_cases hj : k = j
    · subst hj
      obtain ⟨hlt, hx⟩ := List.getElem?_eq_some_iff.mp hx
      rw [List.length_set, ← h.length] at hlt
      rw [List.getElem_set_self] at hx
      exact ⟨m', List.getElem?_set_self hlt, .inl (hx ▸ hm)⟩
    · rw [List.getElem?_set_ne hj] at hx ⊢
      exact h.payload j x hx

/-- A message is replaced, and the books do not know of it. -/
theorem replace {m : Message} {k : Nat} (h : Agrees messages list past)
    (hp : .replace m.payload ∈ past) : Agrees (messages.set k m) list past where
  length := by rw [List.length_set, h.length]
  payload j x hx := by
    by_cases hj : k = j
    · subst hj
      obtain ⟨hlt, hx⟩ := List.getElem?_eq_some_iff.mp hx
      rw [List.length_set, ← h.length] at hlt
      rw [List.getElem_set_self] at hx
      exact ⟨list[k], List.getElem?_eq_getElem hlt, .inr (hx ▸ hp)⟩
    · rw [List.getElem?_set_ne hj] at hx
      exact h.payload j x hx

end Agrees

/-- The books that were begun with the last clearing are right: `all` are the items that were queued
since. What was done is among the work that was seen. -/
def Booked (c : Conversation) (past : List Operation) (seen : List Work) (all : List Item) : Prop :=
  ∃ list journal done, Books list journal c.queue c.hands done all ∧ Agrees c.messages list past ∧
    ∀ w ∈ done, w ∈ seen

theorem hands_of_dispatch (h : c'.dispatch = c.dispatch) : c'.hands = c.hands := by
  obtain ⟨-, -, hg, hps⟩ := Dispatch.mk.inj h
  rw [hands, hands, live, live, hg, hps]

theorem isLive_of_generation (hg : p.generation = c.generation) (hp : p.stage.work?.isSome) :
    p.isLive c.generation = true := by
  rw [Pump.isLive, hg, hp]
  simp

theorem Booked.of_board (h : c.Booked past seen all) (e : c'.board = c.board) :
    c'.Booked past seen all := by
  obtain ⟨hd, hm⟩ := Board.mk.inj e
  have hq : c'.queue = c.queue := congrArg Dispatch.queue hd
  rw [Booked, hm, hq, hands_of_dispatch hd]
  exact h

theorem Booked.mono {op : Operation} {more : List Work} (h : c.Booked past seen all) :
    c.Booked (past ++ [op]) (seen ++ more) all := by
  obtain ⟨list, journal, done, hbooks, hagrees, hdone⟩ := h
  exact ⟨list, journal, done, hbooks, hagrees.mono, fun w hw =>
    List.mem_append_left _ (hdone w hw)⟩

theorem Booked.add (h : c.Booked past seen all) (m : Message) :
    ({ c with messages := c.messages ++ [m] } : Conversation).Booked past seen all := by
  obtain ⟨list, journal, done, hbooks, hagrees, hdone⟩ := h
  exact ⟨list ++ [m], journal, done, hbooks.append [m], hagrees.append [m], hdone⟩

theorem Booked.replaceLast {r : Payload} (h : c.Booked past seen all) (hr : .replace r ∈ past) :
    (c.replaceLast r).Booked past seen all := by
  by_cases hlt : c.lastIndex < c.messages.length
  · obtain ⟨list, journal, done, hbooks, hagrees, hdone⟩ := h
    have hm : (c.replaceLast r).messages =
        c.messages.set c.lastIndex (c.messageAt c.lastIndex r) := if_pos hlt
    refine ⟨list, journal, done, hbooks, ?_, hdone⟩
    rw [hm]
    exact hagrees.replace hr
  · have heq : c.replaceLast r = { c with messages := c.messages ++ [c.newMessage r] } := by
      rw [Conversation.replaceLast, replaceAt, if_neg hlt]
    rw [heq]
    exact h.add _

theorem Booked.push (h : c.Booked past seen all) (hw : c.WorkedOff) (i : Item) :
    (c.push i).Booked past seen (all ++ [i]) := by
  obtain ⟨list, journal, done, hbooks, hagrees, hdone⟩ := h
  cases hp : c.pumping with
  | true =>
      rw [push_of_pumping hp]
      exact ⟨list, journal, done, hbooks.enqueue i, hagrees, hdone⟩
  | false =>
      have hq := hw.queue_nil hp
      have hlive := hw.live_eq_nil hp
      rw [hq, hands, hlive] at hbooks
      obtain ⟨more, hm, hmore⟩ := exists_makeRoom ({ c with queue := [], pumping := true }) i
      rw [push_of_idle hp hq]
      refine ⟨list ++ more, journal, done, ?_, ?_, hdone⟩
      · rw [hands_startPump hlive, ← hagrees.length]
        refine hbooks.start i more ?_
        rw [hagrees.length]
        exact hmore
      · show Agrees ({ c with queue := [], pumping := true }.makeRoom i).messages _ _
        rw [hm]
        exact hagrees.append more

/-! ## Steps of a pump -/

theorem completes_through {g : Nat} {w : Work} {news : Option Message}
    (hn : c.pumps[n]? = some ⟨g, .through w news⟩) : c.completes (.stepPump n) = [w] := by
  rw [completes, hn]

/-- A pump goes on with its item. -/
theorem Booked.advance {stage : PumpStage} {es : List Event} (h : c.Booked past seen all)
    (hw : c.WorkedOff) (hn : c.pumps[n]? = some p) (hp : p.stage.work?.isSome)
    (hwork : stage.work? = p.stage.work?) (ht : stage.told = p.stage.told ++ es)
    (hd : ∀ w, stage.delivered? = some w → w.place? = none) :
    (c.setStage n stage).Booked past seen all := by
  obtain ⟨list, journal, done, hbooks, hagrees, hdone⟩ := h
  by_cases hg : c.generation = p.generation
  · obtain ⟨hhands, hset, -⟩ := hw.hands_setStage hn (isLive_of_generation hg.symm hp) stage
    rw [hhands] at hbooks
    refine ⟨list, journal ++ es.map fun e => (0, e), done, ?_, hagrees, hdone⟩
    rw [hset (hwork ▸ hp)]
    exact hbooks.advance hwork (by simp [Function.comp_def]) ht hd
  · refine ⟨list, journal, done, ?_, hagrees, hdone⟩
    rw [hands_setStage_of_ne hn hg]
    exact hbooks

/-- The message of a pump takes the place of its placeholder. -/
theorem Booked.deliver {d : Delivery} {placeholder due : Nat} {news : Option Message}
    (h : c.Booked past seen all) (hw : c.WorkedOff)
    (hn : c.pumps[n]? = some ⟨c.generation, .typing d placeholder due⟩) :
    ((c.replaceAt placeholder d.payload).setStage n
      (.through (.message d placeholder) news)).Booked past seen all := by
  obtain ⟨list, journal, done, hbooks, hagrees, hdone⟩ := h
  have hr : (c.replaceAt placeholder d.payload).WorkedOff := hw.of_dispatch rfl
  obtain ⟨hhands, hset, -⟩ := hr.hands_setStage hn (isLive_of_generation rfl rfl)
    (.through (.message d placeholder) news)
  have hhands : c.hands = [.typing d placeholder due] := hhands
  rw [hhands] at hbooks
  have hlt : placeholder < c.messages.length := by
    rw [← hagrees.length]
    exact hbooks.inside (placeholder, d.payload) (by simp [PumpStage.work?, Work.place?])
  have hm : (c.replaceAt placeholder d.payload).messages =
      c.messages.set placeholder (c.messageAt placeholder d.payload) := if_pos hlt
  refine ⟨list.set placeholder (c.messageAt placeholder d.payload),
    journal ++ d.hook.toList.map fun e => (0, e), done, ?_, ?_, hdone⟩
  · rw [hset rfl]
    exact hbooks.deliver rfl (by simp [Function.comp_def])
  · show Agrees (c.replaceAt placeholder d.payload).messages _ _
    rw [hm]
    exact hagrees.set rfl

/-- A pump that is through with its item finds no other one. -/
theorem Booked.stop {w : Work} {news : Option Message} (h : c.Booked past seen all)
    (hw : c.WorkedOff) (hn : c.pumps[n]? = some ⟨c.generation, .through w news⟩) :
    ({ c with pumping := false }.setStage n .ended).Booked past (seen ++ [w]) all := by
  obtain ⟨list, journal, done, hbooks, hagrees, hdone⟩ := h
  obtain ⟨hhands, -, hended⟩ := hw.hands_setStage hn (isLive_of_generation rfl rfl) .ended
  rw [hhands] at hbooks
  refine ⟨list, journal, done ++ [w], ?_, hagrees, fun v hv => ?_⟩
  · show Books list journal c.queue (c.setStage n .ended).hands _ _
    rw [hended]
    exact hbooks.release
  · exact List.mem_append.mpr ((List.mem_append.mp hv).imp_left (hdone v))

/-- A pump that is through with its item takes the next one. -/
theorem Booked.take {w : Work} {news : Option Message} {i : Item} {rest : List Item}
    (h : c.Booked past seen all) (hw : c.WorkedOff)
    (hn : c.pumps[n]? = some ⟨c.generation, .through w news⟩) (hq : c.queue = i :: rest) :
    (({ c with queue := rest }.makeRoom i).setStage n
      (.taken (i.work c.messages.length))).Booked past (seen ++ [w]) all := by
  obtain ⟨list, journal, done, hbooks, hagrees, hdone⟩ := h
  obtain ⟨hhands, hset, -⟩ := hw.hands_setStage hn (isLive_of_generation rfl rfl)
    (.taken (i.work c.messages.length))
  rw [hhands, hq] at hbooks
  obtain ⟨more, hm, hmore⟩ := exists_makeRoom ({ c with queue := rest }) i
  refine ⟨list ++ more, journal, done ++ [w], ?_, ?_, fun v hv => ?_⟩
  · show Books (list ++ more) journal rest
      (c.setStage n (.taken (i.work c.messages.length))).hands _ _
    rw [hset rfl, ← hagrees.length]
    refine hbooks.release.take more ?_
    rw [hagrees.length]
    exact hmore
  · show Agrees ({ c with queue := rest }.makeRoom i).messages _ _
    rw [hm]
    exact hagrees.append more
  · exact List.mem_append.mpr ((List.mem_append.mp hv).imp_left (hdone v))

theorem Booked.stepPump (h : c.Booked past seen all) (hw : c.WorkedOff) (n : Nat) :
    (c.stepPump n).Booked past (seen ++ c.completes (.stepPump n)) all := by
  have hmore : ∀ {c' : Conversation}, c'.Booked past seen all →
      c'.Booked past (seen ++ c.completes (.stepPump n)) all := by
    rintro c' ⟨list, journal, done, hbooks, hagrees, hdone⟩
    exact ⟨list, journal, done, hbooks, hagrees, fun w hw => List.mem_append_left _ (hdone w hw)⟩
  have hstep := pumpStep_stepPump c n
  generalize c.stepPump n = c' at hstep ⊢
  cases hstep with
  | stay hb => exact hmore (h.of_board hb)
  | goOn stage _ hn hp hwork ht hbusy hjob hd hb =>
      exact hmore ((h.advance hw hn hp hwork ht hd).of_board hb)
  | deliver hn hb => exact hmore ((h.deliver hw hn).of_board hb)
  | leave hn hg hb =>
      obtain ⟨list, journal, done, hbooks, hagrees, hdone⟩ := h
      have hleft : (c.setStage n .ended).Booked past seen all := by
        refine ⟨list, journal, done, ?_, hagrees, hdone⟩
        rw [hands_setStage_of_ne hn hg]
        exact hbooks
      exact hmore (hleft.of_board hb)
  | stop hn hq hb =>
      rw [completes_through hn]
      exact (h.stop hw hn).of_board hb
  | take hn hq hb =>
      rw [completes_through hn]
      exact (h.take hw hn hq).of_board hb

/-! ## Histories -/

/-- New books are begun when a conversation is cleared. -/
theorem booked_clear (hw : c.WorkedOff) (past : List Operation) (seen : List Work) :
    c.clear.Booked past seen [] := by
  obtain ⟨signals, heq⟩ := clear_eq c
  have hlive : c.clear.live = [] := hw.clear.live_eq_nil (by rw [heq])
  refine ⟨[], [], [], ?_, ?_, fun _ hw => by cases hw⟩
  · rw [hands, hlive, heq]
    exact (kept_start c.settings c.clock).books
  · rw [heq]
    exact ⟨rfl, fun _ _ hm => by cases hm⟩

/-- Every operation keeps the books, or begins new ones. -/
theorem Booked.perform (h : c.Booked past seen all) (hw : c.WorkedOff) (op : Operation) :
    (c.perform op).Booked (op.keeps past ++ [op]) (op.keeps seen ++ c.completes op)
      (op.keeps all ++ c.enqueues op) := by
  by_cases hop : op = .clear
  · subst hop
    exact booked_clear hw _ _
  · rw [Operation.keeps_of_ne hop, Operation.keeps_of_ne hop, Operation.keeps_of_ne hop]
    apply perform_board_cases (P := fun c' items =>
      c'.Booked (past ++ [op]) (seen ++ c.completes op) (all ++ items)) hw op
    case frame => exact fun a b items hb ih => Booked.of_board ih hb
    case stay =>
      rw [List.append_nil]
      exact h.mono
    case push =>
      intro a items i ha ih
      rw [← List.append_assoc]
      exact Booked.push ih ha i
    case add =>
      intro m _
      rw [List.append_nil]
      exact h.mono.add m
    case replace =>
      rintro r rfl
      rw [List.append_nil]
      exact h.mono.replaceLast (List.mem_append_right _ List.mem_cons_self)
    case clear => exact fun he => absurd he hop
    case stepPump =>
      rintro n rfl
      obtain ⟨list, journal, done, hbooks, hagrees, hdone⟩ := h.stepPump hw n
      rw [List.append_nil]
      exact ⟨list, journal, done, hbooks, hagrees.mono, hdone⟩

theorem Booked.after (h : c.Booked past seen all) (hw : c.WorkedOff) (history : List Operation) :
    (c.after history).Booked (c.gatheredSince (fun _ op => [op]) past history)
      (c.gatheredSince completes seen history) (c.gatheredSince enqueues all history) := by
  induction history generalizing c past seen all with
  | nil => exact h
  | cons op rest ih => exact ih (h.perform hw op) (hw.perform op)

theorem booked_start (settings : Settings) (clock : Clock) :
    (start settings clock).Booked [] [] [] :=
  ⟨[], [], [], (kept_start settings clock).books, ⟨rfl, fun _ _ hm => by cases hm⟩,
    fun _ hw => by cases hw⟩

/-! ## Waits and their functions -/

/-- Where a wait stands for which the function with the given ticket opens the field: it listens
only when the function is carried no longer. -/
inductive Standing (c : Conversation) (n t : Nat) : Prop where
  | opening (hs : c.waitStage n = .opening t)
  | ended {result : Except RunError Json} (hs : c.waitStage n = .ended result)
  | left (hs : c.waitStage n = .dropped)
  | called (hc : ∀ job, (t, job) ∉ c.jobs)

theorem Standing.perform (h : c.Standing n t) (ha : c.Attended) (hn : n < c.waits.length)
    (ht : t < c.tickets.length) (op : Operation) : (c.perform op).Standing n t := by
  -- A function that is carried no longer is not queued again.
  have hcalled : (∀ job, (t, job) ∉ c.jobs) → (c.perform op).Standing n t := by
    refine fun hc => .called fun job hmem => ?_
    rcases mem_jobs_perform ha.worked hmem with hmem | hmem
    · exact hc job hmem
    · exact Nat.ne_of_lt ht (eq_of_mem_enqueues hmem)
  have hover : ∀ {stage : WaitStage}, c.waitStage n = stage → (∀ t, stage ≠ .opening t) →
      (∀ r, stage ≠ .listening r) →
      (c.perform op).waitStage n = stage ∨ (c.perform op).waitStage n = .dropped := by
    intro stage hs hopening hlistening
    cases fared_perform ha hn op with
    | left hl => exact .inr hl
    | stayed hst => exact .inl (hst.trans hs)
    | stepped hd =>
        have hstay : c.stepWait n = c := by
          rw [stepWait, hs]
          cases stage with
          | opening t => exact absurd rfl (hopening t)
          | listening r => exact absurd rfl (hlistening r)
          | ended | dropped => rfl
        rw [hstay] at hd
        exact .inl ((waitStage_of_waits (congrArg Desk.waits hd) n).trans hs)
  cases h with
  | called hc => exact hcalled hc
  | ended hs =>
      rcases hover hs (fun _ => WaitStage.noConfusion) (fun _ => WaitStage.noConfusion) with h | h
      · exact .ended h
      · exact .left h
  | left hs =>
      rcases hover hs (fun _ => WaitStage.noConfusion) (fun _ => WaitStage.noConfusion) with h | h
      · exact .left h
      · exact .left h
  | opening hs =>
      cases fared_perform ha hn op with
      | left hl => exact .left hl
      | stayed hst => exact .opening (hst.trans hs)
      | stepped hd =>
          have hw : (c.perform op).waitStage n = (c.stepWait n).waitStage n :=
            waitStage_of_waits (congrArg Desk.waits hd) n
          have hstep := waitStep_stepWait c n
          generalize c.stepWait n = c' at hstep hw
          cases hstep with
          | stay => exact .opening (hw.trans hs)
          | listen hs' hf =>
              -- The function has given its value.
              cases hs.symm.trans hs'
              refine hcalled fun job hmem => ?_
              rcases ha.carried.fate_of_mem t (mem_carried_of_mem_jobs hmem) with h | h
              · cases hf.symm.trans h
              · cases hf.symm.trans h
          | lose hs' hf => exact .ended (hw.trans (waitStage_setWait_self hn))
          | receive hs' | miss hs' => cases hs.symm.trans hs'

theorem Standing.after (h : c.Standing n t) (ha : c.Attended) (hn : n < c.waits.length)
    (ht : t < c.tickets.length) (history : List Operation) : (c.after history).Standing n t := by
  induction history generalizing c with
  | nil => exact h
  | cons op rest ih =>
      exact ih (h.perform ha hn ht op) (ha.perform op)
        (Nat.lt_of_lt_of_le hn (length_waits_perform ha.worked op))
        (Nat.lt_of_lt_of_le ht (length_tickets_perform ha.worked op))

/-- When a wait that opens the field holds the input slot, its function is carried no longer. -/
theorem notMem_jobs_of_holdsSlot (ha : c.Attended) {owner : Nat} {later : List Operation}
    (hholds : ((c.beginWait owner true).after later).holdsSlot c.waits.length = true) (job : Job) :
    (c.tickets.length, job) ∉ ((c.beginWait owner true).after later).jobs := by
  have hdesk := desk_beginWait ha.worked owner
  have hwaits : (c.beginWait owner true).waits =
      c.waits ++ [⟨owner, true, .opening c.tickets.length⟩] := congrArg Desk.waits hdesk
  have htickets : (c.beginWait owner true).tickets = c.tickets ++ [⟨owner, .waiting⟩] :=
    congrArg Desk.tickets hdesk
  have hstanding : ((c.beginWait owner true).after later).Standing c.waits.length
      c.tickets.length := by
    refine (Standing.opening (waitStage_append_self hwaits)).after
      (ha.perform (.beginWait owner true)) ?_ ?_ later
    · rw [hwaits, List.length_append, List.length_singleton]
      omega
    · rw [htickets, List.length_append, List.length_singleton]
      omega
  obtain ⟨r, hr, -⟩ := holdsSlot_iff.mp hholds
  cases hstanding with
  | called hc => exact hc job
  | opening hs | ended hs | left hs => exact WaitStage.noConfusion (hs.symm.trans hr)

/-! ## What is still to come -/

/-- The items of the present generation that are not worked off. -/
def toCome (c : Conversation) : List Item := c.hands.filterMap PumpStage.pending? ++ c.queue

/-- A function that is carried no longer is not to come. -/
theorem notMem_toCome {job : Job} (hc : ∀ job, (t, job) ∉ c.jobs) : .call t job ∉ c.toCome := by
  intro hmem
  rcases List.mem_append.mp hmem with hmem | hmem
  · obtain ⟨stage, hs, hpending⟩ := List.mem_filterMap.mp hmem
    obtain ⟨p, hp, rfl⟩ := List.mem_map.mp hs
    have hjob : p.stage.job? = some (t, job) := PumpStage.job?_of_pending? hpending
    exact hc job (mem_jobs_iff.mpr (.inr ⟨p, List.mem_of_mem_filter hp, hjob⟩))
  · exact hc job (mem_jobs_iff.mpr (.inl ⟨_, hmem, rfl⟩))

/-- A pump is through with the item in its hands, or the item is still to come. -/
theorem exists_hands_eq (hw : c.WorkedOff) : ∃ front, front.length ≤ 1 ∧
    (c.hands.filterMap PumpStage.work?).map Work.item ++ c.queue = front ++ c.toCome := by
  have hlive : c.live.length ≤ 1 := by
    rw [hw.live_length]
    split <;> omega
  rw [toCome]
  match hh : c.hands with
  | [] => exact ⟨[], Nat.zero_le 1, rfl⟩
  | [stage] =>
      cases stage with
      | taken | typing | calling => exact ⟨[], Nat.zero_le 1, rfl⟩
      | through w news => exact ⟨[w.item], Nat.le_refl 1, rfl⟩
      | ended => exact ⟨[], Nat.zero_le 1, rfl⟩
  | _ :: _ :: _ =>
      have hlen : c.hands.length ≤ 1 := by rwa [hands, List.length_map]
      rw [hh] at hlen
      simp at hlen

/-- All that was queued since the last clearing has been worked off or is still to come. -/
theorem Booked.toCome_suffix (h : c.Booked past seen all) (hw : c.WorkedOff) :
    c.toCome <:+ all := by
  obtain ⟨list, journal, done, hbooks, -, -⟩ := h
  obtain ⟨front, -, hfront⟩ := exists_hands_eq hw
  rw [← hbooks.items, List.map_append, List.append_assoc, hfront, ← List.append_assoc]
  exact List.suffix_append _ _

/-- The messages of some works stand in the list, each at the place of its placeholder and in the
order of the works, but for those that were replaced. -/
structure Stand (c : Conversation) (past : List Operation) (works : List Work) : Prop where
  increasing : (works.filterMap Work.place?).Pairwise fun x y => x.1 < y.1
  shown : ∀ x ∈ works.filterMap Work.place?,
    ∃ m, c.messages[x.1]? = some m ∧ (m.payload = x.2 ∨ .replace m.payload ∈ past)

/-- The messages that are delivered according to the books stand in the list. -/
theorem Booked.stand (h : c.Booked past seen all) : ∃ done, c.Stand past done ∧
    (∀ w ∈ done, w ∈ seen) ∧
      (done ++ c.hands.filterMap PumpStage.work?).map Work.item ++ c.queue = all := by
  obtain ⟨list, journal, done, hbooks, hagrees, hdone⟩ := h
  have hfirst : ∀ stages : List Work,
      (done.filterMap Work.place?).Sublist ((done ++ stages).filterMap Work.place?) :=
    fun stages => (List.sublist_append_left done stages).filterMap _
  refine ⟨done, ⟨hbooks.increasing.sublist (hfirst _), fun x hx => ?_⟩, hdone, hbooks.items⟩
  obtain ⟨m', hm', hpayload⟩ := Option.map_eq_some_iff.mp
    (hbooks.stands x ((hfirst _).subset hx))
  have hlt : x.1 < c.messages.length := by
    rw [← hagrees.length]
    exact (List.getElem?_eq_some_iff.mp hm').1
  obtain ⟨m'', hm'', hagree⟩ := hagrees.payload x.1 _ (List.getElem?_eq_getElem hlt)
  cases hm'.symm.trans hm''
  rw [hpayload] at hagree
  exact ⟨_, List.getElem?_eq_getElem hlt, hagree⟩

theorem Stand.take {works : List Work} (h : c.Stand past works) (k : Nat) :
    c.Stand past (works.take k) where
  increasing := h.increasing.sublist ((List.take_sublist k works).filterMap _)
  shown x hx := h.shown x (((List.take_sublist k works).filterMap _).subset hx)

/-- What follows an item that is not in the second part of a list ends with this part. -/
theorem exists_of_append_eq {α : Type} {a : α} {front rest before after : List α}
    (h : front ++ rest = before ++ a :: after) (ha : a ∉ rest) :
    ∃ more, front = before ++ a :: more ∧ after = more ++ rest := by
  rcases List.append_eq_append_iff.mp h with ⟨as, -, hrest⟩ | ⟨as, hfront, has⟩
  · exact absurd (hrest ▸ List.mem_append_right as List.mem_cons_self) ha
  · cases as with
    | nil =>
        obtain rfl : a :: after = rest := has
        exact absurd List.mem_cons_self ha
    | cons b more =>
        obtain ⟨rfl, hafter⟩ := List.cons.inj has
        exact ⟨more, hfront, hafter⟩

/-- When a function has been finished, all that was queued before it has been worked off. -/
theorem Booked.exists_works {before after : List Item} {job : Job} (h : c.Booked past seen all)
    (hw : c.WorkedOff) (hall : all = before ++ .call t job :: after)
    (hc : ∀ job, (t, job) ∉ c.jobs) : c.toCome <:+ after ∧ ∃ works,
      works.map Work.item = before ∧ (∀ w ∈ works, w ∈ seen) ∧ c.Stand past works := by
  obtain ⟨done, hstand, hdone, hitems⟩ := h.stand
  obtain ⟨front, hlen, hfront⟩ := exists_hands_eq hw
  rw [List.map_append, List.append_assoc, hfront, ← List.append_assoc, hall] at hitems
  obtain ⟨more, hsplit, hafter⟩ := exists_of_append_eq hitems (notMem_toCome hc)
  refine ⟨hafter ▸ List.suffix_append _ _, done.take before.length, ?_,
    fun w hw => hdone w (List.mem_of_mem_take hw), hstand.take _⟩
  -- One item at most is in the hands of a pump, so those before the function are all done.
  have hle : before.length ≤ (done.map Work.item).length := by
    have := congrArg List.length hsplit
    simp only [List.length_append, List.length_cons] at this
    omega
  have htake := congrArg (List.take before.length) hsplit
  rw [List.take_append_of_le_length hle, List.take_left] at htake
  rw [List.map_take]
  exact htake

/-- When a wait that opens the input field holds the input slot, nothing that was queued before it
began is still to come. If nothing was cleared since then, the messages that were queued before,
after something was cleared for the last time, stand in the list. -/
theorem shown_of_holdsSlot (settings : Settings) (clock : Clock) (before later : List Operation)
    (owner : Nat)
    (hholds : ((start settings clock).after (before ++ .beginWait owner true :: later)).holdsSlot
      ((start settings clock).after before).waits.length = true) :
    let c₀ := start settings clock
    let past := before ++ .beginWait owner true :: later
    (c₀.after past).toCome <:+ ((c₀.after before).beginWait owner true).gathered enqueues later ∧
      (.clear ∉ later → ∃ works, works.map Work.item = c₀.gatheredSince enqueues [] before ∧
        (∀ w ∈ works, w ∈ c₀.gatheredSince completes [] past) ∧
        (c₀.after past).Stand (c₀.gatheredSince (fun _ op => [op]) [] past) works) := by
  intro c₀ past
  let c₁ := c₀.after before
  let c₂ := c₁.beginWait owner true
  have h₁ : c₁.Attended := (attended_start settings clock).after before
  have h₂ : c₂.Attended := h₁.perform (.beginWait owner true)
  have hafter : c₀.after past = c₂.after later := List.foldl_append
  have hholds : (c₀.after past).holdsSlot c₁.waits.length = true := hholds
  have hbooked : (c₀.after past).Booked _ _ _ :=
    (booked_start settings clock).after (workedOff_start settings clock) past
  rw [hafter] at hholds hbooked ⊢
  have hworked := (h₂.after later).worked
  have hqueued : c₀.gatheredSince enqueues [] past = c₂.gatheredSince enqueues
      (c₀.gatheredSince enqueues [] before ++ [.call c₁.tickets.length .openInput]) later :=
    gatheredSince_append _ _ _
  by_cases hclear : .clear ∈ later
  · refine ⟨?_, fun hnot => absurd hclear hnot⟩
    exact (hbooked.toCome_suffix hworked).trans (hqueued ▸ gatheredSince_suffix hclear _)
  · rw [gatheredSince_of_notMem hclear, List.append_assoc] at hqueued
    have hworks := hbooked.exists_works hworked hqueued (notMem_jobs_of_holdsSlot h₁ hholds)
    exact ⟨hworks.1, fun _ => hworks.2⟩

end Conversation

end Dialogue
