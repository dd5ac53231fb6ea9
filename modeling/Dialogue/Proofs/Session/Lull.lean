import Dialogue.Proofs.Input.Shown
import Dialogue.Proofs.Session.Interruption
/-!
# A run falls silent before it goes on

The run of a script waits for input behind everything that it has said: the input field opens when
all was delivered, and the forwarder has looked for somebody who waits before the run does. So when
the run gets an answer, time has passed since the last message was delivered, unless a line was
typed just then.

* `Calm` — nothing lands, and nothing was delivered right now, or something was typed as well.
* `Lull` — how far the run is, and that it is calm but for the time in which it waits.
* `Lull.turn_of_ne`, `Lull.turn_run`, `Lull.arrive`, `Lull.receive` — that is so all the time.
-/

namespace Dialogue

namespace Conversation

variable {c c' : Conversation} {op : Option Operation} {n t : Nat}

/-! ## Pumps and notices only -/

/-- Nothing happens but that a pump or a notice goes on. -/
inductive Inner : Option Operation → Prop
  | rest : Inner none
  | pump (n : Nat) : Inner (some (.stepPump n))
  | notice (n : Nat) : Inner (some (.stepNotice n))

/-- An operation that queues nothing lets nothing come. -/
theorem toCome_suffix {o : Operation} (hw : c.WorkedOff) (hne : o ≠ .clear)
    (hq : c.enqueues o = []) : (c.perform o).toCome <:+ c.toCome := by
  have h := toCome_perform hw hne
  rwa [hq, List.append_nil] at h

theorem Inner.toCome (hi : Inner op) (hw : c.WorkedOff) : (c.doing op).toCome <:+ c.toCome := by
  cases hi with
  | rest => exact List.suffix_refl _
  | pump n => exact toCome_suffix hw Operation.noConfusion rfl
  | notice n => exact toCome_suffix hw Operation.noConfusion rfl

theorem Inner.waits (hi : Inner op) : (c.doing op).waits = c.waits := by
  cases hi with
  | rest => rfl
  | pump n =>
      rcases desk_stepPump c n with hd | ⟨t, v, hd⟩
      · exact congrArg Desk.waits hd
      · exact congrArg Desk.waits hd
  | notice n => exact congrArg Desk.waits (desk_stepNotice c n)

theorem Inner.slot (hi : Inner op) : (c.doing op).slot = c.slot := by
  cases hi with
  | rest => rfl
  | pump n =>
      rcases desk_stepPump c n with hd | ⟨t, v, hd⟩
      · exact congrArg Desk.slot hd
      · exact congrArg Desk.slot hd
  | notice n => exact congrArg Desk.slot (desk_stepNotice c n)

/-- No call is thrown away. -/
theorem Inner.fate (hi : Inner op) (h : c.fate t ≠ .lost) : (c.doing op).fate t ≠ .lost := by
  have hsame : (c.doing op).desk = c.desk → (c.doing op).fate t ≠ .lost := by
    intro hd
    rwa [fate_of_tickets (congrArg Desk.tickets hd)]
  cases hi with
  | rest => exact h
  | notice n => exact hsame (desk_stepNotice c n)
  | pump n =>
      rcases desk_stepPump c n with hd | ⟨t', v, hd⟩
      · exact hsame hd
      · have hfate : (c.doing (some (.stepPump n))).fate t = (c.settle t' (.answered v)).fate t :=
          fate_of_tickets (congrArg Desk.tickets hd) t
        rw [hfate]
        by_cases hwaiting : c.fate t = .waiting
        · by_cases he : t = t'
          · subst he
            rw [fate_settle_self hwaiting]
            exact Fate.noConfusion
          · rwa [fate_settle_of_ne he]
        · rwa [fate_settle_of_ne_waiting hwaiting]

/-- A call that was answered is not to come. -/
theorem notMem_toCome_of_answered (h : c.Carried) {v : Json} (ht : c.fate t = .answered v)
    (job : Job) : .call t job ∉ c.toCome := by
  refine notMem_toCome fun job hmem => ?_
  rcases h.fate_of_mem t (mem_carried_of_mem_jobs hmem) with hf | hf
  · cases ht.symm.trans hf
  · cases ht.symm.trans hf

/-- Nothing is to come when the last of all that is to come was answered. -/
theorem toCome_eq_nil_of_answered (h : c.Carried) {v : Json} (ht : c.fate t = .answered v)
    {job : Job} (hlast : ∀ i ∈ c.toCome.getLast?, i = .call t job) : c.toCome = [] := by
  by_contra hne
  have hmem := hlast _ (List.getLast?_eq_some_getLast hne)
  refine notMem_toCome_of_answered h ht job ?_
  rw [← hmem]
  exact List.getLast_mem hne

/-! ## A step of a wait -/

/-- While the input field is about to open nothing happens until the call is answered, and then
somebody waits for an answer. -/
theorem stepWait_of_opening (h : c.Asking) (hs : c.waitStage n = .opening t)
    (hf : c.fate t ≠ .lost) (hfree : c.isAwaiting = false) :
    c.fate t = .waiting ∧ c.stepWait n = c ∨
      (∃ v, c.fate t = .answered v) ∧ ∃ r, (c.stepWait n).waitStage n = .listening r ∧
        (c.stepWait n).slot.receiver r = .waiting := by
  have hlt : n < c.waits.length := lt_of_waitStage hs WaitStage.noConfusion
  unfold stepWait callResult?
  rw [hs]
  dsimp only
  cases hfate : c.fate t with
  | waiting => exact .inl ⟨rfl, rfl⟩
  | answered v =>
      dsimp only
      rw [listen_of_free hfree]
      exact .inr ⟨⟨v, rfl⟩, _, waitStage_setWait_self hlt, InputSlot.receiver_opened_self⟩
  | lost => exact absurd hfate hf
  | dropped => exact absurd hfate (h.fate_ne n t hs)

theorem waitResult?_of_listening {r : Nat} (h : c.waitStage n = .listening r) :
    c.waitResult? n = none := by
  rw [waitResult?, h]

theorem stepWait_of_waiting {r : Nat} (hs : c.waitStage n = .listening r)
    (hr : c.slot.receiver r = .waiting) : c.stepWait n = c := by
  unfold stepWait InputSlot.take
  rw [hs]
  dsimp only
  rw [hr]

/-- When the input field is open the wait does nothing until it ends, and nobody else begins to wait
for an answer. -/
theorem stepWait_of_not_opening (hs : ∀ t, c.waitStage n ≠ .opening t) :
    ((c.stepWait n).waitResult? n = none → c.stepWait n = c) ∧
      ((c.stepWait n).isAwaiting = true → c.isAwaiting = true) := by
  have hended : ∀ {a : Conversation} {r : Nat} {result}, c.waitStage n = .listening r →
      a.waits = c.waits → (a.setWait n (.ended result)).waitResult? n ≠ none := by
    intro a r result hr ha
    have hlt : n < a.waits.length := ha ▸ lt_of_waitStage hr WaitStage.noConfusion
    rw [waitResult?, waitStage_setWait_self hlt]
    exact Option.some_ne_none _
  have hstep := waitStep_stepWait c n
  generalize c.stepWait n = c' at hstep ⊢
  cases hstep with
  | stay => exact ⟨fun _ => rfl, id⟩
  | listen h => exact absurd h (hs _)
  | lose h => exact absurd h (hs _)
  | miss h => exact ⟨fun hnone => absurd hnone (hended h rfl), id⟩
  | @receive r v h hr =>
      refine ⟨fun hnone => absurd hnone (hended h rfl), fun ha => ?_⟩
      have ha : (c.slot.setReceiver r .closed).isPending = true := ha
      obtain ⟨r', hr'⟩ := Option.isSome_iff_exists.mp ha
      obtain ⟨hreg, hwaiting⟩ := InputSlot.waiter?_eq_some_iff.mp hr'
      have hne : r' ≠ r := by
        rintro rfl
        rcases InputSlot.receiver_setReceiver_cases c.slot r' .closed with hx | hx
        · cases hx.symm.trans hwaiting
        · cases hx.symm.trans hwaiting
      rw [InputSlot.receiver_setReceiver_of_ne hne] at hwaiting
      exact Option.isSome_iff_exists.mpr ⟨r', InputSlot.waiter?_eq_some_iff.mpr ⟨hreg, hwaiting⟩⟩

/-- The function that opens the input field is the last of all that is to come. -/
theorem last_toCome_beginWait (hw : c.WorkedOff) (owner : Nat) :
    ∀ i ∈ (c.perform (.beginWait owner true)).toCome.getLast?,
      i = .call c.tickets.length .openInput := by
  intro i hi
  obtain ⟨front, hfront⟩ : (c.perform (.beginWait owner true)).toCome <:+
      c.toCome ++ [Item.call c.tickets.length .openInput] :=
    toCome_perform hw Operation.noConfusion
  have hlast : i ∈ (c.toCome ++ [Item.call c.tickets.length .openInput]).getLast? := by
    rw [← hfront]
    exact List.mem_getLast?_append_of_mem_getLast? hi
  rw [List.getLast?_concat] at hlast
  exact (Option.some.inj hlast).symm

theorem desk_beginWait_parts (hw : c.WorkedOff) (owner : Nat) :
    (c.perform (.beginWait owner true)).waitStage c.waits.length = .opening c.tickets.length ∧
      (c.perform (.beginWait owner true)).fate c.tickets.length = .waiting := by
  obtain ⟨htickets, hwaits, -⟩ := Desk.mk.inj (desk_beginWait hw owner)
  constructor
  · rw [waitStage, show (c.perform (.beginWait owner true)).waits = _ from hwaits,
      List.getElem?_concat_length]
    rfl
  · exact fate_append_self htickets

end Conversation

namespace Session

open Conversation

variable {s : Session} {t : TaskId} {op : Option Operation} {settings : HostSettings}
  {log : Log} {hasTurn : Bool}

/-- No message lands before time passes, and if one was delivered right now then something was typed
right now as well. -/
structure Calm (s : Session) (log : Log) : Prop where
  none_ripe : s.conversation.ripeAt s.now = 0
  typed : lastTime? log.delivered = some s.now → ∃ line, (s.now, line) ∈ log.typed

/-- How far the only client is, a run of the program. It is calm when it goes on. While it waits for
input that may not be so, but then it has said nothing after it began to wait, and no answer can be
given before time passes or something is typed. -/
inductive Lull (s : Session) (log : Log) (hasTurn : Bool) : Prop
  /-- It goes on. -/
  | going {name : String} {stage : ClientStage} (hs : s.clients = [⟨name, stage⟩])
    (hgo : stage.isGoing = true) (hready : .client 0 ∈ s.ready)
    (hopen : s.conversation.Unresolved) (hcalm : s.Calm log)
    (hfresh : stage.IsFresh → log.delivered = [])
  /-- The input field is about to open for it. -/
  | opening {name : String} {ctx : RunContext} {w t : Nat} {k : Except RunError Json → Run}
    (hs : s.clients = [⟨name, .running ctx (.waiting w k)⟩]) (hopen : s.conversation.Unresolved)
    (hw : s.conversation.waitStage w = .opening t) (hf : s.conversation.fate t ≠ .lost)
    (hlast : ∀ i ∈ s.conversation.toCome.getLast?, i = .call t .openInput)
    (hturn : hasTurn = true → s.conversation.fate t = .waiting)
  /-- It waits for an answer. -/
  | listening {name : String} {ctx : RunContext} {w : Nat} {k : Except RunError Json → Run}
    (hs : s.clients = [⟨name, .running ctx (.waiting w k)⟩]) (hopen : s.conversation.Unresolved)
    (hw : ∀ t, s.conversation.waitStage w ≠ .opening t) (hcome : s.conversation.toCome = [])
    (hcalm : s.Calm log ∨ .forwarder ∉ s.ready ∧
      ∃ r, s.conversation.waitStage w = .listening r ∧ s.conversation.slot.receiver r = .waiting)
  /-- It has ended. -/
  | ended {name : String} (hs : s.clients = [⟨name, .ended⟩])
    (hover : ∃ x ∈ s.conversation.journal, x.2.result?.isSome = true)
    (hcalm : s.Calm log)

/-- Before the run begins nothing was delivered. -/
theorem Lull.delivered_eq_nil (h : s.Lull log hasTurn) (hfresh : s.IsFresh) :
    log.delivered = [] := by
  obtain ⟨name, _, hs, ctx, rfl⟩ := hfresh
  cases h with
  | going hs' _ _ _ _ hnil =>
      cases hs'.symm.trans hs
      exact hnil ⟨ctx, rfl⟩
  | opening hs' | listening hs' | ended hs' => cases hs'.symm.trans hs

/-! ## Turns of other tasks -/

/-- Nothing is delivered when no message lands before time passes. -/
theorem Stepped.presents_eq_nil (hstep : Stepped s t op) (h : s.conversation.ripeAt s.now = 0)
    (hw : s.conversation.WorkedOff) (hc : s.conversation.clock = .running) : s.presents t = [] := by
  rw [hstep.presents]
  cases op with
  | none => rfl
  | some o =>
      have hripe := ripeAt_perform hw hc o
      rw [show s.conversation.ripeAt s.conversation.now = 0 from h] at hripe
      exact presents_of_lands_nil (Operation.isRoutine_of_isPlain (hstep.plain o rfl))
        (List.eq_nil_of_length_eq_zero (by omega))

theorem Stepped.calm (hstep : Stepped s t op) (h : s.Calm log)
    (ho : s.Orderly settings log) : (s.turn t).Calm (log ++ s.logOf t) := by
  have hw := ho.attended.worked
  have hdelivered : (log ++ s.logOf t).delivered = log.delivered := by
    rw [Log.delivered_append, show (s.logOf t).delivered = [] from
      hstep.presents_eq_nil h.none_ripe hw ho.running, List.append_nil]
  have htyped : (log ++ s.logOf t).typed = log.typed := List.append_nil _
  obtain ⟨journal, hconv⟩ := hstep.conversation_eq
  constructor
  · rw [hstep.now_eq ho.signals, hconv]
    show (s.conversation.doing op).ripeAt s.conversation.now = 0
    cases op with
    | none => exact h.none_ripe
    | some o =>
        have hripe := ripeAt_perform hw ho.running o
        rw [show s.conversation.ripeAt s.conversation.now = 0 from h.none_ripe] at hripe
        exact Nat.eq_zero_of_le_zero (Nat.le_trans (Nat.le_add_right _ _) hripe)
  · rw [hdelivered, htyped, hstep.now_eq ho.signals]
    exact h.typed

theorem Stepped.unresolved (hstep : Stepped s t op) (hh : s.conversation.Hushed)
    (ht : t ≠ .client 0) (h : s.conversation.Unresolved) :
    (s.turn t).conversation.Unresolved := by
  intro x hx
  rw [conversation_turn] at hx
  exact (hstep.quiet ht x hx).elim (h.doing hh op x) id

/-- Only pumps and notices do something in the turns of others when no answer can be given. -/
theorem Stepped.inner (hstep : Stepped s t op) (ht : t ≠ .client 0)
    (hf : t = .forwarder → s.conversation.isAwaiting = false ∨ s.IsStopped) : Inner op := by
  cases op with
  | none => exact .rest
  | some o =>
      have hallowed := hstep.allowed o rfl
      cases t with
      | pump n => exact hallowed ▸ .pump n
      | notice n => exact hallowed ▸ .notice n
      | client n => exact absurd (hallowed.1 ▸ rfl) ht
      | renderer => exact hallowed.elim
      | forwarder =>
          rcases hf rfl with hno | hno
          · exact absurd hallowed.1 (by rw [hno]; exact Bool.false_ne_true)
          · exact absurd hno hallowed.2.1

theorem Stepped.waits_eq (hstep : Stepped s t op) (ht : t ≠ .client 0) :
    (s.turn t).conversation.waits = s.conversation.waits := by
  obtain ⟨journal, hconv⟩ := hstep.conversation_eq
  rw [hconv]
  show (s.conversation.doing op).waits = _
  by_cases hf : t = .forwarder
  · subst hf
    cases op with
    | none => rfl
    | some o =>
        obtain ⟨-, -, ⟨text, rfl⟩ | ⟨v, rfl⟩ | rfl⟩ := hstep.allowed o rfl
        · rfl
        · rfl
        · exact congrArg Desk.waits (desk_clear s.conversation)
  · exact (hstep.inner ht fun h => absurd h hf).waits

theorem Stepped.toCome_eq_nil (hstep : Stepped s t op) (hw : s.conversation.WorkedOff)
    (ht : t ≠ .client 0) (h : s.conversation.toCome = []) :
    (s.turn t).conversation.toCome = [] := by
  obtain ⟨journal, hconv⟩ := hstep.conversation_eq
  rw [hconv]
  show (s.conversation.doing op).toCome = _
  by_cases hf : t = .forwarder
  · subst hf
    cases op with
    | none => exact h
    | some o =>
        obtain ⟨-, -, ⟨text, rfl⟩ | ⟨v, rfl⟩ | rfl⟩ := hstep.allowed o rfl
        · exact List.suffix_nil.mp (h ▸ toCome_suffix hw Operation.noConfusion rfl)
        · exact List.suffix_nil.mp (h ▸ toCome_suffix hw Operation.noConfusion rfl)
        · exact toCome_clear hw
  · have hsuffix := (hstep.inner ht fun h => absurd h hf).toCome hw
    rw [h] at hsuffix
    exact List.suffix_nil.mp hsuffix

/-- While the input field is about to open for the only client, nobody waits for an answer. -/
theorem isAwaiting_of_opening {name : String} {ctx : RunContext} {w t : Nat}
    {k : Except RunError Json → Run} (h : s.Orderly settings log)
    (hs : s.clients = [⟨name, .running ctx (.waiting w k)⟩])
    (hw : s.conversation.waitStage w = .opening t) : s.conversation.isAwaiting = false := by
  cases ha : s.conversation.isAwaiting with
  | false => rfl
  | true =>
      obtain ⟨_, _, _, _, r, hs', hlistening, -⟩ := h.exists_waiting ha
      cases hs.symm.trans hs'
      cases hw.symm.trans hlistening

theorem Lull.turn_of_ne (h : s.Lull log hasTurn) (ho : s.Orderly settings log)
    (hopen : s.conversation.Unresolved) (ht : t ∈ s.ready) (hne : t ≠ .client 0) :
    (s.turn t).Lull (log ++ s.logOf t) false := by
  obtain ⟨op, hstep⟩ := ho.stepped t
  obtain ⟨journal, hconv⟩ := hstep.conversation_eq
  have hw := ho.attended.worked
  have hclients : (s.turn t).clients = s.clients :=
    (clients_turn s t).trans (clients_step_ne ho.solo hne)
  have hopen' := hstep.unresolved ho.hushed hne hopen
  have hcalm' : s.Calm log → (s.turn t).Calm (log ++ s.logOf t) := fun h => hstep.calm h ho
  have hstage : ∀ n, (s.turn t).conversation.waitStage n = s.conversation.waitStage n :=
    waitStage_of_waits (hstep.waits_eq hne)
  cases h with
  | going hs hgo hready _ hcalm hfresh =>
      refine .going (hclients.trans hs) hgo (hstep.mem_ready hready fun he => absurd he.symm hne)
        hopen' (hcalm' hcalm) fun hf => ?_
      rw [Log.delivered_append, hfresh hf]
      exact hstep.presents_eq_nil hcalm.none_ripe hw ho.running
  | opening hs _ hopening hf hlast _ =>
      -- Nobody waits for an answer yet, so only pumps and notices go on.
      have hi := hstep.inner hne fun _ => .inl (isAwaiting_of_opening ho hs hopening)
      refine .opening (hclients.trans hs) hopen' ((hstage _).trans hopening) ?_ ?_
        Bool.noConfusion
      · rw [hconv]
        exact hi.fate hf
      · rw [hconv]
        intro i hmem
        refine hlast i ?_
        obtain ⟨front, hfront⟩ := hi.toCome hw
        rw [← hfront]
        have hmem : i ∈ (s.conversation.doing op).toCome.getLast? := hmem
        exact List.mem_getLast?_append_of_mem_getLast? hmem
  | listening hs _ hnot hcome hcalm =>
      refine .listening (hclients.trans hs) hopen' (fun t => ?_)
        (hstep.toCome_eq_nil hw hne hcome) ?_
      · rw [hstage]
        exact hnot t
      · rcases hcalm with hcalm | ⟨hf, r, hr, hwaiting⟩
        · exact .inl (hcalm' hcalm)
        · -- As long as the forwarder is not ready nobody can give the answer.
          refine .inr ⟨fun hf' => hf (hstep.forwarder_mem ho.signals hf'), r,
            (hstage _).trans hr, ?_⟩
          have hi := hstep.inner hne fun he => absurd (he ▸ ht) hf
          rw [hconv]
          show (s.conversation.doing op).slot.receiver r = _
          rw [hi.slot]
          exact hwaiting
  | ended _ hover =>
      obtain ⟨x, hx, hsome⟩ := hover
      rw [hopen x hx] at hsome
      cases hsome

/-! ## Turns of the run -/

/-- When the field was opened in a turn of another task, the run has its turn behind the
forwarder. -/
theorem forwarder_notMem {n : Nat} {v : Json}
    (halone : hasTurn = true ∨ ∀ u ∈ s.ready, u = .client 0)
    (hturn : hasTurn = true → s.conversation.fate n = .waiting)
    (hf : s.conversation.fate n = .answered v) : .forwarder ∉ s.ready := by
  intro hmem
  rcases halone with hhas | hall
  · cases (hturn hhas).symm.trans hf
  · cases hall _ hmem

/-- A run that waits has the field opened for it only when the forwarder is not ready. -/
theorem Lull.isAwaiting_of_wait {name : String} {ctx : RunContext} {w : Nat}
    {k : Except RunError Json → Run} (h : s.Lull log hasTurn) (ho : s.Orderly settings log)
    (halone : hasTurn = true ∨ ∀ u ∈ s.ready, u = .client 0)
    (hs : s.clients = [⟨name, .running ctx (.waiting w k)⟩])
    (ha : (s.conversation.stepWait w).isAwaiting = true) :
    s.conversation.isAwaiting = true ∨ .forwarder ∉ s.ready := by
  cases h with
  | going hs' hgo =>
      cases hs'.symm.trans hs
      cases hgo
  | ended hs' => cases hs'.symm.trans hs
  | listening hs' _ hnot =>
      cases hs'.symm.trans hs
      exact .inl ((stepWait_of_not_opening hnot).2 ha)
  | opening hs' _ hopening hf _ hturn =>
      cases hs'.symm.trans hs
      have hfree := isAwaiting_of_opening ho hs hopening
      rcases stepWait_of_opening ho.attended.asking hopening hf hfree with
        ⟨-, heq⟩ | ⟨⟨v, hanswered⟩, -⟩
      · rw [heq] at ha
        exact .inl ha
      · exact .inr (forwarder_notMem halone hturn hanswered)

/-- When the run begins to wait for an answer the forwarder is not ready. -/
theorem Lull.isAwaiting (h : s.Lull log hasTurn) (ho : s.Orderly settings log)
    (halone : hasTurn = true ∨ ∀ u ∈ s.ready, u = .client 0)
    (ha : (s.turn (.client 0)).conversation.isAwaiting = true) :
    s.conversation.isAwaiting = true ∨ .forwarder ∉ s.ready := by
  obtain ⟨name, stage, hs, hplain⟩ := ho.solo
  have hw := ho.attended.worked
  rw [conversation_turn] at ha
  have ha : (s.stepClient 0).1.conversation.isAwaiting = true := ha
  have hsame : ∀ {o : Operation}, o.isPlain = true → (∀ n, o ≠ .stepWait n) →
      (s.conversation.perform o).isAwaiting = true → s.conversation.isAwaiting = true :=
    fun hp hne ha =>
      (congrArg InputSlot.isPending (slot_of_isAwaiting hw hp hne ha).1).symm.trans ha
  cases runStep_stepClient hs hplain with
  | act op es _ _ _ _ _ hop _ hc =>
      rw [hc] at ha
      have ha : (s.conversation.doing op).isAwaiting = true := ha
      cases op with
      | none => exact .inl ha
      | some o =>
          have hscripted := (hop o rfl).1
          refine .inl (hsame (Operation.isPlain_of_isScripted hscripted) ?_ ha)
          rintro n rfl
          cases hscripted
  | seek _ _ _ _ _ hc => exact .inl (by rw [hc] at ha; exact ha)
  | ask _ _ _ _ _ hc =>
      rw [hc] at ha
      exact .inl (hsame (o := .beginWait 0 true) rfl (fun _ => Operation.noConfusion) ha)
  | finish _ _ _ _ hc => exact .inl (by rw [hc] at ha; exact ha)
  | rest _ hs' => exact .inl (by rw [hs'] at ha; exact ha)
  | wait hclient _ hc | resume hclient _ _ hc =>
      rw [hc] at ha
      exact h.isAwaiting_of_wait ho halone hclient ha

/-- What a run has that goes on waiting. -/
theorem Lull.wait {name : String} {ctx : RunContext} {w : Nat} {k : Except RunError Json → Run}
    (h : s.Lull log hasTurn) (ho : s.Orderly settings log)
    (halone : hasTurn = true ∨ ∀ u ∈ s.ready, u = .client 0)
    (hs : s.clients = [⟨name, .running ctx (.waiting w k)⟩])
    (hclients : (s.turn (.client 0)).clients = s.clients)
    (hc : (s.turn (.client 0)).conversation =
      { s.conversation.stepWait w with signals := [] })
    (hr : (s.conversation.stepWait w).waitResult? w = none) :
    (s.turn (.client 0)).Lull (log ++ s.logOf (.client 0)) true := by
  have hw := ho.attended.worked
  have hopen' : s.conversation.Unresolved → (s.turn (.client 0)).conversation.Unresolved := by
    intro hopen
    rw [hc]
    exact hopen.doing ho.hushed (some (.stepWait w))
  have hstays : s.conversation.stepWait w = s.conversation →
      (s.turn (.client 0)).conversation = s.conversation := by
    intro heq
    rw [hc, heq, ← ho.signals]
  obtain ⟨op, hstep⟩ := ho.stepped (.client 0)
  have hforwarder : .forwarder ∉ s.ready → .forwarder ∉ (s.turn (.client 0)).ready :=
    fun hno hmem => hno (hstep.forwarder_mem ho.signals hmem)
  cases h with
  | going hs' hgo =>
      cases hs'.symm.trans hs
      cases hgo
  | ended hs' => cases hs'.symm.trans hs
  | listening hs' hopen hnot hcome hcalm =>
      cases hs'.symm.trans hs
      have heq := hstays ((stepWait_of_not_opening hnot).1 hr)
      refine .listening (hclients.trans hs) (hopen' hopen) ?_ ?_ ?_
      · rw [heq]
        exact hnot
      · rw [heq]
        exact hcome
      · refine hcalm.imp (fun hcalm => hstep.calm hcalm ho) fun hlistens => ?_
        rw [heq]
        exact hlistens.imp_left hforwarder
  | @opening _ _ _ t _ hs' hopen hopening hf hlast hturn =>
      cases hs'.symm.trans hs
      have hfree := isAwaiting_of_opening ho hs hopening
      rcases stepWait_of_opening ho.attended.asking hopening hf hfree with
        ⟨hwaiting, heq⟩ | ⟨⟨v, hanswered⟩, r, hr', hreceiver⟩
      · have heq := hstays heq
        refine .opening (t := t) (hclients.trans hs) (hopen' hopen) ?_ ?_ ?_ fun _ => ?_
        · rw [heq]
          exact hopening
        · rw [heq]
          exact hf
        · rw [heq]
          exact hlast
        · rw [heq]
          exact hwaiting
      · -- All was delivered before the field was opened, and nothing was said since.
        have hnil := toCome_eq_nil_of_answered ho.attended.carried hanswered hlast
        have hno := forwarder_notMem halone hturn hanswered
        have hcome : (s.conversation.stepWait w).toCome = [] :=
          List.suffix_nil.mp (hnil ▸ toCome_suffix (o := .stepWait w) hw Operation.noConfusion rfl)
        refine .listening (hclients.trans hs) (hopen' hopen) ?_ ?_
          (.inr ⟨hforwarder hno, r, ?_, ?_⟩)
        · rw [hc]
          intro t ht
          cases ht.symm.trans hr'
        · rw [hc]
          exact hcome
        · rw [hc]
          exact hr'
        · rw [hc]
          exact hreceiver

/-- A run that has got an answer, or was interrupted, has fallen silent. -/
theorem Lull.calm_of_result {name : String} {ctx : RunContext} {w : Nat}
    {k : Except RunError Json → Run} {result : Except RunError Json} (h : s.Lull log hasTurn)
    (ho : s.Orderly settings log) (hs : s.clients = [⟨name, .running ctx (.waiting w k)⟩])
    (hr : (s.conversation.stepWait w).waitResult? w = some result) :
    s.Calm log := by
  cases h with
  | going hs' hgo =>
      cases hs'.symm.trans hs
      cases hgo
  | ended hs' => cases hs'.symm.trans hs
  | listening hs' _ _ _ hcalm =>
      cases hs'.symm.trans hs
      refine hcalm.resolve_right fun ⟨_, r, hlistening, hwaiting⟩ => ?_
      rw [stepWait_of_waiting hlistening hwaiting, waitResult?_of_listening hlistening] at hr
      cases hr
  | opening hs' _ hopening hf =>
      cases hs'.symm.trans hs
      have hfree := isAwaiting_of_opening ho hs hopening
      rcases stepWait_of_opening ho.attended.asking hopening hf hfree with
        ⟨-, heq⟩ | ⟨-, r, hlistening, -⟩
      · rw [heq, waitResult?, hopening] at hr
        cases hr
      · rw [waitResult?_of_listening hlistening] at hr
        cases hr

theorem Lull.calm_of_going {name : String} {stage : ClientStage} (h : s.Lull log hasTurn)
    (hs : s.clients = [⟨name, stage⟩]) (hgo : stage.isGoing = true) :
    s.Calm log := by
  cases h with
  | going _ _ _ _ hcalm _ => exact hcalm
  | opening hs' | listening hs' =>
      cases hs'.symm.trans hs
      cases hgo
  | ended hs' =>
      cases hs'.symm.trans hs
      cases hgo

theorem Lull.turn_run (h : s.Lull log hasTurn) (ho : s.Orderly settings log)
    (hopen : s.conversation.Unresolved) (ht : .client 0 ∈ s.ready)
    (halone : hasTurn = true ∨ ∀ u ∈ s.ready, u = .client 0) :
    (s.turn (.client 0)).Lull (log ++ s.logOf (.client 0)) true := by
  obtain ⟨name, stage, hs, hplain⟩ := ho.solo
  obtain ⟨op, hstep⟩ := ho.stepped (.client 0)
  have hw := ho.attended.worked
  have hcalm' : s.Calm log → (s.turn (.client 0)).Calm (log ++ s.logOf (.client 0)) :=
    fun hcalm => hstep.calm hcalm ho
  have hbegun : ∀ {ctx stage}, stage ≠ RunStage.fresh → (ClientStage.running ctx stage).IsFresh →
      (log ++ s.logOf (.client 0)).delivered = [] := by
    rintro ctx stage hne ⟨_, heq⟩
    cases heq
    exact absurd rfl hne
  have hturn : ∀ {c}, (s.stepClient 0).1.conversation = c →
      (s.turn (.client 0)).conversation = { c with signals := [] } := by
    rintro c rfl
    exact conversation_turn _
  have hclients : (s.turn (.client 0)).clients = (s.stepClient 0).1.clients := clients_turn s _
  have hready : (s.stepClient 0).2 = true → .client 0 ∈ (s.turn (.client 0)).ready :=
    fun hon => hstep.mem_ready ht fun _ => hon
  cases runStep_stepClient hs hplain with
  | act op es hs hgo _ hs' _ _ hes hc hon =>
      refine .going (hclients.trans hs') rfl (hready hon) ?_ (hcalm' (h.calm_of_going hs hgo))
        (hbegun RunStage.noConfusion)
      rw [hturn hc]
      exact (hopen.doing ho.hushed op).recordAll hes
  | seek hs hgo _ hs' _ hc =>
      refine .going (hclients.trans hs') rfl ?_ ?_ (hcalm' (h.calm_of_going hs hgo))
        (hbegun RunStage.noConfusion)
      · rw [turn_eq_foldl]
        refine mem_ready_foldl_obey ?_ _
        show _ ∈ (s.stepClient 0).1.conversation.signals
        rw [hc]
        exact List.mem_append_right _ (List.mem_singleton_self _)
      · rw [hturn hc]
        exact hopen
  | ask hs hgo _ hs' _ hc =>
      have hc := hturn hc
      obtain ⟨hopening, hwaiting⟩ := desk_beginWait_parts hw 0
      refine .opening (t := s.conversation.tickets.length) (hclients.trans hs') ?_ ?_ ?_ ?_
        fun _ => ?_
      · rw [hc]
        exact hopen.doing ho.hushed (some (.beginWait 0 true))
      · rw [hc]
        exact hopening
      · rw [hc]
        exact fun hlost => Fate.noConfusion (hlost.symm.trans hwaiting)
      · rw [hc]
        exact last_toCome_beginWait hw 0
      · rw [hc]
        exact hwaiting
  | wait hs hs' hc hr =>
      exact h.wait ho halone hs (hclients.trans hs') (hturn hc) (hc ▸ hr)
  | @resume _ _ w _ _ hs hs' _ hc hr hon =>
      refine .going (hclients.trans hs') rfl (hready hon) ?_
        (hcalm' (h.calm_of_result ho hs (hc ▸ hr))) (hbegun RunStage.noConfusion)
      rw [hturn hc]
      exact hopen.doing ho.hushed (some (.stepWait w))
  | @finish name _ result hs hgo _ hs' hc =>
      refine .ended (hclients.trans hs') ⟨(s.now, .ended name result), ?_, rfl⟩
        (hcalm' (h.calm_of_going hs hgo))
      rw [hturn hc]
      exact List.mem_append_right _ (List.mem_singleton_self _)
  | rest hs hs' =>
      cases h with
      | going hs₁ hgo =>
          cases hs₁.symm.trans hs
          cases hgo
      | opening hs₁ | listening hs₁ => cases hs₁.symm.trans hs
      | ended _ hover =>
          obtain ⟨x, hx, hsome⟩ := hover
          rw [hopen x hx] at hsome
          cases hsome

/-! ## The passing of time -/

theorem Lull.arrive {time : Nat} (h : s.Lull log hasTurn) (ho : s.Orderly settings log)
    (hopen : s.conversation.Unresolved) (hready : s.ready = []) (hlt : s.now < time) :
    (s.arrive time).Lull log hasTurn := by
  have hc := conversation_arrive s time
  have hclients : (s.arrive time).clients = s.clients := by
    obtain ⟨ready, timers, heq⟩ := arrive_eq s time
    rw [heq]
  cases h with
  | going _ _ hmem =>
      rw [hready] at hmem
      cases hmem
  | @opening _ _ _ t _ hs _ hopening hf hlast hturn =>
      refine .opening (t := t) (hclients.trans hs) ?_ ?_ ?_ ?_ ?_
      · rw [hc]
        exact hopen
      · rw [hc]
        exact hopening
      · rw [hc]
        exact hf
      · rw [hc]
        exact hlast
      · rw [hc]
        exact hturn
  | listening hs _ hnot hcome =>
      have hcome' : (s.arrive time).conversation.toCome = [] := by
        rw [hc]
        exact hcome
      refine .listening (hclients.trans hs) ?_ ?_ hcome' (.inl ⟨ripeAt_of_toCome hcome' _, ?_⟩)
      · rw [hc]
        exact hopen
      · rw [hc]
        exact hnot
      · rw [now_arrive (Nat.le_of_lt hlt)]
        exact fun hlast => absurd (ho.dated.time_le hlast) (Nat.not_le.mpr hlt)
  | ended _ hover =>
      obtain ⟨x, hx, hsome⟩ := hover
      rw [hopen x hx] at hsome
      cases hsome

/-! ## What is typed -/

/-- When something is typed the run may get an answer right now. -/
theorem Lull.receive (h : s.Lull log hasTurn) (line : Option String) :
    (s.receive line).Lull (log ++ .input s.now line) hasTurn := by
  have hdelivered : (log ++ .input s.now line).delivered = log.delivered := List.append_nil _
  have hready := fun (t : TaskId) => mem_ready_receive (s := s) (t := t) line
  obtain ⟨console, ready, heq⟩ := receive_eq s line
  rw [heq] at hready ⊢
  have hcalm' : s.Calm log → ({ s with console, ready } : Session).Calm
      (log ++ .input s.now line) := by
    intro hcalm
    refine ⟨hcalm.none_ripe, fun hlast => ?_⟩
    rw [hdelivered] at hlast
    obtain ⟨line', hline⟩ := hcalm.typed hlast
    exact ⟨line', List.mem_append_left _ hline⟩
  cases h with
  | going hs hgo hmem hopen hcalm hfresh =>
      exact .going hs hgo (hready _ hmem) hopen (hcalm' hcalm) fun hf =>
        hdelivered.trans (hfresh hf)
  | opening hs hopen hw hf hlast hturn => exact .opening hs hopen hw hf hlast hturn
  | listening hs hopen hw hcome _ =>
      exact .listening hs hopen hw hcome (.inl ⟨ripeAt_of_toCome hcome _,
        fun _ => ⟨line, List.mem_append_right _ (List.mem_singleton_self _)⟩⟩)
  | ended hs hover hcalm => exact .ended hs hover (hcalm' hcalm)

theorem Lull.reorder (h : s.Lull log hasTurn) {ready : List TaskId}
    (hready : ready.Perm s.ready) : ({ s with ready } : Session).Lull log hasTurn := by
  have hcalm' : s.Calm log → ({ s with ready } : Session).Calm log :=
    fun hcalm => ⟨hcalm.none_ripe, hcalm.typed⟩
  cases h with
  | going hs hgo hmem hopen hcalm hfresh =>
      exact .going hs hgo (hready.mem_iff.mpr hmem) hopen (hcalm' hcalm) hfresh
  | opening hs hopen hw hf hlast hturn => exact .opening hs hopen hw hf hlast hturn
  | listening hs hopen hw hcome hcalm =>
      refine .listening hs hopen hw hcome (hcalm.imp hcalm' fun h => ⟨fun hmem => ?_, h.2⟩)
      exact h.1 (hready.mem_iff.mp hmem)
  | ended hs hover hcalm => exact .ended hs hover (hcalm' hcalm)

end Session

end Dialogue
