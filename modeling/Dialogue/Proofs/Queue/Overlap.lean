import Dialogue.Proofs.Queue.Cleared
/-!
# How many items are worked on at a time

One item at a time is to be worked on. A generation has one pump at most, so this holds as long as
nothing is cleared; but `clear` lets a pump that has an item go on, and the next item that is queued
goes to a pump of its own.

* `generations_nodup` — no two items of one generation are in the hands of pumps.
* `one_item_at_a_time_iff` — clearing is safe just if no item is being worked on at that time.
-/

namespace Dialogue.Conversation

variable {c c' : Conversation} {n : Nat} {p q : Pump} {stage : PumpStage}

/-! ## Pumps that have an item -/

/-- The pumps of all generations that have not ended. -/
def atWork (c : Conversation) : List Pump := c.pumps.filter fun p => p.stage.work?.isSome

/-- The pumps of all generations whose items are being worked on. -/
def busy (c : Conversation) : List Pump := c.pumps.filter fun p => p.stage.isBusy

/-- The tickets of the functions that have been called and have not given their values. -/
def running (c : Conversation) : List Nat :=
  c.pumps.filterMap fun p => match p.stage with
    | .calling ticket _ _ => some ticket
    | _ => none

theorem mem_busy_iff : p ∈ c.busy ↔ p ∈ c.pumps ∧ p.stage.isBusy = true := List.mem_filter

theorem mem_atWork_iff : p ∈ c.atWork ↔ p ∈ c.pumps ∧ p.stage.work?.isSome = true :=
  List.mem_filter

theorem busy_of_dispatch (h : c'.dispatch = c.dispatch) : c'.busy = c.busy := by
  rw [busy, busy, show c'.pumps = c.pumps from congrArg Dispatch.pumps h]

theorem atWork_of_dispatch (h : c'.dispatch = c.dispatch) : c'.atWork = c.atWork := by
  rw [atWork, atWork, show c'.pumps = c.pumps from congrArg Dispatch.pumps h]

/-- A pump that is being worked with has an item. -/
theorem busy_sublist_atWork (c : Conversation) : c.busy.Sublist c.atWork :=
  List.monotone_filter_right c.pumps fun _ => PumpStage.isSome_work?

theorem mem_busy_setStage (hn : c.pumps[n]? = some p) (hq : q ∈ (c.setStage n stage).busy) :
    (q = { p with stage } ∧ stage.isBusy = true) ∨ q ∈ c.busy := by
  obtain ⟨hq, hb⟩ := mem_busy_iff.mp hq
  rcases mem_pumps_setStage hn hq with rfl | hq
  · exact .inl ⟨rfl, hb⟩
  · exact .inr (mem_busy_iff.mpr ⟨hq, hb⟩)

/-! ## One pump of each generation -/

/-- No pump takes up work again that has ended, so no generation is added. -/
theorem generations_setStage (hn : c.pumps[n]? = some p)
    (hs : stage.work?.isSome → p.stage.work?.isSome) :
    ((c.setStage n stage).atWork.map Pump.generation).Sublist
      (c.atWork.map Pump.generation) := by
  obtain ⟨before, after, hc, hset⟩ := exists_pumps_eq hn
  rw [atWork, atWork, hset, hc]
  simp only [List.filter_append, List.map_append, List.filter_cons]
  refine (List.Sublist.refl _).append ?_
  by_cases hnew : stage.work?.isSome
  · rw [if_pos hnew, if_pos (hs hnew)]
    exact List.Sublist.refl _
  · rw [if_neg hnew]
    split
    · exact List.sublist_cons_self _ _
    · exact List.Sublist.refl _

theorem generations_stepPump (c : Conversation) (n : Nat) :
    ((c.stepPump n).atWork.map Pump.generation).Sublist (c.atWork.map Pump.generation) := by
  have hstep := pumpStep_stepPump c n
  generalize c.stepPump n = c' at hstep ⊢
  cases hstep with
  | stay hb => rw [atWork_of_dispatch (congrArg Board.dispatch hb)]
  | goOn stage _ hn hp hw ht hbusy hjob hd hb =>
      rw [atWork_of_dispatch (congrArg Board.dispatch hb)]
      exact generations_setStage hn fun _ => hp
  | deliver hn hb =>
      rw [atWork_of_dispatch (congrArg Board.dispatch hb)]
      exact generations_setStage (c := c.replaceAt _ _) hn fun _ => rfl
  | leave hn hg hb =>
      rw [atWork_of_dispatch (congrArg Board.dispatch hb)]
      exact generations_setStage hn fun h => by cases h
  | stop hn hq hb =>
      rw [atWork_of_dispatch (congrArg Board.dispatch hb)]
      exact generations_setStage (c := { c with pumping := false }) hn fun h => by cases h
  | @take w news i rest hn hq hb =>
      rw [atWork_of_dispatch (congrArg Board.dispatch hb)]
      exact generations_setStage (c := { c with queue := rest }.makeRoom i) hn fun _ => rfl

/-- A pump is started while no other one of its generation is at work. -/
theorem generations_push (hw : c.WorkedOff) (h : (c.atWork.map Pump.generation).Nodup)
    (i : Item) : ((c.push i).atWork.map Pump.generation).Nodup := by
  cases hp : c.pumping with
  | true =>
      rw [push_of_pumping hp]
      exact h
  | false =>
      rw [push_of_idle hp (hw.queue_nil hp)]
      have hpumps : (({ c with queue := [], pumping := true }.makeRoom i).startPump
          (i.work c.messages.length)).atWork =
          c.atWork ++ [⟨c.generation, .taken (i.work c.messages.length)⟩] :=
        List.filter_append _ _
      rw [hpumps, List.map_append, List.map_singleton, List.nodup_append]
      refine ⟨h, List.pairwise_singleton _ _, fun g hg g' hg' => ?_⟩
      obtain ⟨q, hq, rfl⟩ := List.mem_map.mp hg
      obtain rfl := List.mem_singleton.mp hg'
      intro he
      -- Such a pump would be at work in an idle conversation.
      obtain ⟨hmem, hwork⟩ := mem_atWork_iff.mp hq
      have hlive : q ∈ c.live :=
        List.mem_filter.mpr ⟨hmem, by simp [Pump.isLive, hwork, show q.generation = _ from he]⟩
      rw [hw.live_eq_nil hp] at hlive
      cases hlive

theorem generations_perform (hw : c.WorkedOff) (h : (c.atWork.map Pump.generation).Nodup)
    (op : Operation) : ((c.perform op).atWork.map Pump.generation).Nodup := by
  apply perform_board_cases
    (P := fun c' _ => (c'.atWork.map Pump.generation).Nodup) hw op
  case frame =>
    intro a b _ hb ih
    rw [atWork_of_dispatch (congrArg Board.dispatch hb)]
    exact ih
  case stay => exact h
  case push => exact fun a _ i ha ih => generations_push ha ih i
  case add => exact fun _ _ => h
  case replace => exact fun _ _ => h
  case clear =>
    intro _
    rw [atWork, show c.clear.pumps = c.pumps from congrArg Dispatch.pumps (dispatch_clear c)]
    exact h
  case stepPump => exact fun n _ => (generations_stepPump c n).nodup h

/-- After every history no two items of one generation are in the hands of pumps. -/
theorem generations_nodup (hw : c.WorkedOff) (h : (c.atWork.map Pump.generation).Nodup)
    (history : List Operation) : ((c.after history).atWork.map Pump.generation).Nodup := by
  induction history generalizing c with
  | nil => exact h
  | cons op rest ih => exact ih (hw.perform op) (generations_perform hw h op)

/-! ## Items of the present generation -/

/-- All items that are being worked on are of the present generation. -/
def Current (c : Conversation) : Prop := ∀ p ∈ c.busy, p.generation = c.generation

theorem Current.of_dispatch (h : c.Current) (hd : c'.dispatch = c.dispatch) : c'.Current := by
  intro p hp
  rw [busy_of_dispatch hd] at hp
  rw [show c'.generation = c.generation from congrArg Dispatch.generation hd]
  exact h p hp

theorem Current.push (h : c.Current) (hw : c.WorkedOff) (i : Item) : (c.push i).Current := by
  cases hp : c.pumping with
  | true =>
      rw [push_of_pumping hp]
      exact h
  | false =>
      rw [push_of_idle hp (hw.queue_nil hp)]
      intro q hq
      obtain ⟨hmem, hb⟩ := mem_busy_iff.mp hq
      rcases List.mem_append.mp hmem with hmem | hmem
      · exact h q (mem_busy_iff.mpr ⟨hmem, hb⟩)
      · rw [List.mem_singleton.mp hmem]
        rfl

/-- A pump of an earlier generation does not take up another item. -/
theorem Current.setStage (h : c.Current) (hn : c.pumps[n]? = some p)
    (hs : stage.isBusy = true → p.stage.isBusy = true ∨ p.generation = c.generation) :
    (c.setStage n stage).Current := by
  intro q hq
  rcases mem_busy_setStage hn hq with ⟨rfl, hb⟩ | hq
  · rcases hs hb with hp | hg
    · exact h p (mem_busy_iff.mpr ⟨List.mem_of_getElem? hn, hp⟩)
    · exact hg
  · exact h q hq

theorem Current.stepPump (h : c.Current) (n : Nat) : (c.stepPump n).Current := by
  have hstep := pumpStep_stepPump c n
  generalize c.stepPump n = c' at hstep ⊢
  cases hstep with
  | stay hb => exact h.of_dispatch (congrArg Board.dispatch hb)
  | goOn stage _ hn hp hw ht hbusy hjob hd hb =>
      exact (h.setStage hn fun hs => .inl (hbusy hs)).of_dispatch (congrArg Board.dispatch hb)
  | @deliver d placeholder due news hn hb =>
      have hr : (c.replaceAt placeholder d.payload).Current := h.of_dispatch rfl
      exact (hr.setStage hn fun _ => .inr rfl).of_dispatch (congrArg Board.dispatch hb)
  | leave hn hg hb =>
      exact (h.setStage hn fun hs => by cases hs).of_dispatch (congrArg Board.dispatch hb)
  | stop hn hq hb =>
      have hr : ({ c with pumping := false } : Conversation).Current := h
      exact (hr.setStage hn fun hs => by cases hs).of_dispatch (congrArg Board.dispatch hb)
  | @take w news i rest hn hq hb =>
      have hr : ({ c with queue := rest }.makeRoom i).Current := h
      exact (hr.setStage hn fun _ => .inr rfl).of_dispatch (congrArg Board.dispatch hb)

theorem Current.perform (h : c.Current) (hw : c.WorkedOff) {op : Operation} (hop : op ≠ .clear) :
    (c.perform op).Current := by
  apply perform_board_cases (P := fun c' _ => c'.Current) hw op
  case frame => exact fun a b _ hb ih => Current.of_dispatch ih (congrArg Board.dispatch hb)
  case stay => exact h
  case push => exact fun a _ i ha ih => Current.push ih ha i
  case add => exact fun _ _ => h
  case replace => exact fun _ _ => h
  case clear => exact fun he => absurd he hop
  case stepPump => exact fun n _ => h.stepPump n

theorem Current.after (h : c.Current) (hw : c.WorkedOff) {history : List Operation}
    (hops : .clear ∉ history) : (c.after history).Current := by
  induction history generalizing c with
  | nil => exact h
  | cons op rest ih =>
      rw [List.mem_cons, not_or] at hops
      exact ih (h.perform hw (Ne.symm hops.1)) (hw.perform op) hops.2

/-- Items of one generation are worked on one at a time. -/
theorem Current.length_busy_le (h : c.Current) (hg : (c.atWork.map Pump.generation).Nodup) :
    c.busy.length ≤ 1 := by
  have hnodup : (c.busy.map Pump.generation).Nodup :=
    ((busy_sublist_atWork c).map Pump.generation).nodup hg
  have hall : c.busy.map Pump.generation = List.replicate c.busy.length c.generation := by
    rw [List.eq_replicate_iff]
    refine ⟨List.length_map _, fun g hg => ?_⟩
    obtain ⟨p, hp, rfl⟩ := List.mem_map.mp hg
    exact h p hp
  rw [hall, List.nodup_replicate] at hnodup
  exact hnodup

/-! ## Items of an earlier generation -/

theorem one_lt_length_busy (hp : p ∈ c.busy) (hq : q ∈ c.busy) (hne : p ≠ q) :
    1 < c.busy.length := by
  match h : c.busy with
  | [] =>
      rw [h] at hp
      cases hp
  | [a] =>
      rw [h, List.mem_singleton] at hp hq
      exact absurd (hp.trans hq.symm) hne
  | a :: b :: rest => exact Nat.succ_lt_succ (Nat.succ_pos _)

/-- A pump that is through with its item takes the next one if there is one. -/
theorem exists_stepPump_taken {w : Work} {news : Option Message} {i : Item} {rest : List Item}
    (hn : c.pumps[n]? = some ⟨c.generation, .through w news⟩) (hq : c.queue = i :: rest) :
    ∃ v, (c.stepPump n).pumps = c.pumps.modify n fun p => { p with stage := .taken v } := by
  have hstep : c.stepPump n = (c.tell news).nextItem n (c.tell news).generation := by
    rw [Conversation.stepPump, hn]
    cases news <;> rfl
  have hqueue : (c.tell news).queue = i :: rest := by cases news <;> exact hq
  rw [hstep, nextItem_cons hqueue]
  cases news <;> exact ⟨_, rfl⟩

/-- A pump takes an item while one of an earlier generation is being worked on. -/
theorem one_lt_length_busy_of_take {w : Work} {news : Option Message} {i : Item} {rest : List Item}
    (hp : p ∈ c.busy) (hg : p.generation ≠ c.generation)
    (hn : c.pumps[n]? = some ⟨c.generation, .through w news⟩) (hq : c.queue = i :: rest) :
    1 < (c.stepPump n).busy.length := by
  obtain ⟨hmem, hb⟩ := mem_busy_iff.mp hp
  obtain ⟨v, hv⟩ := exists_stepPump_taken hn hq
  obtain ⟨m, hm⟩ := List.mem_iff_getElem?.mp hmem
  have hne : n ≠ m := by
    rintro rfl
    cases hn.symm.trans hm
    exact hg rfl
  refine one_lt_length_busy (p := p) (q := ⟨c.generation, .taken v⟩) ?_ ?_ ?_
  · refine mem_busy_iff.mpr ⟨List.mem_of_getElem? (i := m) ?_, hb⟩
    rw [hv, List.getElem?_modify_ne _ _ hne]
    exact hm
  · refine mem_busy_iff.mpr ⟨List.mem_of_getElem? (i := n) ?_, rfl⟩
    rw [hv, List.getElem?_modify_eq, hn]
    rfl
  · exact fun he => hg (congrArg Pump.generation he)

/-- While an item of an earlier generation is being worked on, one more can be queued and taken. -/
theorem exists_two_busy (hw : c.WorkedOff) (hp : p ∈ c.busy) (hg : p.generation ≠ c.generation) :
    ∃ later, .clear ∉ later ∧ 1 < (c.after later).busy.length := by
  obtain ⟨hmem, hb⟩ := mem_busy_iff.mp hp
  cases hpumping : c.pumping with
  | false =>
      -- The item goes to a pump of its own.
      let i : Item := .message ⟨.typing, none, none⟩
      refine ⟨[.queue .typing none], by simp, ?_⟩
      show 1 < (c.push i).busy.length
      rw [push_of_idle hpumping (hw.queue_nil hpumping)]
      refine one_lt_length_busy (p := p)
        (q := ⟨c.generation, .taken (i.work c.messages.length)⟩) ?_ ?_ ?_
      · exact mem_busy_iff.mpr ⟨List.mem_append_left _ hmem, hb⟩
      · exact mem_busy_iff.mpr ⟨List.mem_append_right _ List.mem_cons_self, rfl⟩
      · exact fun he => hg (congrArg Pump.generation he)
  | true =>
      obtain ⟨q, hlive⟩ := hw.exists_live hpumping
      have hq : q ∈ c.live := hlive ▸ List.mem_cons_self
      obtain ⟨hqmem, hql⟩ := List.mem_filter.mp hq
      simp only [Pump.isLive, Bool.and_eq_true, decide_eq_true_eq] at hql
      by_cases hqb : q.stage.isBusy = true
      · refine ⟨[], List.not_mem_nil, one_lt_length_busy hp (mem_busy_iff.mpr ⟨hqmem, hqb⟩) ?_⟩
        exact fun he => hg (he ▸ hql.1)
      · -- The pump at work is through with its item, and takes the next one.
        obtain ⟨g, stage⟩ := q
        obtain ⟨rfl, hwork⟩ := hql
        cases stage with
        | taken | typing | calling => exact absurd rfl hqb
        | ended => cases hwork
        | through w news =>
            obtain ⟨k, hk⟩ := List.mem_iff_getElem?.mp hqmem
            obtain ⟨i, rest, hqueue⟩ := List.exists_cons_of_ne_nil
              (List.append_ne_nil_of_right_ne_nil c.queue
                (List.cons_ne_nil (Item.message ⟨.typing, none, none⟩) []))
            refine ⟨[.queue .typing none, .stepPump k], by simp, ?_⟩
            show 1 < ((c.push _).stepPump k).busy.length
            rw [push_of_pumping hpumping]
            exact one_lt_length_busy_of_take
              (c := { c with queue := c.queue ++ [.message ⟨.typing, none, none⟩] }) hp hg hk hqueue

/-! ## Histories -/

/-- When one item at most is being worked on, no function runs while another one is called. -/
theorem running_eq_nil_of_starts {op : Operation} (hb : c.busy.length ≤ 1)
    (hs : c.starts op ≠ []) : c.running = [] := by
  cases op with
  | stepPump n =>
      rw [starts] at hs
      split at hs
      case h_1 g ticket job hn =>
        rw [running, List.filterMap_eq_nil_iff]
        intro q hq
        split
        case h_1 ticket' job' due hstage =>
          -- The pump that runs a function and the one that calls one would both be busy.
          refine absurd (one_lt_length_busy (c := c) (p := ⟨g, .taken (.call ticket job)⟩)
            (q := q) ?_ ?_ ?_) (Nat.not_lt.mpr hb)
          · exact mem_busy_iff.mpr ⟨List.mem_of_getElem? hn, rfl⟩
          · exact mem_busy_iff.mpr ⟨hq, by rw [hstage]; rfl⟩
          · intro he
            rw [← he] at hstage
            cases hstage
        case h_2 => rfl
      case h_2 => exact absurd rfl hs
  | _ => exact absurd rfl hs

/-- Clearing leaves the pumps at work, which are of an earlier generation then. -/
theorem current_clear_iff (hw : c.WorkedOff) :
    (∀ p ∈ c.clear.busy, p.generation = c.clear.generation) ↔ c.busy = [] := by
  obtain ⟨-, -, hgen, hps⟩ := Dispatch.mk.inj (dispatch_clear c)
  rw [busy, hps, hgen]
  constructor
  · intro h
    rw [List.eq_nil_iff_forall_not_mem]
    intro p hp
    have heq := h p hp
    have hle := hw.generation_le p (mem_busy_iff.mp hp).1
    omega
  · intro h p hp
    rw [show c.pumps.filter _ = [] from h] at hp
    cases hp

/-- Of each generation one item at most is in the hands of pumps. Until the next clearing one item
at most is worked on, of all generations, just if none of an earlier generation is being worked on,
and after clearing just if none was being worked on before; and then no function is called while
another one runs. -/
theorem one_item_at_a_time_iff (settings : Settings) (clock : Clock)
    (history : List Operation) :
    let c := (start settings clock).after history
    (c.atWork.map Pump.generation).Nodup ∧
      ((∀ later, .clear ∉ later → (c.after later).busy.length ≤ 1) ↔
        ∀ p ∈ c.busy, p.generation = c.generation) ∧
      ((∀ later, .clear ∉ later → (c.clear.after later).busy.length ≤ 1) ↔ c.busy = []) ∧
      (c.busy.length ≤ 1 → ∀ op, c.starts op ≠ [] → c.running = []) := by
  intro c
  have hiff : ∀ past, let d := (start settings clock).after past
      (∀ later, .clear ∉ later → (d.after later).busy.length ≤ 1) ↔
        ∀ p ∈ d.busy, p.generation = d.generation := by
    intro past d
    have hw : d.WorkedOff := (workedOff_start settings clock).after past
    have hg : (d.atWork.map Pump.generation).Nodup :=
      generations_nodup (workedOff_start settings clock) List.nodup_nil past
    constructor
    · intro h p hp
      by_contra hne
      obtain ⟨later, hlater, hlt⟩ := exists_two_busy hw hp hne
      exact Nat.not_lt.mpr (h later hlater) hlt
    · intro h later hlater
      have hcurrent : (d.after later).Current := Current.after h hw hlater
      exact hcurrent.length_busy_le (generations_nodup hw hg later)
  have hclear : (start settings clock).after (history ++ [.clear]) = c.clear := List.foldl_append
  refine ⟨?_, hiff history, ?_, fun hb op => running_eq_nil_of_starts hb⟩
  · exact generations_nodup (workedOff_start settings clock) List.nodup_nil history
  · have h := hiff (history ++ [.clear])
    rw [hclear] at h
    exact h.trans (current_clear_iff ((workedOff_start settings clock).after history))

/-- A message and a function are worked on one after the other until something is cleared. -/
theorem one_item_at_a_time_of_hello :
    let c := (start .standard .stepped).after
      [.queue (.to "hello") none, .call 0 (.host "ask" 0 .null)]
    (∀ p ∈ c.busy, p.generation = c.generation) ∧ c.busy.length = 1 ∧
      ∀ later, .clear ∉ later → (c.after later).busy.length ≤ 1 := by
  intro c
  have hcurrent : ∀ p ∈ c.busy, p.generation = c.generation := by
    intro p hp
    rw [List.mem_singleton.mp hp]
    rfl
  exact ⟨hcurrent, rfl, (one_item_at_a_time_iff .standard .stepped
    [.queue (.to "hello") none, .call 0 (.host "ask" 0 .null)]).2.1.mpr hcurrent⟩

/-- A function that was called before clearing still runs when the next one is called. -/
theorem calls_overlap_after_clear :
    let c := (start .standard .stepped).after
      [.call 0 (.host "first" 1000 .null), .stepPump 0, .clear,
        .call 1 (.host "second" 100 .null)]
    c.running = [0] ∧ c.starts (.stepPump 1) = [1] ∧ c.busy.length = 2 ∧
      (c.perform (.stepPump 1)).running = [0, 1] ∧
      (c.perform (.stepPump 1)).journal.map (·.2) = [.called "first", .called "second"] :=
  ⟨rfl, rfl, rfl, rfl, rfl⟩

end Dialogue.Conversation
