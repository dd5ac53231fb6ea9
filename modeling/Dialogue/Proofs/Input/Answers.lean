import Mathlib.Data.List.Nodup
import Dialogue.Proofs.Input.Closing
/-!
# Who gets which value

A value that is reported goes to the wait that holds the input slot. Waits hold the slot one after
the other, so the values come to them in the order in which they are reported, whoever goes on
first.

* `bound_of_value` — the wait that holds the slot gets the value that is reported.
* `value?_perform` — no other wait gets it, and nobody gets anything else.
* `Served.perform` — each wait is served once, in the order in which the waits have held the slot.
* `values_in_order` — so what the waits return, one after the other, is what was reported to them.
-/

namespace Dialogue.Conversation

variable {c : Conversation} {n : Nat} {op : Operation} {v : Json} {waits : List Nat}
  {served : List (Nat × Json)}

/-! ## The wait that holds the slot -/

/-- The wait that holds the slot. -/
def holder? (c : Conversation) : Option Nat := (List.range c.waits.length).find? c.holdsSlot

/-- The wait that comes to hold the slot in an operation. -/
def registers (c : Conversation) (op : Operation) : List Nat :=
  (c.perform op).holder?.toList.filter fun n => !c.holdsSlot n

/-- The wait that a value is reported to in an operation, with the value. -/
def serves (c : Conversation) (op : Operation) : List (Nat × Json) :=
  match c.holder?, op.value? with
  | some n, some v => [(n, v)]
  | _, _ => []

/-- The value that a wait has returned, or will return when it goes on. -/
def value? (c : Conversation) (n : Nat) : Option Json :=
  match c.waitStage n with
  | .ended (.ok v) => some v
  | .listening r =>
    match c.slot.receiver r with
    | .holding v => some v
    | _ => none
  | _ => none

/-- Has the one who waited gone? -/
def hasGone (c : Conversation) (n : Nat) : Bool :=
  match c.waitStage n with
  | .dropped => true
  | _ => false

theorem lt_of_holdsSlot (h : c.holdsSlot n = true) : n < c.waits.length := by
  obtain ⟨r, hs, -⟩ := holdsSlot_iff.mp h
  exact lt_of_waitStage hs WaitStage.noConfusion

theorem holder?_eq_some_iff (h : c.Attended) : c.holder? = some n ↔ c.holdsSlot n = true := by
  constructor
  · exact List.find?_some
  · intro hn
    cases hm : c.holder? with
    | none =>
        have hnone := List.find?_eq_none.mp hm n (List.mem_range.mpr (lt_of_holdsSlot hn))
        exact absurd hn hnone
    | some m => rw [holdsSlot_inj h (List.find?_some hm) hn]

theorem holder?_eq_none_iff (h : c.Attended) : c.holder? = none ↔ c.isAwaiting = false := by
  rw [holder?, List.find?_eq_none, Bool.eq_false_iff]
  constructor
  · intro hnone ha
    obtain ⟨n, hn⟩ := exists_holdsSlot h ha
    exact hnone n (List.mem_range.mpr (lt_of_holdsSlot hn)) hn
  · exact fun ha n _ hn => ha (isAwaiting_of_holdsSlot hn)

theorem mem_registers_iff (h : c.Attended) :
    n ∈ c.registers op ↔ (c.perform op).holdsSlot n = true ∧ c.holdsSlot n = false := by
  rw [registers, List.mem_filter, Option.mem_toList, holder?_eq_some_iff (h.perform op),
    Bool.not_eq_true']

theorem mem_serves_iff (h : c.Attended) :
    (n, v) ∈ c.serves op ↔ c.holdsSlot n = true ∧ op.value? = some v := by
  rw [← holder?_eq_some_iff h, serves]
  cases c.holder? with
  | none => simp
  | some m =>
      cases op.value? with
      | none => simp
      | some w => simp [eq_comm]

/-! ## Values -/

/-- The wait that holds the slot gets the value that is reported. -/
theorem bound_of_value (hn : c.holdsSlot n = true) (hop : op.value? = some v) :
    (c.perform op).Bound n (.ok v) := by
  obtain ⟨r, hs, hw⟩ := holdsSlot_iff.mp hn
  have hstage : (c.perform op).waitStage n = c.waitStage n ∧
      (c.perform op).slot = c.slot.report v := by
    cases op with
    | report | addFrom =>
        cases hop
        exact ⟨rfl, rfl⟩
    | _ => cases hop
  refine .answered (hstage.1.trans hs) ?_
  rw [hstage.2, InputSlot.report_eq]
  exact InputSlot.receiver_release_self hw

theorem value?_eq_some_iff : c.value? n = some v ↔ c.waitStage n = .ended (.ok v) ∨
    ∃ r, c.waitStage n = .listening r ∧ c.slot.receiver r = .holding v := by
  unfold value?
  cases c.waitStage n with
  | opening | dropped => simp
  | ended result => cases result <;> simp
  | listening r => cases hr : c.slot.receiver r <;> simp [hr]

/-- A wait that is bound to a value has it, unless the one who waited has gone. -/
theorem Bound.value? (h : c.Bound n (.ok v)) :
    c.value? n = if c.hasGone n then none else some v := by
  unfold Conversation.value? hasGone
  cases h with
  | left hs => simp [hs]
  | answered hs hr => simp [hs, hr]
  | ended hs => simp [hs]

/-- A wait that has ended with a value by its step had got the value before. -/
theorem value?_of_stepWait (hn : n < c.waits.length)
    (hs : (c.stepWait n).waitStage n = .ended (.ok v)) : c.value? n = some v := by
  rw [value?_eq_some_iff]
  have hstep := waitStep_stepWait c n
  generalize c.stepWait n = c' at hstep hs
  cases hstep with
  | stay => exact .inl hs
  | listen =>
      cases ha : c.isAwaiting with
      | true =>
          rw [listen_of_awaiting ha] at hs
          cases (waitStage_setWait_self hn).symm.trans hs
      | false =>
          rw [listen_of_free ha] at hs
          cases (waitStage_setWait_self hn).symm.trans hs
  | lose | miss => cases (waitStage_setWait_self hn).symm.trans hs
  | receive hl hr =>
      cases (waitStage_setWait_self hn).symm.trans hs
      exact .inr ⟨_, hl, hr⟩

/-- A wait has a value only when it had it before, or when it held the slot and the value is
reported. -/
theorem value?_perform (h : c.Attended) (op : Operation) (hv : (c.perform op).value? n = some v) :
    c.value? n = some v ∨ (n, v) ∈ c.serves op := by
  rw [mem_serves_iff h]
  rcases value?_eq_some_iff.mp hv with hs | ⟨r, hs, hr⟩
  · left
    by_cases hn : n < c.waits.length
    · cases fared_perform h hn op with
      | left hl => exact WaitStage.noConfusion (hl.symm.trans hs)
      | stayed hst => exact value?_eq_some_iff.mpr (.inl (hst.symm.trans hs))
      | stepped hd =>
          rw [waitStage_of_waits (congrArg Desk.waits hd)] at hs
          exact value?_of_stepWait hn hs
    · cases fresh_perform h.worked (Nat.le_of_not_lt hn) op with
      | absent hs' | asking hs' | listening hs' | refused hs' => cases hs'.symm.trans hs
  · rcases holding_perform h op hs hr with hold | hnew
    · exact .inl (value?_eq_some_iff.mpr (.inr ⟨r, hold⟩))
    · exact .inr hnew

/-- A wait that holds the slot does so until a value is reported, or it is interrupted. -/
theorem holdsSlot_or_interrupted (h : c.Attended) (hn : c.holdsSlot n = true)
    {ops : List Operation} (hops : ∀ op ∈ ops, op.value? = none) :
    (c.after ops).holdsSlot n = true ∨ (c.after ops).Bound n (.error .interrupted) := by
  induction ops generalizing c with
  | nil => exact .inl hn
  | cons op rest ih =>
      have hlt := Nat.lt_of_lt_of_le (lt_of_holdsSlot hn) (length_waits_perform h.worked op)
      rcases holdsSlot_or_bound h hn op with hholds | hb | ⟨v, hv, -⟩
      · exact ih (h.perform op) hholds fun op' hop' => hops op' (List.mem_cons_of_mem op hop')
      · exact .inr (hb.after (h.perform op) hlt rest)
      · cases (hops op List.mem_cons_self).symm.trans hv

/-- Clearing interrupts the wait that holds the slot. -/
theorem bound_clear (h : c.Attended) (hn : c.holdsSlot n = true) :
    c.clear.Bound n (.error .interrupted) := by
  rcases holdsSlot_or_bound h hn .clear with hholds | hb | ⟨v, hv, -⟩
  · obtain ⟨r, -, hw⟩ := holdsSlot_iff.mp hholds
    rw [show (c.perform .clear).slot = c.slot.release .closed from slot_clear,
      InputSlot.waiter?_release] at hw
    cases hw
  · exact hb
  · cases hv

/-! ## One wait after the other -/

/-- The waits that have held the slot, in the order in which they did, and those of them that a
value was reported to, with the values. -/
structure Served (c : Conversation) (waits : List Nat) (served : List (Nat × Json)) : Prop where
  nodup : waits.Nodup
  /-- The waits were served in the order in which they have held the slot. -/
  order : (served.map Prod.fst).Sublist waits
  last : ∀ n, c.holdsSlot n = true → waits.getLast? = some n
  settled : ∀ n ∈ waits, n < c.waits.length ∧
    (c.holdsSlot n = true ∨ ∃ result, c.Bound n result)
  bound : ∀ a ∈ served, c.Bound a.1 (.ok a.2)
  /-- Nobody else has a value. -/
  value : ∀ n v, c.value? n = some v → (n, v) ∈ served

theorem Bound.perform {result : Except RunError Json} (hb : c.Bound n result) (h : c.Attended)
    (hn : n < c.waits.length) (op : Operation) : (c.perform op).Bound n result :=
  hb.after h hn [op]

/-- The wait that holds the slot is the last that came to hold it, and it has not been served. -/
theorem Served.exists_before (hs : c.Served waits served) (hn : c.holdsSlot n = true) :
    ∃ before, waits = before ++ [n] ∧ (served.map Prod.fst).Sublist before := by
  obtain ⟨before, rfl⟩ := List.getLast?_eq_some_iff.mp (hs.last n hn)
  refine ⟨before, rfl, ?_⟩
  have hnot : n ∉ served.map Prod.fst := by
    intro hmem
    obtain ⟨a, ha, rfl⟩ := List.mem_map.mp hmem
    exact absurd (hn.symm.trans (hs.bound a ha).holdsSlot_eq_false) (by decide)
  obtain ⟨front, back, heq, hfront, hback⟩ := List.sublist_append_iff.mp hs.order
  cases hback with
  | cons _ hnil =>
      obtain rfl := List.sublist_nil.mp hnil
      rw [heq, List.append_nil]
      exact hfront
  | cons_cons _ _ => exact absurd (heq ▸ by simp) hnot

theorem registers_cases (c : Conversation) (op : Operation) :
    c.registers op = [] ∨ ∃ n, c.registers op = [n] := by
  unfold registers
  cases (c.perform op).holder? with
  | none => exact .inl rfl
  | some n => cases hn : c.holdsSlot n <;> simp [hn]

theorem serves_cases (h : c.Attended) (op : Operation) : c.serves op = [] ∨
    ∃ n v, c.serves op = [(n, v)] ∧ c.holdsSlot n = true := by
  unfold serves
  split
  · next n v hn _ => exact .inr ⟨n, v, rfl, (holder?_eq_some_iff h).mp hn⟩
  · exact .inl rfl

theorem Served.perform (hs : c.Served waits served) (h : c.Attended) (op : Operation) :
    (c.perform op).Served (waits ++ c.registers op) (served ++ c.serves op) where
  nodup := by
    refine List.nodup_append.mpr ⟨hs.nodup, ?_, ?_⟩
    · rcases registers_cases c op with hnil | ⟨n, hone⟩
      · rw [hnil]
        exact List.nodup_nil
      · rw [hone]
        exact List.nodup_singleton n
    · rintro n hold _ hnew rfl
      obtain ⟨hholds, hfree⟩ := (mem_registers_iff h).mp hnew
      obtain ⟨hlt, hcases⟩ := hs.settled n hold
      rcases hcases with hheld | ⟨result, hb⟩
      · exact absurd (hheld.symm.trans hfree) (by decide)
      · exact absurd (hholds.symm.trans (hb.perform h hlt op).holdsSlot_eq_false) (by decide)
  order := by
    rcases serves_cases h op with hnil | ⟨n, v, hone, hn⟩
    · rw [hnil, List.append_nil]
      exact hs.order.trans (List.sublist_append_left _ _)
    · obtain ⟨before, rfl, hbefore⟩ := hs.exists_before hn
      rw [hone, List.map_append]
      exact (hbefore.append (List.Sublist.refl [n])).trans (List.sublist_append_left _ _)
  last n hn := by
    rcases registers_cases c op with hnil | ⟨m, hone⟩
    · rw [hnil, List.append_nil]
      refine hs.last n ?_
      by_contra hfree
      have hmem : n ∈ c.registers op := (mem_registers_iff h).mpr ⟨hn, by simpa using hfree⟩
      rw [hnil] at hmem
      cases hmem
    · have hm : m ∈ c.registers op := hone ▸ List.mem_singleton_self m
      obtain rfl := holdsSlot_inj (h.perform op) ((mem_registers_iff h).mp hm).1 hn
      rw [hone]
      exact List.getLast?_concat
  settled n hmem := by
    rcases List.mem_append.mp hmem with hold | hnew
    · obtain ⟨hlt, hcases⟩ := hs.settled n hold
      refine ⟨Nat.lt_of_lt_of_le hlt (length_waits_perform h.worked op), ?_⟩
      rcases hcases with hheld | ⟨result, hb⟩
      · rcases holdsSlot_or_bound h hheld op with hholds | hb | ⟨v, -, hb⟩
        · exact .inl hholds
        · exact .inr ⟨_, hb⟩
        · exact .inr ⟨_, hb⟩
      · exact .inr ⟨result, hb.perform h hlt op⟩
    · have hholds := ((mem_registers_iff h).mp hnew).1
      exact ⟨lt_of_holdsSlot hholds, .inl hholds⟩
  bound a ha := by
    rcases List.mem_append.mp ha with hold | hnew
    · have hmem : a.1 ∈ waits := hs.order.subset (List.mem_map_of_mem hold)
      exact (hs.bound a hold).perform h (hs.settled a.1 hmem).1 op
    · obtain ⟨hholds, hop⟩ := (mem_serves_iff h).mp hnew
      exact bound_of_value hholds hop
  value n v hv := by
    rw [List.mem_append]
    exact (value?_perform h op hv).imp_left (hs.value n v)

theorem Served.after (hs : c.Served waits served) (h : c.Attended) (history : List Operation) :
    (c.after history).Served (waits ++ c.gathered registers history)
      (served ++ c.gathered serves history) := by
  induction history generalizing c waits served with
  | nil =>
      rw [gathered, gathered, List.append_nil, List.append_nil]
      exact hs
  | cons op rest ih =>
      rw [gathered, gathered, ← List.append_assoc, ← List.append_assoc]
      exact ih (hs.perform h op) (h.perform op)

theorem served_start (settings : Settings) (clock : Clock) :
    (start settings clock).Served [] [] where
  nodup := List.nodup_nil
  order := List.nil_sublist []
  last _ hn := by cases hn
  settled _ hmem := by cases hmem
  bound _ hmem := by cases hmem
  value _ _ hv := by cases hv

/-- Where only members of a part of the list have values, it is enough to look at the part. -/
theorem filterMap_of_sublist {α β : Type} {f : α → Option β} {part all : List α}
    (hsub : part.Sublist all) (hnodup : all.Nodup) (hrest : ∀ x ∈ all, x ∉ part → f x = none) :
    all.filterMap f = part.filterMap f := by
  induction hsub with
  | slnil => rfl
  | @cons part all x hsub ih =>
      obtain ⟨hx, hnodup⟩ := List.nodup_cons.mp hnodup
      have hnone := hrest x List.mem_cons_self fun hmem => hx (hsub.subset hmem)
      rw [List.filterMap_cons_none hnone]
      exact ih hnodup fun y hy => hrest y (List.mem_cons_of_mem x hy)
  | @cons_cons part all x hsub ih =>
      obtain ⟨hx, hnodup⟩ := List.nodup_cons.mp hnodup
      rw [List.filterMap_cons, List.filterMap_cons, ih hnodup fun y hy hnot => ?_]
      refine hrest y (List.mem_cons_of_mem x hy) fun hmem => ?_
      rcases List.mem_cons.mp hmem with rfl | hmem
      · exact hx hy
      · exact hnot hmem

/-- The values of the waits that have held the slot are those that were reported to them. -/
theorem Served.filterMap_value? (hs : c.Served waits served) :
    waits.filterMap c.value? = (served.filter fun a => !c.hasGone a.1).map Prod.snd := by
  rw [filterMap_of_sublist hs.order hs.nodup fun n _ hnot => ?_]
  · have hbound := hs.bound
    clear hs
    induction served with
    | nil => rfl
    | cons a rest ih =>
        have hrest := ih fun b hb => hbound b (List.mem_cons_of_mem a hb)
        have hvalue := (hbound a List.mem_cons_self).value?
        rw [List.map_cons, List.filterMap_cons, List.filter_cons, hvalue, hrest]
        cases c.hasGone a.1 <;> rfl
  · rw [Option.eq_none_iff_forall_ne_some]
    intro v hv
    exact hnot (List.mem_map_of_mem (hs.value n v hv))

/-- Each value that is reported while a wait holds the slot is bound to come to that wait, nobody
has another value, no wait is served twice, and the values that the waits have, one after the other,
are those that were reported to them. A wait whose owner has gone does not take its value. -/
theorem values_in_order (settings : Settings) (clock : Clock) (history : List Operation) :
    let c := (start settings clock).after history
    let served := (start settings clock).gathered serves history
    (∀ a ∈ served, c.Bound a.1 (.ok a.2)) ∧ (∀ n v, c.value? n = some v → (n, v) ∈ served) ∧
      (served.map Prod.fst).Nodup ∧
      ((start settings clock).gathered registers history).filterMap c.value? =
        (served.filter fun a => !c.hasGone a.1).map Prod.snd := by
  intro c served
  have hs := (served_start settings clock).after (attended_start settings clock) history
  exact ⟨hs.bound, hs.value, hs.order.nodup hs.nodup, hs.filterMap_value?⟩

end Dialogue.Conversation
