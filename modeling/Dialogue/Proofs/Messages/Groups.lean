import Dialogue.Proofs.Messages.Changes
/-!
# Where groups of messages begin

A message has a flag that says whether it begins a group of its kind. The flag is set when the
message is written, and compares it with the message before. But the message before may be a
placeholder, in whose place a message of another kind lands later, and then the flag of the message
behind is left as it is.

* `Placed.perform` — the flags at a reserved place and behind it stay right while it is reserved.
* `misgrouped_perform_iff` — a flag becomes wrong when a message lands in front of it, and right
  again when its message is replaced.
* `first_wrong_iff` — so a flag is wrong just if such a landing has happened and nothing since.
-/

namespace Dialogue.Conversation

variable {c c' : Conversation} {messages messages' : List Message} {m : Message} {i j : Nat}
  {op : Operation} {p : Payload}

/-! ## Flags -/

/-- Does the message at an index stand first in the list, or behind one of another kind? -/
def BeginsGroup (messages : List Message) (i : Nat) : Prop :=
  i = 0 ∨ (messages[i - 1]?).map Message.kind ≠ (messages[i]?).map Message.kind

instance (messages : List Message) (i : Nat) : Decidable (BeginsGroup messages i) :=
  inferInstanceAs (Decidable (_ ∨ _))

/-- Is the flag of the message at an index wrong? -/
def Misgrouped (messages : List Message) (i : Nat) : Prop :=
  ∃ m, messages[i]? = some m ∧ ¬(m.first = true ↔ BeginsGroup messages i)

/-- A flag is computed from the messages before. -/
theorem startsGroup_take_iff (hm : messages[i]? = some m) :
    startsGroup (messages.take i) m.kind = true ↔ BeginsGroup messages i := by
  obtain ⟨hlt, -⟩ := List.getElem?_eq_some_iff.mp hm
  cases i with
  | zero => simp [startsGroup, BeginsGroup]
  | succ k =>
      have hk : messages[k]? = some messages[k] := List.getElem?_eq_getElem (by omega)
      have hlast : (messages.take (k + 1)).getLast? = some messages[k] := by
        simp [List.getLast?_take, hk]
      simp [startsGroup, hlast, BeginsGroup, hm, hk]

theorem not_misgrouped_of_none (h : messages[i]? = none) : ¬Misgrouped messages i := by
  rintro ⟨m, hm, -⟩
  rw [h] at hm
  cases hm

theorem not_misgrouped_of_first (hm : messages[i]? = some m)
    (hf : m.first = startsGroup (messages.take i) m.kind) : ¬Misgrouped messages i := by
  rintro ⟨m', hm', hwrong⟩
  obtain rfl : m = m' := Option.some.inj (hm.symm.trans hm')
  exact hwrong (hf ▸ startsGroup_take_iff hm)

/-- A flag depends on its message and the one before only. -/
theorem misgrouped_congr (h : messages'[i]? = messages[i]?)
    (hbefore : messages'[i - 1]? = messages[i - 1]?) :
    Misgrouped messages' i ↔ Misgrouped messages i := by
  rw [Misgrouped, Misgrouped, BeginsGroup, BeginsGroup, h, hbefore]

/-! ## Writing messages -/

theorem getElem?_add_of_lt (h : i < c.messages.length) (p : Payload) :
    (c.add p).messages[i]? = c.messages[i]? := List.getElem?_append_left h

theorem getElem?_add_self (c : Conversation) (p : Payload) :
    (c.add p).messages[c.messages.length]? = some (c.newMessage p) :=
  List.getElem?_concat_length ..

theorem length_add (c : Conversation) (p : Payload) :
    (c.add p).messages.length = c.messages.length + 1 := List.length_append ..

/-- A message that is added has a right flag, and leaves the others as they are. -/
theorem misgrouped_add_iff (c : Conversation) (p : Payload) (i : Nat) :
    Misgrouped (c.add p).messages i ↔ Misgrouped c.messages i := by
  rcases Nat.lt_trichotomy i c.messages.length with hlt | rfl | hgt
  · exact misgrouped_congr (getElem?_add_of_lt hlt p) (getElem?_add_of_lt (by omega) p)
  · have hnew : ¬Misgrouped (c.add p).messages c.messages.length := by
      refine not_misgrouped_of_first (getElem?_add_self c p) ?_
      show startsGroup c.messages p.kind = startsGroup ((c.messages ++ [_]).take _) p.kind
      rw [List.take_left]
    exact iff_of_false hnew (not_misgrouped_of_none (List.getElem?_eq_none (Nat.le_refl _)))
  · refine iff_of_false (not_misgrouped_of_none ?_) (not_misgrouped_of_none ?_)
    · exact List.getElem?_eq_none (by rw [length_add]; omega)
    · exact List.getElem?_eq_none (Nat.le_of_lt hgt)

theorem messages_replaceAt (h : i < c.messages.length) (p : Payload) :
    (c.replaceAt i p).messages = c.messages.set i (c.messageAt i p) := if_pos h

theorem getElem?_replaceAt_self (h : i < c.messages.length) (p : Payload) :
    (c.replaceAt i p).messages[i]? = some (c.messageAt i p) := by
  rw [messages_replaceAt h, List.getElem?_set_self h]

theorem getElem?_replaceAt_of_ne (h : i < c.messages.length) (p : Payload) (hj : j ≠ i) :
    (c.replaceAt i p).messages[j]? = c.messages[j]? := by
  rw [messages_replaceAt h, List.getElem?_set_ne (Ne.symm hj)]

/-- A message that is written over another one has a right flag. -/
theorem not_misgrouped_replaceAt_self (h : i < c.messages.length) (p : Payload) :
    ¬Misgrouped (c.replaceAt i p).messages i := by
  refine not_misgrouped_of_first (getElem?_replaceAt_self h p) ?_
  rw [messages_replaceAt h, List.take_set_of_le (Nat.le_refl i)]
  rfl

/-- It leaves all flags alone but the one behind it. -/
theorem misgrouped_replaceAt_iff (h : i < c.messages.length) (p : Payload) (hj : j ≠ i)
    (hnext : j ≠ i + 1) : Misgrouped (c.replaceAt i p).messages j ↔ Misgrouped c.messages j := by
  have hbefore : j - 1 ≠ i := by
    intro he
    omega
  exact misgrouped_congr (getElem?_replaceAt_of_ne h p hj) (getElem?_replaceAt_of_ne h p hbefore)

theorem lastIndex_lt (h : i < c.messages.length) : c.lastIndex < c.messages.length := by
  rw [lastIndex]
  omega

/-- Replacing the last message puts its flag right. There is none behind it. -/
theorem misgrouped_replaceLast_iff (c : Conversation) (p : Payload) (i : Nat) :
    Misgrouped (c.replaceLast p).messages i ↔ Misgrouped c.messages i ∧ i ≠ c.lastIndex := by
  by_cases hlt : c.lastIndex < c.messages.length
  · by_cases hi : i = c.lastIndex
    · subst hi
      exact iff_of_false (not_misgrouped_replaceAt_self hlt p) fun h => h.2 rfl
    · rw [and_iff_left hi]
      by_cases hnext : i = c.lastIndex + 1
      · -- Behind the last message there is none.
        have hlast : c.messages.length ≤ i := by
          rw [hnext, lastIndex]
          omega
        refine iff_of_false (not_misgrouped_of_none ?_) (not_misgrouped_of_none ?_)
        · rw [replaceLast, getElem?_replaceAt_of_ne hlt p hi]
          exact List.getElem?_eq_none hlast
        · exact List.getElem?_eq_none hlast
      · exact misgrouped_replaceAt_iff hlt p hi hnext
  · -- The list is empty, and the message is added.
    have hempty : c.messages.length = 0 := by
      rw [lastIndex] at hlt
      omega
    have hadd : (c.replaceLast p).messages = (c.add p).messages := if_neg hlt
    have hnone : ¬Misgrouped c.messages i :=
      not_misgrouped_of_none (List.getElem?_eq_none (by omega))
    rw [hadd, misgrouped_add_iff]
    exact iff_of_false hnone fun h => hnone h.1

/-! ## Reserved places -/

/-- A reserved place lies in the list, and the flags there and behind it are right. -/
structure Placed (c : Conversation) : Prop where
  worked : c.WorkedOff
  inside : ∀ x ∈ c.reserved, x.1 < c.messages.length
  grouped : ∀ x ∈ c.reserved, ¬Misgrouped c.messages x.1 ∧ ¬Misgrouped c.messages (x.1 + 1)

theorem Placed.perform (h : c.Placed) (op : Operation) : (c.perform op).Placed := by
  suffices hs : ∀ x ∈ (c.perform op).reserved, x.1 < (c.perform op).messages.length ∧
      ¬Misgrouped (c.perform op).messages x.1 ∧ ¬Misgrouped (c.perform op).messages (x.1 + 1) from
    ⟨h.worked.perform op, fun x hx => (hs x hx).1, fun x hx => (hs x hx).2⟩
  intro x hx
  cases sheetStep_perform h.worked op with
  | stay ho hp hl hs =>
      obtain ⟨hm, hr, -⟩ := Sheet.mk.inj hs
      rw [hr] at hx
      rw [hm]
      exact ⟨h.inside x hx, h.grouped x hx⟩
  | @add p ho hp hl ha hs =>
      obtain ⟨hm, hr, -⟩ := Sheet.mk.inj hs
      rw [hr] at hx
      rw [hm, length_add, misgrouped_add_iff, misgrouped_add_iff]
      exact ⟨Nat.lt_succ_of_lt (h.inside x hx), h.grouped x hx⟩
  | @reserve d rest ho hp hl hnone hcons hs =>
      -- The placeholder is the last message.
      obtain ⟨hm, hr, -⟩ := Sheet.mk.inj hs
      rw [hr] at hx
      rw [List.mem_singleton.mp hx, hm, length_add, misgrouped_add_iff, misgrouped_add_iff]
      refine ⟨Nat.lt_succ_self _, not_misgrouped_of_none ?_, not_misgrouped_of_none ?_⟩
      · exact List.getElem?_eq_none (Nat.le_refl _)
      · exact List.getElem?_eq_none (Nat.le_succ _)
  | land ho hp hl hold ha hs =>
      obtain ⟨-, hr, -⟩ := Sheet.mk.inj hs
      rw [hr] at hx
      cases hx
  | @replace p hop hs =>
      obtain ⟨hm, hr, -⟩ := Sheet.mk.inj hs
      rw [hr] at hx
      have hlt := h.inside x hx
      rw [hm, misgrouped_replaceLast_iff, misgrouped_replaceLast_iff]
      refine ⟨?_, fun hw => (h.grouped x hx).1 hw.1, fun hw => (h.grouped x hx).2 hw.1⟩
      rw [replaceLast, messages_replaceAt (lastIndex_lt hlt), List.length_set]
      exact hlt
  | clear hop hs =>
      obtain ⟨-, hr, -⟩ := Sheet.mk.inj hs
      rw [hr] at hx
      cases hx

theorem Placed.after (h : c.Placed) (history : List Operation) : (c.after history).Placed := by
  induction history generalizing c with
  | nil => exact h
  | cons op rest ih => exact ih (h.perform op)

theorem placed_start (settings : Settings) (clock : Clock) : (start settings clock).Placed where
  worked := workedOff_start settings clock
  inside := fun _ hx => by cases hx
  grouped := fun _ hx => by cases hx

/-! ## When a flag becomes wrong -/

/-- The place at which an operation replaces a message, and what stands there then. -/
def replaces (c : Conversation) : Operation → List (Nat × Payload)
  | .replace p => [(c.lastIndex, p)]
  | _ => []

theorem replaces_of_isSteady (ho : op.isSteady = true) : c.replaces op = [] := by
  cases op with
  | replace p => cases ho
  | _ => rfl

theorem ne_clear_of_isSteady (ho : op.isSteady = true) : op ≠ .clear := by
  rintro rfl
  cases ho

/-- A message lands at an index, and whether the message behind it begins a group changes: one of
the placeholder and the message that lands is of the kind of the message behind, and the other one
is not. -/
def Regroups (c : Conversation) (op : Operation) (k : Nat) : Prop :=
  ∃ d m m', (k, d) ∈ c.lands op ∧ c.messages[k]? = some m ∧ c.messages[k + 1]? = some m' ∧
    (m.kind = m'.kind ↔ d.payload.kind ≠ m'.kind)

theorem not_regroups (hl : c.lands op = []) (k : Nat) : ¬c.Regroups op k := by
  rintro ⟨d, m, m', hd, -⟩
  rw [hl] at hd
  cases hd

/-- The flag behind the place of a message was right, so it is wrong when the message has landed
just if it should have changed. -/
theorem misgrouped_land_iff {d : Delivery} (h : c.Placed) (hr : c.reserved = [(i, d)])
    (hl : c.lands op = [(i, d)]) :
    Misgrouped (c.replaceAt i d.payload).messages (i + 1) ↔ c.Regroups op i := by
  have hmem : (i, d) ∈ c.reserved := hr ▸ List.mem_cons_self
  have hlt : i < c.messages.length := h.inside _ hmem
  have hm : c.messages[i]? = some c.messages[i] := List.getElem?_eq_getElem hlt
  have hbehind := getElem?_replaceAt_of_ne hlt d.payload (Nat.succ_ne_self i)
  have hlanded := getElem?_replaceAt_self hlt d.payload
  cases hm' : c.messages[i + 1]? with
  | none =>
      refine iff_of_false (not_misgrouped_of_none (hbehind.trans hm')) ?_
      rintro ⟨_, _, m', -, -, hsome, -⟩
      rw [hm'] at hsome
      cases hsome
  | some m' =>
      have hright : m'.first = true ↔ BeginsGroup c.messages (i + 1) := by
        by_contra hwrong
        exact (h.grouped _ hmem).2 ⟨m', hm', hwrong⟩
      have hold : BeginsGroup c.messages (i + 1) ↔ c.messages[i].kind ≠ m'.kind := by
        simp [BeginsGroup, hm, hm']
      have hnew : BeginsGroup (c.replaceAt i d.payload).messages (i + 1) ↔
          d.payload.kind ≠ m'.kind := by
        simp [BeginsGroup, hlanded, hbehind, hm', messageAt, Message.kind]
      have hwrong : Misgrouped (c.replaceAt i d.payload).messages (i + 1) ↔
          ¬(m'.first = true ↔ d.payload.kind ≠ m'.kind) := by
        simp only [Misgrouped, hbehind, hm', Option.some.injEq, exists_eq_left', hnew]
      have hregroups : c.Regroups op i ↔
          (c.messages[i].kind = m'.kind ↔ d.payload.kind ≠ m'.kind) := by
        simp [Regroups, hl, hm, hm']
      rw [hwrong, hregroups, hright, hold]
      by_cases hkinds : c.messages[i].kind = m'.kind <;> simp [hkinds]

/-- A landing puts no flag right, and makes no other flag wrong than the one behind the place. -/
theorem misgrouped_landed_iff {d : Delivery} (h : c.Placed) (hr : c.reserved = [(j, d)])
    (hl : c.lands op = [(j, d)]) : Misgrouped (c.replaceAt j d.payload).messages i ↔
      Misgrouped c.messages i ∨ ∃ k, i = k + 1 ∧ c.Regroups op k := by
  have hmem : (j, d) ∈ c.reserved := hr ▸ List.mem_cons_self
  have hlt : j < c.messages.length := h.inside _ hmem
  obtain ⟨hplace, hbehind⟩ := h.grouped _ hmem
  have hk : ∀ k, c.Regroups op k → k = j := by
    rintro k ⟨d', m, m', hd, -⟩
    rw [hl] at hd
    exact congrArg Prod.fst (List.mem_singleton.mp hd)
  by_cases hj : i = j
  · subst hj
    refine iff_of_false (not_misgrouped_replaceAt_self hlt _) ?_
    rintro (hwrong | ⟨k, he, hregroups⟩)
    · exact hplace hwrong
    · have := hk k hregroups
      omega
  · by_cases hnext : i = j + 1
    · subst hnext
      rw [misgrouped_land_iff h hr hl]
      constructor
      · exact fun hregroups => .inr ⟨j, rfl, hregroups⟩
      · rintro (hwrong | ⟨k, he, hregroups⟩)
        · exact absurd hwrong hbehind
        · exact hk k hregroups ▸ hregroups
    · have hno : ¬∃ k, i = k + 1 ∧ c.Regroups op k := by
        rintro ⟨k, rfl, hregroups⟩
        exact hnext (congrArg (· + 1) (hk k hregroups))
      rw [misgrouped_replaceAt_iff hlt _ hj hnext, or_iff_left hno]

/-- A flag is wrong after an operation if it was wrong before, unless its message was replaced or
everything cleared, or if a message has landed in front of it that makes a difference. -/
theorem misgrouped_perform_iff (h : c.Placed) (op : Operation) (i : Nat) :
    Misgrouped (c.perform op).messages i ↔
      (Misgrouped c.messages i ∧ op ≠ .clear ∧ ∀ x ∈ c.replaces op, x.1 ≠ i) ∨
        ∃ k, i = k + 1 ∧ c.Regroups op k := by
  -- Without a landing there is nothing to the second case.
  have hquiet : c.lands op = [] → op.isSteady = true →
      (Misgrouped (c.perform op).messages i ↔ Misgrouped c.messages i) →
      (Misgrouped (c.perform op).messages i ↔
        (Misgrouped c.messages i ∧ op ≠ .clear ∧ ∀ x ∈ c.replaces op, x.1 ≠ i) ∨
          ∃ k, i = k + 1 ∧ c.Regroups op k) := by
    intro hl ho hiff
    simp [hiff, not_regroups hl, ne_clear_of_isSteady ho, replaces_of_isSteady ho]
  cases sheetStep_perform h.worked op with
  | stay ho hp hl hs =>
      obtain ⟨hm, -, -⟩ := Sheet.mk.inj hs
      exact hquiet hl ho (by rw [hm]; rfl)
  | @add p ho hp hl ha hs =>
      obtain ⟨hm, -, -⟩ := Sheet.mk.inj hs
      exact hquiet hl ho (by rw [hm]; exact misgrouped_add_iff c p i)
  | reserve ho hp hl hnone hcons hs =>
      obtain ⟨hm, -, -⟩ := Sheet.mk.inj hs
      exact hquiet hl ho (by rw [hm]; exact misgrouped_add_iff c .typing i)
  | @land j d ho hp hl hr ha hs =>
      obtain ⟨hm, -, -⟩ := Sheet.mk.inj hs
      rw [hm, misgrouped_landed_iff h hr hl]
      simp [ne_clear_of_isSteady ho, replaces_of_isSteady ho]
  | @replace p hop hs =>
      subst hop
      obtain ⟨hm, -, -⟩ := Sheet.mk.inj hs
      have hno : ∀ k, ¬c.Regroups (.replace p) k := not_regroups rfl
      rw [hm, misgrouped_replaceLast_iff]
      simp [replaces, hno, eq_comm]
  | clear hop hs =>
      subst hop
      obtain ⟨hm, -, -⟩ := Sheet.mk.inj hs
      rw [hm]
      refine iff_of_false (not_misgrouped_of_none rfl) ?_
      rintro (⟨-, hne, -⟩ | ⟨k, -, hregroups⟩)
      · exact hne rfl
      · exact not_regroups rfl k hregroups

/-! ## Histories -/

/-- In a history nothing is cleared and the message at an index is not replaced. -/
def Leaves (c : Conversation) (history : List Operation) (i : Nat) : Prop :=
  .clear ∉ history ∧ ∀ x ∈ c.gathered replaces history, x.1 ≠ i

theorem leaves_cons_iff {rest : List Operation} : c.Leaves (op :: rest) i ↔
    (op ≠ .clear ∧ ∀ x ∈ c.replaces op, x.1 ≠ i) ∧ (c.perform op).Leaves rest i := by
  simp only [Leaves, gathered, List.mem_cons, List.mem_append, not_or, or_imp, forall_and,
    eq_comm (a := Operation.clear)]
  exact and_and_and_comm

/-- A place in a list with one element more in front is the first one or a place in the rest. -/
theorem exists_split_cons_iff {α : Type} {Q : List α → α → List α → Prop} {x : α} {xs : List α} :
    (∃ before y later, x :: xs = before ++ y :: later ∧ Q before y later) ↔
      Q [] x xs ∨ ∃ before y later, xs = before ++ y :: later ∧ Q (x :: before) y later := by
  constructor
  · rintro ⟨before, y, later, he, hq⟩
    cases before with
    | nil =>
        obtain ⟨rfl, rfl⟩ := List.cons.inj he
        exact .inl hq
    | cons z before =>
        obtain ⟨rfl, hrest⟩ := List.cons.inj he
        exact .inr ⟨before, y, later, hrest, hq⟩
  · rintro (hq | ⟨before, y, later, rfl, hq⟩)
    · exact ⟨[], x, xs, rfl, hq⟩
    · exact ⟨x :: before, y, later, rfl, hq⟩

theorem misgrouped_after_iff (h : c.Placed) (history : List Operation) (i : Nat) :
    Misgrouped (c.after history).messages i ↔ (Misgrouped c.messages i ∧ c.Leaves history i) ∨
      ∃ before op later, history = before ++ op :: later ∧
        (∃ k, i = k + 1 ∧ (c.after before).Regroups op k) ∧
          ((c.after before).perform op).Leaves later i := by
  induction history generalizing c with
  | nil => simp [after, Leaves, gathered]
  | cons op rest ih =>
      rw [exists_split_cons_iff, leaves_cons_iff]
      refine (ih (h.perform op)).trans ?_
      rw [misgrouped_perform_iff h, or_and_right, or_assoc, and_assoc]
      rfl

/-- The flag of a message says whether the message begins a group of its kind, unless another
message has landed in front of it and one of that message and its placeholder is of the same kind,
and since then nothing was cleared and the message not replaced. -/
theorem first_wrong_iff (settings : Settings) (clock : Clock) (history : List Operation) (i : Nat)
    (m : Message) (hm : ((start settings clock).after history).messages[i]? = some m) :
    let c := (start settings clock).after history
    ¬(m.first = true ↔ i = 0 ∨
        (c.messages[i - 1]?).map Message.kind ≠ (c.messages[i]?).map Message.kind) ↔
      ∃ before op later, history = before ++ op :: later ∧
        let b := (start settings clock).after before
        (∃ k, i = k + 1 ∧ b.Regroups op k) ∧ (b.perform op).Leaves later i := by
  intro c
  have hstart : ¬Misgrouped (start settings clock).messages i := not_misgrouped_of_none rfl
  have hwrong : Misgrouped c.messages i ↔ ¬(m.first = true ↔ BeginsGroup c.messages i) := by
    constructor
    · rintro ⟨m', hm', hwrong⟩
      obtain rfl : m = m' := Option.some.inj (hm.symm.trans hm')
      exact hwrong
    · exact fun hwrong => ⟨m, hm, hwrong⟩
  refine hwrong.symm.trans ((misgrouped_after_iff (placed_start settings clock) history i).trans ?_)
  exact or_iff_right fun hw => hstart hw.1

/-- The flag behind a text that has landed is right again when its message is replaced. -/
theorem first_wrong_iff_replaced :
    let history := [.queue (.to "a") none, .stepPump 0, .add (.to "b"), .pass 1000, .stepPump 0,
      .replace (.to "c")]
    let c := (start .standard .stepped).after history
    c.messages[1]? = some ⟨.to "c", false⟩ ∧
      ¬∃ before op later, history = before ++ op :: later ∧
        let b := (start .standard .stepped).after before
        (∃ k, 1 = k + 1 ∧ b.Regroups op k) ∧ (b.perform op).Leaves later 1 := by
  intro history c
  have hm : c.messages[1]? = some ⟨.to "c", false⟩ := rfl
  have hkinds : (c.messages[0]?).map Message.kind = (c.messages[1]?).map Message.kind := rfl
  refine ⟨hm, fun hwrong => ?_⟩
  apply (first_wrong_iff .standard .stepped history 1 _ hm).mpr hwrong
  exact iff_of_false Bool.false_ne_true (by rintro (h | h) <;> contradiction)

/-- A text that was added behind a placeholder begins no group when a text has landed there, and is
flagged all the same. -/
theorem first_wrong_behind_placeholder :
    let c := (start .standard .stepped).after
      [.queue (.to "a") none, .stepPump 0, .add (.to "b"), .pass 1000, .stepPump 0]
    c.messages = [⟨.to "a", true⟩, ⟨.to "b", true⟩] ∧
      (c.messages[0]?).map Message.kind = (c.messages[1]?).map Message.kind :=
  ⟨rfl, rfl⟩

end Dialogue.Conversation
