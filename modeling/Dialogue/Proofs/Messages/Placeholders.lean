import Dialogue.Proofs.Messages.Groups
/-!
# Where placeholders stand

While a message is on its way a placeholder stands at the place that is reserved for it. When
nobody passes a placeholder of his own and nothing is replaced there is no other one in the list:
so there is one just while a message of the present generation is on its way, and the message lands
on it.

* `Tidy.perform` — placeholders stand at reserved places and nowhere else.
* `one_placeholder_per_message` — what this says of the pumps and of landing.
-/

namespace Dialogue

/-- Does an operation pass no placeholder and replace nothing? -/
def Operation.isTidy : Operation → Bool
  | .queue p _ | .add p => p.kind ≠ .typing
  | .replace _ => false
  | _ => true

namespace Conversation

variable {c : Conversation} {n i : Nat} {op : Operation} {d : Delivery}

/-! ## Payloads that are passed -/

theorem kind_ne_typing_of_puts (ho : op.isTidy = true) : ∀ p ∈ c.puts op, p.kind ≠ .typing := by
  intro p hp
  cases op with
  | add q =>
      rw [List.mem_singleton.mp hp]
      simpa [Operation.isTidy] using ho
  | addFrom text =>
      rw [List.mem_singleton.mp hp]
      nofun
  | replace q => cases ho
  | _ => cases hp

theorem kind_ne_typing_of_asks (ho : op.isTidy = true) :
    ∀ d ∈ c.asks op, d.payload.kind ≠ .typing := by
  cases op with
  | queue p hook => simpa [asks, enqueues, Item.delivery?, Operation.isTidy] using ho
  | queueFrom text => simp [asks, enqueues, Item.delivery?, Payload.kind]
  | addOptions lead | addUploader lead =>
      cases lead <;> simp [asks, enqueues, Item.delivery?, Payload.kind]
  | call owner job => simp [asks, enqueues, Item.delivery?]
  | beginWait owner enable => cases enable <;> simp [asks, enqueues, Item.delivery?]
  | _ => exact fun _ hd => by cases hd

/-! ## Reserved places -/

/-- The places that are reserved are those of the pumps of the present generation. -/
theorem mem_reserved_iff {x : Nat × Delivery} : x ∈ c.reserved ↔
    ∃ p ∈ c.pumps, p.generation = c.generation ∧ p.stage.reserved? = some x := by
  simp only [reserved, hands, live, List.mem_filterMap, List.mem_map, List.mem_filter]
  constructor
  · rintro ⟨_, ⟨p, ⟨hp, hlive⟩, rfl⟩, hx⟩
    rw [Pump.isLive, Bool.and_eq_true, decide_eq_true_eq] at hlive
    exact ⟨p, hp, hlive.1, hx⟩
  · rintro ⟨p, hp, hg, hx⟩
    refine ⟨p.stage, ⟨p, ⟨hp, isLive_of_generation hg ?_⟩, rfl⟩, hx⟩
    -- A pump with a place has an item in its hands.
    obtain ⟨g, stage⟩ := p
    cases stage with
    | taken | typing => rfl
    | calling | through | ended => cases hx

/-- One pump is at work at most, so one place is reserved at most. -/
theorem WorkedOff.reserved_eq (hw : c.WorkedOff) {x : Nat × Delivery} (hx : x ∈ c.reserved) :
    c.reserved = [x] := by
  have hlive := hw.live_length
  have hle : c.reserved.length ≤ 1 := by
    refine Nat.le_trans (List.length_filterMap_le _ _) ?_
    rw [hands, List.length_map, hlive]
    split <;> decide
  rcases hr : c.reserved with _ | ⟨y, _ | ⟨z, rest⟩⟩
  · rw [hr] at hx
    cases hx
  · rw [hr] at hx
    rw [List.mem_singleton.mp hx]
  · rw [hr] at hle
    simp at hle

/-! ## Placeholders -/

/-- Placeholders stand at reserved places and nowhere else, and none is on its way as a message. -/
structure Tidy (c : Conversation) : Prop where
  placed : c.Placed
  typing_iff : ∀ i m, c.messages[i]? = some m → (m.isTyping = true ↔ i ∈ c.reserved.map (·.1))
  plain : ∀ d ∈ c.undelivered, d.payload.kind ≠ .typing

theorem tidy_start (settings : Settings) (clock : Clock) : (start settings clock).Tidy where
  placed := placed_start settings clock
  typing_iff := fun _ _ hm => by cases hm
  plain := fun _ hd => by cases hd

theorem isTyping_eq_false {m : Message} (h : m.payload.kind ≠ .typing) : m.isTyping = false :=
  decide_eq_false h

theorem Tidy.plain_perform (h : c.Tidy) (ho : op.isTidy = true) :
    ∀ d ∈ (c.perform op).undelivered, d.payload.kind ≠ .typing := by
  intro d hd
  by_cases hop : op = .clear
  · subst hop
    rw [show c.perform .clear = c.clear from rfl, undelivered_clear h.placed.worked] at hd
    cases hd
  · have hmem : d ∈ c.undelivered ++ c.asks op :=
      undelivered_perform h.placed.worked hop ▸ List.mem_append_right _ hd
    rcases List.mem_append.mp hmem with hd | hd
    · exact h.plain d hd
    · exact kind_ne_typing_of_asks ho d hd

/-- A message is added behind the list. Nothing is reserved at its index unless it is a
placeholder. -/
theorem Tidy.typing_iff_add (h : c.Tidy) {p : Payload} (hp : p.kind ≠ .typing) {m : Message}
    (hm : (c.add p).messages[i]? = some m) :
    m.isTyping = true ↔ i ∈ c.reserved.map (·.1) := by
  rcases Nat.lt_trichotomy i c.messages.length with hlt | rfl | hgt
  · rw [getElem?_add_of_lt hlt] at hm
    exact h.typing_iff i m hm
  · rw [getElem?_add_self] at hm
    cases hm
    refine iff_of_false (by simp [isTyping_eq_false (m := c.newMessage p) hp]) fun hi => ?_
    obtain ⟨x, hx, he⟩ := List.mem_map.mp hi
    have hlt : x.1 < c.messages.length := h.placed.inside x hx
    rw [he] at hlt
    exact Nat.lt_irrefl _ hlt
  · rw [List.getElem?_eq_none (by rw [length_add]; omega)] at hm
    cases hm

/-- A place is reserved at the end of a list in which no placeholder stands. -/
theorem Tidy.typing_iff_reserve (h : c.Tidy) (hr : c.reserved = []) {m : Message}
    (hm : (c.add .typing).messages[i]? = some m) :
    m.isTyping = true ↔ i = c.messages.length := by
  rcases Nat.lt_trichotomy i c.messages.length with hlt | rfl | hgt
  · rw [getElem?_add_of_lt hlt] at hm
    rw [h.typing_iff i m hm, hr]
    exact iff_of_false List.not_mem_nil (Nat.ne_of_lt hlt)
  · rw [getElem?_add_self] at hm
    cases hm
    exact iff_of_true rfl rfl
  · rw [List.getElem?_eq_none (by rw [length_add]; omega)] at hm
    cases hm

/-- A message lands on the only placeholder. -/
theorem Tidy.typing_land (h : c.Tidy) (hr : c.reserved = [(n, d)]) {m : Message}
    (hm : (c.replaceAt n d.payload).messages[i]? = some m) : m.isTyping = false := by
  have hlt : n < c.messages.length := h.placed.inside (n, d) (hr ▸ List.mem_cons_self)
  by_cases hi : i = n
  · subst hi
    rw [getElem?_replaceAt_self hlt] at hm
    cases hm
    refine isTyping_eq_false (m := c.messageAt i d.payload) (h.plain d ?_)
    rw [undelivered, hr]
    exact List.mem_cons_self
  · rw [getElem?_replaceAt_of_ne hlt _ hi] at hm
    rw [← Bool.not_eq_true, h.typing_iff i m hm, hr]
    simpa using hi

theorem Tidy.perform (h : c.Tidy) (ho : op.isTidy = true) : (c.perform op).Tidy := by
  refine ⟨h.placed.perform op, fun i m hm => ?_, h.plain_perform ho⟩
  cases sheetStep_perform h.placed.worked op with
  | stay _ _ _ hs =>
      obtain ⟨hmessages, hr, -⟩ := Sheet.mk.inj hs
      rw [hmessages] at hm
      rw [hr]
      exact h.typing_iff i m hm
  | @add p _ hp _ _ hs =>
      obtain ⟨hmessages, hr, -⟩ := Sheet.mk.inj hs
      rw [hmessages] at hm
      rw [hr]
      exact h.typing_iff_add (kind_ne_typing_of_puts ho p (hp ▸ List.mem_cons_self)) hm
  | reserve _ _ _ hnone _ hs =>
      obtain ⟨hmessages, hr, -⟩ := Sheet.mk.inj hs
      rw [hmessages] at hm
      rw [h.typing_iff_reserve hnone hm, hr]
      exact List.mem_singleton.symm
  | land _ _ _ hold _ hs =>
      obtain ⟨hmessages, hr, -⟩ := Sheet.mk.inj hs
      rw [hmessages] at hm
      rw [h.typing_land hold hm, hr]
      exact iff_of_false (by decide) List.not_mem_nil
  | replace hop _ =>
      subst hop
      cases ho
  | clear _ hs =>
      obtain ⟨hmessages, -, -⟩ := Sheet.mk.inj hs
      rw [hmessages] at hm
      cases hm

theorem Tidy.after (h : c.Tidy) {history : List Operation}
    (ho : ∀ op ∈ history, op.isTidy = true) : (c.after history).Tidy := by
  induction history generalizing c with
  | nil => exact h
  | cons op rest ih =>
      exact ih (h.perform (ho op List.mem_cons_self)) fun o hmem =>
        ho o (List.mem_cons_of_mem _ hmem)

/-! ## Landing -/

/-- A message that is due lands in place of what stands at its index. -/
theorem messages_stepPump_typing {due : Nat}
    (hn : c.pumps[n]? = some ⟨c.generation, .typing d i due⟩) (hdue : due ≤ c.now)
    (hi : i < c.messages.length) :
    (c.stepPump n).messages = c.messages.set i (c.messageAt i d.payload) := by
  simp only [stepPump, hn, hdue, if_true, finishTyping, ne_eq, not_true_eq_false, if_false]
  exact messages_replaceAt hi d.payload

/-- As long as no placeholder is passed and nothing is replaced: a message of the present generation
that is on its way has its place in the list, a placeholder stands there, and no other one in the
list. When none is on its way no placeholder stands in the list. So a message that lands takes the
place of its own placeholder, and the list keeps its length. -/
theorem one_placeholder_per_message (settings : Settings) (clock : Clock)
    (history : List Operation) (hplain : ∀ op ∈ history, op.isTidy = true) :
    let c := (start settings clock).after history
    (∀ p ∈ c.pumps, p.generation = c.generation → ∀ i d, p.stage.reserved? = some (i, d) →
      (∃ m, c.messages[i]? = some m ∧ m.isTyping = true) ∧
        ∀ j m, c.messages[j]? = some m → m.isTyping = true → j = i) ∧
    ((∀ p ∈ c.pumps, p.generation = c.generation → p.stage.reserved? = none) →
      ∀ m ∈ c.messages, m.isTyping = false) ∧
    ∀ n d i due, c.pumps[n]? = some ⟨c.generation, .typing d i due⟩ → due ≤ c.now →
      (∃ m, c.messages[i]? = some m ∧ m.isTyping = true) ∧
        (c.stepPump n).messages = c.messages.set i (c.messageAt i d.payload) ∧
        (c.stepPump n).messages.length = c.messages.length := by
  intro c
  have h : c.Tidy := (tidy_start settings clock).after hplain
  have hplace : ∀ i d, (i, d) ∈ c.reserved →
      i < c.messages.length ∧ ∃ m, c.messages[i]? = some m ∧ m.isTyping = true := by
    intro i d hx
    have hlt : i < c.messages.length := h.placed.inside (i, d) hx
    have hm := List.getElem?_eq_getElem hlt
    exact ⟨hlt, _, hm, (h.typing_iff i _ hm).mpr (List.mem_map.mpr ⟨(i, d), hx, rfl⟩)⟩
  refine ⟨fun p hp hg i d hx => ?_, fun hnone m hm => ?_, fun n d i due hn hdue => ?_⟩
  · have hmem : (i, d) ∈ c.reserved := mem_reserved_iff.mpr ⟨p, hp, hg, hx⟩
    refine ⟨(hplace i d hmem).2, fun j m hm htyping => ?_⟩
    rw [h.typing_iff j m hm, h.placed.worked.reserved_eq hmem] at htyping
    exact List.mem_singleton.mp htyping
  · obtain ⟨j, hj⟩ := List.mem_iff_getElem?.mp hm
    rw [← Bool.not_eq_true, h.typing_iff j m hj]
    intro hmem
    obtain ⟨x, hx, -⟩ := List.mem_map.mp hmem
    obtain ⟨p, hp, hg, hs⟩ := mem_reserved_iff.mp hx
    rw [hnone p hp hg] at hs
    cases hs
  · have hmem : (i, d) ∈ c.reserved :=
      mem_reserved_iff.mpr ⟨_, List.mem_of_getElem? hn, rfl, rfl⟩
    obtain ⟨hlt, htyping⟩ := hplace i d hmem
    have hset := messages_stepPump_typing hn hdue hlt
    exact ⟨htyping, hset, by rw [hset, List.length_set]⟩

/-- A text is typed, everything is cleared, another text is typed, and the user writes. -/
def typedAgain : List Operation :=
  [.queue (.to "old") none, .stepPump 0, .clear, .addFrom "hi", .queue (.to "new") none,
    .stepPump 1, .add (.to "note"), .pass 1000]

theorem one_placeholder_per_message_typedAgain :
    let c := (start .standard .stepped).after typedAgain
    (∀ op ∈ typedAgain, op.isTidy = true) ∧
      c.pumps[1]? = some ⟨c.generation, .typing ⟨.to "new", none, none⟩ 1 1000⟩ ∧
      (∀ j m, c.messages[j]? = some m → m.isTyping = true → j = 1) ∧
      (c.stepPump 1).messages.length = c.messages.length := by
  intro c
  have hplain : ∀ op ∈ typedAgain, op.isTidy = true := by decide
  have hn : c.pumps[1]? = some ⟨c.generation, .typing ⟨.to "new", none, none⟩ 1 1000⟩ := rfl
  obtain ⟨hone, -, hland⟩ := one_placeholder_per_message .standard .stepped typedAgain hplain
  exact ⟨hplain, hn, (hone _ (List.mem_of_getElem? hn) rfl 1 _ rfl).2,
    (hland 1 _ 1 1000 hn (by decide)).2.2⟩

end Conversation

end Dialogue
