import Dialogue.Proofs.Messages.Callbacks
/-!
# Buttons and their callbacks

The label of a button is part of the message, and the callback is kept apart. Both come into the
list together; but replacing a message takes its label away and leaves the callback.

* `Labels` — labels and callbacks agree but for the places where a label was taken away.
* `Matched.perform` — every operation keeps them so.
* `buttons_agree_iff` — so a message has a button just if there is a callback for it, namely the one
  that was set when the message was added or queued, unless a message with a button was replaced.
-/

namespace Dialogue

/-- The payload that the host hands in with an operation. -/
def Operation.payload? : Operation → Option Payload
  | .queue p _ | .add p | .replace p => some p
  | _ => none

/-- Does an operation make a message that has a button while a callback is set? -/
def Operation.hasButton : Operation → Bool
  | .addFrom _ | .queueFrom _ | .addOptions .. => true
  | _ => false

namespace Conversation

variable {c c' : Conversation} {op : Operation} {i j : Nat} {hook : Option String}

/-! ## The label at an index -/

/-- The label of the button of the message at an index. -/
def label? (c : Conversation) (i : Nat) : Option String :=
  (c.messages[i]?).bind fun m => m.payload.fixme

theorem label?_of_messages (h : c'.messages = c.messages) : c'.label? = c.label? := by
  funext i
  rw [label?, label?, h]

theorem label?_of_le (h : c.messages.length ≤ i) : c.label? i = none := by
  rw [label?, List.getElem?_eq_none h]
  rfl

theorem label?_add (c : Conversation) (p : Payload) :
    (c.add p).label? = Function.update c.label? c.messages.length p.fixme := by
  funext i
  rw [Function.update_apply]
  rcases Nat.lt_trichotomy i c.messages.length with hlt | rfl | hgt
  · rw [if_neg (Nat.ne_of_lt hlt), label?, getElem?_add_of_lt hlt, label?]
  · rw [if_pos rfl, label?, getElem?_add_self]
    rfl
  · rw [if_neg (Nat.ne_of_gt hgt), label?_of_le (by rw [length_add]; omega),
      label?_of_le (Nat.le_of_lt hgt)]

theorem label?_add_of_none {p : Payload} (hp : p.fixme = none) :
    (c.add p).label? = c.label? := by
  rw [label?_add, hp, ← label?_of_le (c := c) (Nat.le_refl _), Function.update_eq_self]

theorem label?_replaceAt (h : i < c.messages.length) (p : Payload) :
    (c.replaceAt i p).label? = Function.update c.label? i p.fixme := by
  funext j
  rw [Function.update_apply]
  by_cases hj : j = i
  · subst hj
    rw [if_pos rfl, label?, getElem?_replaceAt_self h]
    rfl
  · rw [if_neg hj, label?, getElem?_replaceAt_of_ne h p hj, label?]

theorem label?_replaceLast (c : Conversation) (p : Payload) :
    (c.replaceLast p).label? = Function.update c.label? c.lastIndex p.fixme := by
  by_cases hlt : c.lastIndex < c.messages.length
  · exact label?_replaceAt hlt p
  · -- The list is empty, and the message is added.
    have hlast : c.lastIndex = c.messages.length := by
      rw [lastIndex] at hlt ⊢
      omega
    have hadd : (c.replaceLast p).messages = (c.add p).messages := if_neg hlt
    rw [label?_of_messages hadd, label?_add, hlast]

/-! ## Labels and callbacks -/

/-- There is a label just where there is a callback, but for the places where a label was taken
away. -/
structure Labels (callback label : Nat → Option String) (stripped : List Nat) : Prop where
  label : ∀ i, (label i).isSome ↔ (callback i).isSome ∧ i ∉ stripped
  stripped : ∀ i ∈ stripped, (callback i).isSome

namespace Labels

variable {callback label : Nat → Option String} {stripped : List Nat} {text : Option String}

/-- A message with a button comes into the list. -/
theorem write (h : Labels callback label stripped) (hj : callback j = none)
    (htext : text.isSome = hook.isSome) :
    Labels (Function.update callback j hook) (Function.update label j text) stripped := by
  have hne : ∀ i ∈ stripped, i ≠ j := by
    rintro i hi rfl
    have := h.stripped i hi
    rw [hj] at this
    cases this
  constructor
  · intro i
    by_cases hi : i = j
    · subst hi
      rw [Function.update_self, Function.update_self, htext]
      exact (and_iff_left fun hmem => hne i hmem rfl).symm
    · rw [Function.update_of_ne hi, Function.update_of_ne hi]
      exact h.label i
  · intro i hi
    rw [Function.update_of_ne (hne i hi)]
    exact h.stripped i hi

/-- A label is taken away, if there is one. -/
theorem strip (h : Labels callback label stripped) (j : Nat) :
    Labels callback (Function.update label j none)
      (stripped ++ if (label j).isSome then [j] else []) := by
  constructor
  · intro i
    by_cases hi : i = j
    · subst hi
      rw [Function.update_self, List.mem_append, not_or]
      refine iff_of_false (fun hnone => by cases hnone) ?_
      rintro ⟨hcallback, hold, hnew⟩
      have hlabel := (h.label i).mpr ⟨hcallback, hold⟩
      rw [if_pos hlabel] at hnew
      exact hnew List.mem_cons_self
    · have hnew : i ∉ if (label j).isSome then [j] else [] := by
        split
        · exact fun hmem => hi (List.mem_singleton.mp hmem)
        · exact List.not_mem_nil
      rw [Function.update_of_ne hi, List.mem_append, or_iff_left hnew]
      exact h.label i
  · intro i hi
    rcases List.mem_append.mp hi with hi | hi
    · exact h.stripped i hi
    · split at hi
      case isTrue hlabel =>
        rw [List.mem_singleton.mp hi]
        exact ((h.label j).mp hlabel).1
      case isFalse => cases hi

/-- Where a label was taken away labels and callbacks disagree, and nowhere else. -/
theorem agree_iff (h : Labels callback label stripped) (i : Nat) :
    ((callback i).isSome ↔ (label i).isSome) ↔ i ∉ stripped := by
  rw [h.label i]
  constructor
  · intro hagree hmem
    exact (hagree.mp (h.stripped i hmem)).2 hmem
  · exact fun hnot => (and_iff_left hnot).symm

end Labels

/-! ## What is queued -/

/-- A message is queued without a callback, and its label is the host's, or it is one that has the
callback and the label of the moment. -/
theorem button_of_mem_asks {d : Delivery} (hd : d ∈ c.asks op) :
    d.fixme = none ∧ (op.payload? = some d.payload ∨ d.payload.fixme = none) ∨
      op.hasButton = true ∧ d.fixme = c.fixme ∧ d.payload.fixme = c.fixLabel := by
  obtain ⟨item, hitem, hd⟩ := List.mem_filterMap.mp hd
  have hlead : ∀ lead : Option String,
      item ∈ lead.toList.map (fun t => Item.message ⟨.to t, none, none⟩) →
        d.fixme = none ∧ d.payload.fixme = none := by
    intro lead hmem
    obtain ⟨text, -, rfl⟩ := List.mem_map.mp hmem
    cases hd
    exact ⟨rfl, rfl⟩
  cases op with
  | queue p hook =>
      cases List.mem_singleton.mp hitem
      cases hd
      exact .inl ⟨rfl, .inl rfl⟩
  | queueFrom text =>
      cases List.mem_singleton.mp hitem
      cases hd
      exact .inr ⟨rfl, rfl, rfl⟩
  | addOptions lead items selected multi =>
      rcases List.mem_append.mp hitem with hmem | hmem
      · exact .inl ((hlead lead hmem).imp_right .inr)
      · cases List.mem_singleton.mp hmem
        cases hd
        exact .inr ⟨rfl, rfl, rfl⟩
  | addUploader lead options =>
      rcases List.mem_append.mp hitem with hmem | hmem
      · exact .inl ((hlead lead hmem).imp_right .inr)
      · cases List.mem_singleton.mp hmem
        cases hd
        exact .inl ⟨rfl, .inr rfl⟩
  | call owner job =>
      cases List.mem_singleton.mp hitem
      cases hd
  | beginWait owner enable =>
      cases enable with
      | true =>
          cases List.mem_singleton.mp hitem
          cases hd
      | false => cases hitem
  | _ => cases hitem

/-! ## Histories -/

/-- The place of a message with a button that an operation replaces. -/
def strips (c : Conversation) : Operation → List Nat
  | .replace _ => if (c.label? c.lastIndex).isSome then [c.lastIndex] else []
  | _ => []

theorem strips_of_isSteady (ho : op.isSteady = true) : c.strips op = [] := by
  cases op with
  | replace p => cases ho
  | _ => rfl

/-- The messages that an operation queues, each with the callback that is set then. -/
def dated (c : Conversation) (op : Operation) : List (Delivery × Option String) :=
  (c.asks op).map fun d => (d, c.fixme)

theorem map_fst_dated (c : Conversation) (op : Operation) : (c.dated op).map (·.1) = c.asks op := by
  rw [dated, List.map_map]
  exact List.map_id _

/-- A message was queued with a label just if it was queued with a callback, and that was the one
that was set then. -/
def Honest (x : Delivery × Option String) : Prop :=
  x.1.fixme.isSome = x.1.payload.fixme.isSome ∧ (x.1.fixme.isSome → x.1.fixme = x.2)

theorem honest_of_mem_dated (hplain : ∀ p, op.payload? = some p → p.fixme = none)
    {x : Delivery × Option String} (hx : x ∈ c.dated op) : Honest x := by
  obtain ⟨d, hd, rfl⟩ := List.mem_map.mp hx
  rcases button_of_mem_asks hd with ⟨hfixme, hpayload⟩ | ⟨-, hfixme, hlabel⟩
  · have hnone : d.payload.fixme = none := hpayload.elim (hplain d.payload) id
    refine ⟨?_, fun hsome => ?_⟩
    · show d.fixme.isSome = d.payload.fixme.isSome
      rw [hfixme, hnone]
    · replace hsome : d.fixme.isSome := hsome
      rw [hfixme] at hsome
      cases hsome
  · refine ⟨?_, fun _ => hfixme⟩
    show d.fixme.isSome = d.payload.fixme.isSome
    rw [hfixme, hlabel, fixLabel, Option.isSome_map]

/-- Labels and callbacks keep together as long as no label is handed in. The message that lands was
queued with a label just if it was queued with a callback. -/
theorem Labels.perform {stripped : List Nat} (h : Labels c.fixmeAt? c.label? stripped)
    (hspare : c.Spare) (hplain : ∀ p, op.payload? = some p → p.fixme = none)
    (hland : ∀ x ∈ c.reserved, x.2.payload.fixme.isSome = x.2.fixme.isSome) :
    Labels (c.perform op).fixmeAt? (c.perform op).label? (op.keeps stripped ++ c.strips op) := by
  have hsteady : op.isSteady = true → op.keeps stripped ++ c.strips op = stripped := by
    intro ho
    rw [Operation.keeps_of_ne (ne_clear_of_isSteady ho), strips_of_isSteady ho, List.append_nil]
  cases sheetStep_perform hspare.placed.worked op with
  | stay ho hp hl hs =>
      obtain ⟨hm, -, -⟩ := Sheet.mk.inj hs
      rw [hsteady ho, fixmeAt?_perform_of_puts (ne_clear_of_isSteady ho) hl hp,
        label?_of_messages hm]
      exact h
  | @add p ho hp hl ha hs =>
      obtain ⟨hm, -, -⟩ := Sheet.mk.inj hs
      obtain ⟨hook, hf, hlabel⟩ := fixmeAt?_of_puts hspare ho hp
      rw [hsteady ho, hf, label?_of_messages hm, label?_add]
      refine h.write (hspare.outside _ (Nat.le_refl _)) ?_
      rcases hlabel with ⟨rfl, rfl⟩ | hlabel
      · rw [hplain p rfl]
      · exact hlabel
  | reserve ho hp hl hnone hcons hs =>
      obtain ⟨hm, -, -⟩ := Sheet.mk.inj hs
      rw [hsteady ho, fixmeAt?_perform_of_puts (ne_clear_of_isSteady ho) hl hp,
        label?_of_messages hm, label?_add_of_none rfl]
      exact h
  | @land i d ho hp hl hold ha hs =>
      obtain ⟨hm, -, -⟩ := Sheet.mk.inj hs
      have hmem : (i, d) ∈ c.reserved := hold ▸ List.mem_cons_self
      rw [hsteady ho, hspare.fixmeAt?_land (ne_clear_of_isSteady ho) hp hl hold,
        label?_of_messages hm, label?_replaceAt (hspare.placed.inside _ hmem)]
      exact h.write (hspare.free _ hmem) (hland _ hmem)
  | @replace p hop hs =>
      subst hop
      obtain ⟨hm, -, -⟩ := Sheet.mk.inj hs
      rw [label?_of_messages hm, label?_replaceLast, hplain p rfl]
      exact h.strip c.lastIndex
  | clear hop hs =>
      subst hop
      obtain ⟨hm, -, -⟩ := Sheet.mk.inj hs
      have hnil : (c.perform .clear).fixmes = [] := congrArg Panel.fixmes (panel_clear c)
      have hempty : ∀ i, (c.perform .clear).label? i = none := by
        intro i
        rw [label?, hm]
        rfl
      refine ⟨fun i => ?_, fun i hi => by cases hi⟩
      rw [hempty, fixmeAt?_of_nil hnil]
      exact iff_of_false (fun hsome => by cases hsome) fun hsome => by cases hsome.1

/-- What holds in a history in which no label is handed in. Here `landed` are the messages that have
landed, `asked` those that were queued, and `stripped` the places where a message with a button was
replaced. -/
structure Matched (c : Conversation) (landed : List (Nat × Delivery))
    (asked : List (Delivery × Option String)) (stripped : List Nat) : Prop where
  spare : c.Spare
  queue : landed.map (·.2) ++ c.undelivered = asked.map (·.1)
  honest : ∀ x ∈ asked, Honest x
  labels : Labels c.fixmeAt? c.label? stripped

namespace Matched

variable {landed : List (Nat × Delivery)} {asked : List (Delivery × Option String)}
  {stripped : List Nat} {history : List Operation}

/-- A message that is to come was queued with a label just if it was queued with a callback. -/
theorem isSome_of_reserved (h : c.Matched landed asked stripped) {x : Nat × Delivery}
    (hx : x ∈ c.reserved) : x.2.payload.fixme.isSome = x.2.fixme.isSome := by
  have hmem : x.2 ∈ asked.map (·.1) := by
    rw [← h.queue]
    exact List.mem_append_right _ (List.mem_append_left _ (List.mem_map_of_mem hx))
  obtain ⟨y, hy, he⟩ := List.mem_map.mp hmem
  rw [← he]
  exact (h.honest y hy).1.symm

theorem perform (h : c.Matched landed asked stripped)
    (hplain : ∀ p, op.payload? = some p → p.fixme = none) :
    (c.perform op).Matched (op.keeps landed ++ c.lands op) (op.keeps asked ++ c.dated op)
      (op.keeps stripped ++ c.strips op) where
  spare := h.spare.perform op
  queue := by
    by_cases hop : op = .clear
    · subst hop
      exact undelivered_clear h.spare.placed.worked
    · rw [Operation.keeps_of_ne hop, Operation.keeps_of_ne hop, List.map_append, List.append_assoc,
        undelivered_perform h.spare.placed.worked hop, ← List.append_assoc, h.queue,
        List.map_append, map_fst_dated]
  honest := by
    intro x hx
    rcases List.mem_append.mp hx with hx | hx
    · by_cases hop : op = .clear
      · subst hop
        cases hx
      · exact h.honest x (Operation.keeps_of_ne hop asked ▸ hx)
    · exact honest_of_mem_dated hplain hx
  labels := h.labels.perform h.spare hplain fun _ => h.isSome_of_reserved

theorem after (h : c.Matched landed asked stripped)
    (hplain : ∀ op ∈ history, ∀ p, op.payload? = some p → p.fixme = none) :
    (c.after history).Matched (c.gatheredSince lands landed history)
      (c.gatheredSince dated asked history) (c.gatheredSince strips stripped history) := by
  induction history generalizing c landed asked stripped with
  | nil => exact h
  | cons op rest ih =>
      obtain ⟨hop, hrest⟩ := List.forall_mem_cons.mp hplain
      exact ih (h.perform hop) hrest

/-- A message has landed with a callback just if it was queued with a button, and then the callback
is the one that was set when it was queued. -/
theorem landed_iff (h : c.Matched landed asked stripped) (k : String) :
    (∃ d : Delivery, (i, d) ∈ landed ∧ d.fixme = some k) ↔ ∃ (n : Nat) (d : Delivery),
      landed[n]? = some (i, d) ∧ asked[n]? = some (d, some k) ∧ d.payload.fixme.isSome := by
  constructor
  · rintro ⟨d, hd, hk⟩
    obtain ⟨n, hn⟩ := List.mem_iff_getElem?.mp hd
    -- The messages that have landed are the first ones that were queued.
    have hasked : (asked.map (·.1))[n]? = some d := by
      obtain ⟨hlt, -⟩ := List.getElem?_eq_some_iff.mp hn
      rw [← h.queue, List.getElem?_append_left (by rwa [List.length_map]), List.getElem?_map, hn]
      rfl
    obtain ⟨⟨d', hook⟩, hx, rfl⟩ := Option.map_eq_some_iff.mp (List.getElem?_map .. ▸ hasked)
    obtain ⟨hsome, hset⟩ := h.honest _ (List.mem_of_getElem? hx)
    have hisSome : d'.fixme.isSome := by rw [hk]; rfl
    obtain rfl : hook = some k := (hset hisSome).symm.trans hk
    exact ⟨n, d', hn, hx, hsome ▸ hisSome⟩
  · rintro ⟨n, d, hn, hx, hlabel⟩
    obtain ⟨hsome, hset⟩ := h.honest _ (List.mem_of_getElem? hx)
    exact ⟨d, List.mem_of_getElem? hn, hset (hsome.trans hlabel)⟩

end Matched

theorem matched_start (settings : Settings) (clock : Clock) :
    (start settings clock).Matched [] [] [] where
  spare := spare_start settings clock
  queue := rfl
  honest := fun _ hx => by cases hx
  labels :=
    { label := fun _ => iff_of_false (fun h => by cases h) fun h => by cases h.1
      stripped := fun _ hi => by cases hi }

theorem isSome_label?_iff : (c.label? i).isSome ↔
    ∃ m, c.messages[i]? = some m ∧ m.payload.fixme.isSome := by
  rw [label?, Option.isSome_bind, Option.any_eq_true]

/-- When no label is handed in, a message has a button just if there is a callback at its index,
unless a message with a button was replaced there since the last clearing. The callback is the one
that was set when the text of the user was added, or when the message that has landed there was
queued, and what is called is just that. -/
theorem buttons_agree_iff (settings : Settings) (clock : Clock) (history : List Operation)
    (hplain : ∀ op ∈ history, ∀ p, op.payload? = some p → p.fixme = none) (i : Nat) :
    let c₀ := start settings clock
    let c := c₀.after history
    let landed := c₀.gatheredSince lands [] history
    let asked := c₀.gatheredSince dated [] history
    (((c.fixmeAt? i).isSome ↔ ∃ m, c.messages[i]? = some m ∧ m.payload.fixme.isSome) ↔
        i ∉ c₀.gatheredSince strips [] history) ∧
      landed.map (·.2) <+: asked.map (·.1) ∧
      (∀ k, c.fixmeAt? i = some k ↔ (i, k) ∈ c₀.gatheredSince answers [] history ∨
        ∃ (n : Nat) (d : Delivery), landed[n]? = some (i, d) ∧ asked[n]? = some (d, some k) ∧
          d.payload.fixme.isSome) ∧
      c.fixme = history.foldl Operation.callback none ∧
      (c.perform (.useFixme i)).journal =
        c.journal ++ (c.fixmeAt? i).toList.map fun k => (c.now, .fixme k) := by
  intro c₀ c landed asked
  have h : c.Matched landed asked (c₀.gatheredSince strips [] history) :=
    (matched_start settings clock).after hplain
  refine ⟨?_, ⟨_, h.queue⟩, fun k => ?_, fixme_after c₀ history, ?_⟩
  · rw [← isSome_label?_iff]
    exact h.labels.agree_iff i
  · rw [← h.landed_iff]
    refine (spare_start settings clock).fixmeAt?_after_iff (fun i k => ?_) history i k
    exact iff_of_false (fun hk => by cases hk) (by simp)
  · show c.journal ++ ((c.fixmeAt? i).toList.map Event.fixme).map (fun e => (c.now, e)) = _
    rw [List.map_map]
    rfl

/-- A text of the user is queued with a callback, and lands when another one is set. -/
def lateButton : List Operation :=
  [.setFixme (some "fix"), .queueFrom "x", .setFixme (some "other"), .stepPump 0, .pass 1000,
    .stepPump 0]

theorem buttons_agree_iff_lateButton :
    let c := (start .standard .stepped).after lateButton
    c.messages = [⟨.from "x" (some Settings.standard.fixLabel), true⟩] ∧
      c.fixmeAt? 0 = some "fix" ∧ (c.perform (.useFixme 0)).journal = [(1000, .fixme "fix")] := by
  intro c
  have hplain : ∀ op ∈ lateButton, ∀ p, op.payload? = some p → p.fixme = none := by
    simp [lateButton, Operation.payload?]
  obtain ⟨-, -, hcallback, -, hjournal⟩ :=
    buttons_agree_iff .standard .stepped lateButton hplain 0
  have hfixme : c.fixmeAt? 0 = some "fix" := (hcallback "fix").mpr (.inr ⟨0, _, rfl, rfl, rfl⟩)
  refine ⟨rfl, hfixme, hjournal.trans ?_⟩
  rw [hfixme]
  rfl

/-- The callback of a text that was replaced is called at the index of the new one, which has no
button. -/
theorem callback_left_by_replacing :
    let history := [.setFixme (some "fix"), .addFrom "x", .replace (.to "y")]
    let c := (start .standard .stepped).after history
    (∀ op ∈ history, ∀ p, op.payload? = some p → p.fixme = none) ∧
      c.messages = [⟨.to "y", true⟩] ∧ c.fixmeAt? 0 = some "fix" := by
  refine ⟨?_, rfl, rfl⟩
  simp [Operation.payload?, Payload.fixme]

end Conversation

end Dialogue
