import Mathlib.Logic.Function.Basic
import Dialogue.Proofs.Messages.Groups
import Dialogue.Proofs.Queue.Owed
/-!
# The callbacks of buttons

A callback may be set for messages to come, and then texts of the user and lists of options get it:
a text that is added at once, and a queued message when it lands. The callbacks of messages are
kept apart from the list, by the index of the message, and are not taken away but by clearing.

* `fixme_perform`, `fixmes_perform` — what an operation does to callbacks.
* `Spare.perform` — behind the list and at a reserved place there is no callback.
* `fixmeAt?_after_iff` — so every callback stays where it was put, and is never overwritten.
-/

namespace Dialogue

/-- The callback for messages to come after an operation, when `hook` was set before. -/
def Operation.callback (hook : Option String) : Operation → Option String
  | .setFixme hook' => hook'
  | .addFrom _ => none
  | _ => hook

namespace Conversation

variable {c c' : Conversation} {n : Nat} {op : Operation} {i j : Nat} {hook : Option String}

/-! ## What operations do to callbacks -/

/-- The callback that a text of the user gets at once, behind the index of the text. -/
def answers (c : Conversation) : Operation → List (Nat × String)
  | .addFrom _ => c.fixme.toList.map fun h => (c.messages.length, h)
  | _ => []

/-- The callback that a message gets when it lands, behind its place. -/
def attaches (c : Conversation) (op : Operation) : List (Nat × String) :=
  (c.lands op).flatMap fun x => x.2.fixme.toList.map fun h => (x.1, h)

/-- The callbacks of a conversation. -/
structure Panel where
  fixme : Option String
  fixmes : List (Nat × String)

/-- The callback for messages to come, and those of the messages in the list. -/
def panel (c : Conversation) : Panel := ⟨c.fixme, c.fixmes⟩

theorem panel_push (c : Conversation) (i : Item) : (c.push i).panel = c.panel := by
  obtain ⟨_, _, _, _, _, heq⟩ := push_eq c i
  rw [heq]
  rfl

theorem panel_addLead (c : Conversation) (lead : Option String) :
    (c.addLead lead).panel = c.panel := by
  cases lead with
  | none => rfl
  | some text => exact panel_push c _

theorem panel_call (c : Conversation) (owner : Nat) (job : Job) :
    (c.call owner job).panel = c.panel :=
  panel_push { c with tickets := c.tickets ++ [⟨owner, .waiting⟩] } _

theorem panel_listen (c : Conversation) (n : Nat) : (c.listen n).panel = c.panel := by
  unfold listen
  split <;> rfl

theorem panel_stepWait (c : Conversation) (n : Nat) : (c.stepWait n).panel = c.panel := by
  unfold stepWait
  split
  · split
    · exact panel_listen c n
    · rfl
    · rfl
  · split <;> rfl
  · rfl

theorem panel_dropWait (c : Conversation) (n : Nat) : (c.dropWait n).panel = c.panel := by
  unfold dropWait
  split <;> rfl

theorem panel_beginWait (c : Conversation) (owner : Nat) (enable : Bool) :
    (c.beginWait owner enable).panel = c.panel := by
  cases enable with
  | true => exact panel_call _ owner .openInput
  | false => exact panel_listen _ _

theorem panel_stepNotice (c : Conversation) (n : Nat) : (c.stepNotice n).panel = c.panel := by
  unfold stepNotice
  split
  · rfl
  · split <;> rfl
  · rfl

theorem panel_nextItem (c : Conversation) (n g : Nat) : (c.nextItem n g).panel = c.panel := by
  unfold nextItem
  split
  · rfl
  · split
    · next w c' htake =>
      unfold takeHead? at htake
      split at htake <;> cases htake
      rfl
    · rfl

theorem panel_clear (c : Conversation) : c.clear.panel = ⟨c.fixme, []⟩ := by
  obtain ⟨signals, heq⟩ := clear_eq c
  rw [heq]
  rfl

theorem panel_stepPump (c : Conversation) (n : Nat) :
    (c.stepPump n).panel = ⟨c.fixme, c.attaches (.stepPump n) ++ c.fixmes⟩ := by
  rcases hn : c.pumps[n]? with _ | ⟨g, stage⟩
  · rw [stepPump, hn, attaches, lands, hn]
    rfl
  · cases stage with
    | taken w =>
        rw [stepPump, hn, attaches, lands, hn]
        cases w with
        | message d placeholder => rfl
        | call ticket job => cases job <;> rfl
    | typing d placeholder due =>
        rw [attaches, lands_typing hn]
        by_cases hdue : due ≤ c.now
        · have hstep : c.stepPump n = c.finishTyping n g d placeholder := by
            simp [stepPump, hn, hdue]
          rw [hstep, finishTyping]
          by_cases hg : c.generation = g
          · rw [if_neg (not_not_intro hg), if_pos ⟨hdue, hg⟩, List.flatMap_singleton]
            rfl
          · rw [if_pos hg, if_neg fun h => hg h.2]
            rfl
        · rw [if_neg fun h => hdue h.1]
          simp [stepPump, hn, hdue, panel]
    | calling ticket job due =>
        rw [stepPump, hn, attaches, lands, hn]
        show (if due ≤ c.now then c.finishCall n ticket job else c).panel = _
        split <;> rfl
    | through w news =>
        rw [stepPump, hn, attaches, lands, hn]
        show ((c.tell news).nextItem n g).panel = _
        rw [panel_nextItem]
        cases news <;> rfl
    | ended =>
        rw [stepPump, hn, attaches, lands, hn]
        rfl

/-- The callback for messages to come is what was set last, as long as no text of the user was
added since. -/
theorem panel_perform (c : Conversation) (hop : op ≠ .clear) : (c.perform op).panel =
    ⟨op.callback c.fixme, c.attaches op ++ (c.answers op ++ c.fixmes)⟩ := by
  cases op with
  | queue p hook => exact panel_push c _
  | queueFrom text => exact panel_push c _
  | addOptions lead items selected multi =>
      exact (panel_push (c.addLead lead) _).trans (panel_addLead c lead)
  | addUploader lead options => exact (panel_push (c.addLead lead) _).trans (panel_addLead c lead)
  | call owner job => exact panel_call c owner job
  | beginWait owner enable => exact panel_beginWait c owner enable
  | dropWait n => exact panel_dropWait c n
  | stepWait n => exact panel_stepWait c n
  | stepNotice n => exact panel_stepNotice c n
  | stepPump n => exact panel_stepPump c n
  | dropCall ticket =>
      rw [perform]
      split <;> rfl
  | clear => exact absurd rfl hop
  | add | replace | addFrom | report | setSettings | setTimeout | setFixme | setValidator
  | setInput | useFixme | pass => rfl

theorem fixme_perform (c : Conversation) (op : Operation) :
    (c.perform op).fixme = op.callback c.fixme := by
  by_cases hop : op = .clear
  · subst hop
    exact congrArg Panel.fixme (panel_clear c)
  · exact congrArg Panel.fixme (panel_perform c hop)

theorem fixmes_perform (c : Conversation) (hop : op ≠ .clear) :
    (c.perform op).fixmes = c.attaches op ++ (c.answers op ++ c.fixmes) :=
  congrArg Panel.fixmes (panel_perform c hop)

theorem fixme_after (c : Conversation) (history : List Operation) :
    (c.after history).fixme = history.foldl Operation.callback c.fixme := by
  induction history generalizing c with
  | nil => rfl
  | cons op rest ih =>
      rw [List.foldl_cons, ← fixme_perform]
      exact ih _

/-! ## The callback at an index -/

theorem fixmeAt?_of_fixmes (h : c'.fixmes = c.fixmes) : c'.fixmeAt? = c.fixmeAt? := by
  funext i
  rw [fixmeAt?, fixmeAt?, h]

theorem fixmeAt?_of_nil (h : c.fixmes = []) (i : Nat) : c.fixmeAt? i = none := by
  rw [fixmeAt?, h]
  rfl

/-- A callback is put down for a message that has none. -/
theorem fixmeAt?_of_attached (hf : c'.fixmes = (hook.toList.map fun h => (j, h)) ++ c.fixmes)
    (hj : c.fixmeAt? j = none) : c'.fixmeAt? = Function.update c.fixmeAt? j hook := by
  funext i
  cases hook with
  | none => rw [fixmeAt?_of_fixmes hf, ← hj, Function.update_eq_self]
  | some h =>
      rw [Function.update_apply, fixmeAt?, hf]
      by_cases hi : i = j
      · simp [hi]
      · simp [hi, Ne.symm hi, fixmeAt?]

/-! ## Places without a callback -/

theorem length_le_replaceLast (c : Conversation) (p : Payload) :
    c.messages.length ≤ (c.replaceLast p).messages.length := by
  rw [replaceLast, replaceAt]
  dsimp only
  split
  · exact Nat.le_of_eq (List.length_set ..).symm
  · rw [List.length_append]
    exact Nat.le_add_right _ _

/-- Behind the list and at a reserved place there is no callback. -/
structure Spare (c : Conversation) : Prop where
  placed : c.Placed
  outside : ∀ i, c.messages.length ≤ i → c.fixmeAt? i = none
  free : ∀ x ∈ c.reserved, c.fixmeAt? x.1 = none

theorem attaches_of_lands (hl : c.lands op = []) : c.attaches op = [] := by
  rw [attaches, hl]
  rfl

theorem answers_of_puts (hp : c.puts op = []) : c.answers op = [] := by
  cases op with
  | addFrom text => cases hp
  | _ => rfl

/-- Only a message that comes into the list brings a callback along. -/
theorem fixmeAt?_perform_of_puts (hop : op ≠ .clear) (hl : c.lands op = [])
    (hp : c.puts op = []) : (c.perform op).fixmeAt? = c.fixmeAt? := by
  apply fixmeAt?_of_fixmes
  rw [fixmes_perform c hop, attaches_of_lands hl, answers_of_puts hp]
  rfl

namespace Spare

theorem fixmeAt?_add (h : c.Spare) (p : Payload) : (c.perform (.add p)).fixmeAt? =
    Function.update c.fixmeAt? c.messages.length none := by
  rw [← h.outside c.messages.length (Nat.le_refl _), Function.update_eq_self]
  exact fixmeAt?_of_fixmes rfl

theorem fixmeAt?_addFrom (h : c.Spare) (text : String) : (c.perform (.addFrom text)).fixmeAt? =
    Function.update c.fixmeAt? c.messages.length c.fixme := by
  refine fixmeAt?_of_attached ?_ (h.outside _ (Nat.le_refl _))
  rw [fixmes_perform c fun he => by cases he]
  rfl

theorem fixmeAt?_land {d : Delivery} (h : c.Spare) (hop : op ≠ .clear) (hp : c.puts op = [])
    (hl : c.lands op = [(i, d)]) (hr : c.reserved = [(i, d)]) :
    (c.perform op).fixmeAt? = Function.update c.fixmeAt? i d.fixme := by
  refine fixmeAt?_of_attached ?_ (h.free (i, d) (hr ▸ List.mem_cons_self))
  rw [fixmes_perform c hop, attaches, hl, answers_of_puts hp, List.flatMap_singleton]
  rfl

end Spare

/-- A message is added by the host or by the user. -/
theorem fixmeAt?_of_puts {p : Payload} (h : c.Spare) (ho : op.isSteady = true)
    (hp : c.puts op = [p]) : ∃ hook, (c.perform op).fixmeAt? =
      Function.update c.fixmeAt? c.messages.length hook ∧
        (op = .add p ∧ hook = none ∨ p.fixme.isSome = hook.isSome) := by
  cases op with
  | add q =>
      cases hp
      exact ⟨none, h.fixmeAt?_add p, .inl ⟨rfl, rfl⟩⟩
  | addFrom text =>
      cases hp
      exact ⟨c.fixme, h.fixmeAt?_addFrom text, .inr Option.isSome_map⟩
  | replace => cases ho
  | _ => cases hp

/-- A callback comes in at a place that lies in the list and is not reserved any more. -/
theorem Spare.of_update (h : c.Spare) (hp : c'.Placed)
    (hf : c'.fixmeAt? = Function.update c.fixmeAt? j hook)
    (hlen : c.messages.length ≤ c'.messages.length) (hj : j < c'.messages.length)
    (hr : ∀ x ∈ c'.reserved, x ∈ c.reserved ∧ x.1 ≠ j) : c'.Spare where
  placed := hp
  outside := by
    intro i hi
    rw [hf, Function.update_of_ne (by omega)]
    exact h.outside i (Nat.le_trans hlen hi)
  free := by
    intro x hx
    obtain ⟨hold, hne⟩ := hr x hx
    rw [hf, Function.update_of_ne hne]
    exact h.free x hold

theorem Spare.of_fixmeAt? (h : c.Spare) (hp : c'.Placed) (hf : c'.fixmeAt? = c.fixmeAt?)
    (hlen : c.messages.length ≤ c'.messages.length)
    (hr : ∀ x ∈ c'.reserved, x ∈ c.reserved ∨ c.messages.length ≤ x.1) : c'.Spare where
  placed := hp
  outside := by
    intro i hi
    rw [hf]
    exact h.outside i (Nat.le_trans hlen hi)
  free := by
    intro x hx
    rw [hf]
    exact (hr x hx).elim (h.free x) (h.outside x.1)

theorem Spare.perform (h : c.Spare) (op : Operation) : (c.perform op).Spare := by
  have hplaced := h.placed.perform op
  cases sheetStep_perform h.placed.worked op with
  | stay ho hp hl hs =>
      obtain ⟨hm, hr, -⟩ := Sheet.mk.inj hs
      refine h.of_fixmeAt? hplaced (fixmeAt?_perform_of_puts (ne_clear_of_isSteady ho) hl hp) ?_ ?_
      · rw [hm]
        exact Nat.le_refl _
      · rw [hr]
        exact fun x hx => .inl hx
  | add ho hp hl ha hs =>
      obtain ⟨hm, hr, -⟩ := Sheet.mk.inj hs
      obtain ⟨hook, hf, -⟩ := fixmeAt?_of_puts h ho hp
      refine h.of_update hplaced hf ?_ ?_ ?_
      · rw [hm, length_add]
        exact Nat.le_succ _
      · rw [hm, length_add]
        exact Nat.lt_succ_self _
      · rw [hr]
        exact fun x hx => ⟨hx, Nat.ne_of_lt (h.placed.inside x hx)⟩
  | reserve ho hp hl hnone hcons hs =>
      obtain ⟨hm, hr, -⟩ := Sheet.mk.inj hs
      refine h.of_fixmeAt? hplaced (fixmeAt?_perform_of_puts (ne_clear_of_isSteady ho) hl hp) ?_ ?_
      · rw [hm, length_add]
        exact Nat.le_succ _
      · rw [hr]
        intro x hx
        rw [List.mem_singleton.mp hx]
        exact .inr (Nat.le_refl _)
  | @land i d ho hp hl hold ha hs =>
      obtain ⟨hm, hr, -⟩ := Sheet.mk.inj hs
      have hlt : i < c.messages.length := h.placed.inside (i, d) (hold ▸ List.mem_cons_self)
      have hlen : (c.perform op).messages.length = c.messages.length := by
        rw [hm, messages_replaceAt hlt, List.length_set]
      refine h.of_update hplaced (h.fixmeAt?_land (ne_clear_of_isSteady ho) hp hl hold)
        (Nat.le_of_eq hlen.symm) (hlen ▸ hlt) ?_
      rw [hr]
      exact fun x hx => by cases hx
  | @replace p hop hs =>
      subst hop
      obtain ⟨hm, hr, -⟩ := Sheet.mk.inj hs
      refine h.of_fixmeAt? hplaced (fixmeAt?_of_fixmes rfl) ?_ ?_
      · rw [hm]
        exact length_le_replaceLast c p
      · rw [hr]
        exact fun x hx => .inl hx
  | clear hop hs =>
      subst hop
      obtain ⟨-, hr, -⟩ := Sheet.mk.inj hs
      have hnil : (c.perform .clear).fixmes = [] := congrArg Panel.fixmes (panel_clear c)
      exact ⟨hplaced, fun i _ => fixmeAt?_of_nil hnil i, fun x _ => fixmeAt?_of_nil hnil x.1⟩

theorem spare_start (settings : Settings) (clock : Clock) : (start settings clock).Spare where
  placed := placed_start settings clock
  outside := fun _ _ => rfl
  free := fun _ _ => rfl

/-! ## Which callback is at an index -/

theorem update_eq_some_iff {callback : Nat → Option String} {k : String} (hj : callback j = none) :
    Function.update callback j hook i = some k ↔ callback i = some k ∨ i = j ∧ hook = some k := by
  rw [Function.update_apply]
  by_cases hi : i = j
  · subst hi
    simp [hj]
  · simp [hi]

/-- An operation that clears nothing leaves all callbacks alone, and adds that of a text of the user
or of a message that lands. -/
theorem Spare.fixmeAt?_perform_iff (h : c.Spare) (hop : op ≠ .clear) {k : String} :
    (c.perform op).fixmeAt? i = some k ↔ c.fixmeAt? i = some k ∨
      (i, k) ∈ c.answers op ∨ ∃ d, (i, d) ∈ c.lands op ∧ d.fixme = some k := by
  -- Without a message that comes into the list nothing is added.
  have hquiet : (c.perform op).fixmeAt? = c.fixmeAt? → c.answers op = [] → c.lands op = [] →
      ((c.perform op).fixmeAt? i = some k ↔ c.fixmeAt? i = some k ∨
        (i, k) ∈ c.answers op ∨ ∃ d, (i, d) ∈ c.lands op ∧ d.fixme = some k) := by
    intro hf ha hl
    simp [hf, ha, hl]
  cases sheetStep_perform h.placed.worked op with
  | stay _ hp hl _ | reserve _ hp hl _ _ _ =>
      exact hquiet (fixmeAt?_perform_of_puts hop hl hp) (answers_of_puts hp) hl
  | add ho hp hl _ _ =>
      cases op with
      | add p => exact hquiet (fixmeAt?_of_fixmes rfl) rfl hl
      | addFrom text =>
          rw [h.fixmeAt?_addFrom, update_eq_some_iff (h.outside _ (Nat.le_refl _)), hl]
          simp [answers, and_comm, eq_comm (a := i)]
      | replace p => cases ho
      | _ => cases hp
  | @land j d _ hp hl hr _ _ =>
      rw [h.fixmeAt?_land hop hp hl hr,
        update_eq_some_iff (h.free (j, d) (hr ▸ List.mem_cons_self)), answers_of_puts hp, hl]
      simp [and_assoc]
  | replace hop' _ =>
      subst hop'
      exact hquiet (fixmeAt?_of_fixmes rfl) rfl rfl
  | clear hop' _ => exact absurd hop' hop

/-- The callback at an index was put there with a text of the user, or a message has landed there
that brought it along. -/
theorem Spare.fixmeAt?_after_iff {answered : List (Nat × String)} {landed : List (Nat × Delivery)}
    (h : c.Spare) (hc : ∀ i k, c.fixmeAt? i = some k ↔
      (i, k) ∈ answered ∨ ∃ d, (i, d) ∈ landed ∧ d.fixme = some k)
    (history : List Operation) (i : Nat) (k : String) :
    (c.after history).fixmeAt? i = some k ↔ (i, k) ∈ c.gatheredSince answers answered history ∨
      ∃ d, (i, d) ∈ c.gatheredSince lands landed history ∧ d.fixme = some k := by
  induction history generalizing c answered landed with
  | nil => exact hc i k
  | cons op rest ih =>
      refine ih (h.perform op) fun i k => ?_
      by_cases hop : op = .clear
      · subst hop
        have hnil : (c.perform .clear).fixmes = [] := congrArg Panel.fixmes (panel_clear c)
        rw [fixmeAt?_of_nil hnil]
        simp [Operation.keeps, answers, lands]
      · rw [h.fixmeAt?_perform_iff hop, hc, Operation.keeps_of_ne hop, Operation.keeps_of_ne hop]
        simp only [List.mem_append, or_and_right, exists_or, or_or_or_comm]

end Conversation

end Dialogue
