import Dialogue.Proofs.Messages.Groups
/-!
# Which messages are overwritten

A message lands at the place where its placeholder was put. The list may have grown since, which
does not matter; but the placeholder may have been the last message when the last message was
replaced, and then the message that was put there is overwritten.

* `Vacant.perform` — nothing else stands at a reserved place.
* `rendered_message_lost_iff` — so no other message is ever lost, moved or changed.
-/

namespace Dialogue.Conversation

variable {c : Conversation} {past : List (Nat × Payload)} {i : Nat} {m : Message} {op : Operation}

/-- What stands at a reserved place is a placeholder, or it was put there by replacing. -/
def Vacant (c : Conversation) (past : List (Nat × Payload)) : Prop :=
  ∀ x ∈ c.reserved, ∀ m, c.messages[x.1]? = some m → m.isTyping = true ∨ (x.1, m.payload) ∈ past

theorem Vacant.perform (h : c.Vacant past) (hp : c.Placed) (op : Operation) :
    (c.perform op).Vacant (op.keeps past ++ c.replaces op) := by
  intro x hx m hm
  have hsteady : op.isSteady = true → op.keeps past ++ c.replaces op = past := by
    intro ho
    rw [Operation.keeps_of_ne (ne_clear_of_isSteady ho), replaces_of_isSteady ho, List.append_nil]
  cases sheetStep_perform hp.worked op with
  | stay ho _ _ hs =>
      obtain ⟨hmessages, hr, -⟩ := Sheet.mk.inj hs
      rw [hr] at hx
      rw [hmessages] at hm
      rw [hsteady ho]
      exact h x hx m hm
  | add ho _ _ _ hs =>
      obtain ⟨hmessages, hr, -⟩ := Sheet.mk.inj hs
      rw [hr] at hx
      rw [hmessages, getElem?_add_of_lt (hp.inside x hx)] at hm
      rw [hsteady ho]
      exact h x hx m hm
  | reserve ho _ _ _ _ hs =>
      obtain ⟨hmessages, hr, -⟩ := Sheet.mk.inj hs
      rw [hr] at hx
      rw [List.mem_singleton.mp hx, hmessages, getElem?_add_self] at hm
      cases hm
      exact .inl rfl
  | land _ _ _ _ _ hs =>
      obtain ⟨-, hr, -⟩ := Sheet.mk.inj hs
      rw [hr] at hx
      cases hx
  | @replace p hop hs =>
      subst hop
      obtain ⟨hmessages, hr, -⟩ := Sheet.mk.inj hs
      rw [hr] at hx
      have hlast : c.lastIndex < c.messages.length := lastIndex_lt (hp.inside x hx)
      rw [hmessages, replaceLast] at hm
      by_cases he : x.1 = c.lastIndex
      · -- The message at the place is the one that was put there now.
        rw [he, getElem?_replaceAt_self hlast] at hm
        cases hm
        right
        rw [he]
        exact List.mem_append_right _ List.mem_cons_self
      · rw [getElem?_replaceAt_of_ne hlast p he] at hm
        exact (h x hx m hm).imp_right fun hpast => List.mem_append_left _ hpast
  | clear _ hs =>
      obtain ⟨-, hr, -⟩ := Sheet.mk.inj hs
      rw [hr] at hx
      cases hx

theorem Vacant.after (h : c.Vacant past) (hp : c.Placed) (history : List Operation) :
    (c.after history).Vacant (c.gatheredSince replaces past history) := by
  induction history generalizing c past with
  | nil => exact h
  | cons op rest ih => exact ih (h.perform hp op) (hp.perform op)

/-- A message whose flag is right is the one that its payload becomes at its index. -/
theorem messageAt_eq_of_not_misgrouped (hm : c.messages[i]? = some m)
    (hright : ¬Misgrouped c.messages i) : c.messageAt i m.payload = m := by
  have hfirst : m.first = startsGroup (c.messages.take i) m.kind := by
    rw [Bool.eq_iff_iff, startsGroup_take_iff hm]
    by_contra hwrong
    exact hright ⟨m, hm, hwrong⟩
  obtain ⟨payload, first⟩ := m
  rw [messageAt, Message.mk.injEq]
  exact ⟨rfl, hfirst.symm⟩

/-- An operation that neither clears nor replaces leaves all messages as they are but the one at the
place where a message lands. -/
theorem getElem?_perform_ne_iff (hp : c.Placed) (ho : op.isSteady = true)
    (hm : c.messages[i]? = some m) :
    (c.perform op).messages[i]? ≠ some m ↔ ∃ d, (i, d) ∈ c.lands op ∧ d.payload ≠ m.payload := by
  obtain ⟨hlt, -⟩ := List.getElem?_eq_some_iff.mp hm
  have hkept : (c.perform op).messages[i]? = some m → c.lands op = [] →
      ((c.perform op).messages[i]? ≠ some m ↔
        ∃ d, (i, d) ∈ c.lands op ∧ d.payload ≠ m.payload) := by
    intro hm' hl
    simp [hm', hl]
  cases sheetStep_perform hp.worked op with
  | stay _ _ hl hs =>
      obtain ⟨hmessages, -, -⟩ := Sheet.mk.inj hs
      exact hkept (hmessages ▸ hm) hl
  | add _ _ hl _ hs =>
      obtain ⟨hmessages, -, -⟩ := Sheet.mk.inj hs
      exact hkept (hmessages ▸ (getElem?_add_of_lt hlt _).trans hm) hl
  | reserve _ _ hl _ _ hs =>
      obtain ⟨hmessages, -, -⟩ := Sheet.mk.inj hs
      exact hkept (hmessages ▸ (getElem?_add_of_lt hlt _).trans hm) hl
  | @land j d _ _ hl hr _ hs =>
      obtain ⟨hmessages, -, -⟩ := Sheet.mk.inj hs
      have hmem : (j, d) ∈ c.reserved := hr ▸ List.mem_cons_self
      rw [hmessages, hl]
      by_cases hi : i = j
      · subst hi
        rw [getElem?_replaceAt_self hlt]
        constructor
        · intro hne
          refine ⟨d, List.mem_cons_self, fun he => hne ?_⟩
          rw [he, messageAt_eq_of_not_misgrouped hm (hp.grouped _ hmem).1]
        · rintro ⟨d', hd, hne⟩ he
          cases List.mem_singleton.mp hd
          exact hne (congrArg Message.payload (Option.some.inj he))
      · rw [getElem?_replaceAt_of_ne (hp.inside _ hmem) _ hi]
        refine iff_of_false (not_not_intro hm) ?_
        rintro ⟨d', hd, -⟩
        exact hi (congrArg Prod.fst (List.mem_singleton.mp hd))
  | replace hop hs =>
      subst hop
      cases ho
  | clear hop hs =>
      subst hop
      cases ho

/-- A message that lands has had its place reserved. -/
theorem mem_reserved_of_lands {d : Delivery} (hw : c.WorkedOff) (hd : (i, d) ∈ c.lands op) :
    (i, d) ∈ c.reserved := by
  cases sheetStep_perform hw op with
  | stay _ _ hl _ | add _ _ hl _ _ | reserve _ _ hl _ _ _ =>
      rw [hl] at hd
      cases hd
  | land _ _ hl hr _ _ =>
      rw [hl] at hd
      rw [hr]
      exact hd
  | replace hop _ | clear hop _ =>
      subst hop
      cases hd

/-- A message of the list that is not a placeholder keeps its index, its payload and its flag
whatever is done but replacing and clearing, unless it was put at its place by replacing since the
last clearing, and another message, whose place that is, lands there now. -/
theorem rendered_message_lost_iff (settings : Settings) (clock : Clock) (history : List Operation)
    (op : Operation) (hclear : op ≠ .clear) (hreplace : ∀ p, op ≠ .replace p) (i : Nat)
    (m : Message) (hm : ((start settings clock).after history).messages[i]? = some m)
    (hkind : m.kind ≠ .typing) :
    let c := (start settings clock).after history
    (c.perform op).messages[i]? ≠ some m ↔
      (i, m.payload) ∈ (start settings clock).gatheredSince replaces [] history ∧
        ∃ d, (i, d) ∈ c.lands op ∧ d.payload ≠ m.payload := by
  intro c
  have hp : c.Placed := (placed_start settings clock).after history
  have hvacant : c.Vacant ((start settings clock).gatheredSince replaces [] history) :=
    Vacant.after (fun _ hx => by cases hx) (placed_start settings clock) history
  have ho : op.isSteady = true := by
    cases op with
    | clear => exact absurd rfl hclear
    | replace p => exact absurd rfl (hreplace p)
    | _ => rfl
  rw [getElem?_perform_ne_iff hp ho hm]
  constructor
  · rintro ⟨d, hd, hne⟩
    refine ⟨?_, d, hd, hne⟩
    refine (hvacant _ (mem_reserved_of_lands hp.worked hd) m hm).resolve_left fun htyping => ?_
    exact hkind (by simpa [Message.isTyping] using htyping)
  · exact And.right

/-- A text of the user is kept when another text lands behind it. -/
theorem rendered_message_lost_iff_behind :
    let c := (start .standard .stepped).after
      [.addFrom "hi", .queue (.to "one") none, .stepPump 0, .pass 1000]
    c.messages = [⟨.from "hi" none, true⟩, ⟨.typing, true⟩] ∧
      (c.perform (.stepPump 0)).messages[0]? = some ⟨.from "hi" none, true⟩ := by
  intro c
  refine ⟨rfl, ?_⟩
  have hiff := rendered_message_lost_iff .standard .stepped
    [.addFrom "hi", .queue (.to "one") none, .stepPump 0, .pass 1000] (.stepPump 0)
    (fun h => by cases h) (fun p h => by cases h) 0 ⟨.from "hi" none, true⟩ rfl
    (fun h => by cases h)
  by_contra hlost
  obtain ⟨hreplaced, -⟩ := hiff.mp hlost
  -- Nothing was replaced.
  cases hreplaced

/-- A text that was put in place of a placeholder is overwritten when the message lands. -/
theorem rendered_message_lost_by_landing :
    let c := (start .standard .stepped).after
      [.queue (.to "one") none, .stepPump 0, .replace (.to "mine"), .pass 1000]
    c.messages = [⟨.to "mine", true⟩] ∧
      (c.perform (.stepPump 0)).messages = [⟨.to "one", true⟩] :=
  ⟨rfl, rfl⟩

end Dialogue.Conversation
