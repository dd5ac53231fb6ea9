import Dialogue.Proofs.Messages.Buttons
import Dialogue.Proofs.Queue.Cleared
/-!
# Which callbacks are forgotten

Clearing throws away the callbacks of all messages, those in the list and those in the queue. But
the callback that is set for messages to come stays set.

* `Unarmed.cons` — no message that could have a button is made while a callback is set.
* `NoCallbacks.after` — then no message gets a callback.
* `callback_forgotten_iff` — so the callback is forgotten just if none was set when everything was
  cleared, or no message that could have a button is made afterwards.
-/

namespace Dialogue.Conversation

variable {c : Conversation} {op : Operation} {later : List Operation} {q : Payload} {d : Delivery}

/-- What operations bring into the list that make messages with a button while a callback is set. -/
def buttoned (c : Conversation) (op : Operation) : List Payload :=
  if op.hasButton then c.shown op else []

/-- In a history no callback is set, and no message that could have a button is made while one
is. -/
structure Unarmed (c : Conversation) (later : List Operation) : Prop where
  unset : ∀ hook, .setFixme hook ∉ later
  unused : c.fixme = none ∨ ∀ op ∈ later, op.hasButton = false

theorem Unarmed.cons (h : c.Unarmed (op :: later)) :
    (c.fixme = none ∨ op.hasButton = false) ∧ (c.perform op).Unarmed later := by
  obtain ⟨hunset, hunused⟩ := h
  refine ⟨hunused.imp_right fun hall => hall op List.mem_cons_self, ?_, ?_⟩
  · exact fun hook hmem => hunset hook (List.mem_cons_of_mem _ hmem)
  · rcases hunused with hnone | hall
    · left
      rw [fixme_perform, hnone]
      cases op with
      | setFixme hook => exact absurd List.mem_cons_self (hunset hook)
      | _ => rfl
    · exact .inr fun op' hmem => hall op' (List.mem_cons_of_mem _ hmem)

/-! ## One operation -/

theorem fixLabel_eq_none_iff : c.fixLabel = none ↔ c.fixme = none := Option.map_eq_none_iff

/-- A message is queued without a callback, and if it has a label it is the host's. -/
theorem button_of_mem_asks_of_unused (h : c.fixme = none ∨ op.hasButton = false)
    (hd : d ∈ c.asks op) :
    d.fixme = none ∧ (op.payload? = some d.payload ∨ d.payload.fixme = none) := by
  rcases button_of_mem_asks hd with hplain | ⟨hbutton, hfixme, hlabel⟩
  · exact hplain
  · have hnone : c.fixme = none := h.resolve_right fun he => by
      rw [hbutton] at he
      cases he
    exact ⟨hfixme.trans hnone, .inr (hlabel.trans (fixLabel_eq_none_iff.mpr hnone))⟩

/-- What comes into the list has a label only if the host has handed it in. -/
theorem payload?_of_mem_shown (h : c.fixme = none ∨ op.hasButton = false) (hq : q ∈ c.shown op)
    (hlabel : q.fixme ≠ none) : op.payload? = some q := by
  rcases List.mem_append.mp hq with hput | hqueued
  · cases op with
    | add p | replace p =>
        rw [List.mem_singleton.mp hput]
        rfl
    | addFrom text =>
        rw [List.mem_singleton.mp hput] at hlabel
        exact absurd (fixLabel_eq_none_iff.mpr (h.resolve_right fun he => by cases he)) hlabel
    | _ => cases hput
  · obtain ⟨item, hitem, hshows⟩ := List.mem_flatMap.mp hqueued
    cases item with
    | call ticket job => cases hshows
    | message d =>
        have hd : d ∈ c.asks op := List.mem_filterMap.mpr ⟨_, hitem, rfl⟩
        rcases List.mem_cons.mp hshows with rfl | hmem
        · exact absurd rfl hlabel
        · obtain rfl := List.mem_singleton.mp hmem
          exact (button_of_mem_asks_of_unused h hd).2.resolve_right hlabel

theorem fixme_of_mem_buttoned (h : c.fixme = none ∨ op.hasButton = false)
    (hq : q ∈ c.buttoned op) : q.fixme = none := by
  unfold buttoned at hq
  split at hq
  case isTrue hbutton =>
    by_contra hlabel
    have hpayload := payload?_of_mem_shown h hq hlabel
    cases op with
    | addFrom | queueFrom | addOptions => cases hpayload
    | _ => cases hbutton
  case isFalse => cases hq

/-- While a callback is set, a message that could have a button has one. -/
theorem exists_mem_buttoned (h : c.fixme ≠ none) (hop : op.hasButton = true) :
    ∃ q ∈ c.buttoned op, q.fixme ≠ none := by
  have hlabel : c.fixLabel ≠ none := fun he => h (fixLabel_eq_none_iff.mp he)
  rw [buttoned, if_pos hop]
  cases op with
  | addFrom text => exact ⟨.from text c.fixLabel, List.mem_cons_self, hlabel⟩
  | queueFrom text =>
      exact ⟨.from text c.fixLabel, List.mem_cons_of_mem _ List.mem_cons_self, hlabel⟩
  | addOptions lead items selected multi =>
      refine ⟨.options items selected multi c.fixLabel, List.mem_flatMap.mpr ?_, hlabel⟩
      exact ⟨_, List.mem_append_right _ List.mem_cons_self,
        List.mem_cons_of_mem _ List.mem_cons_self⟩
  | _ => cases hop

/-! ## Histories -/

theorem Unarmed.fixme_of_mem_gathered (h : c.Unarmed later) (hq : q ∈ c.gathered buttoned later) :
    q.fixme = none := by
  induction later generalizing c with
  | nil => cases hq
  | cons op rest ih =>
      obtain ⟨hop, hrest⟩ := h.cons
      rcases List.mem_append.mp hq with hq | hq
      · exact fixme_of_mem_buttoned hop hq
      · exact ih hrest hq

theorem Unarmed.exists_payload? (h : c.Unarmed later) (hq : q ∈ c.gathered shown later)
    (hlabel : q.fixme ≠ none) : ∃ op ∈ later, op.payload? = some q := by
  induction later generalizing c with
  | nil => cases hq
  | cons op rest ih =>
      obtain ⟨hop, hrest⟩ := h.cons
      rcases List.mem_append.mp hq with hq | hq
      · exact ⟨op, List.mem_cons_self, payload?_of_mem_shown hop hq hlabel⟩
      · obtain ⟨op', hmem, hpayload⟩ := ih hrest hq
        exact ⟨op', List.mem_cons_of_mem _ hmem, hpayload⟩

/-- A callback that is set is used by the first message that could have a button. -/
theorem exists_mem_gathered_buttoned (hset : ∀ hook, .setFixme hook ∉ later)
    (h : c.fixme ≠ none) (hlater : ∃ op ∈ later, op.hasButton = true) :
    ∃ q ∈ c.gathered buttoned later, q.fixme ≠ none := by
  induction later generalizing c with
  | nil =>
      obtain ⟨op, hop, -⟩ := hlater
      cases hop
  | cons op rest ih =>
      cases hbutton : op.hasButton with
      | true =>
          obtain ⟨q, hq, hlabel⟩ := exists_mem_buttoned h hbutton
          exact ⟨q, List.mem_append_left _ hq, hlabel⟩
      | false =>
          have hfixme : (c.perform op).fixme = c.fixme := by
            rw [fixme_perform]
            cases op with
            | setFixme hook => exact absurd List.mem_cons_self (hset hook)
            | addFrom text => cases hbutton
            | _ => rfl
          have hrest : ∃ op ∈ rest, op.hasButton = true := by
            obtain ⟨op', hmem, hop'⟩ := hlater
            rcases List.mem_cons.mp hmem with rfl | hmem
            · rw [hbutton] at hop'
              cases hop'
            · exact ⟨op', hmem, hop'⟩
          obtain ⟨q, hq, hlabel⟩ := ih (fun hook hmem => hset hook (List.mem_cons_of_mem _ hmem))
            (hfixme ▸ h) hrest
          exact ⟨q, List.mem_append_right _ hq, hlabel⟩

/-- There is no callback at any index, nor one with a message that is to come. -/
structure NoCallbacks (c : Conversation) : Prop where
  worked : c.WorkedOff
  fixmes : c.fixmes = []
  undelivered : ∀ d ∈ c.undelivered, d.fixme = none

theorem NoCallbacks.clear (hw : c.WorkedOff) : c.clear.NoCallbacks where
  worked := hw.clear
  fixmes := congrArg Panel.fixmes (panel_clear c)
  undelivered := by
    rw [undelivered_clear hw]
    exact fun d hd => by cases hd

theorem NoCallbacks.perform (h : c.NoCallbacks) (hop : c.fixme = none ∨ op.hasButton = false) :
    (c.perform op).NoCallbacks := by
  by_cases hclear : op = .clear
  · subst hclear
    exact .clear h.worked
  · have hqueue := undelivered_perform h.worked hclear
    -- What lands and what is to come then was to come before, or is queued now.
    have hplain : ∀ d ∈ (c.lands op).map (·.2) ++ (c.perform op).undelivered, d.fixme = none := by
      intro d hd
      rw [hqueue] at hd
      rcases List.mem_append.mp hd with hd | hd
      · exact h.undelivered d hd
      · exact (button_of_mem_asks_of_unused hop hd).1
    have hattaches : c.attaches op = [] := by
      refine List.flatMap_eq_nil_iff.mpr fun x hx => ?_
      rw [hplain x.2 (List.mem_append_left _ (List.mem_map_of_mem hx))]
      rfl
    have hanswers : c.answers op = [] := by
      cases op with
      | addFrom text =>
          rw [answers, hop.resolve_right fun he => by cases he]
          rfl
      | _ => rfl
    refine ⟨h.worked.perform op, ?_, fun d hd => hplain d (List.mem_append_right _ hd)⟩
    rw [fixmes_perform c hclear, hattaches, hanswers, h.fixmes]
    rfl

theorem NoCallbacks.after (h : c.NoCallbacks) (hlater : c.Unarmed later) :
    (c.after later).NoCallbacks := by
  induction later generalizing c with
  | nil => exact h
  | cons op rest ih =>
      obtain ⟨hop, hrest⟩ := hlater.cons
      exact ih (h.perform hop) hrest

/-- After clearing, and as long as no callback is set, the texts of the user and the lists of
options have no button, there is no callback at any index, and a label that stands in the list was
handed in by the host — just if no callback was set when everything was cleared, or no such text and
list is made. The callback that is set is the last one, unless a text of the user was added since.
-/
theorem callback_forgotten_iff (settings : Settings) (clock : Clock)
    (history later : List Operation) (hset : ∀ hook, .setFixme hook ∉ later) :
    let c := (start settings clock).after history
    let c' := c.clear.after later
    (((∀ q ∈ c.clear.gathered buttoned later, q.fixme = none) ∧ (∀ i, c'.fixmeAt? i = none) ∧
          ∀ m ∈ c'.messages, m.payload.fixme ≠ none →
            ∃ op ∈ later, op.payload? = some m.payload) ↔
        c.fixme = none ∨ ∀ op ∈ later, op.hasButton = false) ∧
      c.fixme = history.foldl Operation.callback none := by
  intro c c'
  have hw : c.WorkedOff := (placed_start settings clock).after history |>.worked
  have hfixme : c.clear.fixme = c.fixme := congrArg Panel.fixme (panel_clear c)
  refine ⟨⟨?_, fun hunused => ?_⟩, fixme_after _ history⟩
  · rintro ⟨hlabels, -, -⟩
    by_contra hused
    rw [not_or] at hused
    obtain ⟨hnone, hall⟩ := hused
    obtain ⟨q, hq, hlabel⟩ :=
      exists_mem_gathered_buttoned hset (hfixme ▸ hnone) (by simpa using hall)
    exact hlabel (hlabels q hq)
  · have hunarmed : c.clear.Unarmed later := ⟨hset, hfixme ▸ hunused⟩
    have hno : c'.NoCallbacks := (NoCallbacks.clear hw).after hunarmed
    refine ⟨fun q => hunarmed.fixme_of_mem_gathered, fixmeAt?_of_nil hno.fixmes, ?_⟩
    intro m hm hlabel
    refine hunarmed.exists_payload? ?_ hlabel
    have hoffered : m.payload ∈ c'.offered := mem_offered_iff.mpr (.inl ⟨m, hm, rfl⟩)
    refine (mem_offered_after hw.clear hoffered).resolve_left fun hold => ?_
    rw [offered_clear hw] at hold
    cases hold

/-- A callback is set and used by a text of the user, while another text is still to come. -/
def usedButton : List Operation := [.setFixme (some "fix"), .queueFrom "a", .addFrom "b"]

/-- Two more texts, with the pump of the first one still at work. -/
def moreTexts : List Operation :=
  [.queueFrom "c", .stepPump 0, .stepPump 1, .pass 1000, .stepPump 0, .stepPump 1, .addFrom "d"]

theorem callback_forgotten_iff_usedButton :
    let c' := ((start .standard .stepped).after usedButton).clear.after moreTexts
    c'.messages = [⟨.from "c" none, true⟩, ⟨.from "d" none, false⟩] ∧
      ∀ i, c'.fixmeAt? i = none := by
  have hset : ∀ hook, .setFixme hook ∉ moreTexts := by simp [moreTexts]
  obtain ⟨hiff, -⟩ := callback_forgotten_iff .standard .stepped usedButton moreTexts hset
  obtain ⟨-, hnone, -⟩ := hiff.mpr (.inl rfl)
  exact ⟨rfl, hnone⟩

/-- The first text of the user after clearing has the button that was set before. -/
theorem callback_not_forgotten :
    let c := (start .standard .stepped).after [.setFixme (some "fix")]
    let c' := c.clear.after [.addFrom "x"]
    c'.messages = [⟨.from "x" (some Settings.standard.fixLabel), true⟩] ∧
      c'.fixmeAt? 0 = some "fix" :=
  ⟨rfl, rfl⟩

end Dialogue.Conversation
