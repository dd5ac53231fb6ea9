import Dialogue.Proofs.Messages.Placeholders
import Dialogue.Proofs.Queue.Pace
/-!
# When messages were delivered

A message of the script stands in the list from its delivery on, and it is told of at the same
instant. As long as the delay stays the same, no notice falls due after that of the message that was
delivered last. So it suffices to know when that was: the notices of all messages are sent by then
and the delay, and not before.

* `Listed.perform` — the list holds the messages that were delivered.
* `Mailed.perform` — each of them was told of, or will be.
* `Dated.perform`, `Dated.pass` — the notices that are left fall due as the last delivery says.
-/

namespace Dialogue

/-- Is it the notice of a message of the script? -/
def Notice.isFromScript (x : Notice) : Bool := x.message?.any Message.isFromScript

/-- When the last of some messages was delivered. -/
def lastTime? (presented : List (Nat × Message)) : Option Nat := presented.getLast?.map Prod.fst

theorem lastTime?_concat (presented : List (Nat × Message)) (x : Nat × Message) :
    lastTime? (presented ++ [x]) = some x.1 := by
  rw [lastTime?, List.getLast?_concat, Option.map_some]

theorem exists_mem_of_lastTime? {presented : List (Nat × Message)} {time : Nat}
    (h : lastTime? presented = some time) : ∃ x ∈ presented, x.1 = time := by
  obtain ⟨x, hx, rfl⟩ := Option.map_eq_some_iff.mp h
  exact ⟨x, List.mem_of_getLast? hx, rfl⟩

namespace Conversation

variable {c c' : Conversation} {n : Nat} {m : Message} {op : Operation}
  {presented : List (Nat × Message)}

/-- The messages of the script that an operation delivers, and when. -/
def presents (c : Conversation) (op : Operation) : List (Nat × Message) :=
  ((c.delivers op).filter Message.isFromScript).map fun m => (c.now, m)

theorem map_snd_presents (c : Conversation) (op : Operation) :
    (c.presents op).map Prod.snd = (c.delivers op).filter Message.isFromScript := by
  rw [presents, List.map_map]
  exact List.map_id _

theorem presents_of_delivers (h : c.delivers op = [m]) :
    c.presents op = if m.isFromScript then [(c.now, m)] else [] := by
  rw [presents, h, List.filter_singleton]
  cases m.isFromScript <;> rfl

theorem presents_of_nil (h : c.delivers op = []) : c.presents op = [] := by
  rw [presents, h]
  rfl

/-! ## The list -/

/-- The messages of the script in the list are those that were delivered. -/
structure Listed (c : Conversation) (presented : List (Nat × Message)) : Prop where
  tidy : c.Tidy
  perm : (c.messages.filter Message.isFromScript).Perm (presented.map Prod.snd)

theorem filter_concat_of_not {ms : List Message} (h : m.isFromScript = false) :
    (ms ++ [m]).filter Message.isFromScript = ms.filter Message.isFromScript := by
  simp [List.filter_append, h]

/-- A placeholder is not of the script. -/
theorem isFromScript_of_isTyping (h : m.isTyping = true) : m.isFromScript = false := by
  have hkind : m.payload.kind = .typing := of_decide_eq_true h
  unfold Message.isFromScript
  cases hp : m.payload with
  | typing | «from» => rfl
  | «to» | options | uploader => cases hp ▸ hkind

/-- What takes the place of an element that does not count counts in addition. -/
theorem filter_set_perm {α : Type} (p : α → Bool) {xs : List α} {i : Nat} (hi : i < xs.length)
    (h : p xs[i] = false) (x : α) :
    ((xs.set i x).filter p).Perm (xs.filter p ++ [x].filter p) := by
  have hold : xs.filter p = (xs.take i).filter p ++ (xs.drop (i + 1)).filter p := by
    rw [← List.filter_append]
    conv_lhs => rw [← List.take_append_drop i xs, List.drop_eq_getElem_cons hi]
    rw [List.filter_append, List.filter_cons_of_neg (by simp [h]), ← List.filter_append]
  rw [List.set_eq_take_append_cons_drop, if_pos hi, hold, List.filter_append,
    show x :: xs.drop (i + 1) = [x] ++ xs.drop (i + 1) from rfl, List.filter_append,
    List.append_assoc]
  exact List.Perm.append_left _ List.perm_append_comm

/-- Only a message that lands is of the script. -/
theorem presents_of_lands_nil (hr : op.isRoutine = true) (h : c.lands op = []) :
    c.presents op = [] := by
  by_cases ha : c.announces op = []
  · refine presents_of_nil (List.eq_nil_iff_forall_not_mem.mpr fun m hm => ?_)
    cases op with
    | stepPump n =>
        rcases hn : c.pumps[n]? with _ | ⟨g, stage⟩
        · simp [delivers, hn] at hm
        · cases stage with
          | typing d placeholder due =>
              by_cases hdue : due ≤ c.now ∧ c.generation = g
              · simp [lands, hn, hdue] at h
              · simp [delivers, hn, hdue] at hm
          | taken | calling | through | ended => simp [delivers, hn] at hm
    | addFrom text => cases ha
    | _ => cases hm
  · cases op with
    | addFrom text => rfl
    | stepPump n =>
        refine presents_of_nil ?_
        rcases hn : c.pumps[n]? with _ | ⟨g, stage⟩
        · simp [delivers, hn]
        · cases stage with
          | typing d placeholder due => simp [announces, hn] at ha
          | taken | calling | through | ended => simp [delivers, hn]
    | _ => exact absurd rfl ha

theorem Listed.perform (h : c.Listed presented) (hr : op.isRoutine = true)
    (ht : op.isTidy = true) (hclear : op ≠ .clear) :
    (c.perform op).Listed (presented ++ c.presents op) := by
  refine ⟨h.tidy.perform ht, ?_⟩
  have hw := h.tidy.placed.worked
  have hkept : ∀ {ms : List Message}, (c.perform op).messages = ms → c.lands op = [] →
      ms.filter Message.isFromScript = c.messages.filter Message.isFromScript →
      ((c.perform op).messages.filter Message.isFromScript).Perm
        ((presented ++ c.presents op).map Prod.snd) := by
    intro ms hms hl hsame
    rw [hms, hsame, presents_of_lands_nil hr hl, List.append_nil]
    exact h.perm
  cases sheetStep_perform hw op with
  | stay ho hp hl hs => exact hkept (congrArg Sheet.messages hs) hl rfl
  | @add p ho hp hl ha hs =>
      refine hkept (congrArg Sheet.messages hs) hl (filter_concat_of_not ?_)
      cases op with
      | addFrom text =>
          cases hp
          rfl
      | add | replace => cases hr
      | _ => cases hp
  | reserve ho hp hl hnone hq hs =>
      exact hkept (congrArg Sheet.messages hs) hl (filter_concat_of_not rfl)
  | @land i d ho hp hl hold ha hs =>
      -- The message lands on a placeholder, which is not of the script.
      have hi : i < c.messages.length := h.tidy.placed.inside (i, d) (hold ▸ List.mem_cons_self)
      have htyping : c.messages[i].isTyping = true :=
        (h.tidy.typing_iff i _ (List.getElem?_eq_getElem hi)).mpr (hold ▸ List.mem_cons_self)
      have hnot := isFromScript_of_isTyping htyping
      have hms : (c.perform op).messages = c.messages.set i (c.messageAt i d.payload) :=
        (congrArg Sheet.messages hs).trans (messages_replaceAt hi d.payload)
      rw [hms, List.map_append, map_snd_presents, delivers_of_lands hl]
      exact (filter_set_perm _ hi hnot _).trans (h.perm.append_right _)
  | replace he hs =>
      subst he
      cases hr
  | clear he hs => exact absurd he hclear

theorem Listed.pass (h : c.Listed presented) (ms : Nat) :
    (c.perform (.pass ms)).Listed presented := ⟨h.tidy.perform rfl, h.perm⟩

/-! ## The notices -/

/-- The messages of the script that were delivered were told of, or will be. -/
def Mailed (c : Conversation) (presented : List (Nat × Message)) : Prop :=
  (presented.map Prod.snd).Perm (c.post.mail.filter Message.isFromScript)

theorem Mailed.perform (h : c.Mailed presented) (hw : c.WorkedOff) (op : Operation) :
    (c.perform op).Mailed (presented ++ c.presents op) := by
  have hperm := (postStep_perform hw op).perm.filter Message.isFromScript
  rw [List.filter_append] at hperm
  rw [Mailed, List.map_append, map_snd_presents]
  exact (h.append_right _).trans hperm

/-- As long as the delay stays the same: messages that were not told of were delivered right now,
the notices that were not sent fall due when the delay after the last delivery is over, or before,
and until then there is one that falls due right then. Without a delay they were all sent. -/
structure Dated (c : Conversation) (presented : List (Nat × Message)) : Prop where
  past : ∀ x ∈ presented, x.1 ≤ c.now
  untold : ∀ m ∈ c.untold, m.isFromScript = true → lastTime? presented = some c.now
  early : ∀ x ∈ c.notices, x.isFromScript = true → ∀ due, dueOf c.clock c.now x = some due →
    ∃ time, lastTime? presented = some time ∧ due ≤ c.clock.due time c.settings.timeout
  owed : ∀ time, lastTime? presented = some time → c.settings.timeout ≠ 0 →
    c.now < c.clock.due time c.settings.timeout → (∃ m ∈ c.untold, m.isFromScript = true) ∨
      ∃ x ∈ c.notices, x.isFromScript = true ∧
        dueOf c.clock c.now x = some (c.clock.due time c.settings.timeout)
  at_once : c.settings.timeout = 0 → c.unsent = []

theorem Dated.time_le (h : c.Dated presented) {time : Nat} (ht : lastTime? presented = some time) :
    time ≤ c.now := by
  obtain ⟨x, hx, rfl⟩ := exists_mem_of_lastTime? ht
  exact h.past x hx

/-- Nothing is delivered or told of, and no notice goes on. -/
theorem Dated.stay (h : c.Dated presented) (ht : SameTime c c') (hn : c'.notices = c.notices)
    (hu : c'.untold = c.untold) : c'.Dated presented := by
  constructor
  · rw [ht.now]
    exact h.past
  · rw [hu, ht.now]
    exact h.untold
  · rw [hn, ht.clock, ht.now, ht.settings]
    exact h.early
  · rw [hn, hu, ht.clock, ht.now, ht.settings]
    exact h.owed
  · rw [ht.settings, unsent, hn]
    exact h.at_once

/-- A message of the script is delivered. -/
theorem Dated.deliver (h : c.Dated presented) (ht : SameTime c c') (hn : c'.notices = c.notices)
    (hm : m.isFromScript = true) (hu : m ∈ c'.untold) :
    c'.Dated (presented ++ [(c.now, m)]) := by
  have hlast := lastTime?_concat presented (c.now, m)
  constructor
  · rw [ht.now]
    intro x hx
    rcases List.mem_append.mp hx with hx | hx
    · exact h.past x hx
    · rw [List.mem_singleton.mp hx]
  · rw [ht.now]
    exact fun _ _ _ => hlast
  · rw [hn, ht.clock, ht.now, ht.settings]
    intro x hx hscript due hdue
    obtain ⟨time, htime, hle⟩ := h.early x hx hscript due hdue
    exact ⟨c.now, hlast, Nat.le_trans hle (due_mono _ (h.time_le htime) (Nat.le_refl _))⟩
  · exact fun _ _ _ _ => .inl ⟨m, hu, hm⟩
  · rw [ht.settings, unsent, hn]
    exact h.at_once

/-- A message that is not of the script is delivered. -/
theorem Dated.deliver_other (h : c.Dated presented) (ht : SameTime c c')
    (hn : c'.notices = c.notices) (hm : m.isFromScript = false)
    (hu : ∀ m', m' ∈ c'.untold ↔ m' = m ∨ m' ∈ c.untold) : c'.Dated presented := by
  have hmem : ∀ m', m'.isFromScript = true → (m' ∈ c'.untold ↔ m' ∈ c.untold) := by
    intro m' hm'
    rw [hu, or_iff_right]
    rintro rfl
    cases hm.symm.trans hm'
  constructor
  · rw [ht.now]
    exact h.past
  · rw [ht.now]
    exact fun m' hm' hscript => h.untold m' ((hmem m' hscript).mp hm') hscript
  · rw [hn, ht.clock, ht.now, ht.settings]
    exact h.early
  · rw [hn, ht.clock, ht.now, ht.settings]
    intro time htime hne hlt
    refine (h.owed time htime hne hlt).imp_left ?_
    rintro ⟨m', hm', hscript⟩
    exact ⟨m', (hmem m' hscript).mpr hm', hscript⟩
  · rw [ht.settings, unsent, hn]
    exact h.at_once

theorem isFromScript_notice {x : Notice} (h : x.message? = some m) :
    x.isFromScript = m.isFromScript := by
  rw [Notice.isFromScript, h]
  rfl

/-- A message is told of. If it is of the script it was delivered right now. -/
theorem Dated.announce (h : c.Dated presented) (ht : SameTime c c')
    (hn : c'.notices = (c.announce m).notices)
    (hnow : m.isFromScript = true → lastTime? presented = some c.now)
    (hsub : c'.untold ⊆ c.untold) (hu : ∀ m' ∈ c.untold, m' = m ∨ m' ∈ c'.untold) :
    c'.Dated presented := by
  by_cases hzero : c.settings.timeout = 0
  · have hn : c'.notices = c.notices :=
      hn.trans (congrArg Post.notices (post_announce_of_zero hzero m))
    constructor
    · rw [ht.now]
      exact h.past
    · rw [ht.now]
      exact fun m' hm' => h.untold m' (hsub hm')
    · rw [hn, ht.clock, ht.now, ht.settings]
      exact h.early
    · rw [ht.settings]
      exact fun _ _ hne => absurd hzero hne
    · rw [ht.settings, unsent, hn]
      exact h.at_once
  · have hn : c'.notices = c.notices ++ [.fresh m c.settings.timeout] :=
      hn.trans (congrArg Post.notices (post_announce_of_ne_zero hzero m))
    constructor
    · rw [ht.now]
      exact h.past
    · rw [ht.now]
      exact fun m' hm' => h.untold m' (hsub hm')
    · rw [hn, ht.clock, ht.now, ht.settings]
      intro x hx hscript due hdue
      rcases List.mem_append.mp hx with hx | hx
      · exact h.early x hx hscript due hdue
      · rw [List.mem_singleton.mp hx] at hscript hdue
        cases hdue
        exact ⟨c.now, hnow hscript, Nat.le_refl _⟩
    · rw [hn, ht.clock, ht.now, ht.settings]
      intro time htime hne hlt
      rcases h.owed time htime hne hlt with ⟨m', hm', hscript⟩ | ⟨x, hx, hscript, hdue⟩
      · rcases hu m' hm' with rfl | hm'
        · cases htime.symm.trans (hnow hscript)
          exact .inr ⟨_, List.mem_append_right _ (List.mem_singleton_self _), hscript, rfl⟩
        · exact .inl ⟨m', hm', hscript⟩
      · exact .inr ⟨x, List.mem_append_left _ hx, hscript, hdue⟩
    · rw [ht.settings]
      exact fun hzero' => absurd hzero' hzero

/-- A notice goes on: its delay begins, or it is sent when it is due. -/
theorem Dated.notice (h : c.Dated presented) (ht : SameTime c c') {x y : Notice}
    (hn : c.notices[n]? = some x) (hn' : c'.notices = c.notices.set n y)
    (hu : c'.untold = c.untold)
    (hy : (y.message? = x.message? ∧ dueOf c.clock c.now y = dueOf c.clock c.now x) ∨
      (y = .sent ∧ ∀ due, dueOf c.clock c.now x = some due → due ≤ c.now)) :
    c'.Dated presented := by
  constructor
  · rw [ht.now]
    exact h.past
  · rw [hu, ht.now]
    exact h.untold
  · rw [hn', ht.clock, ht.now, ht.settings]
    intro z hz hscript due hdue
    rcases List.mem_or_eq_of_mem_set hz with hz | rfl
    · exact h.early z hz hscript due hdue
    · rcases hy with ⟨hmessage, hsame⟩ | ⟨rfl, -⟩
      · refine h.early x (List.mem_of_getElem? hn) ?_ due (hsame.symm.trans hdue)
        rwa [Notice.isFromScript, ← hmessage]
      · cases hdue
  · rw [hn', hu, ht.clock, ht.now, ht.settings]
    intro time htime hne hlt
    refine (h.owed time htime hne hlt).imp_right ?_
    rintro ⟨z, hz, hscript, hdue⟩
    obtain ⟨k, hk⟩ := List.getElem?_of_mem hz
    by_cases he : n = k
    · -- The notice that falls due at that time is not sent before.
      subst he
      cases hn.symm.trans hk
      rcases hy with ⟨hmessage, hsame⟩ | ⟨-, hpast⟩
      · refine ⟨y, List.mem_set (List.getElem?_eq_some_iff.mp hn).1 y, ?_, hsame.trans hdue⟩
        rwa [Notice.isFromScript, hmessage]
      · exact absurd (hpast _ hdue) (Nat.not_le.mpr hlt)
    · refine ⟨z, ?_, hscript, hdue⟩
      refine List.mem_of_getElem? (i := k) ?_
      rw [List.getElem?_set_ne he]
      exact hk
  · rw [ht.settings]
    intro hzero
    -- Without a delay there is no notice that could go on.
    have hnone := List.filterMap_eq_nil_iff.mp (h.at_once hzero)
    refine List.filterMap_eq_nil_iff.mpr fun z hz => ?_
    rw [hn'] at hz
    rcases List.mem_or_eq_of_mem_set hz with hz | rfl
    · exact hnone z hz
    · rcases hy with ⟨hmessage, -⟩ | ⟨rfl, -⟩
      · rw [hmessage]
        exact hnone x (List.mem_of_getElem? hn)
      · rfl

theorem Dated.perform (h : c.Dated presented) (hw : c.WorkedOff) (hr : op.isRoutine = true)
    (hop : ∀ ms, op ≠ .pass ms) : (c.perform op).Dated (presented ++ c.presents op) := by
  have ht := sameTime_perform hw hr hop
  have hstep := postStep_perform hw op
  generalize c.perform op = c' at ht hstep ⊢
  have hnone : c.delivers op = [] → presented ++ c.presents op = presented := fun hd => by
    rw [presents_of_nil hd, List.append_nil]
  cases hstep with
  | stay hd ha hp =>
      obtain ⟨hn, -, hu, -⟩ := Post.mk.inj hp
      rw [hnone hd]
      exact h.stay ht hn hu
  | pass he hp => exact absurd he (hop _)
  | @deliver m before after hd ha hu hp =>
      obtain ⟨hn, -, hu', -⟩ := Post.mk.inj hp
      rw [presents_of_delivers hd]
      cases hm : m.isFromScript with
      | true => exact h.deliver ht hn hm (hu' ▸ List.mem_append_right _ List.mem_cons_self)
      | false =>
          rw [if_neg Bool.false_ne_true, List.append_nil]
          refine h.deliver_other ht hn hm fun m' => ?_
          rw [hu', hu]
          simp only [List.mem_append, List.mem_cons]
          tauto
  | @add m hd ha hp =>
      obtain ⟨hn, -, hu, -⟩ := Post.mk.inj hp
      have hscript := (isFromScript_of_add hd ha).2
      have hu : c'.untold = c.untold := hu
      rw [presents_of_delivers hd, hscript, if_neg Bool.false_ne_true, List.append_nil]
      refine h.announce ht hn (fun hm => ?_) (fun _ hm => hu ▸ hm) fun m' hm' => .inr (hu ▸ hm')
      cases hscript.symm.trans hm
  | @tell m before after hd ha hu hp =>
      obtain ⟨hn, -, hu', -⟩ := Post.mk.inj hp
      rw [hnone hd]
      refine h.announce ht hn (h.untold m (hu ▸ List.mem_append_right _ List.mem_cons_self)) ?_ ?_
      · rw [hu', hu]
        exact ((List.Sublist.refl before).append (List.sublist_cons_self m after)).subset
      · intro m' hm'
        rw [hu] at hm'
        rw [hu']
        simp only [List.mem_append, List.mem_cons] at hm' ⊢
        tauto
  | begin he hn hp =>
      obtain ⟨hn', -, hu, -⟩ := Post.mk.inj hp
      subst he
      rw [hnone rfl]
      exact h.notice ht hn hn' hu (.inl ⟨rfl, rfl⟩)
  | @send n due m he hn hdue hp =>
      obtain ⟨hn', -, hu, -⟩ := Post.mk.inj hp
      subst he
      rw [hnone rfl]
      refine h.notice ht hn hn' hu (.inr ⟨rfl, fun due' hdue' => ?_⟩)
      cases hdue'
      exact hdue

/-- Time passes when everything was told of and no notice can go on. -/
theorem Dated.pass (h : c.Dated presented) (hrest : c.Resting) (ms : Nat) :
    (c.perform (.pass ms)).Dated presented := by
  have hdue : ∀ x ∈ c.notices, dueOf c.clock (c.now + ms) x = dueOf c.clock c.now x :=
    fun _ hx => dueOf_of_ready hrest.notices ms hx
  constructor
  · exact fun x hx => Nat.le_trans (h.past x hx) (Nat.le_add_right _ _)
  · rw [show (c.perform (.pass ms)).untold = [] from hrest.untold]
    exact fun _ hm => by cases hm
  · intro x hx hscript due hx'
    exact h.early x hx hscript due ((hdue x hx).symm.trans hx')
  · intro time htime hne hlt
    have hlt : c.now + ms < c.clock.due time c.settings.timeout := hlt
    rcases h.owed time htime hne (by omega) with ⟨m, hm, -⟩ | ⟨x, hx, hscript, hx'⟩
    · rw [hrest.untold] at hm
      cases hm
    · exact .inr ⟨x, hx, hscript, (hdue x hx).trans hx'⟩
  · exact h.at_once

end Conversation

end Dialogue
