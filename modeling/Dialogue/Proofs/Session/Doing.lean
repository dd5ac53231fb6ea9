import Dialogue.Proofs.Queue.Dated
import Dialogue.Proofs.Session.Scheduled
import Dialogue.Proofs.Session.Waiters
/-!
# One operation in a turn

In its turn a task carries out one operation on the conversation at most. What holds of the
conversation all the time therefore still holds after a turn.

* `Conversation.sent_prefix_doing` — what was sent stays sent.
* `Conversation.Paced.doing`, `Conversation.Dated.doing`, `Conversation.Listed.doing` — what holds
  after an operation holds after the turn.
-/

namespace Dialogue

theorem Operation.isTidy_of_isPlain {op : Operation} (h : op.isPlain = true) :
    op.isTidy = true := by
  cases op with
  | queue p hook => exact (Bool.and_eq_true_iff.mp h).2
  | add | replace => cases h
  | _ => rfl

namespace Conversation

variable {c : Conversation} {op : Operation} {limit seen answers answers' : Nat}
  {presented : List (Nat × Message)}

/-! ## What is told does not matter -/

section Told

variable (journal : List (Nat × Event)) (signals : List Signal)

theorem Attended.told (h : c.Attended) : ({ c with journal, signals } : Conversation).Attended where
  worked := h.worked.of_dispatch rfl
  carried := h.carried.of_perm rfl (.refl _)
  asking := h.asking.of_desk rfl
  listening := h.listening.of_slot rfl rfl

theorem Paced.told (h : c.Paced limit seen answers) :
    ({ c with journal, signals } : Conversation).Paced limit seen answers :=
  ⟨h.seen_le, h.soon, h.few, h.fresh, h.dues_eq_nil, h.behind⟩

theorem Dated.told (h : c.Dated presented) :
    ({ c with journal, signals } : Conversation).Dated presented :=
  ⟨h.past, h.untold, h.early, h.owed, h.at_once⟩

theorem Listed.told (h : c.Listed presented) :
    ({ c with journal, signals } : Conversation).Listed presented where
  tidy := {
    placed := {
      worked := h.tidy.placed.worked.of_dispatch rfl
      inside := h.tidy.placed.inside
      grouped := h.tidy.placed.grouped }
    typing_iff := h.tidy.typing_iff
    plain := h.tidy.plain }
  perm := h.perm

end Told

theorem Paced.mono (h : c.Paced limit seen answers) (ha : answers' ≤ answers) :
    c.Paced limit seen answers' :=
  h.stay ⟨rfl, rfl, rfl⟩ rfl rfl (Nat.add_le_add_left ha _)

/-- The subscriber takes notices. -/
theorem Paced.see {seen' : Nat} (h : c.Paced limit seen answers) (hle : seen ≤ seen')
    (hsent : seen' ≤ c.sent.length) : c.Paced limit seen' answers where
  seen_le := hsent
  soon := h.soon
  few := h.few
  fresh := h.fresh
  dues_eq_nil := h.dues_eq_nil
  behind := by
    have := h.behind
    omega

/-! ## Who waits for an answer -/

/-- Only a wait that goes on lets somebody wait who did not before, and after an answer nobody
does. -/
theorem slot_of_isAwaiting (hw : c.WorkedOff) (hp : op.isPlain = true)
    (hne : ∀ n, op ≠ .stepWait n) (ha : (c.perform op).isAwaiting = true) :
    (c.perform op).slot = c.slot ∧ ∀ text, op ≠ .addFrom text := by
  have hsame : (c.perform op).desk = c.desk → (∀ text, op ≠ .addFrom text) →
      (c.perform op).slot = c.slot ∧ ∀ text, op ≠ .addFrom text :=
    fun hd hop => ⟨congrArg Desk.slot hd, hop⟩
  have hfree : ∀ {x}, (c.perform op).slot = c.slot.release x → False := by
    intro x hs
    rw [isAwaiting, InputSlot.isPending, hs, InputSlot.waiter?_release] at ha
    cases ha
  cases op with
  | queue p hook => exact hsame (desk_push hw _) fun _ h => by cases h
  | addOptions lead items selected multi =>
      exact hsame ((desk_push (hw.addLead lead) _).trans (desk_addLead hw lead)) fun _ h => by
        cases h
  | addUploader lead options =>
      exact hsame ((desk_push (hw.addLead lead) _).trans (desk_addLead hw lead)) fun _ h => by
        cases h
  | setInput change => exact hsame rfl fun _ h => by cases h
  | stepNotice n => exact hsame (desk_stepNotice c n) fun _ h => by cases h
  | stepPump n =>
      refine ⟨?_, fun _ h => by cases h⟩
      rcases desk_stepPump c n with hd | ⟨t, v, hd⟩
      · exact congrArg Desk.slot hd
      · exact congrArg Desk.slot hd
  | beginWait owner enable =>
      cases enable with
      | true => exact ⟨congrArg Desk.slot (desk_beginWait hw owner), fun _ h => by cases h⟩
      | false => cases hp
  | addFrom text => exact (hfree (InputSlot.report_eq c.slot (.string text))).elim
  | report v => exact (hfree (InputSlot.report_eq c.slot v)).elim
  | clear => exact (hfree slot_clear).elim
  | stepWait n => exact absurd rfl (hne n)
  | _ => cases hp

theorem puts_eq_nil (hp : op.isPlain = true) (hop : ∀ text, op ≠ .addFrom text) :
    c.puts op = [] := by
  cases op with
  | addFrom text => exact absurd rfl (hop text)
  | add | replace => cases hp
  | _ => rfl

/-! ## What was sent -/

theorem sent_prefix_announce (c : Conversation) (m : Message) :
    c.sent <+: (c.announce m).sent := by
  by_cases hzero : c.settings.timeout = 0
  · rw [show (c.announce m).sent = c.sent ++ [m] from
      congrArg Post.sent (post_announce_of_zero hzero m)]
    exact List.prefix_append _ _
  · rw [show (c.announce m).sent = c.sent from
      congrArg Post.sent (post_announce_of_ne_zero hzero m)]

/-- No notice that was sent is taken back. -/
theorem sent_prefix_perform (hw : c.WorkedOff) (op : Operation) :
    c.sent <+: (c.perform op).sent := by
  have hpost : ∀ {b : Post}, (c.perform op).post = b → c.sent <+: b.sent →
      c.sent <+: (c.perform op).sent := by
    intro b hp hb
    rw [show (c.perform op).sent = b.sent from congrArg Post.sent hp]
    exact hb
  cases postStep_perform hw op with
  | stay _ _ hp | pass _ hp | deliver _ _ _ hp | begin _ _ hp => exact hpost hp List.prefix_rfl
  | add _ _ hp | tell _ _ _ hp => exact hpost hp (sent_prefix_announce c _)
  | send _ _ _ hp => exact hpost hp (List.prefix_append _ _)

/-! ## One operation at most -/

section Doing

variable {o : Option Operation}

theorem Attended.doing (h : c.Attended) (o : Option Operation) : (c.doing o).Attended := by
  cases o with
  | none => exact h
  | some op => exact h.perform op

theorem sent_prefix_doing (hw : c.WorkedOff) (o : Option Operation) :
    c.sent <+: (c.doing o).sent := by
  cases o with
  | none => exact List.prefix_rfl
  | some op => exact sent_prefix_perform hw op

theorem clock_doing (hw : c.WorkedOff) (o : Option Operation) : (c.doing o).clock = c.clock := by
  cases o with
  | none => rfl
  | some op => exact clock_perform hw op

theorem Hushed.doing (h : c.Hushed) (hw : c.WorkedOff)
    (ho : ∀ op, o = some op → op.isPlain = true) : (c.doing o).Hushed := by
  cases o with
  | none => exact h
  | some op => exact h.perform hw (Operation.hook_of_isPlain (ho op rfl))

theorem Paced.doing (h : c.Paced limit seen answers) (hw : c.WorkedOff)
    (hc : c.clock = .running) (ho : ∀ op, o = some op → op.isPlain = true)
    (ha : answers' + (o.elim [] c.puts).length ≤ answers) :
    (c.doing o).Paced limit seen answers' := by
  cases o with
  | none => exact h.mono ha
  | some op =>
      exact h.perform hw hc (Operation.isRoutine_of_isPlain (ho op rfl))
        (Operation.ne_pass_of_isPlain (ho op rfl)) ha

theorem settings_doing (ho : ∀ op, o = some op → op.isPlain = true) :
    (c.doing o).settings = c.settings := by
  cases o with
  | none => rfl
  | some op => exact settings_perform (Operation.isRoutine_of_isPlain (ho op rfl))

theorem Mailed.doing (h : c.Mailed presented) (hw : c.WorkedOff) :
    (c.doing o).Mailed (presented ++ o.elim [] c.presents) := by
  cases o with
  | none => exact (List.append_nil presented).symm ▸ h
  | some op => exact h.perform hw op

theorem Dated.doing (h : c.Dated presented) (hw : c.WorkedOff)
    (ho : ∀ op, o = some op → op.isPlain = true) :
    (c.doing o).Dated (presented ++ o.elim [] c.presents) := by
  cases o with
  | none => exact (List.append_nil presented).symm ▸ h
  | some op =>
      exact h.perform hw (Operation.isRoutine_of_isPlain (ho op rfl))
        (Operation.ne_pass_of_isPlain (ho op rfl))

theorem Listed.doing (h : c.Listed presented) (ho : ∀ op, o = some op → op.isPlain = true)
    (hclear : o ≠ some .clear) : (c.doing o).Listed (presented ++ o.elim [] c.presents) := by
  cases o with
  | none => exact (List.append_nil presented).symm ▸ h
  | some op =>
      exact h.perform (Operation.isRoutine_of_isPlain (ho op rfl))
        (Operation.isTidy_of_isPlain (ho op rfl)) fun he => hclear (congrArg some he)

end Doing

/-! ## When nobody is ready -/

theorem exists_resumes_of_noticeReady {n : Nat} (h : c.noticeReady n = true) :
    ∃ due, c.resumes? (.notice n) = some due ∧ due ≤ c.now := by
  unfold noticeReady at h
  split at h
  · next hn => exact ⟨0, by rw [resumes?, hn]; rfl, Nat.zero_le _⟩
  · next due hn => exact ⟨due, by rw [resumes?, hn]; rfl, of_decide_eq_true h⟩
  · cases h

/-- When no pump can go on, everything was told of. -/
theorem untold_eq_nil (h : ∀ n, c.resumes? (.pump n) ≠ some 0) : c.untold = [] := by
  refine List.filterMap_eq_nil_iff.mpr fun p hp => ?_
  obtain ⟨n, hn⟩ := List.getElem?_of_mem hp
  obtain ⟨g, stage⟩ := p
  cases stage with
  | through w news =>
      refine absurd ?_ (h n)
      rw [resumes?, hn]
      rfl
  | taken | typing | calling | ended => rfl

/-- A notice that is to be sent later. -/
theorem exists_resumes_of_mem_dues (h : ∀ n, c.noticeReady n = false) {due : Nat}
    (hdue : due ∈ c.post.dues) : ∃ n, c.resumes? (.notice n) = some due := by
  obtain ⟨x, hx, hxd⟩ := List.mem_filterMap.mp hdue
  obtain ⟨n, hn⟩ := List.getElem?_of_mem hx
  refine ⟨n, ?_⟩
  have hn : c.notices[n]? = some x := hn
  rw [resumes?, hn]
  cases x with
  | fresh m delay => exact absurd (ready_of_fresh hn) (by rw [h n]; exact Bool.false_ne_true)
  | pending | sent => exact hxd

end Conversation

end Dialogue
