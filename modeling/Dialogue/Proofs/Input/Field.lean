import Dialogue.Proofs.Queue.Alike
import Dialogue.Proofs.Queue.Steps
/-!
# When the input field stands open

A wait opens the input field by a function in the queue, and closes it when it gets its value. A
wait that ends otherwise leaves the field as it is: this does no harm as long as somebody else can
still get a value, but `clear` interrupts all of them.

* `enabled_perform` — which operations open the field, and which close it.
* `Guarded.perform` — while the field is open, some wait can still get a value; only clearing takes
  this away.
* `field_left_open_iff` — so the field stands open with nobody waiting just after a clearing that
  found it open, until a value is received.
-/

namespace Dialogue.Conversation

variable {c c' : Conversation} {n t r : Nat} {stage : WaitStage}

/-! ## Opening and closing -/

/-- Does a pump call the function that opens the field? -/
def opens (c : Conversation) : Operation → Bool
  | .stepPump n =>
    match c.pumps[n]? with
    | some ⟨_, .taken (.call _ .openInput)⟩ => true
    | _ => false
  | _ => false

/-- The value that a wait receives. -/
def receives (c : Conversation) : Operation → List Json
  | .stepWait n =>
    match c.waitStage n with
    | .listening r =>
      match c.slot.receiver r with
      | .holding v => [v]
      | _ => []
    | _ => []
  | _ => []

theorem input_push (hw : c.WorkedOff) (i : Item) : (c.push i).input = c.input := by
  cases hp : c.pumping with
  | true => rw [push_of_pumping hp]
  | false =>
      rw [push_of_idle hp (hw.queue_nil hp)]
      rfl

theorem input_addLead (hw : c.WorkedOff) (lead : Option String) :
    (c.addLead lead).input = c.input := by
  cases lead with
  | none => rfl
  | some text => exact input_push hw _

theorem input_call (hw : c.WorkedOff) (owner : Nat) (job : Job) :
    (c.call owner job).input = c.input := by
  have ht : ({ c with tickets := c.tickets ++ [⟨owner, .waiting⟩] } : Conversation).WorkedOff :=
    hw.of_dispatch rfl
  exact input_push ht _

theorem input_listen (c : Conversation) (n : Nat) : (c.listen n).input = c.input := by
  unfold listen
  split <;> rfl

theorem input_nextItem (c : Conversation) (n g : Nat) : (c.nextItem n g).input = c.input := by
  by_cases hg : c.generation = g
  · subst hg
    rcases hq : c.queue with _ | ⟨i, rest⟩
    · rw [nextItem_nil hq]
      rfl
    · rw [nextItem_cons hq]
      rfl
  · rw [nextItem_of_ne hg]
    rfl

theorem enabled_stepPump (c : Conversation) (n : Nat) :
    (c.stepPump n).input.enabled = (c.opens (.stepPump n) || c.input.enabled) := by
  unfold stepPump opens
  dsimp only
  rcases hn : c.pumps[n]? with _ | ⟨g, stage⟩
  · rfl
  · cases stage with
    | ended => rfl
    | taken w =>
        cases w with
        | message d placeholder => rfl
        | call ticket job => cases job <;> rfl
    | typing d placeholder due =>
        dsimp only
        split
        · unfold finishTyping
          split <;> rfl
        · rfl
    | calling ticket job due =>
        dsimp only
        split <;> rfl
    | through w news =>
        dsimp only
        rw [input_nextItem]
        cases news <;> rfl

theorem enabled_stepWait (c : Conversation) (n : Nat) : (c.stepWait n).input.enabled =
    (c.input.enabled && (c.receives (.stepWait n)).isEmpty) := by
  unfold stepWait receives
  dsimp only
  cases c.waitStage n with
  | opening t =>
      dsimp only
      split
      · rw [input_listen, List.isEmpty_nil, Bool.and_true]
      · exact (Bool.and_true _).symm
      · exact (Bool.and_true _).symm
  | listening r =>
      unfold InputSlot.take
      dsimp only
      cases c.slot.receiver r with
      | holding v => exact (Bool.and_false _).symm
      | waiting | closed | dropped => exact (Bool.and_true _).symm
  | ended | dropped => exact (Bool.and_true _).symm

theorem input_dropWait (c : Conversation) (n : Nat) : (c.dropWait n).input = c.input := by
  unfold dropWait
  split <;> rfl

/-- The field is opened by the function of a wait and closed by a value. -/
theorem enabled_perform (hw : c.WorkedOff) (op : Operation) : (c.perform op).input.enabled =
    (c.opens op || (c.input.enabled && (c.receives op).isEmpty)) := by
  have hstay : ∀ a : Conversation, a.input.enabled = c.input.enabled →
      a.input.enabled = (false || (c.input.enabled && true)) := by
    intro a ha
    rw [ha, Bool.and_true, Bool.false_or]
  have hsame : ∀ a : Conversation, a.input = c.input →
      a.input.enabled = (false || (c.input.enabled && true)) := fun a ha =>
    hstay a (congrArg InputState.enabled ha)
  cases op with
  | queue p hook => exact hsame _ (input_push hw _)
  | queueFrom text => exact hsame _ (input_push hw _)
  | addOptions lead items selected multi =>
      exact hsame _ ((input_push (hw.addLead lead) _).trans (input_addLead hw lead))
  | addUploader lead options =>
      exact hsame _ ((input_push (hw.addLead lead) _).trans (input_addLead hw lead))
  | call owner job => exact hsame _ (input_call hw owner job)
  | beginWait owner enable =>
      cases enable with
      | true =>
          have hwait : ({ c with
              waits := c.waits ++ [⟨owner, true, .opening c.tickets.length⟩] } :
              Conversation).WorkedOff := hw.of_dispatch rfl
          exact hsame _ (input_call hwait owner .openInput)
      | false => exact hsame _ (input_listen _ _)
  | stepPump n =>
      show (c.stepPump n).input.enabled = (_ || (c.input.enabled && true))
      rw [enabled_stepPump, Bool.and_true]
  | stepWait n =>
      show (c.stepWait n).input.enabled = (false || _)
      rw [enabled_stepWait, Bool.false_or]
  | stepNotice n =>
      obtain ⟨_, _, _, heq⟩ := stepNotice_eq c n
      exact hsame _ (by rw [perform, heq])
  | dropWait n => exact hsame _ (input_dropWait c n)
  | clear =>
      obtain ⟨signals, heq⟩ := clear_eq c
      exact hsame _ (by rw [perform, heq])
  | dropCall ticket =>
      refine hsame _ ?_
      rw [perform]
      split <;> rfl
  | add | replace | addFrom | report | setSettings | setTimeout | setFixme | setValidator
  | setInput | useFixme | pass => exact hstay _ rfl

/-! ## The rest of the field -/

theorem input_clear (c : Conversation) : c.clear.input = c.input := by
  obtain ⟨signals, heq⟩ := clear_eq c
  rw [heq]

theorem input_stepPump (c : Conversation) (n : Nat) :
    (c.stepPump n).input = { c.input with enabled := (c.stepPump n).input.enabled } := by
  unfold stepPump
  rcases hn : c.pumps[n]? with _ | ⟨g, stage⟩
  · rfl
  · cases stage with
    | ended => rfl
    | taken w =>
        cases w with
        | message d placeholder => rfl
        | call ticket job => cases job <;> rfl
    | typing d placeholder due =>
        dsimp only
        split
        · unfold finishTyping
          split <;> rfl
        · rfl
    | calling ticket job due =>
        dsimp only
        split <;> rfl
    | through w news =>
        dsimp only
        rw [input_nextItem]
        cases news <;> rfl

theorem input_stepWait (c : Conversation) (n : Nat) :
    (c.stepWait n).input = { c.input with enabled := (c.stepWait n).input.enabled } := by
  have hstep := waitStep_stepWait c n
  generalize c.stepWait n = c' at hstep ⊢
  cases hstep with
  | listen => rw [input_listen]
  | stay | lose | miss | receive => rfl

/-- Most operations change nothing of the field but whether it is open. -/
theorem input_perform (hw : c.WorkedOff) {op : Operation} (hset : ∀ change, op ≠ .setInput change)
    (hadd : ∀ text, op ≠ .addFrom text) :
    (c.perform op).input = { c.input with enabled := (c.perform op).input.enabled } := by
  have hsame : ∀ {a : Conversation}, a.input = c.input →
      a.input = { c.input with enabled := a.input.enabled } := by
    intro a ha
    rw [ha]
  cases op with
  | queue p hook => exact hsame (input_push hw _)
  | queueFrom text => exact hsame (input_push hw _)
  | addOptions lead items selected multi =>
      exact hsame ((input_push (hw.addLead lead) _).trans (input_addLead hw lead))
  | addUploader lead options =>
      exact hsame ((input_push (hw.addLead lead) _).trans (input_addLead hw lead))
  | call owner job => exact hsame (input_call hw owner job)
  | beginWait owner enable =>
      cases enable with
      | true =>
          have hwait : ({ c with
              waits := c.waits ++ [⟨owner, true, .opening c.tickets.length⟩] } :
              Conversation).WorkedOff := hw.of_dispatch rfl
          exact hsame (input_call hwait owner .openInput)
      | false => exact hsame (input_listen _ _)
  | stepPump n => exact input_stepPump c n
  | stepWait n => exact input_stepWait c n
  | stepNotice n =>
      obtain ⟨_, _, _, heq⟩ := stepNotice_eq c n
      exact hsame (by rw [perform, heq])
  | dropWait n => exact hsame (input_dropWait c n)
  | clear => exact hsame (input_clear c)
  | dropCall ticket =>
      refine hsame ?_
      rw [perform]
      split <;> rfl
  | addFrom text => exact absurd rfl (hadd text)
  | setInput change => exact absurd rfl (hset change)
  | add | replace | report | setSettings | setTimeout | setFixme | setValidator | useFixme
  | pass => rfl

/-! ## Waits that can still get a value -/

/-- Can a wait still get a value? -/
def canReceive (c : Conversation) (n : Nat) : Bool :=
  match c.waitStage n with
  | .opening t =>
    match c.fate t with
    | .waiting | .answered _ => true
    | .lost | .dropped => false
  | .listening r =>
    match c.slot.receiver r with
    | .waiting | .holding _ => true
    | .closed | .dropped => false
  | .ended _ | .dropped => false

/-- Somebody has gone who waited. -/
def Forsaken (c : Conversation) : Prop := ∃ n, n < c.waits.length ∧ c.waitStage n = .dropped

theorem canReceive_iff : c.canReceive n = true ↔
    (∃ t, c.waitStage n = .opening t ∧ (c.fate t = .waiting ∨ ∃ v, c.fate t = .answered v)) ∨
      ∃ r, c.waitStage n = .listening r ∧
        (c.slot.receiver r = .waiting ∨ ∃ v, c.slot.receiver r = .holding v) := by
  unfold canReceive
  cases hs : c.waitStage n with
  | opening t => cases hf : c.fate t <;> simp [hf]
  | listening r => cases hr : c.slot.receiver r <;> simp [hr]
  | ended | dropped => simp

theorem lt_of_canReceive (h : c.canReceive n = true) : n < c.waits.length := by
  apply lt_of_waitStage rfl
  intro hs
  rw [canReceive, hs] at h
  cases h

/-- Some wait can still get a value. -/
def Heard (c : Conversation) : Prop := ∃ n, c.canReceive n = true

/-- A wait can still get a value if its stage is kept, and its call and its receiver are kept or
answered. -/
theorem canReceive_of_kept (h : c.canReceive n = true) (hs : c'.waitStage n = c.waitStage n)
    (hf : ∀ t, c.waitStage n = .opening t →
      c'.fate t = c.fate t ∨ ∃ v, c'.fate t = .answered v)
    (hr : ∀ r, c.waitStage n = .listening r →
      c'.slot.receiver r = c.slot.receiver r ∨ ∃ v, c'.slot.receiver r = .holding v) :
    c'.canReceive n = true := by
  rw [canReceive_iff, hs]
  rcases canReceive_iff.mp h with ⟨t, ht, hopen⟩ | ⟨r, hlisten, hopen⟩
  · refine .inl ⟨t, ht, ?_⟩
    rcases hf t ht with hkept | hanswered
    · rw [hkept]
      exact hopen
    · exact .inr hanswered
  · refine .inr ⟨r, hlisten, ?_⟩
    rcases hr r hlisten with hkept | hheld
    · rw [hkept]
      exact hopen
    · exact .inr hheld

theorem canReceive_of_desk (e : c'.desk = c.desk) (h : c.canReceive n = true) :
    c'.canReceive n = true := by
  obtain ⟨ht, hw, hs⟩ := Desk.mk.inj e
  refine canReceive_of_kept h (waitStage_of_waits hw n) (fun t _ => .inl (fate_of_tickets ht t))
    fun r _ => .inl ?_
  rw [hs]

theorem fate_answer (c : Conversation) (t' : Nat) (v : Json) (t : Nat) :
    (c.settle t' (.answered v)).fate t = c.fate t ∨
      (c.settle t' (.answered v)).fate t = .answered v := by
  by_cases hw : c.fate t = .waiting
  · by_cases he : t = t'
    · subst he
      exact .inr (fate_settle_self hw)
    · exact .inl (fate_settle_of_ne he)
  · exact .inl (fate_settle_of_ne_waiting hw)

/-- Another wait comes to another stage. -/
theorem canReceive_setWait_of_ne {m : Nat} (h : c.canReceive n = true) (hne : n ≠ m) :
    (c.setWait m stage).canReceive n = true :=
  canReceive_of_kept h (waitStage_setWait_of_ne hne) (fun _ _ => .inl rfl) fun _ _ => .inl rfl

/-- A wait that does not register because somebody else waits leaves that one its chance. -/
theorem heard_listen (h : c.Attended) {m : Nat} (hm : m < c.waits.length)
    (hstage : ∀ r, c.waitStage m ≠ .listening r) : (c.listen m).Heard := by
  cases ha : c.isAwaiting with
  | true =>
      rw [listen_of_awaiting ha]
      obtain ⟨r, hr⟩ := Option.isSome_iff_exists.mp ha
      obtain ⟨k, hk⟩ := h.listening.exists_wait r hr
      have hwaiting := (InputSlot.waiter?_eq_some_iff.mp hr).2
      refine ⟨k, canReceive_setWait_of_ne (canReceive_iff.mpr (.inr ⟨r, hk, .inl hwaiting⟩)) ?_⟩
      exact fun he => hstage r (he ▸ hk)
  | false =>
      rw [listen_of_free ha]
      refine ⟨m, canReceive_iff.mpr (.inr ⟨_, waitStage_setWait_self hm, .inl ?_⟩)⟩
      exact InputSlot.receiver_opened_self

/-- As long as nothing is cleared and nobody goes away, some wait can still get a value until one is
received. -/
theorem heard_stepWait (h : c.Attended) (hn : c.canReceive n = true) (m : Nat) :
    (c.stepWait m).Heard ∨ c.receives (.stepWait m) ≠ [] := by
  have hstep := waitStep_stepWait c m
  generalize c.stepWait m = c' at hstep ⊢
  cases hstep with
  | stay => exact .inl ⟨n, hn⟩
  | @listen t v hs hf =>
      refine .inl (heard_listen h (lt_of_waitStage hs WaitStage.noConfusion) fun r hr => ?_)
      exact WaitStage.noConfusion (hs.symm.trans hr)
  | lose hs hf =>
      -- Its function is lost, so it is not the wait that can get a value.
      refine .inl ⟨n, canReceive_setWait_of_ne hn ?_⟩
      rintro rfl
      rw [canReceive, hs] at hn
      simp [hf] at hn
  | receive hs hr =>
      right
      rw [receives, hs]
      simp [hr]
  | miss hs hr =>
      -- Its receiver was closed, so it is not the wait that can get a value.
      refine .inl ⟨n, canReceive_setWait_of_ne hn ?_⟩
      rintro rfl
      rw [canReceive, hs] at hn
      rcases hr with hr | hr <;> simp [hr] at hn

theorem heard_perform (h : c.Attended) (hh : c.Heard) {op : Operation} (hop : op ≠ .clear) :
    (c.perform op).Forsaken ∨ (c.perform op).Heard ∨ c.receives op ≠ [] := by
  obtain ⟨n, hn⟩ := hh
  have hlt := lt_of_canReceive hn
  have hfate : ∀ t, c.waitStage n = .opening t → t < c.tickets.length := fun t ht =>
    lt_of_fate (h.asking.fate_ne n t ht)
  apply perform_desk_cases
    (P := fun c' => c'.Forsaken ∨ c'.Heard ∨ c.receives op ≠ []) h.worked op
  case frame =>
    intro a b e hb
    rcases hb with ⟨m, hm, hs⟩ | ⟨m, hm⟩ | hr
    · refine .inl ⟨m, ?_, ?_⟩
      · rw [show a.waits = b.waits from congrArg Desk.waits e]
        exact hm
      · rw [waitStage_of_waits (congrArg Desk.waits e), hs]
    · exact .inr (.inl ⟨m, canReceive_of_desk e hm⟩)
    · exact .inr (.inr hr)
  case stay => exact .inr (.inl ⟨n, hn⟩)
  case call =>
    intro owner
    refine .inr (.inl ⟨n, canReceive_of_kept hn rfl (fun t ht => .inl ?_) fun _ _ => .inl rfl⟩)
    exact fate_append_of_lt rfl (hfate t ht)
  case answer =>
    intro _ t v _
    refine .inr (.inl ⟨n, canReceive_of_kept hn rfl (fun t' _ => ?_) fun _ _ => .inl rfl⟩)
    exact (fate_answer c t v t').imp_right fun hv => ⟨v, hv⟩
  case forget =>
    intro t hno
    refine .inr (.inl ⟨n, canReceive_of_kept hn rfl (fun t' ht => .inl ?_) fun _ _ => .inl rfl⟩)
    exact fate_dropCall_of_ne fun he => hno n (he ▸ ht)
  case report =>
    intro v _
    refine .inr (.inl ⟨n, canReceive_of_kept hn rfl (fun _ _ => .inl rfl) fun r _ => ?_⟩)
    by_cases hr : c.slot.waiter? = some r
    · exact .inr ⟨v, InputSlot.receiver_release_self hr⟩
    · exact .inl (InputSlot.receiver_release_of_ne hr)
  case clear => exact fun he => absurd he hop
  case ask =>
    intro owner
    refine .inr (.inl ⟨n, canReceive_of_kept hn (waitStage_append_of_lt rfl hlt)
      (fun t ht => .inl ?_) fun _ _ => .inl rfl⟩)
    exact fate_append_of_lt rfl (hfate t ht)
  case listen =>
    intro owner
    have hadded : ({ c with waits := c.waits ++ [⟨owner, false, .dropped⟩] } :
        Conversation).Attended :=
      ⟨h.worked.of_dispatch rfl, h.carried.of_perm rfl (List.Perm.refl _), h.asking.append owner,
        h.listening.append rfl (fun _ => WaitStage.noConfusion) rfl⟩
    refine .inr (.inl (heard_listen hadded ?_ fun r hr => ?_))
    · show c.waits.length < (c.waits ++ [_]).length
      rw [List.length_append, List.length_singleton]
      omega
    · rw [waitStage_append_self rfl] at hr
      cases hr
  case dropWait =>
    intro m _
    unfold dropWait
    split
    case h_1 t hm =>
      have hlt : m < c.waits.length := lt_of_waitStage hm WaitStage.noConfusion
      exact .inl ⟨m, length_waits_setWait.symm ▸ hlt, waitStage_setWait_self hlt⟩
    case h_2 r hm =>
      have hlt : m < c.waits.length := lt_of_waitStage hm WaitStage.noConfusion
      exact .inl ⟨m, length_waits_setWait.symm ▸ hlt, waitStage_setWait_self hlt⟩
    case h_3 => exact .inr (.inl ⟨n, hn⟩)
  case stepWait =>
    rintro m rfl
    exact .inr (heard_stepWait h hn m)

/-! ## Nobody comes back who has gone -/

theorem Forsaken.perform (hf : c.Forsaken) (h : c.Attended) (op : Operation) :
    (c.perform op).Forsaken := by
  obtain ⟨n, hlt, hs⟩ := hf
  refine ⟨n, Nat.lt_of_lt_of_le hlt (length_waits_perform h.worked op), ?_⟩
  cases fared_perform h hlt op with
  | left hl => exact hl
  | stayed hst => exact hst.trans hs
  | stepped hd =>
      have hstay : c.stepWait n = c := by simp only [stepWait, hs]
      rw [hstay] at hd
      exact (waitStage_of_waits (congrArg Desk.waits hd) n).trans hs

theorem Forsaken.after (hf : c.Forsaken) (h : c.Attended) (history : List Operation) :
    (c.after history).Forsaken := by
  induction history generalizing c with
  | nil => exact hf
  | cons op rest ih => exact ih (hf.perform h op) (h.perform op)

/-- What is asked of a history: the host does not open the field, and nobody who waited has gone in
the end. -/
structure Proper (c : Conversation) (history : List Operation) : Prop where
  calls : ∀ owner, .call owner .openInput ∉ history
  stayed : ¬(c.after history).Forsaken

theorem Proper.tail {op : Operation} {rest : List Operation} (hp : c.Proper (op :: rest)) :
    (c.perform op).Proper rest where
  calls owner hmem := hp.calls owner (List.mem_cons_of_mem _ hmem)
  stayed := hp.stayed

theorem Proper.head {op : Operation} {rest : List Operation} (hp : c.Proper (op :: rest))
    (h : c.Attended) :
    (∀ owner, op ≠ .call owner .openInput) ∧ ¬(c.perform op).Forsaken :=
  ⟨fun owner he => hp.calls owner (he ▸ List.mem_cons_self),
    fun hgone => hp.stayed (hgone.after (h.perform op) rest)⟩

/-! ## Whose functions open the field -/

/-- A function that opens the field and has not been called belongs to a wait. -/
def Owned (c : Conversation) : Prop :=
  ∀ t, (t, Job.openInput) ∈ c.jobs → ∃ n, c.waitStage n = .opening t

/-- The call of a function that is carried for a wait is open. -/
theorem fate_of_mem_jobs (h : c.Attended) {job : Job} (hs : c.waitStage n = .opening t)
    (hmem : (t, job) ∈ c.jobs) : c.fate t = .waiting :=
  (h.carried.fate_of_mem t (mem_carried_of_mem_jobs hmem)).resolve_right (h.asking.fate_ne n t hs)

theorem Owned.perform (ho : c.Owned) (h : c.Attended) {op : Operation}
    (hop : ∀ owner, op ≠ .call owner .openInput) (hf : ¬(c.perform op).Forsaken) :
    (c.perform op).Owned := by
  intro t hmem
  rcases mem_jobs_perform h.worked hmem with hold | hnew
  · obtain ⟨n, hs⟩ := ho t hold
    have hlt : n < c.waits.length := lt_of_waitStage hs WaitStage.noConfusion
    refine ⟨n, ?_⟩
    cases fared_perform h hlt op with
    | left hl =>
        exact absurd ⟨n, Nat.lt_of_lt_of_le hlt (length_waits_perform h.worked op), hl⟩ hf
    | stayed hst => exact hst.trans hs
    | stepped hd =>
        -- Nothing has come for the wait, so its step changes nothing.
        have hstay : c.stepWait n = c := by
          simp only [stepWait, hs, callResult?, fate_of_mem_jobs h hs hold]
        rw [hstay] at hd
        exact (waitStage_of_waits (congrArg Desk.waits hd) n).trans hs
  · -- Only a wait queues such a function.
    cases op with
    | call owner job =>
        cases List.mem_singleton.mp hnew
        exact absurd rfl (hop owner)
    | beginWait owner enable =>
        cases enable with
        | true =>
            cases List.mem_singleton.mp hnew
            have hwaits : (c.perform (.beginWait owner true)).waits =
                c.waits ++ [⟨owner, true, .opening c.tickets.length⟩] :=
              congrArg Desk.waits (desk_beginWait h.worked owner)
            exact ⟨c.waits.length, waitStage_append_self hwaits⟩
        | false => cases hnew
    | addOptions lead | addUploader lead => cases lead <;> cases hnew
    | _ => cases hnew

theorem Owned.after (ho : c.Owned) (h : c.Attended) {history : List Operation}
    (hp : c.Proper history) : (c.after history).Owned := by
  induction history generalizing c with
  | nil => exact ho
  | cons op rest ih =>
      obtain ⟨hop, hf⟩ := hp.head h
      exact ih (ho.perform h hop hf) (h.perform op) hp.tail

/-- A wait whose function has just opened the field gets the value of that function. -/
theorem heard_of_opens (h : c.Attended) (ho : c.Owned) {op : Operation}
    (hop : c.opens op = true) : (c.perform op).Heard := by
  cases op with
  | stepPump n =>
      rw [opens] at hop
      split at hop
      case h_1 g t hn =>
        have hmem : (t, Job.openInput) ∈ c.jobs :=
          mem_jobs_iff.mpr (.inr ⟨_, List.mem_of_getElem? hn, rfl⟩)
        obtain ⟨m, hs⟩ := ho t hmem
        have hstep : c.perform (.stepPump n) = c.beginWork n (.call t .openInput) := by
          show c.stepPump n = _
          rw [stepPump, hn]
        rw [hstep]
        refine ⟨m, canReceive_iff.mpr (.inl ⟨t, hs, .inr ⟨.null, ?_⟩⟩)⟩
        exact fate_settle_self (c := c) (fate_of_mem_jobs h hs hmem)
      case h_2 => cases hop
  | _ => cases hop

/-! ## An open field is guarded -/

/-- While the field is open, some wait can still get a value. -/
def Guarded (c : Conversation) : Prop := c.input.enabled = true → c.Heard

theorem enabled_of_receives (hw : c.WorkedOff) {op : Operation} (hr : c.receives op ≠ []) :
    (c.perform op).input.enabled = false := by
  have hopens : c.opens op = false := by
    cases op with
    | stepWait n => rfl
    | _ => exact absurd rfl hr
  rw [enabled_perform hw, hopens, Bool.false_or, Bool.and_eq_false_iff]
  right
  simpa using hr

theorem Guarded.perform (hg : c.Guarded) (ho : c.Owned) (h : c.Attended) {op : Operation}
    (hop : op ≠ .clear) (hf : ¬(c.perform op).Forsaken) : (c.perform op).Guarded := by
  intro henabled
  by_cases hopens : c.opens op = true
  · exact heard_of_opens h ho hopens
  · -- The field was open before, and no value was received.
    have hboth := henabled
    rw [enabled_perform h.worked, Bool.or_eq_true, Bool.and_eq_true] at hboth
    obtain ⟨hbefore, -⟩ := hboth.resolve_left hopens
    rcases heard_perform h (hg hbefore) hop with hgone | hheard | hr
    · exact absurd hgone hf
    · exact hheard
    · exact absurd (henabled.symm.trans (enabled_of_receives h.worked hr)) (by decide)

theorem Guarded.after (hg : c.Guarded) (ho : c.Owned) (h : c.Attended)
    {history : List Operation} (hp : c.Proper history) (hclear : .clear ∉ history) :
    (c.after history).Guarded := by
  induction history generalizing c with
  | nil => exact hg
  | cons op rest ih =>
      obtain ⟨hop, hf⟩ := hp.head h
      rw [List.mem_cons, not_or] at hclear
      exact ih (hg.perform ho h (Ne.symm hclear.1) hf) (ho.perform h hop hf) (h.perform op) hp.tail
        hclear.2

/-- A value that is received closes the field, so it is guarded from then on. -/
theorem guarded_of_received (ho : c.Owned) (h : c.Attended) {history : List Operation}
    (hp : c.Proper history) (hclear : .clear ∉ history)
    (hr : c.gathered receives history ≠ []) : (c.after history).Guarded := by
  induction history generalizing c with
  | nil => exact absurd rfl hr
  | cons op rest ih =>
      obtain ⟨hop, hf⟩ := hp.head h
      rw [List.mem_cons, not_or] at hclear
      have ho' := ho.perform h hop hf
      by_cases hnow : c.receives op = []
      · rw [gathered, hnow, List.nil_append] at hr
        exact ih ho' (h.perform op) hp.tail hclear.2 hr
      · have hclosed := enabled_of_receives h.worked hnow
        have hg : (c.perform op).Guarded := fun henabled =>
          absurd (henabled.symm.trans hclosed) (by decide)
        exact hg.after ho' (h.perform op) hp.tail hclear.2

/-- A field that is open stays so until a value is received. -/
theorem enabled_after (hw : c.WorkedOff) (henabled : c.input.enabled = true)
    {history : List Operation} (hr : c.gathered receives history = []) :
    (c.after history).input.enabled = true := by
  induction history generalizing c with
  | nil => exact henabled
  | cons op rest ih =>
      rw [gathered, List.append_eq_nil_iff] at hr
      refine ih (hw.perform op) ?_ hr.2
      rw [enabled_perform hw, henabled, hr.1]
      exact Bool.or_true _

/-! ## Histories -/

theorem after_append (c : Conversation) (before after : List Operation) :
    c.after (before ++ after) = (c.after before).after after := List.foldl_append

theorem Proper.split {before after : List Operation} (hp : c.Proper (before ++ after))
    (h : c.Attended) : c.Proper before ∧ (c.after before).Proper after := by
  have hf : ¬((c.after before).after after).Forsaken := after_append c before after ▸ hp.stayed
  refine ⟨⟨fun owner hmem => hp.calls owner (List.mem_append_left _ hmem), fun hgone => ?_⟩,
    ⟨fun owner hmem => hp.calls owner (List.mem_append_right _ hmem), hf⟩⟩
  exact hf (hgone.after (h.after before) after)

/-- The last time at which something was cleared. -/
theorem exists_last_clear {history : List Operation} (h : .clear ∈ history) :
    ∃ before after, history = before ++ .clear :: after ∧ .clear ∉ after := by
  obtain ⟨after, before, heq, hnot⟩ := List.eq_append_cons_of_mem (List.mem_reverse.mpr h)
  refine ⟨before.reverse, after.reverse, ?_, by simpa using hnot⟩
  rw [← List.reverse_reverse history, heq]
  simp

/-- When all waits have ended, the field stands open just if somebody has cleared the conversation
while it was open, at a time after which nobody who waited could get a value, and if no value has
been received since. -/
theorem field_left_open_iff (settings : Settings) (clock : Clock) (history : List Operation)
    (hcalls : ∀ owner, .call owner .openInput ∉ history)
    (hended : ∀ w ∈ ((start settings clock).after history).waits,
      ∃ result, w.stage = .ended result) :
    ((start settings clock).after history).input.enabled = true ↔
      ∃ before after, history = before ++ .clear :: after ∧
        let c := (start settings clock).after before
        c.input.enabled = true ∧ (∀ n, c.clear.canReceive n = false) ∧
          c.clear.gathered receives after = [] := by
  have h : (start settings clock).Attended := attended_start settings clock
  have ho : (start settings clock).Owned := fun t hmem => by cases hmem
  have hg : (start settings clock).Guarded := fun henabled => by cases henabled
  have hstage : ∀ n, n < ((start settings clock).after history).waits.length →
      ∃ result, ((start settings clock).after history).waitStage n = .ended result := by
    intro n hlt
    obtain ⟨result, hresult⟩ := hended _ (List.getElem_mem hlt)
    refine ⟨result, ?_⟩
    rw [waitStage, List.getElem?_eq_getElem hlt]
    exact hresult
  have hp : (start settings clock).Proper history := by
    refine ⟨hcalls, fun hgone => ?_⟩
    obtain ⟨n, hlt, hdropped⟩ := hgone
    obtain ⟨result, hresult⟩ := hstage n hlt
    exact WaitStage.noConfusion (hresult.symm.trans hdropped)
  -- Nobody can get a value any more, so an open field is not guarded.
  have hquiet : ((start settings clock).after history).input.enabled = true →
      ¬((start settings clock).after history).Guarded := by
    intro henabled hguarded
    obtain ⟨n, hn⟩ := hguarded henabled
    obtain ⟨result, hresult⟩ := hstage n (lt_of_canReceive hn)
    rw [canReceive, hresult] at hn
    cases hn
  constructor
  · intro henabled
    have hclear : .clear ∈ history := by
      by_contra hclear
      exact hquiet henabled (hg.after ho h hp hclear)
    obtain ⟨before, after, rfl, hnot⟩ := exists_last_clear hclear
    obtain ⟨hpb, hpa⟩ := hp.split h
    have hb := h.after before
    have hob := ho.after h hpb
    obtain ⟨hop, hf⟩ := hpa.head hb
    have hoc := hob.perform hb hop hf
    rw [after_append] at hquiet henabled
    refine ⟨before, after, rfl, ?_⟩
    intro c
    have hunguarded : ¬c.clear.Guarded := fun hguarded =>
      hquiet henabled (hguarded.after hoc (hb.perform .clear) hpa.tail hnot)
    rw [Guarded, Classical.not_imp, input_clear] at hunguarded
    refine ⟨hunguarded.1, fun n => ?_, ?_⟩
    · rw [← Bool.not_eq_true]
      exact fun hn => hunguarded.2 ⟨n, hn⟩
    · by_contra hr
      exact hquiet henabled (guarded_of_received hoc (hb.perform .clear) hpa.tail hnot hr)
  · rintro ⟨before, after, rfl, henabled, -, hr⟩
    rw [after_append]
    have hw : ((start settings clock).after before).WorkedOff := (h.after before).worked
    exact enabled_after hw.clear (by rw [input_clear]; exact henabled) hr

/-- A field that was open when everything was cleared is closed by the next wait that receives a
value. -/
theorem field_left_open_iff_next_wait :
    let history := [.beginWait 0 true, .stepPump 0, .stepWait 0, .clear, .stepWait 0,
      .beginWait 0 true, .stepPump 1, .stepWait 1, .report (.string "now"), .stepWait 1]
    ((start .standard .stepped).after history).input.enabled = false ∧
      ¬∃ before after, history = before ++ .clear :: after ∧
        let c := (start .standard .stepped).after before
        c.input.enabled = true ∧ (∀ n, c.clear.canReceive n = false) ∧
          c.clear.gathered receives after = [] := by
  intro history
  have henabled : ((start .standard .stepped).after history).input.enabled = false := rfl
  refine ⟨henabled, fun hopen => ?_⟩
  have hiff := field_left_open_iff .standard .stepped history (fun owner => by simp [history])
    (fun w hw => by
      have hwaits : ((start .standard .stepped).after history).waits =
          [⟨0, true, .ended (.error .interrupted)⟩, ⟨0, true, .ended (.ok (.string "now"))⟩] := rfl
      rw [hwaits] at hw
      rcases List.mem_cons.mp hw with rfl | hw
      · exact ⟨_, rfl⟩
      · rw [List.mem_singleton.mp hw]
        exact ⟨_, rfl⟩)
  exact absurd (henabled.symm.trans (hiff.mpr hopen)) (by decide)

/-- A wait that has opened the field and is interrupted by clearing leaves it open. -/
theorem field_left_open_by_clear :
    let c := (start .standard .stepped).after
      [.beginWait 0 true, .stepPump 0, .stepWait 0, .clear, .stepWait 0]
    c.waits.map Wait.stage = [.ended (.error .interrupted)] ∧ c.isAwaiting = false ∧
      c.input.enabled = true :=
  ⟨rfl, rfl, rfl⟩

end Dialogue.Conversation
