import Dialogue.Proofs.Input.Answers
import Dialogue.Proofs.Input.SingleSlot
import Dialogue.Proofs.Queue.Cleared
/-!
# What a wait that is refused leaves behind

A wait that finds the slot taken is refused. This does nothing to the one who waits already. But a
wait that opens the field does so by its function in the queue, which is called before the wait
registers: if the field was closed then, it stays open, as if somebody else had opened it.

* `slot_of_refused` — refusing a wait changes nothing of the slot, and somebody else holds it.
* `input_perform_eq` — what each operation does to the field.
* `Compared.perform` — the field is compared with what it would be without the function of one wait.
* `refused_wait_changes_nothing_iff` — so a wait that was refused has left the field as it would
  have been, unless its function has opened it and nobody has opened or closed it since.
-/

namespace Dialogue

/-- Does an operation that changes the field not look at whether it is open? -/
def Operation.IsBlind : Operation → Prop
  | .setInput change => ∀ s e, { change { s with enabled := e } with enabled := e } =
      { change s with enabled := e }
  | _ => True

namespace Conversation

variable {c c' : Conversation} {m n : Nat} {op : Operation} {history : List Operation}
  {field : InputState}

/-! ## The one who waits already -/

/-- Is a wait refused? -/
def Refused (c : Conversation) (n : Nat) : Prop :=
  c.waitStage n = .ended (.error .inputAlreadyPending)

/-- What holds of an operation by which a wait is refused. -/
structure Refuses (c c' : Conversation) (n : Nat) : Prop where
  slot_eq : c'.slot = c.slot
  awaiting : c.isAwaiting = true
  others : ∀ k, k ≠ n → k < c.waits.length → c'.waitStage k = c.waitStage k
  unheld : ∀ r, c.waitStage n ≠ .listening r

theorem Refuses.of_desk {c'' : Conversation} (h : Refuses c c' n) (e : c''.desk = c'.desk) :
    Refuses c c'' n where
  slot_eq := (congrArg Desk.slot e).trans h.slot_eq
  awaiting := h.awaiting
  others k hk hlt := (waitStage_of_waits (congrArg Desk.waits e) k).trans (h.others k hk hlt)
  unheld := h.unheld

theorem refuses_listen (hm : m < c.waits.length) (hs : ∀ r, c.waitStage m ≠ .listening r)
    (hbefore : ¬c.Refused n) (hafter : (c.listen m).Refused n) : Refuses c (c.listen m) n := by
  cases ha : c.isAwaiting with
  | true =>
      rw [listen_of_awaiting ha] at hafter ⊢
      rcases setWait_cases hafter WaitStage.noConfusion with ⟨rfl, -⟩ | ⟨-, hold⟩
      · exact ⟨rfl, ha, fun k hk _ => waitStage_setWait_of_ne hk, hs⟩
      · exact absurd hold hbefore
  | false =>
      rw [listen_of_free ha] at hafter
      rcases setWait_cases hafter WaitStage.noConfusion with ⟨-, hl⟩ | ⟨-, hold⟩
      · cases hl
      · exact absurd hold hbefore

theorem refuses_perform (hw : c.WorkedOff) (hbefore : ¬c.Refused n) (op : Operation)
    (hafter : (c.perform op).Refused n) : Refuses c (c.perform op) n := by
  revert hafter
  have hkept : ∀ a : Conversation, a.waits = c.waits → a.Refused n → Refuses c a n :=
    fun a ha h => absurd ((waitStage_of_waits ha n).symm.trans h) hbefore
  apply perform_cases (P := fun c' => c'.Refused n → Refuses c c' n) hw
  case frame =>
    intro a b e ih h
    exact (ih ((waitStage_of_waits (congrArg Desk.waits e) n).symm.trans h)).of_desk e
  case stay => exact hkept c rfl
  case call => exact fun _ => hkept _ rfl
  case answer => exact fun _ _ => hkept _ rfl
  case forget => exact fun _ _ => hkept _ rfl
  case report => exact fun _ => hkept _ rfl
  case clear => exact hkept _ (waits_loseCalls _ _)
  case ask =>
    intro owner h
    rcases append_cases (w := ⟨owner, true, .opening c.tickets.length⟩) rfl h
      WaitStage.noConfusion with ⟨-, hs⟩ | hold
    · cases hs
    · exact absurd hold hbefore
  case listen =>
    intro owner h
    -- The wait is begun and registers at once.
    have hlt : c.waits.length < (c.waits ++ [Wait.mk owner false .dropped]).length := by simp
    have hnew : ({ c with waits := c.waits ++ [⟨owner, false, .dropped⟩] } :
        Conversation).waitStage c.waits.length = .dropped :=
      waitStage_append_self (w := ⟨owner, false, .dropped⟩) rfl
    have hr := refuses_listen (c := { c with waits := c.waits ++ [⟨owner, false, .dropped⟩] }) hlt
      (fun r hr => WaitStage.noConfusion (hnew.symm.trans hr)) ?_ h
    · refine ⟨hr.slot_eq, hr.awaiting, fun k hk hlt' => ?_, fun r hs => hr.unheld r ?_⟩
      · refine (hr.others k hk ?_).trans (waitStage_append_of_lt rfl hlt')
        exact Nat.lt_of_lt_of_le hlt' (by simp)
      · have hn := lt_of_waitStage hs WaitStage.noConfusion
        exact (waitStage_append_of_lt rfl hn).trans hs
    · intro hold
      rcases append_cases (w := ⟨owner, false, .dropped⟩) rfl hold WaitStage.noConfusion with
        ⟨-, hs⟩ | hold
      · cases hs
      · exact hbefore hold
  case dropWait =>
    intro k h
    refine absurd ?_ hbefore
    unfold dropWait at h
    split at h
    · rcases setWait_cases h WaitStage.noConfusion with ⟨-, hs⟩ | ⟨-, hold⟩
      · cases hs
      · exact hold
    · rcases setWait_cases h WaitStage.noConfusion with ⟨-, hs⟩ | ⟨-, hold⟩
      · cases hs
      · exact hold
    · exact h
  case stepWait =>
    intro k h
    have hstep := waitStep_stepWait c k
    generalize c.stepWait k = c' at hstep h ⊢
    cases hstep with
    | stay => exact absurd h hbefore
    | listen hs hf =>
        refine refuses_listen (lt_of_waitStage hs WaitStage.noConfusion) (fun r hr => ?_) hbefore h
        exact WaitStage.noConfusion (hs.symm.trans hr)
    | lose | miss | receive =>
        rcases setWait_cases h WaitStage.noConfusion with ⟨-, hs⟩ | ⟨-, hold⟩
        · cases hs
        · exact absurd hold hbefore

/-- Refusing a wait changes nothing of the slot. Another wait holds it, before and after. -/
theorem slot_of_refused (h : c.Attended) (hbefore : ¬c.Refused n)
    (hafter : (c.perform op).Refused n) : (c.perform op).slot = c.slot ∧
      ∃ m, m ≠ n ∧ c.holdsSlot m = true ∧ (c.perform op).holdsSlot m = true := by
  have hr := refuses_perform h.worked hbefore op hafter
  obtain ⟨m, hm⟩ := exists_holdsSlot h hr.awaiting
  obtain ⟨r, hs, hwaiter⟩ := holdsSlot_iff.mp hm
  have hne : m ≠ n := by
    rintro rfl
    exact hr.unheld r hs
  refine ⟨hr.slot_eq, m, hne, hm, holdsSlot_iff.mpr ⟨r, ?_, ?_⟩⟩
  · exact (hr.others m hne (lt_of_holdsSlot hm)).trans hs
  · rw [hr.slot_eq]
    exact hwaiter

/-! ## What operations do to the field -/

/-- What an operation does to the field: it changes or resets it, and opens or closes it. -/
def fieldAfter (c : Conversation) (op : Operation) (field : InputState) : InputState :=
  let changed := match op with
    | .setInput change => change field
    | .addFrom _ => field.resetPrompt
    | _ => field
  { changed with enabled := c.opens op || (field.enabled && (c.receives op).isEmpty) }

theorem input_perform_eq (hw : c.WorkedOff) (op : Operation) :
    (c.perform op).input = c.fieldAfter op c.input := by
  have henabled := enabled_perform hw op
  by_cases hset : ∃ change, op = .setInput change
  · obtain ⟨change, rfl⟩ := hset
    rw [fieldAfter, ← henabled]
    rfl
  by_cases hadd : ∃ text, op = .addFrom text
  · obtain ⟨text, rfl⟩ := hadd
    rw [fieldAfter, ← henabled]
    rfl
  · have hchanged : c.fieldAfter op c.input = { c.input with
        enabled := c.opens op || (c.input.enabled && (c.receives op).isEmpty) } := by
      unfold fieldAfter
      split
      · exact absurd ⟨_, rfl⟩ hset
      · exact absurd ⟨_, rfl⟩ hadd
      · rfl
    rw [hchanged, ← henabled]
    exact input_perform hw (fun change h => hset ⟨change, h⟩) fun text h => hadd ⟨text, h⟩

/-! ## The field without one wait -/

/-- Is the function called by which the given wait opens the field? -/
def callsFor (c : Conversation) (n : Nat) (op : Operation) : Bool :=
  match c.waitStage n with
  | .opening t => (c.starts op).contains t
  | _ => false

/-- What the field would be if the function of one wait were not called: all else is done to it that
the operations of a history do. -/
def fieldWithout (n : Nat) (c : Conversation) (field : InputState) : List Operation → InputState
  | [] => field
  | op :: rest =>
    fieldWithout n (c.perform op) (if c.callsFor n op then field else c.fieldAfter op field) rest

/-- Does an operation open or close the field otherwise than by the function of the given wait? -/
def switches (n : Nat) (c : Conversation) (op : Operation) : Bool :=
  (c.opens op && !c.callsFor n op) || !(c.receives op).isEmpty

/-- The function of a wait has found the field closed and opened it, and nobody has opened or closed
it since. -/
def LeftOpen (n : Nat) (c : Conversation) (history : List Operation) : Prop :=
  ∃ earlier op later, history = earlier ++ op :: later ∧
    (c.after earlier).input.enabled = false ∧ (c.after earlier).callsFor n op = true ∧
    ∀ between op' rest, later = between ++ op' :: rest →
      (((c.after earlier).perform op).after between).switches n op' = false

/-- The field, compared with what it would be without the function of a wait: they differ only in
that the function has left the field open, if it has. -/
structure Compared (c : Conversation) (left : Prop) (field : InputState) : Prop where
  rest : c.input = { field with enabled := c.input.enabled }
  opened : left → c.input.enabled = true ∧ field.enabled = false
  same : ¬left → field.enabled = c.input.enabled

theorem Compared.input_eq_iff {left : Prop} (h : c.Compared left field) :
    c.input = field ↔ ¬left := by
  constructor
  · intro he hleft
    obtain ⟨ho, hf⟩ := h.opened hleft
    rw [he, hf] at ho
    cases ho
  · intro hleft
    rw [h.rest, ← h.same hleft]

/-- The function of a wait opens the field and does nothing else to it. -/
theorem opens_of_callsFor (hp : c.Prompt) (h : c.callsFor n op = true) :
    c.opens op = true ∧ c.receives op = [] ∧ c.switches n op = false ∧
      ∀ field, c.fieldAfter op field = { field with enabled := true } := by
  unfold callsFor at h
  split at h
  case h_2 => cases h
  case h_1 t hs =>
    have ht : t ∈ c.starts op := List.contains_iff_mem.mp h
    cases op with
    | stepPump k =>
        have hopens : c.opens (.stepPump k) = true := by
          rw [starts] at ht
          split at ht
          case h_1 g ticket job hk =>
            obtain rfl := List.mem_singleton.mp ht
            have hmem : (t, job) ∈ c.jobs :=
              mem_jobs_iff.mpr (.inr ⟨_, List.mem_of_getElem? hk, rfl⟩)
            rw [hp.own n t hs job hmem] at hk
            simp only [opens, hk]
          case h_2 => cases ht
        refine ⟨hopens, rfl, ?_, fun field => ?_⟩
        · simp [switches, callsFor, hs, ht, receives]
        · simp only [fieldAfter, hopens, Bool.true_or]
    | _ => cases ht

theorem fieldAfter_of_blind (ho : op.IsBlind) (field : InputState) (e : Bool) :
    c.fieldAfter op { field with enabled := e } = { c.fieldAfter op field with
      enabled := c.opens op || (e && (c.receives op).isEmpty) } := by
  cases op with
  | setInput change =>
      have hchange := congrArg (fun s : InputState =>
        ({ s with enabled := c.opens (.setInput change) || (e && true) } : InputState)) (ho field e)
      exact hchange
  | _ => rfl

theorem Compared.perform {left : Prop} (h : c.Compared left field) (hw : c.WorkedOff)
    (hp : c.Prompt) (ho : op.IsBlind) : (c.perform op).Compared
      (c.switches n op = false ∧
        (left ∨ (c.input.enabled = false ∧ c.callsFor n op = true)))
      (if c.callsFor n op then field else c.fieldAfter op field) := by
  have hinput := input_perform_eq hw op
  cases hcalls : c.callsFor n op with
  | true =>
      obtain ⟨-, -, hswitches, hfield⟩ := opens_of_callsFor hp hcalls
      rw [hfield] at hinput
      simp only [if_true, hswitches, and_true, true_and]
      refine ⟨?_, fun hleft => ?_, fun hnot => ?_⟩
      · rw [hinput, h.rest]
      · rw [hinput]
        refine ⟨rfl, ?_⟩
        by_cases hold : left
        · exact (h.opened hold).2
        · rw [h.same hold]
          exact hleft.resolve_left hold
      · -- The field was open already.
        rw [not_or, Bool.not_eq_false] at hnot
        rw [hinput, h.same hnot.1, hnot.2]
  | false =>
      have hbase : c.input = { field with enabled := c.input.enabled } := h.rest
      have hperform : (c.perform op).input = { c.fieldAfter op field with
          enabled := c.opens op || (c.input.enabled && (c.receives op).isEmpty) } := by
        rw [hinput]
        exact (congrArg (c.fieldAfter op) hbase).trans (fieldAfter_of_blind ho field _)
      have henabled : (c.fieldAfter op field).enabled =
          (c.opens op || (field.enabled && (c.receives op).isEmpty)) := rfl
      have hswitches : c.switches n op = (c.opens op || !(c.receives op).isEmpty) := by
        rw [switches, hcalls, Bool.not_false, Bool.and_true]
      simp only [Bool.false_eq_true, if_false, and_false, or_false]
      refine ⟨?_, fun hleft => ?_, fun hnot => ?_⟩
      · rw [hperform]
      · rw [hswitches, Bool.or_eq_false_iff, Bool.not_eq_false'] at hleft
        obtain ⟨⟨hopens, hreceives⟩, hleft⟩ := hleft
        rw [hperform, henabled, hopens, hreceives, (h.opened hleft).1, (h.opened hleft).2]
        exact ⟨rfl, rfl⟩
      · rw [hperform, henabled]
        by_cases hleft : left
        · -- Somebody opens or closes the field, so what was before does not matter.
          have hswitch : (c.opens op || !(c.receives op).isEmpty) = true := by
            rw [← hswitches]
            simpa [hleft] using hnot
          cases hopens : c.opens op with
          | true => rfl
          | false =>
              rw [hopens, Bool.false_or, Bool.not_eq_true'] at hswitch
              rw [hswitch, Bool.and_false, Bool.and_false]
        · rw [h.same hleft]

/-! ## Histories -/

theorem not_leftOpen_nil : ¬LeftOpen n c [] := by
  rintro ⟨earlier, op, later, he, -⟩
  cases earlier <;> cases he

theorem leftOpen_concat (hp : (c.after history).Prompt) : LeftOpen n c (history ++ [op]) ↔
    (c.after history).switches n op = false ∧ (LeftOpen n c history ∨
      ((c.after history).input.enabled = false ∧ (c.after history).callsFor n op = true)) := by
  constructor
  · rintro ⟨earlier, first, later, he, hclosed, hcalls, hlater⟩
    rcases List.eq_nil_or_concat later with rfl | ⟨front, last, rfl⟩
    · obtain ⟨rfl, hone⟩ := List.append_inj' he rfl
      cases hone
      exact ⟨(opens_of_callsFor hp hcalls).2.2.1, .inr ⟨hclosed, hcalls⟩⟩
    · rw [List.concat_eq_append, ← List.cons_append, ← List.append_assoc] at he
      obtain ⟨rfl, hone⟩ := List.append_inj' he rfl
      cases hone
      rw [after_append]
      refine ⟨hlater front op [] (List.concat_eq_append ..), .inl ⟨earlier, first, front, rfl,
        hclosed, hcalls, fun between op' rest hfront => ?_⟩⟩
      refine hlater between op' (rest ++ [op]) ?_
      rw [hfront, List.concat_eq_append, List.append_assoc, List.cons_append]
  · rintro ⟨hswitches, ⟨earlier, first, front, rfl, hclosed, hcalls, hfront⟩ | ⟨hclosed, hcalls⟩⟩
    · refine ⟨earlier, first, front ++ [op], by simp, hclosed, hcalls,
        fun between op' rest he => ?_⟩
      rcases List.eq_nil_or_concat rest with rfl | ⟨rest, last, rfl⟩
      · obtain ⟨rfl, hone⟩ := List.append_inj' he rfl
        cases hone
        rw [after_append] at hswitches
        exact hswitches
      · rw [List.concat_eq_append, ← List.cons_append, ← List.append_assoc] at he
        obtain ⟨rfl, -⟩ := List.append_inj' he rfl
        exact hfront between op' rest rfl
    · refine ⟨history, op, [], rfl, hclosed, hcalls, fun between op' rest he => ?_⟩
      cases between <;> cases he

theorem fieldWithout_concat (field : InputState) : fieldWithout n c field (history ++ [op]) =
    if (c.after history).callsFor n op then fieldWithout n c field history
    else (c.after history).fieldAfter op (fieldWithout n c field history) := by
  induction history generalizing c field with
  | nil => rfl
  | cons first rest ih => exact ih _

theorem compared_after (h : c.Attended) (hp : c.Prompt) (ho : ∀ op ∈ history, op.IsBlind) :
    (c.after history).Compared (LeftOpen n c history) (fieldWithout n c c.input history) := by
  induction history using List.reverseRecOn with
  | nil => exact ⟨rfl, fun hleft => absurd hleft not_leftOpen_nil, fun _ => rfl⟩
  | append_singleton history op ih =>
      have hold := ih fun o hmem => ho o (List.mem_append_left _ hmem)
      have hp' := hp.after h history
      have hstep := hold.perform (n := n) (h.after history).worked hp'
        (ho op (List.mem_append_right _ List.mem_cons_self))
      rw [after_append, fieldWithout_concat, leftOpen_concat hp']
      exact hstep

/-! ## Waiting on -/

/-- A wait holds the slot until a value is reported, everything is cleared, or the one who waits
goes away. -/
theorem holdsSlot_perform (h : c.Attended) (hn : c.holdsSlot n = true) (hv : op.value? = none)
    (hclear : op ≠ .clear) (hdrop : op ≠ .dropWait n) : (c.perform op).holdsSlot n = true := by
  obtain ⟨r, hs, hw⟩ := holdsSlot_iff.mp hn
  have hlt := lt_of_holdsSlot hn
  have hwaiting := (InputSlot.waiter?_eq_some_iff.mp hw).2
  have hother : ∀ k x, x ≠ Receiver.waiting → ∀ r', c.waitStage k = .listening r' → k ≠ n →
      (c.slot.setReceiver r' x).waiter? = some r := fun k x hx r' hk hne =>
    (waiter?_setReceiver hx).mpr
      ⟨hw, fun he => hne (h.listening.inj k n r' hk (he ▸ hs))⟩
  refine holdsSlot_iff.mpr ⟨r, ?_⟩
  apply perform_desk_cases (P := fun c' => c'.waitStage n = .listening r ∧
    c'.slot.waiter? = some r) h.worked op
  case frame =>
    intro a b e hb
    obtain ⟨-, hwaits, hslot⟩ := Desk.mk.inj e
    rw [waitStage_of_waits hwaits, hslot]
    exact hb
  case stay => exact ⟨hs, hw⟩
  case call => exact fun _ => ⟨hs, hw⟩
  case answer => exact fun _ _ _ _ => ⟨hs, hw⟩
  case forget => exact fun _ _ => ⟨hs, hw⟩
  case report => exact fun v hsome => nomatch hv.symm.trans hsome
  case clear => exact fun hop => absurd hop hclear
  case ask => exact fun _ => ⟨(waitStage_append_of_lt rfl hlt).trans hs, hw⟩
  case listen =>
    intro owner
    have ha : ({ c with waits := c.waits ++ [⟨owner, false, .dropped⟩] } :
        Conversation).isAwaiting = true := isAwaiting_of_holdsSlot (c := c) hn
    rw [listen_of_awaiting ha, waitStage_setWait_of_ne (Nat.ne_of_lt hlt)]
    exact ⟨(waitStage_append_of_lt rfl hlt).trans hs, hw⟩
  case dropWait =>
    intro k hop
    have hne : k ≠ n := fun he => hdrop (he ▸ hop)
    unfold dropWait
    split
    case h_1 => exact ⟨(waitStage_setWait_of_ne hne.symm).trans hs, hw⟩
    case h_2 r' hk =>
      exact ⟨(waitStage_setWait_of_ne hne.symm).trans hs, hother k _ Receiver.noConfusion r' hk hne⟩
    case h_3 => exact ⟨hs, hw⟩
  case stepWait =>
    intro k _
    by_cases hne : k = n
    · subst hne
      have hstay : c.stepWait k = c := by simp only [stepWait, hs, InputSlot.take, hwaiting]
      rw [hstay]
      exact ⟨hs, hw⟩
    · have hstep := waitStep_stepWait c k
      generalize c.stepWait k = c' at hstep ⊢
      cases hstep with
      | stay => exact ⟨hs, hw⟩
      | listen =>
          rw [listen_of_awaiting (isAwaiting_of_holdsSlot hn),
            waitStage_setWait_of_ne (Ne.symm hne)]
          exact ⟨hs, hw⟩
      | lose | miss => exact ⟨(waitStage_setWait_of_ne (Ne.symm hne)).trans hs, hw⟩
      | receive hk =>
          exact ⟨(waitStage_setWait_of_ne (Ne.symm hne)).trans hs,
            hother k _ Receiver.noConfusion _ hk hne⟩

theorem holdsSlot_after (h : c.Attended) (hn : c.holdsSlot n = true)
    (ho : ∀ op ∈ history, op.value? = none ∧ op ≠ .clear ∧ op ≠ .dropWait n) :
    (c.after history).holdsSlot n = true := by
  induction history generalizing c with
  | nil => exact hn
  | cons op rest ih =>
      obtain ⟨hv, hclear, hdrop⟩ := ho op List.mem_cons_self
      exact ih (h.perform op) (holdsSlot_perform h hn hv hclear hdrop) fun o hmem =>
        ho o (List.mem_cons_of_mem op hmem)

/-- The value that is reported next comes to the wait that holds the slot. -/
theorem waitResult?_of_value (hn : c.holdsSlot n = true) {v : Json} (hv : op.value? = some v) :
    ((c.perform op).stepWait n).waitResult? n = some (.ok v) := by
  obtain ⟨r, hs, -⟩ := holdsSlot_iff.mp hn
  have hstage : (c.perform op).waitStage n = .listening r := by
    cases op with
    | report | addFrom => exact hs
    | _ => cases hv
  rcases (bound_of_value hn hv).stepWait with ⟨hd, -⟩ | he
  · cases hstage.symm.trans hd
  · rw [waitResult?, he]

theorem waitResult?_eq_some_iff {result : Except RunError Json} :
    c.waitResult? n = some result ↔ c.waitStage n = .ended result := by
  unfold waitResult?
  cases c.waitStage n <;> simp

/-- A wait that is refused changes nothing of the slot: another wait holds it, before and after, and
the next value that is reported goes to that one. And the field is, after the refusal, what it would
be without the function of the refused wait, unless the function has found the field closed and
opened it, and nobody has opened or closed it since. -/
theorem refused_wait_changes_nothing_iff (settings : Settings) (clock : Clock)
    (history : List Operation) (op : Operation) (n : Nat)
    (hblind : ∀ o ∈ history ++ [op], o.IsBlind)
    (hbefore : ((start settings clock).after history).waitResult? n ≠
      some (.error .inputAlreadyPending))
    (hafter : ((start settings clock).after (history ++ [op])).waitResult? n =
      some (.error .inputAlreadyPending)) :
    let c := (start settings clock).after history
    let c' := (start settings clock).after (history ++ [op])
    (c'.slot = c.slot ∧ ∃ m, m ≠ n ∧ c.holdsSlot m = true ∧ c'.holdsSlot m = true ∧
      ∀ later answer v,
        (∀ o ∈ later, o.value? = none ∧ o ≠ .clear ∧ o ≠ .dropWait m) → answer.value? = some v →
        (((c'.after later).perform answer).stepWait m).waitResult? m = some (.ok v)) ∧
    (c'.input = fieldWithout n (start settings clock) .standard (history ++ [op]) ↔
      ¬LeftOpen n (start settings clock) (history ++ [op])) := by
  intro c c'
  have hstart := attended_start settings clock
  have h : c.Attended := hstart.after history
  have hc' : c' = c.perform op := after_append _ history [op]
  have hrefused : (c.perform op).Refused n := by
    rw [← hc']
    exact waitResult?_eq_some_iff.mp hafter
  have hfree : ¬c.Refused n := fun hr => hbefore (waitResult?_eq_some_iff.mpr hr)
  obtain ⟨hslot, m, hne, hm, hm'⟩ := slot_of_refused h hfree hrefused
  rw [← hc'] at hslot hm'
  refine ⟨⟨hslot, m, hne, hm, hm', fun later answer v hlater hv => ?_⟩, ?_⟩
  · exact waitResult?_of_value (holdsSlot_after (hstart.after _) hm' hlater) hv
  · exact (compared_after hstart (prompt_start settings clock) hblind).input_eq_iff

/-- Two waits open the field one after the other. The second one is refused, and its function has
found the field open. -/
theorem refused_wait_changes_nothing_twice :
    let history : List Operation := [.beginWait 0 true, .stepPump 0, .stepWait 0, .stepPump 0,
      .beginWait 1 true, .stepPump 1]
    let c' := (start .standard .stepped).after (history ++ [.stepWait 1])
    c'.waitResult? 1 = some (.error .inputAlreadyPending) ∧ c'.input.enabled = true ∧
      ¬LeftOpen 1 (start .standard .stepped) (history ++ [.stepWait 1]) := by
  intro history c'
  have hblind : ∀ o ∈ history ++ [.stepWait 1], o.IsBlind := by
    simp [history, Operation.IsBlind]
  obtain ⟨-, hfield⟩ := refused_wait_changes_nothing_iff .standard .stepped history (.stepWait 1) 1
    hblind (fun h => by cases h) rfl
  exact ⟨rfl, rfl, hfield.mp rfl⟩

/-- A wait that opens the field is refused while another one waits, and the field, which was closed,
stays open. Without that wait it is closed. -/
theorem refused_wait_opens_field :
    let first : List Operation := [.beginWait 0 false]
    let second : List Operation := [.beginWait 1 true, .stepPump 0, .stepWait 1]
    let c := (start .standard .stepped).after first
    c.holdsSlot 0 = true ∧ c.input.enabled = false ∧
      (c.after second).waitResult? 1 = some (.error .inputAlreadyPending) ∧
      (c.after second).input.enabled = true :=
  ⟨rfl, rfl, rfl, rfl⟩

end Conversation

end Dialogue
