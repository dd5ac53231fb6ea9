import Mathlib.Data.List.Infix
import Dialogue.Proofs.Messages.Changes
import Dialogue.Proofs.Queue.Owed
/-!
# What is left of the queue

Unless the conversation is cleared, what is to come is what was to come, without the items that were
worked off, and behind it what is queued. A message that is typed lands when its time is over; on a
clock that goes on by itself that takes a while, so nothing lands at the instant at which it was
begun.

* `toCome_perform` — what an operation leaves to come.
* `ripeAt_perform` — messages become ripe for landing only when time passes.
* `mem_journal_perform` — what is written down is the hook of a message that was to come, or was
  called.
-/

namespace Dialogue

/-- Is a message typed whose time is over? -/
def PumpStage.isRipe (now : Nat) : PumpStage → Bool
  | .typing _ _ due => due ≤ now
  | _ => false

/-- The event on the delivery of an item. -/
def Item.hook? : Item → Option Event
  | .message d => d.hook
  | .call _ _ => none

/-- The result of a task that has ended. -/
def Event.result? : Event → Option (Except ChatError Json)
  | .ended _ result => some result
  | _ => none

namespace Conversation

variable {c c' : Conversation} {n time : Nat} {p : Pump} {stage : PumpStage} {op : Operation}

/-! ## What is to come -/

theorem toCome_of_dispatch (h : c'.dispatch = c.dispatch) : c'.toCome = c.toCome := by
  have hq : c'.queue = c.queue := congrArg Dispatch.queue h
  rw [toCome, toCome, hands_of_dispatch h, hq]

theorem toCome_push (hw : c.WorkedOff) (i : Item) : (c.push i).toCome = c.toCome ++ [i] := by
  cases hp : c.pumping with
  | true =>
      rw [push_of_pumping hp, toCome, toCome, List.append_assoc]
      rfl
  | false =>
      obtain ⟨hnone, hhands⟩ := hands_push hw hp i
      have hqueue : (c.push i).queue = [] := by
        rw [push_of_idle hp (hw.queue_nil hp)]
        cases i <;> rfl
      rw [toCome, toCome, hnone, hhands, hqueue, hw.queue_nil hp]
      cases i <;> rfl

/-- A pump goes on with its item, or it is through with it. -/
theorem toCome_setStage (hw : c.WorkedOff) (hn : c.pumps[n]? = some p)
    (hp : p.stage.work?.isSome) (hs : stage.work? = p.stage.work?)
    (hbusy : stage.isBusy → p.stage.isBusy) : (c.setStage n stage).toCome <:+ c.toCome := by
  by_cases hg : c.generation = p.generation
  · obtain ⟨hone, hset, -⟩ := hw.hands_setStage hn (isLive_of_generation hg.symm hp) stage
    rw [toCome, toCome, hone, hset (hs ▸ hp)]
    show (stage :: []).filterMap PumpStage.pending? ++ c.queue <:+ _
    by_cases hb : stage.isBusy = true
    · have hsame : stage.pending? = p.stage.pending? := by
        rw [PumpStage.pending?, PumpStage.pending?, if_pos hb, if_pos (hbusy hb), hs]
      rw [List.filterMap_cons, List.filterMap_cons, hsame]
    · have hnone : stage.pending? = none := if_neg hb
      rw [List.filterMap_cons, hnone]
      exact List.suffix_append _ _
  · rw [toCome, toCome, hands_setStage_of_ne hn hg]
    exact List.suffix_refl _

theorem toCome_stepPump (hw : c.WorkedOff) (n : Nat) : (c.stepPump n).toCome <:+ c.toCome := by
  have hstep := pumpStep_stepPump c n
  generalize c.stepPump n = c' at hstep ⊢
  have hthrough : ∀ {w news}, c.pumps[n]? = some ⟨c.generation, .through w news⟩ →
      Pump.isLive c.generation ⟨c.generation, .through w news⟩ = true :=
    fun _ => isLive_of_generation rfl rfl
  cases hstep with
  | stay hb =>
      rw [toCome_of_dispatch (congrArg Board.dispatch hb)]
  | goOn stage es hn hp hwork ht hbusy hjob hd hb =>
      rw [toCome_of_dispatch (congrArg Board.dispatch hb)]
      exact toCome_setStage hw hn hp hwork hbusy
  | @deliver d placeholder due news hn hb =>
      rw [toCome_of_dispatch (congrArg Board.dispatch hb)]
      have hplaced : (c.replaceAt placeholder d.payload).WorkedOff := hw.of_dispatch rfl
      exact toCome_setStage (c := c.replaceAt placeholder d.payload) hplaced hn rfl rfl
        fun h => by cases h
  | @leave p hn hg hb =>
      rw [toCome_of_dispatch (congrArg Board.dispatch hb), toCome, toCome,
        hands_setStage_of_ne hn hg]
      exact List.suffix_refl _
  | stop hn hq hb =>
      rw [toCome_of_dispatch (congrArg Board.dispatch hb)]
      obtain ⟨-, -, hended⟩ := hw.hands_setStage hn (hthrough hn) .ended
      have hhands : (({ c with pumping := false } : Conversation).setStage n .ended).hands = [] :=
        hended
      rw [toCome, hhands]
      exact List.suffix_append _ _
  | @take w news i rest hn hq hb =>
      rw [toCome_of_dispatch (congrArg Board.dispatch hb)]
      obtain ⟨hone, hset, -⟩ := hw.hands_setStage hn (hthrough hn)
        (.taken (i.work c.messages.length))
      have hhands : (({ c with queue := rest }.makeRoom i).setStage n
          (.taken (i.work c.messages.length))).hands = [.taken (i.work c.messages.length)] :=
        hset rfl
      have hpending : (PumpStage.taken (i.work c.messages.length)).pending? = some i :=
        congrArg some (Work.item_work i _)
      rw [toCome, toCome, hone, hhands, hq, List.filterMap_cons, hpending]
      exact List.suffix_refl _

theorem toCome_clear (hw : c.WorkedOff) : c.clear.toCome = [] := by
  obtain ⟨signals, heq⟩ := clear_eq c
  have hlive : c.clear.live = [] := hw.clear.live_eq_nil (by rw [heq])
  have hqueue : c.clear.queue = [] := by rw [heq]
  rw [toCome, hands, hlive, hqueue]
  rfl

/-- Items are worked off from the front, and are queued behind all others. -/
theorem toCome_perform (hw : c.WorkedOff) (hop : op ≠ .clear) :
    (c.perform op).toCome <:+ c.toCome ++ c.enqueues op := by
  apply perform_board_cases (P := fun c' items => c'.toCome <:+ c.toCome ++ items) hw op
  case frame =>
    intro a b items hb h
    rw [toCome_of_dispatch (congrArg Board.dispatch hb)]
    exact h
  case stay =>
    rw [List.append_nil]
  case push =>
    rintro a items i ha ⟨front, hfront⟩
    exact ⟨front, by rw [toCome_push ha, ← List.append_assoc, hfront, List.append_assoc]⟩
  case add =>
    intro m _
    rw [List.append_nil]
    exact List.suffix_refl _
  case replace =>
    intro p _
    rw [List.append_nil]
    exact List.suffix_refl _
  case clear => exact fun h => absurd h hop
  case stepPump =>
    intro n _
    rw [List.append_nil]
    exact toCome_stepPump hw n

/-- Nothing is to come when the conversation is idle. -/
theorem toCome_of_isIdle (hw : c.WorkedOff) (h : c.isIdle = true) : c.toCome = [] := by
  obtain ⟨hp, hq⟩ := Bool.and_eq_true_iff.mp h
  have hlive := hw.live_eq_nil (Bool.not_eq_true' _ ▸ hp)
  rw [toCome, hands, hlive, List.isEmpty_iff.mp hq]
  rfl

/-! ## Messages that are about to land -/

/-- The number of messages that are typed and can land at a time. -/
def ripeAt (c : Conversation) (time : Nat) : Nat := c.hands.countP (PumpStage.isRipe time)

theorem ripeAt_of_dispatch (h : c'.dispatch = c.dispatch) (time : Nat) :
    c'.ripeAt time = c.ripeAt time := by
  rw [ripeAt, ripeAt, hands_of_dispatch h]

theorem ripeAt_le_one (hw : c.WorkedOff) (time : Nat) : c.ripeAt time ≤ 1 := by
  have hlive : c.hands.length ≤ 1 := by
    rw [hands, List.length_map, hw.live_length]
    split <;> omega
  exact Nat.le_trans List.countP_le_length hlive

theorem ripeAt_of_toCome (h : c.toCome = []) (time : Nat) : c.ripeAt time = 0 := by
  obtain ⟨hhands, -⟩ := List.append_eq_nil_iff.mp h
  rw [ripeAt, List.countP_eq_zero]
  intro stage hs
  have hnone := List.filterMap_eq_nil_iff.mp hhands stage hs
  cases stage with
  | typing d placeholder due => cases hnone
  | taken | calling | through | ended => exact Bool.false_ne_true

/-- A pump comes to a stage in which its message cannot land. -/
theorem ripeAt_setStage (stage : PumpStage) (hw : c.WorkedOff) (hn : c.pumps[n]? = some p)
    (hp : p.stage.work?.isSome) (hs : stage.work?.isSome ∨ stage = .ended)
    (hr : stage.isRipe time = false) : (c.setStage n stage).ripeAt time ≤ c.ripeAt time ∧
      (c.generation = p.generation → p.stage.isRipe time = true →
        (c.setStage n stage).ripeAt time + 1 ≤ c.ripeAt time) := by
  by_cases hg : c.generation = p.generation
  · obtain ⟨hone, hset, hended⟩ := hw.hands_setStage hn (isLive_of_generation hg.symm hp) stage
    have hzero : (c.setStage n stage).ripeAt time = 0 := by
      rcases hs with hs | rfl
      · rw [ripeAt, hset hs, List.countP_singleton, hr]
        rfl
      · rw [ripeAt, hended]
        rfl
    refine ⟨by omega, fun _ hripe => ?_⟩
    rw [hzero, ripeAt, hone, List.countP_singleton, hripe]
    exact Nat.le_refl _
  · refine ⟨?_, fun h => absurd h hg⟩
    rw [ripeAt, ripeAt, hands_setStage_of_ne hn hg]

theorem isRipe_typing_of_running {d : Delivery} {placeholder tenths : Nat}
    (hc : c.clock = .running) :
    (PumpStage.typing d placeholder (c.clock.due c.now tenths)).isRipe c.now = false := by
  rw [hc]
  refine decide_eq_false ?_
  show ¬c.now + tenths / 10 + 1 ≤ c.now
  omega

/-- A message lands that could. -/
theorem ripeAt_finishTyping {g : Nat} {d : Delivery} {placeholder due : Nat} (hw : c.WorkedOff)
    (hn : c.pumps[n]? = some ⟨g, .typing d placeholder due⟩) (hdue : due ≤ time) :
    (c.finishTyping n g d placeholder).ripeAt time + (if c.generation = g then 1 else 0) ≤
      c.ripeAt time := by
  have hripe : (PumpStage.typing d placeholder due).isRipe time = true := decide_eq_true hdue
  unfold finishTyping
  by_cases hg : c.generation = g
  · have hdelivered : (c.deliver d placeholder).WorkedOff := hw.of_dispatch rfl
    rw [if_pos hg, if_neg (not_not_intro hg)]
    exact (ripeAt_setStage (c := c.deliver d placeholder) (.through (.message d placeholder)
      (some (c.messageAt placeholder d.payload))) hdelivered hn rfl (.inl rfl) rfl).2 hg hripe
  · rw [if_neg hg, if_pos hg]
    exact (ripeAt_setStage .ended hw hn rfl (.inr rfl) rfl).1

theorem ripeAt_nextItem {g : Nat} {w : Work} {news : Option Message} (hw : c.WorkedOff)
    (hn : c.pumps[n]? = some ⟨g, .through w news⟩) :
    (c.nextItem n g).ripeAt time ≤ c.ripeAt time := by
  by_cases hg : c.generation = g
  · subst hg
    rcases hq : c.queue with _ | ⟨i, rest⟩
    · rw [nextItem_nil hq]
      exact (ripeAt_setStage .ended hw hn rfl (.inr rfl) rfl).1
    · rw [nextItem_cons hq]
      exact (ripeAt_setStage (.taken (i.work c.messages.length)) hw hn rfl (.inl rfl) rfl).1
  · rw [nextItem_of_ne hg]
    exact (ripeAt_setStage .ended hw hn rfl (.inr rfl) rfl).1

/-- What lands in a turn of a pump could land before. -/
theorem ripeAt_stepPump (hw : c.WorkedOff) (hc : c.clock = .running) (n : Nat) :
    (c.stepPump n).ripeAt c.now + (c.lands (.stepPump n)).length ≤ c.ripeAt c.now := by
  rcases hn : c.pumps[n]? with _ | ⟨g, stage⟩
  · simp [stepPump, lands, hn]
  cases stage with
  | taken w =>
      have hlands : c.lands (.stepPump n) = [] := by simp [lands, hn]
      rw [hlands, stepPump, hn]
      cases w with
      | message d placeholder =>
          exact (ripeAt_setStage (.typing d placeholder _) hw hn rfl (.inl rfl)
            (isRipe_typing_of_running hc)).1
      | call ticket job =>
          cases job with
          | openInput =>
              exact (ripeAt_setStage (.through (.call ticket .openInput) none) hw hn rfl
                (.inl rfl) rfl).1
          | host name duration value =>
              exact (ripeAt_setStage (.calling ticket (.host name duration value) _) hw hn
                rfl (.inl rfl) rfl).1
  | typing d placeholder due =>
      by_cases hdue : due ≤ c.now
      · have hstep : c.stepPump n = c.finishTyping n g d placeholder := by
          simp [stepPump, hn, hdue]
        have hlands : (c.lands (.stepPump n)).length = if c.generation = g then 1 else 0 := by
          simp [lands, hn, hdue, apply_ite List.length]
        rw [hstep, hlands]
        exact ripeAt_finishTyping hw hn hdue
      · simp [stepPump, lands, hn, hdue]
  | calling ticket job due =>
      have hlands : c.lands (.stepPump n) = [] := by simp [lands, hn]
      rw [hlands, stepPump, hn]
      dsimp only
      split
      · exact (ripeAt_setStage (.through (.call ticket job) none) hw hn rfl (.inl rfl)
          rfl).1
      · exact Nat.le_refl _
  | through w news =>
      have hlands : c.lands (.stepPump n) = [] := by simp [lands, hn]
      have htold : (c.tell news).dispatch = c.dispatch := by cases news <;> rfl
      have hn' : (c.tell news).pumps[n]? = some ⟨g, .through w news⟩ := by cases news <;> exact hn
      rw [hlands, stepPump, hn, ← ripeAt_of_dispatch htold]
      exact ripeAt_nextItem (hw.of_dispatch htold) hn'
  | ended => simp [stepPump, lands, hn]

theorem lands_of_ne (hop : ∀ n, op ≠ .stepPump n) : c.lands op = [] := by
  cases op with
  | stepPump n => exact absurd rfl (hop n)
  | _ => rfl

/-- Unless time passes no message becomes ripe, and what lands is ripe no longer. -/
theorem ripeAt_perform (hw : c.WorkedOff) (hc : c.clock = .running) (op : Operation) :
    (c.perform op).ripeAt c.now + (c.lands op).length ≤ c.ripeAt c.now := by
  by_cases hstep : ∃ n, op = .stepPump n
  · obtain ⟨n, rfl⟩ := hstep
    exact ripeAt_stepPump hw hc n
  rw [lands_of_ne fun n hn => hstep ⟨n, hn⟩]
  apply perform_board_cases (P := fun c' _ => c'.ripeAt c.now ≤ c.ripeAt c.now) hw op
  case frame =>
    intro a b items hb h
    rw [ripeAt_of_dispatch (congrArg Board.dispatch hb)]
    exact h
  case stay => exact Nat.le_refl _
  case push =>
    intro a items i ha h
    refine Nat.le_trans (Nat.le_of_eq ?_) h
    cases hp : a.pumping with
    | true =>
        rw [push_of_pumping hp]
        rfl
    | false =>
        obtain ⟨hnone, hhands⟩ := hands_push ha hp i
        rw [ripeAt, ripeAt, hnone, hhands]
        rfl
  case add => exact fun _ _ => Nat.le_refl _
  case replace => exact fun _ _ => Nat.le_refl _
  case clear =>
    intro _
    rw [ripeAt_of_toCome (toCome_clear hw)]
    exact Nat.zero_le _
  case stepPump => exact fun n hn => absurd ⟨n, hn⟩ hstep

/-! ## What is written down -/

/-- No message that is to come tells of the end of a task. -/
def Hushed (c : Conversation) : Prop :=
  ∀ i ∈ c.toCome, ∀ e, i.hook? = some e → e.result? = none

theorem Hushed.perform (h : c.Hushed) (hw : c.WorkedOff)
    (hop : ∀ i ∈ c.enqueues op, ∀ e, i.hook? = some e → e.result? = none) :
    (c.perform op).Hushed := by
  by_cases hclear : op = .clear
  · subst hclear
    intro i hi
    rw [show (c.perform .clear).toCome = [] from toCome_clear hw] at hi
    cases hi
  · intro i hi
    rcases List.mem_append.mp ((toCome_perform hw hclear).subset hi) with hi | hi
    · exact h i hi
    · exact hop i hi

theorem journal_push (c : Conversation) (i : Item) : (c.push i).journal = c.journal := by
  obtain ⟨_, _, _, _, _, heq⟩ := push_eq c i
  rw [heq]

theorem journal_addLead (c : Conversation) (lead : Option String) :
    (c.addLead lead).journal = c.journal := by
  cases lead with
  | none => rfl
  | some text => exact journal_push c _

theorem mem_journal_recordAll {es : List Event} {x : Nat × Event}
    (hx : x ∈ (c.recordAll es).journal) : x ∈ c.journal ∨ x.2 ∈ es := by
  rcases List.mem_append.mp hx with hx | hx
  · exact .inl hx
  · obtain ⟨e, he, rfl⟩ := List.mem_map.mp hx
    exact .inr he

/-- The message of a pump of the present generation is to come as long as it is typed. -/
theorem mem_toCome_of_typing {d : Delivery} {placeholder due : Nat}
    (hn : c.pumps[n]? = some ⟨c.generation, .typing d placeholder due⟩) :
    .message d ∈ c.toCome := by
  refine List.mem_append_left _ (List.mem_filterMap.mpr ⟨.typing d placeholder due, ?_, rfl⟩)
  refine List.mem_map.mpr ⟨_, List.mem_filter.mpr ⟨List.mem_of_getElem? hn, ?_⟩, rfl⟩
  exact isLive_of_generation rfl rfl

theorem mem_journal_stepPump (h : c.Hushed) {x : Nat × Event}
    (hx : x ∈ (c.stepPump n).journal) : x ∈ c.journal ∨ x.2.result? = none := by
  unfold stepPump at hx
  split at hx
  case h_1 g w hn =>
    cases w with
    | message d placeholder => exact .inl hx
    | call ticket job =>
        cases job with
        | openInput => exact .inl hx
        | host name duration value =>
            have hx : x ∈ (c.recordAll [.called name]).journal := hx
            refine (mem_journal_recordAll hx).imp_right fun he => ?_
            rw [List.mem_singleton.mp he]
            rfl
  case h_2 g d placeholder due hn =>
    split at hx
    · unfold finishTyping at hx
      split at hx
      · exact .inl hx
      · next hg =>
        obtain rfl : c.generation = g := Decidable.not_not.mp hg
        have hx : x ∈ (c.recordAll d.hook.toList).journal := hx
        refine (mem_journal_recordAll hx).imp_right fun he => ?_
        exact h _ (mem_toCome_of_typing hn) _ (Option.mem_toList.mp he)
    · exact .inl hx
  case h_3 g ticket job due hn =>
    split at hx <;> exact .inl hx
  case h_4 g w news hn =>
    refine .inl ?_
    have htold : (c.tell news).journal = c.journal := by cases news <;> rfl
    rw [← htold]
    unfold nextItem at hx
    split at hx
    · exact hx
    · split at hx
      · next w' c' htake =>
        unfold takeHead? at htake
        split at htake <;> cases htake
        exact hx
      · exact hx
  case h_5 => exact .inl hx

/-- Unless a message says so on its delivery, no operation writes down that a task has ended. -/
theorem mem_journal_perform (h : c.Hushed) {x : Nat × Event}
    (hx : x ∈ (c.perform op).journal) : x ∈ c.journal ∨ x.2.result? = none := by
  have hsame : (c.perform op).journal = c.journal → x ∈ c.journal ∨ x.2.result? = none :=
    fun he => .inl (he ▸ hx)
  cases op with
  | queue | queueFrom => exact hsame (journal_push c _)
  | addOptions lead items selected multi =>
      exact hsame ((journal_push _ _).trans (journal_addLead c lead))
  | addUploader lead options => exact hsame ((journal_push _ _).trans (journal_addLead c lead))
  | call owner job => exact hsame (journal_push _ _)
  | beginWait owner enable =>
      cases enable with
      | true => exact hsame (journal_push _ _)
      | false => exact hsame (congrArg Ledger.journal (ledger_listen _ _))
  | dropWait k => exact hsame (congrArg Ledger.journal (ledger_dropWait c k))
  | stepWait k => exact hsame (congrArg Ledger.journal (ledger_stepWait c k))
  | stepNotice k => exact hsame (congrArg Ledger.journal (ledger_stepNotice c k))
  | stepPump k => exact mem_journal_stepPump h hx
  | clear =>
      obtain ⟨signals, heq⟩ := clear_eq c
      refine hsame ?_
      rw [perform, heq]
  | dropCall ticket =>
      refine hsame ?_
      rw [perform]
      split <;> rfl
  | useFixme i =>
      refine (mem_journal_recordAll (c := c) hx).imp_right fun he => ?_
      obtain ⟨hook, -, hhook⟩ := List.mem_map.mp he
      rw [← hhook]
      rfl
  | add | replace | addFrom | report | setSettings | setTimeout | setFixme | setValidator
  | setInput | pass => exact hsame rfl

end Conversation

end Dialogue
