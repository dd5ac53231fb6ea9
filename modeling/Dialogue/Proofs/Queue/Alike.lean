import Dialogue.Proofs.Input.Waits
/-!
# Conversations that are alike but for the pumps of earlier generations

A pump that has a message in its hands looks at the generation before it delivers the message and
before it takes the next item. If the conversation was cleared since the pump was started, it ends.
So it makes no difference whether such a pump is there or has ended: `Alike` relates a conversation
to one in which it has, and in which other things may have been told to subscribers and schedulers.

* `Alike.stepPump` — a step of such a pump, with nothing happening in the other conversation.
* `Alike.perform`, `Alike.after` — both stay alike, and the same is written into their journals.
-/

namespace Dialogue

/-- Has the pump a message in its hands? -/
def Pump.holdsMessage (p : Pump) : Bool :=
  match p.stage.work? with
  | some (.message _ _) => true
  | _ => false

namespace Conversation

variable {c c' : Conversation} {n g : Nat} {p p' : Pump} {ps ps' : List Pump} {stage : PumpStage}

/-! ## Conversations that are alike -/

/-- The second pump is the first one, or the first one has a message of an earlier generation in
its hands and the second one has ended. -/
def Echo (g : Nat) (p p' : Pump) : Prop :=
  p' = p ∨ p.holdsMessage = true ∧ p.generation < g ∧ p' = { p with stage := .ended }

/-- The pumps correspond to each other one by one. -/
structure Echoes (g : Nat) (ps ps' : List Pump) : Prop where
  length : ps'.length = ps.length
  echo : ∀ (n : Nat) (p : Pump), ps[n]? = some p → ∃ p', ps'[n]? = some p' ∧ Echo g p p'

theorem Echoes.append (h : Echoes g ps ps') (p : Pump) : Echoes g (ps ++ [p]) (ps' ++ [p]) where
  length := by simp [h.length]
  echo n q hq := by
    by_cases hn : n < ps.length
    · rw [List.getElem?_append_left hn] at hq
      rw [List.getElem?_append_left (h.length ▸ hn)]
      exact h.echo n q hq
    · have hn : ps.length ≤ n := by omega
      rw [List.getElem?_append_right hn] at hq
      rw [List.getElem?_append_right (h.length ▸ hn), h.length]
      exact ⟨q, hq, .inl rfl⟩

/-- Pumps at one place change their stage. -/
theorem Echoes.modify {f f' : Pump → Pump} (h : Echoes g ps ps')
    (hf : ∀ p p', ps[n]? = some p → ps'[n]? = some p' → Echo g p p' → Echo g (f p) (f' p')) :
    Echoes g (ps.modify n f) (ps'.modify n f') where
  length := by simp [h.length]
  echo m q hq := by
    by_cases hm : n = m
    · subst hm
      rw [List.getElem?_modify_eq] at hq
      obtain ⟨p, hp, rfl⟩ := Option.map_eq_some_iff.mp hq
      obtain ⟨p', hp', he⟩ := h.echo n p hp
      refine ⟨f' p', ?_, hf p p' hp hp' he⟩
      rw [List.getElem?_modify_eq, hp']
      rfl
    · rw [List.getElem?_modify_ne _ _ hm] at hq ⊢
      exact h.echo m q hq

theorem Echo.setStage (h : Echo g p p') (stage : PumpStage) :
    Echo g { p with stage } { p' with stage } := by
  rcases h with rfl | ⟨-, -, rfl⟩
  · exact .inl rfl
  · exact .inl rfl

theorem Echoes.setStage (h : Echoes g ps ps') (n : Nat) (stage : PumpStage) :
    Echoes g (ps.modify n fun p => { p with stage }) (ps'.modify n fun p => { p with stage }) :=
  h.modify fun _ _ _ _ he => he.setStage stage

/-- A pump goes on that has ended among the second ones. -/
theorem Echoes.setStage_left (h : Echoes g ps ps') (hn : ps[n]? = some p)
    (hn' : ps'[n]? = some { p with stage := .ended })
    (hs : Echo g { p with stage } { p with stage := .ended }) :
    Echoes g (ps.modify n fun p => { p with stage }) ps' := by
  rw [← List.modify_id n ps']
  refine h.modify fun q q' hq hq' _ => ?_
  cases hn.symm.trans hq
  cases hn'.symm.trans hq'
  exact hs

theorem Echoes.mono {g' : Nat} (h : Echoes g ps ps') (hg : g ≤ g') : Echoes g' ps ps' where
  length := h.length
  echo n p hp := by
    obtain ⟨p', hp', he⟩ := h.echo n p hp
    refine ⟨p', hp', ?_⟩
    rcases he with rfl | ⟨hm, hlt, rfl⟩
    · exact .inl rfl
    · exact .inr ⟨hm, Nat.lt_of_lt_of_le hlt hg, rfl⟩

/-- What is told of a conversation, and its pumps. -/
structure Aside where
  pumps : List Pump
  notices : List Notice
  sent : List Message
  journal : List (Nat × Event)
  signals : List Signal

/-- The conversation with other pumps, of which other things were told. -/
def beside (c : Conversation) (x : Aside) : Conversation :=
  { c with
    pumps := x.pumps, notices := x.notices, sent := x.sent, journal := x.journal
    signals := x.signals }

/-- The second conversation is the first one but for what is told, and for pumps of earlier
generations that have a message in their hands: these may have ended. -/
def Alike (c c' : Conversation) : Prop :=
  ∃ x, c' = c.beside x ∧ Echoes c.generation c.pumps x.pumps

/-- Both conversations stay alike in a change, and the same is written down. -/
def Tandem (c c' d d' : Conversation) : Prop :=
  Alike d d' ∧ (c'.journal = c.journal → d'.journal = d.journal)

variable {d d' : Conversation} {x : Aside}

theorem Alike.refl (c : Conversation) : Alike c c :=
  ⟨⟨c.pumps, c.notices, c.sent, c.journal, c.signals⟩, rfl, rfl, fun _ p hp => ⟨p, hp, .inl rfl⟩⟩

/-- A conversation of which other things were told. -/
theorem alike_told (c : Conversation) (journal : List (Nat × Event)) (signals : List Signal) :
    Alike c { c with journal, signals } :=
  ⟨⟨c.pumps, c.notices, c.sent, journal, signals⟩, rfl, rfl, fun _ p hp => ⟨p, hp, .inl rfl⟩⟩

theorem Echo.trans {p'' : Pump} (h : Echo g p p') (h' : Echo g p' p'') : Echo g p p'' := by
  rcases h with rfl | ⟨hm, hg, rfl⟩
  · exact h'
  · rcases h' with rfl | ⟨hm', -, -⟩
    · exact .inr ⟨hm, hg, rfl⟩
    · cases hm'

theorem Alike.trans {c'' : Conversation} (h : Alike c c') (h' : Alike c' c'') : Alike c c'' := by
  obtain ⟨x, rfl, hps⟩ := h
  obtain ⟨x', rfl, hps'⟩ := h'
  refine ⟨x', rfl, hps'.length.trans hps.length, fun n p hp => ?_⟩
  obtain ⟨p', hp', he⟩ := hps.echo n p hp
  obtain ⟨p'', hp'', he'⟩ := hps'.echo n p' hp'
  exact ⟨p'', hp'', he.trans he'⟩

theorem Alike.push (h : Alike c c') (hw : c.WorkedOff) (i : Item) :
    Tandem c c' (c.push i) (c'.push i) := by
  obtain ⟨x, rfl, hps⟩ := h
  cases hp : c.pumping with
  | true =>
      rw [push_of_pumping hp, push_of_pumping (c := c.beside x) hp]
      exact ⟨⟨x, rfl, hps⟩, id⟩
  | false =>
      have hq := hw.queue_nil hp
      rw [push_of_idle hp hq, push_of_idle (c := c.beside x) hp hq]
      exact ⟨⟨⟨_, _, _, _, _⟩, rfl, hps.append _⟩, id⟩

theorem Alike.listen (h : Alike c c') (n : Nat) : Tandem c c' (c.listen n) (c'.listen n) := by
  obtain ⟨x, rfl, hps⟩ := h
  cases ha : c.isAwaiting with
  | true =>
      rw [listen_of_awaiting ha, listen_of_awaiting (c := c.beside x) ha]
      exact ⟨⟨x, rfl, hps⟩, id⟩
  | false =>
      rw [listen_of_free ha, listen_of_free (c := c.beside x) ha]
      exact ⟨⟨x, rfl, hps⟩, id⟩

theorem Alike.stepWait (h : Alike c c') (n : Nat) : Tandem c c' (c.stepWait n) (c'.stepWait n) := by
  obtain ⟨x, rfl, hps⟩ := h
  have hstage : (c.beside x).waitStage n = c.waitStage n := rfl
  have hresult : ∀ t, (c.beside x).callResult? t = c.callResult? t := fun _ => rfl
  have htake : ∀ r, (c.beside x).slot.take r = c.slot.take r := fun _ => rfl
  unfold Conversation.stepWait
  rw [hstage]
  split
  · rw [hresult]
    split
    · exact Alike.listen ⟨x, rfl, hps⟩ n
    · exact ⟨⟨x, rfl, hps⟩, id⟩
    · exact ⟨⟨x, rfl, hps⟩, id⟩
  · rw [htake]
    split <;> exact ⟨⟨x, rfl, hps⟩, id⟩
  · exact ⟨⟨x, rfl, hps⟩, id⟩

theorem Alike.dropWait (h : Alike c c') (n : Nat) : Tandem c c' (c.dropWait n) (c'.dropWait n) := by
  obtain ⟨x, rfl, hps⟩ := h
  have hstage : (c.beside x).waitStage n = c.waitStage n := rfl
  unfold Conversation.dropWait
  rw [hstage]
  split <;> exact ⟨⟨x, rfl, hps⟩, id⟩

theorem Alike.clear (h : Alike c c') : Tandem c c' c.clear c'.clear := by
  obtain ⟨x, rfl, hps⟩ := h
  obtain ⟨signals, heq⟩ := clear_eq c
  obtain ⟨signals', heq'⟩ := clear_eq (c.beside x)
  rw [heq, heq']
  exact ⟨⟨⟨_, _, _, _, _⟩, rfl, hps.mono (Nat.le_succ _)⟩, id⟩

/-- A notice concerns nothing but what is told. -/
theorem stepNotice_eq (c : Conversation) (n : Nat) : ∃ notices sent signals,
    c.stepNotice n = { c with notices, sent, signals } := by
  unfold stepNotice
  split
  · exact ⟨_, c.sent, _, rfl⟩
  · split
    · exact ⟨_, _, _, rfl⟩
    · exact ⟨c.notices, c.sent, c.signals, rfl⟩
  · exact ⟨c.notices, c.sent, c.signals, rfl⟩

theorem Alike.stepNotice (h : Alike c c') (n : Nat) :
    Tandem c c' (c.stepNotice n) (c'.stepNotice n) := by
  obtain ⟨x, rfl, hps⟩ := h
  obtain ⟨notices, sent, signals, heq⟩ := stepNotice_eq c n
  obtain ⟨notices', sent', signals', heq'⟩ := stepNotice_eq (c.beside x) n
  rw [heq, heq']
  exact ⟨⟨⟨_, _, _, _, _⟩, rfl, hps⟩, id⟩

/-! ## Steps of a pump -/

theorem Alike.beginWork (h : Alike c c') (n : Nat) (w : Work) :
    Tandem c c' (c.beginWork n w) (c'.beginWork n w) := by
  obtain ⟨x, rfl, hps⟩ := h
  cases w with
  | message d placeholder => exact ⟨⟨⟨_, _, _, _, _⟩, rfl, hps.setStage n _⟩, id⟩
  | call ticket job =>
      cases job with
      | openInput => exact ⟨⟨⟨_, _, _, _, _⟩, rfl, hps.setStage n _⟩, id⟩
      | host name duration value =>
          refine ⟨⟨⟨_, _, _, _, _⟩, rfl, hps.setStage n _⟩, fun hj => ?_⟩
          exact congrArg (· ++ [(c.now, Event.called name)]) hj

theorem Alike.finishTyping (h : Alike c c') (n g : Nat) (d : Delivery) (placeholder : Nat) :
    Tandem c c' (c.finishTyping n g d placeholder) (c'.finishTyping n g d placeholder) := by
  obtain ⟨x, rfl, hps⟩ := h
  have hgen : (c.beside x).generation = c.generation := rfl
  unfold Conversation.finishTyping
  rw [hgen]
  split
  · exact ⟨⟨⟨_, _, _, _, _⟩, rfl, hps.setStage n _⟩, id⟩
  · refine ⟨⟨⟨_, _, _, _, _⟩, rfl, hps.setStage n _⟩, fun hj => ?_⟩
    exact congrArg (· ++ d.hook.toList.map fun e => (c.now, e)) hj

theorem Alike.finishCall (h : Alike c c') (n ticket : Nat) (job : Job) :
    Tandem c c' (c.finishCall n ticket job) (c'.finishCall n ticket job) := by
  obtain ⟨x, rfl, hps⟩ := h
  exact ⟨⟨⟨_, _, _, _, _⟩, rfl, hps.setStage n _⟩, id⟩

theorem Alike.tell (h : Alike c c') (news : Option Message) :
    Tandem c c' (c.tell news) (c'.tell news) := by
  obtain ⟨x, rfl, hps⟩ := h
  cases news with
  | none => exact ⟨⟨x, rfl, hps⟩, id⟩
  | some m => exact ⟨⟨⟨_, _, _, _, _⟩, rfl, hps⟩, id⟩

theorem Alike.nextItem (h : Alike c c') (n g : Nat) :
    Tandem c c' (c.nextItem n g) (c'.nextItem n g) := by
  obtain ⟨x, rfl, hps⟩ := h
  by_cases hg : c.generation = g
  · subst hg
    rcases hq : c.queue with _ | ⟨i, rest⟩
    · have hnil : (c.beside x).nextItem n c.generation =
          { c.beside x with pumping := false }.setStage n .ended := nextItem_nil hq
      rw [nextItem_nil hq, hnil]
      exact ⟨⟨⟨_, _, _, _, _⟩, rfl, hps.setStage n _⟩, id⟩
    · have hcons : (c.beside x).nextItem n c.generation =
          ({ c.beside x with queue := rest }.makeRoom i).setStage n
            (.taken (i.work c.messages.length)) := nextItem_cons hq
      rw [nextItem_cons hq, hcons]
      exact ⟨⟨⟨_, _, _, _, _⟩, rfl, hps.setStage n _⟩, id⟩
  · rw [nextItem_of_ne hg, nextItem_of_ne (c := c.beside x) hg]
    exact ⟨⟨⟨_, _, _, _, _⟩, rfl, hps.setStage n _⟩, id⟩

theorem Tandem.trans {e e' : Conversation} (h : Tandem c c' d d') (h' : Tandem d d' e e') :
    Tandem c c' e e' :=
  ⟨h'.1, fun hj => h'.2 (h.2 hj)⟩

/-- A pump of an earlier generation that has a message in its hands keeps it or ends. -/
theorem Alike.stepPump_left (h : Alike c c') (hn : c.pumps[n]? = some p)
    (hn' : c'.pumps[n]? = some { p with stage := .ended }) (hm : p.holdsMessage = true)
    (hg : p.generation < c.generation) : Tandem c c' (c.stepPump n) c' := by
  obtain ⟨x, rfl, hps⟩ := h
  obtain ⟨g, stage⟩ := p
  have hne : c.generation ≠ g := Nat.ne_of_gt hg
  have hend : Echoes c.generation (c.pumps.modify n fun p => { p with stage := .ended }) x.pumps :=
    hps.setStage_left hn hn' (.inl rfl)
  unfold Conversation.stepPump
  rw [hn]
  cases stage with
  | taken w =>
      cases w with
      | message d placeholder =>
          -- It begins with the message, which stays in its hands.
          refine ⟨⟨⟨_, _, _, _, _⟩, rfl, hps.setStage_left hn hn' ?_⟩, id⟩
          exact .inr ⟨rfl, hg, rfl⟩
      | call ticket job => cases hm
  | typing d placeholder due =>
      dsimp only
      split
      · -- The generation is another one, so nothing is delivered.
        rw [Conversation.finishTyping, if_pos hne]
        exact ⟨⟨⟨_, _, _, _, _⟩, rfl, hend⟩, id⟩
      · exact ⟨⟨x, rfl, hps⟩, id⟩
  | through w news =>
      have hgen : (c.tell news).generation ≠ g := by
        cases news <;> exact hne
      dsimp only
      rw [nextItem_of_ne hgen]
      cases news <;> exact ⟨⟨⟨_, _, _, _, _⟩, rfl, hend⟩, id⟩
  | calling | ended => cases hm

/-- Pumps that are the same take the same step. -/
theorem Alike.stepPump_both (h : Alike c c') (hn : c.pumps[n]? = some p)
    (hn' : c'.pumps[n]? = some p) : Tandem c c' (c.stepPump n) (c'.stepPump n) := by
  have hstay : Tandem c c' c c' := ⟨h, id⟩
  have hnow : c'.now = c.now := by
    obtain ⟨x, rfl, -⟩ := h
    rfl
  unfold Conversation.stepPump
  rw [hn, hn', hnow]
  split
  · next heq =>
    cases heq
    exact h.beginWork n _
  · next heq =>
    cases heq
    split
    · exact h.finishTyping n _ _ _
    · exact hstay
  · next heq =>
    cases heq
    split
    · exact h.finishCall n _ _
    · exact hstay
  · next heq =>
    cases heq
    exact (h.tell _).trans ((h.tell _).1.nextItem n _)
  · exact hstay

theorem Alike.stepPump (h : Alike c c') (n : Nat) :
    Tandem c c' (c.stepPump n) (c'.stepPump n) := by
  obtain ⟨x, rfl, hps⟩ := h
  have h : Alike c (c.beside x) := ⟨x, rfl, hps⟩
  cases hn : c.pumps[n]? with
  | none =>
      have hn' : (c.beside x).pumps[n]? = none := by
        rw [List.getElem?_eq_none_iff] at hn ⊢
        exact hps.length ▸ hn
      rw [Conversation.stepPump, Conversation.stepPump, hn, hn']
      exact ⟨h, id⟩
  | some p =>
      obtain ⟨p', hn', rfl | ⟨hm, hg, rfl⟩⟩ := hps.echo n p hn
      · exact h.stepPump_both hn hn'
      · -- The pump has ended in the second conversation, so nothing happens there.
        have hstay : (c.beside x).stepPump n = c.beside x := by
          have hn' : (c.beside x).pumps[n]? = some ⟨p.generation, .ended⟩ := hn'
          rw [Conversation.stepPump, hn']
        rw [hstay]
        exact h.stepPump_left hn hn' hm hg

/-! ## Histories -/

theorem Alike.addLead (h : Alike c c') (hw : c.WorkedOff) (lead : Option String) :
    Tandem c c' (c.addLead lead) (c'.addLead lead) := by
  cases lead with
  | none => exact ⟨h, id⟩
  | some text => exact h.push hw _

theorem Alike.call (h : Alike c c') (hw : c.WorkedOff) (owner : Nat) (job : Job) :
    Tandem c c' (c.call owner job) (c'.call owner job) := by
  obtain ⟨x, rfl, hps⟩ := h
  have ht : Alike { c with tickets := c.tickets ++ [⟨owner, .waiting⟩] }
    { c.beside x with tickets := c.tickets ++ [⟨owner, .waiting⟩] } := ⟨x, rfl, hps⟩
  exact ht.push (hw.of_dispatch rfl) _

theorem Alike.beginWait (h : Alike c c') (hw : c.WorkedOff) (owner : Nat) (enable : Bool) :
    Tandem c c' (c.beginWait owner enable) (c'.beginWait owner enable) := by
  obtain ⟨x, rfl, hps⟩ := h
  cases enable with
  | true =>
      have hwait : Alike { c with waits := c.waits ++ [⟨owner, true, .opening c.tickets.length⟩] }
        { c.beside x with waits := c.waits ++ [⟨owner, true, .opening c.tickets.length⟩] } :=
        ⟨x, rfl, hps⟩
      exact hwait.call (hw.of_dispatch rfl) owner .openInput
  | false =>
      have hwait : Alike { c with waits := c.waits ++ [⟨owner, false, .dropped⟩] }
        { c.beside x with waits := c.waits ++ [⟨owner, false, .dropped⟩] } := ⟨x, rfl, hps⟩
      exact hwait.listen _

theorem Alike.addOptions (h : Alike c c') (hw : c.WorkedOff) (lead : Option String)
    (items : List OptionItem) (selected : Option Json) (multi : Bool) :
    Tandem c c' (c.addOptions lead items selected multi)
      (c'.addOptions lead items selected multi) := by
  have hlead := h.addLead hw lead
  refine hlead.trans ?_
  have heq : (c'.addLead lead).fixLabel = (c.addLead lead).fixLabel ∧
      (c'.addLead lead).fixme = (c.addLead lead).fixme := by
    obtain ⟨x, heq, -⟩ := hlead.1
    rw [heq]
    exact ⟨rfl, rfl⟩
  unfold Conversation.addOptions
  dsimp only
  rw [heq.1, heq.2]
  exact hlead.1.push (hw.addLead lead) _

/-- Whatever happens to both, two conversations stay alike. -/
theorem Alike.perform (h : Alike c c') (hw : c.WorkedOff) (op : Operation) :
    Tandem c c' (c.perform op) (c'.perform op) := by
  cases op with
  | queue p hook => exact h.push hw _
  | queueFrom text =>
      have heq : c'.fixLabel = c.fixLabel ∧ c'.fixme = c.fixme := by
        obtain ⟨x, rfl, -⟩ := h
        exact ⟨rfl, rfl⟩
      show Tandem c c' (c.queueFrom text) (c'.push _)
      rw [heq.1, heq.2]
      exact h.push hw _
  | addOptions lead items selected multi => exact h.addOptions hw lead items selected multi
  | addUploader lead options =>
      have hlead := h.addLead hw lead
      exact hlead.trans (hlead.1.push (hw.addLead lead) _)
  | call owner job => exact h.call hw owner job
  | beginWait owner enable => exact h.beginWait hw owner enable
  | stepPump n => exact h.stepPump n
  | stepNotice n => exact h.stepNotice n
  | stepWait n => exact h.stepWait n
  | dropWait n => exact h.dropWait n
  | clear => exact h.clear
  | useFixme i =>
      obtain ⟨x, rfl, hps⟩ := h
      refine ⟨⟨⟨_, _, _, _, _⟩, rfl, hps⟩, fun hj => ?_⟩
      let pressed := (c.fixmeAt? i).toList.map Event.fixme
      exact congrArg (· ++ pressed.map fun e => (c.now, e)) hj
  | dropCall ticket =>
      obtain ⟨x, rfl, hps⟩ := h
      have hheld : (c.beside x).heldByWait ticket = c.heldByWait ticket := rfl
      rw [Conversation.perform, Conversation.perform, hheld]
      split <;> exact ⟨⟨x, rfl, hps⟩, id⟩
  | add | replace | addFrom | report | setSettings | setTimeout | setFixme | setValidator
  | setInput | pass =>
      obtain ⟨x, rfl, hps⟩ := h
      exact ⟨⟨⟨_, _, _, _, _⟩, rfl, hps⟩, id⟩

theorem Alike.after (h : Alike c c') (hw : c.WorkedOff) (history : List Operation) :
    Tandem c c' (c.after history) (c'.after history) := by
  induction history generalizing c c' with
  | nil => exact ⟨h, id⟩
  | cons op rest ih =>
      have hop := h.perform hw op
      exact hop.trans (ih hop.1 (hw.perform op))

end Conversation

end Dialogue
