import Mathlib.Data.List.Basic
import Dialogue.Proofs.Queue.Pumps
/-!
# What a conversation tells its scheduler

Pumps and notices go on in steps of their own. Whenever one of them comes to a stage from which it
can go on at once, or at a certain time, a signal says so, unless it has just taken a step itself
and simply goes on. Subscribers are told of whatever is sent to them. Nobody else is woken, but
for clients.

* `resumes?` — the time at which a pump or a notice can go on.
* `Tells` — the signals of a change say who can go on after it.
* `tells_perform` — they do so for every operation.
-/

namespace Dialogue

/-- The time at which a pump can go on; one that waits for nothing can at any time. -/
def PumpStage.resumes? : PumpStage → Option Nat
  | .taken _ | .through _ _ => some 0
  | .typing _ _ due | .calling _ _ due => some due
  | .ended => none

/-- The time at which a notice can go on. -/
def Notice.resumes? : Notice → Option Nat
  | .fresh _ _ => some 0
  | .pending _ due => some due
  | .sent => none

/-- The task that an operation is a step of. -/
def Operation.task? : Operation → Option TaskId
  | .stepPump n => some (.pump n)
  | .stepNotice n => some (.notice n)
  | _ => none

namespace Conversation

variable {c c' c'' : Conversation} {n : Nat} {o : Option TaskId} {more more' : List Signal}
  {p : Pump} {stage : PumpStage}

/-! ## Who can go on -/

/-- The time at which a pump or a notice can go on. -/
def resumes? (c : Conversation) : TaskId → Option Nat
  | .pump n => (c.pumps[n]?).bind fun p => p.stage.resumes?
  | .notice n => (c.notices[n]?).bind Notice.resumes?
  | _ => none

/-- Whoever can go on by now is ready for its turn. -/
theorem pumpReady_of_resumes? {due : Nat} (h : c.resumes? (.pump n) = some due)
    (hdue : due ≤ c.now) : c.pumpReady n = true := by
  obtain ⟨⟨g, stage⟩, hn, hp⟩ := Option.bind_eq_some_iff.mp h
  rw [pumpReady, hn]
  cases stage with
  | taken | through => rfl
  | typing | calling =>
      cases hp
      exact decide_eq_true hdue
  | ended => cases hp

theorem noticeReady_of_resumes? {due : Nat} (h : c.resumes? (.notice n) = some due)
    (hdue : due ≤ c.now) : c.noticeReady n = true := by
  obtain ⟨x, hn, hx⟩ := Option.bind_eq_some_iff.mp h
  rw [noticeReady, hn]
  cases x with
  | fresh => rfl
  | pending =>
      cases hx
      exact decide_eq_true hdue
  | sent => cases hx

theorem resumes?_congr (hp : c'.pumps = c.pumps) (hn : c'.notices = c.notices) (t : TaskId) :
    c'.resumes? t = c.resumes? t := by
  cases t with
  | pump n => rw [resumes?, resumes?, hp]
  | notice n => rw [resumes?, resumes?, hn]
  | client | renderer | forwarder => rfl

/-- Only one pump has changed. -/
theorem resumes?_of_ne_pump (hn : c'.notices = c.notices)
    (hp : ∀ k, k ≠ n → c'.pumps[k]? = c.pumps[k]?) {t : TaskId} (ht : t ≠ .pump n) :
    c'.resumes? t = c.resumes? t := by
  cases t with
  | pump k =>
      rw [resumes?, resumes?, hp k]
      rintro rfl
      exact ht rfl
  | notice k => rw [resumes?, resumes?, hn]
  | client | renderer | forwarder => rfl

/-- Only one notice has changed. -/
theorem resumes?_of_ne_notice (hp : c'.pumps = c.pumps)
    (hn : ∀ k, k ≠ n → c'.notices[k]? = c.notices[k]?) {t : TaskId} (ht : t ≠ .notice n) :
    c'.resumes? t = c.resumes? t := by
  cases t with
  | pump k => rw [resumes?, resumes?, hp]
  | notice k =>
      rw [resumes?, resumes?, hn k]
      rintro rfl
      exact ht rfl
  | client | renderer | forwarder => rfl

theorem resumes?_setStage_ne {t : TaskId} (ht : t ≠ .pump n) :
    (c.setStage n stage).resumes? t = c.resumes? t := by
  refine resumes?_of_ne_pump ?_ (fun k hk => ?_) ht
  · rfl
  · exact List.getElem?_modify_ne _ _ (Ne.symm hk)

theorem resumes?_setStage_self (hn : c.pumps[n]? = some p) :
    (c.setStage n stage).resumes? (.pump n) = stage.resumes? := by
  show ((c.pumps.modify n _)[n]?).bind _ = _
  rw [List.getElem?_modify_eq, hn]
  rfl

theorem getElem?_concat_of_ne {α : Type} {xs : List α} {x : α} {k : Nat} (hk : k ≠ xs.length) :
    (xs ++ [x])[k]? = xs[k]? := by
  rcases Nat.lt_or_gt_of_ne hk with hlt | hgt
  · exact List.getElem?_append_left hlt
  · rw [List.getElem?_eq_none (by simp; omega), List.getElem?_eq_none (by omega)]

/-! ## Changes and their signals -/

/-- A change tells who can go on after it and could not before. The one whose step it is need not be
told of when it can go on at once. -/
structure Tells (o : Option TaskId) (c c' : Conversation) (more : List Signal) : Prop where
  now : c'.now = c.now
  signals : c'.signals = c.signals ++ more
  resumes : ∀ t due, c'.resumes? t = some due → c.resumes? t = some due ∨ .wakeAt due t ∈ more ∨
    due ≤ c'.now ∧ (.wake t ∈ more ∨ o = some t)
  published : c.sent.length < c'.sent.length → .published ∈ more
  later : ∀ due t, .wakeAt due t ∈ more → c'.now < due
  forwarder : .wake .forwarder ∉ more

/-- Pumps, notices and subscribers are not concerned. -/
theorem Tells.aside (hnow : c'.now = c.now) (hp : c'.pumps = c.pumps)
    (hn : c'.notices = c.notices) (hs : c'.sent = c.sent) (hg : c'.signals = c.signals ++ more)
    (hmore : ∀ x ∈ more, ∃ k, x = .wake (.client k)) : Tells o c c' more where
  now := hnow
  signals := hg
  resumes t due h := .inl (resumes?_congr hp hn t ▸ h)
  published h := by
    rw [hs] at h
    exact absurd h (Nat.lt_irrefl _)
  later due t h := by
    obtain ⟨k, hk⟩ := hmore _ h
    cases hk
  forwarder h := by
    obtain ⟨k, hk⟩ := hmore _ h
    cases hk

/-- No signal is given. -/
theorem Tells.silent (hnow : c'.now = c.now) (hp : c'.pumps = c.pumps)
    (hn : c'.notices = c.notices) (hs : c'.sent = c.sent) (hg : c'.signals = c.signals) :
    Tells o c c' [] :=
  .aside hnow hp hn hs (by rw [hg, List.append_nil]) fun _ h => by cases h

theorem Tells.trans (h : Tells o c c' more) (h' : Tells o c' c'' more') :
    Tells o c c'' (more ++ more') where
  now := h'.now.trans h.now
  signals := by rw [h'.signals, h.signals, List.append_assoc]
  resumes t due hr := by
    rcases h'.resumes t due hr with hr | hr | ⟨hdue, hr⟩
    · rcases h.resumes t due hr with hr | hr | ⟨hdue, hr⟩
      · exact .inl hr
      · exact .inr (.inl (List.mem_append_left _ hr))
      · exact .inr (.inr ⟨h'.now ▸ hdue, hr.imp_left (List.mem_append_left _)⟩)
    · exact .inr (.inl (List.mem_append_right _ hr))
    · exact .inr (.inr ⟨hdue, hr.imp_left (List.mem_append_right _)⟩)
  published hlt := by
    by_cases hfirst : c.sent.length < c'.sent.length
    · exact List.mem_append_left _ (h.published hfirst)
    · exact List.mem_append_right _ (h'.published (by omega))
  later due t hmem := by
    rcases List.mem_append.mp hmem with hmem | hmem
    · exact h'.now ▸ h.later due t hmem
    · exact h'.later due t hmem
  forwarder hmem := by
    rcases List.mem_append.mp hmem with hmem | hmem
    · exact h.forwarder hmem
    · exact h'.forwarder hmem

/-- What was before the change differs in other things only. -/
theorem Tells.after (h : Tells o c' c'' more) (hnow : c'.now = c.now) (hp : c'.pumps = c.pumps)
    (hn : c'.notices = c.notices) (hs : c'.sent = c.sent) (hg : c'.signals = c.signals) :
    Tells o c c'' more :=
  (Tells.silent hnow hp hn hs hg).trans h

section Step

variable {t : TaskId}

/-- A task has come to a stage from which it can go on at once, or not at all. -/
theorem Tells.step (hnow : c'.now = c.now) (hg : c'.signals = c.signals)
    (hs : c'.sent = c.sent) (hother : ∀ u, u ≠ t → c'.resumes? u = c.resumes? u)
    (hself : ∀ due, c'.resumes? t = some due → due ≤ c.now) : Tells (some t) c c' [] where
  now := hnow
  signals := by rw [hg, List.append_nil]
  resumes u due h := by
    by_cases hu : u = t
    · subst hu
      exact .inr (.inr ⟨hnow ▸ hself due h, .inr rfl⟩)
    · exact .inl (hother u hu ▸ h)
  published h := by
    rw [hs] at h
    exact absurd h (Nat.lt_irrefl _)
  later due u h := by cases h
  forwarder h := by cases h

/-- A task has come to a stage in which it sleeps. -/
theorem Tells.sleep {due : Nat} (hnow : c'.now = c.now) (hg : c'.signals = c.signals)
    (hs : c'.sent = c.sent) (hother : ∀ u, u ≠ t → c'.resumes? u = c.resumes? u)
    (hself : c'.resumes? t = some due) :
    ∃ more, Tells (some t) c (c'.wakeAt due t) more := by
  have hresumes : ∀ u, (c'.wakeAt due t).resumes? u = c'.resumes? u :=
    resumes?_congr (c := c') rfl rfl
  by_cases hdue : due ≤ c'.now
  · refine ⟨[], .step hnow ?_ hs (fun u hu => (hresumes u).trans (hother u hu)) fun d h => ?_⟩
    · show (if due ≤ c'.now then c'.signals else _) = _
      rw [if_pos hdue, hg]
    · cases hself.symm.trans ((hresumes t).symm.trans h)
      exact hnow ▸ hdue
  · refine ⟨[.wakeAt due t], hnow, ?_, fun u d h => ?_, fun h => ?_, fun d u h => ?_, fun h => ?_⟩
    · show (if due ≤ c'.now then _ else c'.signals ++ [_]) = _
      rw [if_neg hdue, hg]
    · rw [hresumes] at h
      by_cases hu : u = t
      · subst hu
        cases hself.symm.trans h
        exact .inr (.inl (List.mem_singleton_self _))
      · exact .inl (hother u hu ▸ h)
    · rw [show (c'.wakeAt due t).sent = c.sent from hs] at h
      exact absurd h (Nat.lt_irrefl _)
    · cases List.mem_singleton.mp h
      exact Nat.lt_of_not_le hdue
    · cases List.mem_singleton.mp h

end Step

/-! ## Settling calls -/

theorem tells_settle (c : Conversation) (ticket : Nat) (f : Fate) :
    ∃ more, Tells o c (c.settle ticket f) more := by
  refine ⟨_, .aside rfl rfl rfl rfl rfl fun x hx => ?_⟩
  obtain ⟨owner, -, rfl⟩ := List.mem_map.mp hx
  exact ⟨owner, rfl⟩

theorem tells_loseCalls (items : List Item) :
    ∃ more, Tells o c (c.loseCalls items) more := by
  unfold loseCalls
  induction items generalizing c with
  | nil => exact ⟨[], .silent rfl rfl rfl rfl rfl⟩
  | cons i rest ih =>
      cases i with
      | message d => exact ih
      | call ticket job =>
          obtain ⟨first, hfirst⟩ := tells_settle (o := o) c ticket .lost
          obtain ⟨others, hothers⟩ := ih (c := c.settle ticket .lost)
          exact ⟨_, hfirst.trans hothers⟩

theorem tells_wakeWaiter (c : Conversation) (waiter : Option Nat) :
    ∃ more, Tells o c (c.wakeWaiter waiter) more := by
  refine ⟨_, .aside rfl rfl rfl rfl rfl fun x hx => ?_⟩
  obtain ⟨owner, -, rfl⟩ := List.mem_map.mp hx
  exact ⟨owner, rfl⟩

theorem tells_clear (c : Conversation) : ∃ more, Tells o c c.clear more := by
  obtain ⟨_, hlost⟩ := tells_loseCalls (o := o) (c := { c with
    messages := [], fixmes := [], queue := [], pumping := false
    generation := c.generation + 1 }) c.queue
  have hlost := hlost.after (c := c) rfl rfl rfl rfl rfl
  unfold clear
  dsimp only
  generalize Conversation.loseCalls _ c.queue = c₁ at hlost ⊢
  obtain ⟨_, hwoken⟩ := tells_wakeWaiter { c₁ with slot := c₁.slot.cancel } c₁.slot.waiter?
  exact ⟨_, hlost.trans (hwoken.after rfl rfl rfl rfl rfl)⟩

/-! ## Queueing -/

theorem tells_startPump (c : Conversation) (w : Work) :
    Tells o c (c.startPump w) [.wake (.pump c.pumps.length)] where
  now := rfl
  signals := rfl
  resumes t due h := by
    by_cases ht : t = .pump c.pumps.length
    · subst ht
      rw [resumes?, show (c.startPump w).pumps = c.pumps ++ [⟨c.generation, .taken w⟩] from rfl,
        List.getElem?_concat_length] at h
      cases h
      exact .inr (.inr ⟨Nat.zero_le _, .inl (List.mem_singleton_self _)⟩)
    · left
      rw [← h]
      symm
      refine resumes?_of_ne_pump ?_ (fun k hk => ?_) ht
      · rfl
      · exact getElem?_concat_of_ne hk
  published h := absurd h (Nat.lt_irrefl _)
  later due t h := by cases List.mem_singleton.mp h
  forwarder h := by cases List.mem_singleton.mp h

theorem tells_push (c : Conversation) (i : Item) : ∃ more, Tells o c (c.push i) more := by
  unfold push
  dsimp only
  split
  · exact ⟨[], .silent rfl rfl rfl rfl rfl⟩
  · split
    · next w c₁ hw =>
      have htaken : Tells o c c₁ [] := by
        unfold takeHead? at hw
        split at hw
        · cases hw
        · cases hw
          exact .silent rfl rfl rfl rfl rfl
      exact ⟨_, htaken.trans (tells_startPump c₁ w)⟩
    · exact ⟨[], .silent rfl rfl rfl rfl rfl⟩

theorem tells_addLead (c : Conversation) (lead : Option String) :
    ∃ more, Tells o c (c.addLead lead) more := by
  cases lead with
  | none => exact ⟨[], .silent rfl rfl rfl rfl rfl⟩
  | some text => exact tells_push c _

theorem tells_call (c : Conversation) (owner : Nat) (job : Job) :
    ∃ more, Tells o c (c.call owner job) more := by
  obtain ⟨more, hpushed⟩ := tells_push (o := o)
    { c with tickets := c.tickets ++ [⟨owner, .waiting⟩] } (.call c.tickets.length job)
  exact ⟨more, hpushed.after rfl rfl rfl rfl rfl⟩

/-! ## Waits -/

theorem tells_listen (c : Conversation) (n : Nat) : Tells o c (c.listen n) [] := by
  unfold listen
  split <;> exact .silent rfl rfl rfl rfl rfl

theorem tells_stepWait (c : Conversation) (n : Nat) : Tells o c (c.stepWait n) [] := by
  unfold stepWait
  split
  · split
    · exact tells_listen c n
    · exact .silent rfl rfl rfl rfl rfl
    · exact .silent rfl rfl rfl rfl rfl
  · split <;> exact .silent rfl rfl rfl rfl rfl
  · exact .silent rfl rfl rfl rfl rfl

theorem tells_dropWait (c : Conversation) (n : Nat) : Tells o c (c.dropWait n) [] := by
  unfold dropWait
  split <;> exact .silent rfl rfl rfl rfl rfl

theorem tells_beginWait (c : Conversation) (owner : Nat) (enable : Bool) :
    ∃ more, Tells o c (c.beginWait owner enable) more := by
  unfold beginWait
  dsimp only
  split
  · obtain ⟨more, hcalled⟩ := tells_call (o := o)
      { c with waits := c.waits ++ [⟨owner, enable, .opening c.tickets.length⟩] } owner .openInput
    exact ⟨more, hcalled.after rfl rfl rfl rfl rfl⟩
  · exact ⟨[], (tells_listen _ c.waits.length).after rfl rfl rfl rfl rfl⟩

/-! ## Notices -/

theorem tells_announce (c : Conversation) (m : Message) :
    ∃ more, Tells o c (c.announce m) more := by
  by_cases hzero : c.settings.timeout = 0
  · refine ⟨[.published], rfl, ?_, fun t due h => .inl ?_, fun _ => List.mem_singleton_self _,
      fun due t h => ?_, fun h => ?_⟩
    · simp [announce, hzero]
    · rw [← h]
      symm
      apply resumes?_congr
      · rfl
      · simp [announce, hzero]
    · cases List.mem_singleton.mp h
    · cases List.mem_singleton.mp h
  · have hnotices : (c.announce m).notices = c.notices ++ [.fresh m c.settings.timeout] := by
      simp [announce, hzero]
    refine ⟨[.wake (.notice c.notices.length)], rfl, ?_, fun t due h => ?_, fun h => ?_,
      fun due t h => ?_, fun h => ?_⟩
    · simp [announce, hzero]
    · by_cases ht : t = .notice c.notices.length
      · subst ht
        rw [resumes?, hnotices, List.getElem?_concat_length] at h
        cases h
        exact .inr (.inr ⟨Nat.zero_le _, .inl (List.mem_singleton_self _)⟩)
      · left
        rw [← h]
        symm
        refine resumes?_of_ne_notice ?_ (fun k hk => ?_) ht
        · rfl
        · rw [hnotices]
          exact getElem?_concat_of_ne hk
    · simp [announce, hzero] at h
    · cases List.mem_singleton.mp h
    · cases List.mem_singleton.mp h

theorem tells_addFrom (c : Conversation) (text : String) :
    ∃ more, Tells o c (c.addFrom text) more := by
  obtain ⟨_, hreported⟩ := tells_wakeWaiter (o := o)
    { (c.add (.from text c.fixLabel)).setFixme c.messages.length c.fixme with
      slot := c.slot.report (.string text) } c.slot.waiter?
  obtain ⟨_, htold⟩ := tells_announce (o := o)
    (((c.add (.from text c.fixLabel)).setFixme c.messages.length c.fixme).report (.string text))
    (c.newMessage (.from text c.fixLabel))
  have hreported := hreported.after (c := c) rfl rfl rfl rfl rfl
  exact ⟨_, (hreported.trans htold).trans (.silent rfl rfl rfl rfl rfl)⟩

/-- A notice takes its step. -/
theorem tells_stepNotice (c : Conversation) (n : Nat) :
    ∃ more, Tells (some (.notice n)) c (c.stepNotice n) more := by
  have hset : ∀ {y : Notice} {u : TaskId}, u ≠ .notice n →
      ({ c with notices := c.notices.set n y } : Conversation).resumes? u = c.resumes? u := by
    intro y u hu
    refine resumes?_of_ne_notice ?_ (fun k hk => ?_) hu
    · rfl
    · exact List.getElem?_set_ne (Ne.symm hk)
  have hself : ∀ {x y : Notice}, c.notices[n]? = some x →
      ({ c with notices := c.notices.set n y } : Conversation).resumes? (.notice n) =
        y.resumes? := by
    intro x y hn
    obtain ⟨hlt, -⟩ := List.getElem?_eq_some_iff.mp hn
    show ((c.notices.set n y)[n]?).bind _ = _
    rw [List.getElem?_set_self hlt]
    rfl
  unfold stepNotice
  split
  · next m delay hn => exact Tells.sleep rfl rfl rfl (fun u hu => hset hu) (hself hn)
  · next m due hn =>
    split
    · -- The subscribers are told, and the task is over.
      refine ⟨[.published], rfl, rfl, fun t d h => ?_, fun _ => List.mem_singleton_self _,
        fun d t h => ?_, fun h => ?_⟩
      · have h : ({ c with notices := c.notices.set n .sent } : Conversation).resumes? t =
          some d := h
        by_cases ht : t = .notice n
        · subst ht
          cases (hself hn).symm.trans h
        · exact .inl (hset ht ▸ h)
      · cases List.mem_singleton.mp h
      · cases List.mem_singleton.mp h
    · exact ⟨[], .silent rfl rfl rfl rfl rfl⟩
  · exact ⟨[], .silent rfl rfl rfl rfl rfl⟩

/-! ## Pumps -/

/-- A pump comes to a stage from which it can go on at once, or not at all. -/
theorem tells_setStage (stage : PumpStage) (hn : c.pumps[n]? = some p)
    (hs : ∀ due, stage.resumes? = some due → due = 0) :
    Tells (some (.pump n)) c (c.setStage n stage) [] := by
  refine .step rfl rfl rfl (fun u hu => resumes?_setStage_ne hu) fun due h => ?_
  rw [resumes?_setStage_self hn] at h
  exact hs due h ▸ Nat.zero_le _

theorem tells_beginWork {g : Nat} {w : Work} (hn : c.pumps[n]? = some ⟨g, .taken w⟩) :
    ∃ more, Tells (some (.pump n)) c (c.beginWork n w) more := by
  cases w with
  | message d placeholder =>
      exact Tells.sleep rfl rfl rfl (fun u hu => resumes?_setStage_ne hu)
        (resumes?_setStage_self hn)
  | call ticket job =>
      cases job with
      | openInput =>
          obtain ⟨_, hsettled⟩ := tells_settle (o := some (.pump n))
            { c with input := { c.input with enabled := true } } ticket (.answered .null)
          have hstage := tells_setStage (c := ({ c with
            input := { c.input with enabled := true } } : Conversation).settle ticket
              (.answered .null)) (.through (.call ticket .openInput) none) hn
            fun due h => by cases h; rfl
          have hsettled := hsettled.after (c := c) rfl rfl rfl rfl rfl
          exact ⟨_, hsettled.trans hstage⟩
      | host name duration value =>
          exact Tells.sleep rfl rfl rfl (fun u hu => resumes?_setStage_ne hu)
            (resumes?_setStage_self (c := c.record (.called name)) hn)

theorem tells_finishTyping {g placeholder due : Nat} {d : Delivery}
    (hn : c.pumps[n]? = some ⟨g, .typing d placeholder due⟩) :
    ∃ more, Tells (some (.pump n)) c (c.finishTyping n g d placeholder) more := by
  unfold finishTyping
  split
  · exact ⟨[], tells_setStage _ hn fun due h => by cases h⟩
  · have hdelivered : Tells (some (.pump n)) c (c.deliver d placeholder) [] :=
      .silent rfl rfl rfl rfl rfl
    have hstage := tells_setStage (c := c.deliver d placeholder) (.through
      (.message d placeholder) (some (c.messageAt placeholder d.payload))) hn
      fun due h => by cases h; rfl
    exact ⟨_, hdelivered.trans hstage⟩

theorem tells_finishCall {g ticket due : Nat} {job : Job}
    (hn : c.pumps[n]? = some ⟨g, .calling ticket job due⟩) :
    ∃ more, Tells (some (.pump n)) c (c.finishCall n ticket job) more := by
  obtain ⟨more, hsettled⟩ := tells_settle (o := some (.pump n)) c ticket (.answered job.value)
  have hstage := tells_setStage (c := c.settle ticket (.answered job.value))
    (.through (.call ticket job) none) hn fun due h => by cases h; rfl
  exact ⟨_, hsettled.trans hstage⟩

theorem tells_nextItem {g : Nat} (hn : c.pumps[n]? = some p) :
    ∃ more, Tells (some (.pump n)) c (c.nextItem n g) more := by
  unfold nextItem
  split
  · exact ⟨[], tells_setStage _ hn fun due h => by cases h⟩
  · split
    · next w c₁ hw =>
      unfold takeHead? at hw
      split at hw
      · cases hw
      · next i rest _ =>
        cases hw
        have htaken : Tells (some (.pump n)) c ({ c with queue := rest }.makeRoom i) [] :=
          .silent rfl rfl rfl rfl rfl
        have hstage := tells_setStage (c := { c with queue := rest }.makeRoom i)
          (.taken (i.work c.messages.length)) hn
          fun due h => by cases h; rfl
        exact ⟨_, htaken.trans hstage⟩
    · have hstage := tells_setStage (c := { c with pumping := false }) .ended hn
        fun due h => by cases h
      exact ⟨_, hstage.after rfl rfl rfl rfl rfl⟩

theorem tells_stepPump (c : Conversation) (n : Nat) :
    ∃ more, Tells (some (.pump n)) c (c.stepPump n) more := by
  unfold stepPump
  split
  case h_1 hn => exact tells_beginWork hn
  case h_2 hn =>
    split
    · exact tells_finishTyping hn
    · exact ⟨[], .silent rfl rfl rfl rfl rfl⟩
  case h_3 hn =>
    split
    · exact tells_finishCall hn
    · exact ⟨[], .silent rfl rfl rfl rfl rfl⟩
  case h_4 g w news hn =>
    cases news with
    | none => exact tells_nextItem hn
    | some m =>
        obtain ⟨_, htold⟩ := tells_announce (o := some (.pump n)) c m
        obtain ⟨_, hnext⟩ := tells_nextItem (c := c.announce m) (g := g) hn
        exact ⟨_, htold.trans hnext⟩
  case h_5 => exact ⟨[], .silent rfl rfl rfl rfl rfl⟩

/-! ## Operations -/

/-- The signals of an operation say who can go on after it. -/
theorem tells_perform (c : Conversation) {op : Operation} (hop : ∀ ms, op ≠ .pass ms) :
    ∃ more, Tells op.task? c (c.perform op) more := by
  have hsilent : ∀ {c' : Conversation}, c'.now = c.now → c'.pumps = c.pumps →
      c'.notices = c.notices → c'.sent = c.sent → c'.signals = c.signals →
      ∃ more, Tells op.task? c c' more :=
    fun hnow hp hn hs hg => ⟨[], .silent hnow hp hn hs hg⟩
  cases op with
  | queue | queueFrom => exact tells_push c _
  | addOptions lead items selected multi =>
      obtain ⟨_, hlead⟩ := tells_addLead (o := none) c lead
      obtain ⟨_, hpushed⟩ := tells_push (o := none) (c.addLead lead) (.message
        ⟨.options items selected multi (c.addLead lead).fixLabel, none, (c.addLead lead).fixme⟩)
      exact ⟨_, hlead.trans hpushed⟩
  | addUploader lead options =>
      obtain ⟨_, hlead⟩ := tells_addLead (o := none) c lead
      obtain ⟨_, hpushed⟩ := tells_push (o := none) (c.addLead lead)
        (.message ⟨.uploader options, none, none⟩)
      exact ⟨_, hlead.trans hpushed⟩
  | addFrom text => exact tells_addFrom c text
  | report v =>
      obtain ⟨more, hwoken⟩ := tells_wakeWaiter { c with slot := c.slot.report v } c.slot.waiter?
      exact ⟨more, hwoken.after rfl rfl rfl rfl rfl⟩
  | clear => exact tells_clear c
  | call owner job => exact tells_call c owner job
  | beginWait owner enable => exact tells_beginWait c owner enable
  | dropWait k => exact ⟨[], tells_dropWait c k⟩
  | stepWait k => exact ⟨[], tells_stepWait c k⟩
  | stepPump k => exact tells_stepPump c k
  | stepNotice k => exact tells_stepNotice c k
  | dropCall ticket =>
      rw [perform]
      split <;> exact hsilent rfl rfl rfl rfl rfl
  | pass ms => exact absurd rfl (hop ms)
  | add | replace | setSettings | setTimeout | setFixme | setValidator | setInput | useFixme =>
      exact hsilent rfl rfl rfl rfl rfl

end Conversation

end Dialogue
