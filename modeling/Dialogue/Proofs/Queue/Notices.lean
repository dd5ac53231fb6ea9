import Mathlib.Data.List.Basic
import Dialogue.Proofs.Queue.Steps
/-!
# Notices of messages

Each message that is delivered or added for the user is told of once: a notice of it is sent after a
delay, by a task of its own. A message of a pump is told of after its hook was called, and then the
delay of the present settings counts. So a notice can overtake another one when the delay was made
shorter in between.

* `postStep_perform` — what an operation can do to the notices.
* `delivered_perm` — nothing else is told of, and nothing twice.
* `InTurn`, `Timely` — tasks go on in turn; no notice falls due before one that was made earlier.
* `notices_in_order_iff` — so the notices are sent in the order of the deliveries just if each of
  them is timely.
-/

namespace Dialogue

/-- The message that a pump has delivered and not told of. -/
def PumpStage.news? : PumpStage → Option Message
  | .through _ news => news
  | _ => none

theorem PumpStage.news?_taken (w : Work) : (PumpStage.taken w).news? = none := rfl

/-- The message of a notice that was not sent. -/
def Notice.message? : Notice → Option Message
  | .fresh m _ => some m
  | .pending m _ => some m
  | .sent => none

namespace Conversation

/-! ## Messages on their way to the subscribers -/

/-- The messages that pumps have delivered and not told of. -/
def untold (c : Conversation) : List Message := c.pumps.filterMap fun p => p.stage.news?

/-- The messages of the notices that were not sent. -/
def unsent (c : Conversation) : List Message := c.notices.filterMap Notice.message?

/-- The message that an operation delivers out of the queue or adds for the user. -/
def delivers (c : Conversation) : Operation → List Message
  | .stepPump n =>
    match c.pumps[n]? with
    | some ⟨g, .typing d placeholder due⟩ =>
      if due ≤ c.now ∧ c.generation = g then [c.messageAt placeholder d.payload] else []
    | _ => []
  | .addFrom text => [c.newMessage (.from text c.fixLabel)]
  | _ => []

/-- The message that an operation tells of. -/
def announces (c : Conversation) : Operation → List Message
  | .stepPump n =>
    match c.pumps[n]? with
    | some ⟨_, .through _ news⟩ => news.toList
    | _ => []
  | .addFrom text => [c.newMessage (.from text c.fixLabel)]
  | _ => []

/-- Notices depend on these parts of a conversation only. -/
structure Post where
  notices : List Notice
  sent : List Message
  untold : List Message
  clock : Clock
  now : Nat

/-- The notices of a conversation, and the messages that there is no notice of yet. -/
def post (c : Conversation) : Post := ⟨c.notices, c.sent, c.untold, c.clock, c.now⟩

/-- What an operation can do to the notices. -/
inductive PostStep (c : Conversation) (op : Operation) (c' : Conversation) : Prop where
  | stay (hd : c.delivers op = []) (ha : c.announces op = []) (hp : c'.post = c.post)
  | pass {ms : Nat} (hop : op = .pass ms) (hp : c'.post = { c.post with now := c.now + ms })
  /-- A pump delivers its message and does not tell of it yet. -/
  | deliver {m : Message} {before after : List Message} (hd : c.delivers op = [m])
    (ha : c.announces op = []) (hu : c.untold = before ++ after)
    (hp : c'.post = { c.post with untold := before ++ m :: after })
  /-- A message of the user is added and told of. -/
  | add {m : Message} (hd : c.delivers op = [m]) (ha : c.announces op = [m])
    (hp : c'.post = (c.announce m).post)
  /-- A pump tells of its message. -/
  | tell {m : Message} {before after : List Message} (hd : c.delivers op = [])
    (ha : c.announces op = [m]) (hu : c.untold = before ++ m :: after)
    (hp : c'.post = { (c.announce m).post with untold := before ++ after })
  /-- The delay of a notice begins. -/
  | begin {n delay : Nat} {m : Message} (hop : op = .stepNotice n)
    (hn : c.notices[n]? = some (.fresh m delay))
    (hp : c'.post = { c.post with
      notices := c.notices.set n (.pending m (c.clock.due c.now delay)) })
  | send {n due : Nat} {m : Message} (hop : op = .stepNotice n)
    (hn : c.notices[n]? = some (.pending m due)) (hdue : due ≤ c.now)
    (hp : c'.post = { c.post with notices := c.notices.set n .sent, sent := c.sent ++ [m] })

/-! ## What an operation does to the notices -/

variable {c c' : Conversation} {n : Nat} {p : Pump} {m : Message} {op : Operation}

theorem untold_setStage (hn : c.pumps[n]? = some p) : ∃ before after,
    c.untold = before ++ (p.stage.news?.toList ++ after) ∧
      ∀ stage, (c.setStage n stage).untold = before ++ (stage.news?.toList ++ after) := by
  obtain ⟨before, after, hps, hset⟩ := exists_pumps_eq hn
  refine ⟨before.filterMap fun p => p.stage.news?, after.filterMap fun p => p.stage.news?, ?_,
    fun stage => ?_⟩
  · rw [untold, hps, List.filterMap_append, filterMap_cons_toList]
  · rw [untold, hset, List.filterMap_append, filterMap_cons_toList]

/-- A pump comes to another stage and has nothing new to tell of. -/
theorem post_setStage (hn : c.pumps[n]? = some p) {stage : PumpStage}
    (hs : stage.news? = p.stage.news?) : (c.setStage n stage).post = c.post := by
  obtain ⟨before, after, hold, hnew⟩ := untold_setStage hn
  have hu : (c.setStage n stage).untold = c.untold := by rw [hnew, hold, hs]
  show Post.mk c.notices c.sent _ c.clock c.now = _
  rw [hu]
  rfl

theorem post_push (hw : c.WorkedOff) (i : Item) : (c.push i).post = c.post := by
  cases hp : c.pumping with
  | true =>
      rw [push_of_pumping hp]
      rfl
  | false =>
      rw [push_of_idle hp (hw.queue_nil hp)]
      show Post.mk c.notices c.sent
        ((c.pumps ++ [Pump.mk c.generation (.taken (i.work c.messages.length))]).filterMap
          fun p => p.stage.news?) c.clock c.now = _
      rw [List.filterMap_append]
      show Post.mk c.notices c.sent (c.untold ++ []) c.clock c.now = _
      rw [List.append_nil]
      rfl

theorem post_addLead (hw : c.WorkedOff) (lead : Option String) :
    (c.addLead lead).post = c.post := by
  cases lead with
  | none => rfl
  | some text => exact post_push hw _

theorem post_call (hw : c.WorkedOff) (owner : Nat) (job : Job) :
    (c.call owner job).post = c.post := by
  have ht : ({ c with tickets := c.tickets ++ [⟨owner, .waiting⟩] } : Conversation).WorkedOff :=
    hw.of_dispatch rfl
  exact post_push ht _

theorem post_listen (c : Conversation) (n : Nat) : (c.listen n).post = c.post := by
  unfold listen
  split <;> rfl

theorem post_stepWait (c : Conversation) (n : Nat) : (c.stepWait n).post = c.post := by
  unfold stepWait
  split
  · split
    · exact post_listen c n
    · rfl
    · rfl
  · split <;> rfl
  · rfl

theorem post_dropWait (c : Conversation) (n : Nat) : (c.dropWait n).post = c.post := by
  unfold dropWait
  split <;> rfl

theorem post_beginWait (hw : c.WorkedOff) (owner : Nat) (enable : Bool) :
    (c.beginWait owner enable).post = c.post := by
  cases enable with
  | true =>
      have hwait : ({ c with
          waits := c.waits ++ [⟨owner, true, .opening c.tickets.length⟩] } :
          Conversation).WorkedOff := hw.of_dispatch rfl
      exact post_call hwait owner .openInput
  | false => exact post_listen _ _

theorem post_clear (c : Conversation) : c.clear.post = c.post := by
  obtain ⟨signals, heq⟩ := clear_eq c
  rw [heq]
  rfl

/-- A pump that turns to the next item has told of its message. -/
theorem post_nextItem {g : Nat} {w : Work} {news : Option Message}
    (hn : c.pumps[n]? = some ⟨g, .through w news⟩) : ∃ before after,
      c.untold = before ++ (news.toList ++ after) ∧
        (c.nextItem n g).post = { c.post with untold := before ++ after } := by
  by_cases hg : c.generation = g
  · subst hg
    rcases hq : c.queue with _ | ⟨i, rest⟩
    · obtain ⟨before, after, hold, hnew⟩ := untold_setStage (c := { c with pumping := false }) hn
      refine ⟨before, after, hold, ?_⟩
      rw [nextItem_nil hq]
      show Post.mk c.notices c.sent _ c.clock c.now = _
      rw [hnew]
      rfl
    · obtain ⟨before, after, hold, hnew⟩ :=
        untold_setStage (c := { c with queue := rest }.makeRoom i) hn
      refine ⟨before, after, hold, ?_⟩
      rw [nextItem_cons hq]
      show Post.mk c.notices c.sent _ c.clock c.now = _
      rw [hnew, PumpStage.news?_taken]
      rfl
  · obtain ⟨before, after, hold, hnew⟩ := untold_setStage hn
    refine ⟨before, after, hold, ?_⟩
    rw [nextItem_of_ne hg]
    show Post.mk c.notices c.sent _ c.clock c.now = _
    rw [hnew]
    rfl

theorem postStep_finishTyping {g placeholder due : Nat} {d : Delivery}
    (hn : c.pumps[n]? = some ⟨g, .typing d placeholder due⟩) (hdue : due ≤ c.now) :
    PostStep c (.stepPump n) (c.finishTyping n g d placeholder) := by
  have ha : c.announces (.stepPump n) = [] := by simp only [announces, hn]
  by_cases hg : c.generation = g
  · have hd : c.delivers (.stepPump n) = [c.messageAt placeholder d.payload] := by
      simp [delivers, hn, hdue, hg]
    have hfinish : c.finishTyping n g d placeholder = (c.deliver d placeholder).setStage n
        (.through (.message d placeholder) (some (c.messageAt placeholder d.payload))) := by
      rw [finishTyping, if_neg (not_not_intro hg)]
    obtain ⟨before, after, hold, hnew⟩ := untold_setStage (c := c.deliver d placeholder) hn
    refine .deliver hd ha (show c.untold = before ++ after from hold) ?_
    rw [hfinish]
    show Post.mk c.notices c.sent _ c.clock c.now = _
    rw [hnew]
    rfl
  · have hd : c.delivers (.stepPump n) = [] := by simp [delivers, hn, hg]
    refine .stay hd ha ?_
    rw [finishTyping, if_pos hg]
    exact post_setStage hn rfl

theorem postStep_stepPump (c : Conversation) (n : Nat) :
    PostStep c (.stepPump n) (c.stepPump n) := by
  rcases hn : c.pumps[n]? with _ | ⟨g, stage⟩
  · refine .stay (by simp only [delivers, hn]) (by simp only [announces, hn]) ?_
    rw [stepPump, hn]
  · cases stage with
    | taken w =>
        refine .stay (by simp only [delivers, hn]) (by simp only [announces, hn]) ?_
        rw [stepPump, hn]
        cases w with
        | message d placeholder => exact post_setStage hn rfl
        | call ticket job =>
            cases job with
            | openInput => exact post_setStage (c := c) hn rfl
            | host name duration value => exact post_setStage (c := c) hn rfl
    | typing d placeholder due =>
        by_cases hdue : due ≤ c.now
        · have hstep : c.stepPump n = c.finishTyping n g d placeholder := by
            simp [stepPump, hn, hdue]
          rw [hstep]
          exact postStep_finishTyping hn hdue
        · refine .stay (by simp [delivers, hn, hdue]) (by simp only [announces, hn]) ?_
          simp [stepPump, hn, hdue]
    | calling ticket job due =>
        refine .stay (by simp only [delivers, hn]) (by simp only [announces, hn]) ?_
        simp only [stepPump, hn]
        split
        · exact post_setStage (c := c) hn rfl
        · rfl
    | through w news =>
        have hd : c.delivers (.stepPump n) = [] := by simp only [delivers, hn]
        have ha : c.announces (.stepPump n) = news.toList := by simp only [announces, hn]
        rw [stepPump, hn]
        cases news with
        | none =>
            obtain ⟨before, after, hold, hnew⟩ := post_nextItem hn
            refine .stay hd ha ?_
            show (c.nextItem n g).post = _
            rw [hnew, show before ++ after = c.untold from hold.symm]
            rfl
        | some m =>
            obtain ⟨before, after, hold, hnew⟩ := post_nextItem (c := c.announce m) hn
            exact .tell hd ha hold hnew
    | ended =>
        refine .stay (by simp only [delivers, hn]) (by simp only [announces, hn]) ?_
        rw [stepPump, hn]

theorem postStep_stepNotice (c : Conversation) (n : Nat) :
    PostStep c (.stepNotice n) (c.stepNotice n) := by
  unfold stepNotice
  split
  case h_1 m delay hn => exact .begin rfl hn rfl
  case h_2 m due hn =>
    split
    case isTrue hdue => exact .send rfl hn hdue rfl
    case isFalse => exact .stay rfl rfl rfl
  case h_3 => exact .stay rfl rfl rfl

/-- What an operation does to the notices: it delivers a message, tells of one, takes a notice a
step further, or does nothing to them. -/
theorem postStep_perform (hw : c.WorkedOff) (op : Operation) : PostStep c op (c.perform op) := by
  cases op with
  | queue p hook => exact .stay rfl rfl (post_push hw _)
  | queueFrom text => exact .stay rfl rfl (post_push hw _)
  | addOptions lead items selected multi =>
      exact .stay rfl rfl ((post_push (hw.addLead lead) _).trans (post_addLead hw lead))
  | addUploader lead options =>
      exact .stay rfl rfl ((post_push (hw.addLead lead) _).trans (post_addLead hw lead))
  | addFrom text => exact .add rfl rfl rfl
  | call owner job => exact .stay rfl rfl (post_call hw owner job)
  | beginWait owner enable => exact .stay rfl rfl (post_beginWait hw owner enable)
  | dropWait n => exact .stay rfl rfl (post_dropWait c n)
  | stepPump n => exact postStep_stepPump c n
  | stepNotice n => exact postStep_stepNotice c n
  | stepWait n => exact .stay rfl rfl (post_stepWait c n)
  | clear => exact .stay rfl rfl (post_clear c)
  | pass ms => exact .pass rfl rfl
  | dropCall ticket =>
      refine .stay rfl rfl ?_
      rw [perform]
      split <;> rfl
  | add | replace | report | setSettings | setTimeout | setFixme | setValidator | setInput
  | useFixme => exact .stay rfl rfl rfl

theorem post_announce_of_zero (h : c.settings.timeout = 0) (m : Message) :
    (c.announce m).post = { c.post with sent := c.sent ++ [m] } := by
  simp only [announce, h, if_true]
  rfl

theorem post_announce_of_ne_zero (h : c.settings.timeout ≠ 0) (m : Message) :
    (c.announce m).post =
      { c.post with notices := c.notices ++ [.fresh m c.settings.timeout] } := by
  simp only [announce, h, if_false]
  rfl

/-- A notice and those around it, when it has come to another stage. -/
theorem exists_notices_eq {x : Notice} (hn : c.notices[n]? = some x) : ∃ before after,
    c.notices = before ++ x :: after ∧ before.length = n ∧
      ∀ y, c.notices.set n y = before ++ y :: after := by
  obtain ⟨hlt, hx⟩ := List.getElem?_eq_some_iff.mp hn
  refine ⟨c.notices.take n, c.notices.drop (n + 1), ?_, ?_, fun y => ?_⟩
  · rw [← hx, List.getElem_cons_drop, List.take_append_drop]
  · exact List.length_take_of_le (Nat.le_of_lt hlt)
  · exact List.set_eq_take_append_cons_drop .. |>.trans (if_pos hlt)

/-! ## Nothing is lost and nothing is told of twice -/

/-- The messages whose notices were sent, those whose notices were not, and those without one. -/
def Post.mail (b : Post) : List Message :=
  b.sent ++ (b.notices.filterMap Notice.message? ++ b.untold)

theorem perm_moved (before before' : List Message) {after after' : List Message} (m : Message)
    (h : before ++ after = before' ++ after') :
    (before ++ m :: after).Perm (before' ++ m :: after') := by
  refine List.perm_middle.trans ?_
  rw [h]
  exact List.perm_middle.symm

theorem unsent_sent (ns : List Notice) :
    (Notice.sent :: ns).filterMap Notice.message? = ns.filterMap Notice.message? := rfl

/-- A message leaves those that nothing was said of and gets a notice. -/
theorem perm_announce (before after : List Message) :
    (c.sent ++ (c.unsent ++ (before ++ m :: after))).Perm
      ({ (c.announce m).post with untold := before ++ after } : Post).mail := by
  by_cases ht : c.settings.timeout = 0
  · rw [post_announce_of_zero ht]
    simpa [Post.mail, post, unsent] using
      perm_moved (c.sent ++ c.unsent ++ before) c.sent m (by simp [unsent])
  · rw [post_announce_of_ne_zero ht]
    simpa [Post.mail, post, unsent, Notice.message?] using
      perm_moved (c.sent ++ c.unsent ++ before) (c.sent ++ c.unsent) m
        (by simp)

/-- What an operation delivers is told of in time, and nothing else is. -/
theorem PostStep.perm (h : PostStep c op c') :
    (c.post.mail ++ c.delivers op).Perm c'.post.mail := by
  cases h with
  | stay hd ha hp => rw [hd, hp, List.append_nil]
  | pass hop hp =>
      subst hop
      rw [hp]
      show (c.post.mail ++ []).Perm c.post.mail
      rw [List.append_nil]
  | @deliver m before after hd ha hu hp =>
      rw [hd, hp]
      simpa [Post.mail, post, unsent, hu] using
        perm_moved (c.post.mail) (c.sent ++ c.unsent ++ before) m
          (by simp [Post.mail, post, unsent, hu])
  | @add m hd ha hp =>
      rw [hd, hp]
      have hperm := perm_announce (c := c) (m := m) c.untold []
      rw [← List.append_assoc, ← List.append_assoc, List.append_nil] at hperm
      rw [Post.mail, ← List.append_assoc]
      exact hperm
  | @tell m before after hd ha hu hp =>
      rw [hd, hp, List.append_nil]
      show (c.sent ++ (c.unsent ++ c.untold)).Perm _
      rw [hu]
      exact perm_announce before after
  | @begin n delay m hop hn hp =>
      subst hop
      obtain ⟨before, after, hold, -, hnew⟩ := exists_notices_eq hn
      rw [hp, hnew]
      simp [Post.mail, post, hold, Notice.message?, delivers]
  | @send n due m hop hn hdue hp =>
      subst hop
      obtain ⟨before, after, hold, -, hnew⟩ := exists_notices_eq hn
      rw [hp, hnew]
      simpa [Post.mail, post, hold, Notice.message?, unsent_sent, delivers] using
        perm_moved (c.sent ++ before.filterMap Notice.message?) c.sent m
          (by simp)

theorem delivered_perm (hw : c.WorkedOff) (history : List Operation) :
    (c.post.mail ++ c.gathered delivers history).Perm (c.after history).post.mail := by
  induction history generalizing c with
  | nil => rw [gathered, List.append_nil]; rfl
  | cons op rest ih =>
      rw [gathered, ← List.append_assoc]
      exact ((postStep_perform hw op).perm.append_right _).trans (ih (hw.perform op))

/-! ## Tasks in turn -/

/-- Can the tasks of the notices let an operation happen? Time passes only while no notice can go
on, and not beyond the time at which one falls due; of the notices that can go on the one that was
made first does; and a pump tells of its message before anything else is delivered. -/
def Allows (c : Conversation) : Operation → Prop
  | .pass ms => (∀ n, c.noticeReady n = false) ∧
      ∀ m due, .pending m due ∈ c.notices → c.now + ms ≤ due
  | .stepNotice n => ∀ k, k < n → c.noticeReady k = false
  | op => c.delivers op = [] ∨ c.untold = []

/-- Each task has its turn when it is due. -/
def InTurn (c : Conversation) : List Operation → Prop
  | [] => True
  | op :: rest => c.Allows op ∧ (c.perform op).InTurn rest

/-- The time at which a notice is sent, if its delay begins at once. -/
def dueOf (clock : Clock) (now : Nat) : Notice → Option Nat
  | .fresh _ delay => some (clock.due now delay)
  | .pending _ due => some due
  | .sent => none

/-- The times at which the notices are sent that were not sent yet. -/
def Post.dues (b : Post) : List Nat := b.notices.filterMap (dueOf b.clock b.now)

/-- If an operation tells of a message, is there no notice yet to be sent that is sent after the
notice of this message? -/
def Suits (c : Conversation) (op : Operation) : Prop :=
  c.announces op ≠ [] →
    if c.settings.timeout = 0 then c.unsent = []
    else ∀ due ∈ c.post.dues, due ≤ c.clock.due c.now c.settings.timeout

/-- No message is told of while a notice is still to be sent that is due after its own. -/
def Timely (c : Conversation) : List Operation → Prop
  | [] => True
  | op :: rest => c.Suits op ∧ (c.perform op).Timely rest

/-- Nobody makes the delay of messages shorter. -/
def Unshortened (c : Conversation) : List Operation → Prop
  | [] => True
  | op :: rest => c.settings.timeout ≤ (c.perform op).settings.timeout ∧
      (c.perform op).Unshortened rest

theorem ready_of_fresh {delay : Nat} (h : c.notices[n]? = some (.fresh m delay)) :
    c.noticeReady n = true := by
  rw [noticeReady, h]

theorem ready_of_pending {due : Nat} (h : c.notices[n]? = some (.pending m due))
    (hdue : due ≤ c.now) : c.noticeReady n = true := by
  simp [noticeReady, h, hdue]

theorem fresh_not_mem (h : ∀ n, c.noticeReady n = false) {delay : Nat} :
    .fresh m delay ∉ c.notices := by
  intro hmem
  obtain ⟨n, hn⟩ := List.getElem?_of_mem hmem
  exact absurd ((h n).symm.trans (ready_of_fresh hn)) (by decide)

/-- When no delay is still to begin it makes no difference that time passes. -/
theorem dueOf_of_ready (h : ∀ n, c.noticeReady n = false) (ms : Nat) {x : Notice}
    (hx : x ∈ c.notices) : dueOf c.clock (c.now + ms) x = dueOf c.clock c.now x := by
  cases x with
  | fresh m delay => exact absurd hx (fresh_not_mem h)
  | pending | sent => rfl

theorem allows_deliver (h : c.Allows op) (hd : c.delivers op ≠ []) : c.untold = [] := by
  cases op with
  | stepNotice | pass => exact absurd rfl hd
  | _ => exact h.resolve_left hd

/-! ## What tasks in turn keep -/

/-- The messages that were delivered are on their way; one that was not told of is the last of them;
and no notice is late. -/
structure Tracked (c : Conversation) (delivered : List Message) : Prop where
  perm : delivered.Perm c.post.mail
  latest : c.untold = [] ∨ ∃ before m, delivered = before ++ [m] ∧ c.untold = [m]
  awaited : ∀ m due, .pending m due ∈ c.notices → c.now ≤ due

/-- A message that was not told of is the only one. -/
theorem Tracked.alone {delivered before after : List Message} (h : c.Tracked delivered)
    (hu : c.untold = before ++ m :: after) : before = [] ∧ after = [] := by
  have hlength : (before ++ m :: after).length ≤ 1 := by
    rw [← hu]
    rcases h.latest with hnone | ⟨_, _, -, hone⟩
    · simp [hnone]
    · simp [hone]
  rw [List.length_append, List.length_cons] at hlength
  exact ⟨List.length_eq_zero_iff.mp (by omega), List.length_eq_zero_iff.mp (by omega)⟩

theorem pending_of_announce {m' : Message} {due : Nat}
    (h : .pending m' due ∈ (c.announce m).notices) : .pending m' due ∈ c.notices := by
  by_cases ht : c.settings.timeout = 0
  · rw [show (c.announce m).notices = c.notices from
      congrArg Post.notices (post_announce_of_zero ht m)] at h
    exact h
  · rw [show (c.announce m).notices = c.notices ++ [.fresh m c.settings.timeout] from
      congrArg Post.notices (post_announce_of_ne_zero ht m), List.mem_append] at h
    refine h.resolve_right fun hlast => ?_
    cases List.mem_singleton.mp hlast

theorem le_due (clock : Clock) (now delay : Nat) : now ≤ clock.due now delay := by
  cases clock with
  | stepped => exact Nat.le_add_right _ _
  | running =>
      show now ≤ now + delay / 10 + 1
      omega

theorem Tracked.perform {delivered : List Message} (h : c.Tracked delivered)
    (hallows : c.Allows op) (hw : c.WorkedOff) :
    (c.perform op).Tracked (delivered ++ c.delivers op) := by
  have hstep := postStep_perform hw op
  have hperm : (delivered ++ c.delivers op).Perm (c.perform op).post.mail :=
    (h.perm.append_right _).trans hstep.perm
  generalize c.perform op = c' at hstep hperm ⊢
  have hlatest : c'.untold = c.untold → c.delivers op = [] → c'.untold = [] ∨
      ∃ before m, delivered ++ c.delivers op = before ++ [m] ∧ c'.untold = [m] := by
    intro hu hd
    rw [hu, hd, List.append_nil]
    exact h.latest
  cases hstep with
  | stay hd ha hp =>
      obtain ⟨hn, hs, hu, hc, ht⟩ := Post.mk.inj hp
      refine ⟨hperm, hlatest hu hd, ?_⟩
      rw [hn, ht]
      exact h.awaited
  | pass hop hp =>
      subst hop
      obtain ⟨hn, hs, hu, hc, ht⟩ := Post.mk.inj hp
      refine ⟨hperm, hlatest hu rfl, ?_⟩
      rw [hn, ht]
      exact hallows.2
  | @deliver m before after hd ha hu hp =>
      obtain ⟨hn, hs, hu', hc, ht⟩ := Post.mk.inj hp
      refine ⟨hperm, .inr ⟨delivered, m, by rw [hd], ?_⟩, ?_⟩
      · have hnone := allows_deliver hallows (by simp [hd])
        rw [hu, List.append_eq_nil_iff] at hnone
        rw [hu', hnone.1, hnone.2]
        rfl
      · rw [hn, ht]
        exact h.awaited
  | @add m hd ha hp =>
      obtain ⟨hn, hs, hu, hc, ht⟩ := Post.mk.inj hp
      have hnone : c.untold = [] := allows_deliver hallows (by simp [hd])
      refine ⟨hperm, .inl (hu.trans hnone), ?_⟩
      rw [hn, ht]
      exact fun m' due hmem => h.awaited m' due (pending_of_announce hmem)
  | @tell m before after hd ha hu hp =>
      obtain ⟨hn, hs, hu', hc, ht⟩ := Post.mk.inj hp
      refine ⟨hperm, .inl ?_, ?_⟩
      · rw [hu']
        obtain ⟨rfl, rfl⟩ := h.alone hu
        rfl
      · rw [hn, ht]
        exact fun m' due hmem => h.awaited m' due (pending_of_announce hmem)
  | @begin n delay m hop hn hp =>
      subst hop
      obtain ⟨hns, hs, hu, hc, ht⟩ := Post.mk.inj hp
      refine ⟨hperm, hlatest hu rfl, ?_⟩
      rw [hns, ht]
      intro m' due hmem
      rcases List.mem_or_eq_of_mem_set hmem with hmem | he
      · exact h.awaited m' due hmem
      · cases he
        exact le_due _ _ _
  | @send n due m hop hn hdue hp =>
      subst hop
      obtain ⟨hns, hs, hu, hc, ht⟩ := Post.mk.inj hp
      refine ⟨hperm, hlatest hu rfl, ?_⟩
      rw [hns, ht]
      intro m' due' hmem
      rcases List.mem_or_eq_of_mem_set hmem with hmem | he
      · exact h.awaited m' due' hmem
      · cases he

/-! ## Notices in order -/

/-- The messages were sent in the order of the deliveries, and the others are in that order, too; no
notice is due before one that was made earlier. -/
structure Ordered (c : Conversation) (delivered : List Message) : Prop where
  mail : delivered = c.post.mail
  sorted : c.post.dues.Pairwise (· ≤ ·)

/-- A message is told of, and its notice is not due before the others. -/
theorem Ordered.announce {delivered : List Message} (h : c.Ordered delivered)
    {before : List Message} (hmail : c.sent ++ (c.unsent ++ [m]) = before)
    (hsuits : if c.settings.timeout = 0 then c.unsent = []
      else ∀ due ∈ c.post.dues, due ≤ c.clock.due c.now c.settings.timeout)
    {b : Post} (hb : b = { (c.announce m).post with untold := [] }) :
    before = b.mail ∧ b.dues.Pairwise (· ≤ ·) := by
  by_cases ht : c.settings.timeout = 0
  · rw [post_announce_of_zero ht] at hb
    rw [if_pos ht] at hsuits
    subst hb
    refine ⟨?_, h.sorted⟩
    rw [← hmail, hsuits, List.nil_append]
    have hnone : c.notices.filterMap Notice.message? = [] := hsuits
    simp [Post.mail, post, hnone]
  · rw [post_announce_of_ne_zero ht] at hb
    rw [if_neg ht] at hsuits
    subst hb
    refine ⟨?_, ?_⟩
    · rw [← hmail]
      simp [Post.mail, post, unsent, Notice.message?]
    · show (List.filterMap (dueOf c.clock c.now) (c.notices ++ [_])).Pairwise _
      rw [List.filterMap_append, List.pairwise_append]
      refine ⟨h.sorted, List.pairwise_singleton _ _, fun due hdue due' hmem => ?_⟩
      cases List.mem_singleton.mp hmem
      exact hsuits due hdue

/-- When a notice is sent, those that were made before it were sent: they are not due after it, so
they would have their turn. -/
theorem Ordered.eq_sent_of_mem {delivered : List Message} (h : c.Ordered delivered)
    (hfirst : ∀ k, k < n → c.noticeReady k = false) {due : Nat} {before after : List Notice}
    (hold : c.notices = before ++ .pending m due :: after) (hlen : before.length = n)
    (hdue : due ≤ c.now) {x : Notice} (hx : x ∈ before) : x = .sent := by
  have hsorted := h.sorted
  simp only [Post.dues, post, hold, List.filterMap_append, List.filterMap_cons, dueOf] at hsorted
  obtain ⟨-, -, hcross⟩ := List.pairwise_append.mp hsorted
  obtain ⟨k, hk⟩ := List.getElem?_of_mem hx
  have hkn : k < n := by
    rw [← hlen]
    exact (List.getElem?_eq_some_iff.mp hk).1
  have hget : c.notices[k]? = some x := by
    rw [hold, List.getElem?_append_left (hlen ▸ hkn), hk]
  have hnot : c.noticeReady k ≠ true := by simp [hfirst k hkn]
  cases x with
  | fresh m' delay => exact absurd (ready_of_fresh hget) hnot
  | pending m' due' =>
      have hle : due' ≤ due :=
        hcross due' (List.mem_filterMap.mpr ⟨_, hx, rfl⟩) due List.mem_cons_self
      exact absurd (ready_of_pending hget (Nat.le_trans hle hdue)) hnot
  | sent => rfl

/-- The notice that is sent is the first of those that were not. -/
theorem Ordered.send {delivered : List Message} (h : c.Ordered delivered)
    (hfirst : ∀ k, k < n → c.noticeReady k = false) {due : Nat}
    (hn : c.notices[n]? = some (.pending m due)) (hdue : due ≤ c.now)
    (hp : c'.post = { c.post with notices := c.notices.set n .sent, sent := c.sent ++ [m] }) :
    c'.Ordered delivered := by
  obtain ⟨before, after, hold, hlen, hnew⟩ := exists_notices_eq hn
  have hnone : before.filterMap Notice.message? = [] := by
    rw [List.filterMap_eq_nil_iff]
    intro x hx
    rw [h.eq_sent_of_mem hfirst hold hlen hdue hx]
    rfl
  rw [hnew] at hp
  constructor
  · rw [hp, h.mail]
    simp [Post.mail, post, hold, Notice.message?, unsent_sent, hnone]
  · have hsorted := h.sorted
    rw [hp]
    simp only [Post.dues, post, hold, List.filterMap_append, List.filterMap_cons, dueOf]
      at hsorted ⊢
    exact hsorted.sublist ((List.Sublist.refl _).append (List.sublist_cons_self due _))

theorem Ordered.perform {delivered : List Message} (h : c.Ordered delivered)
    (htracked : c.Tracked delivered) (hallows : c.Allows op) (hsuits : c.Suits op)
    (hw : c.WorkedOff) : (c.perform op).Ordered (delivered ++ c.delivers op) := by
  have hstep := postStep_perform hw op
  generalize c.perform op = c' at hstep ⊢
  cases hstep with
  | stay hd ha hp =>
      rw [hd, List.append_nil]
      exact ⟨hp ▸ h.mail, hp ▸ h.sorted⟩
  | @pass ms hop hp =>
      subst hop
      refine ⟨?_, ?_⟩
      · show delivered ++ [] = _
        rw [List.append_nil, hp]
        exact h.mail
      · rw [hp]
        show (c.notices.filterMap (dueOf c.clock (c.now + ms))).Pairwise _
        rw [List.filterMap_congr fun x hx => dueOf_of_ready hallows.1 ms hx]
        exact h.sorted
  | @deliver m before after hd ha hu hp =>
      have hnone := allows_deliver hallows (by simp [hd])
      rw [hu, List.append_eq_nil_iff] at hnone
      obtain ⟨rfl, rfl⟩ := hnone
      refine ⟨?_, hp ▸ h.sorted⟩
      rw [hd, hp, h.mail]
      simp [Post.mail, post, hu]
  | @add m hd ha hp =>
      have hnone := allows_deliver hallows (by simp [hd])
      have hmail : c.sent ++ (c.unsent ++ [m]) = delivered ++ c.delivers op := by
        rw [hd, h.mail]
        simp [Post.mail, post, unsent, hnone]
      have hpost : c'.post = { (c.announce m).post with untold := [] } := by
        rw [hp]
        show _ = Post.mk _ _ [] _ _
        rw [← hnone]
        rfl
      obtain ⟨hm, hs⟩ := h.announce hmail (hsuits (by simp [ha])) hpost
      exact ⟨hm, hs⟩
  | @tell m before after hd ha hu hp =>
      obtain ⟨rfl, rfl⟩ := htracked.alone hu
      have hmail : c.sent ++ (c.unsent ++ [m]) = delivered ++ c.delivers op := by
        rw [hd, h.mail]
        simp [Post.mail, post, unsent, hu]
      obtain ⟨hm, hs⟩ := h.announce hmail (hsuits (by simp [ha])) hp
      exact ⟨hm, hs⟩
  | @begin n delay m hop hn hp =>
      subst hop
      obtain ⟨before, after, hold, -, hnew⟩ := exists_notices_eq hn
      have hsorted := h.sorted
      rw [hnew] at hp
      refine ⟨?_, ?_⟩
      · rw [hp, h.mail]
        simp [Post.mail, post, hold, Notice.message?, delivers]
      · rw [hp]
        simp only [Post.dues, post, hold, List.filterMap_append, List.filterMap_cons, dueOf]
          at hsorted ⊢
        exact hsorted
  | @send n due m hop hn hdue hp =>
      subst hop
      show c'.Ordered (delivered ++ [])
      rw [List.append_nil]
      exact h.send hallows hn hdue hp

theorem Ordered.after {delivered : List Message} (h : c.Ordered delivered)
    (htracked : c.Tracked delivered) (hw : c.WorkedOff) {history : List Operation}
    (hin : c.InTurn history) (htimely : c.Timely history) :
    (c.after history).Ordered (delivered ++ c.gathered delivers history) := by
  induction history generalizing c delivered with
  | nil =>
      rw [gathered, List.append_nil]
      exact h
  | cons op rest ih =>
      rw [gathered, ← List.append_assoc]
      exact ih (h.perform htracked hin.1 htimely.1 hw) (htracked.perform hin.1 hw) (hw.perform op)
        hin.2 htimely.2

/-! ## A notice that is overtaken -/

/-- The notice of message `b` is sent before that of message `a`, or it was. -/
inductive Overtaken (c : Conversation) (a b : Message) : Prop where
  | ahead {i j due due' : Nat} {x y : Notice} (hx : c.notices[i]? = some x)
    (hxm : x.message? = some a) (hxd : dueOf c.clock c.now x = some due)
    (hy : c.notices[j]? = some y) (hym : y.message? = some b)
    (hyd : dueOf c.clock c.now y = some due') (hlt : due' < due)
  | between {i : Nat} {x : Notice} (hb : b ∈ c.sent) (hx : c.notices[i]? = some x)
    (hxm : x.message? = some a)
  | behind (h : [b, a].Sublist c.sent)

variable {a b : Message}

/-- Nobody calls a notice back, and a notice that is still to be sent keeps its place and its
time. -/
theorem Overtaken.mono (h : c.Overtaken a b) (hs : c.sent <+: c'.sent)
    (hn : ∀ (k : Nat) (x : Notice), c.notices[k]? = some x → ∃ y, c'.notices[k]? = some y ∧
      y.message? = x.message? ∧ dueOf c'.clock c'.now y = dueOf c.clock c.now x) :
    c'.Overtaken a b := by
  obtain ⟨ms, hms⟩ := hs
  cases h with
  | ahead hx hxm hxd hy hym hyd hlt =>
      obtain ⟨x', hx', hxm', hxd'⟩ := hn _ _ hx
      obtain ⟨y', hy', hym', hyd'⟩ := hn _ _ hy
      exact .ahead hx' (hxm'.trans hxm) (hxd'.trans hxd) hy' (hym'.trans hym) (hyd'.trans hyd) hlt
  | between hb hx hxm =>
      obtain ⟨x', hx', hxm', -⟩ := hn _ _ hx
      exact .between (hms ▸ List.mem_append_left _ hb) hx' (hxm'.trans hxm)
  | behind h => exact .behind (hms ▸ h.trans (List.sublist_append_left _ _))

/-- A message is told of. -/
theorem Overtaken.announce (h : c.Overtaken a b) (hn : c'.notices = (c.announce m).notices)
    (hs : c'.sent = (c.announce m).sent) (hc : c'.clock = c.clock) (ht : c'.now = c.now) :
    c'.Overtaken a b := by
  by_cases hzero : c.settings.timeout = 0
  · obtain ⟨hn', hs', -⟩ := Post.mk.inj (post_announce_of_zero hzero m)
    refine h.mono ⟨[m], (hs.trans hs').symm⟩ fun k x hx => ⟨x, ?_, rfl, by rw [hc, ht]⟩
    rw [hn, show (c.announce m).notices = c.notices from hn', hx]
  · obtain ⟨hn', hs', -⟩ := Post.mk.inj (post_announce_of_ne_zero hzero m)
    refine h.mono ⟨[], (List.append_nil _).trans (hs.trans hs').symm⟩ fun k x hx =>
      ⟨x, ?_, rfl, by rw [hc, ht]⟩
    rw [hn, show (c.announce m).notices = c.notices ++ [_] from hn',
      List.getElem?_append_left (List.getElem?_eq_some_iff.mp hx).1, hx]

/-- A notice is sent: if it is the one that was overtaken, the other one has been sent. -/
theorem Overtaken.send {due : Nat} (h : c.Overtaken a b)
    (hawaited : ∀ m due, .pending m due ∈ c.notices → c.now ≤ due)
    (hn : c.notices[n]? = some (.pending m due)) (hdue : due ≤ c.now)
    (hp : c'.post = { c.post with notices := c.notices.set n .sent, sent := c.sent ++ [m] }) :
    c'.Overtaken a b := by
  obtain ⟨hns, hs, -, hc, ht⟩ := Post.mk.inj hp
  have hs : c'.sent = c.sent ++ [m] := hs
  have hget : ∀ {k : Nat} {x : Notice}, k ≠ n → c.notices[k]? = some x →
      c'.notices[k]? = some x := by
    intro k x hk hx
    rw [hns, List.getElem?_set_ne (Ne.symm hk), hx]
  cases h with
  | @ahead i j due₁ due₂ x y hx hxm hxd hy hym hyd hlt =>
      have hi : i ≠ n := by
        rintro rfl
        obtain rfl := Option.some.inj (hn.symm.trans hx)
        cases hxd
        -- The notice that has overtaken it would be late.
        have hle : c.now ≤ due₂ := by
          cases y with
          | fresh m' delay =>
              cases hyd
              exact le_due _ _ _
          | pending m' due' =>
              cases hyd
              exact hawaited m' due₂ (List.mem_of_getElem? hy)
          | sent => cases hyd
        omega
      by_cases hj : j = n
      · subst hj
        obtain rfl := Option.some.inj (hn.symm.trans hy)
        cases hym
        refine .between ?_ (hget hi hx) hxm
        rw [hs]
        exact List.mem_append_right _ List.mem_cons_self
      · have hkept : ∀ z, dueOf c'.clock c'.now z = dueOf c.clock c.now z := by
          intro z
          rw [hc, ht]
          rfl
        exact .ahead (hget hi hx) hxm ((hkept x).trans hxd) (hget hj hy) hym
          ((hkept y).trans hyd) hlt
  | @between i x hb hx hxm =>
      by_cases hi : i = n
      · subst hi
        obtain rfl := Option.some.inj (hn.symm.trans hx)
        cases hxm
        refine .behind ?_
        rw [hs]
        exact (List.singleton_sublist.mpr hb).append (List.Sublist.refl [m])
      · refine .between ?_ (hget hi hx) hxm
        rw [hs]
        exact List.mem_append_left _ hb
  | behind h =>
      refine .behind ?_
      rw [hs]
      exact h.trans (List.sublist_append_left _ _)

theorem Overtaken.perform {delivered : List Message} (h : c.Overtaken a b)
    (htracked : c.Tracked delivered) (hallows : c.Allows op) (hw : c.WorkedOff) :
    (c.perform op).Overtaken a b := by
  have hstep := postStep_perform hw op
  generalize c.perform op = c' at hstep ⊢
  cases hstep with
  | stay hd ha hp =>
      obtain ⟨hn, hs, -, hc, ht⟩ := Post.mk.inj hp
      refine h.mono (hs ▸ List.prefix_rfl) fun k x hx => ⟨x, hn ▸ hx, rfl, ?_⟩
      rw [hc, ht]
  | @pass ms hop hp =>
      subst hop
      obtain ⟨hn, hs, -, hc, ht⟩ := Post.mk.inj hp
      refine h.mono (hs ▸ List.prefix_rfl) fun k x hx => ⟨x, hn ▸ hx, rfl, ?_⟩
      rw [hc, ht]
      exact dueOf_of_ready hallows.1 ms (List.mem_of_getElem? hx)
  | deliver hd ha hu hp =>
      obtain ⟨hn, hs, -, hc, ht⟩ := Post.mk.inj hp
      refine h.mono (hs ▸ List.prefix_rfl) fun k x hx => ⟨x, hn ▸ hx, rfl, ?_⟩
      rw [hc, ht]
      rfl
  | add hd ha hp =>
      obtain ⟨hn, hs, -, hc, ht⟩ := Post.mk.inj hp
      exact h.announce hn hs hc ht
  | tell hd ha hu hp =>
      obtain ⟨hn, hs, -, hc, ht⟩ := Post.mk.inj hp
      exact h.announce hn hs hc ht
  | @begin n delay m hop hn hp =>
      obtain ⟨hns, hs, -, hc, ht⟩ := Post.mk.inj hp
      have hlt : n < c.notices.length := (List.getElem?_eq_some_iff.mp hn).1
      refine h.mono (hs ▸ List.prefix_rfl) fun k x hx => ?_
      rw [hc, ht, hns]
      by_cases hk : k = n
      · -- The time at which the notice is sent was the same before its delay began.
        subst hk
        obtain rfl := Option.some.inj (hn.symm.trans hx)
        exact ⟨_, List.getElem?_set_self hlt, rfl, rfl⟩
      · exact ⟨x, (List.getElem?_set_ne (Ne.symm hk)).trans hx, rfl, rfl⟩
  | send hop hn hdue hp => exact h.send htracked.awaited hn hdue hp

theorem Overtaken.after {delivered : List Message} (h : c.Overtaken a b)
    (htracked : c.Tracked delivered) (hw : c.WorkedOff) {history : List Operation}
    (hin : c.InTurn history) : (c.after history).Overtaken a b := by
  induction history generalizing c delivered with
  | nil => exact h
  | cons op rest ih =>
      exact ih (h.perform htracked hin.1 hw) (htracked.perform hin.1 hw) (hw.perform op) hin.2

/-- When a message is told of that does not suit, a message that was told of before is overtaken. -/
theorem exists_overtaken (hn : c'.notices = (c.announce m).notices)
    (hs : c'.sent = (c.announce m).sent) (hc : c'.clock = c.clock) (ht : c'.now = c.now)
    (hnot : ¬(if c.settings.timeout = 0 then c.unsent = []
      else ∀ due ∈ c.post.dues, due ≤ c.clock.due c.now c.settings.timeout)) :
    ∃ a ∈ c.unsent, c'.Overtaken a m := by
  by_cases hzero : c.settings.timeout = 0
  · rw [if_pos hzero] at hnot
    obtain ⟨hn', hs', -⟩ := Post.mk.inj (post_announce_of_zero hzero m)
    obtain ⟨a, ha⟩ := List.exists_mem_of_ne_nil _ hnot
    obtain ⟨x, hx, hxm⟩ := List.mem_filterMap.mp ha
    obtain ⟨i, hi⟩ := List.getElem?_of_mem hx
    refine ⟨a, ha, .between (i := i) ?_ ?_ hxm⟩
    · rw [hs.trans hs']
      exact List.mem_append_right _ List.mem_cons_self
    · rw [hn.trans hn']
      exact hi
  · rw [if_neg hzero] at hnot
    obtain ⟨hn', hs', -⟩ := Post.mk.inj (post_announce_of_ne_zero hzero m)
    simp only [not_forall, Nat.not_le] at hnot
    obtain ⟨due, hdue, hlt⟩ := hnot
    obtain ⟨x, hx, hxd⟩ := List.mem_filterMap.mp hdue
    obtain ⟨i, hi⟩ := List.getElem?_of_mem hx
    obtain ⟨a, hxm⟩ : ∃ a, x.message? = some a := by
      cases x with
      | fresh a delay => exact ⟨a, rfl⟩
      | pending a due => exact ⟨a, rfl⟩
      | sent => cases hxd
    have hlen : i < c.notices.length := (List.getElem?_eq_some_iff.mp hi).1
    have hns : c'.notices = c.notices ++ [.fresh m c.settings.timeout] := hn.trans hn'
    refine ⟨a, List.mem_filterMap.mpr ⟨x, hx, hxm⟩,
      .ahead (i := i) (j := c.notices.length) (y := .fresh m c.settings.timeout) ?_ hxm ?_ ?_ rfl ?_
        hlt⟩
    · rw [hns, List.getElem?_append_left hlen]
      exact hi
    · rw [hc, ht]
      exact hxd
    · rw [hns, List.getElem?_concat_length]
    · rw [hc, ht]
      rfl

/-- The message that is overtaken was delivered before the other one. -/
theorem overtaken_of_not_suits {delivered : List Message} (htracked : c.Tracked delivered)
    (hallows : c.Allows op) (hw : c.WorkedOff) (hnot : ¬c.Suits op) :
    ∃ a b, [a, b].Sublist (delivered ++ c.delivers op) ∧ (c.perform op).Overtaken a b := by
  have hstep := postStep_perform hw op
  obtain ⟨htold, hlate⟩ := Classical.not_imp.mp hnot
  generalize c.perform op = c' at hstep ⊢
  cases hstep with
  | stay hd ha hp => exact absurd ha htold
  | deliver hd ha hu hp => exact absurd ha htold
  | pass hop hp =>
      subst hop
      exact absurd rfl htold
  | begin hop hn hp =>
      subst hop
      exact absurd rfl htold
  | send hop hn hdue hp =>
      subst hop
      exact absurd rfl htold
  | @add m hd ha hp =>
      obtain ⟨hn, hs, -, hc, ht⟩ := Post.mk.inj hp
      obtain ⟨a, hmem, hover⟩ := exists_overtaken hn hs hc ht hlate
      have hold : a ∈ delivered := by
        rw [htracked.perm.mem_iff]
        exact List.mem_append_right _ (List.mem_append_left _ hmem)
      refine ⟨a, m, ?_, hover⟩
      rw [hd]
      exact (List.singleton_sublist.mpr hold).append (List.Sublist.refl [m])
  | @tell m before after hd ha hu hp =>
      obtain ⟨hn, hs, -, hc, ht⟩ := Post.mk.inj hp
      obtain ⟨a, hmem, hover⟩ := exists_overtaken hn hs hc ht hlate
      obtain ⟨rfl, rfl⟩ := htracked.alone hu
      -- The message that is told of now is the one that was delivered last.
      rcases htracked.latest with hnone | ⟨earlier, m', hlast, hone⟩
      · rw [hnone] at hu
        cases hu
      · obtain ⟨rfl, -⟩ := List.cons.inj (hone.symm.trans hu)
        have hperm := htracked.perm
        rw [hlast, Post.mail, ← List.append_assoc, show c.post.untold = [m'] from hone,
          List.perm_append_right_iff] at hperm
        have hold : a ∈ earlier := by
          rw [hperm.mem_iff]
          exact List.mem_append_right _ hmem
        refine ⟨a, m', ?_, hover⟩
        rw [hd, List.append_nil, hlast]
        exact (List.singleton_sublist.mpr hold).append (List.Sublist.refl [m'])

theorem overtaken_of_not_timely {delivered : List Message} (htracked : c.Tracked delivered)
    (hw : c.WorkedOff) {history : List Operation} (hin : c.InTurn history)
    (hnot : ¬c.Timely history) :
    ∃ a b, [a, b].Sublist (delivered ++ c.gathered delivers history) ∧
      (c.after history).Overtaken a b := by
  induction history generalizing c delivered with
  | nil => exact absurd trivial hnot
  | cons op rest ih =>
      rw [gathered, ← List.append_assoc]
      have htracked' := htracked.perform hin.1 hw
      by_cases hsuits : c.Suits op
      · exact ih htracked' (hw.perform op) hin.2 fun hrest => hnot ⟨hsuits, hrest⟩
      · obtain ⟨a, b, hsub, hover⟩ := overtaken_of_not_suits htracked hin.1 hw hsuits
        exact ⟨a, b, hsub.trans (List.sublist_append_left _ _),
          hover.after htracked' (hw.perform op) hin.2⟩

/-- Of two messages that stand in a list once each, one is the first. -/
theorem not_sublist_of_nodup {ms : List Message} (hnodup : ms.Nodup)
    (hab : [a, b].Sublist ms) : ¬[b, a].Sublist ms := by
  intro hba
  induction ms with
  | nil => cases hab
  | cons m ms ih =>
      obtain ⟨hm, hnodup⟩ := List.nodup_cons.mp hnodup
      cases hab with
      | cons _ hab =>
          cases hba with
          | cons _ hba => exact ih hnodup hab hba
          | cons_cons _ hba => exact hm (hab.subset (by simp))
      | cons_cons _ hab =>
          cases hba with
          | cons _ hba => exact hm (hba.subset (by simp))
          | cons_cons _ hba => exact hm (hba.subset (by simp))

/-! ## As long as the delay is not shortened -/

theorem due_mono (clock : Clock) {now now' delay delay' : Nat} (hnow : now ≤ now')
    (hdelay : delay ≤ delay') : clock.due now delay ≤ clock.due now' delay' := by
  cases clock with
  | stepped =>
      show now + (delay + 9) / 10 ≤ now' + (delay' + 9) / 10
      omega
  | running =>
      show now + delay / 10 + 1 ≤ now' + delay' / 10 + 1
      omega

/-- A notice that is still to be sent is not due after one that would be made now. -/
def Within (clock : Clock) (now delay : Nat) : Notice → Prop
  | .fresh _ delay' => delay ≠ 0 ∧ delay' ≤ delay
  | .pending _ due => delay ≠ 0 ∧ due ≤ clock.due now delay
  | .sent => True

/-- No notice is due after one that would be made now. -/
def Even (c : Conversation) : Prop :=
  ∀ x ∈ c.notices, Within c.clock c.now c.settings.timeout x

theorem Within.mono {clock : Clock} {now now' delay delay' : Nat} {x : Notice}
    (h : Within clock now delay x) (hnow : now ≤ now') (hdelay : delay ≤ delay') :
    Within clock now' delay' x := by
  cases x with
  | fresh m d =>
      obtain ⟨hne, hle⟩ := h
      exact ⟨by omega, Nat.le_trans hle hdelay⟩
  | pending m due =>
      obtain ⟨hne, hle⟩ := h
      exact ⟨by omega, Nat.le_trans hle (due_mono clock hnow hdelay)⟩
  | sent => trivial

theorem Even.announce (h : c.Even) (m : Message) : ∀ x ∈ (c.announce m).notices,
    Within c.clock c.now c.settings.timeout x := by
  intro x hx
  by_cases hzero : c.settings.timeout = 0
  · rw [show (c.announce m).notices = c.notices from
      congrArg Post.notices (post_announce_of_zero hzero m)] at hx
    exact h x hx
  · rw [show (c.announce m).notices = c.notices ++ [.fresh m c.settings.timeout] from
      congrArg Post.notices (post_announce_of_ne_zero hzero m), List.mem_append] at hx
    rcases hx with hx | hx
    · exact h x hx
    · rw [List.mem_singleton.mp hx]
      exact ⟨hzero, Nat.le_refl _⟩

theorem Even.perform (h : c.Even) (hw : c.WorkedOff)
    (hlonger : c.settings.timeout ≤ (c.perform op).settings.timeout) : (c.perform op).Even := by
  have hstep := postStep_perform hw op
  generalize c.perform op = c' at hstep hlonger ⊢
  -- The notices may be those that are there as long as the delay is the present one.
  have hkept : c'.clock = c.clock → c.now ≤ c'.now →
      (∀ x ∈ c'.notices, Within c.clock c.now c.settings.timeout x) → c'.Even := by
    intro hc hnow hall x hx
    rw [hc]
    exact (hall x hx).mono hnow hlonger
  cases hstep with
  | stay hd ha hp =>
      obtain ⟨hn, -, -, hc, ht⟩ := Post.mk.inj hp
      exact hkept hc (Nat.le_of_eq ht.symm) (hn ▸ h)
  | pass hop hp =>
      obtain ⟨hn, -, -, hc, ht⟩ := Post.mk.inj hp
      exact hkept hc (ht ▸ Nat.le_add_right _ _) (hn ▸ h)
  | deliver hd ha hu hp =>
      obtain ⟨hn, -, -, hc, ht⟩ := Post.mk.inj hp
      exact hkept hc (Nat.le_of_eq ht.symm) (hn ▸ h)
  | @add m hd ha hp =>
      obtain ⟨hn, -, -, hc, ht⟩ := Post.mk.inj hp
      exact hkept hc (Nat.le_of_eq ht.symm) (hn ▸ h.announce m)
  | @tell m before after hd ha hu hp =>
      obtain ⟨hn, -, -, hc, ht⟩ := Post.mk.inj hp
      exact hkept hc (Nat.le_of_eq ht.symm) (hn ▸ h.announce m)
  | @begin n delay m hop hn hp =>
      obtain ⟨hns, -, -, hc, ht⟩ := Post.mk.inj hp
      refine hkept hc (Nat.le_of_eq ht.symm) fun x hx => ?_
      rw [hns] at hx
      rcases List.mem_or_eq_of_mem_set hx with hx | rfl
      · exact h x hx
      · obtain ⟨hne, hle⟩ := h _ (List.mem_of_getElem? hn)
        exact ⟨hne, due_mono c.clock (Nat.le_refl _) hle⟩
  | @send n due m hop hn hdue hp =>
      obtain ⟨hns, -, -, hc, ht⟩ := Post.mk.inj hp
      refine hkept hc (Nat.le_of_eq ht.symm) fun x hx => ?_
      rw [hns] at hx
      rcases List.mem_or_eq_of_mem_set hx with hx | rfl
      · exact h x hx
      · trivial

theorem Even.suits (h : c.Even) (op : Operation) : c.Suits op := by
  intro _
  split
  case isTrue hzero =>
    rw [unsent, List.filterMap_eq_nil_iff]
    intro x hx
    have hwithin := h x hx
    cases x with
    | fresh | pending => exact absurd hzero hwithin.1
    | sent => rfl
  case isFalse =>
    intro due hdue
    obtain ⟨x, hx, hxd⟩ := List.mem_filterMap.mp hdue
    have hwithin := h x hx
    cases x with
    | fresh m delay =>
        cases hxd
        exact due_mono c.clock (Nat.le_refl _) hwithin.2
    | pending m due' =>
        cases hxd
        exact hwithin.2
    | sent => cases hxd

/-- As long as the delay is not shortened no notice overtakes another one. -/
theorem Even.timely (h : c.Even) (hw : c.WorkedOff) {history : List Operation}
    (hlonger : c.Unshortened history) : c.Timely history := by
  induction history generalizing c with
  | nil => trivial
  | cons op rest ih =>
      exact ⟨h.suits op, ih (h.perform hw hlonger.1) (hw.perform op) hlonger.2⟩

/-! ## Histories -/

/-- Each message that is delivered or added for the user is told of once, and nothing else is. When
all tasks have their turn in time, the notices are sent in the order of the deliveries just if no
message is told of while a notice is still to be sent that is due after its own; and so they are as
long as the delay is not shortened. -/
theorem notices_in_order_iff (settings : Settings) (clock : Clock) (history : List Operation) :
    let c := (start settings clock).after history
    let delivered := (start settings clock).gathered delivers history
    delivered.Perm (c.sent ++ (c.unsent ++ c.untold)) ∧
      ((start settings clock).InTurn history →
        ((start settings clock).Timely history →
          delivered = c.sent ++ (c.unsent ++ c.untold)) ∧
        (delivered.Nodup → c.sent = delivered → (start settings clock).Timely history) ∧
        ((start settings clock).Unshortened history →
          (start settings clock).Timely history)) := by
  intro c delivered
  have hw : (start settings clock).WorkedOff := workedOff_start settings clock
  have htracked : (start settings clock).Tracked [] :=
    ⟨List.Perm.refl _, .inl rfl, fun _ _ hmem => by cases hmem⟩
  have hordered : (start settings clock).Ordered [] := ⟨rfl, List.Pairwise.nil⟩
  have heven : (start settings clock).Even := fun _ hmem => by cases hmem
  have hperm : delivered.Perm c.post.mail := by
    have := delivered_perm hw history
    rwa [show (start settings clock).post.mail = [] from rfl, List.nil_append] at this
  refine ⟨hperm, fun hin => ⟨fun htimely => ?_, fun hnodup hsent => ?_, heven.timely hw⟩⟩
  · exact (hordered.after htracked hw hin htimely).mail
  · by_contra hnot
    obtain ⟨a, b, hsub, hover⟩ := overtaken_of_not_timely htracked hw hin hnot
    have hsub : [a, b].Sublist delivered := hsub
    -- All notices were sent, so the one that was overtaken was sent as well.
    have hquiet : ∀ {i : Nat} {x : Notice}, c.notices[i]? = some x → x.message? ≠ some a := by
      intro i x hx hxm
      have hmem : a ∈ c.notices.filterMap Notice.message? :=
        List.mem_filterMap.mpr ⟨x, List.mem_of_getElem? hx, hxm⟩
      have hpos := List.length_pos_of_mem hmem
      have hlength := hperm.length_eq
      simp only [Post.mail, post, hsent, List.length_append] at hlength
      omega
    cases hover with
    | ahead hx hxm => exact hquiet hx hxm
    | between hb hx hxm => exact hquiet hx hxm
    | behind hba => exact not_sublist_of_nodup hnodup hsub (hsent ▸ hba)

/-- Two texts are told of in the order in which they were added. -/
theorem notices_in_order_iff_two_texts :
    let history := [.addFrom "a", .stepNotice 0, .addFrom "b", .stepNotice 1, .pass 100,
      .stepNotice 0, .stepNotice 1]
    ((start .standard .stepped).InTurn history ∧ (start .standard .stepped).Unshortened history) ∧
      (start .standard .stepped).gathered delivers history =
        ((start .standard .stepped).after history).sent := by
  intro history
  have hin : (start .standard .stepped).InTurn history := by
    refine ⟨.inr rfl, fun k hk => absurd hk (Nat.not_lt_zero k), .inr rfl, fun k hk => ?_,
      ⟨fun n => ?_, fun m due hmem => ?_⟩, fun k hk => absurd hk (Nat.not_lt_zero k),
      fun k hk => ?_, trivial⟩
    · obtain rfl : k = 0 := by omega
      rfl
    · match n with
      | 0 => rfl
      | 1 => rfl
      | n + 2 => rfl
    · have hns : ((start .standard .stepped).after (history.take 4)).notices =
          [.pending ⟨.from "a" none, true⟩ 100, .pending ⟨.from "b" none, false⟩ 100] := rfl
      have hmem : .pending m due ∈ ((start .standard .stepped).after (history.take 4)).notices :=
        hmem
      rw [hns] at hmem
      have hdue : due = 100 := by simp at hmem; omega
      exact Nat.le_of_eq hdue.symm
    · obtain rfl : k = 0 := by omega
      rfl
  have hlonger : (start .standard .stepped).Unshortened history := by
    refine ⟨?_, ?_, ?_, ?_, ?_, ?_, ?_, trivial⟩ <;> exact Nat.le_refl 1000
  obtain ⟨-, hrest⟩ := notices_in_order_iff .standard .stepped history
  obtain ⟨hordered, -, htimely⟩ := hrest hin
  refine ⟨⟨hin, hlonger⟩, ?_⟩
  rw [hordered (htimely hlonger)]
  exact List.append_nil _

/-- A text that was added after the delay was shortened is told of before an earlier one. -/
theorem notices_overtake_after_setTimeout :
    let history := [.addFrom "a", .stepNotice 0, .setTimeout 500, .addFrom "b", .stepNotice 1,
      .pass 50, .stepNotice 1, .pass 50, .stepNotice 0]
    (start .standard .stepped).gathered delivers history =
        [⟨.from "a" none, true⟩, ⟨.from "b" none, false⟩] ∧
      ((start .standard .stepped).after history).sent =
        [⟨.from "b" none, false⟩, ⟨.from "a" none, true⟩] :=
  ⟨rfl, rfl⟩

end Conversation

end Dialogue
