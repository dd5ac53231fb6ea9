import Dialogue.Proofs.Queue.Notices
import Dialogue.Proofs.Queue.Remaining
/-!
# The pace of notices

On a clock that goes on by itself one message lands at each instant at most. So as long as the user
gives few answers at the same instant, few notices fall due at the same time, and a subscriber that
takes notices whenever it can does not fall behind.

* `sameTime_perform` — an operation of the program changes neither the time nor the settings.
* `Paced.perform`, `Paced.pass` — a subscriber is a bounded number of notices behind at most.
-/

namespace Dialogue

/-- Is it a text to the user, a list of options or a request for a file? -/
def Message.isFromScript (m : Message) : Bool :=
  match m.payload with
  | .to _ | .options _ _ _ _ | .uploader _ => true
  | .typing | .from _ _ => false

/-- Does an operation leave the settings alone, and the list of messages but for answers? -/
def Operation.isRoutine : Operation → Bool
  | .add _ | .replace _ | .setSettings _ | .setTimeout _ => false
  | _ => true

namespace Conversation

variable {c c' : Conversation} {n limit seen answers answers' : Nat} {m : Message}
  {op : Operation}

/-! ## What stays as it is -/

theorem settings_push (c : Conversation) (i : Item) : (c.push i).settings = c.settings := by
  obtain ⟨_, _, _, _, _, heq⟩ := push_eq c i
  rw [heq]

theorem settings_addLead (c : Conversation) (lead : Option String) :
    (c.addLead lead).settings = c.settings := by
  cases lead with
  | none => rfl
  | some text => exact settings_push c _

theorem settings_listen (c : Conversation) (n : Nat) : (c.listen n).settings = c.settings := by
  unfold listen
  split <;> rfl

theorem settings_stepWait (c : Conversation) (n : Nat) :
    (c.stepWait n).settings = c.settings := by
  unfold stepWait
  split
  · split
    · exact settings_listen c n
    · rfl
    · rfl
  · split <;> rfl
  · rfl

theorem settings_nextItem (c : Conversation) (n g : Nat) :
    (c.nextItem n g).settings = c.settings := by
  unfold nextItem
  split
  · rfl
  · split
    · next w c' htake =>
      unfold takeHead? at htake
      split at htake <;> cases htake
      rfl
    · rfl

theorem settings_stepPump (c : Conversation) (n : Nat) :
    (c.stepPump n).settings = c.settings := by
  unfold stepPump
  split
  case h_1 g w hn =>
    cases w with
    | message d placeholder => rfl
    | call ticket job => cases job <;> rfl
  case h_2 =>
    split
    · unfold finishTyping
      split <;> rfl
    · rfl
  case h_3 => split <;> rfl
  case h_4 g w news hn =>
    refine (settings_nextItem _ n g).trans ?_
    cases news <;> rfl
  case h_5 => rfl

/-- The settings stay as they are unless the host changes them. -/
theorem settings_perform (hop : op.isRoutine = true) :
    (c.perform op).settings = c.settings := by
  cases op with
  | queue | queueFrom => exact settings_push c _
  | addOptions lead items selected multi =>
      exact (settings_push _ _).trans (settings_addLead c lead)
  | addUploader lead options => exact (settings_push _ _).trans (settings_addLead c lead)
  | call owner job => exact settings_push _ _
  | beginWait owner enable =>
      cases enable with
      | true => exact settings_push _ _
      | false => exact settings_listen _ _
  | dropWait k =>
      show (c.dropWait k).settings = _
      unfold dropWait
      split <;> rfl
  | stepWait k => exact settings_stepWait c k
  | stepNotice k =>
      show (c.stepNotice k).settings = _
      unfold stepNotice
      split
      · rfl
      · split <;> rfl
      · rfl
  | stepPump k => exact settings_stepPump c k
  | clear =>
      obtain ⟨signals, heq⟩ := clear_eq c
      rw [perform, heq]
  | dropCall ticket =>
      rw [perform]
      split <;> rfl
  | add | replace | setSettings | setTimeout => cases hop
  | addFrom | report | setFixme | setValidator | setInput | useFixme | pass => rfl

/-- The clock stays as it is, and time passes only by itself. -/
theorem clock_perform (hw : c.WorkedOff) (op : Operation) : (c.perform op).clock = c.clock := by
  have hpost : ∀ {b : Post}, (c.perform op).post = b → b.clock = c.clock →
      (c.perform op).clock = c.clock := fun hp hb => (congrArg Post.clock hp).trans hb
  cases postStep_perform hw op with
  | stay hd ha hp | pass hop hp | deliver hd ha hu hp | add hd ha hp | tell hd ha hu hp
  | begin hop hn hp | send hop hn hdue hp => exact hpost hp rfl

theorem now_perform (hw : c.WorkedOff) (hop : ∀ ms, op ≠ .pass ms) :
    (c.perform op).now = c.now := by
  have hpost : ∀ {b : Post}, (c.perform op).post = b → b.now = c.now →
      (c.perform op).now = c.now := fun hp hb => (congrArg Post.now hp).trans hb
  cases postStep_perform hw op with
  | pass h hp => exact absurd h (hop _)
  | stay hd ha hp | deliver hd ha hu hp | add hd ha hp | tell hd ha hu hp | begin h hn hp
  | send h hn hdue hp => exact hpost hp rfl

/-! ## What was delivered is told of -/

theorem delivers_of_lands {i : Nat} {d : Delivery} (h : c.lands op = [(i, d)]) :
    c.delivers op = [c.messageAt i d.payload] := by
  cases op with
  | stepPump n =>
      rcases hn : c.pumps[n]? with _ | ⟨g, stage⟩
      · simp [lands, hn] at h
      · cases stage with
        | typing d' placeholder due =>
            by_cases hdue : due ≤ c.now ∧ c.generation = g
            · simp only [lands, hn, if_pos hdue, List.cons.injEq, Prod.mk.injEq, and_true] at h
              obtain ⟨rfl, rfl⟩ := h
              simp only [delivers, hn, if_pos hdue]
            · simp [lands, hn, hdue] at h
        | taken | calling | through | ended => simp [lands, hn] at h
  | _ => cases h

theorem exists_lands_of_delivers (h : c.delivers op = [m]) (ha : c.announces op = []) :
    ∃ x, c.lands op = [x] := by
  cases op with
  | stepPump n =>
      rcases hn : c.pumps[n]? with _ | ⟨g, stage⟩
      · simp [delivers, hn] at h
      · cases stage with
        | typing d placeholder due =>
            by_cases hdue : due ≤ c.now ∧ c.generation = g
            · exact ⟨(placeholder, d), by simp only [lands, hn, if_pos hdue]⟩
            · simp [delivers, hn, hdue] at h
        | taken | calling | through | ended => simp [delivers, hn] at h
  | addFrom text => cases ha
  | _ => cases h

/-- Only an answer is told of at once. -/
theorem isFromScript_of_add (hd : c.delivers op = [m]) (ha : c.announces op = [m]) :
    (∃ text, op = .addFrom text) ∧ m.isFromScript = false := by
  cases op with
  | addFrom text =>
      cases ha
      exact ⟨⟨text, rfl⟩, rfl⟩
  | stepPump n =>
      rcases hn : c.pumps[n]? with _ | ⟨g, stage⟩
      · simp [delivers, hn] at hd
      · cases stage with
        | typing d placeholder due => simp [announces, hn] at ha
        | taken | calling | through | ended => simp [delivers, hn] at hd
  | _ => cases hd

/-! ## Few notices at a time -/

/-- The time at which a notice is sent that is made now. -/
def horizon (c : Conversation) : Nat := c.clock.due c.now c.settings.timeout

/-- The number of messages that can be told of before time passes. -/
def brewing (c : Conversation) : Nat := c.untold.length + c.ripeAt c.now

/-- Not more notices than a limit fall due at the same time, and a subscriber that has seen some of
them is not behind by more, also when some more answers are given before time passes. -/
structure Paced (c : Conversation) (limit seen answers : Nat) : Prop where
  seen_le : seen ≤ c.sent.length
  soon : ∀ due ∈ c.post.dues, due ≤ c.horizon
  few : ∀ due, c.post.dues.count due ≤ limit
  fresh : c.post.dues.count c.horizon + (c.brewing + answers) ≤ limit
  dues_eq_nil : c.settings.timeout = 0 → c.post.dues = []
  behind : c.sent.length - seen + c.post.dues.countP (· ≤ c.now) +
    (if c.settings.timeout = 0 then c.brewing + answers else 0) ≤ limit

theorem lt_horizon (hc : c.clock = .running) : c.now < c.horizon := by
  rw [horizon, hc]
  show c.now < c.now + c.settings.timeout / 10 + 1
  omega

/-- Neither the time nor the settings change. -/
structure SameTime (c c' : Conversation) : Prop where
  now : c'.now = c.now
  clock : c'.clock = c.clock
  settings : c'.settings = c.settings

theorem SameTime.horizon (h : SameTime c c') : c'.horizon = c.horizon := by
  rw [Conversation.horizon, Conversation.horizon, h.now, h.clock, h.settings]

theorem sameTime_perform (hw : c.WorkedOff) (hr : op.isRoutine = true)
    (hop : ∀ ms, op ≠ .pass ms) : SameTime c (c.perform op) :=
  ⟨now_perform hw hop, clock_perform hw op, settings_perform hr⟩

/-- No message is told of and no notice is sent. -/
theorem Paced.stay (h : c.Paced limit seen answers) (ht : SameTime c c')
    (hd : c'.post.dues = c.post.dues) (hs : c'.sent = c.sent)
    (hb : c'.brewing + answers' ≤ c.brewing + answers) : c'.Paced limit seen answers' where
  seen_le := hs ▸ h.seen_le
  soon := by
    rw [hd, ht.horizon]
    exact h.soon
  few := by
    rw [hd]
    exact h.few
  fresh := by
    have := h.fresh
    rw [hd, ht.horizon]
    omega
  dues_eq_nil := by
    rw [hd, ht.settings]
    exact h.dues_eq_nil
  behind := by
    have := h.behind
    rw [hd, hs, ht.now, ht.settings]
    split at this
    · next hzero =>
      rw [if_pos hzero]
      omega
    · next hne =>
      rw [if_neg hne]
      omega

/-- Without a delay the notice of a message is sent at once. -/
theorem Paced.announce_of_zero (h : c.Paced limit seen answers) (ht : SameTime c c')
    (hzero : c.settings.timeout = 0) (hd : c'.post.dues = c.post.dues)
    (hs : c'.sent.length = c.sent.length + 1)
    (hb : c'.brewing + answers' + 1 ≤ c.brewing + answers) : c'.Paced limit seen answers' := by
  have hseen := h.seen_le
  have hfresh := h.fresh
  have hbehind := h.behind
  have hnil : c'.post.dues = [] := hd.trans (h.dues_eq_nil hzero)
  rw [if_pos hzero] at hbehind
  constructor
  · omega
  · rw [hnil]
    exact fun _ hmem => by cases hmem
  · rw [hnil]
    exact fun _ => Nat.zero_le limit
  · rw [hnil, List.count_nil]
    omega
  · exact fun _ => hnil
  · rw [hnil, ht.settings, if_pos hzero, List.countP_nil]
    omega

/-- With a delay the notice of a message is sent when the delay is over. -/
theorem Paced.announce_of_ne_zero (h : c.Paced limit seen answers) (ht : SameTime c c')
    (hc : c.clock = .running) (hzero : c.settings.timeout ≠ 0)
    (hd : c'.post.dues = c.post.dues ++ [c.horizon]) (hs : c'.sent = c.sent)
    (hb : c'.brewing + answers' + 1 ≤ c.brewing + answers) : c'.Paced limit seen answers' := by
  have hfresh := h.fresh
  have hbehind := h.behind
  have hlate : ¬c.horizon ≤ c.now := Nat.not_le.mpr (lt_horizon hc)
  rw [if_neg hzero] at hbehind
  constructor
  · exact hs ▸ h.seen_le
  · rw [hd, ht.horizon]
    intro due hmem
    rcases List.mem_append.mp hmem with hmem | hmem
    · exact h.soon due hmem
    · exact Nat.le_of_eq (List.mem_singleton.mp hmem)
  · intro due
    have hfew := h.few due
    rw [hd, List.count_append, List.count_singleton]
    split
    · next he =>
      obtain rfl : c.horizon = due := by simpa using he
      omega
    · omega
  · rw [hd, ht.horizon, List.count_append, List.count_singleton_self]
    omega
  · exact fun h => absurd (ht.settings ▸ h) hzero
  · rw [hd, hs, ht.now, ht.settings, if_neg hzero, List.countP_append, List.countP_singleton]
    simpa [hlate] using hbehind

/-- A message that was brewing, or an answer, is told of. -/
theorem Paced.announce (h : c.Paced limit seen answers) (ht : SameTime c c')
    (hc : c.clock = .running) (hn : c'.notices = (c.announce m).notices)
    (hs : c'.sent = (c.announce m).sent)
    (hb : c'.brewing + answers' + 1 ≤ c.brewing + answers) : c'.Paced limit seen answers' := by
  have hdues : c'.post.dues = (c.announce m).notices.filterMap (dueOf c.clock c.now) := by
    rw [← ht.now, ← ht.clock, ← hn]
    rfl
  by_cases hzero : c.settings.timeout = 0
  · obtain ⟨hn', hs', -⟩ := Post.mk.inj (post_announce_of_zero hzero m)
    refine h.announce_of_zero ht hzero ?_ ?_ hb
    · rw [hdues, hn']
      rfl
    · rw [hs, hs']
      exact List.length_append
  · obtain ⟨hn', hs', -⟩ := Post.mk.inj (post_announce_of_ne_zero hzero m)
    refine h.announce_of_ne_zero ht hc hzero ?_ (hs.trans hs') hb
    rw [hdues, hn', List.filterMap_append]
    rfl

/-- A notice that is due is sent. -/
theorem Paced.send {due : Nat} (h : c.Paced limit seen answers) (ht : SameTime c c')
    (hn : c.notices[n]? = some (.pending m due)) (hdue : due ≤ c.now)
    (hn' : c'.notices = c.notices.set n .sent) (hs : c'.sent = c.sent ++ [m])
    (hb : c'.brewing + answers' ≤ c.brewing + answers) : c'.Paced limit seen answers' := by
  obtain ⟨before, after, hold, -, hset⟩ := exists_notices_eq hn
  have hdues : c.post.dues = before.filterMap (dueOf c.clock c.now) ++
      due :: after.filterMap (dueOf c.clock c.now) := by
    show c.notices.filterMap _ = _
    rw [hold, List.filterMap_append]
    rfl
  have hdues' : c'.post.dues = before.filterMap (dueOf c.clock c.now) ++
      after.filterMap (dueOf c.clock c.now) := by
    show c'.notices.filterMap (dueOf c'.clock c'.now) = _
    rw [hn', hset, ht.now, ht.clock, List.filterMap_append]
    rfl
  have hsub : c'.post.dues.Sublist c.post.dues := by
    rw [hdues, hdues']
    exact (List.Sublist.refl _).append (List.sublist_cons_self _ _)
  have hcount : c.post.dues.countP (· ≤ c.now) = c'.post.dues.countP (· ≤ c.now) + 1 := by
    rw [hdues, hdues', List.countP_append, List.countP_append, List.countP_cons]
    simp [hdue]
    omega
  have hlen : c'.sent.length = c.sent.length + 1 := by
    rw [hs]
    exact List.length_append
  have hseen := h.seen_le
  have hfresh := h.fresh
  have hbehind := h.behind
  constructor
  · omega
  · rw [ht.horizon]
    exact fun d hd => h.soon d (hsub.subset hd)
  · exact fun d => Nat.le_trans (hsub.count_le d) (h.few d)
  · have := hsub.count_le c.horizon
    rw [ht.horizon]
    omega
  · intro hzero
    have hnil := h.dues_eq_nil (ht.settings ▸ hzero)
    rw [hnil] at hsub
    exact List.sublist_nil.mp hsub
  · rw [ht.now, ht.settings]
    split at hbehind
    · next hzero =>
      rw [if_pos hzero]
      omega
    · next hne =>
      rw [if_neg hne]
      omega

/-- The delay of a notice begins when it is made. -/
theorem dues_begin {delay : Nat} (ht : SameTime c c')
    (hn : c.notices[n]? = some (.fresh m delay))
    (hn' : c'.notices = c.notices.set n (.pending m (c.clock.due c.now delay))) :
    c'.post.dues = c.post.dues := by
  obtain ⟨before, after, hold, -, hset⟩ := exists_notices_eq hn
  show c'.notices.filterMap (dueOf c'.clock c'.now) = c.notices.filterMap (dueOf c.clock c.now)
  rw [hn', hset, ht.now, ht.clock, hold, List.filterMap_append, List.filterMap_append]
  rfl

/-- The pace is kept unless time passes, as long as no more answers are given than were counted. -/
theorem Paced.perform (h : c.Paced limit seen answers) (hw : c.WorkedOff) (hc : c.clock = .running)
    (hr : op.isRoutine = true) (hop : ∀ ms, op ≠ .pass ms)
    (ha : answers' + (c.puts op).length ≤ answers) : (c.perform op).Paced limit seen answers' := by
  have ht := sameTime_perform hw hr hop
  have hripe := ripeAt_perform hw hc op
  have hstep := postStep_perform hw op
  rw [← ht.now] at hripe
  generalize c.perform op = c' at ht hripe hstep ⊢
  rw [ht.now] at hripe
  -- A message that lands was ripe before, so those that are brewing do not become more.
  have hbrewing : ∀ k, c'.untold.length + k ≤ c.untold.length + (c.lands op).length +
      (c.puts op).length → c'.brewing + answers' + k ≤ c.brewing + answers := by
    intro k hk
    rw [brewing, brewing, ht.now]
    omega
  have hdues : c'.notices = c.notices → c'.post.dues = c.post.dues := by
    intro hn
    show c'.notices.filterMap (dueOf c'.clock c'.now) = _
    rw [hn, ht.now, ht.clock]
    rfl
  cases hstep with
  | stay hd hnone hp =>
      obtain ⟨hn, hs, hu, -⟩ := Post.mk.inj hp
      exact h.stay ht (hdues hn) hs (hbrewing 0 (by rw [hu]; omega))
  | pass he hp => exact absurd he (hop _)
  | @deliver m before after hd hnone hu hp =>
      obtain ⟨hn, hs, hu', -⟩ := Post.mk.inj hp
      obtain ⟨x, hlands⟩ := exists_lands_of_delivers hd hnone
      refine h.stay ht (hdues hn) hs (hbrewing 0 ?_)
      rw [hu', hu, hlands]
      simp
      omega
  | @add m hd htold hp =>
      obtain ⟨hn, hs, hu', -⟩ := Post.mk.inj hp
      obtain ⟨⟨text, rfl⟩, -⟩ := isFromScript_of_add hd htold
      have hu : c'.untold = c.untold := hu'
      refine h.announce ht hc hn hs (hbrewing 1 ?_)
      rw [hu]
      exact Nat.le_refl _
  | @tell m before after hd htold hu hp =>
      obtain ⟨hn, hs, hu', -⟩ := Post.mk.inj hp
      refine h.announce ht hc hn hs (hbrewing 1 ?_)
      rw [hu', hu]
      simp
      omega
  | begin he hn hp =>
      obtain ⟨hn', hs, hu, -⟩ := Post.mk.inj hp
      refine h.stay ht (dues_begin ht hn hn') hs (hbrewing 0 ?_)
      rw [hu]
      show c.untold.length + 0 ≤ _
      omega
  | send he hn hdue hp =>
      obtain ⟨hn', hs, hu, -⟩ := Post.mk.inj hp
      refine h.send ht hn hdue hn' hs (hbrewing 0 ?_)
      rw [hu]
      show c.untold.length + 0 ≤ _
      omega

/-! ## When time passes -/

/-- Everything was told of, and no notice can go on before time passes. -/
structure Resting (c : Conversation) : Prop where
  untold : c.untold = []
  notices : ∀ n, c.noticeReady n = false

theorem dues_pass (h : ∀ n, c.noticeReady n = false) (ms : Nat) :
    (c.perform (.pass ms)).post.dues = c.post.dues :=
  List.filterMap_congr fun _ hx => dueOf_of_ready h ms hx

theorem lt_of_mem_dues (h : ∀ n, c.noticeReady n = false) {due : Nat}
    (hdue : due ∈ c.post.dues) : c.now < due := by
  obtain ⟨x, hx, hxd⟩ := List.mem_filterMap.mp hdue
  obtain ⟨n, hn⟩ := List.getElem?_of_mem hx
  by_contra hle
  have hready : c.noticeReady n = true := by
    cases x with
    | fresh m delay => exact ready_of_fresh hn
    | pending m due' =>
        cases hxd
        exact ready_of_pending hn (Nat.le_of_not_lt hle)
    | sent => cases hxd
  exact Bool.false_ne_true ((h n).symm.trans hready)

theorem horizon_pass (ms : Nat) (hc : c.clock = .running) (hms : 0 < ms) :
    c.horizon < (c.perform (.pass ms)).horizon := by
  rw [horizon, horizon]
  show c.clock.due c.now c.settings.timeout < c.clock.due (c.now + ms) c.settings.timeout
  rw [hc]
  show c.now + c.settings.timeout / 10 + 1 < c.now + ms + c.settings.timeout / 10 + 1
  omega

/-- The pace is kept when everything has rested and no notice is passed over. A message may land
then, and all others that the limit allows may be answers. -/
theorem Paced.pass {ms : Nat} (h : c.Paced limit seen answers) (hw : c.WorkedOff)
    (hc : c.clock = .running) (hms : 0 < ms) (hrest : c.Resting) (hseen : seen = c.sent.length)
    (hlimit : 0 < limit) (hnext : ∀ due ∈ c.post.dues, c.now + ms ≤ due) :
    (c.perform (.pass ms)).Paced limit seen (limit - 1) := by
  have hdues := dues_pass hrest.notices ms
  have hlater := horizon_pass ms hc hms
  have hripe : (c.perform (.pass ms)).ripeAt (c.now + ms) ≤ 1 := ripeAt_le_one (hw.perform _) _
  have hbrewing : (c.perform (.pass ms)).brewing ≤ 1 := by
    have huntold : (c.perform (.pass ms)).untold = [] := hrest.untold
    rw [brewing, huntold]
    exact Nat.le_trans (Nat.le_of_eq (Nat.zero_add _)) hripe
  have hbehind : c.sent.length - seen = 0 := by
    rw [hseen]
    exact Nat.sub_self _
  constructor
  · exact h.seen_le
  · rw [hdues]
    intro due hmem
    have := h.soon due hmem
    omega
  · rw [hdues]
    exact h.few
  · have hnone : c.post.dues.count (c.perform (.pass ms)).horizon = 0 :=
      List.count_eq_zero.mpr fun hmem => by
        have := h.soon _ hmem
        omega
    rw [hdues, hnone]
    omega
  · rw [hdues]
    exact h.dues_eq_nil
  · show c.sent.length - seen +
      (c.perform (.pass ms)).post.dues.countP (fun due => decide (due ≤ c.now + ms)) +
      (if c.settings.timeout = 0 then (c.perform (.pass ms)).brewing + (limit - 1) else 0) ≤ limit
    rw [hdues, hbehind]
    by_cases hzero : c.settings.timeout = 0
    · rw [h.dues_eq_nil hzero, if_pos hzero, List.countP_nil]
      omega
    · -- What is due by then falls due right then.
      have hcount : c.post.dues.countP (fun due => decide (due ≤ c.now + ms)) =
          c.post.dues.count (c.now + ms) := by
        refine List.countP_congr fun due hmem => ?_
        have := hnext due hmem
        simp only [decide_eq_true_eq, beq_iff_eq]
        omega
      have hfew := h.few (c.now + ms)
      rw [if_neg hzero, hcount]
      omega

end Conversation

end Dialogue
