import Dialogue.Proofs.Input.Waits
/-!
# The input slot has one place

The slot keeps every receiver that was ever given out, and one of them may still be registered when
its owner has gone. What can be seen from outside is simpler: at most one receiver is live, and it
is the one that gets the next value. `SingleSlot` says this of the events of a slot alone: what
comes of an action is determined by the events before it, without a look at the slot.

* `since_append_singleton` — how a property of the past changes with one more event.
* `Mirrors.act` — the events that have happened determine the state of every receiver.
* `InputSlot.events_singleSlot` — so whatever is done with a slot, it is seen as a single one.
-/

namespace Dialogue

/-! ## Properties of the past -/

/-- Something has happened for which `P` held in the light of what was before it, and since then `Q`
has held of all that happened. -/
def Since {α : Type} (P : List α → α → Prop) (Q : α → Prop) (past : List α) : Prop :=
  ∃ before x after, past = before ++ x :: after ∧ P before x ∧ ∀ y ∈ after, Q y

theorem since_append_singleton {α : Type} {P : List α → α → Prop} {Q : α → Prop} {past : List α}
    {e : α} : Since P Q (past ++ [e]) ↔ P past e ∨ (Since P Q past ∧ Q e) := by
  constructor
  · rintro ⟨before, x, after, heq, hx, hafter⟩
    rcases List.eq_nil_or_concat after with rfl | ⟨init, last, rfl⟩
    · obtain ⟨rfl, he⟩ := List.append_inj' heq rfl
      cases he
      exact .inl hx
    · rw [List.concat_eq_append] at heq hafter
      rw [← List.cons_append, ← List.append_assoc] at heq
      obtain ⟨rfl, he⟩ := List.append_inj' heq rfl
      cases he
      refine .inr ⟨⟨before, x, init, rfl, hx, fun y hy => ?_⟩, ?_⟩
      · exact hafter y (List.mem_append_left _ hy)
      · exact hafter e (List.mem_append_right _ List.mem_cons_self)
  · rintro (he | ⟨⟨before, x, after, rfl, hx, hafter⟩, he⟩)
    · exact ⟨past, e, [], rfl, he, nofun⟩
    · refine ⟨before, x, after ++ [e], by simp, hx, fun y hy => ?_⟩
      rcases List.mem_append.mp hy with hy | hy
      · exact hafter y hy
      · rw [List.mem_singleton.mp hy]
        exact he

theorem not_since_nil {α : Type} {P : List α → α → Prop} {Q : α → Prop} : ¬Since P Q [] := by
  rintro ⟨before, x, after, heq, -⟩
  cases before <;> cases heq

/-! ## Actions and events -/

/-- Something that is done with an input slot or with one of its receivers. -/
inductive SlotAction where
  | register
  | report (v : Json)
  | isPending
  | cancel
  /-- The owner of a receiver goes away. -/
  | drop (n : Nat)
  /-- Somebody looks into a receiver. -/
  | receive (n : Nat)

/-- What was done with an input slot, and what came of it. -/
inductive SlotEvent where
  /-- A receiver was given out. -/
  | registered (n : Nat)
  | refused (e : RunError)
  | reported (v : Json) (accepted : Bool)
  | asked (pending : Bool)
  | cancelled
  | dropped (n : Nat)
  /-- What was seen in a receiver. -/
  | received (n : Nat) (r : Receiver)

namespace InputSlot

/-- What comes of an action, and the slot after it. -/
def act (s : InputSlot) : SlotAction → SlotEvent × InputSlot
  | .register =>
    match s.register with
    | .ok (n, s') => (.registered n, s')
    | .error e => (.refused e, s)
  | .report v => (.reported v (s.report? v).isSome, s.report v)
  | .isPending => (.asked s.isPending, s)
  | .cancel => (.cancelled, s.cancel)
  | .drop n => (.dropped n, s.drop n)
  | .receive n => (.received n (s.take n).1, (s.take n).2)

/-- What some actions make of a slot. -/
def after (s : InputSlot) (as : List SlotAction) : InputSlot :=
  as.foldl (fun s a => (s.act a).2) s

/-- What comes of some actions. -/
def events (s : InputSlot) : List SlotAction → List SlotEvent
  | [] => []
  | a :: as => (s.act a).1 :: (s.act a).2.events as

end InputSlot

/-! ## What the events say -/

/-- Is a receiver that was live no longer so after the event? It has got a value, or it was
cancelled, or its owner has gone. -/
def SlotEvent.Ends (n : Nat) : SlotEvent → Prop
  | .reported _ true => True
  | .cancelled => True
  | .dropped m => m = n
  | _ => False

/-- A receiver was given out and is neither answered nor cancelled nor dropped. -/
def Live (past : List SlotEvent) (n : Nat) : Prop :=
  Since (fun _ e => e = .registered n) (fun e => ¬e.Ends n) past

/-- A value was reported while the receiver was live, and it was not taken yet. -/
def Answered (past : List SlotEvent) (n : Nat) (v : Json) : Prop :=
  Since (fun before e => e = .reported v true ∧ Live before n)
    (fun e => e ≠ .dropped n ∧ ∀ w, e ≠ .received n (.holding w)) past

/-- A receiver was cancelled while it was live, or its value was taken. -/
def Shut (past : List SlotEvent) (n : Nat) : Prop :=
  Since (fun before e => (e = .cancelled ∧ Live before n) ∨ ∃ v, e = .received n (.holding v))
    (fun e => e ≠ .dropped n) past

/-- A receiver was given out and not dropped. -/
def Held (past : List SlotEvent) (n : Nat) : Prop :=
  Since (fun _ e => e = .registered n) (fun e => e ≠ .dropped n) past

/-- What is to be seen in a receiver. -/
def Sees (past : List SlotEvent) (n : Nat) : Receiver → Prop
  | .waiting => Live past n
  | .holding v => Answered past n v
  | .closed => Shut past n
  | .dropped => ¬Held past n

/-- What comes of an action in the light of the events before it. -/
def Fits (past : List SlotEvent) : SlotEvent → Prop
  | .registered n => (∀ m, ¬Live past m) ∧ .registered n ∉ past
  | .refused e => e = .inputAlreadyPending ∧ ∃ m, Live past m
  | .reported _ accepted => accepted = true ↔ ∃ m, Live past m
  | .asked pending => pending = true ↔ ∃ m, Live past m
  | .cancelled => True
  | .dropped _ => True
  | .received n r => (∀ x, r = x ↔ Sees past n x) ∧
      ∀ v w, r = .holding v → .received n (.holding w) ∉ past

/-- The events are those of a single slot: each of them fits those before it, and no two receivers
are ever live at once. -/
structure SingleSlot (es : List SlotEvent) : Prop where
  fits : ∀ before e after, es = before ++ e :: after → Fits before e
  one : ∀ before after, es = before ++ after → ∀ m n, Live before m → Live before n → m = n

variable {s : InputSlot} {past : List SlotEvent} {e : SlotEvent} {m n : Nat} {v : Json}

theorem live_append : Live (past ++ [e]) n ↔ e = .registered n ∨ (Live past n ∧ ¬e.Ends n) :=
  since_append_singleton

theorem answered_append : Answered (past ++ [e]) n v ↔ (e = .reported v true ∧ Live past n) ∨
    (Answered past n v ∧ e ≠ .dropped n ∧ ∀ w, e ≠ .received n (.holding w)) :=
  since_append_singleton

theorem shut_append : Shut (past ++ [e]) n ↔
    ((e = .cancelled ∧ Live past n) ∨ ∃ v, e = .received n (.holding v)) ∨
      (Shut past n ∧ e ≠ .dropped n) :=
  since_append_singleton

theorem held_append : Held (past ++ [e]) n ↔ e = .registered n ∨ (Held past n ∧ e ≠ .dropped n) :=
  since_append_singleton

/-! ## The reach of an event -/

/-- Is a receiver out of the reach of an event? -/
def Spares (past : List SlotEvent) (n : Nat) : SlotEvent → Prop
  | .registered m => m ≠ n
  | .dropped m => m ≠ n
  | .received m (.holding _) => m ≠ n
  | .reported _ true => ¬Live past n
  | .cancelled => ¬Live past n
  | _ => True

/-- A receiver that is out of the reach of an event is seen as before. -/
theorem sees_append_of_spares (h : Spares past n e) (x : Receiver) :
    Sees (past ++ [e]) n x ↔ Sees past n x := by
  have hregistered : e ≠ .registered n := by
    rintro rfl
    exact h rfl
  have hdropped : e ≠ .dropped n := by
    rintro rfl
    exact h rfl
  have hreceived : ∀ w, e ≠ .received n (.holding w) := by
    rintro w rfl
    exact h rfl
  have hends : Live past n → ¬e.Ends n := by
    intro hl he
    cases e with
    | reported w accepted =>
        cases accepted with
        | true => exact h hl
        | false => exact he
    | cancelled => exact h hl
    | dropped m => exact h he
    | registered | refused | asked | received => exact he
  cases x with
  | waiting =>
      show Live _ n ↔ Live _ n
      rw [live_append]
      exact ⟨fun h => h.elim (absurd · hregistered) And.left, fun h => .inr ⟨h, hends h⟩⟩
  | holding v =>
      show Answered _ n v ↔ Answered _ n v
      rw [answered_append]
      refine ⟨fun ha => ?_, fun ha => .inr ⟨ha, hdropped, hreceived⟩⟩
      rcases ha with ⟨rfl, hl⟩ | ha
      · exact absurd hl h
      · exact ha.1
  | closed =>
      show Shut _ n ↔ Shut _ n
      rw [shut_append]
      refine ⟨fun hs => ?_, fun hs => .inr ⟨hs, hdropped⟩⟩
      rcases hs with (⟨rfl, hl⟩ | ⟨v, he⟩) | hs
      · exact absurd hl h
      · exact absurd he (hreceived v)
      · exact hs.1
  | dropped =>
      show ¬Held _ n ↔ ¬Held _ n
      rw [held_append]
      exact not_congr
        ⟨fun h => h.elim (absurd · hregistered) And.left, fun h => .inr ⟨h, hdropped⟩⟩

/-! ## What is left of a receiver -/

theorem receiver_setReceiver_ne_waiting {x : Receiver} (hx : x ≠ .waiting) :
    (s.setReceiver n x).receiver n ≠ .waiting := by
  rcases InputSlot.receiver_setReceiver_cases s n x with h | h
  · rw [h]
    exact hx
  · rw [h]
    exact Receiver.noConfusion

theorem waiter?_setReceiver {x : Receiver} {k : Nat} (hx : x ≠ .waiting) :
    (s.setReceiver n x).waiter? = some k ↔ s.waiter? = some k ∧ k ≠ n := by
  rw [InputSlot.waiter?_eq_some_iff, InputSlot.waiter?_eq_some_iff]
  by_cases hk : k = n
  · subst hk
    exact ⟨fun h => absurd h.2 (receiver_setReceiver_ne_waiting hx), fun h => absurd rfl h.2⟩
  · rw [InputSlot.receiver_setReceiver_of_ne hk]
    exact ⟨fun h => ⟨h, hk⟩, And.left⟩

theorem receivers_release_of_free {x : Receiver} (hfree : s.waiter? = none) :
    (s.release x).receivers = s.receivers := by
  rw [InputSlot.release, hfree]

theorem receivers_release_of_waiter {x : Receiver} (hn : s.waiter? = some n) :
    (s.release x).receivers = s.receivers.set n x := by
  rw [InputSlot.release, hn]
  rfl

/-! ## The events determine the slot -/

/-- The events are those that have led to the slot. -/
structure Mirrors (s : InputSlot) (past : List SlotEvent) : Prop where
  given : ∀ n, n < s.receivers.length ↔ .registered n ∈ past
  registered : ∀ n, s.receiver n = .waiting → s.registered = some n
  sees : ∀ n x, s.receiver n = x ↔ Sees past n x
  taken : ∀ n v, .received n (.holding v) ∈ past →
    n < s.receivers.length ∧ (s.receiver n = .closed ∨ s.receiver n = .dropped)

theorem mirrors_empty : Mirrors .empty [] where
  given _ := ⟨nofun, nofun⟩
  registered _ h := by cases h
  sees n x := by
    have hempty : InputSlot.empty.receiver n = .dropped := rfl
    rw [hempty]
    cases x with
    | waiting | holding | closed => exact ⟨nofun, fun h => absurd h not_since_nil⟩
    | dropped => exact ⟨fun _ => not_since_nil, fun _ => rfl⟩
  taken _ _ h := by cases h

theorem Mirrors.live_iff (h : Mirrors s past) : Live past n ↔ s.waiter? = some n := by
  rw [InputSlot.waiter?_eq_some_iff]
  constructor
  · intro hl
    have hw : s.receiver n = .waiting := (h.sees n .waiting).mpr hl
    exact ⟨h.registered n hw, hw⟩
  · rintro ⟨-, hw⟩
    exact (h.sees n .waiting).mp hw

theorem Mirrors.isPending_iff (h : Mirrors s past) : s.isPending = true ↔ ∃ m, Live past m := by
  rw [InputSlot.isPending, Option.isSome_iff_exists]
  simp only [h.live_iff]

theorem Mirrors.not_answered (h : Mirrors s past) (hn : s.receiver n = .waiting) :
    ¬Answered past n v := by
  intro ha
  have hv := (h.sees n (.holding v)).mpr ha
  rw [hn] at hv
  cases hv

theorem Mirrors.not_shut (h : Mirrors s past) (hn : s.receiver n = .waiting) :
    ¬Shut past n := by
  intro hs
  have hv := (h.sees n .closed).mpr hs
  rw [hn] at hv
  cases hv

theorem Mirrors.held (h : Mirrors s past) (hn : s.receiver n ≠ .dropped) : Held past n := by
  by_contra hh
  exact hn ((h.sees n .dropped).mpr hh)

/-- An event in the reach of no receiver that leaves them all as they are. -/
theorem Mirrors.stay {s' : InputSlot} (h : Mirrors s past) (he : ∀ n, Spares past n e)
    (hs : s'.receivers = s.receivers)
    (hreg : ∀ n, s.receiver n = .waiting → s'.registered = some n) : Mirrors s' (past ++ [e]) := by
  have hrec : ∀ n, s'.receiver n = s.receiver n := fun n => by
    rw [InputSlot.receiver, InputSlot.receiver, hs]
  constructor
  · intro n
    rw [hs, h.given, List.mem_append, List.mem_singleton]
    refine ⟨.inl, fun hmem => hmem.resolve_right ?_⟩
    rintro rfl
    exact he n rfl
  · intro n hn
    exact hreg n (hrec n ▸ hn)
  · intro n x
    rw [hrec, h.sees, sees_append_of_spares (he n)]
  · intro n v hmem
    rw [hs, hrec]
    refine h.taken n v ((List.mem_append.mp hmem).resolve_right ?_)
    rw [List.mem_singleton]
    rintro rfl
    exact he n rfl

/-- An event in the reach of one receiver, which waits no longer then. -/
theorem Mirrors.change {s' : InputSlot} {x : Receiver} (h : Mirrors s past)
    (hs : s'.receivers = s.receivers.set n x) (hx : x ≠ .waiting)
    (hreg : ∀ m, m ≠ n → s.receiver m = .waiting → s'.registered = some m)
    (hfar : ∀ m, m ≠ n → Spares past m e) (hnew : e ≠ .registered n)
    (hsees : ∀ y, s'.receiver n = y ↔ Sees (past ++ [e]) n y)
    (htaken : ∀ v, .received n (.holding v) ∈ past ++ [e] →
      n < s.receivers.length ∧ (s'.receiver n = .closed ∨ s'.receiver n = .dropped)) :
    Mirrors s' (past ++ [e]) := by
  have hne : ∀ m, m ≠ n → s'.receiver m = s.receiver m := by
    intro m hm
    rw [InputSlot.receiver, hs]
    exact InputSlot.receiver_setReceiver_of_ne hm
  constructor
  · intro m
    rw [hs, List.length_set, h.given, List.mem_append, List.mem_singleton]
    refine ⟨.inl, fun hmem => hmem.resolve_right ?_⟩
    rintro rfl
    by_cases hm : m = n
    · exact hnew (hm ▸ rfl)
    · exact hfar m hm rfl
  · intro m hwait
    by_cases hm : m = n
    · subst hm
      rw [InputSlot.receiver, hs] at hwait
      exact absurd hwait (receiver_setReceiver_ne_waiting hx)
    · exact hreg m hm (hne m hm ▸ hwait)
  · intro m y
    by_cases hm : m = n
    · rw [hm]
      exact hsees y
    · rw [hne m hm, h.sees, sees_append_of_spares (hfar m hm)]
  · intro m v hmem
    rw [hs, List.length_set]
    by_cases hm : m = n
    · subst hm
      exact htaken v hmem
    · rw [hne m hm]
      refine h.taken m v ((List.mem_append.mp hmem).resolve_right ?_)
      rw [List.mem_singleton]
      rintro rfl
      exact hfar m hm rfl

theorem Mirrors.register (h : Mirrors s past) (hfree : s.isPending = false) :
    Mirrors s.opened (past ++ [.registered s.receivers.length]) := by
  have hnone : ∀ m, ¬Live past m := fun m hm => by
    rw [h.isPending_iff.mpr ⟨m, hm⟩] at hfree
    cases hfree
  have hdropped : s.receiver s.receivers.length = .dropped :=
    InputSlot.receiver_of_le (Nat.le_refl _)
  have hne : ∀ m, m ≠ s.receivers.length → s.opened.receiver m = s.receiver m :=
    fun _ => InputSlot.receiver_opened_of_ne
  constructor
  · intro m
    rw [InputSlot.length_receivers_opened, List.mem_append, ← h.given, List.mem_singleton,
      SlotEvent.registered.injEq]
    omega
  · intro m hm
    by_cases hlast : m = s.receivers.length
    · rw [hlast]
      rfl
    · rw [hne m hlast] at hm
      exact absurd ((h.sees m .waiting).mp hm) (hnone m)
  · intro m x
    by_cases hlast : m = s.receivers.length
    · subst hlast
      rw [InputSlot.receiver_opened_self]
      -- The receiver was never given out before, so nothing that was said of it is left.
      cases x with
      | waiting => exact ⟨fun _ => live_append.mpr (.inl rfl), fun _ => rfl⟩
      | holding v =>
          refine ⟨Receiver.noConfusion, fun ha => ?_⟩
          rcases answered_append.mp ha with ⟨he, -⟩ | ⟨ha, -⟩
          · cases he
          · have hv := (h.sees _ (.holding v)).mpr ha
            rw [hdropped] at hv
            cases hv
      | closed =>
          refine ⟨Receiver.noConfusion, fun ha => ?_⟩
          rcases shut_append.mp ha with (⟨he, -⟩ | ⟨v, he⟩) | ⟨ha, -⟩
          · cases he
          · cases he
          · have hv := (h.sees _ .closed).mpr ha
            rw [hdropped] at hv
            cases hv
      | dropped => exact ⟨Receiver.noConfusion, fun hh => absurd (held_append.mpr (.inl rfl)) hh⟩
    · have hspares : Spares past m (.registered s.receivers.length) := Ne.symm hlast
      rw [hne m hlast, h.sees, sees_append_of_spares hspares]
  · intro m v hmem
    rcases List.mem_append.mp hmem with hmem | hmem
    · obtain ⟨hlt, htaken⟩ := h.taken m v hmem
      rw [hne m (Nat.ne_of_lt hlt)]
      rw [InputSlot.length_receivers_opened]
      exact ⟨Nat.lt_succ_of_lt hlt, htaken⟩
    · cases List.mem_singleton.mp hmem

/-- The receiver that waits, if there is one, waits no longer. -/
theorem Mirrors.release {x : Receiver} (h : Mirrors s past) (hx : x ≠ .waiting)
    (hspares : ∀ m, ¬Live past m → Spares past m e)
    (htaken : ∀ m v, e ≠ .received m (.holding v)) (hnew : ∀ m, e ≠ .registered m)
    (hsees : ∀ n, Live past n → ∀ y, x = y ↔ Sees (past ++ [e]) n y) :
    Mirrors (s.release x) (past ++ [e]) := by
  have hlive : ∀ m, s.receiver m = .waiting → Live past m := fun m => (h.sees m .waiting).mp
  cases hw : s.waiter? with
  | none =>
      have hnone : ∀ m, ¬Live past m := by
        intro m hm
        rw [h.live_iff, hw] at hm
        cases hm
      exact h.stay (fun m => hspares m (hnone m)) (receivers_release_of_free hw)
        fun m hm => absurd (hlive m hm) (hnone m)
  | some n =>
      have hn : Live past n := h.live_iff.mpr hw
      have hne : ∀ m, m ≠ n → ¬Live past m := by
        intro m hm hl
        rw [h.live_iff, hw] at hl
        cases hl
        exact hm rfl
      refine h.change (receivers_release_of_waiter hw) hx
        (fun m hm hwait => absurd (hlive m hwait) (hne m hm)) (fun m hm => hspares m (hne m hm))
        (hnew n) ?_ fun v hmem => ?_
      · rw [InputSlot.receiver_release_self hw]
        exact hsees n hn
      · -- A receiver whose value was taken does not wait.
        have hmem := (List.mem_append.mp hmem).resolve_right fun hlast =>
          htaken n v (List.mem_singleton.mp hlast).symm
        have hwait := (h.sees n .waiting).mpr hn
        obtain ⟨-, hclosed | hdropped⟩ := h.taken n v hmem
        · rw [hwait] at hclosed
          cases hclosed
        · rw [hwait] at hdropped
          cases hdropped

theorem Mirrors.report (h : Mirrors s past) (v : Json) :
    Mirrors (s.report v) (past ++ [.reported v s.isPending]) := by
  rw [InputSlot.report_eq]
  refine h.release Receiver.noConfusion (fun m hm => ?_) (fun _ _ => SlotEvent.noConfusion)
    (fun _ => SlotEvent.noConfusion) fun n hn y => ?_
  · cases s.isPending with
    | true => exact hm
    | false => trivial
  · have hwait := (h.sees n .waiting).mpr hn
    rw [h.isPending_iff.mpr ⟨n, hn⟩]
    cases y with
    | waiting =>
        refine ⟨nofun, fun hl => ?_⟩
        rcases live_append.mp hl with he | ⟨-, he⟩
        · cases he
        · exact absurd trivial he
    | holding w =>
        constructor
        · rintro ⟨⟩
          exact answered_append.mpr (.inl ⟨rfl, hn⟩)
        · intro ha
          rcases answered_append.mp ha with ⟨he, -⟩ | ⟨ha, -⟩
          · cases he
            rfl
          · exact absurd ha (h.not_answered hwait)
    | closed =>
        refine ⟨nofun, fun hs => ?_⟩
        rcases shut_append.mp hs with (⟨he, -⟩ | ⟨w, he⟩) | ⟨hs, -⟩
        · cases he
        · cases he
        · exact absurd hs (h.not_shut hwait)
    | dropped =>
        refine ⟨nofun, fun hh => absurd (held_append.mpr (.inr ⟨?_, SlotEvent.noConfusion⟩)) hh⟩
        exact h.held (hwait ▸ Receiver.noConfusion)

theorem Mirrors.cancel (h : Mirrors s past) : Mirrors s.cancel (past ++ [.cancelled]) := by
  rw [InputSlot.cancel_eq]
  refine h.release Receiver.noConfusion (fun _ => id) (fun _ _ => SlotEvent.noConfusion)
    (fun _ => SlotEvent.noConfusion) fun n hn y => ?_
  have hwait := (h.sees n .waiting).mpr hn
  cases y with
  | waiting =>
      refine ⟨nofun, fun hl => ?_⟩
      rcases live_append.mp hl with he | ⟨-, he⟩
      · cases he
      · exact absurd trivial he
  | holding w =>
      refine ⟨nofun, fun ha => ?_⟩
      rcases answered_append.mp ha with ⟨he, -⟩ | ⟨ha, -⟩
      · cases he
      · exact absurd ha (h.not_answered hwait)
  | closed => exact ⟨fun _ => shut_append.mpr (.inl (.inl ⟨rfl, hn⟩)), fun _ => rfl⟩
  | dropped =>
      refine ⟨nofun, fun hh => absurd (held_append.mpr (.inr ⟨?_, SlotEvent.noConfusion⟩)) hh⟩
      exact h.held (hwait ▸ Receiver.noConfusion)

theorem Mirrors.drop (h : Mirrors s past) (n : Nat) :
    Mirrors (s.drop n) (past ++ [.dropped n]) := by
  have hdropped : (s.drop n).receiver n = .dropped :=
    (InputSlot.receiver_setReceiver_cases s n .dropped).elim id id
  refine h.change rfl Receiver.noConfusion (fun m _ => h.registered m) (fun m hm => Ne.symm hm)
    SlotEvent.noConfusion (fun y => ?_) fun v hmem => ?_
  · rw [hdropped]
    cases y with
    | waiting =>
        refine ⟨Receiver.noConfusion, fun hl => ?_⟩
        rcases live_append.mp hl with he | ⟨-, he⟩
        · cases he
        · exact absurd rfl he
    | holding w =>
        refine ⟨Receiver.noConfusion, fun ha => ?_⟩
        rcases answered_append.mp ha with ⟨he, -⟩ | ⟨-, hne, -⟩
        · cases he
        · exact absurd rfl hne
    | closed =>
        refine ⟨Receiver.noConfusion, fun hs => ?_⟩
        rcases shut_append.mp hs with (⟨he, -⟩ | ⟨w, he⟩) | ⟨-, hne⟩
        · cases he
        · cases he
        · exact absurd rfl hne
    | dropped =>
        refine ⟨fun _ hh => ?_, fun _ => rfl⟩
        rcases held_append.mp hh with he | ⟨-, hne⟩
        · cases he
        · exact hne rfl
  · rcases List.mem_append.mp hmem with hmem | hmem
    · exact ⟨(h.taken n v hmem).1, .inr hdropped⟩
    · cases List.mem_singleton.mp hmem

/-- A value is taken out of a receiver. -/
theorem Mirrors.takeValue (h : Mirrors s past) (hv : s.receiver n = .holding v) :
    Mirrors (s.setReceiver n .closed) (past ++ [.received n (.holding v)]) := by
  have hlt : n < s.receivers.length := by
    apply InputSlot.lt_of_receiver
    rw [hv]
    exact Receiver.noConfusion
  have hclosed : (s.setReceiver n .closed).receiver n = .closed :=
    InputSlot.receiver_setReceiver_self hlt
  refine h.change rfl Receiver.noConfusion (fun m _ => h.registered m) (fun m hm => Ne.symm hm)
    SlotEvent.noConfusion (fun y => ?_) fun v _ => ⟨hlt, .inl hclosed⟩
  rw [hclosed]
  cases y with
  | waiting =>
      refine ⟨nofun, fun hl => ?_⟩
      rcases live_append.mp hl with he | ⟨hl, -⟩
      · cases he
      · rw [(h.sees n .waiting).mpr hl] at hv
        cases hv
  | holding w =>
      refine ⟨nofun, fun ha => ?_⟩
      rcases answered_append.mp ha with ⟨he, -⟩ | ⟨-, -, hne⟩
      · cases he
      · exact absurd rfl (hne v)
  | closed => exact ⟨fun _ => shut_append.mpr (.inl (.inr ⟨v, rfl⟩)), fun _ => rfl⟩
  | dropped =>
      refine ⟨nofun, fun hh => absurd (held_append.mpr (.inr ⟨?_, SlotEvent.noConfusion⟩)) hh⟩
      exact h.held (hv ▸ Receiver.noConfusion)

theorem Mirrors.act (h : Mirrors s past) (a : SlotAction) :
    Mirrors (s.act a).2 (past ++ [(s.act a).1]) := by
  cases a with
  | register =>
      cases hp : s.isPending with
      | true =>
          simp only [InputSlot.act, InputSlot.register, hp, if_true]
          exact h.stay (fun _ => trivial) rfl h.registered
      | false =>
          simp only [InputSlot.act, InputSlot.register, hp, Bool.false_eq_true, if_false]
          exact h.register hp
  | report v =>
      have hacc : (s.report? v).isSome = s.isPending := Option.isSome_map ..
      show Mirrors (s.report v) (past ++ [.reported v (s.report? v).isSome])
      rw [hacc]
      exact h.report v
  | isPending => exact h.stay (fun _ => trivial) rfl h.registered
  | cancel => exact h.cancel
  | drop n => exact h.drop n
  | receive n =>
      show Mirrors (s.take n).2 (past ++ [.received n (s.take n).1])
      rw [InputSlot.take]
      cases hr : s.receiver n with
      | holding v => exact h.takeValue hr
      | waiting | closed | dropped => exact h.stay (fun _ => trivial) rfl h.registered

/-- What comes of an action fits the events before it. -/
theorem Mirrors.fits (h : Mirrors s past) (a : SlotAction) : Fits past (s.act a).1 := by
  cases a with
  | register =>
      cases hp : s.isPending with
      | true =>
          simp only [InputSlot.act, InputSlot.register, hp, if_true]
          exact ⟨rfl, h.isPending_iff.mp hp⟩
      | false =>
          simp only [InputSlot.act, InputSlot.register, hp, Bool.false_eq_true, if_false]
          refine ⟨fun m hm => ?_, fun hmem => ?_⟩
          · rw [h.isPending_iff.mpr ⟨m, hm⟩] at hp
            cases hp
          · exact Nat.lt_irrefl _ ((h.given _).mpr hmem)
  | report v =>
      show (s.report? v).isSome = true ↔ _
      rw [InputSlot.report?, Option.isSome_map]
      exact h.isPending_iff
  | isPending => exact h.isPending_iff
  | cancel => trivial
  | drop n => trivial
  | receive n =>
      have hsees : (s.take n).1 = s.receiver n := by
        rw [InputSlot.take]
        cases s.receiver n <;> rfl
      show (∀ x, (s.take n).1 = x ↔ _) ∧ ∀ v w, (s.take n).1 = .holding v → _
      rw [hsees]
      refine ⟨h.sees n, fun v w hv hmem => ?_⟩
      obtain ⟨-, hclosed | hdropped⟩ := h.taken n w hmem
      · rw [hv] at hclosed
        cases hclosed
      · rw [hv] at hdropped
        cases hdropped

/-! ## Whatever is done -/

theorem Mirrors.after (h : Mirrors s past) (as : List SlotAction) :
    Mirrors (s.after as) (past ++ s.events as) := by
  induction as generalizing s past with
  | nil =>
      rw [InputSlot.events, List.append_nil]
      exact h
  | cons a as ih =>
      have hrest := ih (h.act a)
      rw [List.append_assoc, List.singleton_append] at hrest
      exact hrest

/-- What comes first of some actions comes of the first of them. -/
theorem exists_actions {as : List SlotAction} {before after : List SlotEvent}
    (h : s.events as = before ++ after) :
    ∃ bs cs, before = s.events bs ∧ after = (s.after bs).events cs := by
  induction before generalizing s as with
  | nil => exact ⟨[], as, rfl, h.symm⟩
  | cons e before ih =>
      cases as with
      | nil => cases h
      | cons a as =>
          obtain ⟨he, hrest⟩ := List.cons.inj h
          obtain ⟨bs, cs, hbefore, hafter⟩ := ih hrest
          refine ⟨a :: bs, cs, ?_, hafter⟩
          rw [InputSlot.events, hbefore, he]

theorem Mirrors.singleSlot (h : Mirrors s []) (as : List SlotAction) :
    SingleSlot (s.events as) where
  fits before e after heq := by
    obtain ⟨bs, cs, hbefore, hafter⟩ := exists_actions heq
    have hmirrors := h.after bs
    rw [List.nil_append, ← hbefore] at hmirrors
    cases cs with
    | nil => cases hafter
    | cons a cs =>
        obtain ⟨rfl, -⟩ := List.cons.inj hafter
        exact hmirrors.fits a
  one before after heq m n hm hn := by
    obtain ⟨bs, cs, hbefore, -⟩ := exists_actions heq
    have hmirrors := h.after bs
    rw [List.nil_append, ← hbefore] at hmirrors
    rw [hmirrors.live_iff] at hm hn
    exact Option.some.inj (hm.symm.trans hn)

/-! ## A value that nobody waits for -/

variable {s' : InputSlot}

/-- The two slots differ at most in a registered receiver that does not wait. -/
structure SameReceivers (s s' : InputSlot) : Prop where
  receivers : s'.receivers = s.receivers
  waiter : s'.waiter? = s.waiter?

theorem SameReceivers.isPending (h : SameReceivers s s') : s'.isPending = s.isPending := by
  rw [InputSlot.isPending, InputSlot.isPending, h.waiter]

theorem SameReceivers.receiver (h : SameReceivers s s') (n : Nat) :
    s'.receiver n = s.receiver n := by
  rw [InputSlot.receiver, InputSlot.receiver, h.receivers]

theorem SameReceivers.setReceiver {x : Receiver} (h : SameReceivers s s') (hx : x ≠ .waiting)
    (n : Nat) : SameReceivers (s.setReceiver n x) (s'.setReceiver n x) where
  receivers := congrArg (List.set · n x) h.receivers
  waiter := by
    apply Option.ext
    intro k
    rw [waiter?_setReceiver hx, waiter?_setReceiver hx, h.waiter]

theorem SameReceivers.release (h : SameReceivers s s') (x : Receiver) :
    SameReceivers (s.release x) (s'.release x) where
  receivers := by
    cases hw : s.waiter? with
    | none =>
        rw [receivers_release_of_free hw, receivers_release_of_free (h.waiter.trans hw),
          h.receivers]
    | some n =>
        rw [receivers_release_of_waiter hw, receivers_release_of_waiter (h.waiter.trans hw),
          h.receivers]
  waiter := by rw [InputSlot.waiter?_release, InputSlot.waiter?_release]

/-- Nothing that is done with the two slots tells them apart. -/
theorem SameReceivers.act (h : SameReceivers s s') (a : SlotAction) :
    (s'.act a).1 = (s.act a).1 ∧ SameReceivers (s.act a).2 (s'.act a).2 := by
  cases a with
  | register =>
      simp only [InputSlot.act, InputSlot.register, h.isPending, h.receivers]
      cases s.isPending with
      | true => exact ⟨rfl, h⟩
      | false => exact ⟨rfl, ⟨rfl, rfl⟩⟩
  | report v =>
      refine ⟨?_, ?_⟩
      · show SlotEvent.reported v (s'.report? v).isSome = .reported v (s.report? v).isSome
        rw [InputSlot.report?, InputSlot.report?, Option.isSome_map, Option.isSome_map, h.waiter]
      · show SameReceivers (s.report v) (s'.report v)
        rw [InputSlot.report_eq, InputSlot.report_eq]
        exact h.release _
  | isPending => exact ⟨congrArg SlotEvent.asked h.isPending, h⟩
  | cancel => exact ⟨rfl, h.release .closed⟩
  | drop n => exact ⟨rfl, h.setReceiver Receiver.noConfusion n⟩
  | receive n =>
      simp only [InputSlot.act, InputSlot.take, h.receiver]
      cases s.receiver n with
      | holding v => exact ⟨rfl, h.setReceiver Receiver.noConfusion n⟩
      | waiting | closed | dropped => exact ⟨rfl, h⟩

theorem SameReceivers.events (h : SameReceivers s s') (as : List SlotAction) :
    s'.events as = s.events as := by
  induction as generalizing s s' with
  | nil => rfl
  | cons a as ih =>
      obtain ⟨he, hrest⟩ := h.act a
      rw [InputSlot.events, InputSlot.events, he, ih hrest]

theorem sameReceivers_report (h : s.isPending = false) (v : Json) :
    SameReceivers s (s.report v) := by
  have hw : s.waiter? = none := by
    rw [InputSlot.isPending, Option.isSome_eq_false_iff, Option.isNone_iff_eq_none] at h
    exact h
  rw [InputSlot.report_eq]
  exact ⟨receivers_release_of_free hw, by rw [InputSlot.waiter?_release, hw]⟩

/-- Whatever is done with an input slot, it is seen as a single one; and when a value is reported
while nobody waits, all goes on as if it had not been. -/
theorem InputSlot.events_singleSlot (as : List SlotAction) :
    SingleSlot (InputSlot.empty.events as) ∧
      ∀ v bs, (InputSlot.empty.after as).isPending = false →
        ((InputSlot.empty.after as).act (.report v)).2.events bs =
          (InputSlot.empty.after as).events bs :=
  ⟨mirrors_empty.singleSlot as, fun v bs h => (sameReceivers_report h v).events bs⟩

/-- A value is taken once; one that comes too early is never seen. -/
theorem InputSlot.events_singleSlot_reply :
    (SingleSlot [.registered 0, .reported (.string "yes") true,
        .received 0 (.holding (.string "yes")), .received 0 .closed] ∧
      InputSlot.empty.events [.register, .report (.string "yes"), .receive 0, .receive 0] =
        [.registered 0, .reported (.string "yes") true, .received 0 (.holding (.string "yes")),
          .received 0 .closed]) ∧
    InputSlot.empty.isPending = false ∧
      (InputSlot.empty.report (.string "early")).events [.register, .receive 0] =
        InputSlot.empty.events [.register, .receive 0] :=
  ⟨⟨(InputSlot.events_singleSlot
      [.register, .report (.string "yes"), .receive 0, .receive 0]).1, rfl⟩, rfl,
    (InputSlot.events_singleSlot []).2 (.string "early") [.register, .receive 0] rfl⟩

end Dialogue
