import Mathlib.Data.List.Infix
import Dialogue.Proofs.Queue.Steps
/-!
# Diaries of a queue

A `Diary` says when each item was queued, when it was taken out of the queue, when a pump began with
it and how long it was to take, and when it was finished. It is on time when all this follows from
the times at which items were queued and from how long they take.

* `Diary.OnTime` — the timetable, as a recurrence over the items.
* `Diary.Follows` — the diary is on time and agrees with the queue and the item at hand; there is
  one lemma for each thing that can happen to these.
* `Diary.Follows.upToDate` — when the item at hand is not due yet nothing is late.
-/

namespace Dialogue

/-- The time that an item takes: a message the delay of messages, a function its own. -/
def Work.lasts (timeout : Nat) : Work → Nat
  | .message _ _ => timeout
  | .call _ .openInput => 0
  | .call _ (.host _ duration _) => duration

/-- The item that a pump has begun with and not finished, and the time at which it will be
finished. -/
def PumpStage.until? : PumpStage → Option (Work × Nat)
  | .typing d placeholder due => some (.message d placeholder, due)
  | .calling ticket job due => some (.call ticket job, due)
  | _ => none

/-! ## Diaries -/

/-- What was done with items, each time with the time at which it was done. -/
structure Diary where
  queued : List (Nat × Item)
  /-- The items that were taken out of the queue. -/
  taken : List (Nat × Work)
  /-- The items that pumps have begun with, and how long these were to take. -/
  begun : List (Nat × Work × Nat)
  finished : List (Nat × Work)

namespace Diary

/-- A diary in which nothing is written. -/
def blank : Diary := ⟨[], [], [], []⟩

instance : Append Diary where
  append d e := ⟨d.queued ++ e.queued, d.taken ++ e.taken, d.begun ++ e.begun,
    d.finished ++ e.finished⟩

theorem append_mk (d : Diary) (queued : List (Nat × Item)) (taken : List (Nat × Work))
    (begun : List (Nat × Work × Nat)) (finished : List (Nat × Work)) :
    d ++ ⟨queued, taken, begun, finished⟩ = ⟨d.queued ++ queued, d.taken ++ taken,
      d.begun ++ begun, d.finished ++ finished⟩ := rfl

theorem append_blank (d : Diary) : d ++ blank = d := by
  rw [blank, append_mk]
  simp only [List.append_nil]

theorem append_assoc (d e f : Diary) : d ++ e ++ f = d ++ (e ++ f) := by
  cases e
  cases f
  simp only [append_mk, List.append_assoc]

/-- The items that can be taken, with the times at which they are to be taken: at the later of the
time at which the item was queued and the time at which the one before was finished. -/
def starts (d : Diary) : List (Nat × Item) :=
  List.zipWith (fun q free => (max q.1 free, q.2)) d.queued (0 :: d.finished.map (·.1))

/-- The items that were begun, with the times at which they are to be finished. -/
def ends (d : Diary) : List (Nat × Work) := d.begun.map fun b => (b.1 + b.2.2, b.2.1)

/-- Items are taken out of the queue in their order and at the times at which they are to be taken,
are begun at the same times, and are finished when they have taken as long as they were to take. -/
structure OnTime (d : Diary) : Prop where
  taken : (d.taken.map fun t => (t.1, t.2.item)) <+: d.starts
  begun : (d.begun.map fun b => (b.1, b.2.1)) <+: d.taken
  finished : d.finished <+: d.ends

/-- All items have been taken out of the queue, begun and finished that are to be by now. -/
structure UpToDate (d : Diary) (now : Nat) : Prop where
  taken : (d.taken.map fun t => (t.1, t.2.item)) = d.starts
  begun : (d.begun.map fun b => (b.1, b.2.1)) = d.taken
  finished : d.finished = d.ends.filter fun e => e.1 ≤ now

variable {d : Diary} {now t q : Nat} {i : Item} {w : Work}

theorem prefix_concat {α : Type} {xs ys : List α} {a : α} (h : xs <+: ys)
    (ha : ys[xs.length]? = some a) : xs ++ [a] <+: ys := by
  obtain ⟨hlt, rfl⟩ := List.getElem?_eq_some_iff.mp ha
  exact List.concat_get_prefix h hlt

theorem prefix_zipWith {α β γ : Type} (f : α → β → γ) {as as' : List α} {bs bs' : List β}
    (ha : as <+: as') (hb : bs <+: bs') : List.zipWith f as bs <+: List.zipWith f as' bs' := by
  obtain ⟨more, rfl⟩ := ha
  obtain ⟨more', rfl⟩ := hb
  induction as generalizing bs with
  | nil => exact List.nil_prefix
  | cons a as ih =>
      cases bs with
      | nil => exact List.nil_prefix
      | cons b bs => exact List.cons_prefix_cons.mpr ⟨rfl, ih⟩

theorem prefix_starts {e : Diary} (hq : d.queued <+: e.queued) (hf : d.finished <+: e.finished) :
    d.starts <+: e.starts :=
  prefix_zipWith _ hq (List.cons_prefix_cons.mpr ⟨rfl, hf.map _⟩)

/-- The time at which the last item was finished. -/
def free (d : Diary) : Nat := (d.finished.getLast?.map (·.1)).getD 0

theorem free_le (h : ∀ x ∈ d.finished, x.1 ≤ now) : d.free ≤ now := by
  rw [free]
  cases hlast : d.finished.getLast? with
  | none => exact Nat.zero_le now
  | some x => exact h x (List.mem_of_getLast? hlast)

theorem getElem?_free (d : Diary) :
    (0 :: d.finished.map (·.1))[d.finished.length]? = some d.free := by
  rcases List.eq_nil_or_concat d.finished with hnil | ⟨before, x, hlast⟩
  · simp [free, hnil]
  · simp [free, hlast]

/-- The next item is to be taken at the later of two times. -/
theorem getElem?_starts (hq : d.queued[d.finished.length]? = some (q, i)) :
    d.starts[d.finished.length]? = some (max q d.free, i) := by
  rw [starts, List.getElem?_zipWith, hq, getElem?_free]

theorem length_starts (d : Diary) :
    d.starts.length = min d.queued.length (d.finished.length + 1) := by
  simp [starts]

/-! ### Writing into a diary -/

theorem OnTime.queue (h : d.OnTime) (more : List (Nat × Item)) :
    OnTime { d with queued := d.queued ++ more } :=
  { h with taken := h.taken.trans (prefix_starts (List.prefix_append _ _) List.prefix_rfl) }

theorem OnTime.take (h : d.OnTime) (hw : d.starts[d.taken.length]? = some (t, w.item)) :
    OnTime { d with taken := d.taken ++ [(t, w)] } := by
  refine { h with taken := ?_, begun := h.begun.trans (List.prefix_append _ _) }
  rw [List.map_append]
  exact prefix_concat h.taken (by rwa [List.length_map])

theorem OnTime.begin (h : d.OnTime) (hw : d.taken[d.begun.length]? = some (t, w)) (length : Nat) :
    OnTime { d with begun := d.begun ++ [(t, w, length)] } := by
  refine { h with begun := ?_, finished := h.finished.trans ?_ }
  · rw [List.map_append]
    exact prefix_concat h.begun (by rwa [List.length_map])
  · rw [ends, ends, List.map_append]
    exact List.prefix_append _ _

theorem OnTime.finish (h : d.OnTime) (hw : d.ends[d.finished.length]? = some (t, w)) :
    OnTime { d with finished := d.finished ++ [(t, w)] } where
  taken := h.taken.trans (prefix_starts List.prefix_rfl (List.prefix_append _ _))
  begun := h.begun
  finished := prefix_concat h.finished hw

/-! ### The item at hand -/

/-- How far the diary has come when a pump is at a stage of its work, and at what time that is. -/
inductive Stands (d : Diary) (now : Nat) : List PumpStage → Prop where
  | idle (hb : d.begun.length = d.taken.length) (hf : d.finished.length = d.begun.length) :
    d.Stands now []
  /-- The item was taken just now. -/
  | taken {w : Work} (hw : d.taken[d.begun.length]? = some (now, w))
    (ht : d.taken.length = d.begun.length + 1) (hf : d.finished.length = d.begun.length) :
    d.Stands now [.taken w]
  | under {stage : PumpStage} {w : Work} {due : Nat} (hs : stage.until? = some (w, due))
    (hw : d.ends[d.finished.length]? = some (due, w)) (hle : now ≤ due)
    (hb : d.begun.length = d.taken.length) (hf : d.begun.length = d.finished.length + 1) :
    d.Stands now [stage]
  /-- The item was finished just now. -/
  | through {w : Work} {news : Option Message} (hfree : d.free = now)
    (hb : d.begun.length = d.taken.length) (hf : d.finished.length = d.begun.length) :
    d.Stands now [.through w news]

/-- The diary is on time, and says what is queued and how far the item at hand is. -/
structure Follows (d : Diary) (now : Nat) (queue : List Item) (hands : List PumpStage) : Prop where
  onTime : d.OnTime
  queue_eq : queue = (d.queued.drop d.taken.length).map (·.2)
  queued_le : ∀ x ∈ d.queued, x.1 ≤ now
  finished_le : ∀ x ∈ d.finished, x.1 ≤ now
  stands : d.Stands now hands

namespace Follows

variable {queue rest : List Item} {hands : List PumpStage} {stage : PumpStage} {due length : Nat}
  {news : Option Message}

theorem length_taken_le (h : d.Follows now queue hands) : d.taken.length ≤ d.queued.length := by
  have hle := h.onTime.taken.length_le
  rw [List.length_map, length_starts] at hle
  omega

theorem blank : Diary.blank.Follows 0 [] [] where
  onTime := ⟨List.nil_prefix, List.nil_prefix, List.nil_prefix⟩
  queue_eq := rfl
  queued_le := fun _ hx => by cases hx
  finished_le := fun _ hx => by cases hx
  stands := .idle rfl rfl

/-- Items are queued behind others. -/
theorem wait (h : d.Follows now queue hands) (items : List Item) :
    Follows { d with queued := d.queued ++ items.map fun i => (now, i) } now (queue ++ items)
      hands where
  onTime := h.onTime.queue _
  queue_eq := by
    rw [List.drop_append_of_le_length h.length_taken_le, List.map_append, ← h.queue_eq,
      List.map_map]
    simp [Function.comp_def]
  queued_le := by
    intro x hx
    rcases List.mem_append.mp hx with hx | hx
    · exact h.queued_le x hx
    · obtain ⟨i, -, rfl⟩ := List.mem_map.mp hx
      exact Nat.le_refl now
  finished_le := h.finished_le
  stands := by
    cases h.stands with
    | idle hb hf => exact .idle hb hf
    | taken hw ht hf => exact .taken hw ht hf
    | under hs hw hle hb hf => exact .under hs hw hle hb hf
    | through hfree hb hf => exact .through hfree hb hf

/-- The next item is taken. -/
theorem take_next (h : d.Follows now queue hands) (hf : d.finished.length = d.taken.length)
    (hb : d.begun.length = d.taken.length)
    (hq : d.queued[d.taken.length]? = some (q, w.item)) (hnow : max q d.free = now) :
    Follows { d with taken := d.taken ++ [(now, w)] } now (queue.drop 1) [.taken w] where
  onTime := by
    refine h.onTime.take ?_
    rw [← hf] at hq ⊢
    rw [getElem?_starts hq, hnow]
  queue_eq := by
    rw [h.queue_eq, List.length_append, ← List.map_drop, List.drop_drop]
    rfl
  queued_le := h.queued_le
  finished_le := h.finished_le
  stands := by
    refine .taken ?_ ?_ (hf.trans hb.symm)
    · rw [hb, List.getElem?_concat_length]
    · rw [List.length_append, hb]
      rfl

/-- The next item waits in the queue when the one before is finished. -/
theorem take (h : d.Follows now (i :: rest) [.through w news]) (k : Nat) :
    Follows { d with taken := d.taken ++ [(now, i.work k)] } now rest [.taken (i.work k)] := by
  cases h.stands with
  | under hs => cases hs
  | through hfree hb hf =>
      have hqueue := h.queue_eq
      rcases hd : d.queued.drop d.taken.length with _ | ⟨⟨q, j⟩, more⟩
      · rw [hd] at hqueue
        cases hqueue
      · rw [hd] at hqueue
        cases hqueue
        have hq : d.queued[d.taken.length]? = some (q, (j.work k).item) := by
          rw [← Nat.add_zero d.taken.length, ← List.getElem?_drop, hd, Work.item_work]
          rfl
        refine h.take_next (hf.trans hb) hb hq ?_
        rw [hfree]
        exact Nat.max_eq_right (h.queued_le _ (List.mem_of_getElem? hq))

/-- An item is put in when no other one is at hand, and taken at once. -/
theorem start (h : d.Follows now [] []) (i : Item) (rest : List Item) (k : Nat) :
    Follows { d with
      queued := d.queued ++ (i :: rest).map fun i => (now, i)
      taken := d.taken ++ [(now, i.work k)] } now rest [.taken (i.work k)] := by
  have hwait := h.wait (i :: rest)
  cases h.stands with
  | idle hb hf =>
      -- All items that were queued before were taken.
      have hlength : d.taken.length = d.queued.length := by
        have hnil := List.map_eq_nil_iff.mp h.queue_eq.symm
        exact Nat.le_antisymm h.length_taken_le (List.drop_eq_nil_iff.mp hnil)
      refine hwait.take_next (q := now) (hf.trans hb) hb ?_
        (Nat.max_eq_left (free_le h.finished_le))
      show (d.queued ++ _)[d.taken.length]? = _
      rw [hlength, Work.item_work]
      simp

/-- The pump begins with the item that it has just taken. -/
theorem begin (h : d.Follows now queue [.taken w])
    (hs : stage.until? = some (w, now + length)) :
    Follows { d with begun := d.begun ++ [(now, w, length)] } now queue [stage] := by
  cases h.stands with
  | under hs => cases hs
  | taken hw ht hf =>
      -- The new entry is the last of those that were begun, and the first that is not finished.
      refine { h with onTime := h.onTime.begin hw length, stands := ?_ }
      refine .under hs ?_ (Nat.le_add_right now length) ?_ ?_
      · show (List.map _ (d.begun ++ [_]))[d.finished.length]? = _
        rw [List.map_append, hf, ← List.length_map]
        exact List.getElem?_concat_length ..
      · show (d.begun ++ [_]).length = _
        rw [List.length_append, ht]
        rfl
      · show (d.begun ++ [_]).length = _
        rw [List.length_append, hf]
        rfl

/-- The pump finishes its item when that is due. -/
theorem finish (h : d.Follows now queue [stage]) (hs : stage.until? = some (w, due))
    (hdue : due ≤ now) (news : Option Message) :
    Follows { d with finished := d.finished ++ [(now, w)] } now queue [.through w news] := by
  cases h.stands with
  | taken | through => cases hs
  | under hs' hw hle hb hf =>
      cases hs.symm.trans hs'
      obtain rfl : now = due := Nat.le_antisymm hle hdue
      refine { h with onTime := h.onTime.finish hw, finished_le := ?_, stands := ?_ }
      · intro x hx
        rcases List.mem_append.mp hx with hx | hx
        · exact h.finished_le x hx
        · rw [List.mem_singleton.mp hx]
      · refine .through ?_ hb ?_
        · simp [free]
        · show (d.finished ++ [_]).length = _
          rw [List.length_append, hf]
          rfl

/-- The pump stops as nothing is left to do. -/
theorem stop (h : d.Follows now queue [.through w news]) : d.Follows now queue [] := by
  cases h.stands with
  | under hs => cases hs
  | through hfree hb hf => exact { h with stands := .idle hb hf }

/-- Time passes, but not beyond the time at which the item at hand is due. -/
theorem pass (h : d.Follows now queue hands) {ms : Nat}
    (hrest : ∀ stage ∈ hands, ∀ past < ms,
      ∃ w due, stage.until? = some (w, due) ∧ now + past < due) :
    d.Follows (now + ms) queue hands := by
  refine { h with
    queued_le := fun x hx => Nat.le_trans (h.queued_le x hx) (Nat.le_add_right _ _)
    finished_le := fun x hx => Nat.le_trans (h.finished_le x hx) (Nat.le_add_right _ _)
    stands := ?_ }
  rcases Nat.eq_zero_or_pos ms with rfl | hpos
  · exact h.stands
  · cases h.stands with
    | idle hb hf => exact .idle hb hf
    | taken | through =>
        -- The pump can go on at once, so no time passes.
        obtain ⟨_, _, hs, -⟩ := hrest _ List.mem_cons_self 0 hpos
        cases hs
    | under hs hw hle hb hf =>
        obtain ⟨_, _, hs', hlt⟩ := hrest _ List.mem_cons_self (ms - 1) (by omega)
        cases hs.symm.trans hs'
        exact .under hs hw (by omega) hb hf

/-- When the item at hand is not due yet, all is done that is to be done by now. -/
theorem upToDate (h : d.Follows now queue hands) (hidle : hands = [] → queue = [])
    (hrest : ∀ stage ∈ hands, ∃ w due, stage.until? = some (w, due) ∧ now < due) :
    d.UpToDate now := by
  obtain ⟨others, hends⟩ := h.onTime.finished
  have hlength : d.begun.length = d.finished.length + others.length := by
    rw [← List.length_append, hends, ends, List.length_map]
  suffices hall : d.begun.length = d.taken.length ∧ d.taken.length = d.starts.length ∧
      ∀ x ∈ others, now < x.1 by
    obtain ⟨hb, ht, hlate⟩ := hall
    refine ⟨h.onTime.taken.eq_of_length (by rwa [List.length_map]),
      h.onTime.begun.eq_of_length (by rwa [List.length_map]), ?_⟩
    have hdone : d.finished.filter (fun e => e.1 ≤ now) = d.finished :=
      List.filter_eq_self.mpr fun x hx => decide_eq_true (h.finished_le x hx)
    have hleft : others.filter (fun e => e.1 ≤ now) = [] :=
      List.filter_eq_nil_iff.mpr fun x hx => by simpa using hlate x hx
    rw [← hends, List.filter_append, hdone, hleft, List.append_nil]
  have hle := h.length_taken_le
  rw [length_starts]
  cases h.stands with
  | idle hb hf =>
      have hnil := List.map_eq_nil_iff.mp (h.queue_eq.symm.trans (hidle rfl))
      have hge := List.drop_eq_nil_iff.mp hnil
      refine ⟨hb, by omega, fun x hx => ?_⟩
      rw [List.length_eq_zero_iff.mp (show others.length = 0 by omega)] at hx
      cases hx
  | taken | through =>
      obtain ⟨_, _, hs, -⟩ := hrest _ List.mem_cons_self
      cases hs
  | under hs hw _ hb hf =>
      obtain ⟨_, _, hs', hlt⟩ := hrest _ List.mem_cons_self
      cases hs.symm.trans hs'
      refine ⟨hb, by omega, fun x hx => ?_⟩
      -- The item at hand is the only one that was begun and not finished.
      obtain ⟨y, rfl⟩ := List.length_eq_one_iff.mp (show others.length = 1 by omega)
      rw [← hends, List.getElem?_concat_length] at hw
      rw [List.mem_singleton.mp hx, Option.some.inj hw]
      exact hlt

/-- An item that was taken and not finished is at hand. -/
theorem exists_hand (h : d.Follows now queue hands) {x : Nat × Work}
    (hx : x ∈ d.taken.drop d.finished.length) :
    ∃ stage ∈ hands, stage.isBusy = true ∧ stage.work? = some x.2 := by
  obtain ⟨k, hk⟩ := List.mem_iff_getElem?.mp hx
  rw [List.getElem?_drop] at hk
  have hlt := (List.getElem?_eq_some_iff.mp hk).1
  cases h.stands with
  | idle hb hf => omega
  | through _ hb hf => omega
  | taken hw ht hf =>
      rw [show d.finished.length + k = d.begun.length by omega, hw] at hk
      cases hk
      exact ⟨_, List.mem_cons_self, rfl, rfl⟩
  | @under stage w due hs hw _ hb hf =>
      rw [show d.finished.length + k = d.finished.length by omega] at hk
      rw [ends, List.getElem?_map, Option.map_eq_some_iff] at hw
      obtain ⟨⟨begun, v, length⟩, hb', he⟩ := hw
      -- The item that was begun is the one that was taken.
      obtain ⟨more, hmore⟩ := h.onTime.begun
      rw [← hmore, List.getElem?_append_left (by rw [List.length_map]; omega), List.getElem?_map,
        hb'] at hk
      cases hk
      cases he
      refine ⟨stage, List.mem_cons_self, ?_⟩
      cases stage with
      | typing | calling =>
          cases hs
          exact ⟨rfl, rfl⟩
      | taken | through | ended => cases hs

end Follows

end Diary

end Dialogue
