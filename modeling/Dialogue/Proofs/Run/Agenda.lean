import Dialogue.Proofs.Run.Completion
import Dialogue.Proofs.Run.Deferred
import Dialogue.Proofs.Run.Remainders
/-!
# The agenda of a run

Threads are nested, yet what a run has to do is one list of errands: steps to run, and actions that
were put aside. An errand that enters a thread puts the errands of that thread in front of those
that are left, since a thread that does not complete the run lets the one around it go on. So a
course of a run falls into stretches, one for each errand that it has come to, and a stretch holds
the deeds of that errand alone.

* `Scene.performAll` — errands one after the other; `Scene.runThread_eq` — a thread is that.
* `Scene.Tells` — stretches that keep to an agenda.
* `Scene.exists_stretches` — every course of a run is made of such stretches.
-/

namespace Dialogue

/-! ## Errands -/

/-- Something that a run has to do. -/
inductive Errand where
  /-- Run the step at a place. -/
  | step (place : Option Place) (st : Step)
  /-- Take an action that was put aside. -/
  | action (place : Option Place) (action : String)

/-- The errands of a thread: the steps that remain when the first one with an action was taken out,
and then that action. -/
def Thread.errands (th : Thread) : List Errand :=
  (th.remaining.map fun x => .step (some ⟨th.topic, some x.2⟩) x.1) ++
    th.deferred?.toList.map fun x => .action (some x.1) x.2

namespace Activity

theorem followedBy_done (m : Activity Bool) : m.followedBy (.done false) = m := by
  rw [followedBy]
  refine Eq.trans (bind_congr fun b => ?_) (bind_pure m)
  cases b <;> rfl

end Activity

namespace Scene

variable {scene : Scene}

/-- What an errand comes to. -/
def perform (scene : Scene) : Errand → Activity Bool
  | .step place st => scene.runStep place st
  | .action place action => scene.act place action

/-- Errands one after the other, until one of them completes the run. -/
def performAll (scene : Scene) : List Errand → Activity Bool
  | [] => return false
  | x :: errands => (scene.perform x).followedBy (scene.performAll errands)

theorem performAll_append (errands errands' : List Errand) :
    scene.performAll (errands ++ errands') =
      (scene.performAll errands).followedBy (scene.performAll errands') := by
  induction errands with
  | nil => rfl
  | cons x errands ih =>
      rw [List.cons_append, performAll, performAll, ih, Activity.followedBy_assoc]

theorem runUntil_eq (topic : String) (rest : List (Step × Nat)) : scene.runUntil topic rest =
    scene.performAll (rest.map fun x => .step (some ⟨topic, some x.2⟩) x.1) := by
  induction rest with
  | nil => rfl
  | cons x rest ih =>
      rw [runUntil, ih]
      rfl

/-- A thread performs its errands. -/
theorem runThread_eq (th : Thread) : scene.runThread th = scene.performAll th.errands := by
  rw [runThread_eq_deferring, deferring, Thread.errands, performAll_append, runUntil_eq,
    takeDeferred]
  cases th.deferred? with
  | none => rfl
  | some x => exact congrArg _ (Activity.followedBy_done _).symm

theorem enter_eq {topic : String} {th : Thread} (h : scene.index.get? topic = some th) :
    scene.enter topic = scene.performAll th.errands := by
  rw [enter, h]
  exact runThread_eq th

/-! ## Stretches -/

/-- The part of a course that belongs to one errand. -/
structure Stretch where
  errand : Errand
  /-- What is done for the errand itself. -/
  own : List Deed
  /-- What is left to do of the errand. -/
  left : Activity Bool
  /-- The thread that is entered at last, if there is one. -/
  entered : Option String

/-- The deeds of a stretch, in order. -/
def Stretch.deeds (x : Stretch) : List Deed := x.own ++ x.entered.toList.map .entered

/-- The stretches keep to the agenda: each errand is done before the next one is begun, and a thread
that is entered is done before the errands that were left. -/
inductive Tells (scene : Scene) : List Errand → List Stretch → Prop
  /-- No further errand was begun. -/
  | rest (errands : List Errand) : Tells scene errands []
  /-- The errand is under way, or the run has ended in it. -/
  | last {x : Errand} {errands : List Errand} {t : List Deed} {m : Activity Bool} :
      (scene.perform x).Leaves t m → Tells scene (x :: errands) [⟨x, t, m, none⟩]
  /-- The errand is done, and the run goes on. -/
  | next {x : Errand} {errands : List Errand} {t : List Deed} {more : List Stretch} :
      (scene.perform x).Leaves t (.done false) → Tells scene errands more →
      Tells scene (x :: errands) (⟨x, t, .done false, none⟩ :: more)
  /-- At the end of the errand a thread is entered. -/
  | enter {x : Errand} {errands : List Errand} {t : List Deed} {topic : String} {th : Thread}
      {more : List Stretch} :
      (scene.perform x).Leaves t (.ask (.enter topic) .done) →
      scene.index.get? topic = some th → Tells scene (th.errands ++ errands) more →
      Tells scene (x :: errands) (⟨x, t, .ask (.enter topic) .done, some topic⟩ :: more)

/-- In each stretch the errand has come so far. -/
theorem Tells.leaves {errands : List Errand} {stretches : List Stretch}
    (h : scene.Tells errands stretches) :
    ∀ x ∈ stretches, (scene.perform x.errand).Leaves x.own x.left := by
  induction h with
  | rest => simp
  | last hm => simpa using hm
  | next hm _ ih | enter hm _ _ ih => exact List.forall_mem_cons.mpr ⟨hm, ih⟩

/-! ## What is done last -/

open Activity

/-- A thread is entered at last, and only one that there is. -/
def EntersLast (scene : Scene) (m : Activity Bool) : Prop :=
  ∀ t topic k, m.Leaves t (.ask (.enter topic) k) →
    k = .done ∧ ∃ th, scene.index.get? topic = some th

theorem entersLast_done (b : Bool) : scene.EntersLast (.done b) := by
  intro t topic k h
  cases (leaves_done_iff.mp h).2

theorem entersLast_fail (e : ChatError) : scene.EntersLast (.fail e) := by
  intro t topic k h
  cases (leaves_fail_iff.mp h).2

/-- Before a thread is entered anything else may be done. -/
theorem entersLast_plain_bind {α : Type} {m : Activity α} {f : α → Activity Bool} (hm : m.Plain)
    (hf : ∀ a, scene.EntersLast (f a)) : scene.EntersLast (m >>= f) := by
  intro t topic k h
  rcases leaves_bind_iff.mp h with ⟨m', hm', hne, heq⟩ | ⟨t₁, a, t₂, -, -, h₂⟩
  · have hplain := (hm.asks.of_leaves hm').2
    cases m' with
    | done a => exact absurd rfl (hne a)
    | fail e => cases heq
    | ask q k' =>
        cases heq
        cases hplain.1
  · exact hf a _ topic k h₂

theorem entersLast_act (place : Option Place) (action : String) :
    scene.EntersLast (scene.act place action) := by
  intro t topic k h
  rcases leaves_bind_iff.mp h with ⟨m, hm, hne, heq⟩ | ⟨t₁, u, t', -, -, h⟩
  · rcases (leaves_ask_iff (by simp)).mp hm with ⟨-, rfl⟩ | ⟨u, t', -, hdone⟩
    · cases heq
    · exact absurd (leaves_done_iff.mp hdone).2 (hne u)
  · split at h
    · exact entersLast_done _ _ _ _ h
    · exact entersLast_done _ _ _ _ h
    · split at h
      · next topic' hknown =>
        obtain ⟨-, heq⟩ := leaves_enter_iff.mp h
        cases heq
        exact ⟨rfl, Option.isSome_iff_exists.mp hknown⟩
      · exact entersLast_done _ _ _ _ h

theorem entersLast_perform (x : Errand) : scene.EntersLast (scene.perform x) := by
  cases x with
  | action place action => exact entersLast_act place action
  | step place st =>
      refine entersLast_plain_bind (plain_stepValue scene st) fun value => ?_
      split
      · refine entersLast_plain_bind (plain_storeValue scene _ _) fun _ => ?_
        split
        · exact entersLast_act _ _
        · exact entersLast_done false
        · exact entersLast_fail _
      · exact entersLast_done false

/-! ## A course in stretches -/

/-- What is left of a thread goes on when a thread inside it has ended. -/
def resume (scene : Scene) (errands : List Errand) (b : Bool) : Activity Bool :=
  (Activity.done b).followedBy (scene.performAll errands)

/-- When the run is complete, nothing of the threads around is done. -/
theorem eq_nil_of_complete {rests : List (List Errand)} {t : List Deed} {r : Run}
    (h : Run.Course scene ⟨.done true, rests.map scene.resume⟩ t r) : t = [] := by
  have hsettled : Run.Settled ⟨.done true, rests.map scene.resume⟩ (.ok true) := by
    refine ⟨rfl, fun k hk => ?_⟩
    obtain ⟨errands, -, rfl⟩ := List.mem_map.mp hk
    rfl
  exact hsettled.course h

/-- When a thread has ended, the one around it goes on. -/
theorem course_resume {errands : List Errand} {rests : List (List Errand)} {t : List Deed} {r : Run}
    (h : Run.Course scene ⟨.done false, (errands :: rests).map scene.resume⟩ t r) :
    t = [] ∨ Run.Course scene ⟨scene.performAll errands, rests.map scene.resume⟩ t r := by
  cases h with
  | here => exact .inl rfl
  | moved hn h =>
      cases hn
      exact .inr h
  | asked a hn => cases hn

/-- A course keeps to the errands of the innermost thread and, behind them, to those of the threads
around it. -/
theorem exists_stretches_of_performAll (errands : List Errand) (rests : List (List Errand))
    {t : List Deed} {r : Run}
    (h : Run.Course scene ⟨scene.performAll errands, rests.map scene.resume⟩ t r) :
    ∃ stretches, scene.Tells (errands ++ rests.flatten) stretches ∧
      t = stretches.flatMap Stretch.deeds := by
  match errands, rests with
  | [], [] =>
      obtain ⟨rfl, -⟩ := h.of_ended rfl
      exact ⟨[], .rest _, rfl⟩
  | [], errands :: rests =>
      rcases course_resume h with rfl | h
      · exact ⟨[], .rest _, rfl⟩
      · exact exists_stretches_of_performAll errands rests h
  | x :: errands, rests =>
      rcases h.leaves_bind with ⟨m, hm, -, -⟩ | ⟨t₁, b, t₂, ht, hm, h⟩ |
        ⟨t₁, topic, k, t₂, ht, hm, h⟩
      · exact ⟨[⟨x, t, m, none⟩], .last hm, by simp [Stretch.deeds]⟩
      · cases b with
        | true =>
            obtain rfl := eq_nil_of_complete h
            exact ⟨[⟨x, t₁, .done true, none⟩], .last hm, by simp [Stretch.deeds, ht]⟩
        | false =>
            have hlength : t₂.length ≤ t.length := by simp [ht]
            obtain ⟨more, hmore, hrest⟩ := exists_stretches_of_performAll errands rests h
            exact ⟨⟨x, t₁, .done false, none⟩ :: more, .next hm hmore,
              by simp [Stretch.deeds, ht, hrest]⟩
      · have hlength : t₂.length < t.length := by simp [ht]; omega
        obtain ⟨rfl, th, hth⟩ := entersLast_perform x _ _ _ hm
        rw [enter_eq hth] at h
        obtain ⟨more, hmore, hrest⟩ :=
          exists_stretches_of_performAll th.errands (errands :: rests) h
        exact ⟨⟨x, t₁, .ask (.enter topic) .done, some topic⟩ :: more, .enter hm hth hmore,
          by simp [Stretch.deeds, ht, hrest]⟩
-- A thread that is entered may have many errands, but to enter it is a deed.
termination_by (t.length, errands.length + rests.flatten.length + rests.length)
decreasing_by
  · exact .right _ (by simp)
  · exact .right' _ hlength (by simp)
  · exact .left _ _ hlength

/-- A course of a run is made of stretches that keep to the errands of the first thread. -/
theorem exists_stretches {t : List Deed} {r : Run} (h : Run.Course scene (.start scene) t r) :
    ∃ th stretches, scene.index.get? defaultTopic = some th ∧ scene.Tells th.errands stretches ∧
      t = stretches.flatMap Stretch.deeds := by
  obtain ⟨th, hth⟩ : ∃ th, scene.index.get? defaultTopic = some th := by
    have hstarts : defaultTopic ∈ scene.index.topics := scene.index.startsSomewhere
    exact Option.isSome_iff_exists.mp (ThreadIndex.contains_iff.mpr hstarts)
  rw [Run.start, enter_eq hth] at h
  obtain ⟨stretches, htells, ht⟩ := exists_stretches_of_performAll th.errands [] h
  rw [List.flatten_nil, List.append_nil] at htells
  exact ⟨th, stretches, hth, htells, ht⟩

end Scene

end Dialogue
