import Mathlib.Data.Set.Finite.Basic
import Mathlib.Logic.Relation
import Dialogue.Proofs.Run.Termination
import Dialogue.Proofs.Script.Reached
/-!
# Scripts without cycles

A thread is left for another one only by a jump: the topic of the other thread is the action of one
of its steps, or of one of their options. Where no cycle of jumps can be reached from the thread in
which runs start, the jumps from each thread come to an end, since there are finitely many topics,
and with them the threads.

* `ThreadIndex.Acyclic.acc` — without a cycle the jumps from the first thread come to an end.
* `acyclic_script_terminates` — then so does each run, whatever is answered.
-/

namespace Dialogue

open Relation

/-! ## The jumps between threads -/

namespace ThreadIndex

/-- A topic of the index is the action of some step or of some option of a thread. -/
def Jumps (ix : ThreadIndex) (topic target : String) : Prop :=
  target ∈ ix.topics ∧ ∃ t ∈ ix.threads, t.topic = topic ∧
    ∃ st ∈ t.steps, st.action = some target ∨ ∃ o ∈ st.options, o.action = target

/-- No cycle of jumps can be reached from the thread in which runs start. -/
def Acyclic (ix : ThreadIndex) : Prop :=
  ∀ topic, ReflTransGen ix.Jumps defaultTopic topic → ¬TransGen ix.Jumps topic topic

variable {ix : ThreadIndex}

/-- There is no cycle where every jump that can be made raises a number. -/
theorem Acyclic.of_rank (reachable : String → Prop) (rank : String → Nat)
    (hstart : reachable defaultTopic)
    (hjump : ∀ topic target, reachable topic → ix.Jumps topic target →
      reachable target ∧ rank topic < rank target) : ix.Acyclic := by
  intro topic hreached hcycle
  have hreachable : reachable topic := by
    clear hcycle
    induction hreached with
    | refl => exact hstart
    | tail _ hlast ih => exact (hjump _ _ ih hlast).1
  have hraised : ∀ target, TransGen ix.Jumps topic target →
      reachable target ∧ rank topic < rank target := by
    intro target htarget
    induction htarget with
    | single hlast => exact hjump _ _ hreachable hlast
    | tail _ hlast ih =>
        obtain ⟨hnext, hlt⟩ := hjump _ _ ih.1 hlast
        exact ⟨hnext, ih.2.trans hlt⟩
  exact lt_irrefl _ (hraised topic hcycle).2

/-- Without a cycle the jumps from the first thread come to an end. -/
theorem Acyclic.acc (h : ix.Acyclic) : Acc (flip ix.Jumps) defaultTopic := by
  let Reached := {topic : String // topic ∈ ix.topics ∧ ReflTransGen ix.Jumps defaultTopic topic}
  let Later : Reached → Reached → Prop := fun a b => TransGen ix.Jumps b.1 a.1
  have : Finite Reached := (ix.topics.finite_toSet.subset fun _ htopic => htopic.1).to_subtype
  have : IsTrans Reached Later := ⟨fun _ _ _ hab hbc => hbc.trans hab⟩
  have : Std.Irrefl Later := ⟨fun a hcycle => h a.1 a.2.2 hcycle⟩
  have hwf : WellFounded Later := Finite.wellFounded_of_trans_of_irrefl Later
  have hacc : ∀ a : Reached, Acc (flip ix.Jumps) a.1 := by
    intro a
    induction a using hwf.induction with
    | _ a ih =>
        apply Acc.intro
        intro target hjump
        exact ih ⟨target, hjump.1, a.2.2.tail hjump⟩ (.single hjump)
  exact hacc ⟨defaultTopic, ix.startsSomewhere, .refl⟩

end ThreadIndex

/-! ## Threads that come to their ends -/

section Threads

variable {scene : Scene}

/-- A thread of the index is left only by its jumps. -/
theorem suits_entering_jumps {t : Thread} (ht : t ∈ scene.index.threads) :
    (Rules.entering (scene.index.Jumps t.topic)).Suits scene t where
  plain _ _ := indifferent_entering
  act := by
    intro _ _ st hst place action hnames
    apply Scene.follows_act trivial
    intro _ _
    split
    · trivial
    · trivial
    · next target hparse =>
      split
      · next hknown =>
        obtain rfl := Action.topic_eq hparse
        refine ⟨ThreadIndex.contains_iff.mp hknown, t, ht, rfl, st, hst, ?_⟩
        rcases hnames with hflow | hoption
        · exact .inl (Option.filter_eq_some_iff.mp hflow).1
        · exact .inr hoption
      · trivial
  refuse _ _ _ _ _ _ _ _ _ _ _ := trivial

theorem follows_enter_jumps (topic : String) :
    (scene.enter topic).Follows (Rules.entering (scene.index.Jumps topic)) () := by
  unfold Scene.enter
  split
  · next t ht =>
    obtain ⟨hmem, rfl⟩ := ThreadIndex.get?_eq_some ht
    exact Scene.follows_runThread (suits_entering_jumps hmem) trivial
  · trivial

/-- A thread comes to its end where the jumps from it do. -/
theorem halts_enter {topic : String} (h : Acc (flip scene.index.Jumps) topic) :
    (scene.enter topic).Halts scene := by
  induction h with
  | intro topic _ ih => exact Activity.halts_of_follows (follows_enter_jumps topic) ih

/-- A run of a script in which no cycle can be reached comes to an end, whatever is answered.
Played out with any answers, it takes a course with them that ends with its result. -/
theorem acyclic_script_terminates (hacyclic : scene.index.Acyclic) :
    ∃ h : (Run.start scene).Terminates scene, ∀ answers : Run.Answers,
      let outcome := Run.play scene answers [] (.start scene) h
      answers.Given [] outcome.deeds ∧
        ∃ r, Run.Course scene (.start scene) outcome.deeds r ∧
          r.next scene = .ended outcome.result := by
  have hterminates : (Run.start scene).Terminates scene :=
    halts_enter hacyclic.acc [] Run.terminates_done
  refine ⟨hterminates, fun answers => ?_⟩
  obtain ⟨t, r, hdeeds, hgiven, hcourse, hend⟩ := Run.course_play answers [] hterminates
  rw [List.nil_append] at hdeeds
  rw [← hdeeds] at hgiven hcourse
  exact ⟨hgiven, r, hcourse, hend⟩

end Threads

/-! ### A script whose only cycle cannot be reached -/

/-- An option leads from the first thread to the menu, and an action from there to the end. A thread
to which nothing leads enters itself. -/
def ThreadIndex.menu : ThreadIndex where
  threads :=
    [⟨defaultTopic, [{ Step.empty with
        text := some [], collect := some ⟨none, false, [.fallback "menu"]⟩ }]⟩,
      ⟨"menu", [{ Step.empty with action := some "end" }]⟩,
      ⟨"end", [{ Step.empty with action := some "complete" }]⟩,
      ⟨"lost", [{ Step.empty with action := some "lost" }]⟩]
  distinct := by decide
  startsSomewhere := by decide

theorem ThreadIndex.acyclic_menu : ThreadIndex.menu.Acyclic := by
  let rank : String → Nat := fun topic => [defaultTopic, "menu", "end"].idxOf topic
  have hraised : ∀ t ∈ menu.threads, ∀ st ∈ t.steps, ∀ target ∈ menu.topics,
      (st.action = some target ∨ ∃ o ∈ st.options, o.action = target) → t.topic ≠ "lost" →
      target ≠ "lost" ∧ rank t.topic < rank target := by decide
  apply Acyclic.of_rank (· ≠ "lost") rank (by decide)
  rintro _ target hreachable ⟨hmem, t, ht, rfl, st, hst, haction⟩
  exact hraised t ht st hst target hmem haction hreachable

/-- The scene of the script, without callbacks. -/
def Scene.menu : Scene := ⟨.menu, .standard, ⟨false, false, false⟩⟩

theorem acyclic_script_terminates_menu : Scene.menu.index.Acyclic ∧
    ∃ h : (Run.start .menu).Terminates .menu, ∀ answers, ∃ r,
      Run.Course .menu (.start .menu) (Run.play .menu answers [] (.start .menu) h).deeds r ∧
        r.next .menu = .ended (Run.play .menu answers [] (.start .menu) h).result := by
  refine ⟨ThreadIndex.acyclic_menu, ?_⟩
  obtain ⟨h, houtcome⟩ := acyclic_script_terminates (show Scene.menu.index.Acyclic from
    ThreadIndex.acyclic_menu)
  exact ⟨h, fun answers => (houtcome answers).2⟩

end Dialogue
