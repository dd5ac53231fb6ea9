import Dialogue.Proofs.Run.Threads
/-!
# Runs that terminate

A run goes on by itself or with an answer, and the answers are not known. It *terminates* when it
comes to an end however it is answered. Such a run can be played out: the recursion is on the fact
that it terminates, so no bound on the number of steps is needed.

Threads run inside one another, but an activity does not depend on what goes on after it. So it is
enough to look at activities one by one.

* `Run.course_play` — playing a run out takes it to its end, with the given answers.
* `Activity.halts_of_follows` — an activity comes to its end when the threads do that it enters.
-/

namespace Dialogue

/-! ## Runs that terminate -/

namespace Run

/-- A run goes on by one step, with whatever answer. -/
inductive Step (scene : Scene) : Run → Run → Prop
  | moved {r r₁ : Run} : r.next scene = .moved r₁ → Step scene r r₁
  | answered {r : Run} {q : Request} {k : q.Answer → Run} (a : q.Answer) :
      r.next scene = .asks q k → Step scene r (k a)

/-- The run comes to an end, however it is answered. -/
def Terminates (scene : Scene) (r : Run) : Prop := Acc (flip (Step scene)) r

/-- What is answered to a request, after what a run has done before. -/
abbrev Answers := List Deed → (q : Request) → q.Answer

/-- Are these deeds, after the ones before, answered so? -/
def Answers.Given (answers : Answers) : List Deed → List Deed → Prop
  | _, [] => True
  | before, .entered topic :: t => answers.Given (before ++ [.entered topic]) t
  | before, .asked q a :: t => a = answers before q ∧ answers.Given (before ++ [.asked q a]) t

variable {scene : Scene} {r r₁ : Run} {ks : List (Bool → Activity Bool)}

theorem terminates_fail (e : ChatError) : Terminates scene ⟨.fail e, ks⟩ := by
  apply Acc.intro
  intro r₁ hstep
  cases hstep with
  | moved hn => cases hn
  | answered a hn => cases hn

theorem terminates_done (b : Bool) : Terminates scene ⟨.done b, []⟩ := by
  apply Acc.intro
  intro r₁ hstep
  cases hstep with
  | moved hn => cases hn
  | answered a hn => cases hn

/-- A run terminates when it goes on by itself to one that does. -/
theorem Terminates.of_moved (hn : r.next scene = .moved r₁) (h : r₁.Terminates scene) :
    r.Terminates scene := by
  apply Acc.intro
  intro r₂ hstep
  cases hstep with
  | moved hn' =>
      cases hn.symm.trans hn'
      exact h
  | answered a hn' => cases hn.symm.trans hn'

/-- A run terminates when it does so with each answer. -/
theorem Terminates.of_asks {q : Request} {k : q.Answer → Run} (hn : r.next scene = .asks q k)
    (h : ∀ a, (k a).Terminates scene) : r.Terminates scene := by
  apply Acc.intro
  intro r₂ hstep
  cases hstep with
  | moved hn' => cases hn.symm.trans hn'
  | answered a hn' =>
      cases hn.symm.trans hn'
      exact h a

/-! ### Playing a run out -/

/-- What a run does in all, and how it ends. -/
structure Outcome where
  deeds : List Deed
  result : Except ChatError Bool

/-- Plays a run out. The recursion is on the fact that the run terminates. -/
def play (scene : Scene) (answers : Answers) (before : List Deed) (r : Run)
    (h : r.Terminates scene) : Outcome :=
  match hn : r.next scene with
  | .ended result => ⟨before, result⟩
  | .moved r₁ => play scene answers (before ++ r.entry) r₁ (h.inv (.moved hn))
  | .asks q k =>
    let a := answers before q
    play scene answers (before ++ [.asked q a]) (k a) (h.inv (.answered a hn))
termination_by (⟨r, h⟩ : {r : Run // Acc (flip (Step scene)) r})
decreasing_by
  · exact .moved hn
  · exact .answered _ hn

variable (answers : Answers)

/-- To enter a thread needs no answer. -/
theorem Answers.Given.entry_append {answers : Answers} {before t : List Deed}
    (h : answers.Given (before ++ r.entry) t) : answers.Given before (r.entry ++ t) := by
  unfold Run.entry at h ⊢
  split at h
  · exact h
  · rwa [List.append_nil] at h

/-- A run that is played out takes a course with the given answers, up to its end. -/
theorem course_play (before : List Deed) (h : r.Terminates scene) :
    ∃ t r', (play scene answers before r h).deeds = before ++ t ∧ answers.Given before t ∧
      Course scene r t r' ∧ r'.next scene = .ended (play scene answers before r h).result := by
  fun_induction play scene answers before r h with
  | case1 before r h result hn =>
      exact ⟨[], r, (List.append_nil before).symm, trivial, .here r, hn⟩
  | case2 before r h r₁ hn ih =>
      obtain ⟨t, r', hdeeds, hgiven, hcourse, hend⟩ := ih
      refine ⟨r.entry ++ t, r', ?_, hgiven.entry_append, .moved hn hcourse, hend⟩
      rw [hdeeds, List.append_assoc]
  | case3 before r h q k hn a ih =>
      obtain ⟨t, r', hdeeds, hgiven, hcourse, hend⟩ := ih
      refine ⟨.asked q a :: t, r', ?_, ⟨rfl, hgiven⟩, .asked a hn hcourse, hend⟩
      rw [hdeeds, List.append_assoc]
      rfl

end Run

/-! ## Activities that come to their ends -/

/-- The activity comes to its end, whatever goes on after it: a run terminates with it when it does
once the activity is done. -/
def Activity.Halts (scene : Scene) (a : Activity Bool) : Prop :=
  ∀ ks, (∀ b, Run.Terminates scene ⟨.done b, ks⟩) → Run.Terminates scene ⟨a, ks⟩

/-- Only some threads are entered. -/
def Rules.entering (into : String → Prop) : Rules Unit where
  allows
    | _, .enter topic => into topic
    | _, _ => True
  after _ _ := some ()
  ends _ _ := True

section Halts

variable {scene : Scene} {into : String → Prop}

theorem indifferent_entering : (Rules.entering into).Indifferent () where
  allows q hq := by
    cases q
    case enter => cases hq
    all_goals trivial
  after _ _ _ _ := rfl
  fails _ _ _ _ _ _ _ := trivial

/-- A request but for a thread is answered at once. -/
theorem Run.next_ask {q : Request} {k : q.Answer → Activity Bool} {ks : List (Bool → Activity Bool)}
    (hq : ∀ topic, q ≠ .enter topic) :
    Run.next scene ⟨.ask q k, ks⟩ = .asks q fun a => ⟨k a, ks⟩ := by
  cases q
  case enter topic => exact absurd rfl (hq topic)
  all_goals rfl

/-- An activity comes to its end where the threads do that it enters. -/
theorem Activity.halts_of_follows {a : Activity Bool} (h : a.Follows (Rules.entering into) ())
    (hinto : ∀ topic, into topic → (scene.enter topic).Halts scene) : a.Halts scene := by
  induction a with
  | done b =>
      intro ks hks
      exact hks b
  | fail e =>
      intro ks _
      exact Run.terminates_fail e
  | ask q k ih =>
      obtain ⟨hallowed, hk⟩ := h
      intro ks hks
      by_cases hq : ∃ topic, q = .enter topic
      · obtain ⟨topic, rfl⟩ := hq
        -- The thread runs first, and what is left of the activity goes on after it.
        apply Run.Terminates.of_moved rfl
        apply hinto topic hallowed
        intro b
        apply Run.Terminates.of_moved rfl
        exact ih b (hk b () trivial) ks hks
      · push Not at hq
        apply Run.Terminates.of_asks (Run.next_ask hq)
        intro a
        have hresumes : (Rules.entering into).Resumes () q a () := (Rules.resumes_iff hq).mpr rfl
        exact ih a (hk a () hresumes) ks hks

end Halts

end Dialogue
