import Mathlib.Data.List.Basic
import Dialogue.Run.Thread
/-!
# Courses of a run

What a run does depends on what is answered to its requests. A `Run.Course` is one of the ways in
which it can go on, with the list of its deeds: the requests it made, each with an answer, and the
threads it entered. Nothing is assumed of the answers, so what holds of all courses holds for every
table of commands, every record and every user.

`Rules` say what a run may do and how it may end, by means of a state that changes with each deed.

* `Activity.Follows` — an activity keeps to the rules, whatever is answered.
* `Run.Course.follows` — where all threads keep to the rules, all courses of a run do.
-/

namespace Dialogue

/-! ## Deeds -/

/-- Something that a run does. -/
inductive Deed where
  /-- It makes a request and is answered. -/
  | asked (q : Request) (a : q.Answer)
  /-- It enters a thread. -/
  | entered (topic : String)

/-- The request behind a deed. -/
def Deed.request : Deed → Request
  | .asked q _ => q
  | .entered topic => .enter topic

namespace Run

/-- The thread that a run enters next, if it is about to enter one. -/
def entry (r : Run) : List Deed :=
  match r.current with
  | .ask (.enter topic) _ => [.entered topic]
  | _ => []

/-- The ways in which a run can go on, each with its deeds. -/
inductive Course (scene : Scene) : Run → List Deed → Run → Prop
  | here (r : Run) : Course scene r [] r
  | moved {r r₁ r' : Run} {t : List Deed} :
      r.next scene = .moved r₁ → Course scene r₁ t r' → Course scene r (r.entry ++ t) r'
  | asked {r r' : Run} {q : Request} {k : q.Answer → Run} {t : List Deed} (a : q.Answer) :
      r.next scene = .asks q k → Course scene (k a) t r' → Course scene r (.asked q a :: t) r'

variable {scene : Scene} {r r₁ r' : Run} {t t' : List Deed}

/-! ## What a run does next -/

/-- A run that goes on by itself returns from a thread or enters one. -/
theorem next_moved (h : r.next scene = .moved r₁) :
    (∃ b k ks, r = ⟨.done b, k :: ks⟩ ∧ r₁ = ⟨k b, ks⟩) ∨
      ∃ topic k ks, r = ⟨.ask (.enter topic) k, ks⟩ ∧ r₁ = ⟨scene.enter topic, k :: ks⟩ := by
  obtain ⟨current, outer⟩ := r
  cases current with
  | done b =>
      cases outer with
      | nil => cases h
      | cons k ks =>
          cases h
          exact .inl ⟨b, k, ks, rfl, rfl⟩
  | fail e => cases h
  | ask q k =>
      cases q <;> cases h
      exact .inr ⟨_, k, outer, rfl, rfl⟩

/-- A run that needs an answer is about to make a request, and not about to enter a thread. -/
theorem next_asks {q : Request} {k : q.Answer → Run} (h : r.next scene = .asks q k) :
    ∃ k' ks, r = ⟨.ask q k', ks⟩ ∧ (∀ topic, q ≠ .enter topic) ∧ k = fun a => ⟨k' a, ks⟩ := by
  obtain ⟨current, outer⟩ := r
  cases current with
  | done b => cases outer <;> cases h
  | fail e => cases h
  | ask q' k' => cases q' <;> cases h <;> exact ⟨k', outer, rfl, by simp, rfl⟩

/-- A run ends when it is done with its first thread, or fails in any of them. -/
theorem next_ended {result : Except ChatError Bool} (h : r.next scene = .ended result) :
    (∃ b, r = ⟨.done b, []⟩ ∧ result = .ok b) ∨
      ∃ e ks, r = ⟨.fail e, ks⟩ ∧ result = .error e := by
  obtain ⟨current, outer⟩ := r
  cases current with
  | done b =>
      cases outer <;> cases h
      exact .inl ⟨b, rfl, rfl⟩
  | fail e =>
      cases h
      exact .inr ⟨e, outer, rfl, rfl⟩
  | ask q k => cases q <;> cases h

namespace Course

/-- A course goes on where another one has come to. -/
theorem trans (h : Course scene r t r₁) (h' : Course scene r₁ t' r') :
    Course scene r (t ++ t') r' := by
  induction h with
  | here => exact h'
  | moved hn _ ih =>
      rw [List.append_assoc]
      exact .moved hn (ih h')
  | asked a hn _ ih => exact .asked a hn (ih h')

/-- A course goes on with the answer to a request. -/
theorem answered {q : Request} {k : q.Answer → Activity Bool} {ks : List (Bool → Activity Bool)}
    (a : q.Answer) (hq : ∀ topic, q ≠ .enter topic) (h : Course scene ⟨k a, ks⟩ t r') :
    Course scene ⟨.ask q k, ks⟩ (.asked q a :: t) r' := by
  cases q
  case enter topic => exact absurd rfl (hq topic)
  all_goals exact .asked a rfl h

/-- A course goes on in a thread that is entered. -/
theorem entered {topic : String} {k : Bool → Activity Bool} {ks : List (Bool → Activity Bool)}
    (h : Course scene ⟨scene.enter topic, k :: ks⟩ t r') :
    Course scene ⟨.ask (.enter topic) k, ks⟩ (.entered topic :: t) r' :=
  .moved rfl h

/-- A thread that is entered is not answered at once. -/
theorem ne_enter_of_asked (h : Course scene r t r') {q : Request} {a : q.Answer}
    (hmem : .asked q a ∈ t) (topic : String) : q ≠ .enter topic := by
  induction h with
  | here => cases hmem
  | @moved r _ _ _ _ _ ih =>
      rcases List.mem_append.mp hmem with hmem | hmem
      · unfold Run.entry at hmem
        split at hmem
        · cases List.mem_singleton.mp hmem
        · cases hmem
      · exact ih hmem
  | asked a hn _ ih =>
      obtain ⟨-, -, -, hq, -⟩ := next_asks hn
      cases hmem with
      | head => exact hq topic
      | tail _ hmem => exact ih hmem

/-- A run that has ended does nothing more. -/
theorem of_ended {result : Except ChatError Bool} (h : Course scene r t r')
    (hend : r.next scene = .ended result) : t = [] ∧ r' = r := by
  cases h with
  | here => exact ⟨rfl, rfl⟩
  | moved hn => rw [hend] at hn; cases hn
  | asked a hn => rw [hend] at hn; cases hn

end Course

end Run

/-! ## Rules -/

/-- Rules for a run, by means of a state. -/
structure Rules (σ : Type) where
  /-- May the request be made? -/
  allows : σ → Request → Prop
  /-- The state after a deed; without one the rules apply no longer. -/
  after : σ → Deed → Option σ
  /-- May a thread end so? -/
  ends : σ → Except ChatError Bool → Prop

namespace Rules

variable {σ : Type}

/-- The state after some deeds. -/
def run (rules : Rules σ) (s : σ) (t : List Deed) : Option σ := t.foldlM rules.after s

/-- Was each deed allowed when it was done? -/
def Obeyed (rules : Rules σ) : σ → List Deed → Prop
  | _, [] => True
  | s, d :: t => rules.allows s d.request ∧ ∀ s', rules.after s d = some s' → rules.Obeyed s' t

/-- The states in which an answer can leave an activity. That a thread was left means that it has
ended in the state. -/
def Resumes (rules : Rules σ) (s : σ) : (q : Request) → q.Answer → σ → Prop
  | .enter _, b, s' => rules.ends s' (.ok b)
  | q, a, s' => rules.after s (.asked q a) = some s'

variable {rules : Rules σ} {s s' : σ}

theorem run_cons {d : Deed} {t : List Deed} :
    rules.run s (d :: t) = (rules.after s d).bind fun s' => rules.run s' t := List.foldlM_cons

theorem resumes_iff {q : Request} {a : q.Answer} (hq : ∀ topic, q ≠ .enter topic) :
    rules.Resumes s q a s' ↔ rules.after s (.asked q a) = some s' := by
  cases q
  case enter topic => exact absurd rfl (hq topic)
  all_goals rfl

theorem run_append {t t' : List Deed} :
    rules.run s (t ++ t') = (rules.run s t).bind fun s' => rules.run s' t' := List.foldlM_append

theorem obeyed_append {t t' : List Deed} : rules.Obeyed s (t ++ t') ↔
    rules.Obeyed s t ∧ ∀ s', rules.run s t = some s' → rules.Obeyed s' t' := by
  induction t generalizing s with
  | nil => simp [Obeyed, run]
  | cons d t ih =>
      simp only [List.cons_append, Obeyed, ih, run_cons, Option.bind_eq_some_iff]
      constructor
      · rintro ⟨hallowed, h⟩
        refine ⟨⟨hallowed, fun s₁ hs₁ => (h s₁ hs₁).1⟩, ?_⟩
        rintro s' ⟨s₁, hs₁, hrun⟩
        exact (h s₁ hs₁).2 s' hrun
      · rintro ⟨⟨hallowed, h⟩, h'⟩
        exact ⟨hallowed, fun s₁ hs₁ => ⟨h s₁ hs₁, fun s' hrun => h' s' ⟨s₁, hs₁, hrun⟩⟩⟩

/-- A deed was allowed in the state after those before it. -/
theorem Obeyed.allows_of_run {before after : List Deed} {d : Deed}
    (h : rules.Obeyed s (before ++ d :: after)) (hrun : rules.run s before = some s') :
    rules.allows s' d.request :=
  ((obeyed_append.mp h).2 s' hrun).1

end Rules

/-- The activity keeps to the rules from a state on, whatever is answered. -/
def Activity.Follows {σ : Type} (rules : Rules σ) : Activity Bool → σ → Prop
  | .done b, s => rules.ends s (.ok b)
  | .fail e, s => rules.ends s (.error e)
  | .ask q k, s => rules.allows s q ∧ ∀ a s', rules.Resumes s q a s' → (k a).Follows rules s'

/-- The run keeps to the rules from a state on, in all its threads. -/
def Run.Follows {σ : Type} (rules : Rules σ) (r : Run) (s : σ) : Prop :=
  r.current.Follows rules s ∧
    ∀ k ∈ r.outer, ∀ b s', rules.ends s' (.ok b) → (k b).Follows rules s'

section Follows

variable {σ : Type} {rules : Rules σ} {scene : Scene} {r r' : Run} {t : List Deed} {s : σ}

theorem Run.Follows.ends {result : Except ChatError Bool} (h : r.Follows rules s)
    (hend : r.next scene = .ended result) : rules.ends s result := by
  rcases Run.next_ended hend with ⟨b, rfl, rfl⟩ | ⟨e, ks, rfl, rfl⟩
  · exact h.1
  · exact h.1

/-- Where the threads that may be entered keep to the rules, so do the courses of a run. -/
theorem Run.Course.follows (h : Run.Course scene r t r')
    (hall : ∀ topic s s', rules.allows s (.enter topic) →
      rules.after s (.entered topic) = some s' → (scene.enter topic).Follows rules s')
    (hr : r.Follows rules s) :
    rules.Obeyed s t ∧ ∀ s', rules.run s t = some s' → r'.Follows rules s' := by
  induction h generalizing s with
  | here =>
      refine ⟨trivial, ?_⟩
      rintro s' ⟨⟩
      exact hr
  | moved hn _ ih =>
      rcases Run.next_moved hn with ⟨b, k, ks, rfl, rfl⟩ | ⟨topic, k, ks, rfl, rfl⟩
      · -- The thread ends in the present state, and the one around it goes on in it.
        refine ih ⟨?_, fun k' hk' => hr.2 k' (List.mem_cons_of_mem k hk')⟩
        exact hr.2 k List.mem_cons_self b s hr.1
      · obtain ⟨hallowed, hk⟩ := hr.1
        have hinner : ∀ s', rules.after s (.entered topic) = some s' →
            Run.Follows rules ⟨scene.enter topic, k :: ks⟩ s' := by
          intro s' hs'
          refine ⟨hall topic s s' hallowed hs', fun k' hk' => ?_⟩
          rcases List.mem_cons.mp hk' with rfl | hk'
          · exact hk
          · exact hr.2 k' hk'
        refine ⟨⟨hallowed, fun s' hs' => (ih (hinner s' hs')).1⟩, fun s' hs' => ?_⟩
        obtain ⟨s₁, hs₁, hrun⟩ := Option.bind_eq_some_iff.mp (Rules.run_cons.symm.trans hs')
        exact (ih (hinner s₁ hs₁)).2 s' hrun
  | @asked r r' q k t a hn _ ih =>
      obtain ⟨k', ks, rfl, hq, rfl⟩ := Run.next_asks hn
      obtain ⟨hallowed, hk⟩ := hr.1
      have hanswered : ∀ s', rules.after s (.asked q a) = some s' →
          Run.Follows rules ⟨k' a, ks⟩ s' :=
        fun s' hs' => ⟨hk a s' ((Rules.resumes_iff hq).mpr hs'), hr.2⟩
      refine ⟨⟨hallowed, fun s' hs' => (ih (hanswered s' hs')).1⟩, fun s' hs' => ?_⟩
      obtain ⟨s₁, hs₁, hrun⟩ := Option.bind_eq_some_iff.mp (Rules.run_cons.symm.trans hs')
      exact (ih (hanswered s₁ hs₁)).2 s' hrun

/-- The thread that a run is about to enter is allowed, too. -/
theorem Run.Course.obeyed_entry (h : Run.Course scene r t r')
    (hall : ∀ topic s s', rules.allows s (.enter topic) →
      rules.after s (.entered topic) = some s' → (scene.enter topic).Follows rules s')
    (hr : r.Follows rules s) : rules.Obeyed s (t ++ r'.entry) := by
  obtain ⟨hobeyed, hfollows⟩ := h.follows hall hr
  refine Rules.obeyed_append.mpr ⟨hobeyed, fun s' hs' => ?_⟩
  have hcurrent := (hfollows s' hs').1
  unfold Run.entry
  split
  · next heq =>
    rw [heq] at hcurrent
    exact ⟨hcurrent.1, fun _ _ => trivial⟩
  · trivial

end Follows

end Dialogue
