import Dialogue.Proofs.Run.Entries
/-!
# Outcomes of an activity

An activity comes out with a result or with an error, depending on what is answered to its requests
and on what becomes of the threads that it enters. Of neither anything is assumed. An activity has
finitely many requests on each way, so everything that it can do is a part of an outcome.

* `Activity.Comes` — the deeds by which an activity comes out.
* `Activity.comes_bind_iff` — one activity after another.
* `Run.Course.exists_comes` — in a run that ends, its innermost activity comes out.
-/

namespace Dialogue

namespace Activity

variable {α β : Type}

/-- The activity comes out so, by some deeds. A thread that it enters may end in any way, and what
is done in that thread is left out. -/
inductive Comes : Activity α → List Deed → Except ChatError α → Prop
  | done (a : α) : Comes (.done a) [] (.ok a)
  | fail (e : ChatError) : Comes (.fail e) [] (.error e)
  | asked {q : Request} {k : q.Answer → Activity α} {t : List Deed} {r : Except ChatError α}
      (a : q.Answer) (hq : ∀ topic, q ≠ .enter topic) :
      Comes (k a) t r → Comes (.ask q k) (.asked q a :: t) r
  | entered {topic : String} {k : Bool → Activity α} {t : List Deed} {r : Except ChatError α}
      (c : Bool) : Comes (k c) t r → Comes (.ask (.enter topic) k) (.entered topic :: t) r
  | broken {topic : String} {k : Bool → Activity α} (e : ChatError) :
      Comes (.ask (.enter topic) k) [.entered topic] (.error e)

variable {m : Activity α} {f : α → Activity β} {t : List Deed} {r : Except ChatError α}

/-- An activity comes out by requests that it makes. -/
theorem Asks.of_comes {P : Request → Prop} (hm : m.Asks P) (h : m.Comes t r) :
    ∀ d ∈ t, P d.request := by
  induction h with
  | done | fail => simp
  | asked a _ _ ih | entered a _ ih =>
      intro d hd
      rcases List.mem_cons.mp hd with rfl | hd
      · exact hm.1
      · exact ih (hm.2 _) d hd
  | broken =>
      intro d hd
      cases List.mem_singleton.mp hd
      exact hm.1

theorem Plain.asks (h : m.Plain) : m.Asks fun q => q.isPlain = true := by
  induction m with
  | done | fail => trivial
  | ask q k ih =>
      obtain ⟨hq, hfail, hk⟩ := h
      refine ⟨hq, fun a => ?_⟩
      cases ha : q.failure? a with
      | none => exact ih a (hk a ha)
      | some e =>
          rw [hfail a e ha]
          trivial

theorem comes_done_iff {a : α} : (Activity.done a).Comes t r ↔ t = [] ∧ r = .ok a := by
  constructor
  · rintro ⟨⟩
    exact ⟨rfl, rfl⟩
  · rintro ⟨rfl, rfl⟩
    exact .done a

theorem comes_fail_iff {e : ChatError} :
    (Activity.fail e : Activity α).Comes t r ↔ t = [] ∧ r = .error e := by
  constructor
  · rintro ⟨⟩
    exact ⟨rfl, rfl⟩
  · rintro ⟨rfl, rfl⟩
    exact .fail e

theorem comes_ask_iff {q : Request} {k : q.Answer → Activity α} (hq : ∀ topic, q ≠ .enter topic) :
    (Activity.ask q k).Comes t r ↔ ∃ a t', t = .asked q a :: t' ∧ (k a).Comes t' r := by
  constructor
  · intro h
    cases h with
    | asked a _ h => exact ⟨a, _, rfl, h⟩
    | entered | broken => exact absurd rfl (hq _)
  · rintro ⟨a, t', rfl, h⟩
    exact .asked a hq h

/-- An activity that is followed by another one comes out with its own error, or else the other one
goes on with its result. -/
theorem comes_bind_iff {r : Except ChatError β} :
    (m >>= f).Comes t r ↔ (∃ e, m.Comes t (.error e) ∧ r = .error e) ∨
      ∃ t₁ a t₂, t = t₁ ++ t₂ ∧ m.Comes t₁ (.ok a) ∧ (f a).Comes t₂ r := by
  rw [bind_eq]
  constructor
  · intro h
    induction m generalizing t with
    | done a => exact .inr ⟨[], a, t, rfl, .done a, h⟩
    | fail e =>
        obtain ⟨rfl, rfl⟩ := comes_fail_iff.mp h
        exact .inl ⟨e, .fail e, rfl⟩
    | ask q k ih =>
        cases h with
        | asked a hq h =>
            rcases ih a h with ⟨e, he, rfl⟩ | ⟨t₁, c, t₂, rfl, h₁, h₂⟩
            · exact .inl ⟨e, .asked a hq he, rfl⟩
            · exact .inr ⟨_, c, t₂, rfl, .asked a hq h₁, h₂⟩
        | entered a h =>
            rcases ih a h with ⟨e, he, rfl⟩ | ⟨t₁, c, t₂, rfl, h₁, h₂⟩
            · exact .inl ⟨e, .entered a he, rfl⟩
            · exact .inr ⟨_, c, t₂, rfl, .entered a h₁, h₂⟩
        | broken e => exact .inl ⟨e, .broken e, rfl⟩
  · rintro (⟨e, h, rfl⟩ | ⟨t₁, a, t₂, rfl, h₁, h₂⟩)
    · generalize hr : (.error e : Except ChatError α) = r at h
      induction h with
      | done a => cases hr
      | fail e =>
          cases hr
          exact .fail e
      | asked a hq _ ih => exact .asked a hq (ih hr)
      | entered c _ ih => exact .entered c (ih hr)
      | broken e =>
          cases hr
          exact .broken e
    · generalize hr : (.ok a : Except ChatError α) = r' at h₁
      induction h₁ with
      | done a =>
          cases hr
          exact h₂
      | fail e => cases hr
      | asked b hq _ ih => exact .asked b hq (ih hr)
      | entered c _ ih => exact .entered c (ih hr)
      | broken e => cases hr

theorem comes_request_bind_iff {q : Request} {f : q.Answer → Activity β} {r : Except ChatError β}
    (hq : ∀ topic, q ≠ .enter topic) : (request q >>= f).Comes t r ↔
      ∃ a t', t = .asked q a :: t' ∧ (f a).Comes t' r :=
  comes_ask_iff hq

/-- An interruption is the error with which the activity comes out. -/
theorem comes_input_bind_iff {f : Json → Activity β} {r : Except ChatError β} :
    (input >>= f).Comes t r ↔ ∃ a t', t = .asked .input a :: t' ∧
      match a with
      | .ok v => (f v).Comes t' r
      | .error e => t' = [] ∧ r = .error (.run e) := by
  refine (comes_ask_iff (by simp)).trans (exists_congr fun a => exists_congr fun t' => ?_)
  refine and_congr_right fun _ => ?_
  cases a with
  | ok v => rfl
  | error e => exact comes_fail_iff

end Activity

/-! ## Activities within a run -/

/-- The activities of a run come out one after the other, the innermost first, until all are done or
one of them fails. Their own deeds are among those of the run, together with the deeds of the
threads that they enter. -/
inductive Run.Comes :
    List (Bool → Activity Bool) → Activity Bool → List Deed → Except ChatError Bool → Prop
  | last {m : Activity Bool} {own t : List Deed} {b : Bool} :
      m.Comes own (.ok b) → own.Sublist t → Run.Comes [] m t (.ok b)
  | failed {m : Activity Bool} {ks : List (Bool → Activity Bool)} {own t : List Deed}
      {e : ChatError} : m.Comes own (.error e) → own.Sublist t → Run.Comes ks m t (.error e)
  | next {m : Activity Bool} {k : Bool → Activity Bool} {ks : List (Bool → Activity Bool)}
      {own t t' : List Deed} {b : Bool} {result : Except ChatError Bool} :
      m.Comes own (.ok b) → own.Sublist t → Run.Comes ks (k b) t' result →
      Run.Comes (k :: ks) m (t ++ t') result

/-- An activity that comes out by one deed more. -/
theorem Run.Comes.cons {m m' : Activity Bool} {ks : List (Bool → Activity Bool)} {d : Deed}
    {t : List Deed} {result : Except ChatError Bool} (h : Run.Comes ks m' t result)
    (inner : List Deed) (hm : ∀ own r, m'.Comes own r → m.Comes (d :: own) r) :
    Run.Comes ks m (d :: (inner ++ t)) result := by
  have hsub : ∀ own t : List Deed, own.Sublist t → (d :: own).Sublist (d :: (inner ++ t)) :=
    fun own t hown => (hown.trans (List.sublist_append_right inner t)).cons_cons d
  cases h with
  | last h hown => exact .last (hm _ _ h) (hsub _ _ hown)
  | failed h hown => exact .failed (hm _ _ h) (hsub _ _ hown)
  | next h hown hrest =>
      rw [← List.append_assoc, ← List.cons_append]
      exact .next (hm _ _ h) (hsub _ _ hown) hrest

/-- In a run that ends its activities come out. -/
theorem Run.Course.comes {scene : Scene} {r r' : Run} {t : List Deed}
    {result : Except ChatError Bool} (h : Run.Course scene r t r')
    (hend : r'.next scene = .ended result) : Run.Comes r.outer r.current t result := by
  induction h with
  | here r =>
      rcases Run.next_ended hend with ⟨b, rfl, rfl⟩ | ⟨e, ks, rfl, rfl⟩
      · exact .last (.done b) (List.Sublist.refl [])
      · exact .failed (.fail e) (List.Sublist.refl [])
  | @moved r r₁ r' t hn _ ih =>
      have hcomes := ih hend
      rcases Run.next_moved hn with ⟨b, k, ks, rfl, rfl⟩ | ⟨topic, k, ks, rfl, rfl⟩
      · exact .next (.done b) (List.Sublist.refl []) hcomes
      · show Run.Comes ks (.ask (.enter topic) k) (.entered topic :: t) result
        -- The thread that is entered is the innermost activity for a while.
        cases hcomes with
        | failed => exact .failed (.broken _) ((List.nil_sublist t).cons_cons _)
        | next _ _ hrest => exact hrest.cons _ fun own r h => .entered _ h
  | @asked r r' q k t a hn _ ih =>
      obtain ⟨k', ks, rfl, hq, rfl⟩ := Run.next_asks hn
      exact (ih hend).cons [] fun own r h => .asked a hq h

/-- The innermost activity of a run that ends comes out, and its error is that of the run. -/
theorem Run.Course.exists_comes {scene : Scene} {r r' : Run} {t : List Deed}
    {result : Except ChatError Bool} (h : Run.Course scene r t r')
    (hend : r'.next scene = .ended result) :
    ∃ own outcome, r.current.Comes own outcome ∧ own.Sublist t ∧
      (∀ e, outcome = .error e → result = .error e) ∧ (r.outer = [] → outcome = result) := by
  obtain ⟨current, outer⟩ := r
  cases h.comes hend with
  | last hm hown => exact ⟨_, _, hm, hown, by rintro e ⟨⟩, fun _ => rfl⟩
  | failed hm hown => exact ⟨_, _, hm, hown, fun e he => he, fun _ => rfl⟩
  | next hm hown =>
      exact ⟨_, _, hm, hown.trans (List.sublist_append_left _ _), by rintro e ⟨⟩, by rintro ⟨⟩⟩

end Dialogue
