import Dialogue.Proofs.Run.Outcomes
/-!
# What remains of an activity

An activity that has come through some of its requests leaves an activity that is still to be done.
Unlike the way in which it comes out, that can be told at any time: of an activity that waits for an
answer as well as of one that is done or has failed.

* `Activity.Leaves` — the deeds by which an activity has come so far, and what remains of it.
* `Activity.leaves_bind_iff` — one activity after another.
* `Run.Course.leaves_bind` — a course goes through its innermost activity up to the first thread
  that is entered.
-/

namespace Dialogue

namespace Activity

variable {α β : Type}

/-- By some deeds the activity has come so far that another one remains of it. No thread has been
entered. -/
inductive Leaves : Activity α → List Deed → Activity α → Prop
  | here (m : Activity α) : Leaves m [] m
  | asked {q : Request} {k : q.Answer → Activity α} {t : List Deed} {m : Activity α}
      (a : q.Answer) (hq : ∀ topic, q ≠ .enter topic) :
      Leaves (k a) t m → Leaves (.ask q k) (.asked q a :: t) m

variable {m m' m'' : Activity α} {f : α → Activity β} {t t' : List Deed}

theorem leaves_done_iff {a : α} : (Activity.done a).Leaves t m ↔ t = [] ∧ m = .done a := by
  constructor
  · rintro ⟨⟩
    exact ⟨rfl, rfl⟩
  · rintro ⟨rfl, rfl⟩
    exact .here _

theorem leaves_fail_iff {e : ChatError} :
    (Activity.fail e : Activity α).Leaves t m ↔ t = [] ∧ m = .fail e := by
  constructor
  · rintro ⟨⟩
    exact ⟨rfl, rfl⟩
  · rintro ⟨rfl, rfl⟩
    exact .here _

theorem leaves_ask_iff {q : Request} {k : q.Answer → Activity α} (hq : ∀ topic, q ≠ .enter topic) :
    (Activity.ask q k).Leaves t m ↔
      (t = [] ∧ m = .ask q k) ∨ ∃ a t', t = .asked q a :: t' ∧ (k a).Leaves t' m := by
  constructor
  · intro h
    cases h with
    | here => exact .inl ⟨rfl, rfl⟩
    | asked a _ h => exact .inr ⟨a, _, rfl, h⟩
  · rintro (⟨rfl, rfl⟩ | ⟨a, t', rfl, h⟩)
    · exact .here _
    · exact .asked a hq h

/-- A thread that is to be entered is entered first. -/
theorem leaves_enter_iff {topic : String} {k : Bool → Activity α} :
    (Activity.ask (.enter topic) k).Leaves t m ↔ t = [] ∧ m = .ask (.enter topic) k := by
  constructor
  · intro h
    cases h with
    | here => exact ⟨rfl, rfl⟩
    | asked a hq => exact absurd rfl (hq topic)
  · rintro ⟨rfl, rfl⟩
    exact .here _

theorem Leaves.trans (h : m.Leaves t m') (h' : m'.Leaves t' m'') : m.Leaves (t ++ t') m'' := by
  induction h with
  | here => exact h'
  | asked a hq _ ih => exact .asked a hq (ih h')

theorem Leaves.bind (h : m.Leaves t m') (f : α → Activity β) : (m >>= f).Leaves t (m' >>= f) := by
  induction h with
  | here => exact .here _
  | asked a hq _ ih => exact .asked a hq ih

/-- An activity that is followed by another one has come so far itself, or it is done and the other
one goes on with its result. -/
theorem leaves_bind_iff {x : Activity β} : (m >>= f).Leaves t x ↔
    (∃ m', m.Leaves t m' ∧ (∀ a, m' ≠ .done a) ∧ x = m' >>= f) ∨
      ∃ t₁ a t₂, t = t₁ ++ t₂ ∧ m.Leaves t₁ (.done a) ∧ (f a).Leaves t₂ x := by
  constructor
  · intro h
    induction m generalizing t with
    | done a => exact .inr ⟨[], a, t, rfl, .here _, h⟩
    | fail e =>
        obtain ⟨rfl, rfl⟩ := leaves_fail_iff.mp h
        exact .inl ⟨.fail e, .here _, by simp, rfl⟩
    | ask q k ih =>
        cases h with
        | here => exact .inl ⟨.ask q k, .here _, by simp, rfl⟩
        | asked a hq h =>
            rcases ih a h with ⟨m', hm', hne, rfl⟩ | ⟨t₁, b, t₂, rfl, h₁, h₂⟩
            · exact .inl ⟨m', .asked a hq hm', hne, rfl⟩
            · exact .inr ⟨_, b, t₂, rfl, .asked a hq h₁, h₂⟩
  · rintro (⟨m', h, -, rfl⟩ | ⟨t₁, a, t₂, rfl, h₁, h₂⟩)
    · exact h.bind f
    · exact (h₁.bind f).trans h₂

/-- An interruption is the error that remains. -/
theorem leaves_input_bind_iff {f : Json → Activity β} {x : Activity β} :
    (input >>= f).Leaves t x ↔ (t = [] ∧ x = input >>= f) ∨ ∃ a t', t = .asked .input a :: t' ∧
      match a with
      | .ok v => (f v).Leaves t' x
      | .error e => t' = [] ∧ x = .fail (.run e) := by
  refine (leaves_ask_iff (by simp)).trans (or_congr_right ?_)
  refine exists_congr fun a => exists_congr fun t' => and_congr_right fun _ => ?_
  cases a with
  | ok v => rfl
  | error e => exact leaves_fail_iff

/-- An activity has come so far by requests that it makes. -/
theorem Asks.of_leaves {P : Request → Prop} (hm : m.Asks P) (h : m.Leaves t m') :
    (∀ d ∈ t, P d.request) ∧ m'.Asks P := by
  induction h with
  | here => exact ⟨by simp, hm⟩
  | asked a _ _ ih =>
      obtain ⟨ht, hm'⟩ := ih (hm.2 a)
      refine ⟨fun d hd => ?_, hm'⟩
      rcases List.mem_cons.mp hd with rfl | hd
      · exact hm.1
      · exact ht d hd

/-- The deeds say where an activity is done, and with which result. -/
theorem Leaves.done_unique {a a' : α} {u u' : List Deed} (h : m.Leaves t (.done a))
    (h' : m.Leaves t' (.done a')) (htwo : t ++ u = t' ++ u') : t = t' ∧ a = a' := by
  -- Induction on the first way: as both begin the same list, each answer of the one is the answer
  -- of the other.
  generalize hx : Activity.done a = x at h
  induction h generalizing t' with
  | here =>
      subst hx
      obtain ⟨rfl, hsame⟩ := leaves_done_iff.mp h'
      exact ⟨rfl, (Activity.done.inj hsame).symm⟩
  | asked b hq _ ih =>
      cases h' with
      | asked b' _ h' =>
          obtain ⟨hd, htail⟩ := List.cons.inj htwo
          cases hd
          obtain ⟨rfl, rfl⟩ := ih h' htail hx
          exact ⟨rfl, rfl⟩

/-- Whatever an activity has come to, it comes out in some way. -/
theorem exists_comes (m : Activity α) : ∃ t r, m.Comes t r := by
  induction m with
  | done a => exact ⟨[], _, .done a⟩
  | fail e => exact ⟨[], _, .fail e⟩
  | ask q k ih =>
      cases q
      case enter topic =>
        obtain ⟨t, r, h⟩ := ih false
        exact ⟨_, r, .entered false h⟩
      case record =>
        obtain ⟨t, r, h⟩ := ih Record.empty
        exact ⟨_, r, .asked _ (by simp) h⟩
      case input =>
        obtain ⟨t, r, h⟩ := ih (.error .interrupted)
        exact ⟨_, r, .asked _ (by simp) h⟩
      case resolve name =>
        obtain ⟨t, r, h⟩ := ih false
        exact ⟨_, r, .asked _ (by simp) h⟩
      case call name args =>
        obtain ⟨t, r, h⟩ := ih (.ok .null)
        exact ⟨_, r, .asked _ (by simp) h⟩
      all_goals
        obtain ⟨t, r, h⟩ := ih ()
        exact ⟨_, r, .asked _ (by simp) h⟩

/-- What an activity has come to is a part of the ways in which it comes out. -/
theorem Leaves.comes {r : Except ChatError α} (h : m.Leaves t m') (h' : m'.Comes t' r) :
    m.Comes (t ++ t') r := by
  induction h with
  | here => exact h'
  | asked a hq _ ih => exact .asked a hq (ih h')

end Activity

/-- A course that begins with an activity is still within it, or goes on with its result, or enters
the first thread that the activity enters. -/
theorem Run.Course.leaves_bind {scene : Scene} {α : Type} {m : Activity α} {f : α → Activity Bool}
    {ks : List (Bool → Activity Bool)} {t : List Deed} {r : Run}
    (h : Run.Course scene ⟨m >>= f, ks⟩ t r) :
    (∃ m', m.Leaves t m' ∧ (∀ a, m' ≠ .done a) ∧ r = ⟨m' >>= f, ks⟩) ∨
      (∃ t₁ a t₂, t = t₁ ++ t₂ ∧ m.Leaves t₁ (.done a) ∧ Run.Course scene ⟨f a, ks⟩ t₂ r) ∨
      ∃ t₁ topic k t₂, t = t₁ ++ .entered topic :: t₂ ∧ m.Leaves t₁ (.ask (.enter topic) k) ∧
        Run.Course scene ⟨scene.enter topic, (fun b => k b >>= f) :: ks⟩ t₂ r := by
  induction m generalizing t with
  | done a => exact .inr (.inl ⟨[], a, t, rfl, .here _, h⟩)
  | fail e =>
      obtain ⟨rfl, rfl⟩ := h.of_ended rfl
      exact .inl ⟨.fail e, .here _, by simp, rfl⟩
  | ask q k ih =>
      cases h with
      | here => exact .inl ⟨.ask q k, .here _, by simp, rfl⟩
      | moved hn h =>
          rcases Run.next_moved hn with ⟨_, _, _, heq, -⟩ | ⟨topic, k', ks', heq, rfl⟩
          · cases heq
          · cases heq
            exact .inr (.inr ⟨[], topic, k, _, rfl, .here _, h⟩)
      | asked a hn h =>
          obtain ⟨k', ks', heq, hq, rfl⟩ := Run.next_asks hn
          cases heq
          rcases ih a h with ⟨m', hm', hne, rfl⟩ | ⟨t₁, b, t₂, rfl, h₁, h₂⟩ |
            ⟨t₁, topic, k', t₂, rfl, h₁, h₂⟩
          · exact .inl ⟨m', .asked a hq hm', hne, rfl⟩
          · exact .inr (.inl ⟨_, b, t₂, rfl, .asked a hq h₁, h₂⟩)
          · exact .inr (.inr ⟨_, topic, k', t₂, rfl, .asked a hq h₁, h₂⟩)

end Dialogue
