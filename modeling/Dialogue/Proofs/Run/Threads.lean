import Dialogue.Proofs.Run.Courses
import Dialogue.Script.Diagnostic
/-!
# What steps and threads do

Most of what a step does concerns neither actions nor threads: it says its lines, calls commands,
asks the user and records a value. Such an activity is `Plain`. It fails just when an answer is a
failure, and then at once. What is left of a step is the action of the option that fits.

* `Scene.plain_stepValue` — a step comes to its value by a plain activity.
* `Scene.follows_runThread` — a thread keeps to rules that do not care for plain activities, if the
  actions that its steps name do.
-/

namespace Dialogue

/-! ## Plain activities -/

namespace Request

/-- Does the request concern neither actions nor threads? -/
def isPlain : Request → Bool
  | .acting _ _ | .enter _ => false
  | _ => true

/-- The failure that an answer tells of. -/
def failure? : (q : Request) → q.Answer → Option RunError
  | .input, .error e => some e
  | .resolve name, false => some (.commandNotFound name)
  | .call name _, .error reason => some (.commandFailed name reason)
  | _, _ => none

end Request

namespace Activity

variable {α β : Type}

theorem bind_eq (m : Activity α) (f : α → Activity β) : m >>= f = bind m f := rfl

/-- All requests of the activity are plain, and it fails just when an answer is a failure. -/
def Plain : Activity α → Prop
  | .done _ => True
  | .fail _ => False
  | .ask q k => q.isPlain = true ∧ (∀ a e, q.failure? a = some e → k a = .fail (.run e)) ∧
      ∀ a, q.failure? a = none → (k a).Plain

theorem Plain.bind {m : Activity α} {f : α → Activity β} (hm : m.Plain) (hf : ∀ a, (f a).Plain) :
    (m >>= f).Plain := by
  rw [bind_eq]
  induction m with
  | done a => exact hf a
  | fail e => exact hm.elim
  | ask q k ih =>
      obtain ⟨hq, hfail, hk⟩ := hm
      refine ⟨hq, fun a e ha => ?_, fun a ha => ih a (hk a ha)⟩
      show Activity.bind (k a) f = _
      rw [hfail a e ha]
      rfl

theorem plain_request {q : Request} (hq : q.isPlain = true) (hfail : ∀ a, q.failure? a = none) :
    (request q).Plain := by
  refine ⟨hq, fun a e ha => ?_, fun _ _ => trivial⟩
  rw [hfail a] at ha
  cases ha

theorem plain_input : input.Plain := by
  refine ⟨rfl, fun a e ha => ?_, fun a ha => ?_⟩
  · cases a <;> cases ha
    rfl
  · cases a with
    | ok v => trivial
    | error e => cases ha

theorem plain_forM {γ : Type} {f : γ → Activity Unit} (hf : ∀ x, (f x).Plain) (xs : List γ) :
    (xs.forM f).Plain := by
  induction xs with
  | nil => trivial
  | cons x xs ih => exact (hf x).bind fun _ => ih

end Activity

/-! ## The parts of a step -/

open Activity

namespace CommandLine

theorem plain_gather (key : Option String) (args : List ImplicitArg) :
    (gather key args).Plain := by
  induction args with
  | nil => trivial
  | cons arg rest ih =>
      cases arg with
      | record | context | key => exact ih.bind fun _ => trivial
      | uploader =>
          refine (plain_request rfl fun _ => rfl).bind fun _ => ?_
          exact plain_input.bind fun _ => ih.bind fun _ => trivial

/-- A command fails when there is none of that name, or when it gives no value. -/
theorem plain_invoke (l : CommandLine) (key : Option String) : (l.invoke key).Plain := by
  refine ⟨rfl, fun a e ha => ?_, fun a ha => ?_⟩
  · cases a <;> cases ha
    rfl
  · cases a with
    | false => cases ha
    | true =>
        refine (plain_gather key l.args).bind fun args => ?_
        refine ⟨rfl, fun a e ha => ?_, fun a ha => ?_⟩
        · cases a <;> cases ha
          rfl
        · cases a with
          | ok v => trivial
          | error reason => cases ha

end CommandLine

namespace Scene

variable (scene : Scene)

theorem plain_note (pending : Option Meta) : (note pending).Plain := by
  cases pending with
  | none => trivial
  | some entries => exact plain_request rfl fun _ => rfl

theorem plain_sayLines (key : Option String) (commands : Bool) (p : Progress)
    (lines : List Line) : (sayLines key commands p lines).Plain := by
  induction lines generalizing p with
  | nil => trivial
  | cons line rest ih =>
      cases line with
      | command c =>
          refine (c.plain_invoke key).bind fun result => ?_
          exact (plain_note _).bind fun _ => ih _
      | plain text =>
          refine (plain_request rfl fun _ => rfl).bind fun record => ?_
          cases commands with
          | true => exact (plain_request rfl fun _ => rfl).bind fun _ => ih _
          | false => exact (plain_request rfl fun _ => rfl).bind fun _ => ih _

theorem plain_fire (s : Step) (v : Json) : (scene.fire s v).Plain := by
  unfold fire
  split
  · exact plain_forM (fun _ => plain_request rfl fun _ => rfl) _
  · trivial

theorem plain_question (s : Step) : (scene.question s).Plain := by
  unfold question
  split
  · refine (plain_request rfl fun _ => rfl).bind fun _ => ?_
    exact plain_input.bind fun v => (plain_fire scene s v).bind fun _ => trivial
  · split
    · refine (plain_request rfl fun _ => rfl).bind fun _ => ?_
      exact plain_input.bind fun _ => trivial
    · exact plain_input.bind fun _ => trivial
  · trivial

/-- A step comes to its value by a plain activity. -/
theorem plain_stepValue (s : Step) : (scene.stepValue s).Plain := by
  unfold stepValue
  dsimp only
  split
  · refine (plain_sayLines _ _ _ _).bind fun p => ?_
    split
    · trivial
    · exact plain_question scene s
  · exact (plain_note _).bind fun _ => trivial

theorem plain_storeValue (key : Option String) (v : Json) : (scene.storeValue key v).Plain := by
  unfold storeValue
  split
  · refine (plain_request rfl fun _ => rfl).bind fun _ => ?_
    split
    · exact plain_request rfl fun _ => rfl
    · trivial
  · trivial

/-! ## The option that is chosen -/

variable {scene}

theorem mem_of_firstMatch {text : String} {options : List CollectOption} {o : CollectOption}
    (h : scene.firstMatch text options = .ok (some o)) : o ∈ options := by
  induction options with
  | nil => cases h
  | cons o' rest ih =>
      unfold firstMatch at h
      split at h
      · split at h
        · cases h
          exact List.mem_cons_self
        · exact List.mem_cons_of_mem o' (ih h)
      · split at h
        · split at h
          · cases h
            exact List.mem_cons_self
          · exact List.mem_cons_of_mem o' (ih h)
        · cases h
      · exact List.mem_cons_of_mem o' (ih h)

theorem mem_of_chosen {text : String} {options : List CollectOption} {o : CollectOption}
    (h : scene.chosen text options = .ok (some o)) : o ∈ options := by
  unfold chosen at h
  split at h
  · next hmatch =>
    cases h
    exact mem_of_firstMatch hmatch
  · exact List.mem_of_find?_eq_some (Except.ok.inj h)
  · cases h

/-- Looking for an option fails only at a pattern that is no regular expression. -/
theorem exists_pattern_of_chosen {text : String} {options : List CollectOption} {e : ScriptError}
    (h : scene.chosen text options = .error e) : ∃ o ∈ options, ∃ pattern,
      o.pattern = some pattern ∧ o.kind = some .regex ∧ scene.engine.test pattern = .error e := by
  have hmatch : scene.firstMatch text options = .error e := by
    unfold chosen at h
    split at h
    · cases h
    · cases h
    · next herror => rw [herror, Except.error.inj h]
  clear h
  induction options with
  | nil => cases hmatch
  | cons o rest ih =>
      have hrest : (∃ pattern, o.pattern = some pattern ∧ o.kind = some .regex ∧
          scene.engine.test pattern = .error e) ∨ scene.firstMatch text rest = .error e := by
        unfold firstMatch at hmatch
        split at hmatch
        · split at hmatch
          · cases hmatch
          · exact .inr hmatch
        · next pattern hp hk =>
          split at hmatch
          · split at hmatch
            · cases hmatch
            · exact .inr hmatch
          · next he =>
            cases hmatch
            exact .inl ⟨pattern, hp, hk, he⟩
        · exact .inr hmatch
      rcases hrest with hpattern | hrest
      · exact ⟨o, List.mem_cons_self, hpattern⟩
      · obtain ⟨o', ho', hpattern⟩ := ih hrest
        exact ⟨o', List.mem_cons_of_mem o ho', hpattern⟩

end Scene

/-! ## Threads and their steps -/

namespace ThreadIndex

variable {ix : ThreadIndex} {topic : String}

theorem get?_eq_some {t : Thread} (h : ix.get? topic = some t) :
    t ∈ ix.threads ∧ t.topic = topic := by
  have hfind : ix.threads.find? (fun t => decide (t.topic = topic)) = some t := h
  have htopic := List.find?_some hfind
  exact ⟨List.mem_of_find?_eq_some hfind, by simpa using htopic⟩

theorem contains_iff : ix.contains topic = true ↔ topic ∈ ix.topics := by
  constructor
  · intro h
    obtain ⟨t, ht⟩ := Option.isSome_iff_exists.mp h
    obtain ⟨hmem, rfl⟩ := get?_eq_some ht
    exact List.mem_map_of_mem hmem
  · intro h
    obtain ⟨t, ht, htopic⟩ := List.mem_map.mp h
    exact List.find?_isSome.mpr ⟨t, ht, decide_eq_true htopic⟩

end ThreadIndex

namespace Thread

variable {t : Thread}

theorem mem_of_mem_numbered {x : Step × Nat} (h : x ∈ t.numbered) : x.1 ∈ t.steps := by
  obtain ⟨-, -, hmem⟩ := List.mem_zipIdx (show (x.1, x.2) ∈ t.steps.zipIdx 1 from h)
  rw [hmem]
  exact List.getElem_mem _

end Thread

/-! ## Threads that keep to rules -/

/-- Does the step name the action, as its own or as that of an option? -/
def Step.Names (s : Step) (action : String) : Prop :=
  s.flowAction = some action ∨ ∃ o ∈ s.options, o.action = action

section Rules

variable {α σ : Type} {rules : Rules σ} {scene : Scene} {s : σ}

/-- Plain requests may be made in the state and do not change it, and when one of them fails so may
the thread. -/
structure Rules.Indifferent (rules : Rules σ) (s : σ) : Prop where
  allows : ∀ q : Request, q.isPlain = true → rules.allows s q
  after : ∀ (q : Request) (a : q.Answer), q.isPlain = true → q.failure? a = none →
    rules.after s (.asked q a) = some s
  fails : ∀ (q : Request) (a : q.Answer) e s', q.isPlain = true → q.failure? a = some e →
    rules.after s (.asked q a) = some s' → rules.ends s' (.error (.run e))

/-- What the rules ask of a thread, in each state in which a thread may end without completing the
run: they are indifferent to plain requests, the actions that the steps of the thread name keep to
them, and a thread may fail at each of its options that has no regular expression for a pattern. -/
structure Rules.Suits (rules : Rules σ) (scene : Scene) (t : Thread) : Prop where
  plain : ∀ s, rules.ends s (.ok false) → rules.Indifferent s
  act : ∀ s, rules.ends s (.ok false) → ∀ st ∈ t.steps, ∀ place action, st.Names action →
    (scene.act place action).Follows rules s
  refuse : ∀ s, rules.ends s (.ok false) → ∀ st ∈ t.steps, ∀ o ∈ st.options, ∀ pattern e,
    o.pattern = some pattern → o.kind = some .regex → scene.engine.test pattern = .error e →
    rules.ends s (.error (.script e))

theorem Activity.Plain.follows_bind {m : Activity α} {f : α → Activity Bool} (hm : m.Plain)
    (hs : rules.Indifferent s) (hf : ∀ a, (f a).Follows rules s) : (m >>= f).Follows rules s := by
  rw [bind_eq]
  induction m with
  | done a => exact hf a
  | fail e => exact hm.elim
  | ask q k ih =>
      obtain ⟨hq, hfail, hk⟩ := hm
      refine ⟨hs.allows q hq, fun a s' hs' => ?_⟩
      have hne : ∀ topic, q ≠ .enter topic := by
        rintro topic rfl
        cases hq
      rw [Rules.resumes_iff hne] at hs'
      show (Activity.bind (k a) f).Follows rules s'
      cases ha : q.failure? a with
      | some e =>
          rw [hfail a e ha]
          exact hs.fails q a e s' hq ha hs'
      | none =>
          rw [hs.after q a hq ha] at hs'
          cases hs'
          exact ih a (hk a ha)

theorem Activity.Follows.bind {m : Activity Bool} {f : Bool → Activity Bool}
    (hm : m.Follows rules s) (hf : ∀ b s', rules.ends s' (.ok b) → (f b).Follows rules s') :
    (m >>= f).Follows rules s := by
  rw [bind_eq]
  induction m generalizing s with
  | done b => exact hf b s hm
  | fail e => exact hm
  | ask q k ih => exact ⟨hm.1, fun a s' hs' => ih a (hm.2 a s' hs')⟩

namespace Scene

variable {t : Thread} {st : Step} {place : Option Place}

/-- An action keeps to the rules when it may be taken, and what it asks for may happen then. -/
theorem follows_act {action : String} (hallowed : rules.allows s (.acting place action))
    (h : ∀ s', rules.after s (.asked (.acting place action) ()) = some s' →
      match Action.parse action with
      | .next => rules.ends s' (.ok false)
      | .complete => rules.ends s' (.ok true)
      | .thread topic =>
        if scene.index.contains topic then rules.allows s' (.enter topic)
        else rules.ends s' (.ok false)) :
    (scene.act place action).Follows rules s := by
  refine ⟨hallowed, ?_⟩
  rintro ⟨⟩ s' hs'
  have hthen := h s' hs'
  show Activity.Follows rules (match Action.parse action with
    | .next => .done false
    | .complete => .done true
    | .thread topic =>
      if scene.index.contains topic then Activity.request (.enter topic) else .done false) s'
  cases haction : Action.parse action with
  | next | complete =>
      rw [haction] at hthen
      exact hthen
  | thread topic =>
      rw [haction] at hthen
      dsimp only at hthen ⊢
      by_cases hknown : scene.index.contains topic = true
      · rw [if_pos hknown] at hthen ⊢
        exact ⟨hthen, fun b s₂ hs₂ => hs₂⟩
      · rw [if_neg hknown] at hthen ⊢
        exact hthen

theorem follows_collect (h : rules.Suits scene t) (hst : st ∈ t.steps)
    (hs : rules.ends s (.ok false)) {c : Collect} (hc : st.collect = some c) (key : Option String)
    (v : Json) : (scene.collect place c key v).Follows rules s := by
  have hoptions : st.options = c.options := by
    rw [Step.options, hc]
    rfl
  unfold collect
  apply (plain_storeValue scene key v).follows_bind (h.plain s hs)
  intro _
  split
  case h_1 o ho =>
    have hmem : o ∈ st.options := by
      rw [hoptions]
      exact mem_of_chosen ho
    exact h.act s hs st hst place o.action (.inr ⟨o, hmem, rfl⟩)
  case h_2 => exact hs
  case h_3 e he =>
    obtain ⟨o, ho, pattern, hp, hk, htest⟩ := exists_pattern_of_chosen he
    rw [← hoptions] at ho
    exact h.refuse s hs st hst o ho pattern e hp hk htest

theorem follows_runStep (h : rules.Suits scene t) (hst : st ∈ t.steps)
    (hs : rules.ends s (.ok false)) : (scene.runStep place st).Follows rules s := by
  unfold runStep
  apply (plain_stepValue scene st).follows_bind (h.plain s hs)
  intro value
  split
  case h_1 v c hc => exact follows_collect h hst hs hc _ v
  case h_2 => exact hs

theorem follows_runSteps (h : rules.Suits scene t) {topic : String}
    {saved : Option (Place × String)} {rest : List (Step × Nat)} (hrest : ∀ x ∈ rest, x.1 ∈ t.steps)
    (hsaved : ∀ x, saved = some x → ∃ st ∈ t.steps, st.Names x.2) (hs : rules.ends s (.ok false)) :
    (scene.runSteps topic saved rest).Follows rules s := by
  induction rest generalizing saved s with
  | nil =>
      cases saved with
      | none => exact hs
      | some x =>
          obtain ⟨st, hst, hnames⟩ := hsaved x rfl
          exact h.act s hs st hst (some x.1) x.2 hnames
  | cons x rest ih =>
      obtain ⟨st, n⟩ := x
      have hst : st ∈ t.steps := hrest (st, n) List.mem_cons_self
      have hrest' : ∀ x ∈ rest, x.1 ∈ t.steps := fun x hx => hrest x (List.mem_cons_of_mem _ hx)
      unfold runSteps
      split
      case h_1 action haction =>
        -- The step is put aside with its action.
        apply ih hrest' _ hs
        rintro x ⟨⟩
        exact ⟨st, hst, .inl haction⟩
      case h_2 =>
        apply (follows_runStep h hst hs).bind
        intro b s' hb
        cases b with
        | true => exact hb
        | false => exact ih hrest' hsaved hb

/-- A thread keeps to rules that it suits. -/
theorem follows_runThread (h : rules.Suits scene t) (hs : rules.ends s (.ok false)) :
    (scene.runThread t).Follows rules s := by
  apply follows_runSteps h _ (by rintro x ⟨⟩) hs
  intro x hx
  exact Thread.mem_of_mem_numbered hx

end Scene

end Rules

end Dialogue
