import Dialogue.Proofs.Run.Outcomes
/-!
# Actions that are put aside

A thread puts the first step that has an action aside while it runs its steps. That is the same as
to take that step out beforehand, to run the steps that remain, and to take the action at the end.
Of the step that is put aside nothing counts but the action, and of the other steps the action does
not count.

* `Scene.deferring` — a thread in two phases.
* `Scene.Performs` — what a thread does in each of them, and how it comes out.
* `Scene.runThread_deferring` — a thread runs like that, also within a whole run.
-/

namespace Dialogue

/-! ## One activity after another -/

namespace Activity

variable {m m' m'' : Activity Bool} {t : List Deed} {r : Except ChatError Bool}

/-- One activity and then another, unless the first one completes the run. -/
def followedBy (m m' : Activity Bool) : Activity Bool := do
  if ← m then return true else m'

theorem followedBy_assoc (m m' m'' : Activity Bool) :
    (m.followedBy m').followedBy m'' = m.followedBy (m'.followedBy m'') := by
  rw [followedBy, followedBy, bind_assoc]
  refine bind_congr fun b => ?_
  cases b <;> rfl

theorem comes_followedBy_iff : (m.followedBy m').Comes t r ↔
    (m.Comes t r ∧ r ≠ .ok false) ∨
      ∃ t₁ t₂, t = t₁ ++ t₂ ∧ m.Comes t₁ (.ok false) ∧ m'.Comes t₂ r := by
  rw [followedBy, comes_bind_iff]
  constructor
  · rintro (⟨e, h, rfl⟩ | ⟨t₁, b, t₂, rfl, h₁, h₂⟩)
    · exact .inl ⟨h, by rintro ⟨⟩⟩
    · cases b with
      | true =>
          obtain ⟨rfl, rfl⟩ := comes_done_iff.mp h₂
          rw [List.append_nil]
          exact .inl ⟨h₁, by rintro ⟨⟩⟩
      | false => exact .inr ⟨t₁, t₂, rfl, h₁, h₂⟩
  · rintro (⟨h, hr⟩ | ⟨t₁, t₂, rfl, h₁, h₂⟩)
    · rcases r with e | _ | _
      · exact .inl ⟨e, h, rfl⟩
      · exact absurd rfl hr
      · exact .inr ⟨t, true, [], (List.append_nil t).symm, h, .done true⟩
    · exact .inr ⟨t₁, false, t₂, rfl, h₁, h₂⟩

end Activity

/-! ## The two phases of a thread -/

namespace Thread

/-- The action that is put aside, and where it stands: that of the first step with an action. -/
def deferred? (th : Thread) : Option (Place × String) :=
  th.numbered.findSome? fun x => x.1.flowAction.map fun action => (⟨th.topic, some x.2⟩, action)

/-- The steps that remain when the first one with an action is taken out. Their own actions are
struck out. -/
def remaining (th : Thread) : List (Step × Nat) :=
  (th.numbered.eraseP fun x => x.1.flowAction.isSome).map fun x =>
    ({ x.1 with action := none }, x.2)

end Thread

namespace Scene

variable (scene : Scene)

/-- Runs steps in order until one of them completes the run. -/
def runUntil (topic : String) : List (Step × Nat) → Activity Bool
  | [] => return false
  | (s, n) :: rest => (scene.runStep (some ⟨topic, some n⟩) s).followedBy (runUntil topic rest)

/-- Takes the action that was put aside, if there is one. -/
def takeDeferred (th : Thread) : Activity Bool :=
  match th.deferred? with
  | some (place, action) => scene.act (some place) action
  | none => return false

/-- Runs the steps of a thread that remain, and then takes the action that was put aside. -/
def deferring (th : Thread) : Activity Bool :=
  (scene.runUntil th.topic th.remaining).followedBy (scene.takeDeferred th)

/-- Steps are run one after the other, each once, and none of them completes the run or fails. -/
inductive Passes (topic : String) : List (Step × Nat) → List Deed → Prop
  | nil : Passes topic [] []
  | cons {s : Step} {n : Nat} {rest : List (Step × Nat)} {t t' : List Deed} :
      (scene.runStep (some ⟨topic, some n⟩) s).Comes t (.ok false) → Passes topic rest t' →
      Passes topic ((s, n) :: rest) (t ++ t')

/-- What a thread does, and how it comes out. -/
inductive Performs (th : Thread) : List Deed → Except ChatError Bool → Prop
  /-- A step completes the run or fails, and nothing is done after it. -/
  | stopped {before after : List (Step × Nat)} {s : Step} {n : Nat} {t t' : List Deed}
      {r : Except ChatError Bool} :
      th.remaining = before ++ (s, n) :: after → Passes scene th.topic before t →
      (scene.runStep (some ⟨th.topic, some n⟩) s).Comes t' r → r ≠ .ok false →
      Performs th (t ++ t') r
  /-- All steps have been run, and the action that was put aside is taken. -/
  | acted {place : Place} {action : String} {t t' : List Deed} {r : Except ChatError Bool} :
      Passes scene th.topic th.remaining t → th.deferred? = some (place, action) →
      (scene.act (some place) action).Comes t' r → Performs th (t ++ t') r
  /-- All steps have been run, and there is no action to take. -/
  | idle {t : List Deed} :
      Passes scene th.topic th.remaining t → th.deferred? = none → Performs th t (.ok false)

/-! ## A thread runs in two phases -/

/-- A step is run without regard to its action. -/
theorem runStep_without_action (place : Option Place) (s : Step) (action : Option String) :
    scene.runStep place { s with action := action } = scene.runStep place s := rfl

theorem runUntil_without_actions (topic : String) (rest : List (Step × Nat)) :
    scene.runUntil topic (rest.map fun x => ({ x.1 with action := none }, x.2)) =
      scene.runUntil topic rest := by
  induction rest with
  | nil => rfl
  | cons x rest ih =>
      obtain ⟨s, n⟩ := x
      simp only [List.map_cons, runUntil, runStep_without_action, ih]

section Steps

variable {topic : String} {s : Step} {n : Nat} {rest : List (Step × Nat)}

/-- The first step with an action is put aside. -/
theorem runSteps_cons_aside {action : String} (h : s.flowAction = some action) :
    scene.runSteps topic none ((s, n) :: rest) =
      scene.runSteps topic (some (⟨topic, some n⟩, action)) rest := by
  simp only [runSteps, h]

/-- Any other step is run. -/
theorem runSteps_cons_run {saved : Option (Place × String)}
    (h : s.flowAction = none ∨ saved.isSome) :
    scene.runSteps topic saved ((s, n) :: rest) =
      (scene.runStep (some ⟨topic, some n⟩) s).followedBy (scene.runSteps topic saved rest) := by
  cases haction : s.flowAction with
  | none =>
      simp only [runSteps, haction]
      rfl
  | some action =>
      cases saved with
      | none => simp [haction] at h
      | some x =>
          simp only [runSteps, haction]
          rfl

/-- While an action is put aside, all steps are run. -/
theorem runSteps_some (saved : Place × String) :
    scene.runSteps topic (some saved) rest =
      (scene.runUntil topic rest).followedBy (scene.finish (some saved)) := by
  induction rest with
  | nil => rfl
  | cons x rest ih =>
      obtain ⟨s, n⟩ := x
      rw [scene.runSteps_cons_run (.inr rfl), ih, runUntil, Activity.followedBy_assoc]

/-- The first step with an action is taken out of the steps that are run, wherever it stands. -/
theorem runSteps_none :
    scene.runSteps topic none rest =
      (scene.runUntil topic (rest.eraseP fun x => x.1.flowAction.isSome)).followedBy
        (scene.finish (rest.findSome? fun x =>
          x.1.flowAction.map fun action => (⟨topic, some x.2⟩, action))) := by
  induction rest with
  | nil => rfl
  | cons x rest ih =>
      obtain ⟨s, n⟩ := x
      cases haction : s.flowAction with
      | some action =>
          -- From here on an action is put aside, and no other one will be.
          rw [scene.runSteps_cons_aside haction, runSteps_some,
            List.eraseP_cons_of_pos (by simp [haction]), List.findSome?_cons, haction]
          rfl
      | none =>
          rw [scene.runSteps_cons_run (.inl haction), ih,
            List.eraseP_cons_of_neg (by simp [haction]), List.findSome?_cons, haction, runUntil,
            Activity.followedBy_assoc]
          rfl

end Steps

theorem runThread_eq_deferring (th : Thread) : scene.runThread th = scene.deferring th := by
  rw [runThread, runSteps_none, deferring, Thread.remaining, runUntil_without_actions, takeDeferred,
    Thread.deferred?]
  rfl

/-- Of the step that is put aside nothing counts but the action. -/
theorem runSteps_replace {topic action : String} {s s' : Step} {n : Nat}
    {before after : List (Step × Nat)} (hbefore : ∀ x ∈ before, x.1.flowAction = none)
    (hs : s.flowAction = some action) (hs' : s'.flowAction = some action) :
    scene.runSteps topic none (before ++ (s', n) :: after) =
      scene.runSteps topic none (before ++ (s, n) :: after) := by
  induction before with
  | nil =>
      rw [List.nil_append, List.nil_append, scene.runSteps_cons_aside hs,
        scene.runSteps_cons_aside hs']
  | cons x before ih =>
      obtain ⟨hx, hbefore⟩ := List.forall_mem_cons.mp hbefore
      rw [List.cons_append, List.cons_append, scene.runSteps_cons_run (.inl hx),
        scene.runSteps_cons_run (.inl hx), ih hbefore]

theorem runThread_replace {topic action : String} {s s' : Step} {before after : List Step}
    (hbefore : ∀ x ∈ before, x.flowAction = none) (hs : s.flowAction = some action)
    (hs' : s'.flowAction = some action) :
    scene.runThread ⟨topic, before ++ s' :: after⟩ =
      scene.runThread ⟨topic, before ++ s :: after⟩ := by
  rw [runThread, runThread, Thread.numbered, Thread.numbered, List.zipIdx_append,
    List.zipIdx_append, List.zipIdx_cons, List.zipIdx_cons]
  refine scene.runSteps_replace (fun x hx => ?_) hs hs'
  exact hbefore x.1 (Thread.mem_of_mem_numbered (t := ⟨topic, before⟩) hx)

/-! ## What a thread does -/

variable {scene}

/-- Steps are run to the end, or one of them stops the thread. -/
theorem comes_runUntil_iff {topic : String} {rest : List (Step × Nat)} {t : List Deed}
    {r : Except ChatError Bool} : (scene.runUntil topic rest).Comes t r ↔
      (r = .ok false ∧ scene.Passes topic rest t) ∨
        r ≠ .ok false ∧ ∃ before s n after t₁ t₂, rest = before ++ (s, n) :: after ∧
          t = t₁ ++ t₂ ∧ scene.Passes topic before t₁ ∧
          (scene.runStep (some ⟨topic, some n⟩) s).Comes t₂ r := by
  induction rest generalizing t with
  | nil =>
      refine Activity.comes_done_iff.trans ⟨?_, ?_⟩
      · rintro ⟨rfl, rfl⟩
        exact .inl ⟨rfl, .nil⟩
      · rintro (⟨rfl, ⟨⟩⟩ | ⟨-, before, s, n, after, -, -, hrest, -⟩)
        · exact ⟨rfl, rfl⟩
        · simp at hrest
  | cons x rest ih =>
      obtain ⟨s, n⟩ := x
      rw [runUntil, Activity.comes_followedBy_iff]
      constructor
      · rintro (⟨hs, hr⟩ | ⟨t₁, t₂, rfl, hs, hrest⟩)
        · exact .inr ⟨hr, [], s, n, rest, [], t, rfl, rfl, .nil, hs⟩
        · rcases ih.mp hrest with ⟨rfl, hpasses⟩ | ⟨hr, before, s', n', after, u₁, u₂, rfl, rfl, h⟩
          · exact .inl ⟨rfl, .cons hs hpasses⟩
          · refine .inr ⟨hr, (s, n) :: before, s', n', after, t₁ ++ u₁, u₂, rfl, ?_, ?_, h.2⟩
            · rw [List.append_assoc]
            · exact .cons hs h.1
      · rintro (⟨rfl, hpasses⟩ | ⟨hr, before, s', n', after, t₁, t₂, hrest, rfl, hpasses, hstep⟩)
        · cases hpasses with
          | cons hs hpasses => exact .inr ⟨_, _, rfl, hs, ih.mpr (.inl ⟨rfl, hpasses⟩)⟩
        · cases hpasses with
          | nil =>
              cases hrest
              exact .inl ⟨hstep, hr⟩
          | cons hs hpasses =>
              cases hrest
              rw [List.append_assoc]
              refine .inr ⟨_, _, rfl, hs, ih.mpr (.inr ⟨hr, ?_⟩)⟩
              exact ⟨_, s', n', after, _, t₂, rfl, rfl, hpasses, hstep⟩

theorem comes_runUntil_false_iff {topic : String} {rest : List (Step × Nat)} {t : List Deed} :
    (scene.runUntil topic rest).Comes t (.ok false) ↔ scene.Passes topic rest t := by
  rw [comes_runUntil_iff]
  simp

/-- A thread in two phases performs what it should. -/
theorem comes_deferring_iff {th : Thread} {t : List Deed} {r : Except ChatError Bool} :
    (scene.deferring th).Comes t r ↔ scene.Performs th t r := by
  rw [deferring, Activity.comes_followedBy_iff, comes_runUntil_iff]
  simp only [comes_runUntil_false_iff]
  constructor
  · rintro (⟨h, hr⟩ | ⟨t₁, t₂, rfl, h, hlast⟩)
    · rcases h with ⟨hfalse, -⟩ | ⟨-, before, s, n, after, t₁, t₂, hrest, rfl, hpasses, hstep⟩
      · exact absurd hfalse hr
      · exact .stopped hrest hpasses hstep hr
    · unfold takeDeferred at hlast
      cases hdeferred : th.deferred? with
      | some x =>
          rw [hdeferred] at hlast
          exact .acted h hdeferred hlast
      | none =>
          rw [hdeferred] at hlast
          obtain ⟨rfl, rfl⟩ := Activity.comes_done_iff.mp hlast
          rw [List.append_nil]
          exact .idle h hdeferred
  · intro h
    cases h with
    | stopped hrest hpasses hstep hr =>
        exact .inl ⟨.inr ⟨hr, _, _, _, _, _, _, hrest, rfl, hpasses, hstep⟩, hr⟩
    | acted hpasses hdeferred hact =>
        refine .inr ⟨_, _, rfl, hpasses, ?_⟩
        rw [takeDeferred, hdeferred]
        exact hact
    | idle hpasses hdeferred =>
        refine .inr ⟨t, [], (List.append_nil t).symm, hpasses, ?_⟩
        rw [takeDeferred, hdeferred]
        exact .done false

/-! ### The actions that are taken -/

/-- If the request takes an action, it is one of some actions and stands at the place. -/
def TakesAt (place : Option Place) (actions : List String) (q : Request) : Prop :=
  ∀ p a, q = .acting p a → p = place ∧ a ∈ actions

theorem takesAt_act (place : Option Place) (action : String) :
    (scene.act place action).Asks (TakesAt place [action]) := by
  refine scene.asks_act ?_ fun topic => ?_
  · rintro p a ⟨⟩
    exact ⟨rfl, List.mem_singleton_self action⟩
  · rintro p a ⟨⟩

/-- A step takes no action but those of its options. -/
theorem takesAt_runStep (place : Option Place) (s : Step) :
    (scene.runStep place s).Asks (TakesAt place (s.options.map (·.action))) := by
  refine ((scene.plain_stepValue s).asks.mono ?_).bind fun value => ?_
  · rintro q hq p a rfl
    cases hq
  · split
    · next v c hc =>
      have hoptions : s.options = c.options := by
        rw [Step.options, hc]
        rfl
      refine scene.asks_collect (by rintro k v p a ⟨⟩) (by rintro k v p a ⟨⟩) ?_
        (by rintro topic p a ⟨⟩) v
      rintro o ho p a ⟨⟩
      rw [hoptions]
      exact ⟨rfl, List.mem_map_of_mem ho⟩
    · trivial

/-- The action is that of an option of the step, and stands at the step. -/
def IsOption (topic : String) (x : Step × Nat) (p : Option Place) (action : String) : Prop :=
  p = some ⟨topic, some x.2⟩ ∧ ∃ o ∈ x.1.options, o.action = action

section Taken

variable {topic : String} {p : Option Place} {action : String} {t : List Deed}
  {r : Except ChatError Bool}

theorem isOption_of_comes {s : Step} {n : Nat}
    (h : (scene.runStep (some ⟨topic, some n⟩) s).Comes t r)
    (hmem : .asked (.acting p action) () ∈ t) : IsOption topic (s, n) p action := by
  obtain ⟨hp, haction⟩ := (takesAt_runStep _ s).of_comes h _ hmem p action rfl
  exact ⟨hp, List.mem_map.mp haction⟩

theorem Passes.isOption {rest : List (Step × Nat)} (h : scene.Passes topic rest t)
    (hmem : .asked (.acting p action) () ∈ t) : ∃ x ∈ rest, IsOption topic x p action := by
  induction h with
  | nil => cases hmem
  | cons hs _ ih =>
      rcases List.mem_append.mp hmem with hmem | hmem
      · exact ⟨_, List.mem_cons_self, isOption_of_comes hs hmem⟩
      · obtain ⟨x, hx, hoption⟩ := ih hmem
        exact ⟨x, List.mem_cons_of_mem _ hx, hoption⟩

/-- What a thread takes is the action that was put aside or that of an option. -/
theorem Performs.taken {th : Thread} (h : scene.Performs th t r)
    (hmem : .asked (.acting p action) () ∈ t) :
    (∃ place, p = some place ∧ th.deferred? = some (place, action)) ∨
      ∃ x ∈ th.remaining, IsOption th.topic x p action := by
  cases h with
  | stopped hrest hbefore hs =>
      rw [hrest]
      rcases List.mem_append.mp hmem with hmem | hmem
      · obtain ⟨x, hx, hoption⟩ := hbefore.isOption hmem
        exact .inr ⟨x, List.mem_append_left _ hx, hoption⟩
      · exact .inr ⟨_, List.mem_append_right _ List.mem_cons_self, isOption_of_comes hs hmem⟩
  | acted hall hdeferred hact =>
      rcases List.mem_append.mp hmem with hmem | hmem
      · exact .inr (hall.isOption hmem)
      · obtain ⟨rfl, haction⟩ := (takesAt_act _ _).of_comes hact _ hmem p action rfl
        cases List.mem_singleton.mp haction
        exact .inl ⟨_, rfl, hdeferred⟩
  | idle hall => exact .inr (hall.isOption hmem)

end Taken

/-! ### The thread -/

/-- A thread that runs innermost in a run performs what it should before the run ends. -/
theorem performs_of_course {th : Thread} {ks : List (Bool → Activity Bool)} {t : List Deed}
    {r' : Run} {result : Except ChatError Bool}
    (h : Run.Course scene ⟨scene.runThread th, ks⟩ t r') (hend : r'.next scene = .ended result) :
    ∃ own outcome, scene.Performs th own outcome ∧ own.Sublist t ∧
      (∀ e, outcome = .error e → result = .error e) ∧ (ks = [] → outcome = result) := by
  obtain ⟨own, outcome, hcomes, hown, herror, hlast⟩ := h.exists_comes hend
  dsimp only at hcomes
  rw [runThread_eq_deferring, comes_deferring_iff] at hcomes
  exact ⟨own, outcome, hcomes, hown, herror, hlast⟩

/-- A thread puts the action of its first step with one aside. It does the same as the steps that
remain and then the action, also within a run and also when it comes to no end. It comes out as they
do: with the result of the step that completes the run or fails, or else with that of the action. So
it does in a run that ends, which fails when the thread does, and has its result when nobody waits
for that. It takes no other action but those of options, and the step that was put aside may be any
other step with that action. -/
theorem runThread_deferring (scene : Scene) (th : Thread) :
    scene.runThread th = scene.deferring th ∧
      (∀ t r, (scene.runThread th).Comes t r ↔ scene.Performs th t r) ∧
      (∀ ks t r' result, Run.Course scene ⟨scene.runThread th, ks⟩ t r' →
        r'.next scene = .ended result →
        ∃ own outcome, scene.Performs th own outcome ∧ own.Sublist t ∧
          (∀ e, outcome = .error e → result = .error e) ∧ (ks = [] → outcome = result)) ∧
      (∀ t r p action, (scene.runThread th).Comes t r → .asked (.acting p action) () ∈ t →
        (∃ place, p = some place ∧ th.deferred? = some (place, action)) ∨
          ∃ x ∈ th.remaining, IsOption th.topic x p action) ∧
      ∀ before s s' after action, th.steps = before ++ s :: after →
        (∀ x ∈ before, x.flowAction = none) → s.flowAction = some action →
        s'.flowAction = some action →
        scene.runThread ⟨th.topic, before ++ s' :: after⟩ = scene.runThread th := by
  have hcomes : ∀ t r, (scene.runThread th).Comes t r ↔ scene.Performs th t r := by
    intro t r
    rw [runThread_eq_deferring, comes_deferring_iff]
  refine ⟨scene.runThread_eq_deferring th, hcomes, fun _ _ _ _ => performs_of_course, ?_, ?_⟩
  · intro t r p action h hmem
    exact ((hcomes t r).mp h).taken hmem
  · intro before s s' after action hsteps hbefore hs hs'
    obtain ⟨topic, steps⟩ := th
    obtain rfl : steps = _ := hsteps
    exact scene.runThread_replace hbefore hs hs'

/-- The empty action is none: the first one is that of the second step. -/
example : Thread.deferred? ⟨defaultTopic, [{ Step.empty with action := some "" },
    { Step.empty with action := some "next" }, { Step.empty with action := some "complete" }]⟩ =
    some (⟨defaultTopic, some 2⟩, "next") := rfl

end Scene

end Dialogue
