import Dialogue.Proofs.Run.Agenda
import Dialogue.Proofs.Script.Faults
/-!
# Jumps to nowhere

An action that names no thread is silent: a run that takes it goes on as if nothing were there. All
a run does is done for an errand, and each errand is that of a step: the step is run, or the action
that was put aside is taken. So an action that is taken is one that the step names, at the place of
the step, and the check has looked at it there.

* `Errand.IsOf` — the errands of a step; `Document.HasErrand` — all errands come from steps.
* `Scene.taken_of_leaves` — what is taken for an errand is named by its step.
* `Document.silent_jumps_reported` — silent actions that a run takes are warned of, and nothing else
  is.
-/

namespace Dialogue

/-! ## Silent actions and their warnings -/

/-- The action has a name, it is not reserved, and it is not the topic of a thread. -/
structure Document.IsSilent (d : Document) (action : String) : Prop where
  nonempty : action ≠ ""
  not_next : action ≠ "next"
  not_complete : action ≠ "complete"
  unknown : action ∉ d.topics

/-- Is it a warning that the target of an action is not known? -/
def Diagnostic.WarnsOfTarget (g : Diagnostic) (target : String) : Prop :=
  g.level = .warn ∧ g.message = "未知的动作目标: **" ++ target ++ "**"

namespace Finding

variable {f : Finding} {target : String}

/-- The words tell that the target of an action is not known, and which target that is. -/
theorem warnsOfTarget_diagnostic_iff :
    f.diagnostic.WarnsOfTarget target ↔ ∃ topic n, f = .unknownTarget topic n target := by
  constructor
  · rintro ⟨hlevel, hmessage⟩
    have hfirst : f.message.toList[0]? = some '未' := by
      rw [show f.message = (unknownTarget "" 0 target).message from hmessage,
        first_unknownTarget]
    cases f with
    | repeatedTopic | noStart | badPattern | unreachable => cases hlevel
    | unknownKind topic n =>
        rw [first_unknownKind] at hfirst
        exact absurd hfirst (by decide)
    | noPattern topic n action =>
        rw [first_noPattern] at hfirst
        exact absurd hfirst (by decide)
    | unknownTarget topic n target' =>
        obtain rfl := message_unknownTarget_inj (show (unknownTarget topic n target').message =
          (unknownTarget topic n target).message from hmessage)
        exact ⟨topic, n, rfl⟩
  · rintro ⟨topic, n, rfl⟩
    exact ⟨rfl, rfl⟩

end Finding

/-! ## The errands of a step -/

/-- The errand is to run a step without its action, or to take its action, at the place of the
step. -/
inductive Errand.IsOf (topic : String) (n : Nat) (st : Step) : Errand → Prop
  | step : IsOf topic n st (.step (some ⟨topic, some n⟩) { st with action := none })
  | action {action : String} : st.flowAction = some action →
      IsOf topic n st (.action (some ⟨topic, some n⟩) action)

/-- The errand is that of a step of the document. -/
def Document.HasErrand (d : Document) (x : Errand) : Prop :=
  ∃ th i st, d.HasStep th i st ∧ x.IsOf th.topic (i + 1) st

theorem Document.hasErrand_of_mem_errands {d : Document} {th : Thread} (hth : th ∈ d.threads)
    {x : Errand} (hx : x ∈ th.errands) : d.HasErrand x := by
  rcases List.mem_append.mp hx with hstep | haction
  · obtain ⟨y, hy, rfl⟩ := List.mem_map.mp hstep
    obtain ⟨⟨st, n⟩, hmem, rfl⟩ := List.mem_map.mp hy
    obtain ⟨i, rfl, hst⟩ := Thread.mem_numbered_iff.mp (List.mem_of_mem_eraseP hmem)
    exact ⟨th, i, st, ⟨hth, hst⟩, .step⟩
  · obtain ⟨y, hy, rfl⟩ := List.mem_map.mp haction
    obtain ⟨⟨st, n⟩, hmem, hsome⟩ := List.exists_of_findSome?_eq_some (Option.mem_toList.mp hy)
    obtain ⟨action, hflow, rfl⟩ := Option.map_eq_some_iff.mp hsome
    obtain ⟨i, rfl, hst⟩ := Thread.mem_numbered_iff.mp hmem
    exact ⟨th, i, st, ⟨hth, hst⟩, .action hflow⟩

namespace Scene

variable {scene : Scene} {d : Document}

/-- A thread that is entered has errands of the document too. -/
theorem Tells.hasErrand (hthreads : scene.index.threads = d.threads) {errands : List Errand}
    {stretches : List Stretch} (h : scene.Tells errands stretches)
    (herrands : ∀ x ∈ errands, d.HasErrand x) : ∀ x ∈ stretches, d.HasErrand x.errand := by
  induction h with
  | rest => simp
  | last =>
      obtain ⟨hx, -⟩ := List.forall_mem_cons.mp herrands
      simpa using hx
  | next _ _ ih =>
      obtain ⟨hx, hrest⟩ := List.forall_mem_cons.mp herrands
      exact List.forall_mem_cons.mpr ⟨hx, ih hrest⟩
  | enter _ hth _ ih =>
      obtain ⟨hx, hrest⟩ := List.forall_mem_cons.mp herrands
      have hmem := (ThreadIndex.get?_eq_some hth).1
      rw [hthreads] at hmem
      refine List.forall_mem_cons.mpr ⟨hx, ih fun y hy => ?_⟩
      rcases List.mem_append.mp hy with hy | hy
      · exact Document.hasErrand_of_mem_errands hmem hy
      · exact hrest y hy

/-! ## Actions that are taken -/

/-- What is taken for an errand is an action that its step names, at the place of the step. -/
theorem taken_of_leaves {x : Errand} {topic : String} {n : Nat} {st : Step}
    (hx : x.IsOf topic n st) {t : List Deed} {m : Activity Bool}
    (h : (scene.perform x).Leaves t m) {place : Option Place} {action : String}
    (hmem : .asked (.acting place action) () ∈ t) :
    place = some ⟨topic, some n⟩ ∧ st.Names action := by
  cases hx with
  | step =>
      obtain ⟨hplace, haction⟩ := ((takesAt_runStep _ _).of_leaves h).1 _ hmem place action rfl
      exact ⟨hplace, .inr (List.mem_map.mp haction)⟩
  | action hflow =>
      obtain ⟨hplace, haction⟩ := ((takesAt_act _ _).of_leaves h).1 _ hmem place action rfl
      obtain rfl := List.mem_singleton.mp haction
      exact ⟨hplace, .inl hflow⟩

end Scene

/-! ## The check and the runs -/

namespace Document

variable {engine : PatternEngine} {d : Document} {target : String}

/-- Just the silent actions that a step names are warned of at its place. -/
theorem exists_warnsOfTarget_iff {p : Place} :
    (∃ g ∈ d.analyze engine, g.WarnsOfTarget target ∧ g.place = some p) ↔
      d.IsSilent target ∧ ∃ th i st, d.HasStep th i st ∧ p = ⟨th.topic, some (i + 1)⟩ ∧
        st.Names target := by
  constructor
  · rintro ⟨g, hg, hwarns, hp⟩
    obtain ⟨f, -, rfl⟩ := List.mem_map.mp hg
    obtain ⟨topic, n, rfl⟩ := Finding.warnsOfTarget_diagnostic_iff.mp hwarns
    cases diagnostic_mem_analyze.mp hg with
    | unknownTarget hst hnames hne hparse hunknown =>
        obtain ⟨-, hnext, hcomplete⟩ := Action.parse_eq_thread_iff.mp hparse
        refine ⟨⟨hne, hnext, hcomplete, hunknown⟩, _, _, _, hst, ?_, hnames⟩
        exact (Option.some.inj hp).symm
  · rintro ⟨⟨hne, hnext, hcomplete, hunknown⟩, th, i, st, hst, rfl, hnames⟩
    have hparse := Action.parse_eq_thread_iff.mpr ⟨rfl, hnext, hcomplete⟩
    have hfound : d.Found engine (.unknownTarget th.topic (i + 1) target) :=
      .unknownTarget hst hnames hne hparse hunknown
    exact ⟨_, diagnostic_mem_analyze.mpr hfound, ⟨rfl, rfl⟩, rfl⟩

/-- A course of a run consists of the deeds of its errands, each of which is to run a step of the
document or to take the action of one. What is taken for it is an action that the step names, and
when that is silent the check warns of it at the place of the step. And each warning of an unknown
target is about a silent action that the step at its place names, whether a run comes there or
not. -/
theorem silent_jumps_reported {scene : Scene} (engine : PatternEngine)
    (hix : ThreadIndex.ofDocument d = .ok scene.index) :
    (∀ t r, Run.Course scene (.start scene) t r →
      ∃ start stretches, scene.index.get? defaultTopic = some start ∧
        scene.Tells start.errands stretches ∧ t = stretches.flatMap Scene.Stretch.deeds ∧
        ∀ x ∈ stretches, ∃ th i st, d.HasStep th i st ∧ x.errand.IsOf th.topic (i + 1) st ∧
          ∀ place action, .asked (.acting place action) () ∈ x.deeds →
            place = some ⟨th.topic, some (i + 1)⟩ ∧ st.Names action ∧
            (d.IsSilent action → ∃ g ∈ d.analyze engine, g.WarnsOfTarget action ∧
              g.place = some ⟨th.topic, some (i + 1)⟩)) ∧
    ∀ g ∈ d.analyze engine, ∀ target, g.WarnsOfTarget target → d.IsSilent target ∧
      ∃ th i st, d.HasStep th i st ∧ g.place = some ⟨th.topic, some (i + 1)⟩ ∧
        st.Names target := by
  have hthreads : scene.index.threads = d.threads := ThreadIndex.ofThreads_eq_ok_iff.mp hix
  constructor
  · intro t r h
    obtain ⟨start, stretches, hstart, htells, ht⟩ := Scene.exists_stretches h
    have hmem : start ∈ d.threads := hthreads ▸ (ThreadIndex.get?_eq_some hstart).1
    have herrands := htells.hasErrand hthreads fun x => hasErrand_of_mem_errands hmem
    refine ⟨start, stretches, hstart, htells, ht, fun x hx => ?_⟩
    obtain ⟨th, i, st, hst, hof⟩ := herrands x hx
    refine ⟨th, i, st, hst, hof, fun place action hacting => ?_⟩
    have hown : .asked (.acting place action) () ∈ x.own := by
      simpa [Scene.Stretch.deeds] using hacting
    obtain ⟨hplace, hnames⟩ := Scene.taken_of_leaves hof (htells.leaves x hx) hown
    refine ⟨hplace, hnames, fun hsilent => ?_⟩
    exact exists_warnsOfTarget_iff.mpr ⟨hsilent, th, i, st, hst, rfl, hnames⟩
  · intro g hg target hwarns
    obtain ⟨p, hp⟩ : ∃ p, g.place = some p := by
      obtain ⟨f, -, rfl⟩ := List.mem_map.mp hg
      obtain ⟨topic, n, rfl⟩ := Finding.warnsOfTarget_diagnostic_iff.mp hwarns
      exact ⟨⟨topic, some n⟩, rfl⟩
    obtain ⟨hsilent, th, i, st, hst, rfl, hnames⟩ :=
      exists_warnsOfTarget_iff.mp ⟨g, hg, hwarns, hp⟩
    exact ⟨hsilent, th, i, st, hst, hp, hnames⟩

/-- An option enters a thread, where an action that is put aside names no thread. -/
def lostJump : Document :=
  ⟨[⟨defaultTopic, [{ Step.empty with
      text := some [], collect := some ⟨none, false, [.fallback "inner"]⟩ }]⟩,
    ⟨"inner", [Step.empty, { Step.empty with action := some "lost" }]⟩]⟩

/-- The scene of the document, without callbacks. -/
def lostJumpScene : Scene where
  index := ⟨lostJump.threads, by decide, by decide⟩
  engine := .standard
  callbacks := ⟨false, false, false⟩

theorem silent_jumps_reported_lostJump :
    let t : List Deed := [.asked .input (.ok (.string "x")),
      .asked (.acting (some ⟨defaultTopic, some 1⟩) "inner") (), .entered "inner",
      .asked (.acting (some ⟨"inner", some 2⟩) "lost") ()]
    (∃ r, Run.Course lostJumpScene (.start lostJumpScene) t r) ∧
      ∃ g ∈ lostJump.analyze .standard, g.WarnsOfTarget "lost" ∧
        g.place = some ⟨"inner", some 2⟩ := by
  intro t
  obtain ⟨r, hcourse⟩ : ∃ r, Run.Course lostJumpScene (.start lostJumpScene) t r := by
    refine ⟨⟨.done false, [fun b => if b then .done true else .done false]⟩, ?_⟩
    refine .asked (q := .input) (.ok (.string "x")) rfl ?_
    refine .asked (q := .acting _ _) () rfl ?_
    refine .moved rfl ?_
    refine .asked (q := .acting _ _) () rfl ?_
    exact .here _
  refine ⟨⟨r, hcourse⟩, ?_⟩
  have hix : ThreadIndex.ofDocument lostJump = .ok lostJumpScene.index :=
    ThreadIndex.ofThreads_eq_ok_iff.mpr rfl
  obtain ⟨start, stretches, -, -, ht, hall⟩ :=
    (silent_jumps_reported .standard hix).1 t r hcourse
  have hlost : .asked (.acting (some ⟨"inner", some 2⟩) "lost") () ∈
      stretches.flatMap Scene.Stretch.deeds := by
    rw [← ht]
    simp [t]
  obtain ⟨x, hx, hlost⟩ := List.mem_flatMap.mp hlost
  obtain ⟨th, i, st, -, -, htaken⟩ := hall x hx
  obtain ⟨hplace, -, hwarned⟩ := htaken _ _ hlost
  rw [hplace]
  exact hwarned ⟨by decide, by decide, by decide, by decide⟩

end Document

end Dialogue
