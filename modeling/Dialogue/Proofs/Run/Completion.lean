import Dialogue.Proofs.Run.Threads
/-!
# How a run ends

A run completes when an action asks for that, in whatever thread it stands, and it fails when a
command or an input does. Such a deed is a `Verdict`: all threads that are open then are left at
once, and nothing else is done in any of them.

* `Run.Settled` — all open threads are left with one result.
* `run_completes_iff` — a verdict is the last deed of a run and is its result, and only a verdict
  completes a run.
-/

namespace Dialogue

/-! ## Verdicts -/

/-- A decision on the whole run. -/
inductive Verdict where
  | completes
  | fails (e : RunError)

/-- The result of the run. -/
def Verdict.result : Verdict → Except ChatError Bool
  | .completes => .ok true
  | .fails e => .error (.run e)

theorem Verdict.result_inj {v w : Verdict} (h : v.result = w.result) : v = w := by
  cases v <;> cases w <;> cases h <;> rfl

/-- The verdict that an answer brings about. -/
def Request.verdict? : (q : Request) → q.Answer → Option Verdict
  | .acting _ action, _ => if Action.parse action = .complete then some .completes else none
  | q, a => (q.failure? a).map .fails

/-- The verdict that a deed brings about. -/
def Deed.verdict? : Deed → Option Verdict
  | .asked q a => q.verdict? a
  | .entered _ => none

theorem Request.verdict?_of_isPlain {q : Request} (hq : q.isPlain = true) (a : q.Answer) :
    q.verdict? a = (q.failure? a).map .fails := by
  cases q
  case acting => cases hq
  all_goals rfl

theorem Deed.verdict?_eq_completes {d : Deed} : d.verdict? = some .completes ↔
    ∃ place action, Action.parse action = .complete ∧ d = .asked (.acting place action) () := by
  constructor
  · intro h
    rcases d with ⟨q, a⟩ | topic
    · cases q
      case acting place action =>
        by_cases hcomplete : Action.parse action = .complete
        · exact ⟨place, action, hcomplete, rfl⟩
        · simp [Deed.verdict?, Request.verdict?, hcomplete] at h
      all_goals simp [Deed.verdict?, Request.verdict?] at h
    · cases h
  · rintro ⟨place, action, hcomplete, rfl⟩
    simp [Deed.verdict?, Request.verdict?, hcomplete]

theorem Deed.verdict?_eq_fails {d : Deed} {e : RunError} : d.verdict? = some (.fails e) ↔
    ∃ q a, q.failure? a = some e ∧ d = .asked q a := by
  constructor
  · intro h
    rcases d with ⟨q, a⟩ | topic
    · refine ⟨q, a, ?_, rfl⟩
      cases q
      case acting place action =>
        by_cases hcomplete : Action.parse action = .complete <;>
          simp [Deed.verdict?, Request.verdict?, hcomplete] at h
      all_goals simpa [Deed.verdict?, Request.verdict?] using h
    · cases h
  · rintro ⟨q, a, hfail, rfl⟩
    cases q
    case acting place action => cases hfail
    all_goals simp [Deed.verdict?, Request.verdict?, hfail]

/-! ## Settled runs -/

namespace Run

/-- All open threads are left with the result. -/
def Settled (r : Run) : Except ChatError Bool → Prop
  | .ok b => r.current = .done b ∧ ∀ k ∈ r.outer, k b = .done b
  | .error e => r.current = .fail e

variable {scene : Scene} {r r' : Run} {t : List Deed} {result : Except ChatError Bool}

theorem Settled.next (scene : Scene) (h : r.Settled result) :
    r.next scene = .ended result ∨
      ∃ k ks, r.outer = k :: ks ∧ r.entry = [] ∧ ∃ r₁, r.next scene = .moved r₁ ∧
        r₁.outer = ks ∧ r₁.Settled result := by
  obtain ⟨current, outer⟩ := r
  cases result with
  | error e =>
      cases h
      exact .inl rfl
  | ok b =>
      obtain ⟨rfl, hk⟩ := h
      cases outer with
      | nil => exact .inl rfl
      | cons k ks =>
          refine .inr ⟨k, ks, rfl, rfl, _, rfl, rfl, hk k List.mem_cons_self, ?_⟩
          exact fun k' hk' => hk k' (List.mem_cons_of_mem k hk')

/-- A settled run ends with the result. -/
theorem Settled.exists_ended (h : r.Settled result) :
    ∃ r', Course scene r [] r' ∧ r'.next scene = .ended result := by
  generalize hks : r.outer = ks
  induction ks generalizing r with
  | nil =>
      rcases h.next scene with hend | ⟨k, ks, hcons, -⟩
      · exact ⟨r, .here r, hend⟩
      · rw [hks] at hcons
        cases hcons
  | cons k ks ih =>
      rcases h.next scene with hend | ⟨k', ks', hcons, hentry, r₁, hnext, hr₁, hsettled⟩
      · exact ⟨r, .here r, hend⟩
      · rw [hks] at hcons
        cases hcons
        obtain ⟨r', hcourse, hend⟩ := ih hsettled hr₁
        refine ⟨r', ?_, hend⟩
        have hmoved := Course.moved hnext hcourse
        rwa [hentry] at hmoved

/-- A settled run does nothing more. -/
theorem Settled.course (h : r.Settled result) (hcourse : Course scene r t r') : t = [] := by
  induction hcourse with
  | here => rfl
  | moved hn _ ih =>
      rcases h.next scene with hend | ⟨-, -, -, hentry, r₁, hnext, -, hsettled⟩
      · rw [hend] at hn
        cases hn
      · rw [hnext] at hn
        cases hn
        rw [hentry, ih hsettled]
        rfl
  | asked a hn =>
      rcases h.next scene with hend | ⟨-, -, -, -, r₁, hnext, -⟩
      · rw [hend] at hn
        cases hn
      · rw [hnext] at hn
        cases hn

end Run

/-! ## The rules of completion -/

/-- Nothing is done after a verdict, and the verdict is what the threads end with. Without one a
thread comes to its end, or fails because of the script. -/
def verdictRules : Rules (Option Verdict) where
  allows s _ := s = none
  after
    | none, d => some d.verdict?
    | some v, _ => some (some v)
  ends
    | none, result => result = .ok false ∨ ∃ e, result = .error (.script e)
    | some v, result => result = v.result

section Rules

variable {scene : Scene} {r : Run} {t : List Deed} {s : Option Verdict}

theorem eq_none_of_ends (h : verdictRules.ends s (.ok false)) : s = none := by
  rcases s with _ | _ | e
  · rfl
  · cases h
  · cases h

theorem indifferent_verdictRules : verdictRules.Indifferent none where
  allows _ _ := rfl
  after q a hq ha := by
    show some (q.verdict? a) = some none
    rw [Request.verdict?_of_isPlain hq, ha]
    rfl
  fails q a e s' hq ha hs' := by
    have hs' : some (q.verdict? a) = some s' := hs'
    rw [Request.verdict?_of_isPlain hq, ha] at hs'
    cases hs'
    rfl

/-- Every thread suits the rules. -/
theorem suits_verdictRules (th : Thread) : verdictRules.Suits scene th where
  plain := by
    intro s hs
    rw [eq_none_of_ends hs]
    exact indifferent_verdictRules
  act := by
    intro s hs st _ place action _
    rw [eq_none_of_ends hs]
    apply Scene.follows_act rfl
    rintro s' ⟨⟩
    have hverdict : Deed.verdict? (.asked (.acting place action) ()) =
        if Action.parse action = .complete then some .completes else none := rfl
    rw [hverdict]
    cases Action.parse action with
    | next => exact .inl rfl
    | complete => rfl
    | thread topic =>
        dsimp only
        split
        · rfl
        · exact .inl rfl
  refuse := by
    intro s hs st _ o _ pattern e _ _ _
    rw [eq_none_of_ends hs]
    exact .inr ⟨e, rfl⟩

theorem follows_enter_verdictRules (topic : String) :
    (scene.enter topic).Follows verdictRules none := by
  unfold Scene.enter
  split
  · exact Scene.follows_runThread (suits_verdictRules _) (.inl rfl)
  · exact .inr ⟨_, rfl⟩

/-- The state is the first verdict of the deeds. -/
theorem run_verdictRules (t : List Deed) :
    verdictRules.run none t = some (t.findSome? Deed.verdict?) := by
  have hsome : ∀ (v : Verdict) (t : List Deed), verdictRules.run (some v) t = some (some v) := by
    intro v t
    induction t with
    | nil => rfl
    | cons d t ih => exact ih
  induction t with
  | nil => rfl
  | cons d t ih =>
      show verdictRules.run d.verdict? t = _
      rw [List.findSome?_cons]
      cases hd : d.verdict? with
      | none => exact ih
      | some v => exact hsome v t

/-- Deeds that obey the rules end with a verdict, if there is one among them. -/
theorem Rules.Obeyed.eq_nil_of_verdict {before after : List Deed} {d : Deed} {v : Verdict}
    (h : verdictRules.Obeyed none (before ++ d :: after)) (hd : d.verdict? = some v) :
    after = [] := by
  cases after with
  | nil => rfl
  | cons d' after =>
      rw [List.append_cons] at h
      have hallowed := h.allows_of_run (run_verdictRules (before ++ [d]))
      have hnone : ∀ x ∈ before ++ [d], x.verdict? = none := List.findSome?_eq_none_iff.mp hallowed
      rw [hnone d (by simp)] at hd
      cases hd

theorem Activity.Follows.eq_of_verdict {a : Activity Bool} {v : Verdict}
    (h : a.Follows verdictRules (some v)) :
    (∃ b, a = .done b ∧ v.result = .ok b) ∨ ∃ e, a = .fail e ∧ v.result = .error e := by
  cases a with
  | done b => exact .inl ⟨b, rfl, h.symm⟩
  | fail e => exact .inr ⟨e, rfl, h.symm⟩
  | ask q k => cases h.1

/-- A run that keeps to the rules is settled by a verdict. -/
theorem Run.Follows.settled {v : Verdict} (h : r.Follows verdictRules (some v)) :
    r.Settled v.result := by
  obtain ⟨hcurrent, houter⟩ := h
  rcases hcurrent.eq_of_verdict with ⟨b, hb, hv⟩ | ⟨e, he, hv⟩
  · rw [hv]
    refine ⟨hb, fun k hk => ?_⟩
    rcases (houter k hk b (some v) hv.symm).eq_of_verdict with ⟨b', hb', hv'⟩ | ⟨e, -, hv'⟩
    · rw [hv] at hv'
      cases hv'
      exact hb'
    · rw [hv] at hv'
      cases hv'
  · rw [hv]
    exact he

end Rules

/-! ## The result of a run -/

section Result

variable {scene : Scene} {r : Run} {t : List Deed}

/-- A run has come to no verdict, or to one by its last deed. -/
theorem Run.Course.verdict (h : Run.Course scene (.start scene) t r) :
    (∀ before d after v, t = before ++ d :: after → d.verdict? = some v → after = []) ∧
      r.Follows verdictRules (t.findSome? Deed.verdict?) := by
  have hstart : (Run.start scene).Follows verdictRules none :=
    ⟨follows_enter_verdictRules defaultTopic, by rintro k ⟨⟩⟩
  have hall : ∀ topic s s', verdictRules.allows s (.enter topic) →
      verdictRules.after s (.entered topic) = some s' →
        (scene.enter topic).Follows verdictRules s' := by
    rintro topic s s' rfl ⟨⟩
    exact follows_enter_verdictRules topic
  obtain ⟨hobeyed, hfollows⟩ := h.follows hall hstart
  refine ⟨?_, hfollows _ (run_verdictRules t)⟩
  rintro before d after v rfl hd
  exact hobeyed.eq_nil_of_verdict hd

/-- A deed with a verdict gives the first verdict of a course, since it is the last. -/
theorem Run.Course.findSome?_eq (h : Run.Course scene (.start scene) t r) {d : Deed} {v : Verdict}
    (hmem : d ∈ t) (hd : d.verdict? = some v) : t.findSome? Deed.verdict? = some v := by
  obtain ⟨w, hw⟩ : ∃ w, t.findSome? Deed.verdict? = some w :=
    Option.isSome_iff_exists.mp (List.findSome?_isSome_iff.mpr ⟨d, hmem, by simp [hd]⟩)
  obtain ⟨before, d', after, rfl, hd', hbefore⟩ := List.findSome?_eq_some_iff.mp hw
  cases h.verdict.1 before d' after w rfl hd'
  rcases List.mem_append.mp hmem with hmem | hmem
  · rw [hbefore d hmem] at hd
    cases hd
  · cases List.mem_singleton.mp hmem
    rw [hw, ← hd, hd']

/-- A run that ends has the result of a verdict just when it came to that verdict. -/
theorem Run.Course.result_iff {result : Except ChatError Bool}
    (h : Run.Course scene (.start scene) t r) (hend : r.next scene = .ended result) (v : Verdict) :
    result = v.result ↔ ∃ d ∈ t, d.verdict? = some v := by
  have hends := h.verdict.2.ends hend
  constructor
  · intro hresult
    cases hverdict : t.findSome? Deed.verdict? with
    | none =>
        rw [hverdict, hresult] at hends
        rcases hends with hends | ⟨e, hends⟩
        · cases v <;> cases hends
        · cases v <;> cases hends
    | some w =>
        rw [hverdict] at hends
        cases Verdict.result_inj (hresult.symm.trans hends)
        exact List.exists_of_findSome?_eq_some hverdict
  · rintro ⟨d, hmem, hd⟩
    rw [h.findSome?_eq hmem hd] at hends
    exact hends

/-- A verdict is the last deed of a run: all open threads are left with its result, and nothing
else is done in them. A run that ends was completed by an action just when it has the result that it
is complete, and it failed by an answer just when it has that error. After an error of whatever
kind nothing happens any more. -/
theorem run_completes_iff (h : Run.Course scene (.start scene) t r) :
    (∀ before d after v, t = before ++ d :: after → d.verdict? = some v →
      after = [] ∧ r.Settled v.result ∧
        (∃ r', Run.Course scene r [] r' ∧ r'.next scene = .ended v.result) ∧
        ∀ t' r', Run.Course scene r t' r' → t' = []) ∧
    (∀ result, r.next scene = .ended result →
      (result = .ok true ↔ ∃ place action,
        Action.parse action = .complete ∧ .asked (.acting place action) () ∈ t) ∧
      ∀ e, result = .error (.run e) ↔ ∃ q a, q.failure? a = some e ∧ .asked q a ∈ t) ∧
    ∀ e, r.current = .fail e →
      r.next scene = .ended (.error e) ∧ ∀ t' r', Run.Course scene r t' r' → t' = [] := by
  refine ⟨?_, ?_, ?_⟩
  · intro before d after v ht hd
    have hmem : d ∈ t := by simp [ht]
    have hfollows := h.verdict.2
    rw [h.findSome?_eq hmem hd] at hfollows
    have hsettled := hfollows.settled
    exact ⟨h.verdict.1 before d after v ht hd, hsettled, hsettled.exists_ended,
      fun t' r' hcourse => hsettled.course hcourse⟩
  · intro result hend
    constructor
    · rw [show (.ok true : Except ChatError Bool) = Verdict.completes.result from rfl,
        h.result_iff hend]
      constructor
      · rintro ⟨d, hmem, hd⟩
        obtain ⟨place, action, hcomplete, rfl⟩ := Deed.verdict?_eq_completes.mp hd
        exact ⟨place, action, hcomplete, hmem⟩
      · rintro ⟨place, action, hcomplete, hmem⟩
        exact ⟨_, hmem, Deed.verdict?_eq_completes.mpr ⟨place, action, hcomplete, rfl⟩⟩
    · intro e
      rw [show (.error (.run e) : Except ChatError Bool) = (Verdict.fails e).result from rfl,
        h.result_iff hend]
      constructor
      · rintro ⟨d, hmem, hd⟩
        obtain ⟨q, a, hfail, rfl⟩ := Deed.verdict?_eq_fails.mp hd
        exact ⟨q, a, hfail, hmem⟩
      · rintro ⟨q, a, hfail, hmem⟩
        exact ⟨_, hmem, Deed.verdict?_eq_fails.mpr ⟨q, a, hfail, rfl⟩⟩
  · intro e he
    have hsettled : r.Settled (.error e) := he
    refine ⟨?_, fun t' r' hcourse => hsettled.course hcourse⟩
    rw [Run.next, he]

/-- A thread that puts an action aside, and the thread that the action enters. -/
def ThreadIndex.nested : ThreadIndex where
  threads :=
    [⟨defaultTopic, [{ Step.empty with action := some "inner" }]⟩,
      ⟨"inner", [{ Step.empty with action := some "complete" }]⟩]
  distinct := by decide
  startsSomewhere := by decide

theorem run_completes_iff_nested :
    let scene : Scene := ⟨.nested, .standard, ⟨false, false, false⟩⟩
    let t : List Deed :=
      [.asked (.acting (some ⟨defaultTopic, some 1⟩) "inner") (), .entered "inner",
        .asked (.acting (some ⟨"inner", some 1⟩) "complete") ()]
    ∃ r, Run.Course scene (.start scene) t r ∧ r.Settled (.ok true) := by
  intro scene t
  have houter : scene.enter defaultTopic = scene.act (some ⟨defaultTopic, some 1⟩) "inner" := rfl
  have hinner : scene.enter "inner" = scene.act (some ⟨"inner", some 1⟩) "complete" := rfl
  obtain ⟨r, hcourse⟩ : ∃ r, Run.Course scene (.start scene) t r := by
    refine ⟨⟨.done true, [.done]⟩, ?_⟩
    rw [Run.start, houter]
    apply Run.Course.answered (q := .acting (some ⟨defaultTopic, some 1⟩) "inner") () (by simp)
    apply Run.Course.entered (k := .done)
    rw [hinner]
    apply Run.Course.answered (q := .acting (some ⟨"inner", some 1⟩) "complete") () (by simp)
    exact .here _
  have ht : t = t.dropLast ++ .asked (.acting (some ⟨"inner", some 1⟩) "complete") () :: [] := rfl
  exact ⟨r, hcourse, ((run_completes_iff hcourse).1 _ _ _ .completes ht rfl).2.1⟩

end Result

end Dialogue
