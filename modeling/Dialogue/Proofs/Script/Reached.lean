import Dialogue.Proofs.Script.Faults
import Dialogue.Proofs.Script.Reachable
/-!
# Threads that no run enters

The check of a script reports the threads to which no jumps lead from the start. It passes over
actions with the empty name, since for a step that is the same as no action. For an option it is
not: a run that takes such an option enters the thread whose topic is empty, and from there others
that were reported.

* `unreachable_entered_iff` — a run enters a thread that was reported just when it takes an action
  with the empty name and there is a thread of that topic.
-/

namespace Dialogue

/-! ## Actions -/

/-- The action that a deed takes. -/
def Deed.action? : Deed → Option String
  | .asked (.acting _ action) _ => some action
  | _ => none

theorem Deed.action?_eq_some {deed : Deed} {action : String} :
    deed.action? = some action ↔ ∃ place, deed = .asked (.acting place action) () := by
  constructor
  · intro h
    rcases deed with ⟨q, a⟩ | topic
    · cases q
      case acting place action' =>
        cases h
        exact ⟨place, rfl⟩
      all_goals cases h
    · cases h
  · rintro ⟨place, rfl⟩
    rfl

/-! ## The jumps of a document -/

namespace Step

/-- An action with the empty name belongs to an option. -/
theorem exists_option_of_names_empty {st : Step} (h : st.Names "") :
    ∃ o ∈ st.options, o.action = "" := by
  rcases h with hflow | hoption
  · cases (Option.filter_eq_some_iff.mp hflow).2
  · exact hoption

end Step

namespace Document

variable {d : Document}

/-- No jump leads to the thread with the empty topic. -/
theorem empty_not_mem_reached : "" ∉ d.reached := by
  intro h
  obtain hstart | ⟨topic, -, hjump⟩ := (mem_reached_iff.mp h).cases_tail
  · revert hstart
    decide
  · obtain ⟨_, -, -, _, -, -, hne, -⟩ := hjump
    exact hne rfl

/-! ## The report -/

/-- A thread is reported as unreachable when no jumps lead to it. -/
theorem unreachable_mem_analyze {engine : PatternEngine} {topic : String}
    (hstart : defaultTopic ∈ d.topics) :
    (Finding.unreachable topic).diagnostic ∈ d.analyze engine ↔
      topic ∈ d.topics ∧ topic ∉ d.reached := by
  rw [diagnostic_mem_analyze]
  constructor
  · intro h
    cases h with
    | unreachable _ htopic hreached => exact ⟨htopic, hreached⟩
  · rintro ⟨htopic, hreached⟩
    exact .unreachable hstart htopic hreached

/-! ## Runs that keep to the jumps -/

/-- Does some step of the document name the action? -/
def Names (d : Document) (action : String) : Prop :=
  ∃ t ∈ d.threads, ∃ st ∈ t.steps, st.Names action

/-- The deed takes an action with the empty name, and there is a thread of that topic. -/
def EntersEmpty (d : Document) (deed : Deed) : Prop := "" ∈ d.topics ∧ deed.action? = some ""

instance (d : Document) (deed : Deed) : Decidable (d.EntersEmpty deed) :=
  inferInstanceAs (Decidable (_ ∧ _))

/-- Threads are entered to which jumps lead, until the thread with the empty topic is. -/
def jumpRules (d : Document) : Rules Unit where
  allows
    | _, .enter topic => topic ∈ d.reached
    | _, .acting _ action => d.Names action
    | _, _ => True
  after _ deed := if d.EntersEmpty deed then none else some ()
  ends _ _ := True

variable {scene : Scene}

theorem indifferent_jumpRules : d.jumpRules.Indifferent () where
  allows q hq := by
    cases q
    case acting | enter => cases hq
    all_goals trivial
  after q a hq _ := by
    apply if_neg
    rintro ⟨-, h⟩
    cases q
    case acting => cases hq
    all_goals cases h
  fails _ _ _ _ _ _ _ := trivial

/-- A thread to which jumps lead suits the rules. -/
theorem suits_jumpRules (hthreads : scene.index.threads = d.threads) {t : Thread}
    (ht : t ∈ d.threads) (hreached : t.topic ∈ d.reached) : d.jumpRules.Suits scene t where
  plain _ _ := indifferent_jumpRules
  act := by
    intro _ _ st hst place action hnames
    apply Scene.follows_act
    · exact ⟨t, ht, st, hst, hnames⟩
    · intro s' hs'
      have hempty : ¬d.EntersEmpty (.asked (.acting place action) ()) := by
        intro h
        cases (if_pos h).symm.trans hs'
      split
      · trivial
      · trivial
      · next topic hparse =>
        split
        · next hknown =>
          have htopic : topic ∈ d.topics := by
            have hmem := ThreadIndex.contains_iff.mp hknown
            rwa [ThreadIndex.topics, hthreads] at hmem
          obtain rfl := Action.topic_eq hparse
          have hne : topic ≠ "" := by
            rintro rfl
            exact hempty ⟨htopic, rfl⟩
          have hjump : d.Jumps t.topic topic :=
            ⟨t, ht, rfl, st, hst, hnames, hne, hparse, htopic⟩
          exact mem_reached_iff.mpr ((mem_reached_iff.mp hreached).tail hjump)
        · trivial
  refuse _ _ _ _ _ _ _ _ _ _ _ := trivial

theorem follows_enter_jumpRules (hthreads : scene.index.threads = d.threads) {topic : String}
    (hreached : topic ∈ d.reached) : (scene.enter topic).Follows d.jumpRules () := by
  unfold Scene.enter
  split
  · next t ht =>
    obtain ⟨hmem, rfl⟩ := ThreadIndex.get?_eq_some ht
    rw [hthreads] at hmem
    exact Scene.follows_runThread (suits_jumpRules hthreads hmem hreached) trivial
  · trivial

/-- The rules apply as long as the thread with the empty topic is not entered. -/
theorem run_jumpRules {t : List Deed} :
    d.jumpRules.run () t = some () ↔ ∀ deed ∈ t, ¬d.EntersEmpty deed := by
  induction t with
  | nil => simp [Rules.run]
  | cons deed t ih =>
      rw [Rules.run_cons, List.forall_mem_cons]
      by_cases h : d.EntersEmpty deed <;> simp [jumpRules, h]
      exact ih

/-! ## Runs that enter the thread with the empty topic -/

/-- When an action with the empty name is taken and there is a thread of that topic, that thread is
entered next. The state tells whether it is due. -/
def emptyRules (d : Document) : Rules Bool where
  allows due q := due = true → q = .enter ""
  after due deed :=
    match deed with
    | .asked (.acting _ action) _ => some (decide (action = "" ∧ "" ∈ d.topics))
    | .asked _ _ => some due
    | .entered _ => some false
  ends due _ := due = false

theorem indifferent_emptyRules : d.emptyRules.Indifferent false where
  allows _ _ hdue := by cases hdue
  after q a hq _ := by
    cases q
    case acting => cases hq
    all_goals rfl
  fails q a e s' hq _ hs' := by
    cases q
    case acting => cases hq
    all_goals
      cases hs'
      rfl

theorem suits_emptyRules (hthreads : scene.index.threads = d.threads) (t : Thread) :
    d.emptyRules.Suits scene t where
  plain := by
    rintro _ rfl
    exact indifferent_emptyRules
  act := by
    rintro _ rfl st _ place action _
    apply Scene.follows_act
    · intro hdue
      cases hdue
    · intro due hdue
      have hdue : decide (action = "" ∧ "" ∈ d.topics) = due := Option.some.inj hdue
      by_cases hempty : action = "" ∧ "" ∈ d.topics
      · obtain ⟨rfl, htopic⟩ := hempty
        have hknown : scene.index.contains "" = true := by
          rw [ThreadIndex.contains_iff, ThreadIndex.topics, hthreads]
          exact htopic
        have hparse : Action.parse "" = .thread "" := by decide
        rw [hparse]
        dsimp only
        rw [if_pos hknown]
        exact fun _ => rfl
      · rw [decide_eq_false hempty] at hdue
        obtain rfl := hdue
        split
        · rfl
        · rfl
        · split
          · rintro ⟨⟩
          · rfl
  refuse := by
    rintro _ rfl _ _ _ _ _ _ _ _ _
    rfl

theorem follows_enter_emptyRules (hthreads : scene.index.threads = d.threads) (topic : String) :
    (scene.enter topic).Follows d.emptyRules false := by
  unfold Scene.enter
  split
  · exact Scene.follows_runThread (suits_emptyRules hthreads _) rfl
  · rfl

theorem exists_run_emptyRules (due : Bool) (t : List Deed) :
    ∃ due', d.emptyRules.run due t = some due' := by
  induction t generalizing due with
  | nil => exact ⟨due, rfl⟩
  | cons deed t ih =>
      rw [Rules.run_cons]
      rcases deed with ⟨q, a⟩ | topic
      · cases q <;> exact ih _
      · exact ih _

end Document

/-! ## Runs of a document -/

section Runs

variable {d : Document} {scene : Scene} {t : List Deed} {r : Run}

theorem Run.Course.obeyed_jumpRules (hthreads : scene.index.threads = d.threads)
    (h : Run.Course scene (.start scene) t r) : d.jumpRules.Obeyed () (t ++ r.entry) := by
  have hstart : (Run.start scene).Follows d.jumpRules () := by
    refine ⟨?_, by rintro k ⟨⟩⟩
    apply Document.follows_enter_jumpRules hthreads
    exact Document.mem_reached_iff.mpr .refl
  exact h.obeyed_entry
    (fun _ _ _ hreached _ => Document.follows_enter_jumpRules hthreads hreached) hstart

/-- A thread that is entered without jumps to it is entered after an action with the empty name. -/
theorem Run.Course.exists_entersEmpty (hthreads : scene.index.threads = d.threads)
    (h : Run.Course scene (.start scene) t r) {topic : String}
    (hentered : .entered topic ∈ t ++ r.entry) (hreached : topic ∉ d.reached) :
    ∃ deed ∈ t, d.EntersEmpty deed := by
  have hobeyed := h.obeyed_jumpRules hthreads
  by_contra hno
  push Not at hno
  have hnone : ∀ deed ∈ t ++ r.entry, ¬d.EntersEmpty deed := by
    intro deed hmem
    rcases List.mem_append.mp hmem with hmem | hmem
    · exact hno deed hmem
    · unfold Run.entry at hmem
      split at hmem
      · obtain rfl := List.mem_singleton.mp hmem
        rintro ⟨-, ⟨⟩⟩
      · cases hmem
  obtain ⟨before, after, heq⟩ := List.append_of_mem hentered
  rw [heq] at hobeyed hnone
  have hrun : d.jumpRules.run () before = some () :=
    Document.run_jumpRules.mpr fun deed hmem => hnone deed (List.mem_append_left _ hmem)
  exact hreached (hobeyed.allows_of_run hrun)

/-- The thread with the empty topic is entered after an action with the empty name. -/
theorem Run.Course.entered_empty (hthreads : scene.index.threads = d.threads)
    (h : Run.Course scene (.start scene) t r) {deed : Deed} (hmem : deed ∈ t)
    (hempty : d.EntersEmpty deed) : .entered "" ∈ t ++ r.entry := by
  have hstart : (Run.start scene).Follows d.emptyRules false :=
    ⟨Document.follows_enter_emptyRules hthreads _, by rintro k ⟨⟩⟩
  have hall : ∀ topic due due', d.emptyRules.allows due (.enter topic) →
      d.emptyRules.after due (.entered topic) = some due' →
        (scene.enter topic).Follows d.emptyRules due' := by
    rintro topic due _ _ ⟨⟩
    exact Document.follows_enter_emptyRules hthreads topic
  obtain ⟨hobeyed, hfollows⟩ := h.follows hall hstart
  obtain ⟨before, after, rfl⟩ := List.append_of_mem hmem
  -- The thread is due after the deed.
  have hdue : d.emptyRules.run false (before ++ [deed]) = some true := by
    obtain ⟨due, hbefore⟩ := Document.exists_run_emptyRules (d := d) false before
    rw [Rules.run_append, hbefore]
    obtain ⟨htopic, haction⟩ := hempty
    obtain ⟨place, rfl⟩ := Deed.action?_eq_some.mp haction
    simp [Rules.run, Document.emptyRules, htopic]
  cases after with
  | nil =>
      obtain ⟨hcurrent, -⟩ := hfollows true hdue
      obtain ⟨current, outer⟩ := r
      cases current with
      | done b => cases hcurrent
      | fail e => cases hcurrent
      | ask q k =>
          obtain rfl := hcurrent.1 rfl
          exact List.mem_append_right _ List.mem_cons_self
  | cons next after =>
      rw [List.append_cons] at hobeyed
      have hnext : next.request = .enter "" := hobeyed.allows_of_run hdue rfl
      rcases next with ⟨q, a⟩ | topic
      · have hasked : Deed.asked q a ∈ before ++ deed :: .asked q a :: after := by simp
        exact absurd hnext (h.ne_enter_of_asked hasked "")
      · cases hnext
        simp

/-- An action with the empty name is named by a step. -/
theorem Document.names_empty (h : d.jumpRules.Obeyed () t) {deed : Deed} (hmem : deed ∈ t)
    (haction : deed.action? = some "") : d.Names "" := by
  induction t with
  | nil => cases hmem
  | cons first t ih =>
      by_cases hfirst : first.action? = some ""
      · obtain ⟨place, rfl⟩ := Deed.action?_eq_some.mp hfirst
        exact h.1
      · have hne : deed ≠ first := by
          rintro rfl
          exact hfirst haction
        have hafter : d.jumpRules.after () first = some () := if_neg fun hempty => hfirst hempty.2
        exact ih (h.2 () hafter) (List.mem_of_ne_of_mem hne hmem)

/-- A run enters a thread that was reported as unreachable just when it takes an action with the
empty name and there is a thread of that topic. Such an action is that of an option. -/
theorem unreachable_entered_iff (hix : ThreadIndex.ofDocument d = .ok scene.index)
    (h : Run.Course scene (.start scene) t r) :
    ((∃ topic, (Finding.unreachable topic).diagnostic ∈ d.analyze scene.engine ∧
        .entered topic ∈ t ++ r.entry) ↔
      "" ∈ d.topics ∧ ∃ place, .asked (.acting place "") () ∈ t) ∧
    ((∃ place, .asked (.acting place "") () ∈ t) →
      ∃ th ∈ d.threads, ∃ st ∈ th.steps, ∃ o ∈ st.options, o.action = "") := by
  have hthreads : scene.index.threads = d.threads := ThreadIndex.ofThreads_eq_ok_iff.mp hix
  have hstart : defaultTopic ∈ d.topics := by
    rw [Document.topics, ← hthreads]
    exact scene.index.startsSomewhere
  refine ⟨⟨?_, ?_⟩, ?_⟩
  · rintro ⟨topic, hreported, hentered⟩
    obtain ⟨-, hreached⟩ := (Document.unreachable_mem_analyze hstart).mp hreported
    obtain ⟨deed, hmem, htopic, haction⟩ := h.exists_entersEmpty hthreads hentered hreached
    obtain ⟨place, rfl⟩ := Deed.action?_eq_some.mp haction
    exact ⟨htopic, place, hmem⟩
  · rintro ⟨htopic, place, hmem⟩
    refine ⟨"", ?_, h.entered_empty hthreads hmem ⟨htopic, rfl⟩⟩
    exact (Document.unreachable_mem_analyze hstart).mpr ⟨htopic, Document.empty_not_mem_reached⟩
  · rintro ⟨place, hmem⟩
    obtain ⟨th, hth, st, hst, hnames⟩ := Document.names_empty (h.obeyed_jumpRules hthreads)
      (List.mem_append_left _ hmem) rfl
    exact ⟨th, hth, st, hst, st.exists_option_of_names_empty hnames⟩

end Runs

/-! ### A hidden thread -/

/-- An option that is taken for every answer has an action with the empty name, and a thread has the
empty topic. -/
def Document.hiddenThread : Document :=
  ⟨[⟨defaultTopic, [{ Step.empty with
      text := some [], collect := some ⟨none, false, [.fallback ""]⟩ }]⟩,
    ⟨"", [{ Step.empty with text := some ["hidden"] }]⟩]⟩

/-- The scene of the document, without callbacks. -/
def Scene.hiddenThread : Scene where
  index := ⟨Document.hiddenThread.threads, by decide, by decide⟩
  engine := .standard
  callbacks := ⟨false, false, false⟩

/-- What a run does when the user answers. -/
def Deed.hiddenThread : List Deed :=
  [.asked .input (.ok (.string "x")), .asked (.acting (some ⟨defaultTopic, some 1⟩) "") (),
    .entered ""]

theorem course_hiddenThread :
    ∃ r, Run.Course .hiddenThread (.start .hiddenThread) Deed.hiddenThread r := by
  refine ⟨⟨Scene.hiddenThread.enter "", [fun b => if b then .done true else .done false]⟩, ?_⟩
  show Run.Course _ ⟨Scene.hiddenThread.enter defaultTopic, []⟩ _ _
  apply Run.Course.answered (q := .input) (.ok (.string "x")) (by simp)
  apply Run.Course.answered (q := .acting (some ⟨defaultTopic, some 1⟩) "") () (by simp)
  apply Run.Course.entered (k := fun b => if b then .done true else .done false)
  exact .here _

theorem reported_hiddenThread : (Finding.unreachable "").diagnostic ∈
    Document.hiddenThread.analyze Scene.hiddenThread.engine :=
  (Document.unreachable_mem_analyze (by decide)).mpr
    ⟨by decide, Document.empty_not_mem_reached⟩

theorem enters_unreachable_thread :
    ThreadIndex.ofDocument Document.hiddenThread = .ok Scene.hiddenThread.index ∧
      ∃ topic t r, (Finding.unreachable topic).diagnostic ∈
          Document.hiddenThread.analyze Scene.hiddenThread.engine ∧
        Run.Course .hiddenThread (.start .hiddenThread) t r ∧ .entered topic ∈ t := by
  obtain ⟨r, hcourse⟩ := course_hiddenThread
  have hmem : Deed.entered "" ∈ Deed.hiddenThread := by simp [Deed.hiddenThread]
  exact ⟨ThreadIndex.ofThreads_eq_ok_iff.mpr rfl, "", _, r, reported_hiddenThread, hcourse, hmem⟩

theorem unreachable_entered_iff_hiddenThread :
    ∃ r, Run.Course .hiddenThread (.start .hiddenThread) Deed.hiddenThread r ∧
      ∃ topic, (Finding.unreachable topic).diagnostic ∈
          Document.hiddenThread.analyze Scene.hiddenThread.engine ∧
        .entered topic ∈ Deed.hiddenThread ++ r.entry := by
  obtain ⟨r, hcourse⟩ := course_hiddenThread
  refine ⟨r, hcourse, ?_⟩
  apply (unreachable_entered_iff (ThreadIndex.ofThreads_eq_ok_iff.mpr rfl) hcourse).1.mpr
  exact ⟨by decide, some ⟨defaultTopic, some 1⟩, by simp [Deed.hiddenThread]⟩

end Dialogue
