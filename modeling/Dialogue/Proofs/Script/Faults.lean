import Dialogue.Proofs.Script.Findings
/-!
# Faults of a script that are found before it runs

A document is `Faultless` when its topics are distinct, it has a thread to start in, and each
pattern that may be tested is a regular expression. The check of a script reports an error just
when the document is not faultless, and what it lets pass never fails because of the script.

* `Document.faultless_iff` — a document is faultless just when no error is reported.
* `checked_script_never_at_fault` — a script without reported errors can be run, and no course of
  the run ends with an error of the script.
-/

namespace Dialogue

/-- No run of the document can fail because of the document. -/
structure Document.Faultless (engine : PatternEngine) (d : Document) : Prop where
  distinct : d.topics.Nodup
  starts : defaultTopic ∈ d.topics
  patterns : ∀ t ∈ d.threads, ∀ s ∈ t.steps, ∀ o ∈ s.options, ∀ pattern,
    o.pattern = some pattern → o.kind = some .regex → ∃ test, engine.compile pattern = .ok test

/-! ## Repeated topics -/

/-- The first repetition is the head of the list of all. -/
theorem head?_repeats (seen ts : List String) :
    (repeats seen ts).head? = firstRepeat? seen ts := by
  induction ts generalizing seen with
  | nil => rfl
  | cons t ts ih =>
      unfold repeats firstRepeat?
      split
      · rfl
      · exact ih (t :: seen)

theorem repeats_eq_nil {seen ts : List String} (hnodup : ts.Nodup) (hnew : ∀ t ∈ ts, t ∉ seen) :
    repeats seen ts = [] := by
  induction ts generalizing seen with
  | nil => rfl
  | cons t ts ih =>
      obtain ⟨ht, hnodup⟩ := List.nodup_cons.mp hnodup
      rw [repeats, if_neg (hnew t List.mem_cons_self)]
      apply ih hnodup
      intro u hu
      have hne : u ≠ t := fun h => ht (h ▸ hu)
      simp [hne, hnew u (List.mem_cons_of_mem t hu)]

theorem repeats_eq_nil_iff {ts : List String} : repeats [] ts = [] ↔ ts.Nodup := by
  constructor
  · intro h
    have hfirst := head?_repeats [] ts
    rw [h] at hfirst
    exact (nodup_of_firstRepeat?_eq_none hfirst.symm).1
  · intro h
    exact repeats_eq_nil h (by simp)

/-- An index is made of just those threads whose topics are distinct and have the start among
them. -/
theorem ThreadIndex.ofThreads_eq_ok_iff {threads : List Thread} {ix : ThreadIndex} :
    ofThreads threads = .ok ix ↔ ix.threads = threads := by
  constructor
  · intro h
    unfold ofThreads at h
    split at h
    · cases h
    · split at h <;> cases h
      rfl
  · rintro rfl
    have hnone : firstRepeat? [] (ix.threads.map Thread.topic) = none := by
      rw [← head?_repeats, repeats_eq_nil_iff.mpr ix.distinct]
      rfl
    unfold ofThreads
    split
    · next h => rw [hnone] at h; cases h
    · rw [dif_pos ix.startsSomewhere]

/-! ## What is reported -/

namespace Document

variable {engine : PatternEngine} {d : Document}

/-- A document is faultless just when no error is reported. -/
theorem faultless_iff :
    d.Faultless engine ↔ ∀ g ∈ d.analyze engine, g.level ≠ .error := by
  constructor
  · rintro ⟨hdistinct, hstarts, hpatterns⟩ g hg
    obtain ⟨f, -, rfl⟩ := List.mem_map.mp hg
    cases diagnostic_mem_analyze.mp hg with
    | repeatedTopic hmem =>
        rw [repeats_eq_nil_iff.mpr hdistinct] at hmem
        cases hmem
    | noStart hno => exact absurd hstarts hno
    | badPattern hst ho hp hk hc =>
        have hmem := List.mem_of_getElem? hst.step
        obtain ⟨test, htest⟩ := hpatterns _ hst.thread _ hmem _ ho _ hp hk
        rw [htest] at hc
        cases hc
    | unknownKind | noPattern | unknownTarget | unreachable => rintro ⟨⟩
  · intro h
    have hnone : ∀ f, d.Found engine f → f.level ≠ .error := fun f hf =>
      h f.diagnostic (diagnostic_mem_analyze.mpr hf)
    refine ⟨?_, ?_, ?_⟩
    · rw [← repeats_eq_nil_iff]
      by_contra hne
      obtain ⟨topic, hmem⟩ := List.exists_mem_of_ne_nil _ hne
      exact hnone _ (.repeatedTopic hmem) rfl
    · by_contra hno
      exact hnone _ (.noStart hno) rfl
    · intro t ht s hs o ho pattern hp hk
      obtain ⟨i, hi⟩ := List.mem_iff_getElem?.mp hs
      cases hc : engine.compile pattern with
      | ok test => exact ⟨test, rfl⟩
      | error reason => exact absurd rfl (hnone _ (.badPattern ⟨ht, hi⟩ ho hp hk hc))

/-- A faultless document has an index. -/
theorem Faultless.exists_index (h : d.Faultless engine) :
    ∃ ix, ThreadIndex.ofDocument d = .ok ix ∧ ix.threads = d.threads :=
  ⟨⟨d.threads, h.distinct, h.starts⟩, ThreadIndex.ofThreads_eq_ok_iff.mpr rfl, rfl⟩

end Document

/-! ## Runs of a faultless document -/

namespace ThreadIndex

/-- Threads are entered under known topics only, and none ends with an error of the script. -/
def soundRules (ix : ThreadIndex) : Rules Unit where
  allows _ q := ∀ topic, q = .enter topic → ix.contains topic = true
  after _ _ := some ()
  ends _ result := ∀ e, result ≠ .error (.script e)

theorem run_soundRules (ix : ThreadIndex) (t : List Deed) : ix.soundRules.run () t = some () := by
  induction t with
  | nil => rfl
  | cons d t ih => exact ih

end ThreadIndex

section Runs

variable {d : Document} {scene : Scene}

/-- Each thread of a faultless document suits the rules. -/
theorem Document.Faultless.suits (h : d.Faultless scene.engine) {t : Thread} (ht : t ∈ d.threads) :
    scene.index.soundRules.Suits scene t where
  plain := by
    intro _ _
    refine ⟨?_, fun _ _ _ _ => rfl, fun _ _ _ _ _ _ _ _ he => by cases he⟩
    rintro _ hq topic rfl
    cases hq
  act := by
    intro _ _ st _ place action _
    apply Scene.follows_act
    · rintro topic hq
      cases hq
    · intro s' _
      split
      · rintro e ⟨⟩
      · rintro e ⟨⟩
      · split
        · rintro topic ⟨⟩
          assumption
        · rintro e ⟨⟩
  refuse := by
    -- No option of the thread is at fault, since its pattern is a regular expression.
    intro _ _ st hst o ho pattern e hp hk htest
    obtain ⟨test, hcompile⟩ := h.patterns t ht st hst o ho pattern hp hk
    rw [PatternEngine.test, hcompile] at htest
    cases htest

theorem Document.Faultless.follows_enter (h : d.Faultless scene.engine)
    (hthreads : scene.index.threads = d.threads) {topic : String}
    (hknown : scene.index.contains topic = true) :
    (scene.enter topic).Follows scene.index.soundRules () := by
  obtain ⟨t, ht⟩ := Option.isSome_iff_exists.mp hknown
  have hmem : t ∈ d.threads := by
    rw [← hthreads]
    exact (ThreadIndex.get?_eq_some ht).1
  rw [Scene.enter, ht]
  apply Scene.follows_runThread (h.suits hmem)
  intro e he
  cases he

/-- No course of a run of a faultless document comes to an error of the script. -/
theorem Document.Faultless.next_ne (scene : Scene) (h : d.Faultless scene.engine)
    (hthreads : scene.index.threads = d.threads) {t : List Deed} {r : Run}
    (hcourse : Run.Course scene (.start scene) t r) (e : ScriptError) :
    r.next scene ≠ .ended (.error (.script e)) := by
  intro hend
  have hall : ∀ topic s s', scene.index.soundRules.allows s (.enter topic) →
      scene.index.soundRules.after s (.entered topic) = some s' →
        (scene.enter topic).Follows scene.index.soundRules s' :=
    fun topic _ _ hknown _ => h.follows_enter hthreads (hknown topic rfl)
  have hstart : (Run.start scene).Follows scene.index.soundRules () :=
    ⟨h.follows_enter hthreads (ThreadIndex.contains_iff.mpr scene.index.startsSomewhere),
      by rintro k ⟨⟩⟩
  have hfollows := (hcourse.follows hall hstart).2 () (ThreadIndex.run_soundRules _ t)
  exact hfollows.ends hend e rfl

end Runs

/-- A script without reported errors can be run, and no course of the run ends with an error of the
script. -/
theorem checked_script_never_at_fault (engine : PatternEngine) (ds : List Document) (i : Nat)
    (hi : i < ds.length) (hclean : ∀ g ∈ ds[i].analyze engine, g.level ≠ .error)
    (callbacks : Callbacks) :
    ∃ ix, ThreadIndex.ofDocuments ds i = .ok ix ∧
      ∀ t r e, Run.Course ⟨ix, engine, callbacks⟩ (.start ⟨ix, engine, callbacks⟩) t r →
        r.next ⟨ix, engine, callbacks⟩ ≠ .ended (.error (.script e)) := by
  have h : ds[i].Faultless engine := Document.faultless_iff.mpr hclean
  obtain ⟨ix, hix, hthreads⟩ := h.exists_index
  refine ⟨ix, ?_, fun t r e hcourse => ?_⟩
  · rw [ThreadIndex.ofDocuments, List.getElem?_eq_getElem hi]
    exact hix
  · exact h.next_ne ⟨ix, engine, callbacks⟩ hthreads hcourse e

/-- A question with an option that matches a regular expression and jumps to another thread. -/
def Document.regexQuestion : Document :=
  ⟨[⟨defaultTopic, [{ Step.empty with
      collect := some ⟨some "answer", false, [.regex "^y" "agreed", .fallback "complete"]⟩ }]⟩,
    ⟨"agreed", [{ Step.empty with text := some ["Fine."] }]⟩]⟩

theorem checked_script_never_at_fault_regexQuestion :
    let engine : PatternEngine := ⟨fun _ => .ok fun text => text.startsWith "y"⟩
    (∀ g ∈ Document.regexQuestion.analyze engine, g.level ≠ .error) ∧
      ∃ ix, ThreadIndex.ofDocuments [Document.regexQuestion] 0 = .ok ix ∧
        ∀ t r e, Run.Course ⟨ix, engine, ⟨true, true, true⟩⟩
            (.start ⟨ix, engine, ⟨true, true, true⟩⟩) t r →
          r.next ⟨ix, engine, ⟨true, true, true⟩⟩ ≠ .ended (.error (.script e)) := by
  intro engine
  have hclean : ∀ g ∈ Document.regexQuestion.analyze engine, g.level ≠ .error :=
    Document.faultless_iff.mp
      { distinct := by decide
        starts := by decide
        patterns := fun _ _ _ _ _ _ _ _ _ => ⟨_, rfl⟩ }
  exact ⟨hclean, checked_script_never_at_fault engine [Document.regexQuestion] 0 (by decide) hclean
    ⟨true, true, true⟩⟩

end Dialogue
