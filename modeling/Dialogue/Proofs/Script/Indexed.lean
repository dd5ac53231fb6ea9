import Mathlib.Data.List.Nodup
import Dialogue.Proofs.Script.Faults
/-!
# Which thread lists make up an index

A list of threads is looked through from its front, and what decides is the topics alone. An index
comes of it when they are distinct and the start is among them; then each topic stands for the one
thread that has it. Otherwise the fault is the first topic that stands there a second time, and only
without one that the start is missing. The check of a document reports an error of these kinds just
when there is such a fault.

* `firstRepeat?_eq_some_iff` — the repetition that is met first.
* `ThreadIndex.Fault` — what is wrong with a thread list.
* `ThreadIndex.ofThreads_eq_error_iff` — the error is the fault.
* `ThreadIndex.outcome_of_topics` — the index of a thread list, and when there is none.
-/

namespace Dialogue

/-! ## The first repetition -/

/-- The first entry that was seen or stands before, and what comes before it. -/
theorem firstRepeat?_seen_eq_some_iff {seen ts : List String} {t : String} :
    firstRepeat? seen ts = some t ↔ ∃ before after, ts = before ++ t :: after ∧
      before.Nodup ∧ (∀ u ∈ before, u ∉ seen) ∧ (t ∈ seen ∨ t ∈ before) := by
  induction ts generalizing seen with
  | nil => simp [firstRepeat?]
  | cons u ts ih =>
      unfold firstRepeat?
      split
      · next hu =>
        constructor
        · rintro ⟨⟩
          exact ⟨[], ts, rfl, .nil, by simp, .inl hu⟩
        · rintro ⟨before, after, hts, -, hnew, -⟩
          cases before with
          | nil =>
              cases hts
              rfl
          | cons v before =>
              cases hts
              exact absurd hu (hnew u List.mem_cons_self)
      · next hu =>
        rw [ih]
        constructor
        · rintro ⟨before, after, rfl, hnodup, hnew, ht⟩
          refine ⟨u :: before, after, rfl, ?_, ?_, ?_⟩
          · exact List.nodup_cons.mpr ⟨fun hmem => hnew u hmem List.mem_cons_self, hnodup⟩
          · refine List.forall_mem_cons.mpr ⟨hu, fun v hv hseen => ?_⟩
            exact hnew v hv (List.mem_cons_of_mem u hseen)
          · rcases ht with ht | ht
            · rcases List.mem_cons.mp ht with rfl | ht
              · exact .inr List.mem_cons_self
              · exact .inl ht
            · exact .inr (List.mem_cons_of_mem u ht)
        · rintro ⟨before, after, hts, hnodup, hnew, ht⟩
          cases before with
          | nil =>
              cases hts
              exact absurd ht (by simp [hu])
          | cons v before =>
              cases hts
              obtain ⟨hv, hnodup⟩ := List.nodup_cons.mp hnodup
              refine ⟨before, after, rfl, hnodup, fun w hw hseen => ?_, ?_⟩
              · rcases List.mem_cons.mp hseen with rfl | hseen
                · exact hv hw
                · exact hnew w (List.mem_cons_of_mem u hw) hseen
              · rcases ht with ht | ht
                · exact .inl (List.mem_cons_of_mem u ht)
                · rcases List.mem_cons.mp ht with rfl | ht
                  · exact .inl List.mem_cons_self
                  · exact .inr ht

theorem firstRepeat?_eq_some_iff {ts : List String} {t : String} : firstRepeat? [] ts = some t ↔
    ∃ before after, ts = before ++ t :: after ∧ before.Nodup ∧ t ∈ before := by
  simp [firstRepeat?_seen_eq_some_iff]

theorem firstRepeat?_eq_none_iff {ts : List String} : firstRepeat? [] ts = none ↔ ts.Nodup := by
  rw [← head?_repeats, List.head?_eq_none_iff, repeats_eq_nil_iff]

/-! ## Faults of a thread list -/

namespace ThreadIndex

/-- What is wrong with a thread list: a thread repeats the topic of one before it, and no thread in
front of it does, or else no thread has the topic in which runs start. -/
inductive Fault : List Thread → ScriptError → Prop
  | repeated {before after : List Thread} {th : Thread} : (before.map Thread.topic).Nodup →
      th.topic ∈ before.map Thread.topic →
      Fault (before ++ th :: after) (.duplicateTopic th.topic)
  | noStart {threads : List Thread} : (threads.map Thread.topic).Nodup →
      defaultTopic ∉ threads.map Thread.topic → Fault threads .missingDefaultThread

variable {threads : List Thread} {e : ScriptError}

theorem exists_ofThreads_iff : (∃ ix, ofThreads threads = .ok ix) ↔
    (threads.map Thread.topic).Nodup ∧ defaultTopic ∈ threads.map Thread.topic := by
  constructor
  · rintro ⟨ix, h⟩
    obtain rfl := ofThreads_eq_ok_iff.mp h
    exact ⟨ix.distinct, ix.startsSomewhere⟩
  · rintro ⟨hdistinct, hstarts⟩
    exact ⟨⟨threads, hdistinct, hstarts⟩, ofThreads_eq_ok_iff.mpr rfl⟩

/-- Of the threads only the topics decide what is wrong. -/
theorem ofThreads_eq_error_iff_topics : ofThreads threads = .error e ↔
    (∃ topic, firstRepeat? [] (threads.map Thread.topic) = some topic ∧
      e = .duplicateTopic topic) ∨
    (firstRepeat? [] (threads.map Thread.topic) = none ∧
      defaultTopic ∉ threads.map Thread.topic ∧ e = .missingDefaultThread) := by
  unfold ofThreads
  split
  · next topic hrepeat => simp [hrepeat, eq_comm]
  · next hnone =>
    split
    · next hstarts => simp [hnone, hstarts]
    · next hstarts => simp [hnone, hstarts, eq_comm]

/-- When there is no index, the error is what is wrong with the list. -/
theorem ofThreads_eq_error_iff : ofThreads threads = .error e ↔ Fault threads e := by
  rw [ofThreads_eq_error_iff_topics]
  constructor
  · rintro (⟨topic, hrepeat, rfl⟩ | ⟨hnone, hstarts, rfl⟩)
    · obtain ⟨before, after, hmap, hnodup, hmem⟩ := firstRepeat?_eq_some_iff.mp hrepeat
      obtain ⟨before, rest, rfl, rfl, hrest⟩ := List.map_eq_append_iff.mp hmap
      obtain ⟨th, after, rfl, rfl, -⟩ := List.map_eq_cons_iff.mp hrest
      exact .repeated hnodup hmem
    · exact .noStart (firstRepeat?_eq_none_iff.mp hnone) hstarts
  · intro h
    cases h with
    | @repeated before after th hnodup hmem =>
        refine .inl ⟨th.topic, firstRepeat?_eq_some_iff.mpr ?_, rfl⟩
        exact ⟨_, after.map Thread.topic, by rw [List.map_append, List.map_cons], hnodup, hmem⟩
    | noStart hnodup hstarts => exact .inr ⟨firstRepeat?_eq_none_iff.mpr hnodup, hstarts, rfl⟩

/-! ## The threads of an index -/

/-- A topic stands for the thread that has it. -/
theorem get?_eq_some_iff {ix : ThreadIndex} {topic : String} {th : Thread} :
    ix.get? topic = some th ↔ th ∈ ix.threads ∧ th.topic = topic := by
  refine ⟨get?_eq_some, ?_⟩
  rintro ⟨hmem, rfl⟩
  obtain ⟨th', hth'⟩ : ∃ th', ix.get? th.topic = some th' :=
    Option.isSome_iff_exists.mp (contains_iff.mpr (List.mem_map_of_mem hmem))
  obtain ⟨hmem', htopic⟩ := get?_eq_some hth'
  rw [hth', List.inj_on_of_nodup_map ix.distinct hmem' hmem htopic]

end ThreadIndex

/-! ## Faults and the check of a document -/

/-- An error that concerns the topics of a document is reported just when they have a fault. -/
theorem Document.exists_fault_iff {engine : PatternEngine} {d : Document} :
    (∃ g ∈ d.analyze engine, (∃ topic, g = (Finding.repeatedTopic topic).diagnostic) ∨
      g = Finding.noStart.diagnostic) ↔ ¬(d.topics.Nodup ∧ defaultTopic ∈ d.topics) := by
  have hrepeated : (∃ topic, d.Found engine (.repeatedTopic topic)) ↔ ¬d.topics.Nodup := by
    rw [← repeats_eq_nil_iff]
    constructor
    · rintro ⟨topic, ⟨hmem⟩⟩
      exact List.ne_nil_of_mem hmem
    · intro hne
      obtain ⟨topic, hmem⟩ := List.exists_mem_of_ne_nil _ hne
      exact ⟨topic, .repeatedTopic hmem⟩
  have hstart : d.Found engine .noStart ↔ defaultTopic ∉ d.topics :=
    ⟨fun h => by cases h; assumption, .noStart⟩
  rw [not_and_or, ← hrepeated, ← hstart]
  constructor
  · rintro ⟨g, hg, ⟨topic, rfl⟩ | rfl⟩
    · exact .inl ⟨topic, Document.diagnostic_mem_analyze.mp hg⟩
    · exact .inr (Document.diagnostic_mem_analyze.mp hg)
  · rintro (⟨topic, h⟩ | h)
    · exact ⟨_, Document.diagnostic_mem_analyze.mpr h, .inl ⟨topic, rfl⟩⟩
    · exact ⟨_, Document.diagnostic_mem_analyze.mpr h, .inr rfl⟩

/-! ## The index of a thread list -/

namespace ThreadIndex

/-- There is an index of a thread list just when the topics are distinct and the start is among
them. It has all the threads, and a topic stands for the one thread that has it. Otherwise the error
is the first topic that is repeated, whether the start is missing or not, and without a repetition
that the start is missing. Nothing but the topics matters, so no option does, whatever its pattern;
and the check of the document, with any engine for patterns, reports an error of its topics just
when there is no index. -/
theorem outcome_of_topics (threads : List Thread) :
    ((∃ ix, ofThreads threads = .ok ix) ↔
      (threads.map Thread.topic).Nodup ∧ defaultTopic ∈ threads.map Thread.topic) ∧
    (∀ ix, ofThreads threads = .ok ix →
      (∀ topic th, ix.get? topic = some th ↔ th ∈ threads ∧ th.topic = topic) ∧
      (∀ topic, ix.get? topic = none ↔ topic ∉ threads.map Thread.topic) ∧
      ix.size = threads.length) ∧
    (∀ e, ofThreads threads = .error e ↔ Fault threads e) ∧
    (∀ threads' : List Thread, threads'.map Thread.topic = threads.map Thread.topic →
      (ofThreads threads').map topics = (ofThreads threads).map topics) ∧
    ∀ engine, (∃ e, ofDocument ⟨threads⟩ = .error e) ↔
      ∃ g ∈ (Document.mk threads).analyze engine, g.level = .error ∧
        ((∃ topic, g = (Finding.repeatedTopic topic).diagnostic) ∨
          g = Finding.noStart.diagnostic) := by
  refine ⟨exists_ofThreads_iff, ?_, fun e => ofThreads_eq_error_iff, ?_, fun engine => ?_⟩
  · intro ix h
    obtain rfl := ofThreads_eq_ok_iff.mp h
    refine ⟨fun topic th => get?_eq_some_iff, fun topic => ?_, rfl⟩
    rw [← not_iff_not, not_not, ← ne_eq, Option.ne_none_iff_isSome]
    exact contains_iff
  · intro threads' htopics
    cases h : ofThreads threads with
    | ok ix =>
        obtain rfl := ofThreads_eq_ok_iff.mp h
        obtain ⟨ix', h'⟩ : ∃ ix', ofThreads threads' = .ok ix' := by
          rw [exists_ofThreads_iff, htopics]
          exact ⟨ix.distinct, ix.startsSomewhere⟩
        obtain rfl := ofThreads_eq_ok_iff.mp h'
        rw [h']
        exact congrArg Except.ok htopics
    | error e =>
        have h' : ofThreads threads' = .error e := by
          rw [ofThreads_eq_error_iff_topics, htopics]
          exact ofThreads_eq_error_iff_topics.mp h
        rw [h']
  · have herror : (∃ e, ofDocument ⟨threads⟩ = .error e) ↔ ¬∃ ix, ofThreads threads = .ok ix := by
      show (∃ e, ofThreads threads = .error e) ↔ _
      cases ofThreads threads <;> simp
    rw [herror, exists_ofThreads_iff]
    refine (@Document.exists_fault_iff engine ⟨threads⟩).symm.trans ?_
    refine exists_congr fun g => and_congr_right fun _ => ⟨fun h => ⟨?_, h⟩, And.right⟩
    rcases h with ⟨topic, rfl⟩ | rfl <;> rfl

/-- Two topics are repeated and the start is missing. The topic that is told is that of the third
thread, though the fourth one repeats a topic that comes earlier. -/
theorem outcome_of_topics_twoRepeated :
    ofThreads [⟨"a", []⟩, ⟨"b", []⟩, ⟨"b", []⟩, ⟨"a", []⟩] = .error (.duplicateTopic "b") := by
  apply ((outcome_of_topics _).2.2.1 _).mpr
  exact @Fault.repeated [⟨"a", []⟩, ⟨"b", []⟩] [⟨"a", []⟩] ⟨"b", []⟩ (by decide) (by decide)

end ThreadIndex

end Dialogue
