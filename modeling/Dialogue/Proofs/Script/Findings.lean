import Dialogue.Proofs.Run.Threads
/-!
# What the check of a script finds

A finding is shown by a diagnostic with a level, a place and words, and nothing of it is lost: the
findings of a document can be told from its diagnostics. So what is said of the diagnostics of a
document can be proved of its findings.

* `Finding.diagnostic_injective` — different findings are shown by different diagnostics.
* `Document.Found` — when something is found, one case for each kind of finding.
* `Document.diagnostic_mem_analyze` — the diagnostics of a document are those of what is found.
-/

namespace Dialogue

/-! ## Findings and diagnostics -/

namespace Finding

/-- A character of the first text is one of the two together. -/
theorem getElem?_append_of_eq_some {s t : String} {i : Nat} {c : Char}
    (h : s.toList[i]? = some c) : (s ++ t).toList[i]? = some c := by
  obtain ⟨hi, -⟩ := List.getElem?_eq_some_iff.mp h
  rw [String.toList_append, List.getElem?_append_left hi, h]

variable {topic topic' action target target' : String} {n n' : Nat}

/-! The words for the kinds of warnings differ in their first or third character. -/

theorem first_unknownKind (topic : String) (n : Nat) :
    (unknownKind topic n).message.toList[0]? = some '选' := by
  show "选项的匹配类型不受支持，永远不会匹配".toList[0]? = some '选'
  decide

theorem first_noPattern (topic : String) (n : Nat) (action : String) :
    (noPattern topic n action).message.toList[0]? = some '选' :=
  getElem?_append_of_eq_some (by decide)

theorem first_unknownTarget (topic : String) (n : Nat) (target : String) :
    (unknownTarget topic n target).message.toList[0]? = some '未' :=
  getElem?_append_of_eq_some (getElem?_append_of_eq_some (by decide))

theorem third_unknownKind (topic : String) (n : Nat) :
    (unknownKind topic n).message.toList[2]? = some '的' := by
  show "选项的匹配类型不受支持，永远不会匹配".toList[2]? = some '的'
  decide

theorem third_noPattern : (noPattern topic n action).message.toList[2]? = some '没' :=
  getElem?_append_of_eq_some (by decide)

theorem message_unknownKind_ne_noPattern :
    (unknownKind topic n).message ≠ (noPattern topic' n' action).message := by
  intro h
  have hchar := third_unknownKind topic n
  rw [h, third_noPattern] at hchar
  revert hchar
  decide

theorem message_noPattern_inj (h : (noPattern topic n action).message =
    (noPattern topic' n' target).message) : action = target :=
  (String.append_right_inj _).mp h

theorem message_unknownTarget_inj (h : (unknownTarget topic n target).message =
    (unknownTarget topic' n' target').message) : target = target' :=
  (String.append_right_inj _).mp ((String.append_left_inj _).mp h)

theorem message_badPattern_inj {pattern pattern' reason reason' : String}
    (h : (badPattern topic n pattern reason).message =
      (badPattern topic' n' pattern' reason').message) : pattern = pattern' :=
  (String.append_right_inj _).mp h

/-- Different findings are shown by different diagnostics. -/
theorem diagnostic_injective : Function.Injective diagnostic := by
  intro f g h
  have hlevel : f.level = g.level := congrArg Diagnostic.level h
  have hplace : f.place = g.place := congrArg Diagnostic.place h
  have hmessage : f.message = g.message := congrArg Diagnostic.message h
  have hdetail : f.detail = g.detail := congrArg Diagnostic.detail h
  clear h
  -- Level, place and detail leave only kinds together that differ in their words.
  cases f <;> cases g <;> cases hlevel <;> cases hplace <;> try cases hdetail
  case badPattern.badPattern.refl.refl =>
    obtain rfl := message_badPattern_inj hmessage
    have hreason := (String.append_right_inj _).mp (Option.some.inj hdetail)
    rw [hreason]
  case unknownKind.noPattern => exact absurd hmessage message_unknownKind_ne_noPattern
  case noPattern.unknownKind => exact absurd hmessage.symm message_unknownKind_ne_noPattern
  case noPattern.noPattern => rw [message_noPattern_inj hmessage]
  case unknownTarget.unknownTarget => rw [message_unknownTarget_inj hmessage]
  all_goals rfl

end Finding

/-! ## Steps and their numbers -/

/-- The actions that a step names, but for the empty name. -/
theorem Step.mem_actions_iff {st : Step} {action : String} :
    action ∈ st.actions ↔ st.Names action ∧ action ≠ "" := by
  constructor
  · intro h
    rcases List.mem_append.mp h with hflow | hoption
    · have hsome : st.flowAction = some action := Option.mem_toList.mp hflow
      exact ⟨.inl hsome, by simpa using (Option.filter_eq_some_iff.mp hsome).2⟩
    · obtain ⟨o, ho, hsome⟩ := List.mem_filterMap.mp hoption
      obtain ⟨haction, hne⟩ := Option.filter_eq_some_iff.mp hsome
      exact ⟨.inr ⟨o, ho, Option.some.inj haction⟩, by simpa using hne⟩
  · rintro ⟨hflow | ⟨o, ho, rfl⟩, hne⟩
    · exact List.mem_append_left _ (Option.mem_toList.mpr hflow)
    · refine List.mem_append_right _ (List.mem_filterMap.mpr ⟨o, ho, ?_⟩)
      simp [Option.filter, hne]

/-- Steps are counted from 1. -/
theorem Thread.mem_numbered_iff {t : Thread} {st : Step} {n : Nat} :
    (st, n) ∈ t.numbered ↔ ∃ i, n = i + 1 ∧ t.steps[i]? = some st := by
  rw [Thread.numbered, List.mem_zipIdx_iff_le_and_getElem?_sub]
  constructor
  · rintro ⟨hle, hst⟩
    have hn : n = n - 1 + 1 := by
      have hle : 1 ≤ n := hle
      omega
    exact ⟨n - 1, hn, hst⟩
  · rintro ⟨i, rfl, hst⟩
    exact ⟨Nat.le_add_left 1 i, hst⟩

theorem Action.parse_eq_thread_iff {action topic : String} : Action.parse action = .thread topic ↔
    topic = action ∧ action ≠ "next" ∧ action ≠ "complete" := by
  unfold Action.parse
  split
  · next h => simp [h]
  · split
    · next h => simp [h]
    · next hnext hcomplete =>
      simp [hnext, hcomplete, eq_comm]

theorem Action.topic_eq {action topic : String} (h : Action.parse action = .thread topic) :
    topic = action :=
  (parse_eq_thread_iff.mp h).1

/-! ## When something is found -/

/-- What is found at an option: a pattern that cannot be compiled, a kind that is not known, or no
pattern, the latter two unless it is a default. -/
theorem CollectOption.finding?_eq_some_iff {engine : PatternEngine} {topic : String} {n : Nat}
    {o : CollectOption} {f : Finding} : o.finding? engine topic n = some f ↔
      (∃ pattern reason, o.pattern = some pattern ∧ o.kind = some .regex ∧
        engine.compile pattern = .error reason ∧ f = .badPattern topic n pattern reason) ∨
      (o.pattern.isSome ∧ o.kind = some .other ∧ o.isDefault = false ∧ f = .unknownKind topic n) ∨
      (o.pattern = none ∧ o.isDefault = false ∧ f = .noPattern topic n o.action) := by
  obtain ⟨isDefault, kind, pattern, action⟩ := o
  unfold CollectOption.finding?
  cases pattern with
  | none => cases isDefault <;> simp [eq_comm]
  | some pattern =>
      rcases kind with _ | _ | _ | _
      · simp
      · simp
      · cases hc : engine.compile pattern with
        | ok test => simp [hc]
        | error reason => simp [hc, eq_comm]
      · cases isDefault <;> simp [eq_comm]

namespace Document

variable {engine : PatternEngine} {d : Document} {f : Finding}

/-- The topics to which the jumps of a document lead from the start. -/
def reached (d : Document) : List String :=
  Reachability.reachableFrom defaultTopic (.ofEdges d.jumps)

/-- A step of a thread of the document, which has the number `i + 1` there. -/
structure HasStep (d : Document) (t : Thread) (i : Nat) (st : Step) : Prop where
  thread : t ∈ d.threads
  step : t.steps[i]? = some st

/-- When something is found in a document. -/
inductive Found (engine : PatternEngine) (d : Document) : Finding → Prop
  | repeatedTopic {topic : String} : topic ∈ repeats [] d.topics →
      Found engine d (.repeatedTopic topic)
  | noStart : defaultTopic ∉ d.topics → Found engine d .noStart
  | badPattern {t : Thread} {i : Nat} {st : Step} {o : CollectOption} {pattern reason : String} :
      d.HasStep t i st → o ∈ st.options → o.pattern = some pattern → o.kind = some .regex →
      engine.compile pattern = .error reason →
      Found engine d (.badPattern t.topic (i + 1) pattern reason)
  | unknownKind {t : Thread} {i : Nat} {st : Step} {o : CollectOption} :
      d.HasStep t i st → o ∈ st.options → o.pattern.isSome → o.kind = some .other →
      o.isDefault = false → Found engine d (.unknownKind t.topic (i + 1))
  | noPattern {t : Thread} {i : Nat} {st : Step} {o : CollectOption} :
      d.HasStep t i st → o ∈ st.options → o.pattern = none → o.isDefault = false →
      Found engine d (.noPattern t.topic (i + 1) o.action)
  | unknownTarget {t : Thread} {i : Nat} {st : Step} {target : String} :
      d.HasStep t i st → st.Names target → target ≠ "" → Action.parse target = .thread target →
      target ∉ d.topics → Found engine d (.unknownTarget t.topic (i + 1) target)
  | unreachable {topic : String} : defaultTopic ∈ d.topics → topic ∈ d.topics →
      topic ∉ d.reached → Found engine d (.unreachable topic)

theorem mem_optionFindings {t : Thread} {f : Finding} : f ∈ t.optionFindings engine ↔
    ∃ x ∈ t.numbered, ∃ o ∈ x.1.options, o.finding? engine t.topic x.2 = some f := by
  simp [Thread.optionFindings]

theorem mem_optionFindings_iff_found {t : Thread} (ht : t ∈ d.threads) :
    f ∈ t.optionFindings engine ↔ ∃ i st o, d.HasStep t i st ∧ o ∈ st.options ∧
      o.finding? engine t.topic (i + 1) = some f := by
  rw [mem_optionFindings]
  constructor
  · rintro ⟨⟨st, n⟩, hn, o, ho, hf⟩
    obtain ⟨i, rfl, hst⟩ := Thread.mem_numbered_iff.mp hn
    exact ⟨i, st, o, ⟨ht, hst⟩, ho, hf⟩
  · rintro ⟨i, st, o, ⟨-, hst⟩, ho, hf⟩
    exact ⟨(st, i + 1), Thread.mem_numbered_iff.mpr ⟨i, rfl, hst⟩, o, ho, hf⟩

theorem mem_actionFindings_iff {t : Thread} (ht : t ∈ d.threads) :
    f ∈ t.actionFindings d.topics ↔ ∃ i st target, d.HasStep t i st ∧ st.Names target ∧
      target ≠ "" ∧ Action.parse target = .thread target ∧ target ∉ d.topics ∧
      f = .unknownTarget t.topic (i + 1) target := by
  constructor
  · intro h
    obtain ⟨⟨n, action⟩, haction, hf⟩ := List.mem_filterMap.mp h
    obtain ⟨⟨st, m⟩, hm, hnumbered⟩ := List.mem_flatMap.mp haction
    obtain ⟨action', hmem, heq⟩ := List.mem_map.mp hnumbered
    cases heq
    obtain ⟨i, rfl, hst⟩ := Thread.mem_numbered_iff.mp hm
    obtain ⟨hnames, hne⟩ := Step.mem_actions_iff.mp hmem
    dsimp only at hf
    split at hf
    · next target hparse =>
      obtain rfl := Action.topic_eq hparse
      split at hf
      · cases hf
      · next hunknown =>
        cases hf
        exact ⟨i, st, target, ⟨ht, hst⟩, hnames, hne, hparse, hunknown, rfl⟩
    · cases hf
  · rintro ⟨i, st, target, ⟨-, hst⟩, hnames, hne, hparse, hunknown, rfl⟩
    refine List.mem_filterMap.mpr ⟨(i + 1, target), ?_, by simp [hparse, hunknown]⟩
    have hnumbered : (st, i + 1) ∈ t.numbered := Thread.mem_numbered_iff.mpr ⟨i, rfl, hst⟩
    have hmem : target ∈ st.actions := Step.mem_actions_iff.mpr ⟨hnames, hne⟩
    exact List.mem_flatMap.mpr ⟨(st, i + 1), hnumbered, List.mem_map_of_mem hmem⟩

theorem mem_unreachable_iff :
    f ∈ d.unreachable ↔ ∃ topic ∈ d.topics, topic ∉ d.reached ∧ f = .unreachable topic := by
  simp only [unreachable, reached, List.mem_filterMap]
  refine exists_congr fun topic => and_congr_right fun _ => ?_
  split
  · next h => simp [h]
  · next h => simp [h, eq_comm]

/-- The check of a document finds just what there is to be found. -/
theorem mem_findings_iff_found : f ∈ d.findings engine ↔ d.Found engine f := by
  have hparts : f ∈ d.findings engine ↔
      (∃ topic ∈ repeats [] d.topics, f = .repeatedTopic topic) ∨
        (defaultTopic ∉ d.topics ∧ f = .noStart) ∨
        (∃ t ∈ d.threads, f ∈ t.optionFindings engine ∨ f ∈ t.actionFindings d.topics) ∨
        (defaultTopic ∈ d.topics ∧ f ∈ d.unreachable) := by
    by_cases hstart : defaultTopic ∈ d.topics <;> simp [findings, hstart, eq_comm (a := f)]
  rw [hparts]
  constructor
  · rintro (⟨topic, hmem, rfl⟩ | ⟨hstart, rfl⟩ | ⟨t, ht, hmem | hmem⟩ | ⟨hstart, hmem⟩)
    · exact .repeatedTopic hmem
    · exact .noStart hstart
    · obtain ⟨i, st, o, hst, ho, hf⟩ := (mem_optionFindings_iff_found ht).mp hmem
      rcases CollectOption.finding?_eq_some_iff.mp hf with ⟨pattern, reason, hp, hk, hc, rfl⟩ |
        ⟨hp, hk, hdefault, rfl⟩ | ⟨hp, hdefault, rfl⟩
      · exact .badPattern hst ho hp hk hc
      · exact .unknownKind hst ho hp hk hdefault
      · exact .noPattern hst ho hp hdefault
    · obtain ⟨i, st, target, hst, hnames, hne, hparse, hunknown, rfl⟩ :=
        (mem_actionFindings_iff ht).mp hmem
      exact .unknownTarget hst hnames hne hparse hunknown
    · obtain ⟨topic, htopic, hreached, rfl⟩ := mem_unreachable_iff.mp hmem
      exact .unreachable hstart htopic hreached
  · -- Each kind of finding comes from one part of the check.
    have hoption : ∀ {t : Thread} {i : Nat} {st : Step} {o : CollectOption}, d.HasStep t i st →
        o ∈ st.options → o.finding? engine t.topic (i + 1) = some f →
        ∃ t ∈ d.threads, f ∈ t.optionFindings engine ∨ f ∈ t.actionFindings d.topics :=
      fun hst ho hf => ⟨_, hst.thread, .inl
        ((mem_optionFindings_iff_found hst.thread).mpr ⟨_, _, _, hst, ho, hf⟩)⟩
    intro h
    cases h with
    | repeatedTopic hmem => exact .inl ⟨_, hmem, rfl⟩
    | noStart hstart => exact .inr (.inl ⟨hstart, rfl⟩)
    | badPattern hst ho hp hk hc =>
        exact .inr (.inr (.inl (hoption hst ho (CollectOption.finding?_eq_some_iff.mpr
          (.inl ⟨_, _, hp, hk, hc, rfl⟩)))))
    | unknownKind hst ho hp hk hdefault =>
        exact .inr (.inr (.inl (hoption hst ho (CollectOption.finding?_eq_some_iff.mpr
          (.inr (.inl ⟨hp, hk, hdefault, rfl⟩))))))
    | noPattern hst ho hp hdefault =>
        exact .inr (.inr (.inl (hoption hst ho (CollectOption.finding?_eq_some_iff.mpr
          (.inr (.inr ⟨hp, hdefault, rfl⟩))))))
    | unknownTarget hst hnames hne hparse hunknown =>
        exact .inr (.inr (.inl ⟨_, hst.thread, .inr ((mem_actionFindings_iff hst.thread).mpr
          ⟨_, _, _, hst, hnames, hne, hparse, hunknown, rfl⟩)⟩))
    | unreachable hstart htopic hreached =>
        exact .inr (.inr (.inr ⟨hstart, mem_unreachable_iff.mpr ⟨_, htopic, hreached, rfl⟩⟩))

/-- What there is to be found is shown, and nothing else. -/
theorem diagnostic_mem_analyze : f.diagnostic ∈ d.analyze engine ↔ d.Found engine f := by
  rw [analyze, List.mem_map_of_injective Finding.diagnostic_injective, mem_findings_iff_found]

end Document

end Dialogue
