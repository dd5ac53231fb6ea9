import Mathlib.Data.List.Nodup
import Dialogue.Proofs.Run.Choice
import Dialogue.Proofs.Script.Findings
/-!
# Options that are never taken

An option that is no default is dead when it has no pattern, or when its kind is none by which a
pattern is compared with a text. The check of a script warns of options without a pattern and of
options whose kind is not known. An option may also have a pattern and no kind at all; it is just as
dead, and the check passes over it.

* `CollectOption.isDead_iff` — dead options are those that a search passes over, whatever the text.
* `Document.optionWarnings_eq` — which options of a step are warned of.
* `Document.dead_options_reported_iff` — all dead options of a step are, just when each of them that
  has a pattern has a kind.
-/

namespace Dialogue

/-! ## Dead options -/

namespace CollectOption

/-- The option is no default, and it has no pattern or no kind by which a pattern is compared. -/
def IsDead (o : CollectOption) : Prop :=
  o.isDefault = false ∧ (o.pattern = none ∨ (o.kind ≠ some .string ∧ o.kind ≠ some .regex))

/-- The option is no default, and has a pattern without a kind. -/
def IsUntyped (o : CollectOption) : Prop :=
  o.isDefault = false ∧ o.pattern.isSome ∧ o.kind = none

instance (o : CollectOption) : Decidable o.IsDead := inferInstanceAs (Decidable (_ ∧ _))

instance (o : CollectOption) : Decidable o.IsUntyped := inferInstanceAs (Decidable (_ ∧ _))

variable {o : CollectOption}

theorem IsUntyped.isDead (h : o.IsUntyped) : o.IsDead := by
  obtain ⟨hdefault, -, hkind⟩ := h
  exact ⟨hdefault, .inr (by simp [hkind])⟩

/-- Some text fits the pattern of an option with a kind by which patterns are compared, when the
engine lets every text match. -/
theorem exists_fits {pattern : String} (hp : o.pattern = some pattern)
    (hk : o.kind = some .string ∨ o.kind = some .regex) :
    ∃ engine text, o.Fits engine text := by
  refine ⟨⟨fun _ => .ok fun _ => true⟩, pattern, pattern, hp, ?_⟩
  rcases hk with hk | hk
  · exact .inl ⟨hk, rfl⟩
  · exact .inr ⟨hk, _, rfl, rfl⟩

/-- An option is dead when it is no default and every search for a text passes over it. -/
theorem isDead_iff : o.IsDead ↔ o.isDefault = false ∧ ∀ (scene : Scene) text options,
    scene.firstMatch text (o :: options) = scene.firstMatch text options := by
  refine and_congr_right fun _ => ⟨fun h scene text options => ?_, fun h => ?_⟩
  · rw [Scene.firstMatch]
    split
    · next hp hk => simp [hp, hk] at h
    · next hp hk => simp [hp, hk] at h
    · rfl
  · by_contra hlive
    push Not at hlive
    obtain ⟨hp, hk⟩ := hlive
    obtain ⟨pattern, hp⟩ := Option.ne_none_iff_exists'.mp hp
    have hk : o.kind = some .string ∨ o.kind = some .regex :=
      (em (o.kind = some .string)).imp_right hk
    obtain ⟨engine, text, hfits⟩ := exists_fits hp hk
    -- A search among this option alone finds it, and a search among none finds nothing.
    let scene : Scene :=
      ⟨⟨[⟨defaultTopic, []⟩], by decide, by decide⟩, engine, ⟨false, false, false⟩⟩
    have hfound := h scene text []
    rw [Scene.firstMatch_of_fits (show o.Fits scene.engine text from hfits)] at hfound
    cases hfound

/-- Does the check warn of the option? -/
def IsReported (o : CollectOption) : Prop := o.IsDead ∧ ¬o.IsUntyped

instance (o : CollectOption) : Decidable o.IsReported := inferInstanceAs (Decidable (_ ∧ _))

theorem isReported_iff : o.IsReported ↔
    o.isDefault = false ∧ (o.pattern = none ∨ o.kind = some .other) := by
  obtain ⟨isDefault, kind, pattern, action⟩ := o
  cases pattern <;> rcases kind with _ | _ | _ | _ <;> simp [IsReported, IsDead, IsUntyped]

/-- What the check says of an option. -/
def warning (topic : String) (n : Nat) (o : CollectOption) : Finding :=
  if o.pattern = none then .noPattern topic n o.action else .unknownKind topic n

/-- A dead option is warned of, unless it has a pattern without a kind. -/
theorem countP_isDead (options : List CollectOption) : options.countP (·.IsDead) =
    options.countP (·.IsReported) + options.countP (·.IsUntyped) := by
  induction options with
  | nil => rfl
  | cons o options ih =>
      have hone : (if o.IsDead then 1 else 0) =
          (if o.IsReported then 1 else 0) + (if o.IsUntyped then 1 else 0) := by
        by_cases huntyped : o.IsUntyped
        · simp [IsReported, huntyped, huntyped.isDead]
        · simp [IsReported, huntyped]
      simp only [List.countP_cons, decide_eq_true_eq]
      omega

end CollectOption

/-! ## Warnings of options -/

/-- The words for an option whose kind is not known. -/
def Diagnostic.unknownKindWords : String := "选项的匹配类型不受支持，永远不会匹配"

/-- The words in front of the action of an option without a pattern. -/
def Diagnostic.noPatternWords : String := "选项没有匹配模式: -> "

/-- Is it a warning of an option, that its kind is not known or that it has no pattern? -/
def Diagnostic.warnsOfOption (g : Diagnostic) : Bool :=
  g.level = .warn &&
    (g.message = unknownKindWords || noPatternWords.toList.isPrefixOf g.message.toList)

theorem Diagnostic.warnsOfOption_iff {g : Diagnostic} : g.warnsOfOption = true ↔
    g.level = .warn ∧
      (g.message = unknownKindWords ∨ noPatternWords.toList <+: g.message.toList) := by
  simp [warnsOfOption]

namespace Finding

/-- Is it found at an option that its kind is not known or that it has no pattern? -/
def isOption : Finding → Bool
  | .unknownKind _ _ | .noPattern _ _ _ => true
  | _ => false

/-- The words of a warning tell whether it is about an option. -/
theorem warnsOfOption_diagnostic (f : Finding) : f.diagnostic.warnsOfOption = f.isOption := by
  rw [Bool.eq_iff_iff, Diagnostic.warnsOfOption_iff]
  cases f with
  | repeatedTopic | noStart | badPattern | unreachable =>
      refine iff_of_false ?_ Bool.false_ne_true
      rintro ⟨⟨⟩, -⟩
  | unknownKind topic n => exact iff_of_true ⟨rfl, .inl rfl⟩ rfl
  | noPattern topic n action =>
      refine iff_of_true ⟨rfl, .inr ⟨action.toList, ?_⟩⟩ rfl
      exact String.toList_append.symm
  | unknownTarget topic n target =>
      refine iff_of_false ?_ Bool.false_ne_true
      have hfirst := first_unknownTarget topic n target
      rintro ⟨-, h | ⟨rest, h⟩⟩
      · rw [show (unknownTarget topic n target).message = _ from h] at hfirst
        revert hfirst
        decide
      · rw [show (unknownTarget topic n target).message.toList = _ from h.symm,
          List.getElem?_append_left (by decide)] at hfirst
        revert hfirst
        decide

end Finding

/-- What is made of the elements of a list comes from one of them, when it has a key of its own and
those with other keys add nothing. -/
theorem flatMap_eq_of_key {α β κ : Type} {key : α → κ} {f : α → List β} {xs : List α} {x : α}
    (hnodup : (xs.map key).Nodup) (hx : x ∈ xs) (hf : ∀ y ∈ xs, key y ≠ key x → f y = []) :
    xs.flatMap f = f x := by
  obtain ⟨before, after, rfl⟩ := List.append_of_mem hx
  rw [List.map_append, List.map_cons, List.nodup_middle, List.nodup_cons] at hnodup
  have hother : ∀ y ∈ before ++ after, f y = [] := by
    intro y hy
    refine hf y (by simpa using List.mem_append.mp hy |>.imp_right .inr) fun hkey => ?_
    apply hnodup.1
    rw [← hkey, ← List.map_append]
    exact List.mem_map_of_mem hy
  rw [List.flatMap_append, List.flatMap_cons,
    List.flatMap_eq_nil_iff.mpr fun y hy => hother y (List.mem_append_left _ hy),
    List.flatMap_eq_nil_iff.mpr fun y hy => hother y (List.mem_append_right _ hy),
    List.nil_append, List.append_nil]

namespace Document

variable {engine : PatternEngine} {d : Document} {t : Thread} {i : Nat} {st : Step}

/-- The warnings of options at a place. -/
def optionWarnings (engine : PatternEngine) (d : Document) (p : Place) : List Diagnostic :=
  (d.analyze engine).filter fun g => g.warnsOfOption && g.place = some p

/-- Is it found at an option of the place? -/
def isOptionAt (p : Place) (f : Finding) : Bool := f.isOption && f.place = some p

theorem optionWarnings_eq_map (p : Place) : d.optionWarnings engine p =
    ((d.findings engine).filter (isOptionAt p)).map Finding.diagnostic := by
  rw [optionWarnings, analyze, List.filter_map]
  congr 1
  refine List.filter_congr fun f _ => ?_
  show (f.diagnostic.warnsOfOption && _) = _
  rw [f.warnsOfOption_diagnostic]
  rfl

theorem filter_eq_nil_of_not_isOption {p : Place} {fs : List Finding}
    (h : ∀ f ∈ fs, f.isOption = false) : fs.filter (isOptionAt p) = [] := by
  refine List.filter_eq_nil_iff.mpr fun f hf => ?_
  simp [isOptionAt, h f hf]

/-- Findings of options at a place come from the threads. -/
theorem filter_findings (p : Place) : (d.findings engine).filter (isOptionAt p) =
    d.threads.flatMap fun t => (t.optionFindings engine).filter (isOptionAt p) := by
  have hrepeats : ((repeats [] d.topics).map Finding.repeatedTopic).filter (isOptionAt p) = [] :=
    filter_eq_nil_of_not_isOption fun f hf => by
      obtain ⟨topic, -, rfl⟩ := List.mem_map.mp hf
      rfl
  have hstart : (if defaultTopic ∈ d.topics then [] else [Finding.noStart]).filter
      (isOptionAt p) = [] :=
    filter_eq_nil_of_not_isOption fun f hf => by
      split at hf
      · cases hf
      · obtain rfl := List.mem_singleton.mp hf
        rfl
  have hunreachable : (if defaultTopic ∈ d.topics then d.unreachable else []).filter
      (isOptionAt p) = [] :=
    filter_eq_nil_of_not_isOption fun f hf => by
      split at hf
      · obtain ⟨topic, -, -, rfl⟩ := mem_unreachable_iff.mp hf
        rfl
      · cases hf
  rw [findings, List.filter_append, List.filter_append, List.filter_append, hrepeats, hstart,
    hunreachable, List.nil_append, List.nil_append, List.append_nil, List.filter_flatMap,
    List.flatMap_def, List.flatMap_def]
  refine congrArg List.flatten (List.map_congr_left fun t ht => ?_)
  have hactions : (t.actionFindings d.topics).filter (isOptionAt p) = [] :=
    filter_eq_nil_of_not_isOption fun f hf => by
      obtain ⟨_, _, _, -, -, -, -, -, rfl⟩ := (mem_actionFindings_iff ht).mp hf
      rfl
  rw [List.filter_append, hactions, List.append_nil]

theorem place_of_finding? {topic : String} {n : Nat} {o : CollectOption} {f : Finding}
    (h : o.finding? engine topic n = some f) : f.place = some ⟨topic, some n⟩ := by
  rcases CollectOption.finding?_eq_some_iff.mp h with ⟨_, _, -, -, -, rfl⟩ | ⟨-, -, -, rfl⟩ |
    ⟨-, -, rfl⟩ <;> rfl

/-- At another place nothing is found of an option. -/
theorem filter_optionFindings_eq_nil {topic : String} {n : Nat} {p : Place}
    (hp : p ≠ ⟨topic, some n⟩) (options : List CollectOption) :
    (options.filterMap (CollectOption.finding? engine topic n)).filter (isOptionAt p) = [] := by
  refine List.filter_eq_nil_iff.mpr fun f hf => ?_
  obtain ⟨o, -, ho⟩ := List.mem_filterMap.mp hf
  simp [isOptionAt, place_of_finding? ho, hp.symm]

/-- What is found of the options of a step at its own place. -/
theorem filter_optionFindings (topic : String) (n : Nat) (options : List CollectOption) :
    (options.filterMap (CollectOption.finding? engine topic n)).filter
      (isOptionAt ⟨topic, some n⟩) =
    (options.filter (·.IsReported)).map (CollectOption.warning topic n) := by
  rw [List.filter_filterMap, ← List.filterMap_eq_map, List.filterMap_filter]
  refine List.filterMap_congr fun o _ => ?_
  show _ = if decide o.IsReported = true then some (o.warning topic n) else none
  simp only [decide_eq_true_eq, CollectOption.isReported_iff]
  obtain ⟨isDefault, kind, pattern, action⟩ := o
  cases pattern with
  | none => cases isDefault <;> simp [CollectOption.finding?, CollectOption.warning, isOptionAt,
      Finding.isOption, Finding.place]
  | some pattern =>
      rcases kind with _ | _ | _ | _
      · simp [CollectOption.finding?]
      · simp [CollectOption.finding?]
      · cases hc : engine.compile pattern <;>
          simp [CollectOption.finding?, hc, isOptionAt, Finding.isOption]
      · cases isDefault <;> simp [CollectOption.finding?, CollectOption.warning, isOptionAt,
          Finding.isOption, Finding.place]

/-- The warnings of options at the place of a step are those of its options that are reported. -/
theorem optionWarnings_eq (hd : d.topics.Nodup) (hst : d.HasStep t i st) :
    d.optionWarnings engine ⟨t.topic, some (i + 1)⟩ =
      (st.options.filter (·.IsReported)).map fun o =>
        (o.warning t.topic (i + 1)).diagnostic := by
  have hthread : (d.threads.flatMap fun t' =>
      (t'.optionFindings engine).filter (isOptionAt ⟨t.topic, some (i + 1)⟩)) =
      (t.optionFindings engine).filter (isOptionAt ⟨t.topic, some (i + 1)⟩) := by
    refine flatMap_eq_of_key hd hst.thread fun t' _ htopic => ?_
    rw [Thread.optionFindings, List.filter_flatMap]
    refine List.flatMap_eq_nil_iff.mpr fun x _ => filter_optionFindings_eq_nil ?_ _
    exact fun h => htopic (congrArg Place.topic h).symm
  have hnumbers : (t.numbered.map Prod.snd).Nodup := by
    rw [Thread.numbered, List.zipIdx_map_snd]
    exact List.nodup_range'
  rw [optionWarnings_eq_map, filter_findings, hthread, Thread.optionFindings,
    List.filter_flatMap, flatMap_eq_of_key hnumbers
      (Thread.mem_numbered_iff.mpr ⟨i, rfl, hst.step⟩)]
  · rw [filter_optionFindings, List.map_map]
    rfl
  · rintro ⟨st', n⟩ - hne
    refine filter_optionFindings_eq_nil ?_ _
    exact fun h => hne (Option.some.inj (congrArg Place.step h)).symm

/-- An option is dead when it is no default and every search passes over it. The warnings of options
at the place of a step are as many as its dead options just when none of these has a pattern without
a kind. They are always those of its other dead options, in their order, so no option that may be
taken is warned of. -/
theorem dead_options_reported_iff (engine : PatternEngine) (hd : d.topics.Nodup)
    (ht : t ∈ d.threads) (hst : t.steps[i]? = some st) :
    (∀ o : CollectOption, o.IsDead ↔ o.isDefault = false ∧ ∀ (scene : Scene) text options,
      scene.firstMatch text (o :: options) = scene.firstMatch text options) ∧
    ((d.optionWarnings engine ⟨t.topic, some (i + 1)⟩).length = st.options.countP (·.IsDead) ↔
      ∀ o ∈ st.options, ¬o.IsUntyped) ∧
    d.optionWarnings engine ⟨t.topic, some (i + 1)⟩ =
      (st.options.filter fun o => o.IsDead ∧ ¬o.IsUntyped).map fun o =>
        (o.warning t.topic (i + 1)).diagnostic := by
  have hwarnings := @optionWarnings_eq engine d t i st hd ⟨ht, hst⟩
  refine ⟨fun o => CollectOption.isDead_iff, ?_, hwarnings⟩
  rw [hwarnings, List.length_map, ← List.countP_eq_length_filter, CollectOption.countP_isDead]
  constructor
  · intro hcount
    have hnone : st.options.countP (·.IsUntyped) = 0 := by omega
    simpa using List.countP_eq_zero.mp hnone
  · intro hnone
    have hnone : st.options.countP (·.IsUntyped) = 0 :=
      List.countP_eq_zero.mpr (by simpa using hnone)
    rw [hnone, Nat.add_zero]

/-- A question whose options have a pattern that is compared, a kind that is not known, and no
pattern, and a default. -/
def fourOptions : Document :=
  ⟨[⟨defaultTopic, [Step.empty, { Step.empty with
      collect := some ⟨none, false, [.string "yes" "next", ⟨false, some .other, some "no", "next"⟩,
        ⟨false, some .regex, none, "complete"⟩, .fallback "next"]⟩ }]⟩]⟩

theorem dead_options_reported_iff_fourOptions :
    fourOptions.topics.Nodup ∧
      (fourOptions.optionWarnings .standard ⟨defaultTopic, some 2⟩).length = 2 := by
  have hd : fourOptions.topics.Nodup := by decide
  refine ⟨hd, ?_⟩
  exact (dead_options_reported_iff (i := 1) .standard hd List.mem_cons_self rfl).2.1.mpr (by decide)

/-- A question whose only option has a pattern without a kind. -/
def untypedOption : Document :=
  ⟨[⟨defaultTopic, [{ Step.empty with
      collect := some ⟨none, false, [⟨false, none, some "yes", "next"⟩]⟩ }]⟩]⟩

/-- The only option of the step is dead, and nothing is said of it. -/
theorem dead_option_passed_over :
    untypedOption.topics.Nodup ∧ ∃ t ∈ untypedOption.threads, ∃ st, t.steps[0]? = some st ∧
      (untypedOption.optionWarnings .standard ⟨t.topic, some 1⟩).length = 0 ∧
      st.options.countP (·.IsDead) = 1 := by
  have hd : untypedOption.topics.Nodup := by decide
  refine ⟨hd, _, List.mem_cons_self, _, rfl, ?_, by decide⟩
  rw [optionWarnings_eq (i := 0) hd ⟨List.mem_cons_self, rfl⟩]
  decide

end Document

end Dialogue
