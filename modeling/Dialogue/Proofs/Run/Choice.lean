import Dialogue.Proofs.Run.Outcomes
import Dialogue.Session.Client
/-!
# The option that is taken

A value that is collected is recorded, and told of, before the options are looked at. They are
looked at in order and no further than necessary: the first one that fits is taken, and a pattern
that the engine refuses is an error only when the search comes to it. When no option fits, the first
default is taken.

* `CollectOption.Fits`, `CollectOption.Refused` — what an option is to a text.
* `Scene.Selects` — what is done about the options, and how it comes out.
* `Scene.collect_takes_first_fitting` — collecting a value does that.
-/

namespace Dialogue

/-! ## Options and texts -/

namespace CollectOption

/-- The option has a pattern that fits the text: the text itself, or a regular expression that
matches it. Whether the option is a default does not matter. -/
def Fits (engine : PatternEngine) (text : String) (o : CollectOption) : Prop :=
  ∃ pattern, o.pattern = some pattern ∧
    (o.kind = some .string ∧ pattern = text ∨
      o.kind = some .regex ∧ ∃ test, engine.compile pattern = .ok test ∧ test text = true)

/-- The pattern of the option is to be a regular expression, and the engine refuses it. -/
def Refused (engine : PatternEngine) (e : ScriptError) (o : CollectOption) : Prop :=
  ∃ pattern reason, o.pattern = some pattern ∧ o.kind = some .regex ∧
    engine.compile pattern = .error reason ∧ e = .invalidPattern pattern reason

/-- The option neither fits the text nor has a pattern that the engine refuses. -/
def Passed (engine : PatternEngine) (text : String) (o : CollectOption) : Prop :=
  ¬ o.Fits engine text ∧ ∀ e, ¬ o.Refused engine e

variable {engine : PatternEngine} {text : String} {o : CollectOption} {e : ScriptError}

theorem Refused.not_fits (h : o.Refused engine e) : ¬ o.Fits engine text := by
  obtain ⟨pattern, reason, hp, hk, hc, -⟩ := h
  rintro ⟨pattern', hp', ⟨hk', -⟩ | ⟨-, test, hc', -⟩⟩
  · rw [hk] at hk'
    cases hk'
  · obtain rfl := Option.some.inj (hp.symm.trans hp')
    rw [hc] at hc'
    cases hc'

/-- Options are passed over up to the first one that fits or is refused. -/
theorem exists_first (engine : PatternEngine) (text : String) (options : List CollectOption) :
    (∀ x ∈ options, x.Passed engine text) ∨ ∃ before o after, options = before ++ o :: after ∧
      (∀ x ∈ before, x.Passed engine text) ∧ (o.Fits engine text ∨ ∃ e, o.Refused engine e) := by
  induction options with
  | nil => exact .inl (by simp)
  | cons o rest ih =>
      by_cases ho : o.Passed engine text
      · rcases ih with hrest | ⟨before, o', after, rfl, hbefore, ho'⟩
        · exact .inl (List.forall_mem_cons.mpr ⟨ho, hrest⟩)
        · exact .inr ⟨o :: before, o', after, rfl, List.forall_mem_cons.mpr ⟨ho, hbefore⟩, ho'⟩
      · refine .inr ⟨[], o, rest, rfl, by simp, ?_⟩
        by_contra hneither
        push Not at hneither
        exact ho hneither

end CollectOption

/-! ## Looking for an option -/

namespace Scene

variable {scene : Scene} {text : String} {o : CollectOption} {before rest : List CollectOption}
  {e : ScriptError}

theorem firstMatch_of_fits (h : o.Fits scene.engine text) :
    scene.firstMatch text (o :: rest) = .ok (some o) := by
  obtain ⟨pattern, hp, ⟨hk, rfl⟩ | ⟨hk, test, hc, ht⟩⟩ := h
  · simp [firstMatch, hp, hk]
  · simp [firstMatch, hp, hk, PatternEngine.test, hc, ht]

theorem firstMatch_of_refused (h : o.Refused scene.engine e) :
    scene.firstMatch text (o :: rest) = .error e := by
  obtain ⟨pattern, reason, hp, hk, hc, rfl⟩ := h
  simp [firstMatch, hp, hk, PatternEngine.test, hc]

theorem firstMatch_of_passed (h : o.Passed scene.engine text) :
    scene.firstMatch text (o :: rest) = scene.firstMatch text rest := by
  obtain ⟨hfits, hrefused⟩ := h
  rw [firstMatch]
  split
  · next pattern hp hk =>
    exact if_neg fun heq => hfits ⟨pattern, hp, .inl ⟨hk, heq⟩⟩
  · next pattern hp hk =>
    rw [PatternEngine.test]
    cases hc : scene.engine.compile pattern with
    | error reason => exact absurd ⟨pattern, reason, hp, hk, hc, rfl⟩ (hrefused _)
    | ok test =>
        dsimp only
        exact if_neg fun ht => hfits ⟨pattern, hp, .inr ⟨hk, test, hc, ht⟩⟩
  · rfl

theorem firstMatch_append (h : ∀ x ∈ before, x.Passed scene.engine text) :
    scene.firstMatch text (before ++ rest) = scene.firstMatch text rest := by
  induction before with
  | nil => rfl
  | cons x before ih =>
      obtain ⟨hx, hbefore⟩ := List.forall_mem_cons.mp h
      rw [List.cons_append, firstMatch_of_passed hx, ih hbefore]

theorem firstMatch_eq_none (h : ∀ x ∈ rest, x.Passed scene.engine text) :
    scene.firstMatch text rest = .ok none := by
  rw [← List.append_nil rest, firstMatch_append h]
  rfl

/-! ## Collecting a value -/

/-- What is done to record a value: it is entered under the key, and then it is told. Without a key
nothing is done. -/
def recording (scene : Scene) (key : Option String) (v : Json) : List Deed :=
  match key with
  | some key => .asked (.store key v) () ::
      if scene.callbacks.collected then [.asked (.collected key v) ()] else []
  | none => []

theorem mem_recording {key : Option String} {v : Json} {d : Deed}
    (h : d ∈ scene.recording key v) :
    ∃ name, d = .asked (.store name v) () ∨ d = .asked (.collected name v) () := by
  unfold recording at h
  cases key with
  | none => cases h
  | some name =>
      refine ⟨name, ?_⟩
      rcases List.mem_cons.mp h with rfl | h
      · exact .inl rfl
      · split at h
        · exact .inr (List.mem_singleton.mp h)
        · cases h

/-- What is done about the options for a text, and how it comes out. -/
inductive Selects (scene : Scene) (place : Option Place) (text : String)
    (options : List CollectOption) : List Deed → Except ChatError Bool → Prop
  /-- The first option that fits is taken. -/
  | fitting {before after : List CollectOption} {o : CollectOption} {t : List Deed}
      {r : Except ChatError Bool} :
      options = before ++ o :: after → (∀ x ∈ before, x.Passed scene.engine text) →
      o.Fits scene.engine text → (scene.act place o.action).Comes t r →
      Selects scene place text options t r
  /-- Before an option fits, the search comes to a pattern that the engine refuses. -/
  | refused {before after : List CollectOption} {o : CollectOption} {e : ScriptError} :
      options = before ++ o :: after → (∀ x ∈ before, x.Passed scene.engine text) →
      o.Refused scene.engine e → Selects scene place text options [] (.error (.script e))
  /-- No option fits, and the first default is taken. -/
  | default {before after : List CollectOption} {o : CollectOption} {t : List Deed}
      {r : Except ChatError Bool} :
      (∀ x ∈ options, x.Passed scene.engine text) → options = before ++ o :: after →
      (∀ x ∈ before, x.isDefault = false) → o.isDefault = true →
      (scene.act place o.action).Comes t r → Selects scene place text options t r
  /-- No option fits, and there is no default. -/
  | nothing : (∀ x ∈ options, x.Passed scene.engine text) → (∀ x ∈ options, x.isDefault = false) →
      Selects scene place text options [] (.ok false)

open Activity

variable {place : Option Place} {options : List CollectOption} {t : List Deed}

theorem comes_storeValue_iff {key : Option String} {v : Json} {r : Except ChatError Unit} :
    (scene.storeValue key v).Comes t r ↔ t = scene.recording key v ∧ r = .ok () := by
  unfold storeValue recording
  cases key with
  | none => exact comes_done_iff
  | some key =>
      refine (comes_request_bind_iff (by simp)).trans ?_
      cases scene.callbacks.collected with
      | false =>
          constructor
          · rintro ⟨⟨⟩, t', rfl, h⟩
            obtain ⟨rfl, rfl⟩ := comes_done_iff.mp h
            exact ⟨rfl, rfl⟩
          · rintro ⟨rfl, rfl⟩
            exact ⟨(), [], rfl, .done ()⟩
      | true =>
          constructor
          · rintro ⟨⟨⟩, t', rfl, htold⟩
            obtain ⟨⟨⟩, t'', rfl, hdone⟩ := (comes_ask_iff (by simp)).mp htold
            obtain ⟨rfl, rfl⟩ := comes_done_iff.mp hdone
            exact ⟨rfl, rfl⟩
          · rintro ⟨rfl, rfl⟩
            exact ⟨(), _, rfl, .asked (q := .collected key v) () (by simp) (.done ())⟩

/-- What follows when an option was looked for. -/
theorem comes_chosen_iff {r : Except ChatError Bool} :
    (match scene.chosen text options with
      | .ok (some o) => scene.act place o.action
      | .ok none => return false
      | .error e => .fail (.script e)).Comes t r ↔ scene.Selects place text options t r := by
  have hchosen : scene.chosen text options = match scene.firstMatch text options with
    | .ok (some o) => .ok (some o)
    | .ok none => .ok (options.find? (·.isDefault))
    | .error e => .error e := rfl
  constructor
  · intro h
    -- The first option that is not passed over decides, and the defaults do only without one.
    rcases CollectOption.exists_first scene.engine text options with hall |
      ⟨before, o, after, rfl, hbefore, hfits | ⟨e, hrefused⟩⟩
    · rw [hchosen, firstMatch_eq_none hall] at h
      dsimp only at h
      split at h
      · next o ho =>
        obtain ⟨hdefault, before, after, rfl, hbefore⟩ :=
          List.find?_eq_some_iff_append.mp (Except.ok.inj ho)
        exact .default hall rfl (by simpa using hbefore) hdefault h
      · next hnone =>
        obtain ⟨rfl, rfl⟩ := comes_done_iff.mp h
        exact .nothing hall (by simpa using List.find?_eq_none.mp (Except.ok.inj hnone))
      · next he => cases he
    · rw [hchosen, firstMatch_append hbefore, firstMatch_of_fits hfits] at h
      exact .fitting rfl hbefore hfits h
    · rw [hchosen, firstMatch_append hbefore, firstMatch_of_refused hrefused] at h
      obtain ⟨rfl, rfl⟩ := comes_fail_iff.mp h
      exact .refused rfl hbefore hrefused
  · intro h
    rw [hchosen]
    cases h with
    | fitting hoptions hbefore hfits hact =>
        rw [hoptions, firstMatch_append hbefore, firstMatch_of_fits hfits]
        exact hact
    | refused hoptions hbefore hrefused =>
        rw [hoptions, firstMatch_append hbefore, firstMatch_of_refused hrefused]
        exact .fail _
    | @default before after o t r hall hoptions hbefore hdefault hact =>
        have hfind : options.find? (·.isDefault) = some o :=
          List.find?_eq_some_iff_append.mpr
            ⟨hdefault, before, after, hoptions, by simpa using hbefore⟩
        rw [firstMatch_eq_none hall, hfind]
        exact hact
    | nothing hall hnone =>
        rw [firstMatch_eq_none hall, List.find?_eq_none.mpr (by simpa using hnone)]
        exact .done false

theorem comes_act {action : String} {r : Except ChatError Bool}
    (h : (scene.act place action).Comes t r) : .asked (.acting place action) () ∈ t := by
  obtain ⟨⟨⟩, t', rfl, -⟩ := (comes_request_bind_iff (by simp)).mp h
  exact List.mem_cons_self

/-- An option that is refused stands before all that fit. -/
def RefusedFirst (scene : Scene) (text : String) (options : List CollectOption) : Prop :=
  ∃ before o after e, options = before ++ o :: after ∧
    (∀ x ∈ before, ¬ x.Fits scene.engine text) ∧ o.Refused scene.engine e

/-- The search fails by itself just when a pattern is refused before an option fits. Any other
failure is that of an action that was taken. -/
theorem Selects.refused_iff {r : Except ChatError Bool} (h : scene.Selects place text options t r) :
    ((∃ pattern reason, r = .error (.script (.invalidPattern pattern reason))) ∧
      ∀ p action, .asked (.acting p action) () ∉ t) ↔ scene.RefusedFirst text options := by
  have hpassed : (∀ x ∈ options, x.Passed scene.engine text) →
      ¬ scene.RefusedFirst text options := by
    rintro hall ⟨before, o, after, e, rfl, -, hrefused⟩
    exact (hall o (by simp)).2 e hrefused
  cases h with
  | fitting hoptions hbefore hfits hact =>
      refine iff_of_false (fun hself => hself.2 _ _ (comes_act hact)) ?_
      rintro ⟨before', o', after', e, hoptions', hbefore', hrefused⟩
      -- The option that is refused stands at the one that fits, in front of it, or behind it.
      rw [hoptions] at hoptions'
      rcases List.append_eq_append_iff.mp hoptions' with ⟨more, rfl, hmore⟩ | ⟨more, rfl, hmore⟩
      · cases more with
        | nil =>
            cases hmore
            exact hrefused.not_fits hfits
        | cons x more =>
            cases hmore
            exact hbefore' _ (by simp) hfits
      · cases more with
        | nil =>
            cases hmore
            exact hrefused.not_fits hfits
        | cons x more =>
            cases hmore
            exact (hbefore _ (by simp)).2 e hrefused
  | refused hoptions hbefore hrefused =>
      refine iff_of_true ⟨?_, by simp⟩
        ⟨_, _, _, _, hoptions, fun x hx => (hbefore x hx).1, hrefused⟩
      obtain ⟨pattern, reason, -, -, -, rfl⟩ := hrefused
      exact ⟨pattern, reason, rfl⟩
  | default hall _ _ _ hact =>
      exact iff_of_false (fun hself => hself.2 _ _ (comes_act hact)) (hpassed hall)
  | nothing hall _ =>
      refine iff_of_false ?_ (hpassed hall)
      rintro ⟨⟨pattern, reason, hr⟩, -⟩
      cases hr

/-- In a session a value that is recorded is the value under its key from then on. -/
theorem get?_of_answer_store {s : Session} {ctx : RunContext} (n : Nat) (name : String) (v : Json)
    (k : Unit → Run) (hrecord : ctx.record < s.records.length) :
    ((s.answer n ctx (.store name v) k).1.recordAt ctx.record).get? name = some v := by
  show ((s.setRecord ctx.record ((s.recordAt ctx.record).set name v)).recordAt
    ctx.record).get? name = some v
  rw [Session.setRecord, Session.recordAt, List.getElem?_set_self hrecord, Option.getD_some,
    Record.get?, Record.set, Entries.get?_insert, if_pos rfl]

/-- To collect a value is to record it, which makes it the value under the key, and to tell of it,
and then to take the first option that fits, or else the first default. Nothing is taken, and the
pattern is the error, when one is refused before an option fits; and there is no other way in which
the search itself fails. -/
theorem collect_takes_first_fitting (scene : Scene) (place : Option Place) (c : Collect)
    (key : Option String) (v : Json) :
    (∀ t r, (scene.collect place c key v).Comes t r ↔ ∃ t',
      t = scene.recording key v ++ t' ∧ scene.Selects place v.text c.options t' r) ∧
    (∀ t r, (scene.collect place c key v).Comes t r →
      (((∃ pattern reason, r = .error (.script (.invalidPattern pattern reason))) ∧
        ∀ p action, .asked (.acting p action) () ∉ t) ↔ scene.RefusedFirst v.text c.options)) ∧
    ∀ (s : Session) (n : Nat) (ctx : RunContext) (name : String) (k : Unit → Run),
      ctx.record < s.records.length →
        ((s.answer n ctx (.store name v) k).1.recordAt ctx.record).get? name = some v := by
  have hcomes : ∀ t r, (scene.collect place c key v).Comes t r ↔ ∃ t',
      t = scene.recording key v ++ t' ∧ scene.Selects place v.text c.options t' r := by
    intro t r
    unfold collect
    rw [comes_bind_iff]
    constructor
    · rintro (⟨e, he, -⟩ | ⟨t₁, u, t₂, rfl, hstore, hrest⟩)
      · cases (comes_storeValue_iff.mp he).2
      · obtain ⟨rfl, -⟩ := comes_storeValue_iff.mp hstore
        exact ⟨t₂, rfl, comes_chosen_iff.mp hrest⟩
    · rintro ⟨t', rfl, hselects⟩
      exact .inr ⟨_, (), t', rfl, comes_storeValue_iff.mpr ⟨rfl, rfl⟩,
        comes_chosen_iff.mpr hselects⟩
  refine ⟨hcomes, fun t r h => ?_, fun s n ctx name k => get?_of_answer_store n name v k⟩
  obtain ⟨t', rfl, hselects⟩ := (hcomes t r).mp h
  rw [← hselects.refused_iff]
  have hrecording : ∀ p action, .asked (.acting p action) () ∉ scene.recording key v := by
    intro p action hmem
    obtain ⟨name, heq | heq⟩ := mem_recording hmem <;> cases heq
  simp [hrecording]

end Scene

end Dialogue
