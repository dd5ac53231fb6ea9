import Dialogue.Proofs.Run.Agenda
import Dialogue.Proofs.Run.Asking
import Dialogue.Proofs.Run.Choice
/-!
# What the callbacks are told

A host is told of events and of values that were collected. Events are fired when the quick replies
of a step were offered and one was answered, and a value is told of when it was recorded. There are
no other occasions, neither in a step nor between the steps of all the threads of a run.

* `Scene.events` — the events that belong to an answer.
* `Scene.Informs` — which callbacks are called among the deeds of a step, and where.
* `Scene.informs_of_leaves` — a step calls them so.
* `Scene.callbacks_on_occasion` — so do all courses of a run.
-/

namespace Dialogue

/-- Is a callback for events or for values called? -/
def Request.isTold : Request → Bool
  | .fired _ | .collected _ _ => true
  | _ => false

/-- Nothing is left to do but what a thread does that is entered now, if there is one. -/
def Activity.IsOver {α : Type} : Activity α → Prop
  | .ask (.enter _) _ => True
  | .ask _ _ => False
  | _ => True

namespace Scene

/-- The events that belong to an answer, in the order of the meta entries. -/
def events (scene : Scene) (st : Step) (v : Json) : List Deed :=
  if scene.callbacks.fired then
    ((st.metaEntries.getD []).filter fun e => e.key = "on:" ++ v.text).map fun e =>
      .asked (.fired e.value) ()
  else []

/-- The callbacks that are called among the deeds of a step, of which something may be left. -/
structure Informs (scene : Scene) (st : Step) (own : List Deed) (left : Activity Bool) : Prop where
  /-- When quick replies were offered and answered, the events of the answer are fired at once. -/
  fires : ∀ before items u v after,
    own = before ++ .asked (.offer items) u :: .asked .input (.ok v) :: after →
    scene.events st v <+: after ∨ after <+: scene.events st v ∧ ¬ left.IsOver
  /-- An event is one of those that are fired then. -/
  firesOnly : ∀ before e u after, own = before ++ .asked (.fired e) u :: after →
    ∃ earlier items u' v fired,
      before = earlier ++ .asked (.offer items) u' :: .asked .input (.ok v) :: fired ∧
      fired ++ [.asked (.fired e) u] <+: scene.events st v
  /-- When the step has come to a value that has a key, it is not `null`; it is recorded at once,
  and then it is told. -/
  tells : ∀ before v after key, own = before ++ after →
    (scene.stepValue st).Leaves before (.done (some v)) → st.collectKey = some key →
    v ≠ .null ∧ (scene.recording (some key) v <+: after ∨
      after <+: scene.recording (some key) v ∧ ¬ left.IsOver)
  /-- A value that is told is that value, and it has been recorded. -/
  tellsOnly : ∀ before key v u after, own = before ++ .asked (.collected key v) u :: after →
    ∃ earlier, before = earlier ++ [.asked (.store key v) ()] ∧ st.collectKey = some key ∧
      (scene.stepValue st).Leaves earlier (.done (some v)) ∧ scene.callbacks.collected = true

end Scene

/-! ## Where an element stands -/

section Split

variable {α : Type} {l l' before after : List α} {x : α}

theorem split_right (h : l ++ l' = before ++ x :: after) (hx : x ∉ l) :
    ∃ more, before = l ++ more ∧ l' = more ++ x :: after := by
  rcases List.append_eq_append_iff.mp h with ⟨more, hbefore, hl'⟩ | ⟨more, hl, hafter⟩
  · exact ⟨more, hbefore, hl'⟩
  · cases more with
    | nil => exact ⟨[], by simpa using hl.symm, hafter.symm⟩
    | cons y more =>
        obtain ⟨rfl, -⟩ := List.cons.inj hafter
        exact absurd (by simp [hl]) hx

theorem split_left (h : l ++ l' = before ++ x :: after) (hx : x ∉ l') :
    ∃ more, l = before ++ x :: more ∧ after = more ++ l' := by
  rcases List.append_eq_append_iff.mp h with ⟨more, hbefore, hl'⟩ | ⟨more, hl, hafter⟩
  · exact absurd (by simp [hl']) hx
  · cases more with
    | nil => exact absurd (by simp [← show x :: after = l' from hafter]) hx
    | cons y more =>
        obtain ⟨rfl, hrest⟩ := List.cons.inj hafter
        exact ⟨more, hl, hrest⟩

end Split

namespace Activity

variable {α β : Type} {m m' : Activity α} {f : α → Activity β} {t u : List Deed} {a : α}

/-- An activity that is done does nothing more. -/
theorem Leaves.of_done (h : m.Leaves t (.done a)) (h' : m.Leaves (t ++ u) m') :
    u = [] ∧ m' = .done a := by
  generalize hx : Activity.done a = x at h
  induction h with
  | here =>
      subst hx
      exact leaves_done_iff.mp h'
  | asked b hq _ ih =>
      cases h' with
      | asked _ _ h' => exact ih h' hx

theorem isOver_bind_iff (hne : ∀ a, m ≠ .done a) : (m >>= f).IsOver ↔ m.IsOver := by
  cases m with
  | done a => exact absurd rfl (hne a)
  | fail e => rfl
  | ask q k => cases q <;> rfl

theorem not_isOver_ask {q : Request} {k : q.Answer → Activity α} (hq : ∀ topic, q ≠ .enter topic) :
    ¬ (Activity.ask q k).IsOver := by
  cases q
  case enter topic => exact absurd rfl (hq topic)
  all_goals exact id

/-- What the activity does is known before it begins: these deeds, one after the other. -/
def Recites (m : Activity α) (all : List Deed) : Prop :=
  ∀ t left, m.Leaves t left → t <+: all ∧ (left.IsOver → t = all)

theorem recites_done (a : α) : (Activity.done a).Recites [] := by
  intro t left h
  obtain ⟨rfl, -⟩ := leaves_done_iff.mp h
  exact ⟨List.nil_prefix, fun _ => rfl⟩

/-- A request that can be answered in one way only is a deed that is known. -/
theorem recites_ask {q : Request} {k : q.Answer → Activity α} {answer : q.Answer}
    {all : List Deed} (hq : ∀ topic, q ≠ .enter topic) (hone : ∀ b, b = answer)
    (h : (k answer).Recites all) : (Activity.ask q k).Recites (.asked q answer :: all) := by
  intro t left hleaves
  rcases (leaves_ask_iff hq).mp hleaves with ⟨rfl, rfl⟩ | ⟨b, t', rfl, hrest⟩
  · exact ⟨List.nil_prefix, fun hover => absurd hover (not_isOver_ask hq)⟩
  · obtain rfl := hone b
    obtain ⟨hbegins, hall⟩ := h t' left hrest
    exact ⟨List.cons_prefix_cons.mpr ⟨rfl, hbegins⟩, fun hover => by rw [hall hover]⟩

theorem Recites.bind_done {all : List Deed} (h : m.Recites all) (g : α → β) :
    (m >>= fun a => .done (g a)).Recites all := by
  intro t left hleaves
  rcases leaves_bind_iff.mp hleaves with ⟨m', hm, hne, rfl⟩ | ⟨t₁, a, t₂, rfl, hm, hdone⟩
  · exact (h t m' hm).imp_right fun hall hover => hall ((isOver_bind_iff hne).mp hover)
  · obtain ⟨rfl, -⟩ := leaves_done_iff.mp hdone
    obtain rfl := (h t₁ _ hm).2 trivial
    rw [List.append_nil]
    exact ⟨List.prefix_refl _, fun _ => rfl⟩

/-- A result of one activity after another is a result of the second one. -/
theorem of_done_bind {P : α → Prop} {Q : β → Prop} (hm : ∀ t a, m.Leaves t (.done a) → P a)
    (hf : ∀ a, P a → ∀ t b, (f a).Leaves t (.done b) → Q b) (t : List Deed) (b : β)
    (h : (m >>= f).Leaves t (.done b)) : Q b := by
  rcases leaves_bind_iff.mp h with ⟨m', -, hne, heq⟩ | ⟨t₁, a, t₂, -, h₁, h₂⟩
  · cases m' with
    | done a => exact absurd rfl (hne a)
    | fail | ask => cases heq
  · exact hf a (hm t₁ a h₁) t₂ b h₂

theorem of_done_bind_right {Q : β → Prop} (hf : ∀ a t b, (f a).Leaves t (.done b) → Q b) :
    ∀ t b, (m >>= f).Leaves t (.done b) → Q b :=
  of_done_bind (fun _ _ _ => trivial) fun a _ => hf a

end Activity

open Activity

namespace Scene

variable {scene : Scene} {st : Step} {t : List Deed}

/-! ## The value of a step -/

/-- The value of a step is not `null`. -/
def Genuine (value : Option Json) : Prop := value ≠ some .null

theorem genuine_nonNull? (v : Json) : Genuine v.nonNull? := by
  intro h
  obtain ⟨rfl, hne⟩ := nonNull?_eq_some_iff.mp h
  exact hne rfl

theorem genuine_of_done {value : Option Json} (hvalue : Genuine value) (t : List Deed)
    (value' : Option Json) (h : (Activity.done value).Leaves t (.done value')) :
    Genuine value' := by
  cases (leaves_done_iff.mp h).2
  exact hvalue

theorem genuine_sayLines {key : Option String} {commands : Bool} {lines : List Line}
    {p : Progress} (hp : Genuine p.value) : ∀ t p',
      (sayLines key commands p lines).Leaves t (.done p') → Genuine p'.value := by
  induction lines generalizing p with
  | nil =>
      intro t p' h
      cases (leaves_done_iff.mp h).2
      exact hp
  | cons line rest ih =>
      cases line with
      | command c =>
          refine of_done_bind_right fun v => ?_
          exact of_done_bind_right fun _ => ih (genuine_nonNull? v)
      | plain text =>
          refine of_done_bind_right fun record => ?_
          cases commands <;> exact of_done_bind_right fun _ => ih hp

theorem genuine_question :
    ∀ t value, (scene.question st).Leaves t (.done value) → Genuine value := by
  have hanswered : ∀ v : Json, ∀ t value,
      (Activity.done v.nonNull?).Leaves t (.done value) → Genuine value :=
    fun v => genuine_of_done (genuine_nonNull? v)
  unfold question
  split
  · refine of_done_bind_right fun _ => of_done_bind_right fun v => ?_
    exact of_done_bind_right fun _ => hanswered v
  · split
    · exact of_done_bind_right fun _ => of_done_bind_right hanswered
    · exact of_done_bind_right hanswered
  · exact genuine_of_done (by simp [Genuine])

/-- A step that has come to a value has not come to `null`. -/
theorem genuine_stepValue :
    ∀ t value, (scene.stepValue st).Leaves t (.done value) → Genuine value := by
  unfold stepValue
  dsimp only
  split
  · refine of_done_bind (genuine_sayLines (by simp [Genuine])) fun p hp => ?_
    split
    · next v hv =>
      rw [hv] at hp
      exact genuine_of_done hp
    · exact genuine_question
  · exact of_done_bind_right fun _ => genuine_of_done (by simp [Genuine])

/-! ## On the way to the value -/

/-- The request is one of those that are made for the lines of a step, or to ask for a value without
quick replies. -/
def IsAside (q : Request) : Prop := q.isTold = false ∧ ∀ items, q ≠ .offer items

/-- What a step has done on the way to its value, of which something may be left. -/
inductive Spoken (scene : Scene) (st : Step) (left : Activity (Option Json)) : List Deed → Prop
  /-- No callback was called, and no quick replies were answered. -/
  | aloof {t : List Deed} : (∀ d ∈ t, d.request.isTold = false) →
      (∀ before items u v after,
        t ≠ before ++ .asked (.offer items) u :: .asked .input (.ok v) :: after) →
      Spoken scene st left t
  /-- Quick replies were answered, and events of the answer were fired. -/
  | replied {before : List Deed} {items : List OptionItem} {u : Unit} {v : Json}
      {fired : List Deed} : (∀ d ∈ before, IsAside d.request) → fired <+: scene.events st v →
      (left.IsOver → fired = scene.events st v) →
      Spoken scene st left (before ++ .asked (.offer items) u :: .asked .input (.ok v) :: fired)

variable {left : Activity (Option Json)}

theorem spoken_of_aside (h : ∀ d ∈ t, IsAside d.request) : scene.Spoken st left t := by
  refine .aloof (fun d hd => (h d hd).1) ?_
  rintro before items u v after rfl
  exact (h (.asked (.offer items) u) (by simp)).2 items rfl

theorem Spoken.prepend {before : List Deed} (hbefore : ∀ d ∈ before, IsAside d.request)
    (h : scene.Spoken st left t) : scene.Spoken st left (before ++ t) := by
  cases h with
  | aloof hsilent hunanswered =>
      refine .aloof (fun d hd => ?_) fun before' items u v after heq => ?_
      · rcases List.mem_append.mp hd with hd | hd
        · exact (hbefore d hd).1
        · exact hsilent d hd
      · obtain ⟨more, -, ht⟩ := split_right heq fun hmem => (hbefore _ hmem).2 items rfl
        exact hunanswered more items u v after ht
  | replied haside hfired hall =>
      rw [← List.append_assoc]
      exact .replied (List.forall_mem_append.mpr ⟨hbefore, haside⟩) hfired hall

/-- Going through the lines of a step. -/
theorem asks_sayLines {P : Request → Prop} {key : Option String} {commands : Bool} {p : Progress}
    (hrecord : P .record) (hsay : ∀ text entries, P (.say text entries))
    (hgathers : ∀ q : Request, q.Gathers → P q) (hcall : ∀ name args, P (.call name args))
    (hnoted : ∀ entries, P (.noted entries)) (lines : List Line) :
    (sayLines key commands p lines).Asks P := by
  induction lines generalizing p with
  | nil => trivial
  | cons line rest ih =>
      cases line with
      | command c =>
          have hinvoke : (c.invoke key).Asks P := by
            refine ⟨hgathers _ trivial, fun found => ?_⟩
            cases found with
            | false => trivial
            | true =>
                refine ((CommandLine.asks_gather key c.args).mono hgathers).bind fun args => ?_
                exact ⟨hcall _ _, fun result => by cases result <;> trivial⟩
          refine hinvoke.bind fun result => Asks.bind ?_ fun _ => ih
          cases p.pending with
          | none => trivial
          | some entries => exact asks_request (hnoted entries)
      | plain text =>
          refine Asks.bind (asks_request hrecord) fun record => ?_
          cases commands <;> exact Asks.bind (asks_request (hsay _ _)) fun _ => ih

theorem aside_sayLines {key : Option String} {commands : Bool} {p : Progress}
    (lines : List Line) : (sayLines key commands p lines).Asks IsAside := by
  refine asks_sayLines ⟨rfl, by simp⟩ (fun _ _ => ⟨rfl, by simp⟩) (fun q hq => ?_)
    (fun _ _ => ⟨rfl, by simp⟩) (fun _ => ⟨rfl, by simp⟩) lines
  cases q
  case resolve | requestFile | input => exact ⟨rfl, by simp⟩
  all_goals cases hq

theorem aside_input : input.Asks IsAside :=
  ⟨⟨rfl, by simp⟩, fun a => by cases a <;> trivial⟩

/-- Events are fired one after the other. -/
theorem recites_fire (v : Json) : (scene.fire st v).Recites (scene.events st v) := by
  unfold fire events
  split
  · generalize (st.metaEntries.getD []).filter (fun e => e.key = "on:" ++ v.text) = entries
    induction entries with
    | nil => exact recites_done ()
    | cons e entries ih => exact recites_ask (by simp) (fun _ => rfl) ih
  · exact recites_done ()

theorem spoken_question (h : (scene.question st).Leaves t left) : scene.Spoken st left t := by
  -- Without an answer nothing is fired, whether the question is still open or has failed.
  have hopened : ∀ t : List Deed, (∀ d ∈ t, d.request.isTold = false) →
      (∀ d ∈ t, ∀ v, d ≠ .asked .input (.ok v)) → scene.Spoken st left t := by
    refine fun t hsilent hopen => .aloof hsilent ?_
    rintro before items u v after rfl
    exact hopen (.asked .input (.ok v)) (by simp) v rfl
  unfold question at h
  split at h
  · next replies _ =>
    rcases (leaves_ask_iff (by simp)).mp h with ⟨rfl, -⟩ | ⟨u, t', rfl, hinput⟩
    · exact hopened [] (by simp) (by simp)
    · rcases leaves_input_bind_iff.mp hinput with ⟨rfl, -⟩ | ⟨a, fired, rfl, hanswer⟩
      · exact hopened _ (by simp [Deed.request, Request.isTold]) (by simp)
      · cases a with
        | error e =>
            obtain ⟨rfl, -⟩ := hanswer
            exact hopened _ (by simp [Deed.request, Request.isTold]) (by simp)
        | ok v =>
            obtain ⟨hfired, hall⟩ := (recites_fire v).bind_done (fun _ => v.nonNull?) _ _ hanswer
            exact @Spoken.replied _ _ _ [] _ _ _ _ (by simp) hfired hall
  · refine spoken_of_aside (Asks.of_leaves (P := IsAside) ?_ h).1
    split
    · exact Asks.bind (asks_request ⟨rfl, by simp⟩) fun _ => aside_input.bind fun _ => trivial
    · exact aside_input.bind fun _ => trivial
  · obtain ⟨rfl, -⟩ := leaves_done_iff.mp h
    exact spoken_of_aside (by simp)

/-- On the way to its value a step fires the events of an answer to its quick replies, and calls no
other callback. -/
theorem spoken_stepValue (h : (scene.stepValue st).Leaves t left) : scene.Spoken st left t := by
  unfold stepValue at h
  dsimp only at h
  split at h
  · rcases leaves_bind_iff.mp h with ⟨m, hlines, -, -⟩ | ⟨t₁, p, t₂, rfl, hlines, hrest⟩
    · exact spoken_of_aside ((aside_sayLines _).of_leaves hlines).1
    · refine Spoken.prepend ((aside_sayLines _).of_leaves hlines).1 ?_
      split at hrest
      · obtain ⟨rfl, -⟩ := leaves_done_iff.mp hrest
        exact spoken_of_aside (by simp)
      · exact spoken_question hrest
  · refine spoken_of_aside (Asks.of_leaves (P := IsAside) (Asks.bind ?_ fun _ => ?_) h).1
    unfold note
    split
    · exact asks_request ⟨rfl, by simp⟩
    · trivial
    · trivial

/-! ## Behind the value -/

/-- A value is entered and told, one after the other. -/
theorem recites_storeValue (key : Option String) (v : Json) :
    (scene.storeValue key v).Recites (scene.recording key v) := by
  unfold storeValue recording
  cases key with
  | none => exact recites_done ()
  | some key =>
      refine recites_ask (by simp) (fun _ => rfl) ?_
      split
      · exact recites_ask (by simp) (fun _ => rfl) (recites_done ())
      · exact recites_done ()

/-- A value is recorded and told, and after that an action may be taken. -/
theorem leaves_collect {place : Option Place} {c : Collect} {key : Option String} {v : Json}
    {m : Activity Bool} (h : (scene.collect place c key v).Leaves t m) :
    (t <+: scene.recording key v ∧ ¬ m.IsOver) ∨
      ∃ more, t = scene.recording key v ++ more ∧ ∀ d ∈ more, d.request.isPlain = false := by
  unfold collect at h
  rcases leaves_bind_iff.mp h with ⟨m', hstore, hne, rfl⟩ | ⟨t₁, u, t₂, rfl, hstore, hrest⟩
  · obtain ⟨hbegins, hall⟩ := recites_storeValue key v _ _ hstore
    by_cases hover : m'.IsOver
    · exact .inr ⟨[], by simp [hall hover], by simp⟩
    · exact .inl ⟨hbegins, fun hover' => hover ((isOver_bind_iff hne).mp hover')⟩
  · obtain rfl := (recites_storeValue key v _ _ hstore).2 trivial
    refine .inr ⟨t₂, rfl, (Asks.of_leaves (P := fun q => q.isPlain = false) ?_ hrest).1⟩
    split
    · exact scene.asks_act rfl fun _ => rfl
    · trivial
    · trivial

/-- What is done to record the value of a step, if it has come to one. -/
def recordingOf (scene : Scene) (st : Step) (value : Option Json) : List Deed :=
  value.elim [] (scene.recording st.collectKey)

/-- What a step does behind its value: the value is recorded and told, and then an action may be
taken. -/
def Behind (scene : Scene) (st : Step) (value : Option Json) (t : List Deed) (m : Activity Bool) :
    Prop :=
  (t <+: scene.recordingOf st value ∧ ¬ m.IsOver) ∨
    ∃ more, t = scene.recordingOf st value ++ more ∧ ∀ d ∈ more, d.request.isPlain = false

/-- What a step has done: it is on the way to its value, or has come to it and goes on from
there. -/
inductive Parts (scene : Scene) (st : Step) : List Deed → Activity Bool → Prop
  | speaking {t : List Deed} {left : Activity (Option Json)} {m : Activity Bool} :
      (scene.stepValue st).Leaves t left → (∀ value, left ≠ .done value) →
      (m.IsOver → left.IsOver) → Parts scene st t m
  | recorded {t t' : List Deed} {value : Option Json} {m : Activity Bool} :
      (scene.stepValue st).Leaves t (.done value) → scene.Behind st value t' m →
      Parts scene st (t ++ t') m

theorem parts_of_leaves {place : Option Place} {m : Activity Bool}
    (h : (scene.runStep place st).Leaves t m) : scene.Parts st t m := by
  rcases leaves_bind_iff.mp h with ⟨left, hvalue, hne, rfl⟩ | ⟨t₁, value, t₂, rfl, hvalue, hrest⟩
  · exact .speaking hvalue hne fun hover => (isOver_bind_iff hne).mp hover
  · refine .recorded hvalue ?_
    cases value with
    | none =>
        obtain ⟨rfl, -⟩ := leaves_done_iff.mp hrest
        exact .inr ⟨[], rfl, by simp⟩
    | some v =>
        cases hcollect : st.collect with
        | none =>
            rw [hcollect] at hrest
            obtain ⟨rfl, -⟩ := leaves_done_iff.mp hrest
            have hkey : st.collectKey = none := by rw [Step.collectKey, hcollect]; rfl
            exact .inr ⟨[], by simp [recordingOf, hkey, recording], by simp⟩
        | some c =>
            rw [hcollect] at hrest
            exact leaves_collect hrest

/-! ## The callbacks of a step -/

theorem mem_events {v : Json} {d : Deed} (h : d ∈ scene.events st v) :
    ∃ e, d = .asked (.fired e) () := by
  unfold events at h
  split at h
  · obtain ⟨e, -, rfl⟩ := List.mem_map.mp h
    exact ⟨e.value, rfl⟩
  · cases h

/-- A value is told when it was recorded. -/
theorem eq_of_recording_eq {key : Option String} {v v' : Json} {before after : List Deed}
    {name : String} {u : Unit}
    (h : scene.recording key v = before ++ .asked (.collected name v') u :: after) :
    key = some name ∧ v = v' ∧ before = [.asked (.store name v) ()] ∧
      scene.callbacks.collected = true := by
  unfold recording at h
  cases key with
  | none => simp at h
  | some key =>
      dsimp only at h
      cases before with
      | nil => cases h
      | cons d before =>
          obtain ⟨rfl, hrest⟩ := List.cons.inj h
          split at hrest
          · next hcollected =>
            cases before with
            | nil =>
                cases hrest
                exact ⟨rfl, rfl, rfl, hcollected⟩
            | cons d before => simp at hrest
          · simp at hrest

/-- The callbacks that are called on the way to the value are those for events. -/
theorem Spoken.collected_notMem (h : scene.Spoken st left t) (name : String) (v : Json) (u : Unit) :
    .asked (.collected name v) u ∉ t := by
  intro hmem
  cases h with
  | aloof hsilent => cases hsilent _ hmem
  | replied haside hfired =>
      rcases List.mem_append.mp hmem with hmem | hmem
      · cases (haside _ hmem).1
      · rcases List.mem_cons.mp hmem with heq | hmem
        · cases heq
        · rcases List.mem_cons.mp hmem with heq | hmem
          · cases heq
          · obtain ⟨e, he⟩ := mem_events (hfired.subset hmem)
            cases he

section Spoken

variable {t' before after : List Deed}

/-- An answer to quick replies is followed by its events. What comes after the value is told apart
by not having to do with answers. -/
theorem Spoken.fires (h : scene.Spoken st left t) (hoffer : ∀ items u, .asked (.offer items) u ∉ t')
    (hinput : ∀ a, .asked .input a ∉ t') {items : List OptionItem} {u : Unit} {v : Json}
    (heq : t ++ t' = before ++ .asked (.offer items) u :: .asked .input (.ok v) :: after) :
    ∃ fired, after = fired ++ t' ∧ fired <+: scene.events st v ∧
      (left.IsOver → fired = scene.events st v) := by
  cases h with
  | aloof _ hunanswered =>
      -- The offer stands in the first part, and its answer would be there or begin the second.
      obtain ⟨more, ht, hafter⟩ := split_left heq (hoffer items u)
      cases more with
      | nil => exact absurd (by simp [← show _ = t' from hafter]) (hinput (.ok v))
      | cons d more =>
          obtain ⟨rfl, -⟩ := List.cons.inj hafter
          exact absurd ht (hunanswered before items u v more)
  | @replied before' items' u' v' fired haside hfired hall =>
      -- There is one offer only, so what stands around it is the same on both sides.
      have hbefore : .asked (.offer items) u ∉ before' := fun hmem => (haside _ hmem).2 _ rfl
      have hrest : .asked (.offer items) u ∉ .asked .input (.ok v') :: (fired ++ t') := by
        intro hmem
        rcases List.mem_cons.mp hmem with heq | hmem
        · cases heq
        · rcases List.mem_append.mp hmem with hmem | hmem
          · obtain ⟨e, he⟩ := mem_events (hfired.subset hmem)
            cases he
          · exact hoffer _ _ hmem
      have heq : before' ++ .asked (.offer items') u' :: .asked .input (.ok v') :: (fired ++ t') =
          before ++ .asked (.offer items) u :: .asked .input (.ok v) :: after := by
        simpa using heq
      obtain ⟨-, -, htail⟩ := (List.append_cons_inj_of_notMem hbefore hrest).mp heq
      cases htail
      exact ⟨fired, rfl, hfired, hall⟩

theorem Spoken.firesOnly (h : scene.Spoken st left t) (hnone : ∀ e u, .asked (.fired e) u ∉ t')
    {e : Json} {u : Unit} (heq : t ++ t' = before ++ .asked (.fired e) u :: after) :
    ∃ earlier items u' v fired,
      before = earlier ++ .asked (.offer items) u' :: .asked .input (.ok v) :: fired ∧
      fired ++ [.asked (.fired e) u] <+: scene.events st v := by
  obtain ⟨more, ht, -⟩ := split_left heq (hnone e u)
  cases h with
  | aloof hsilent => cases hsilent (.asked (.fired e) u) (by simp [ht])
  | @replied before' items u' v fired haside hbegins =>
      have hfirst : .asked (.fired e) u ∉
          before' ++ [.asked (.offer items) u', .asked .input (.ok v)] := by
        intro hmem
        rcases List.mem_append.mp hmem with hmem | hmem
        · cases (haside _ hmem).1
        · rcases List.mem_pair.mp hmem with heq | heq <;> cases heq
      have ht : (before' ++ [.asked (.offer items) u', .asked .input (.ok v)]) ++ fired =
          before ++ .asked (.fired e) u :: more := by simpa using ht
      obtain ⟨fired', rfl, rfl⟩ := split_right ht hfirst
      refine ⟨before', items, u', v, fired', by simp, List.IsPrefix.trans ?_ hbegins⟩
      exact ⟨more, by simp⟩

end Spoken

section Behind

variable {value : Option Json} {t' : List Deed} {m : Activity Bool}

theorem Behind.of_mem (h : scene.Behind st value t' m) {d : Deed} (hd : d ∈ t') :
    (∃ name v, d = .asked (.store name v) ()) ∨ (∃ name v, d = .asked (.collected name v) ()) ∨
      d.request.isPlain = false := by
  have hrecording : d ∈ scene.recordingOf st value → (∃ name v, d = .asked (.store name v) ()) ∨
      ∃ name v, d = .asked (.collected name v) () := by
    intro hmem
    cases value with
    | none => cases hmem
    | some v =>
        obtain ⟨name, rfl | rfl⟩ := mem_recording hmem
        · exact .inl ⟨name, v, rfl⟩
        · exact .inr ⟨name, v, rfl⟩
  rcases h with ⟨hbegins, -⟩ | ⟨more, rfl, hmore⟩
  · exact (hrecording (hbegins.subset hd)).imp_right .inl
  · rcases List.mem_append.mp hd with hd | hd
    · exact (hrecording hd).imp_right .inl
    · exact .inr (.inr (hmore d hd))

/-- Nothing else is asked there: no question, and no callback for events. -/
theorem Behind.notMem (h : scene.Behind st value t' m) {q : Request} (hplain : q.isPlain = true)
    (hstore : ∀ name v, q ≠ .store name v) (hcollected : ∀ name v, q ≠ .collected name v)
    (a : q.Answer) : .asked q a ∉ t' := by
  intro hmem
  rcases h.of_mem hmem with ⟨name, v, heq⟩ | ⟨name, v, heq⟩ | hq
  · cases heq
    exact hstore name v rfl
  · cases heq
    exact hcollected name v rfl
  · rw [show (Deed.asked q a).request = q from rfl, hplain] at hq
    cases hq

/-- A value that is told there is that of the step. -/
theorem Behind.of_told (h : scene.Behind st value t' m) {before after : List Deed} {key : String}
    {v : Json} {u : Unit} (ht' : t' = before ++ .asked (.collected key v) u :: after) :
    value = some v ∧ st.collectKey = some key ∧ before = [.asked (.store key v) ()] ∧
      scene.callbacks.collected = true := by
  obtain ⟨rest, hrest⟩ : ∃ rest,
      scene.recordingOf st value = before ++ .asked (.collected key v) u :: rest := by
    rcases h with ⟨⟨rest, hbegins⟩, -⟩ | ⟨others, hothers, hacts⟩
    · exact ⟨after ++ rest, by simp [← hbegins, ht']⟩
    · have hlast : .asked (.collected key v) u ∉ others := fun hmem => by cases hacts _ hmem
      obtain ⟨rest, hrest, -⟩ := split_left (hothers.symm.trans ht') hlast
      exact ⟨rest, hrest⟩
  cases value with
  | none => simp [recordingOf] at hrest
  | some w =>
      obtain ⟨hkey, rfl, hbefore, hcollected⟩ := eq_of_recording_eq hrest
      exact ⟨rfl, hkey, hbefore, hcollected⟩

end Behind

theorem informs_of_speaking {m : Activity Bool} (hvalue : (scene.stepValue st).Leaves t left)
    (hne : ∀ value, left ≠ .done value) (hover : m.IsOver → left.IsOver) :
    scene.Informs st t m := by
  have hspoken := spoken_stepValue hvalue
  constructor
  · intro before items u v after heq
    obtain ⟨fired, rfl, hfired, hall⟩ := hspoken.fires (by simp) (by simp)
      ((List.append_nil t).trans heq)
    rw [List.append_nil]
    by_cases hleft : left.IsOver
    · exact .inl (hall hleft ▸ List.prefix_refl _)
    · exact .inr ⟨hfired, fun hm => hleft (hover hm)⟩
  · intro before e u after heq
    exact hspoken.firesOnly (by simp) ((List.append_nil t).trans heq)
  · rintro before v after key rfl hbefore -
    exact absurd (hbefore.of_done hvalue).2 (hne _)
  · rintro before key v u after rfl
    exact absurd (by simp) (hspoken.collected_notMem key v u)

theorem informs_of_recorded {value : Option Json} {t' : List Deed} {m : Activity Bool}
    (hvalue : (scene.stepValue st).Leaves t (.done value)) (hbehind : scene.Behind st value t' m) :
    scene.Informs st (t ++ t') m := by
  have hspoken := spoken_stepValue hvalue
  constructor
  · intro before items u v after heq
    obtain ⟨fired, rfl, -, hall⟩ := hspoken.fires
      (fun _ => hbehind.notMem rfl (by simp) (by simp)) (hbehind.notMem rfl (by simp) (by simp)) heq
    rw [hall trivial]
    exact .inl (List.prefix_append _ _)
  · intro before e u after heq
    exact hspoken.firesOnly (fun _ => hbehind.notMem rfl (by simp) (by simp)) heq
  · intro before v after key heq hbefore hkey
    -- The step has come to its value once, so this is the place where it is recorded.
    obtain ⟨rfl, rfl⟩ := hvalue.done_unique hbefore heq
    obtain rfl := List.append_cancel_left heq
    refine ⟨fun hnull => genuine_stepValue _ _ hvalue (congrArg some hnull), ?_⟩
    have hrecording : scene.recordingOf st (some v) = scene.recording (some key) v := by
      rw [recordingOf, hkey]
      rfl
    rw [← hrecording]
    rcases hbehind with hunder | ⟨more, rfl, -⟩
    · exact .inr hunder
    · exact .inl (List.prefix_append _ _)
  · intro before key v u after heq
    obtain ⟨more, rfl, ht'⟩ := split_right heq (hspoken.collected_notMem key v u)
    obtain ⟨rfl, hkey, rfl, hcollected⟩ := hbehind.of_told ht'
    exact ⟨t, rfl, hkey, hvalue, hcollected⟩

/-- A step calls the callbacks as it should, as far as it has come. -/
theorem informs_of_leaves {place : Option Place} {m : Activity Bool}
    (h : (scene.runStep place st).Leaves t m) : scene.Informs st t m := by
  cases parts_of_leaves h with
  | speaking hvalue hne hover => exact informs_of_speaking hvalue hne hover
  | recorded hvalue hbehind => exact informs_of_recorded hvalue hbehind

/-! ## The callbacks of a run -/

theorem silent_act {place : Option Place} {action : String} {m : Activity Bool}
    (h : (scene.act place action).Leaves t m) : ∀ d ∈ t, d.request.isTold = false :=
  (Asks.of_leaves (P := fun q => q.isTold = false)
    (scene.asks_act rfl fun _ => rfl) h).1

/-- A course of a run consists of the deeds of its errands, one after the other, with those of a
thread in the place where it is entered. In the deeds of a step the events of an answer are fired,
and the value is told when it was recorded, and there are no other calls of these callbacks: not in
a step, and not when an action is taken that was put aside. -/
theorem callbacks_on_occasion {r : Run} (h : Run.Course scene (.start scene) t r) :
    ∃ th stretches, scene.index.get? defaultTopic = some th ∧ scene.Tells th.errands stretches ∧
      t = stretches.flatMap Stretch.deeds ∧
      ∀ x ∈ stretches, match x.errand with
        | .step _ st => scene.Informs st x.own x.left
        | .action _ _ => ∀ d ∈ x.own, d.request.isTold = false := by
  obtain ⟨th, stretches, hth, htells, ht⟩ := exists_stretches h
  refine ⟨th, stretches, hth, htells, ht, fun x hx => ?_⟩
  have hleaves := htells.leaves x hx
  obtain ⟨errand, own, left, entered⟩ := x
  cases errand with
  | step place st => exact informs_of_leaves hleaves
  | action place action => exact silent_act hleaves

/-- A step that offers quick replies and enters a thread, where a step takes free input. -/
def informing : Scene where
  index :=
    { threads :=
        [⟨defaultTopic, [{ Step.empty with
            text := some []
            quickReplies := some [⟨"Yes", "y"⟩, ⟨"No", "n"⟩]
            collect := some ⟨some "answer", false, [.string "y" "inner"]⟩
            metaEntries := some [⟨"on:y", .string "agreed"⟩, ⟨"on:n", .string "declined"⟩] }]⟩,
          ⟨"inner", [{ Step.empty with
            text := some []
            collect := some ⟨some "name", false, []⟩ }]⟩]
      distinct := by decide
      startsSomewhere := by decide }
  engine := .standard
  callbacks := ⟨true, true, true⟩

theorem callbacks_on_occasion_informing :
    let t : List Deed :=
      [.asked (.offer [⟨"Yes", .string "y"⟩, ⟨"No", .string "n"⟩]) (),
        .asked .input (.ok (.string "y")), .asked (.fired (.string "agreed")) (),
        .asked (.store "answer" (.string "y")) (), .asked (.collected "answer" (.string "y")) (),
        .asked (.acting (some ⟨defaultTopic, some 1⟩) "inner") (), .entered "inner",
        .asked .input (.ok (.string "Ann")), .asked (.store "name" (.string "Ann")) (),
        .asked (.collected "name" (.string "Ann")) ()]
    ∃ r, Run.Course informing (.start informing) t r ∧
      ∃ th stretches, informing.index.get? defaultTopic = some th ∧
        informing.Tells th.errands stretches ∧ t = stretches.flatMap Stretch.deeds ∧
        ∀ x ∈ stretches, match x.errand with
          | .step _ st => informing.Informs st x.own x.left
          | .action _ _ => ∀ d ∈ x.own, d.request.isTold = false := by
  intro t
  obtain ⟨r, hcourse⟩ : ∃ r, Run.Course informing (.start informing) t r := by
    refine ⟨⟨.done false, [fun b => if b then .done true else .done false]⟩, ?_⟩
    refine .asked (q := .offer _) () rfl ?_
    refine .asked (q := .input) (.ok (.string "y")) rfl ?_
    refine .asked (q := .fired _) () rfl ?_
    refine .asked (q := .store _ _) () rfl ?_
    refine .asked (q := .collected _ _) () rfl ?_
    refine .asked (q := .acting _ _) () rfl ?_
    refine .moved rfl ?_
    refine .asked (q := .input) (.ok (.string "Ann")) rfl ?_
    refine .asked (q := .store _ _) () rfl ?_
    refine .asked (q := .collected _ _) () rfl ?_
    exact .here _
  exact ⟨r, hcourse, callbacks_on_occasion hcourse⟩

end Scene

end Dialogue
