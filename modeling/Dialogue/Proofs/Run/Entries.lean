import Dialogue.Proofs.Run.Threads
/-!
# How a step passes its meta entries on

Two requests carry meta entries: a message that is queued with them, and the request to deliver them
at once. A step with entries makes one such request, at a time that depends on its text: after the
first command, with the first message when there is no command, and at once without text. A text
with no lines is the exception: there is neither a command nor a message, and the entries are lost.

* `Activity.Yields` — the deeds by which an activity comes to a result; `Scene.Plays`, the same
  within a run, together with the threads that are entered.
* `Run.Course.ends_iff` — a run that ends without an error has been through each activity.
* `Step.passes_of_yields` — when a step passes its entries on.
* `Step.Passes.carried_eq` — it does so once, unless its text has no lines.
-/

namespace Dialogue

/-! ## Deeds of an activity -/

namespace Activity

variable {α β : Type}

/-- The activity comes to a result by some deeds. Nothing is assumed of the answers, nor of what the
threads do that it enters. -/
inductive Yields : Activity α → List Deed → α → Prop
  | done (a : α) : Yields (.done a) [] a
  | asked {q : Request} {k : q.Answer → Activity α} {t : List Deed} {b : α} (a : q.Answer)
      (hq : ∀ topic, q ≠ .enter topic) :
      Yields (k a) t b → Yields (.ask q k) (.asked q a :: t) b
  | entered {topic : String} {k : Bool → Activity α} {t : List Deed} {b : α} (c : Bool) :
      Yields (k c) t b → Yields (.ask (.enter topic) k) (.entered topic :: t) b

/-- The activity makes no other requests than some. -/
def Asks (P : Request → Prop) : Activity α → Prop
  | .ask q k => P q ∧ ∀ a, (k a).Asks P
  | _ => True

variable {P : Request → Prop} {m : Activity α} {f : α → Activity β} {t : List Deed} {b : β}

theorem asks_request {q : Request} (hq : P q) : (request q).Asks P := ⟨hq, fun _ => trivial⟩

theorem Asks.bind (hm : m.Asks P) (hf : ∀ a, (f a).Asks P) : (m >>= f).Asks P := by
  show (Activity.bind m f).Asks P
  induction m with
  | done a => exact hf a
  | fail e => trivial
  | ask q k ih => exact ⟨hm.1, fun a => ih a (hm.2 a)⟩

theorem Asks.mono {Q : Request → Prop} (hm : m.Asks P) (h : ∀ q, P q → Q q) : m.Asks Q := by
  induction m with
  | done a => trivial
  | fail e => trivial
  | ask q k ih => exact ⟨h q hm.1, fun a => ih a (hm.2 a)⟩

theorem asks_forM {γ : Type} {f : γ → Activity Unit} (hf : ∀ x, (f x).Asks P) (xs : List γ) :
    (xs.forM f).Asks P := by
  induction xs with
  | nil => trivial
  | cons x xs ih => exact (hf x).bind fun _ => ih

/-- An activity yields by requests that it makes. -/
theorem Asks.of_yields {a : α} (hm : m.Asks P) (h : m.Yields t a) : ∀ d ∈ t, P d.request := by
  induction h with
  | done => simp
  | asked a _ _ ih | entered a _ ih =>
      intro d hd
      rcases List.mem_cons.mp hd with rfl | hd
      · exact hm.1
      · exact ih (hm.2 _) d hd

theorem yields_done {a c : α} (h : (Activity.done a).Yields t c) : t = [] ∧ c = a := by
  cases h
  exact ⟨rfl, rfl⟩

theorem yields_ask {q : Request} {k : q.Answer → Activity α} {c : α}
    (hq : ∀ topic, q ≠ .enter topic) (h : (Activity.ask q k).Yields t c) :
    ∃ a t', t = .asked q a :: t' ∧ (k a).Yields t' c := by
  cases h with
  | asked a _ h => exact ⟨a, _, rfl, h⟩
  | entered => exact absurd rfl (hq _)

/-- The deeds of two activities, one after the other, are those of the first and then those of the
second. -/
theorem Yields.of_bind (h : (m >>= f).Yields t b) :
    ∃ t₁ a t₂, t = t₁ ++ t₂ ∧ m.Yields t₁ a ∧ (f a).Yields t₂ b := by
  rw [bind_eq] at h
  induction m generalizing t with
  | done a => exact ⟨[], a, t, rfl, .done a, h⟩
  | fail e => cases h
  | ask q k ih =>
      cases h with
      | asked a hq h =>
          obtain ⟨t₁, c, t₂, rfl, h₁, h₂⟩ := ih a h
          exact ⟨_, c, t₂, rfl, .asked a hq h₁, h₂⟩
      | entered a h =>
          obtain ⟨t₁, c, t₂, rfl, h₁, h₂⟩ := ih a h
          exact ⟨_, c, t₂, rfl, .entered a h₁, h₂⟩

end Activity

/-! ## Activities within a run -/

/-- The activity comes to a result in a run: `own` are its own deeds, and `all` are those together
with the deeds of the threads that it enters. -/
inductive Scene.Plays (scene : Scene) : Activity Bool → List Deed → List Deed → Bool → Prop
  | done (b : Bool) : Plays scene (.done b) [] [] b
  | asked {q : Request} {k : q.Answer → Activity Bool} {own all : List Deed} {b : Bool}
      (a : q.Answer) (hq : ∀ topic, q ≠ .enter topic) : Plays scene (k a) own all b →
      Plays scene (.ask q k) (.asked q a :: own) (.asked q a :: all) b
  | entered {topic : String} {k : Bool → Activity Bool} {own all own' all' : List Deed}
      {b c : Bool} :
      Plays scene (scene.enter topic) own' all' c → Plays scene (k c) own all b →
      Plays scene (.ask (.enter topic) k) (.entered topic :: own)
        (.entered topic :: (all' ++ all)) b

namespace Scene.Plays

variable {scene : Scene} {m : Activity Bool} {own all : List Deed} {b : Bool}

theorem yields (h : scene.Plays m own all b) : m.Yields own b := by
  induction h with
  | done b => exact .done b
  | asked a hq _ ih => exact .asked a hq ih
  | entered _ _ _ ih => exact .entered _ ih

theorem sublist (h : scene.Plays m own all b) : own.Sublist all := by
  induction h with
  | done => exact List.Sublist.refl []
  | asked _ _ _ ih => exact ih.cons_cons _
  | entered _ _ _ ih => exact (ih.trans (List.sublist_append_right _ _)).cons_cons _

/-- What follows the activity in a run begins with its result. -/
theorem course (h : scene.Plays m own all b) (f : Bool → Activity Bool)
    (ks : List (Bool → Activity Bool)) : Run.Course scene ⟨m >>= f, ks⟩ all ⟨f b, ks⟩ := by
  induction h generalizing f ks with
  | done b => exact .here _
  | asked a hq _ ih => exact .answered a hq (ih f ks)
  | @entered topic k own all own' all' b c _ _ ihinner ih =>
      apply Run.Course.entered
      have hinner := ihinner .done ((fun c => k c >>= f) :: ks)
      have hdone : scene.enter topic >>= .done = scene.enter topic := bind_pure _
      rw [hdone] at hinner
      exact hinner.trans (.moved rfl (ih f ks))

end Scene.Plays

theorem Run.Course.exists_plays {scene : Scene} {m : Activity Bool} {f : Bool → Activity Bool}
    {ks : List (Bool → Activity Bool)} {t : List Deed} {r' : Run} {c : Bool}
    (h : Run.Course scene ⟨m >>= f, ks⟩ t r') (hend : r'.next scene = .ended (.ok c)) :
    ∃ own all rest b, t = all ++ rest ∧ scene.Plays m own all b ∧
      Run.Course scene ⟨f b, ks⟩ rest r' := by
  -- Each deed makes what follows shorter, the thread that a run enters included.
  induction hlen : t.length using Nat.strongRecOn generalizing m f ks t with
  | ind len ih =>
      cases m with
      | done b => exact ⟨[], [], t, b, rfl, .done b, h⟩
      | fail e =>
          obtain ⟨rfl, rfl⟩ := h.of_ended rfl
          cases hend
      | ask q k =>
          cases h with
          | here => cases q <;> cases hend
          | moved hn h =>
              rcases Run.next_moved hn with ⟨_, _, _, heq, -⟩ | ⟨topic, k', ks', heq, rfl⟩
              · cases heq
              · cases heq
                have hentry : Run.entry ⟨.ask (.enter topic) k >>= f, ks⟩ = [.entered topic] := rfl
                have hinner : scene.enter topic >>= .done = scene.enter topic := bind_pure _
                rw [← hinner] at h
                rw [hentry] at hlen ⊢
                obtain ⟨own', all', rest', c', rfl, hplays', hrest'⟩ :=
                  ih _ (by simp [← hlen]) h rfl
                cases hrest' with
                | here => cases hend
                | @moved _ _ _ t' hn' h' =>
                    cases hn'
                    have hless : t'.length < len := by
                      rw [← hlen, List.length_append, List.length_append, List.length_append,
                        List.length_singleton]
                      omega
                    obtain ⟨own, all, rest, b, rfl, hplays, hrest⟩ := ih _ hless h' rfl
                    refine ⟨_, _, rest, b, ?_, .entered hplays' hplays, hrest⟩
                    show [.entered topic] ++ (all' ++ ([] ++ (all ++ rest))) = _
                    simp
                | asked a hn' => cases hn'
          | asked a hn h =>
              obtain ⟨k', ks', heq, hq, rfl⟩ := Run.next_asks hn
              cases heq
              obtain ⟨own, all, rest, b, rfl, hplays, hrest⟩ := ih _ (by simp [← hlen]) h rfl
              exact ⟨_, _, rest, b, rfl, .asked a hq hplays, hrest⟩

/-- A run that ends without an error goes through each of its activities: first the activity comes
to a result, and then the run goes on with it. -/
theorem Run.Course.ends_iff {scene : Scene} {m : Activity Bool} {f : Bool → Activity Bool}
    {ks : List (Bool → Activity Bool)} {t : List Deed} {r' : Run} {c : Bool}
    (hend : r'.next scene = .ended (.ok c)) : Run.Course scene ⟨m >>= f, ks⟩ t r' ↔
      ∃ own all rest b, t = all ++ rest ∧ scene.Plays m own all b ∧
        Run.Course scene ⟨f b, ks⟩ rest r' := by
  constructor
  · intro h
    exact h.exists_plays hend
  · rintro ⟨own, all, rest, b, rfl, hplays, hrest⟩
    exact (hplays.course f ks).trans hrest

/-! ## Requests with entries -/

namespace Request

/-- The meta entries that go with a request. -/
def carried? : Request → Option Meta
  | .say _ entries => entries
  | .noted entries => some entries
  | _ => none

/-- No meta entries go with the request. -/
def Bare (q : Request) : Prop := q.carried? = none

/-- Is it the call of a command? -/
def isCall : Request → Bool
  | .call _ _ => true
  | _ => false

/-- The text that a request says. -/
def said? : Request → Option String
  | .say text _ => some text
  | _ => none

/-- The request serves to gather the arguments of a command. -/
def Gathers : Request → Prop
  | .resolve _ | .requestFile | .input => True
  | _ => False

theorem Gathers.bare {q : Request} (h : q.Gathers) :
    q.carried? = none ∧ q.isCall = false ∧ q.said? = none := by
  cases q
  case resolve | requestFile | input => exact ⟨rfl, rfl, rfl⟩
  all_goals cases h

end Request

/-- The meta entries that go with a deed. -/
def Deed.carried? (d : Deed) : Option Meta := d.request.carried?

open Activity

/-! ## The parts of a step -/

section Parts

variable {key : Option String} {commands : Bool} {p p' : Progress} {t : List Deed} {m : Meta}

theorem CommandLine.asks_gather (key : Option String) (args : List ImplicitArg) :
    (gather key args).Asks Request.Gathers := by
  induction args with
  | nil => trivial
  | cons arg rest ih =>
      cases arg with
      | record | context | key => exact ih.bind fun _ => trivial
      | uploader =>
          refine Asks.bind (asks_request trivial) fun _ => ?_
          refine Asks.bind ⟨trivial, fun a => by cases a <;> trivial⟩ fun _ => ?_
          exact ih.bind fun _ => trivial

theorem CommandLine.invoke_eq (c : CommandLine) (key : Option String) :
    c.invoke key = .ask (.resolve c.name) fun found =>
      if found then
        gather key c.args >>= fun args => .ask (.call c.name args) fun
          | .ok v => .done v
          | .error reason => .fail (.run (.commandFailed c.name reason))
      else .fail (.run (.commandNotFound c.name)) := rfl

/-- A command gathers its arguments and then is called; nothing follows the call. -/
theorem CommandLine.of_yields_invoke {c : CommandLine} {v : Json}
    (h : (c.invoke key).Yields t v) : ∃ before args,
      t = before ++ [.asked (.call c.name args) (.ok v)] ∧ ∀ d ∈ before, d.request.Gathers := by
  rw [CommandLine.invoke_eq] at h
  obtain ⟨found, t₁, rfl, hfound⟩ := yields_ask (by simp) h
  cases found with
  | false => cases hfound
  | true =>
      obtain ⟨before, args, t₂, rfl, hgather, hcall⟩ := Yields.of_bind hfound
      obtain ⟨result, t₃, rfl, hresult⟩ := yields_ask (by simp) hcall
      cases result with
      | error reason => cases hresult
      | ok w =>
          obtain ⟨rfl, rfl⟩ := yields_done hresult
          refine ⟨.asked (.resolve c.name) true :: before, args, rfl, fun d hd => ?_⟩
          rcases List.mem_cons.mp hd with rfl | hd
          · trivial
          · exact (CommandLine.asks_gather key c.args).of_yields hgather d hd

theorem CommandLine.bare_invoke (c : CommandLine) (key : Option String) :
    (c.invoke key).Asks Request.Bare := by
  refine ⟨rfl, fun found => ?_⟩
  cases found with
  | false => trivial
  | true =>
      have hgather : (gather key c.args).Asks Request.Bare :=
        (CommandLine.asks_gather key c.args).mono fun q hq => hq.bare.1
      refine hgather.bind fun args => ⟨rfl, fun result => ?_⟩
      cases result <;> trivial

namespace Scene

variable (scene : Scene)

theorem of_yields_note {u : Unit} (h : (note (some m)).Yields t u) :
    t = [.asked (.noted m) ()] := by
  obtain ⟨⟨⟩, t₁, rfl, hdone⟩ := yields_ask (q := .noted m) (by simp) h
  obtain ⟨rfl, -⟩ := yields_done hdone
  rfl

/-- Without entries the lines of a step are said without any. -/
theorem bare_sayLines (v : Option Json) (lines : List Line) :
    (sayLines key commands ⟨none, v⟩ lines).Asks Request.Bare := by
  induction lines generalizing v with
  | nil => trivial
  | cons line rest ih =>
      cases line with
      | command c =>
          refine (c.bare_invoke key).bind fun result => ?_
          exact Asks.bind trivial fun _ => ih _
      | plain text =>
          refine Asks.bind (asks_request rfl) fun record => ?_
          cases commands <;> exact Asks.bind (asks_request rfl) fun _ => ih _

theorem bare_input : input.Asks Request.Bare := ⟨rfl, fun a => by cases a <;> trivial⟩

theorem asks_fire {P : Request → Prop} (hfired : ∀ v, P (.fired v)) (st : Step) (v : Json) :
    (scene.fire st v).Asks P := by
  unfold fire
  split
  · exact asks_forM (fun e : MetaEntry => asks_request (hfired e.value)) _
  · trivial

theorem bare_question (st : Step) : (scene.question st).Asks Request.Bare := by
  unfold question
  split
  · refine Asks.bind (asks_request rfl) fun _ => bare_input.bind fun v => ?_
    exact (scene.asks_fire (fun _ => rfl) st v).bind fun _ => trivial
  · split
    · exact Asks.bind (asks_request rfl) fun _ => bare_input.bind fun _ => trivial
    · exact bare_input.bind fun _ => trivial
  · trivial

theorem asks_act {P : Request → Prop} {place : Option Place} {action : String}
    (hact : P (.acting place action)) (henter : ∀ topic, P (.enter topic)) :
    (scene.act place action).Asks P := by
  refine Asks.bind (asks_request hact) fun _ => ?_
  split
  · trivial
  · trivial
  · split
    · exact asks_request (henter _)
    · trivial

/-- Recording a value tells of it, and takes the action of an option. -/
theorem asks_collect {P : Request → Prop} {place : Option Place} {c : Collect}
    (hstore : ∀ k v, P (.store k v)) (hcollected : ∀ k v, P (.collected k v))
    (hact : ∀ o ∈ c.options, P (.acting place o.action)) (henter : ∀ topic, P (.enter topic))
    (v : Json) : (scene.collect place c key v).Asks P := by
  have hvalue : (scene.storeValue key v).Asks P := by
    unfold storeValue
    split
    · refine Asks.bind (asks_request (hstore _ v)) fun _ => ?_
      split
      · exact asks_request (hcollected _ v)
      · trivial
    · trivial
  unfold collect
  refine hvalue.bind fun _ => ?_
  split
  · next o ho => exact scene.asks_act (hact o (mem_of_chosen ho)) henter
  · trivial
  · trivial

theorem bare_collect (place : Option Place) (c : Collect) (v : Json) :
    (scene.collect place c key v).Asks Request.Bare :=
  scene.asks_collect (fun _ _ => rfl) (fun _ _ => rfl) (fun _ _ => rfl) (fun _ => rfl) v

/-- The entries are delivered after the first command. Before it lines are said without any. -/
theorem of_yields_sayLines_command {plains : List String} {c : CommandLine} {rest : List Line}
    (hp : p.pending = some m)
    (h : (sayLines key true p (plains.map .plain ++ .command c :: rest)).Yields t p') :
    ∃ before args v after,
      t = before ++ .asked (.call c.name args) (.ok v) :: .asked (.noted m) () :: after ∧
      (∀ d ∈ before, d.carried? = none ∧ d.request.isCall = false) ∧
      (before.filterMap fun d => d.request.said?).length = plains.length ∧
      ∀ d ∈ after, d.carried? = none := by
  induction plains generalizing t with
  | nil =>
      obtain ⟨called, v, t₁, rfl, hcalled, hrest⟩ := Yields.of_bind h
      obtain ⟨before, args, rfl, hbefore⟩ := CommandLine.of_yields_invoke hcalled
      obtain ⟨noted, u, after, rfl, hnoted, hlines⟩ := Yields.of_bind hrest
      rw [hp] at hnoted
      obtain rfl := of_yields_note hnoted
      refine ⟨before, args, v, after, by simp, fun d hd => ?_, ?_, ?_⟩
      · exact ⟨(hbefore d hd).bare.1, (hbefore d hd).bare.2.1⟩
      · rw [List.filterMap_eq_nil_iff.mpr fun d hd => (hbefore d hd).bare.2.2]
      · exact (bare_sayLines _ rest).of_yields hlines
  | cons text plains ih =>
      have hrecord : ((Activity.ask .record fun record =>
          .ask (.say (Template.fillIn text record) none) fun _ => sayLines key true p
            (plains.map .plain ++ .command c :: rest)).Yields t p') := h
      obtain ⟨record, t₁, rfl, hsay⟩ := yields_ask (by simp) hrecord
      obtain ⟨⟨⟩, t₂, rfl, hlines⟩ := yields_ask (by simp) hsay
      obtain ⟨before, args, v, after, rfl, hbefore, hsaid, hafter⟩ := ih hlines
      refine ⟨.asked .record record ::
        .asked (.say (Template.fillIn text record) none) () :: before, args, v, after, rfl, ?_, ?_,
        hafter⟩
      · simpa [Deed.carried?, Request.carried?, Deed.request, Request.isCall] using hbefore
      · simpa [Request.said?, Deed.request] using hsaid

/-- Without commands the entries go with the first message. -/
theorem of_yields_sayLines_plain {text : String} {rest : List Line} (hp : p.pending = some m)
    (h : (sayLines key false p (.plain text :: rest)).Yields t p') : ∃ record after,
      t = .asked .record record ::
        .asked (.say (Template.fillIn text record) (some m)) () :: after ∧
      ∀ d ∈ after, d.carried? = none := by
  have hrecord : ((Activity.ask .record fun record =>
      .ask (.say (Template.fillIn text record) p.pending) fun _ =>
        sayLines key false { p with pending := none } rest).Yields t p') := h
  rw [hp] at hrecord
  obtain ⟨record, t₁, rfl, hsay⟩ := yields_ask (by simp) hrecord
  obtain ⟨⟨⟩, after, rfl, hlines⟩ := yields_ask (by simp) hsay
  exact ⟨record, after, rfl, (bare_sayLines _ rest).of_yields hlines⟩

end Scene

end Parts

/-! ## When a step passes its entries on -/

/-- When a step passes its entries on, among its own deeds. -/
structure Step.Passes (st : Step) (m : Meta) (own : List Deed) : Prop where
  /-- Without text they are delivered at once. -/
  atOnce : st.text = none → ∃ after,
    own = .asked (.noted m) () :: after ∧ ∀ d ∈ after, d.carried? = none
  /-- With commands they are delivered when the first command has given its value. Before it only
  the lines in front of it were said. -/
  afterCommand : ∀ text (plains : List String) c rest, st.text = some text →
    text.map Line.parse = plains.map .plain ++ .command c :: rest → ∃ before args v after,
      own = before ++ .asked (.call c.name args) (.ok v) :: .asked (.noted m) () :: after ∧
      (∀ d ∈ before, d.carried? = none ∧ d.request.isCall = false) ∧
      (before.filterMap fun d => d.request.said?).length = plains.length ∧
      ∀ d ∈ after, d.carried? = none
  /-- With messages only they go with the first message. -/
  withMessage : ∀ line text, st.text = some (line :: text) →
    (∀ l ∈ line :: text, Line.parse l = .plain l) → ∃ record after,
      own = .asked .record record ::
        .asked (.say (Template.fillIn line record) (some m)) () :: after ∧
      ∀ d ∈ after, d.carried? = none
  /-- With no lines at all they are not passed on. -/
  lost : st.text = some [] → ∀ d ∈ own, d.carried? = none

/-- A text has messages only, or there is a first command in it. -/
theorem Line.plain_or_command (text : List String) : (∀ l ∈ text, Line.parse l = .plain l) ∨
    ∃ (plains : List String) (c : CommandLine) (rest : List Line),
      text.map Line.parse = plains.map .plain ++ .command c :: rest := by
  induction text with
  | nil => exact .inl (by simp)
  | cons l text ih =>
      cases hc : CommandLine.parse? l with
      | some c => exact .inr ⟨[], c, text.map Line.parse, by simp [Line.parse, hc]⟩
      | none =>
          have hl : Line.parse l = .plain l := by simp [Line.parse, hc]
          rcases ih with hplain | ⟨plains, c, rest, heq⟩
          · exact .inl (by simpa [hl] using hplain)
          · exact .inr ⟨l :: plains, c, rest, by simp [hl, heq]⟩

section Passes

variable {scene : Scene} {place : Option Place} {st : Step} {m : Meta} {own more : List Deed}

/-- What follows without entries does not matter. -/
theorem Step.Passes.append (h : st.Passes m own) (hmore : ∀ d ∈ more, d.carried? = none) :
    st.Passes m (own ++ more) where
  atOnce htext := by
    obtain ⟨after, rfl, hafter⟩ := h.atOnce htext
    exact ⟨after ++ more, rfl, by simpa [or_imp, forall_and] using ⟨hafter, hmore⟩⟩
  afterCommand text plains c rest htext hlines := by
    obtain ⟨before, args, v, after, rfl, hbefore, hsaid, hafter⟩ :=
      h.afterCommand text plains c rest htext hlines
    refine ⟨before, args, v, after ++ more, by simp, hbefore, hsaid, ?_⟩
    simpa [or_imp, forall_and] using ⟨hafter, hmore⟩
  withMessage line text htext hplain := by
    obtain ⟨record, after, rfl, hafter⟩ := h.withMessage line text htext hplain
    exact ⟨record, after ++ more, rfl, by simpa [or_imp, forall_and] using ⟨hafter, hmore⟩⟩
  lost htext := by simpa [or_imp, forall_and] using ⟨h.lost htext, hmore⟩

theorem Step.passes_of_yields_sayLines {text : List String} {key : Option String}
    {p p' : Progress} (htext : st.text = some text) (hp : p.pending = some m)
    (h : (Scene.sayLines key ((text.map Line.parse).any Line.isCommand) p
      (text.map Line.parse)).Yields own p') : st.Passes m own where
  atOnce hnone := by
    rw [htext] at hnone
    cases hnone
  afterCommand text' plains c rest htext' hlines := by
    obtain rfl := Option.some.inj (htext.symm.trans htext')
    rw [hlines] at h
    have hany : (plains.map Line.plain ++ .command c :: rest).any Line.isCommand = true := by
      simp [Line.isCommand]
    rw [hany] at h
    exact Scene.of_yields_sayLines_command hp h
  withMessage line rest htext' hplain := by
    obtain rfl := Option.some.inj (htext.symm.trans htext')
    have hlines : (line :: rest).map Line.parse = .plain line :: rest.map Line.parse := by
      rw [List.map_cons, hplain line List.mem_cons_self]
    have hany : ((line :: rest).map Line.parse).any Line.isCommand = false := by
      rw [List.any_eq_false]
      intro l hl
      obtain ⟨l', hl', rfl⟩ := List.mem_map.mp hl
      simp [hplain l' hl', Line.isCommand]
    rw [hany, hlines] at h
    exact Scene.of_yields_sayLines_plain hp h
  lost hnil := by
    obtain rfl := Option.some.inj (htext.symm.trans hnil)
    obtain ⟨rfl, -⟩ := yields_done h
    simp

/-- When a step with entries passes them on, if somebody is told of them. -/
theorem Step.passes_of_yields {b : Bool} (hnoted : scene.callbacks.noted = true)
    (hm : st.metaEntries = some m) (h : (scene.runStep place st).Yields own b) :
    st.Passes m own := by
  obtain ⟨own₁, value, own₂, rfl, hvalue, hrest⟩ := Yields.of_bind h
  have hbare : ∀ d ∈ own₂, d.carried? = none := by
    apply Asks.of_yields (P := Request.Bare) _ hrest
    split
    · exact Scene.bare_collect scene place _ _
    · trivial
  refine Step.Passes.append ?_ hbare
  simp only [Scene.stepValue, hnoted, if_true, hm] at hvalue
  cases htext : st.text with
  | none =>
      rw [htext] at hvalue
      obtain ⟨t, u, t', rfl, hnote, hdone⟩ := Yields.of_bind hvalue
      obtain rfl := Scene.of_yields_note hnote
      obtain ⟨rfl, -⟩ := yields_done hdone
      exact
        { atOnce := fun _ => ⟨[], rfl, by simp⟩
          afterCommand := fun _ _ _ _ hsome => by rw [htext] at hsome; cases hsome
          withMessage := fun _ _ hsome => by rw [htext] at hsome; cases hsome
          lost := fun hsome => by rw [htext] at hsome; cases hsome }
  | some text =>
      rw [htext] at hvalue
      obtain ⟨t, p, t', rfl, hlines, hquestion⟩ := Yields.of_bind hvalue
      refine Step.Passes.append (Step.passes_of_yields_sayLines htext rfl hlines) ?_
      apply Asks.of_yields (P := Request.Bare) _ hquestion
      split
      · trivial
      · exact Scene.bare_question scene st

/-- The entries of a step are passed on once, unless its text has no lines. -/
theorem Step.Passes.carried_eq (h : st.Passes m own) :
    own.filterMap Deed.carried? = if st.text = some [] then [] else [m] := by
  have hnone : ∀ t : List Deed, (∀ d ∈ t, d.carried? = none) → t.filterMap Deed.carried? = [] :=
    fun _ ht => List.filterMap_eq_nil_iff.mpr ht
  split
  case isTrue htext => exact hnone own (h.lost htext)
  case isFalse hne =>
    cases htext : st.text with
    | none =>
        obtain ⟨after, rfl, hafter⟩ := h.atOnce htext
        simp [hnone after hafter, Deed.carried?, Deed.request, Request.carried?]
    | some text =>
        rcases Line.plain_or_command text with hplain | ⟨plains, c, rest, hlines⟩
        · cases text with
          | nil => exact absurd htext hne
          | cons line text =>
              obtain ⟨record, after, rfl, hafter⟩ := h.withMessage line text htext hplain
              simp [List.filterMap_cons, hnone after hafter, Deed.carried?, Deed.request,
                Request.carried?]
        · obtain ⟨before, args, v, after, rfl, hbefore, -, hafter⟩ :=
            h.afterCommand text plains c rest htext hlines
          have hnil := hnone before fun d hd => (hbefore d hd).1
          simp [List.filterMap_cons, hnil, hnone after hafter, Deed.carried?, Deed.request,
            Request.carried?]

end Passes

end Dialogue
