import Dialogue.Proofs.Run.Outcomes
/-!
# When a step asks the user

A step asks the user when its commands gave no value. It keeps the value of the last command only: a
command that returns `null` takes away what an earlier one has returned. So a step may ask the user
although it was given a value. There is no other way in which it asks without need, and it never
fails to ask when it has to.

* `Deed.questions` — what the user is asked in the course of some deeds, apart from files.
* `Scene.of_comes_runStep` — the value of the last command decides.
* `Scene.asks_as_needed_iff` — when a step asks just if no command gave a value.
-/

namespace Dialogue

/-! ## Questions and results -/

namespace Request

/-- Does the request put a question to the user, or the field in which it is answered? -/
def isQuestion : Request → Bool
  | .offer _ | .openTextArea | .input => true
  | _ => false

/-- The request has nothing to do with the user's answers, nor with the results of commands. -/
def Quiet : Request → Prop
  | .offer _ | .openTextArea | .input | .requestFile | .call _ _ => False
  | _ => True

end Request

namespace Deed

/-- What the user is asked. The input after a request for a file is that file. -/
def questions : List Deed → List Request
  | .asked .requestFile _ :: .asked .input _ :: t => questions t
  | d :: t => if d.request.isQuestion then d.request :: questions t else questions t
  | [] => []

/-- What a command has returned. -/
def returned? : Deed → Option Json
  | .asked (.call _ _) (.ok v) => some v
  | _ => none

/-- What the commands have returned, in their order. -/
def results (t : List Deed) : List Json := t.filterMap returned?

/-- By these deeds the user is asked so, whatever is done after them. -/
def Puts (t : List Deed) (qs : List Request) : Prop :=
  ∀ t', questions (t ++ t') = qs ++ questions t'

variable {t t' : List Deed} {qs qs' : List Request} {d : Deed}

theorem Puts.questions_eq (h : Puts t qs) : questions t = qs := by
  simpa [questions] using h []

theorem puts_nil : Puts [] [] := fun _ => rfl

theorem Puts.append (h : Puts t qs) (h' : Puts t' qs') : Puts (t ++ t') (qs ++ qs') := by
  intro t''
  rw [List.append_assoc, h, h', List.append_assoc]

theorem questions_cons (hfile : d.request ≠ .requestFile) :
    questions (d :: t) =
      if d.request.isQuestion then d.request :: questions t else questions t := by
  rcases d with ⟨q, a⟩ | topic
  · cases q
    case requestFile => exact absurd rfl hfile
    all_goals rfl
  · rfl

theorem Puts.skip (h : Puts t qs) (hfile : d.request ≠ .requestFile)
    (hquestion : d.request.isQuestion = false) : Puts (d :: t) qs := by
  intro t'
  rw [List.cons_append, questions_cons hfile, hquestion]
  exact h t'

theorem Puts.quiet (h : Puts t qs) (hd : d.request.Quiet) : Puts (d :: t) qs := by
  apply h.skip
  · intro heq
    rw [heq] at hd
    exact hd
  · cases hq : d.request <;> rw [hq] at hd <;> first | rfl | exact hd.elim

theorem Puts.question {q : Request} {a : q.Answer} (h : Puts t qs) (hq : q.isQuestion = true) :
    Puts (.asked q a :: t) (q :: qs) := by
  intro t'
  have hfile : (Deed.asked q a).request ≠ .requestFile := by
    rintro rfl
    cases hq
  rw [List.cons_append, questions_cons hfile]
  simp [Deed.request, hq, h t']

theorem Puts.file {u : Unit} {a : Except RunError Json} (h : Puts t qs) :
    Puts (.asked .requestFile u :: .asked .input a :: t) qs := h

example : questions [.asked .requestFile (), .asked .input (.ok .null),
    .asked .input (.ok .null)] = [.input] := rfl

theorem puts_of_quiet (h : ∀ d ∈ t, d.request.Quiet) : Puts t [] := by
  induction t with
  | nil => exact puts_nil
  | cons d t ih =>
      obtain ⟨hd, ht⟩ := List.forall_mem_cons.mp h
      exact (ih ht).quiet hd

theorem results_append : results (t ++ t') = results t ++ results t' := List.filterMap_append

theorem results_eq_nil (h : ∀ d ∈ t, d.request.isCall = false) : results t = [] := by
  refine List.filterMap_eq_nil_iff.mpr fun d hd => ?_
  have hcall := h d hd
  rcases d with ⟨q, a⟩ | topic
  · cases q
    case call => cases hcall
    all_goals rfl
  · rfl

theorem results_of_quiet (h : ∀ d ∈ t, d.request.Quiet) : results t = [] := by
  refine results_eq_nil fun d hd => ?_
  have hquiet := h d hd
  cases hq : d.request <;> rw [hq] at hquiet <;> first | rfl | exact hquiet.elim

theorem results_cons_of_quiet (hd : d.request.Quiet) : results (d :: t) = results t := by
  have hnil : results [d] = [] := results_of_quiet (by simpa using hd)
  rw [← List.singleton_append, results_append, hnil, List.nil_append]

end Deed

/-- What a step that was given no value asks for: one of the quick replies, or else a value to
collect, which may have several lines. -/
def Step.demand (st : Step) : List Request :=
  match st.quickReplies, st.collect with
  | some replies, _ => [.offer (Scene.replyItems replies), .input]
  | none, some c => if c.multiple then [.openTextArea, .input] else [.input]
  | none, none => []

/-! ## The parts of a step -/

open Activity Deed

section Parts

variable {key : Option String} {t : List Deed}

namespace CommandLine

/-- For the arguments of a command the user is asked for files only. -/
theorem puts_gather {args : List ImplicitArg} {r : Except ChatError (List Argument)}
    (h : (gather key args).Comes t r) : Puts t [] := by
  induction args generalizing t r with
  | nil =>
      obtain ⟨rfl, -⟩ := comes_done_iff.mp h
      exact puts_nil
  | cons arg rest ih =>
      have hrest : ∀ {f : List Argument → List Argument} {t : List Deed}
          {r : Except ChatError (List Argument)},
          (gather key rest >>= fun as => .done (f as)).Comes t r → Puts t [] := by
        intro f t r h
        rcases comes_bind_iff.mp h with ⟨e, he, -⟩ | ⟨t₁, as, t₂, rfl, h₁, h₂⟩
        · exact ih he
        · obtain ⟨rfl, -⟩ := comes_done_iff.mp h₂
          rw [List.append_nil]
          exact ih h₁
      cases arg with
      | record | context | key => exact hrest h
      | uploader =>
          obtain ⟨-, t₁, rfl, hinput⟩ := (comes_request_bind_iff (by simp)).mp h
          obtain ⟨a, t₂, rfl, hfile⟩ := comes_input_bind_iff.mp hinput
          cases a with
          | error e =>
              obtain ⟨rfl, -⟩ := hfile
              exact puts_nil.file
          | ok v => exact (hrest hfile).file

/-- A command returns a value, or its line fails. -/
theorem of_comes_invoke {c : CommandLine} {r : Except ChatError Json}
    (h : (c.invoke key).Comes t r) : Puts t [] ∧ results t = r.toOption.toList := by
  have hgather : ∀ {t r}, (gather key c.args).Comes t r → results t = [] := fun h =>
    results_eq_nil fun d hd => ((asks_gather key c.args).of_comes h d hd).bare.2.1
  rw [invoke_eq] at h
  obtain ⟨found, t₁, rfl, hfound⟩ := (comes_ask_iff (by simp)).mp h
  have hresolve : (Deed.asked (.resolve c.name) found).request.Quiet := trivial
  cases found with
  | false =>
      obtain ⟨rfl, rfl⟩ := comes_fail_iff.mp hfound
      exact ⟨puts_nil.quiet hresolve, rfl⟩
  | true =>
      rcases comes_bind_iff.mp hfound with ⟨e, he, rfl⟩ | ⟨t₁, args, t₂, rfl, h₁, h₂⟩
      · have hnil := hgather he
        exact ⟨(puts_gather he).quiet hresolve, hnil⟩
      · obtain ⟨result, t₃, rfl, h₃⟩ := (comes_ask_iff (by simp)).mp h₂
        have hcall : Puts (.asked (.call c.name args) result :: t₃) [] ∧
            results (.asked (.call c.name args) result :: t₃) = r.toOption.toList := by
          cases result with
          | error reason =>
              obtain ⟨rfl, rfl⟩ := comes_fail_iff.mp h₃
              exact ⟨puts_nil.skip (by rintro ⟨⟩) rfl, rfl⟩
          | ok v =>
              obtain ⟨rfl, rfl⟩ := comes_done_iff.mp h₃
              exact ⟨puts_nil.skip (by rintro ⟨⟩) rfl, rfl⟩
        refine ⟨((puts_gather h₁).append hcall.1).quiet hresolve, ?_⟩
        show results (t₁ ++ _) = _
        rw [results_append, hgather h₁, hcall.2, List.nil_append]

end CommandLine

namespace Scene

variable {scene : Scene} {st : Step} {place : Option Place} {commands : Bool} {p : Progress}

theorem comes_note {pending : Option Meta} {r : Except ChatError Unit}
    (h : (note pending).Comes t r) : (∀ d ∈ t, d.request.Quiet) ∧ r = .ok () := by
  cases pending with
  | none =>
      obtain ⟨rfl, rfl⟩ := comes_done_iff.mp h
      exact ⟨by simp, rfl⟩
  | some entries =>
      obtain ⟨u, t₁, rfl, hdone⟩ := (comes_ask_iff (by simp)).mp h
      obtain ⟨rfl, rfl⟩ := comes_done_iff.mp hdone
      exact ⟨by simp [Deed.request, Request.Quiet], rfl⟩

/-- When the lines of a step have been gone through, each command has returned a value, and that of
the last one is kept. Otherwise some command has not returned. -/
theorem of_comes_sayLines {lines : List Line} {r : Except ChatError Progress}
    (h : (sayLines key commands p lines).Comes t r) :
    Puts t [] ∧
      ((∃ p', r = .ok p' ∧ (results t).length = lines.countP Line.isCommand ∧
          p'.value = (results t).foldl (fun _ v => v.nonNull?) p.value) ∨
        ∃ e, r = .error e ∧ (results t).length < lines.countP Line.isCommand) := by
  induction lines generalizing p t with
  | nil =>
      obtain ⟨rfl, rfl⟩ := comes_done_iff.mp h
      exact ⟨puts_nil, .inl ⟨p, rfl, rfl, rfl⟩⟩
  | cons line rest ih =>
      cases line with
      | command c =>
          rcases comes_bind_iff.mp h with ⟨e, he, rfl⟩ | ⟨t₁, v, t₂, rfl, h₁, h₂⟩
          · obtain ⟨hputs, hresults⟩ := CommandLine.of_comes_invoke he
            refine ⟨hputs, .inr ⟨e, rfl, ?_⟩⟩
            rw [hresults]
            simp [Except.toOption, Line.isCommand]
          · obtain ⟨hputs₁, hresults₁⟩ := CommandLine.of_comes_invoke h₁
            rcases comes_bind_iff.mp h₂ with ⟨e, he, -⟩ | ⟨t₂, u, t₃, rfl, hnote, hrest⟩
            · cases (comes_note he).2
            · have hquiet := (comes_note hnote).1
              obtain ⟨hputs₃, houtcome⟩ := ih hrest
              have hresults : results (t₁ ++ (t₂ ++ t₃)) = v :: results t₃ := by
                rw [results_append, results_append, hresults₁, results_of_quiet hquiet]
                rfl
              refine ⟨hputs₁.append ((puts_of_quiet hquiet).append hputs₃), ?_⟩
              rw [hresults, List.countP_cons_of_pos rfl, List.length_cons, List.foldl_cons]
              rcases houtcome with ⟨p', rfl, hlength, hvalue⟩ | ⟨e, rfl, hlength⟩
              · exact .inl ⟨p', rfl, congrArg (· + 1) hlength, hvalue⟩
              · exact .inr ⟨e, rfl, Nat.succ_lt_succ hlength⟩
      | plain text =>
          obtain ⟨record, t₁, rfl, hsay⟩ := (comes_request_bind_iff (by simp)).mp h
          -- A text is said with entries or without any, and neither is a question.
          have hrest : ∃ q u p' t₂, t₁ = .asked q u :: t₂ ∧ q.Quiet ∧ p'.value = p.value ∧
              (sayLines key commands p' rest).Comes t₂ r := by
            cases commands with
            | true =>
                obtain ⟨u, t₂, rfl, hrest⟩ := (comes_request_bind_iff (by simp)).mp hsay
                exact ⟨_, u, p, t₂, rfl, trivial, rfl, hrest⟩
            | false =>
                obtain ⟨u, t₂, rfl, hrest⟩ := (comes_request_bind_iff (by simp)).mp hsay
                exact ⟨_, u, { p with pending := none }, t₂, rfl, trivial, rfl, hrest⟩
          obtain ⟨q, u, p', t₂, rfl, hq, hvalue, hrest⟩ := hrest
          obtain ⟨hputs, houtcome⟩ := ih hrest
          have hrecord : (Deed.asked .record record).request.Quiet := trivial
          have hquiet : (Deed.asked q u).request.Quiet := hq
          rw [results_cons_of_quiet hrecord, results_cons_of_quiet hquiet,
            List.countP_cons_of_neg (by simp [Line.isCommand]), ← hvalue]
          exact ⟨(hputs.quiet hquiet).quiet hrecord, houtcome⟩

/-- A question is put as the step demands. -/
theorem of_comes_question {r : Except ChatError (Option Json)}
    (h : (scene.question st).Comes t r) : Puts t st.demand ∧ results t = [] := by
  have hinput : ∀ {f : Json → Activity (Option Json)} {t : List Deed},
      (∀ v, (f v).Asks Request.Quiet) → (input >>= f).Comes t r →
      Puts t [.input] ∧ results t = [] := by
    intro f t hf h
    obtain ⟨a, t', rfl, hanswer⟩ := comes_input_bind_iff.mp h
    have hquiet : ∀ d ∈ t', d.request.Quiet := by
      cases a with
      | ok v => exact (hf v).of_comes hanswer
      | error e =>
          obtain ⟨rfl, -⟩ := hanswer
          simp
    have hresults := results_of_quiet hquiet
    exact ⟨(puts_of_quiet hquiet).question rfl, hresults⟩
  have hdone : ∀ v : Json, (Activity.done v.nonNull?).Asks Request.Quiet := fun _ => trivial
  unfold question at h
  split at h
  · next replies hreplies =>
    obtain ⟨u, t', rfl, hanswer⟩ := (comes_request_bind_iff (by simp)).mp h
    have hfire : ∀ v, (scene.fire st v >>= fun _ => .done v.nonNull?).Asks Request.Quiet :=
      fun v => (scene.asks_fire (fun _ => trivial) st v).bind fun _ => hdone v
    obtain ⟨hputs, hresults⟩ := hinput hfire hanswer
    rw [Step.demand, hreplies]
    exact ⟨hputs.question rfl, hresults⟩
  · next collect hreplies hcollect =>
    rw [Step.demand, hreplies, hcollect]
    dsimp only
    cases hmultiple : collect.multiple with
    | true =>
        rw [hmultiple] at h
        obtain ⟨u, t', rfl, hanswer⟩ := (comes_request_bind_iff (by simp)).mp h
        obtain ⟨hputs, hresults⟩ := hinput hdone hanswer
        exact ⟨hputs.question rfl, hresults⟩
    | false =>
        rw [hmultiple] at h
        exact hinput hdone h
  · next hreplies hcollect =>
    rw [Step.demand, hreplies, hcollect]
    obtain ⟨rfl, -⟩ := comes_done_iff.mp h
    exact ⟨puts_nil, rfl⟩

end Scene

end Parts

/-! ## The step -/

/-- The number of commands among the lines of a text. -/
def Line.commandCount (text : List String) : Nat := (text.map Line.parse).countP Line.isCommand

/-- The value of the last command, unless that is `null`. -/
def Deed.lastValue? (t : List Deed) : Option Json := (results t).getLast?.bind Json.nonNull?

theorem foldl_nonNull? (vs : List Json) :
    vs.foldl (fun _ v => v.nonNull?) none = vs.getLast?.bind Json.nonNull? := by
  rcases List.eq_nil_or_concat vs with rfl | ⟨vs, v, rfl⟩
  · rfl
  · simp

namespace Scene

variable {scene : Scene} {st : Step} {place : Option Place} {text : List String} {t : List Deed}

/-- The step hands a value on, which is recorded and decides how it goes on. -/
def HandsOn (scene : Scene) (place : Option Place) (st : Step) (c : Collect) (v : Json)
    (t : List Deed) (r : Except ChatError Bool) : Prop :=
  ∃ t₁ t₂, t = t₁ ++ t₂ ∧ (scene.stepValue st).Comes t₁ (.ok (some v)) ∧
    (scene.collect place c st.collectKey v).Comes t₂ r

theorem of_comes_speak {pending : Option Meta} {r : Except ChatError (Option Json)}
    (h : (scene.speak st pending text).Comes t r) :
    (∃ e, r = .error e ∧ Puts t [] ∧ (results t).length < Line.commandCount text) ∨
      (results t).length = Line.commandCount text ∧
        ((∃ v, lastValue? t = some v ∧ Puts t [] ∧ r = .ok (some v)) ∨
          lastValue? t = none ∧ Puts t st.demand) := by
  rcases comes_bind_iff.mp h with ⟨e, he, rfl⟩ | ⟨t₁, p, t₂, rfl, hlines, hrest⟩
  · obtain ⟨hputs, ⟨p', hp', -⟩ | ⟨e', he', hlength⟩⟩ := of_comes_sayLines he
    · cases hp'
    · exact .inl ⟨e, rfl, hputs, hlength⟩
  · obtain ⟨hputs, ⟨p', hp', hlength, hvalue⟩ | ⟨e', he', -⟩⟩ := of_comes_sayLines hlines
    · cases hp'
      rw [foldl_nonNull?] at hvalue
      refine .inr ?_
      cases hp : p.value with
      | some v =>
          rw [hp] at hrest
          obtain ⟨rfl, rfl⟩ := comes_done_iff.mp hrest
          rw [List.append_nil]
          exact ⟨hlength, .inl ⟨v, hvalue.symm.trans hp, hputs, rfl⟩⟩
      | none =>
          rw [hp] at hrest
          obtain ⟨hputs₂, hresults₂⟩ := of_comes_question hrest
          have hresults : results (t₁ ++ t₂) = results t₁ := by
            rw [results_append, hresults₂, List.append_nil]
          rw [lastValue?, hresults]
          exact ⟨hlength, .inr ⟨hvalue.symm.trans hp, hputs.append hputs₂⟩⟩
    · cases he'

/-- A step that goes through its lines hands on the value of the last command and asks nothing, or
it asks what it demands when that value is `null`. -/
theorem of_comes_runStep (htext : st.text = some text) {r : Except ChatError Bool}
    (h : (scene.runStep place st).Comes t r) :
    (∃ e, r = .error e ∧ questions t = [] ∧ (results t).length < Line.commandCount text) ∨
      (results t).length = Line.commandCount text ∧
        ((∃ v, lastValue? t = some v ∧ questions t = [] ∧
            ∀ c, st.collect = some c → scene.HandsOn place st c v t r) ∨
          lastValue? t = none ∧ questions t = st.demand) := by
  have hspeak : ∀ {t r}, (scene.stepValue st).Comes t r → ∃ pending,
      (scene.speak st pending text).Comes t r := by
    intro t r h
    rw [stepValue, htext] at h
    exact ⟨_, h⟩
  rcases comes_bind_iff.mp h with ⟨e, he, rfl⟩ | ⟨t₁, value, t₂, rfl, h₁, h₂⟩
  · obtain ⟨pending, hvalue⟩ := hspeak he
    rcases of_comes_speak hvalue with ⟨e', -, hputs, hlength⟩ |
      ⟨hlength, ⟨v, -, -, hr⟩ | ⟨hlast, hputs⟩⟩
    · exact .inl ⟨e, rfl, hputs.questions_eq, hlength⟩
    · cases hr
    · exact .inr ⟨hlength, .inr ⟨hlast, hputs.questions_eq⟩⟩
  · have hquiet : ∀ d ∈ t₂, d.request.Quiet := by
      apply Asks.of_comes (P := Request.Quiet) _ h₂
      split
      · exact scene.asks_collect (fun _ _ => trivial) (fun _ _ => trivial) (fun _ _ => trivial)
          (fun _ => trivial) _
      · trivial
    have hresults : results (t₁ ++ t₂) = results t₁ := by
      rw [results_append, results_of_quiet hquiet, List.append_nil]
    have hputs₂ := puts_of_quiet hquiet
    rw [lastValue?, hresults]
    obtain ⟨pending, hvalue⟩ := hspeak h₁
    rcases of_comes_speak hvalue with ⟨e', hr, -⟩ |
      ⟨hlength, ⟨v, hlast, hputs, hr⟩ | ⟨hlast, hputs⟩⟩
    · cases hr
    · cases hr
      refine .inr ⟨hlength, .inl ⟨v, hlast, (hputs.append hputs₂).questions_eq, fun c hc => ?_⟩⟩
      rw [hc] at h₂
      exact ⟨t₁, t₂, rfl, h₁, h₂⟩
    · refine .inr ⟨hlength, .inr ⟨hlast, ?_⟩⟩
      rw [(hputs.append hputs₂).questions_eq, List.append_nil]

/-! ### Asking as needed -/

/-- The step asks the user when no command gave a value, and only then. -/
structure AsksAsNeeded (scene : Scene) (place : Option Place) (st : Step) (text : List String)
    (t : List Deed) (r : Except ChatError Bool) : Prop where
  /-- When a command returned a value, the user is not asked. -/
  spared : (∃ v ∈ results t, v ≠ .null) → questions t = []
  /-- A value of a command is handed on then, once all commands have returned. -/
  handed : (∃ v ∈ results t, v ≠ .null) → (results t).length = Line.commandCount text →
    ∀ c, st.collect = some c → ∃ v ∈ results t, v ≠ .null ∧ scene.HandsOn place st c v t r
  /-- When all commands have returned and none gave a value, the user is asked. -/
  asked : (results t).length = Line.commandCount text → (∀ v ∈ results t, v = .null) →
    questions t = st.demand

/-- All commands of the step have returned, and the last one has taken away the value of an earlier
one, so that the step asks for what it demands. -/
structure TakesBack (st : Step) (text : List String) (t : List Deed) : Prop where
  returned : (results t).length = Line.commandCount text
  given : ∃ v ∈ results t, v ≠ .null
  last : (results t).getLast? = some .null
  demands : st.quickReplies.isSome ∨ st.collect.isSome

theorem demand_eq_nil_iff : st.demand = [] ↔ ¬ (st.quickReplies.isSome ∨ st.collect.isSome) := by
  unfold Step.demand
  cases st.quickReplies with
  | some replies => simp
  | none =>
      cases st.collect with
      | none => simp
      | some c => cases hmultiple : c.multiple <;> simp [hmultiple]

theorem nonNull?_eq_some_iff {v w : Json} : v.nonNull? = some w ↔ v = w ∧ v ≠ .null := by
  cases v <;> simp [Json.nonNull?, Json.isNull]

theorem lastValue?_eq_some {v : Json} (h : lastValue? t = some v) :
    (results t).getLast? = some v ∧ v ≠ .null := by
  obtain ⟨w, hlast, hw⟩ := Option.bind_eq_some_iff.mp h
  obtain ⟨rfl, hne⟩ := nonNull?_eq_some_iff.mp hw
  exact ⟨hlast, hne⟩

theorem getLast?_of_lastValue?_eq_none (h : lastValue? t = none) (hne : results t ≠ []) :
    (results t).getLast? = some .null := by
  cases hlast : (results t).getLast? with
  | none => exact absurd (List.getLast?_eq_none_iff.mp hlast) hne
  | some v =>
      rw [lastValue?, hlast] at h
      cases v <;> simp_all [Json.nonNull?, Json.isNull]

/-- A step asks as needed, unless the last command takes back the value of an earlier one. -/
theorem asks_as_needed_iff (htext : st.text = some text) {r : Except ChatError Bool}
    (h : (scene.runStep place st).Comes t r) :
    scene.AsksAsNeeded place st text t r ↔ ¬ TakesBack st text t := by
  rcases of_comes_runStep htext h with ⟨e, rfl, hnone, hlength⟩ |
    ⟨hlength, ⟨v, hvalue, hnone, hhands⟩ | ⟨hvalue, hasked⟩⟩
  · -- Some command has failed: there is nothing to hand on, and nothing to ask.
    have hne := Nat.ne_of_lt hlength
    refine iff_of_true ⟨fun _ => hnone, ?_, ?_⟩ fun hback => hne hback.returned
    · exact fun _ heq => absurd heq hne
    · exact fun heq => absurd heq hne
  · obtain ⟨hlast, hne⟩ := lastValue?_eq_some hvalue
    have hmem : v ∈ results t := List.mem_of_getLast? hlast
    refine iff_of_true ⟨fun _ => hnone, ?_, ?_⟩ fun hback => ?_
    · exact fun _ _ c hc => ⟨v, hmem, hne, hhands c hc⟩
    · exact fun _ hnull => absurd (hnull v hmem) hne
    · exact hne (Option.some.inj (hlast.symm.trans hback.last))
  · constructor
    · intro hneeded hback
      have hdemand := demand_eq_nil_iff.mp (hasked.symm.trans (hneeded.spared hback.given))
      exact hdemand hback.demands
    · intro hback
      by_cases hgiven : ∃ v ∈ results t, v ≠ .null
      · have hlast : (results t).getLast? = some .null := by
          refine getLast?_of_lastValue?_eq_none hvalue ?_
          obtain ⟨v, hmem, -⟩ := hgiven
          exact List.ne_nil_of_mem hmem
        have hdemand : ¬ (st.quickReplies.isSome ∨ st.collect.isSome) :=
          fun hdemand => hback ⟨hlength, hgiven, hlast, hdemand⟩
        refine ⟨fun _ => hasked.trans (demand_eq_nil_iff.mpr hdemand), ?_, fun _ _ => hasked⟩
        exact fun _ _ c hc => absurd (.inr (Option.isSome_of_eq_some hc)) hdemand
      · exact ⟨fun h => absurd h hgiven, fun h => absurd h hgiven, fun _ _ => hasked⟩

/-- A step that collects what its commands give. -/
def collecting (text : List String) : Step :=
  { Step.empty with text := some text, collect := some ⟨some "k", false, []⟩ }

/-- A scene with nothing but that step. -/
def collectingScene (text : List String) : Scene where
  index :=
    { threads := [⟨defaultTopic, [collecting text]⟩]
      distinct := by simp
      startsSomewhere := by simp }
  engine := .standard
  callbacks := ⟨false, false, false⟩

theorem asks_as_needed_give :
    let st := collecting ["cmd.give()"]
    let t : List Deed :=
      [.asked (.resolve "give") true, .asked (.call "give" []) (.ok (.string "v")),
        .asked (.store "k" (.string "v")) ()]
    ((collectingScene ["cmd.give()"]).runStep none st).Comes t (.ok false) ∧
      (collectingScene ["cmd.give()"]).AsksAsNeeded none st ["cmd.give()"] t (.ok false) := by
  intro st t
  have hcomes : ((collectingScene ["cmd.give()"]).runStep none st).Comes t (.ok false) := by
    refine .asked (q := .resolve "give") true (by simp) ?_
    refine .asked (q := .call "give" []) (.ok (.string "v")) (by simp) ?_
    refine .asked (q := .store "k" (.string "v")) () (by simp) ?_
    exact .done false
  refine ⟨hcomes, (asks_as_needed_iff rfl hcomes).mpr fun hback => ?_⟩
  cases hback.last

/-- A command without a value takes back what an earlier one gave, and the user is asked instead. -/
theorem asks_for_value_taken_back :
    let text := ["cmd.give()", "cmd.nothing()"]
    let t : List Deed :=
      [.asked (.resolve "give") true, .asked (.call "give" []) (.ok (.string "v")),
        .asked (.resolve "nothing") true, .asked (.call "nothing" []) (.ok .null),
        .asked .input (.ok (.string "typed")), .asked (.store "k" (.string "typed")) ()]
    ((collectingScene text).runStep none (collecting text)).Comes t (.ok false) ∧
      questions t = [.input] ∧
      ¬ (collectingScene text).AsksAsNeeded none (collecting text) text t (.ok false) := by
  intro text t
  refine ⟨?_, rfl, fun hneeded => ?_⟩
  · refine .asked (q := .resolve "give") true (by simp) ?_
    refine .asked (q := .call "give" []) (.ok (.string "v")) (by simp) ?_
    refine .asked (q := .resolve "nothing") true (by simp) ?_
    refine .asked (q := .call "nothing" []) (.ok .null) (by simp) ?_
    refine .asked (q := .input) (.ok (.string "typed")) (by simp) ?_
    refine .asked (q := .store "k" (.string "typed")) () (by simp) ?_
    exact .done false
  · have hgiven : ∃ v ∈ results t, v ≠ .null :=
      ⟨.string "v", List.mem_cons_self, by rintro ⟨⟩⟩
    cases hneeded.spared hgiven

end Scene

end Dialogue
