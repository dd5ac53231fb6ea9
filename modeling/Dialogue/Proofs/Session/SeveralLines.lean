import Dialogue.Proofs.Session.Inherited
import Dialogue.Proofs.Session.Lines
import Dialogue.Proofs.Session.Queued
/-!
# Questions that want several lines

A step that wants several lines switches the input field over when it asks. Its wait registers with
the input slot only when all that it has queued is delivered, and in between the user may add a
text. That text answers nothing, but it takes back what was set for a question, and so the field is
switched back before the question is open for answers.

* `linesKept_iff` — what remains of the switch after some operations.
* `Session.AwaitsAnswer` — a step has said its lines and waits for its answer.
* `Session.exists_switch` — such a step has switched the field over.
* `Session.several_lines_iff` — the field takes several lines just if each text that was added since
  was followed by another switch.
-/

namespace Dialogue

/-! ## What the operations do to the switch -/

namespace Operation

/-- The operation switches the input field over to several lines. -/
def SwitchesOver (op : Operation) : Prop :=
  ∃ change, op = .setInput change ∧ ∀ i, (change i).textArea = true

/-- If the operation sets the field, it switches the field over or leaves the switch as it is. -/
def SetsProperly (op : Operation) : Prop :=
  ∀ change, op = .setInput change →
    (∀ i, (change i).textArea = i.textArea) ∨ ∀ i, (change i).textArea = true

end Operation

/-- Each text that is added is followed by an operation that switches the field over. -/
def LinesKept (ops : List Operation) : Prop :=
  ∀ before text later, ops = before ++ .addFrom text :: later → ∃ op ∈ later, op.SwitchesOver

/-- If the host sets the field, it switches the field over or leaves the switch as it is. -/
def Incident.SetsProperly (i : Incident) : Prop := ∀ op, i = .operate op → op.SetsProperly

theorem linesKept_of_not_added {ops : List Operation} (h : ∀ text, .addFrom text ∉ ops) :
    LinesKept ops := by
  rintro before text later rfl
  exact absurd (by simp) (h text)

/-- An operation comes last. -/
theorem linesKept_concat {ops : List Operation} {op : Operation} :
    LinesKept (ops ++ [op]) ↔ op.SwitchesOver ∨ (LinesKept ops ∧ ∀ text, op ≠ .addFrom text) := by
  constructor
  · intro h
    by_cases hop : op.SwitchesOver
    · exact .inl hop
    · refine .inr ⟨fun before text later hops => ?_, ?_⟩
      · obtain ⟨op', hop', hswitch⟩ := h before text (later ++ [op]) (by simp [hops])
        rcases List.mem_append.mp hop' with hop' | hop'
        · exact ⟨op', hop', hswitch⟩
        · exact absurd (List.mem_singleton.mp hop' ▸ hswitch) hop
      · rintro text rfl
        obtain ⟨op', hop', -⟩ := h ops text [] rfl
        cases hop'
  · intro h before text later hops
    rcases List.eq_nil_or_concat later with rfl | ⟨later, op', rfl⟩
    · -- The text was added last, which is no switch.
      obtain ⟨-, hop⟩ := List.append_inj' hops rfl
      obtain rfl := List.singleton_injective hop
      rcases h with ⟨change, heq, -⟩ | ⟨-, hne⟩
      · cases heq
      · exact absurd rfl (hne text)
    · have hops : ops ++ [op] = (before ++ .addFrom text :: later) ++ [op'] := by simpa using hops
      obtain ⟨rfl, hop⟩ := List.append_inj' hops rfl
      obtain rfl := List.singleton_injective hop
      rcases h with hswitch | ⟨hkept, -⟩
      · exact ⟨op, by simp, hswitch⟩
      · obtain ⟨op', hop', hswitch⟩ := hkept before text later rfl
        exact ⟨op', by simp [hop'], hswitch⟩

namespace Conversation

variable {c : Conversation}

theorem textArea_perform_iff (hw : c.WorkedOff) {op : Operation} (hop : op.SetsProperly) :
    (c.perform op).input.textArea = true ↔
      op.SwitchesOver ∨ (c.input.textArea = true ∧ ∀ text, op ≠ .addFrom text) := by
  by_cases hset : ∃ change, op = .setInput change
  · obtain ⟨change, rfl⟩ := hset
    have hresult : (c.perform (.setInput change)).input.textArea = (change c.input).textArea := rfl
    rw [hresult]
    rcases hop change rfl with hsame | htrue
    · have hno : ¬(Operation.setInput change).SwitchesOver := by
        rintro ⟨change', heq, htrue⟩
        cases heq
        have hstandard := (hsame .standard).symm.trans (htrue .standard)
        cases hstandard
      simp [hsame, hno]
    · have hswitch : (Operation.setInput change).SwitchesOver := ⟨change, rfl, htrue⟩
      simp [htrue, hswitch]
  · push Not at hset
    have hno : ¬op.SwitchesOver := by
      rintro ⟨change, heq, -⟩
      exact hset change heq
    by_cases hadd : ∀ text, op ≠ .addFrom text
    · rw [input_perform hw hset hadd]
      simp [hno, hadd]
    · push Not at hadd
      obtain ⟨text, rfl⟩ := hadd
      have hreset : (c.perform (.addFrom text)).input.textArea = false := rfl
      simp [hreset, hno]

/-- What remains of the switch after some operations. -/
theorem linesKept_iff (hw : c.WorkedOff) (hlines : c.input.textArea = true) {ops : List Operation}
    (hops : ∀ op ∈ ops, op.SetsProperly) :
    (c.after ops).input.textArea = true ↔ LinesKept ops := by
  induction ops using List.reverseRecOn with
  | nil => exact iff_of_true hlines (linesKept_of_not_added (by simp))
  | append_singleton ops op ih =>
      have hlast : c.after (ops ++ [op]) = (c.after ops).perform op := List.foldl_concat ..
      rw [hlast, textArea_perform_iff (hw.after ops) (hops op (by simp)), linesKept_concat,
        ih fun op' hop' => hops op' (List.mem_append_left _ hop')]

end Conversation

/-! ## Lines that have been said -/

namespace Line.Queues

variable {lines : List Line} {ms ms' : List Mark} {vs vs' : List Json}

/-- Lines queue so much whatever the record is and whatever their commands return. -/
theorem length_marks_eq (h : Line.Queues lines ms vs) (h' : Line.Queues lines ms' vs') :
    ms.length = ms'.length := by
  induction h generalizing ms' vs' with
  | nil =>
      cases h'
      rfl
  | plain _ ih =>
      cases h' with
      | plain h' => simp [ih h']
  | command _ ih =>
      cases h' with
      | command h' => simp [ih h']

/-- Each command among the lines returns a value. -/
theorem length_results (h : Line.Queues lines ms vs) : vs.length = lines.countP Line.isCommand := by
  induction h with
  | nil => rfl
  | plain _ ih =>
      rw [List.countP_cons_of_neg Bool.false_ne_true]
      exact ih
  | command _ ih =>
      rw [List.countP_cons_of_pos rfl, List.length_cons, ih]

end Line.Queues

namespace Session

open Activity Conversation

variable {s : Session} {n : Nat} {ctx : RunContext} {place : Option Place} {st : Step}
  {f : Bool → Activity Bool} {ks : List (Bool → Activity Bool)} {is : List Incident}

/-- A client has begun with a step, and in some incidents it has gone through all lines of the step
and come to wait for an input. So no command has given a value, and the input is the answer to what
the step asks for; the wait may be registered with the input slot or not. -/
structure AwaitsAnswer (s : Session) (n : Nat) (ctx : RunContext) (place : Option Place) (st : Step)
    (f : Bool → Activity Bool) (ks : List (Bool → Activity Bool)) (is : List Incident) : Prop where
  begun : s.stage? n = some (.running ctx (.going ⟨ctx.scene.runStep place st >>= f, ks⟩))
  said : ∃ text t left, st.text = some text ∧
    s.Goes n ctx (fun value => ctx.scene.branch place st value >>= f) ks (ctx.scene.stepValue st) is
      t left [.input] ∧
    Line.Queues (text.map Line.parse) (Deed.allMarks t) (Deed.results t)

/-- An activity that has gone through lines and waits for an input is through with them. -/
theorem not_leaves_of_queues {key : Option String} {commands : Bool} {lines : List Line}
    {p : Progress} {t : List Deed} {k : Except RunError Json → Activity Progress}
    (hqueues : Line.Queues lines (Deed.allMarks t) (Deed.results t)) :
    ¬(Scene.sayLines key commands p lines).Leaves t (.ask .input k) := by
  intro hleaves
  -- However the lines come out, they would queue more, or they would break off at a command.
  obtain ⟨t', r, hcomes⟩ := exists_comes (Activity.ask .input k)
  obtain ⟨a, t'', rfl, -⟩ := (comes_ask_iff (by simp)).mp hcomes
  rcases marks_of_comes_sayLines (hleaves.comes hcomes) with ⟨p', -, hthrough⟩ |
    ⟨before, c, after, ms, part, e, -, rfl, hbefore, -⟩
  · have hlength := hthrough.length_marks_eq hqueues
    simp [Deed.allMarks, Deed.marks, Deed.request, Request.marks, Request.contents] at hlength
  · have hall := hqueues.length_results
    have hsome := hbefore.length_results
    rw [List.countP_append, List.countP_cons_of_pos rfl] at hall
    rw [Deed.results_append, List.length_append] at hsome
    omega

/-- A step that asks for several lines and waits for its answer has switched the field over, in a
turn of its client. -/
theorem exists_switch {collect : Collect} (h : s.AwaitsAnswer n ctx place st f ks is)
    (hreplies : st.quickReplies = none) (hcollect : st.collect = some collect)
    (hmultiple : collect.multiple = true) :
    ∃ earlier later, is = earlier ++ .move (.turn (.client n)) :: later ∧
      (s.after earlier).request? n = some .openTextArea := by
  obtain ⟨text, t, left, htext, hgoes, hqueues⟩ := h.said
  obtain ⟨stage, -, hstands⟩ := hgoes.stands
  obtain ⟨k, rfl⟩ : ∃ k, left = .ask .input k := by
    cases hstands with
    | waiting wait k => exact ⟨k, rfl⟩
  have hleaves := hgoes.leaves
  unfold Scene.stepValue Scene.speak at hleaves
  rw [htext] at hleaves
  rcases leaves_bind_iff.mp hleaves with ⟨m, hm, hne, heq⟩ | ⟨t₁, p, t₂, rfl, -, hrest⟩
  · -- Nothing of the lines is left, as all of them are queued.
    cases m with
    | done a => exact absurd rfl (hne a)
    | fail e => cases heq
    | ask q k' =>
        cases heq
        exact absurd hm (not_leaves_of_queues hqueues)
  · cases hp : p.value with
    | some v =>
        rw [hp] at hrest
        cases (leaves_done_iff.mp hrest).2
    | none =>
        rw [hp] at hrest
        dsimp only [Scene.question] at hrest
        rw [hreplies, hcollect] at hrest
        dsimp only at hrest
        rw [hmultiple] at hrest
        rcases (leaves_ask_iff (by simp)).mp hrest with ⟨-, heq⟩ | ⟨u, t', rfl, -⟩
        · cases heq
        · have hrequested : s.requests n is = t₁.filterMap Deed.asked? ++
              .openTextArea :: (t'.filterMap Deed.asked? ++ [.input]) := by
            rw [hgoes.requested]
            simp [Deed.asked?]
          obtain ⟨earlier, later, his, hq, -⟩ := exists_turn_of_requests hrequested
          exact ⟨earlier, later, his, hq⟩

/-- Clients set the field only to switch it over. -/
theorem setsProperly_of_mem {i : Incident} (hi : i.SetsProperly) {op : Operation}
    (hop : op ∈ s.operations i) : op.SetsProperly := by
  cases i with
  | operate op' =>
      cases List.mem_singleton.mp hop
      exact hi op rfl
  | setRecord k record => cases hop
  | move m =>
      intro change hset
      by_cases hclient : ∃ k, m = .turn (.client k)
      · obtain ⟨k, rfl⟩ := hclient
        rcases clientOperations_cases s k with ⟨-, hops⟩ | ⟨-, hops⟩
        · have hop : op ∈ s.clientOperations k := hop
          rw [hops, List.mem_singleton, hset] at hop
          cases hop
          exact .inr fun _ => rfl
        · exact absurd hset ((hops op hop).1 change)
      · have hleaves : (Incident.move m).LeavesField := ⟨trivial, fun _ => Incident.noConfusion⟩
        refine absurd hset (ne_setInput_of_mem hleaves (fun k hk => hclient ⟨k, ?_⟩) hop change)
        exact Incident.move.inj hk

theorem setsProperly_of_mem_history (his : ∀ i ∈ is, i.SetsProperly) {op : Operation}
    (hop : op ∈ s.history is) : op.SetsProperly := by
  obtain ⟨before, i, later, rfl, hmem⟩ := exists_split_of_mem_gathered hop
  exact setsProperly_of_mem (his i (by simp)) hmem

/-- The field after a client has switched it over and some more has happened. -/
theorem textArea_after_switch (hw : s.conversation.WorkedOff)
    (hq : s.request? n = some .openTextArea) (his : ∀ i ∈ is, i.SetsProperly) :
    (s.after (.move (.turn (.client n)) :: is)).conversation.input.textArea = true ↔
      LinesKept ((s.undergo (.move (.turn (.client n)))).history is) := by
  have hops : s.operations (.move (.turn (.client n))) =
      [.setInput fun i => { i with textArea := true }] := by
    rcases clientOperations_cases s n with ⟨-, hops⟩ | ⟨hne, -⟩
    · exact hops
    · exact absurd hq hne
  have hsame : ∀ {c c' : Conversation}, Alike c c' → c'.input = c.input := by
    rintro c c' ⟨x, rfl, -⟩
    rfl
  have hw' := (accounts_undergo s (.move (.turn (.client n)))).worked hw
  have hlines : (s.undergo (.move (.turn (.client n)))).conversation.input.textArea = true := by
    rw [hsame (alike_undergo hw _), hops]
    rfl
  rw [← linesKept_iff hw' hlines fun op hop => setsProperly_of_mem_history his hop,
    ← hsame (alike_after hw' is)]
  rfl

/-- A step without quick replies has said its lines, no command has given a value, and it waits for
an answer of several lines. So its client has switched the input field over. Whatever has happened
meanwhile, the field takes several lines just if each text that was added since was followed by
another switch; in particular, if no text was added. This holds from the moment when the step asks,
when its lines may still be undelivered, and so also when its wait registers with the input slot. -/
theorem several_lines_iff {settings : Settings} {clock : Clock} {s₀ : Session}
    {before : List Incident} {collect : Collect} (hstart : s₀.conversation = .start settings clock)
    (h : (s₀.after before).AwaitsAnswer n ctx place st f ks is) (hreplies : st.quickReplies = none)
    (hcollect : st.collect = some collect) (hmultiple : collect.multiple = true)
    (his : ∀ i ∈ is, i.SetsProperly) :
    let s := s₀.after before
    ∃ earlier later, is = earlier ++ .move (.turn (.client n)) :: later ∧
      (s.after earlier).request? n = some .openTextArea ∧
      ((s.after is).conversation.input.textArea = true ↔
        LinesKept ((s.after (earlier ++ [.move (.turn (.client n))])).history later)) := by
  intro s
  obtain ⟨earlier, later, rfl, hq⟩ := exists_switch h hreplies hcollect hmultiple
  have hw := workedOff_after (workedOff_after (hstart ▸ workedOff_start settings clock) before)
    earlier
  have hlater : ∀ i ∈ later, i.SetsProperly := fun i hi => his i (by simp [hi])
  have hswitched := textArea_after_switch hw hq hlater
  refine ⟨earlier, later, rfl, hq, ?_⟩
  rw [after_append, after_append]
  exact hswitched

/-! ### A text that comes early -/

/-- A step that says a line and asks for several lines. -/
def tellStep : Step :=
  { Step.empty with text := some ["Tell me"], collect := some ⟨none, true, []⟩ }

/-- A run of the step by itself, without callbacks. -/
def tellContext : RunContext where
  scene := ⟨⟨[⟨defaultTopic, [tellStep]⟩], by simp, by simp⟩, .standard, ⟨false, false, false⟩⟩
  record := 0
  table := .empty

/-- Where the step stands. -/
def tellPlace : Option Place := some ⟨defaultTopic, some 1⟩

/-- How the run goes on after the step. -/
def tellRest (completed : Bool) : Activity Bool :=
  if completed then return true else tellContext.scene.runSteps defaultTopic none []

/-- What the step does with an answer. -/
def tellAnswered (answer : Except RunError Json) : Activity (Option Json) :=
  (match answer with
    | .ok v => Activity.done v
    | .error e => .fail (.run e)) >>= fun v => return v.nonNull?

/-- A session in which the run is about to begin with the step. -/
def tellBegin : List Incident :=
  [.move (.join ⟨"run", .running tellContext .fresh⟩), .move (.turn (.client 0))]

/-- The run says its line, switches the field over and begins to wait. While the line is typed, the
host does something. Then the line is delivered and the field is opened. -/
def tellDelivery (op : Operation) : List Incident :=
  List.replicate 4 (.move (.turn (.client 0))) ++ .move (.turn (.pump 0)) :: .operate op ::
    .move (.arrive 1000) :: List.replicate 4 (.move (.turn (.pump 0)))

/-- The run registers with the input slot. -/
def tellRegister (op : Operation) : List Incident :=
  tellDelivery op ++ [.move (.turn (.client 0))]

/-- The run waits for its answer, whether a text or a value has come early. -/
theorem awaitsAnswer_tellRegister (op : Operation)
    (hop : op = .addFrom "early" ∨ op = .report (.string "early")) :
    (collectSession.after tellBegin).AwaitsAnswer 0 tellContext tellPlace tellStep tellRest []
      (tellRegister op) := by
  have hparse : ["Tell me"].map Line.parse = [.plain "Tell me"] := by decide +kernel
  refine ⟨rfl, ["Tell me"], [.asked .record .empty,
    .asked (.say (Template.fillIn "Tell me" .empty) none) (), .asked .openTextArea ()],
    .ask .input tellAnswered, rfl, ⟨?_, ?_, ?_, ?_, ?_⟩, ?_⟩
  · exact .asked _ (by simp) (.asked _ (by simp) (.asked _ (by simp) (.here _)))
  · have hstage : ((collectSession.after tellBegin).after (tellRegister op)).stage? 0 =
        some (.running tellContext (.waiting 0 fun a => ⟨tellAnswered a >>=
          tellContext.scene.branch tellPlace tellStep >>= tellRest, []⟩)) := by
      rcases hop with rfl | rfl <;> rfl
    simp only [bind_assoc] at hstage
    exact ⟨_, hstage, .waiting 0 tellAnswered⟩
  · rcases hop with rfl | rfl <;> rfl
  · rcases hop with rfl | rfl <;> rfl
  · rcases hop with rfl | rfl <;> exact List.all_eq_true.mp rfl
  · rw [hparse]
    exact .plain .nil

/-- Its wait is registered. -/
theorem prompts_tellRegister (op : Operation)
    (hop : op = .addFrom "early" ∨ op = .report (.string "early")) :
    ((collectSession.after tellBegin).after (tellRegister op)).Prompts 0 := by
  have hprompt : ((collectSession.after tellBegin).after (tellRegister op)).prompt? 0 = some 0 := by
    rcases hop with rfl | rfl <;> decide +kernel
  have hholds : ((collectSession.after tellBegin).after
      (tellRegister op)).conversation.holdsSlot 0 = true := by
    rcases hop with rfl | rfl <;> decide +kernel
  exact ⟨0, hprompt, hholds⟩

theorem setsProperly_tellRegister (op : Operation) (hset : ∀ change, op ≠ .setInput change) :
    ∀ i ∈ tellRegister op, i.SetsProperly := by
  simp [tellRegister, tellDelivery, Incident.SetsProperly, Operation.SetsProperly, hset]

/-- When a value was reported meanwhile, the run registers with the field switched over. -/
theorem several_lines_iff_reported :
    let s := collectSession.after tellBegin
    let is := tellRegister (.report (.string "early"))
    s.AwaitsAnswer 0 tellContext tellPlace tellStep tellRest [] is ∧
      (∀ i ∈ is, i.SetsProperly) ∧ (s.after is).Prompts 0 ∧
      (s.after is).conversation.input.textArea = true := by
  dsimp only
  have hawaits := awaitsAnswer_tellRegister (.report (.string "early")) (.inr rfl)
  have hproperly := setsProperly_tellRegister (.report (.string "early")) fun _ =>
    Operation.noConfusion
  have hprompts := prompts_tellRegister (.report (.string "early")) (.inr rfl)
  have hanswers : (((collectSession.after tellBegin).history
      (tellRegister (.report (.string "early")))).filterMap Operation.answer?).all
        (Doing.switch true) = true := by decide +kernel
  generalize tellRegister (.report (.string "early")) = is at *
  obtain ⟨earlier, later, rfl, -, hlines⟩ := several_lines_iff rfl hawaits rfl rfl rfl hproperly
  refine ⟨hawaits, hproperly, hprompts, hlines.mpr (linesKept_of_not_added ?_)⟩
  -- No text was added at all, and so none since the field was switched over.
  intro text hmem
  have hadded : .added text ∈ ((collectSession.after tellBegin).history
      (earlier ++ .move (.turn (.client 0)) :: later)).filterMap Operation.answer? := by
    rw [List.append_cons, history_append]
    exact List.mem_filterMap.mpr ⟨_, List.mem_append_right _ hmem, rfl⟩
  cases List.all_eq_true.mp hanswers _ hadded

/-- When a text was added meanwhile, the run registers with a field that takes a single line. -/
theorem several_lines_after_added :
    let s := collectSession.after tellBegin
    s.AwaitsAnswer 0 tellContext tellPlace tellStep tellRest [] (tellRegister (.addFrom "early")) ∧
      ¬(s.after (tellDelivery (.addFrom "early"))).Prompts 0 ∧
      (s.after (tellRegister (.addFrom "early"))).Prompts 0 ∧
      (s.after (tellRegister (.addFrom "early"))).conversation.input.textArea = false := by
  dsimp only
  have hopening : ((collectSession.after tellBegin).after
      (tellDelivery (.addFrom "early"))).conversation.holdsSlot 0 = false := by decide +kernel
  have hwaits : ((collectSession.after tellBegin).after
      (tellDelivery (.addFrom "early"))).prompt? 0 = some 0 := by decide +kernel
  have hline : ((collectSession.after tellBegin).after
      (tellRegister (.addFrom "early"))).conversation.input.textArea = false := by decide +kernel
  refine ⟨awaitsAnswer_tellRegister _ (.inl rfl), ?_, prompts_tellRegister _ (.inl rfl), hline⟩
  rintro ⟨wait, hwait, hholds⟩
  cases hwaits.symm.trans hwait
  cases hopening.symm.trans hholds

end Session

end Dialogue
