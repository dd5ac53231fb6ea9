import Dialogue.Proofs.Run.Queued
import Dialogue.Proofs.Session.Waiters
/-!
# What the steps of a client queue

In a session a client runs a step in many turns, with anything else in between. Its commands change
the record and may take their time, other clients queue their own items, and the host does what it
likes. What the client itself queues is all the same what the step is to queue, with the record as
it is at the moment when a line is filled in; and it takes nothing back.

* `Session.marksIn` — what a client itself queues, and when.
* `Session.Goes` — a client has come from an activity to what remains of it.
* `Session.exists_goes` — whatever happens, a client goes through a plain activity.
* `Session.step_queues_lines` — what it queues for a step.
-/

namespace Dialogue

namespace Scene

/-- What a step does with its value. -/
def branch (scene : Scene) (place : Option Place) (st : Step) (value : Option Json) :
    Activity Bool :=
  match value, st.collect with
  | some v, some c => scene.collect place c st.collectKey v
  | _, _ => return false

theorem runStep_eq (scene : Scene) (place : Option Place) (st : Step) :
    scene.runStep place st = scene.stepValue st >>= scene.branch place st := rfl

end Scene

namespace Session

open Activity Conversation

/-! ## Marks in a session -/

/-- The record of the run of a client. -/
def recordOf? (s : Session) (n : Nat) : Option Record :=
  match s.stage? n with
  | some (.running ctx _) => some (s.recordAt ctx.record)
  | _ => none

/-- What a client does to the conversation in an incident. -/
def operationsOf (n : Nat) (s : Session) : Incident → List Operation
  | .move (.turn (.client k)) => if k = n then s.clientOperations n else []
  | _ => []

/-- What matters in an incident for what a client itself queues: not what its commands queue. -/
def marksIn (n : Nat) (s : Session) (i : Incident) : List Mark :=
  (requestIn n s i).flatMap fun
    | .record => (s.recordOf? n).toList.map .read
    | .call name _ => [.called name]
    | _ => ((operationsOf n s i).flatMap s.conversation.enqueues).map fun x => .queued x.content

variable {α : Type}

/-- The client stands at what remains of an activity, and some requests are made and not answered
yet. When the activity is done the run goes on. -/
inductive Stands (ctx : RunContext) (f : α → Activity Bool) (ks : List (Bool → Activity Bool)) :
    ClientStage → Activity α → List Request → Prop
  | going (m : Activity α) : Stands ctx f ks (.running ctx (.going ⟨m >>= f, ks⟩)) m []
  | waiting (wait : Nat) (k : Except RunError Json → Activity α) :
      Stands ctx f ks (.running ctx (.waiting wait fun a => ⟨k a >>= f, ks⟩)) (.ask .input k)
        [.input]
  | working (c : CommandSpec) (name : String) (args : List Argument) (due : Nat)
      (k : Except String Json → Activity α) :
      Stands ctx f ks (.running ctx (.working c args due fun a => ⟨k a >>= f, ks⟩))
        (.ask (.call name args) k) [.call name args]
  | seeking (path name : String) (args : List Argument) (k : Except String Json → Activity α) :
      Stands ctx f ks (.running ctx (.seeking path args fun a => ⟨k a >>= f, ks⟩))
        (.ask (.call name args) k) [.call name args]
  | ended (e : ChatError) : Stands ctx f ks .ended (.fail e) []

/-- In some incidents a client has come by its deeds from an activity to what remains of it. -/
structure Goes (s : Session) (n : Nat) (ctx : RunContext) (f : α → Activity Bool)
    (ks : List (Bool → Activity Bool)) (m : Activity α) (is : List Incident) (t : List Deed)
    (m' : Activity α) (opened : List Request) : Prop where
  leaves : m.Leaves t m'
  stands : ∃ stage, (s.after is).stage? n = some stage ∧ Stands ctx f ks stage m' opened
  /-- The requests of the deeds are those that the client has made. -/
  requested : s.requests n is = t.filterMap Deed.asked? ++ opened
  /-- What the client itself has queued is what the deeds queue. -/
  marked : s.gathered (marksIn n) is = Deed.allMarks t ++ opened.flatMap Request.marks
  /-- The client takes nothing out of the queue. -/
  orderly : ∀ op ∈ s.gathered (operationsOf n) is, op.isOrderly = true

variable {s : Session} {n : Nat} {ctx : RunContext} {f : α → Activity Bool}
  {ks : List (Bool → Activity Bool)} {m m' : Activity α} {stage : ClientStage}
  {opened : List Request}

/-! ## Requests and their marks -/

/-- What a request does to the conversation is what it queues. -/
theorem content_enqueues (c : Conversation) {q : Request} (hq : ∀ name args, q ≠ .call name args) :
    ((s.requestOperations n ctx q).flatMap c.enqueues).map Item.content = q.contents := by
  cases q with
  | call name args => exact absurd rfl (hq name args)
  | record | say | offer | requestFile | openTextArea | input | resolve | store | collected | noted
  | fired | acting | enter => rfl

theorem next_ask (scene : Scene) (f : α → Activity Bool) (ks : List (Bool → Activity Bool))
    {q : Request} (hq : q.isPlain = true) (k : q.Answer → Activity α) :
    Run.next scene ⟨.ask q k >>= f, ks⟩ = .asks q fun a => ⟨k a >>= f, ks⟩ := by
  cases q
  case enter topic => cases hq
  all_goals rfl

theorem clientOperations_going {r : Run} {q : Request} {k : q.Answer → Run}
    (hs : s.stage? n = some (.running ctx (.going r))) (hn : r.next ctx.scene = .asks q k) :
    s.clientOperations n = s.requestOperations n ctx q := by
  rw [clientOperations, hs]
  dsimp only [runOperations]
  rw [hn]

/-- What matters in a request when the record is this one. -/
def marksWith (record : Record) : Request → List Mark
  | .record => [.read record]
  | q => q.marks

theorem marksIn_going {r : Run} {q : Request} {k : q.Answer → Run}
    (hs : s.stage? n = some (.running ctx (.going r))) (hn : r.next ctx.scene = .asks q k) :
    marksIn n s (.move (.turn (.client n))) = marksWith (s.recordAt ctx.record) q := by
  have hrequest : requestIn n s (.move (.turn (.client n))) = [q] := by
    rw [requestIn, if_pos rfl, request?_going hs, hn]
    rfl
  have hrecord : s.recordOf? n = some (s.recordAt ctx.record) := by rw [recordOf?, hs]
  have hoperations :
      operationsOf n s (.move (.turn (.client n))) = s.requestOperations n ctx q := by
    rw [operationsOf, if_pos rfl, clientOperations_going hs hn]
  rw [marksIn, hrequest, List.flatMap_singleton]
  have hqueued : (∀ name args, q ≠ .call name args) →
      ((operationsOf n s (.move (.turn (.client n)))).flatMap s.conversation.enqueues).map
        (fun x => Mark.queued x.content) = q.contents.map .queued := by
    intro hq
    rw [hoperations, ← content_enqueues s.conversation hq, List.map_map]
    rfl
  cases q with
  | record => rw [hrecord]; rfl
  | call name args => rfl
  | say | offer | requestFile | openTextArea | input | resolve | store | collected | noted | fired
  | acting | enter => exact hqueued (by simp)

/-- A request is answered at once, or it is open. -/
theorem Stands.of_answer (s : Session) (n : Nat) (ctx : RunContext) (f : α → Activity Bool)
    (ks : List (Bool → Activity Bool)) {q : Request} (hq : q.isPlain = true)
    (k : q.Answer → Activity α) : ∃ t m' opened,
      Stands ctx f ks (.running ctx (s.answer n ctx q fun a => ⟨k a >>= f, ks⟩).2.1) m' opened ∧
      (Activity.ask q k).Leaves t m' ∧ t.filterMap Deed.asked? ++ opened = [q] ∧
      Deed.allMarks t ++ opened.flatMap Request.marks = marksWith (s.recordAt ctx.record) q := by
  have hne : ∀ topic, q ≠ .enter topic := by
    rintro topic rfl
    cases hq
  have hanswered : ∀ a, Deed.marks (.asked q a) = marksWith (s.recordAt ctx.record) q →
      ∃ t m' opened, Stands ctx f ks (.running ctx (.going ⟨k a >>= f, ks⟩)) m' opened ∧
      (Activity.ask q k).Leaves t m' ∧ t.filterMap Deed.asked? ++ opened = [q] ∧
      Deed.allMarks t ++ opened.flatMap Request.marks = marksWith (s.recordAt ctx.record) q := by
    intro a hmarks
    refine ⟨[.asked q a], k a, [], .going _, .asked a hne (.here _), rfl, ?_⟩
    rw [← hmarks]
    simp [Deed.allMarks]
  cases q with
  | input => exact ⟨[], _, _, .waiting _ k, .here _, rfl, rfl⟩
  | call name args =>
      show ∃ t m' opened, Stands ctx f ks (.running ctx (s.callCommand n ctx name args
        fun a => ⟨k a >>= f, ks⟩).2.1) m' opened ∧ _
      -- A command may be worked on, or be looked for, before it has an answer.
      unfold callCommand
      split
      · dsimp only
        split
        · exact hanswered _ rfl
        · exact ⟨[], _, _, .working _ name args _ k, .here _, rfl, rfl⟩
      · split
        · exact hanswered _ rfl
        · exact ⟨[], _, _, .seeking _ name args k, .here _, rfl, rfl⟩
      · exact hanswered _ rfl
  | record => exact hanswered _ rfl
  | resolve => exact hanswered _ rfl
  | say | offer | requestFile | openTextArea | store | collected | noted | fired =>
      exact hanswered () rfl
  | acting | enter => cases hq

/-! ## Turns -/

/-- In its turn a client goes on with what remains of the activity. -/
theorem Stands.turn (hs : s.stage? n = some stage) (h : Stands ctx f ks stage m opened)
    (hplain : m.Asks fun q => q.isPlain = true) (hne : ∀ a, m ≠ .done a) :
    ∃ stage' t m' opened', (s.stepClient n).1.stage? n = some stage' ∧
      Stands ctx f ks stage' m' opened' ∧ m.Leaves t m' ∧
      t.filterMap Deed.asked? ++ opened' = opened ++ (s.request? n).toList ∧
      Deed.allMarks t ++ opened'.flatMap Request.marks =
        opened.flatMap Request.marks ++ marksIn n s (.move (.turn (.client n))) := by
  have hset : ∀ (s₁ : Session) stage', s₁.stage? n = s.stage? n →
      (s₁.setClient n stage').stage? n = some stage' :=
    fun s₁ stage' hs₁ => stage?_setClient (by rw [hs₁, hs]; rfl)
  have hsilent : s.request? n = none → marksIn n s (.move (.turn (.client n))) = [] := by
    intro hnone
    rw [marksIn, requestIn, if_pos rfl, hnone]
    rfl
  cases h with
  | going m =>
      rw [stepClient_running hs, request?_going hs, stepRun]
      cases m with
      | done a => exact absurd rfl (hne a)
      | fail e =>
          have hnone : s.request? n = none := by rw [request?_going hs]; rfl
          rw [hsilent hnone]
          exact ⟨_, [], _, _, stage?_finish _ (by rw [hs]; rfl), .ended e, .here _, rfl, rfl⟩
      | ask q k =>
          have hn := next_ask ctx.scene f ks hplain.1 k
          rw [hn, marksIn_going hs hn]
          obtain ⟨t, m', opened', hstands, hleaves, hrequests, hmarks⟩ :=
            Stands.of_answer s n ctx f ks hplain.1 k
          exact ⟨_, t, m', opened', hset _ _ (stage?_answer _ _ _), hstands, hleaves, hrequests,
            hmarks⟩
  | waiting wait k =>
      have hnone : s.request? n = none := by rw [request?, hs]
      rw [stepClient_running hs, hsilent hnone, hnone, stepRun]
      dsimp only
      split
      · next result _ =>
        exact ⟨_, [.asked .input result], _, _, hset _ _ rfl, .going _,
          .asked (q := .input) result (by simp) (.here _), rfl, rfl⟩
      · exact ⟨_, [], _, _, hs, .waiting wait k, .here _, rfl, rfl⟩
  | working c name args due k =>
      have hnone : s.request? n = none := by rw [request?, hs]
      rw [stepClient_running hs, hsilent hnone, hnone, stepRun]
      dsimp only
      split
      · exact ⟨_, [.asked (.call name args) _], _, _, hset _ _ (stage?_heed _ _), .going _,
          .asked _ (by simp) (.here _), rfl, rfl⟩
      · exact ⟨_, [], _, _, hs, .working c name args due k, .here _, rfl, rfl⟩
  | seeking path name args k =>
      have hnone : s.request? n = none := by rw [request?, hs]
      rw [stepClient_running hs, hsilent hnone, hnone, stepRun]
      exact ⟨_, [.asked (.call name args) _], _, _, hset _ _ (stage?_heed _ _), .going _,
        .asked _ (by simp) (.here _), rfl, rfl⟩
  | ended e =>
      have hnone : s.request? n = none := by rw [request?, hs]
      have hstep : s.stepClient n = (s, false) := by
        have hs : (s.clients[n]?).map Client.stage = some .ended := hs
        rw [stepClient, hs]
      rw [hstep, hsilent hnone, hnone]
      exact ⟨_, [], _, _, hs, .ended e, .here _, rfl, rfl⟩

/-- A client that stands at an activity takes nothing out of the queue. -/
theorem Stands.orderly (hs : s.stage? n = some stage) (h : Stands ctx f ks stage m opened)
    {op : Operation} (hop : op ∈ s.clientOperations n) : op.isOrderly = true := by
  rw [clientOperations, hs] at hop
  have hqueue : (∃ text, op = .queue (.to text) none) → op.isOrderly = true := by
    rintro ⟨text, rfl⟩
    rfl
  cases h with
  | going m =>
      dsimp only [runOperations] at hop
      split at hop
      · next q k _ =>
        cases q with
        | call name args => exact hqueue (eq_queue_of_mem_call hop)
        | say | offer | requestFile | openTextArea | input =>
            cases List.mem_singleton.mp hop
            rfl
        | record | resolve | store | collected | noted | fired | acting | enter => cases hop
      · cases hop
  | waiting wait k =>
      cases List.mem_singleton.mp hop
      rfl
  | working c name args due k =>
      dsimp only [runOperations] at hop
      split at hop
      · exact hqueue (eq_queue_of_mem_reply hop)
      · cases hop
  | seeking path name args k => exact hqueue (eq_queue_of_mem_reply hop)
  | ended e => cases hop

/-! ## Incidents -/

theorem goes_here (hs : s.stage? n = some (.running ctx (.going ⟨m >>= f, ks⟩))) :
    s.Goes n ctx f ks m [] [] m [] :=
  ⟨.here _, ⟨_, hs, .going m⟩, rfl, rfl, by rintro op ⟨⟩⟩

/-- Whatever happens, the client goes on with what remains. -/
theorem Goes.undergo {is : List Incident} {t : List Deed} (h : s.Goes n ctx f ks m is t m' opened)
    (hplain : m.Asks fun q => q.isPlain = true) (hne : ∀ a, m' ≠ .done a) (i : Incident) :
    ∃ t' m'' opened', s.Goes n ctx f ks m (is ++ [i]) t' m'' opened' := by
  obtain ⟨stage, hs, hstands⟩ := h.stands
  have hgathered : ∀ {β : Type} (yield : Session → Incident → List β),
      s.gathered yield (is ++ [i]) = s.gathered yield is ++ yield (s.after is) i := by
    intro β yield
    rw [Session.gathered_append]
    exact congrArg _ (List.append_nil _)
  have hafter : s.after (is ++ [i]) = (s.after is).undergo i := after_append s is [i]
  have horderly : ∀ op ∈ s.gathered (operationsOf n) (is ++ [i]), op.isOrderly = true := by
    intro op hop
    rw [hgathered] at hop
    rcases List.mem_append.mp hop with hop | hop
    · exact h.orderly op hop
    · unfold operationsOf at hop
      split at hop
      · split at hop
        · next hk => exact hstands.orderly hs hop
        · cases hop
      · cases hop
  -- Only a turn of its own gets the client further; otherwise it stays at its stage.
  by_cases hi : i = .move (.turn (.client n))
  · subst hi
    obtain ⟨stage', t', m'', opened', hs', hstands', hleaves, hrequests, hmarks⟩ :=
      hstands.turn hs (hplain.of_leaves h.leaves).2 hne
    refine ⟨t ++ t', m'', opened', h.leaves.trans hleaves, ⟨stage', ?_, hstands'⟩, ?_, ?_, horderly⟩
    · rw [hafter]
      show ((s.after is).turn (.client n)).stage? n = _
      rw [stage?_turn]
      exact hs'
    · have hrequested : requestIn n (s.after is) (.move (.turn (.client n))) =
          ((s.after is).request? n).toList := if_pos rfl
      rw [requests, hgathered, ← requests, h.requested, hrequested, List.append_assoc, ← hrequests]
      simp
    · rw [hgathered, h.marked, List.append_assoc, ← hmarks]
      simp
  · have hnone : requestIn n (s.after is) i = [] := by
      rcases requestIn_cases (s := s.after is) (n := n) i with hnil | ⟨q, heq, -, -⟩
      · exact hnil
      · exact absurd heq hi
    have hunmarked : marksIn n (s.after is) i = [] := by rw [marksIn, hnone]; rfl
    refine ⟨t, m', opened, h.leaves, ⟨stage, ?_, hstands⟩, ?_, ?_, horderly⟩
    · rw [hafter]
      exact stage?_undergo_ne hi hs
    · rw [requests, hgathered, ← requests, h.requested, hnone, List.append_nil]
    · rw [hgathered, h.marked, hunmarked, List.append_nil]

/-- A client goes through a plain activity until it is done, whatever happens. -/
theorem exists_goes (hs : s.stage? n = some (.running ctx (.going ⟨m >>= f, ks⟩)))
    (hplain : m.Asks fun q => q.isPlain = true) (is : List Incident) :
    ∃ is₁ is₂ t m' opened, is = is₁ ++ is₂ ∧ (is₂ = [] ∨ ∃ a, m' = .done a) ∧
      s.Goes n ctx f ks m is₁ t m' opened := by
  -- Induction from the end of the incidents; once the activity is done, the others are left over.
  induction is using List.reverseRecOn with
  | nil => exact ⟨[], [], [], m, [], rfl, .inl rfl, goes_here hs⟩
  | append_singleton is i ih =>
      obtain ⟨is₁, is₂, t, m', opened, rfl, hrest, hgoes⟩ := ih
      by_cases hdone : ∃ a, m' = .done a
      · exact ⟨is₁, is₂ ++ [i], t, m', opened, List.append_assoc _ _ _, .inr hdone, hgoes⟩
      · obtain rfl := hrest.resolve_right hdone
        obtain ⟨t', m'', opened', hgoes'⟩ := hgoes.undergo hplain (by simpa using hdone) i
        exact ⟨is₁ ++ [i], [], t', m'', opened', by simp, .inl rfl, hgoes'⟩

/-- Whatever happens, a client that runs a step queues for it what the step is to queue, and in that
order, until the step has come to its value or has failed. When it has come out in either way, that
is all; when it is still on the way, that is the beginning, however it will come out. The client
takes none of it back. -/
theorem step_queues_lines {place : Option Place} {st : Step} {f : Bool → Activity Bool}
    (hs : s.stage? n = some (.running ctx (.going ⟨ctx.scene.runStep place st >>= f, ks⟩)))
    (is : List Incident) :
    ∃ is₁ is₂ t left opened, is = is₁ ++ is₂ ∧ (is₂ = [] ∨ ∃ value, left = .done value) ∧
      s.Goes n ctx (fun value => ctx.scene.branch place st value >>= f) ks (ctx.scene.stepValue st)
        is₁ t left opened ∧
      ∀ t' r, left.Comes t' r →
        st.Queues (Deed.allMarks (t ++ t')) (Deed.results (t ++ t')) r := by
  rw [ctx.scene.runStep_eq place st, bind_assoc] at hs
  obtain ⟨is₁, is₂, t, left, opened, his, hrest, hgoes⟩ :=
    exists_goes hs (Scene.plain_stepValue ctx.scene st).asks is
  exact ⟨is₁, is₂, t, left, opened, his, hrest, hgoes, fun t' r hr =>
    Scene.queues_of_comes (hgoes.leaves.comes hr)⟩

/-! ### A step that greets -/

/-- A step that greets and offers a reply. -/
def greetingStep : Step :=
  { Step.empty with
    text := some ["Hello \x7b\x7bname\x7d\x7d"]
    quickReplies := some [⟨"Hi", "hi"⟩] }

/-- A run of the step by itself. -/
def greetingContext : RunContext where
  scene := ⟨⟨[⟨defaultTopic, [greetingStep]⟩], by simp, by simp⟩, .standard, ⟨false, false, false⟩⟩
  record := 0
  table := .empty

/-- A record with a name. -/
def namedRecord : Record := ⟨[("name", .string "Ann")]⟩

/-- A session in which the run is about to begin with the step. -/
def greetingSession : Session :=
  (start .standard namedRecord .stepped 0 fun _ => false).after
    [.move (.join ⟨"run", .running greetingContext .fresh⟩), .move (.turn (.client 0))]

theorem step_queues_lines_greeting :
    let s := greetingSession
    let is := [.move (.turn (.client 0)), .move (.turn (.client 0))]
    let ctx := greetingContext
    let place : Option Place := some ⟨defaultTopic, some 1⟩
    s.gathered (marksIn 0) is = [.read namedRecord,
      .queued (.message (.to (Template.fillIn "Hello \x7b\x7bname\x7d\x7d" namedRecord)))] ∧
    ∃ f is₁ is₂ t left opened,
      s.stage? 0 = some (.running ctx (.going ⟨ctx.scene.runStep place greetingStep >>= f, []⟩)) ∧
      is = is₁ ++ is₂ ∧ (is₂ = [] ∨ ∃ value, left = .done value) ∧
      s.Goes 0 ctx (fun value => ctx.scene.branch place greetingStep value >>= f) []
        (ctx.scene.stepValue greetingStep) is₁ t left opened ∧
      ∀ t' r, left.Comes t' r →
        greetingStep.Queues (Deed.allMarks (t ++ t')) (Deed.results (t ++ t')) r := by
  intro s is ctx place
  have hs : s.stage? 0 = some (.running ctx (.going
      ⟨ctx.scene.runStep place greetingStep >>= fun b =>
        if b then .done true else ctx.scene.runSteps defaultTopic none [], []⟩)) := rfl
  obtain ⟨is₁, is₂, t, left, opened, h⟩ := step_queues_lines hs is
  exact ⟨rfl, _, is₁, is₂, t, left, opened, hs, h⟩

end Session

end Dialogue
