import Dialogue.Proofs.Console.Moves
import Dialogue.Proofs.Run.Courses
/-!
# The requests of a client

In a session the run of a client goes on in the turns of the client. In between other tasks have
their turns, and the host does what it likes: an `Incident` is anything that happens. All the same
the client does what one course of its run does: `Session.requests` are the requests that it makes
in some incidents, and they are those of a course.

* `Did.undergo` — a turn continues the course of the client, and no other incident touches it.
* `did_after` — so whatever happens, the client has gone on by a course of its run.
-/

namespace Dialogue

/-- The request that a deed is about, unless it enters a thread. -/
def Deed.asked? : Deed → Option Request
  | .asked q _ => some q
  | .entered _ => none

/-- Something that happens to a session: a move, or something that the host does besides. -/
inductive Incident where
  | move (m : Move)
  | operate (op : Operation)
  | setRecord (n : Nat) (r : Record)

namespace Session

/-- What an incident does. -/
def undergo (s : Session) : Incident → Session
  | .move m => s.move m
  | .operate op => s.operate op
  | .setRecord n r => s.setRecord n r

/-- What some incidents make of a session. -/
def after (s : Session) (is : List Incident) : Session := is.foldl undergo s

theorem after_append (s : Session) (is is' : List Incident) :
    s.after (is ++ is') = (s.after is).after is' := List.foldl_append

/-! ## Requests in a session -/

/-- How far a client has come. -/
def stage? (s : Session) (n : Nat) : Option ClientStage := (s.clients[n]?).map Client.stage

/-- The request that a client makes in its turn. -/
def request? (s : Session) (n : Nat) : Option Request :=
  match s.stage? n with
  | some (.running ctx (.going r)) =>
    match r.next ctx.scene with
    | .asks q _ => some q
    | _ => none
  | _ => none

/-- The request of a client in an incident. -/
def requestIn (n : Nat) (s : Session) : Incident → List Request
  | .move (.turn (.client k)) => if k = n then (s.request? n).toList else []
  | _ => []

/-- What incidents yield one after the other. -/
def gathered {α : Type} (yield : Session → Incident → List α) (s : Session) :
    List Incident → List α
  | [] => []
  | i :: is => yield s i ++ (s.undergo i).gathered yield is

theorem gathered_append {α : Type} (yield : Session → Incident → List α) (s : Session)
    (is is' : List Incident) :
    s.gathered yield (is ++ is') = s.gathered yield is ++ (s.after is).gathered yield is' := by
  induction is generalizing s with
  | nil => rfl
  | cons i is ih =>
      show yield s i ++ (s.undergo i).gathered yield (is ++ is') = _
      rw [ih, ← List.append_assoc]
      rfl

/-- The requests of a client in some incidents. -/
def requests (s : Session) (n : Nat) (is : List Incident) : List Request :=
  s.gathered (requestIn n) is

variable {s s' : Session} {n : Nat} {is : List Incident}

theorem requestIn_cases (i : Incident) : requestIn n s i = [] ∨
    ∃ q, i = .move (.turn (.client n)) ∧ s.request? n = some q ∧ requestIn n s i = [q] := by
  unfold requestIn
  split
  · split
    case isTrue hk =>
      subst hk
      cases hq : s.request? _ with
      | none => exact .inl rfl
      | some q => exact .inr ⟨q, rfl, rfl, rfl⟩
    case isFalse => exact .inl rfl
  · exact .inl rfl

/-- Each request was made in a turn of the client. -/
theorem exists_turn_of_requests {q : Request} {before rest : List Request}
    (h : s.requests n is = before ++ q :: rest) : ∃ earlier later,
      is = earlier ++ .move (.turn (.client n)) :: later ∧ (s.after earlier).request? n = some q ∧
        s.requests n earlier = before := by
  induction is generalizing s before with
  | nil => cases before <;> cases h
  | cons i is ih =>
      have h : requestIn n s i ++ (s.undergo i).requests n is = before ++ q :: rest := h
      rcases requestIn_cases (s := s) (n := n) i with hnil | ⟨q', rfl, hq', hone⟩
      · rw [hnil] at h
        obtain ⟨earlier, later, rfl, hq, hbefore⟩ := ih h
        refine ⟨i :: earlier, later, rfl, hq, ?_⟩
        show requestIn n s i ++ (s.undergo i).requests n earlier = before
        rw [hnil, hbefore]
        rfl
      · rw [hone] at h
        cases before with
        | nil =>
            cases h
            exact ⟨[], is, rfl, hq', rfl⟩
        | cons b before =>
            obtain ⟨rfl, hrest⟩ := List.cons.inj h
            obtain ⟨earlier, later, rfl, hq, hbefore⟩ := ih hrest
            refine ⟨_ :: earlier, later, rfl, hq, ?_⟩
            show requestIn n s _ ++ Session.requests _ n earlier = _
            rw [hone, hbefore]
            rfl

/-! ## Clients are touched by their own turns only -/

section Stages

variable {k : Nat} {stage : ClientStage}

@[simp] theorem stage?_converse (f : Conversation → Conversation) :
    (s.converse f).stage? n = s.stage? n := rfl

@[simp] theorem stage?_wake (t : TaskId) : (s.wake t).stage? n = s.stage? n := by
  obtain ⟨ready, heq⟩ := wake_eq s t
  rw [heq]
  rfl

theorem stage?_setClient_ne (h : k ≠ n) : (s.setClient k stage).stage? n = s.stage? n := by
  unfold setClient
  split
  · simp [stage?, List.getElem?_set_ne h]
  · rfl

theorem stage?_setClient (h : (s.stage? n).isSome) :
    (s.setClient n stage).stage? n = some stage := by
  unfold setClient
  cases hc : s.clients[n]? with
  | none => simp [stage?, hc] at h
  | some c =>
      obtain ⟨hlt, -⟩ := List.getElem?_eq_some_iff.mp hc
      simp [stage?, hlt]

theorem stage?_finish_ne (result : Except ChatError Json) (h : k ≠ n) :
    (s.finish k result).stage? n = s.stage? n := by
  unfold finish
  split
  · rw [stage?_setClient_ne h, stage?_converse]
  · rfl

theorem stage?_finish (result : Except ChatError Json) (h : (s.stage? n).isSome) :
    (s.finish n result).stage? n = some .ended := by
  unfold finish
  split
  · exact stage?_setClient h
  · next hnone => simp [stage?, hnone] at h

@[simp] theorem stage?_heed (ctx : RunContext) (r : Reply) :
    (s.heed ctx r).stage? n = s.stage? n := by
  unfold heed
  cases r.said <;> cases r.printed <;> rfl

@[simp] theorem stage?_callCommand (ctx : RunContext) (name : String) (args : List Argument)
    (f : Except String Json → Run) :
    (s.callCommand k ctx name args f).1.stage? n = s.stage? n := by
  unfold callCommand
  split
  · dsimp only
    split
    · exact stage?_heed _ _
    · rfl
  · split
    · exact stage?_heed _ _
    · rfl
  · rfl

@[simp] theorem stage?_answer (ctx : RunContext) (q : Request) (f : q.Answer → Run) :
    (s.answer k ctx q f).1.stage? n = s.stage? n := by
  cases q with
  | call name args => exact stage?_callCommand ctx name args f
  | fired v =>
      unfold answer
      dsimp only
      split <;> rfl
  | record | say | offer | requestFile | openTextArea | input | resolve | store | collected
  | noted | acting | enter => rfl

theorem stage?_stepRun_ne (ctx : RunContext) (stage : RunStage) (h : k ≠ n) :
    (s.stepRun k ctx stage).1.stage? n = s.stage? n := by
  unfold stepRun
  cases stage with
  | fresh => simp [stage?_setClient_ne h]
  | going r =>
      dsimp only
      split <;> simp [stage?_setClient_ne h, stage?_finish_ne _ h]
  | waiting wait f =>
      dsimp only
      split <;> simp [stage?_setClient_ne h]
  | working c args due f =>
      dsimp only
      split <;> simp [stage?_setClient_ne h, replySpec]
  | seeking path args f => simp [stage?_setClient_ne h]

theorem stage?_stepClient_ne (h : k ≠ n) : (s.stepClient k).1.stage? n = s.stage? n := by
  unfold stepClient
  split
  · simp [stage?_setClient_ne h]
  · unfold stepWaiting
    dsimp only
    split <;> simp [stage?_finish_ne _ h]
  · simp [stage?_setClient_ne h]
  · unfold stepCalling
    split <;> simp [stage?_finish_ne _ h]
  · exact stage?_stepRun_ne _ _ h
  · simp [stage?_finish_ne _ h]
  · rfl

theorem stage?_turn (t : TaskId) : (s.turn t).stage? n = (s.step t).1.stage? n := by
  obtain ⟨ready, timers, heq⟩ := turn_eq s t
  rw [heq]
  rfl

/-- Nothing but the turns of a client and the coming of others concerns it. -/
theorem stage?_move_eq {m : Move} (hm : m ≠ .turn (.client n)) (hjoin : ∀ c, m ≠ .join c) :
    (s.move m).stage? n = s.stage? n := by
  cases m with
  | turn t =>
      show (s.turn t).stage? n = _
      rw [stage?_turn]
      cases t with
      | pump | notice => rfl
      | client k =>
          apply stage?_stepClient_ne
          rintro rfl
          exact hm rfl
      | renderer =>
          obtain ⟨console, output, heq⟩ := stepRenderer_eq s
          show s.stepRenderer.1.stage? n = _
          rw [heq]
          rfl
      | forwarder =>
          obtain ⟨conversation, console, timers, output, heq⟩ := stepForwarder_eq s
          show s.stepForwarder.1.stage? n = _
          rw [heq]
          rfl
  | arrive time =>
      show (s.arrive time).stage? n = _
      obtain ⟨ready, timers, heq⟩ := arrive_eq s time
      rw [heq]
      rfl
  | type line =>
      obtain ⟨console, ready, heq⟩ := type_eq s line
      show (s.type line).stage? n = _
      rw [heq]
      rfl
  | close =>
      obtain ⟨console, ready, heq⟩ := close_eq s
      show s.close.stage? n = _
      rw [heq]
      rfl
  | join c => exact absurd rfl (hjoin c)

/-- A client that comes is the last one. -/
theorem stage?_join (c : Client) : (s.move (.join c)).stage? n =
    if n = s.clients.length then some c.stage else s.stage? n := by
  show ({ s with clients := s.clients ++ [c] }.wake (.client s.clients.length)).stage? n = _
  rw [stage?_wake]
  show (((s.clients ++ [c])[n]?).map Client.stage) = _
  split
  · next h => rw [h, List.getElem?_concat_length, Option.map_some]
  · next h =>
    by_cases hlt : n < s.clients.length
    · rw [List.getElem?_append_left hlt]
      rfl
    · rw [List.getElem?_eq_none (by simp; omega), stage?, List.getElem?_eq_none (by omega)]

/-- A client goes on in its own turns only. -/
theorem stage?_move_ne {m : Move} (hm : m ≠ .turn (.client n)) (h : s.stage? n = some stage) :
    (s.move m).stage? n = some stage := by
  rw [← h]
  by_cases hjoin : ∀ c, m ≠ .join c
  · exact stage?_move_eq hm hjoin
  · push Not at hjoin
    obtain ⟨c, rfl⟩ := hjoin
    obtain ⟨c', hc', -⟩ := Option.map_eq_some_iff.mp h
    obtain ⟨hlt, -⟩ := List.getElem?_eq_some_iff.mp hc'
    rw [stage?_join, if_neg (by omega)]

theorem stage?_undergo_ne {i : Incident} (hi : i ≠ .move (.turn (.client n)))
    (h : s.stage? n = some stage) : (s.undergo i).stage? n = some stage := by
  cases i with
  | move m =>
      apply stage?_move_ne _ h
      rintro rfl
      exact hi rfl
  | operate op =>
      obtain ⟨ready, timers, heq⟩ := operate_eq s op
      show (s.operate op).stage? n = _
      rw [heq]
      exact h
  | setRecord k r => exact h

end Stages

/-! ## The course of a client -/

/-- A client has come to a stage from a run of its own by some deeds, and has made a request that
is not answered yet, if there is one. -/
inductive Did (ctx : RunContext) (r : Run) : ClientStage → List Deed → List Request → Prop
  | going {r' : Run} {t : List Deed} :
      Run.Course ctx.scene r t r' → Did ctx r (.running ctx (.going r')) t []
  | waiting {r' : Run} {t : List Deed} {k : Except RunError Json → Run} (wait : Nat) :
      Run.Course ctx.scene r t r' → r'.next ctx.scene = .asks .input k →
      Did ctx r (.running ctx (.waiting wait k)) t [.input]
  | working {r' : Run} {t : List Deed} {k : Except String Json → Run} {name : String}
      {args : List Argument} (c : CommandSpec) (due : Nat) :
      Run.Course ctx.scene r t r' → r'.next ctx.scene = .asks (.call name args) k →
      Did ctx r (.running ctx (.working c args due k)) t [.call name args]
  | seeking {r' : Run} {t : List Deed} {k : Except String Json → Run} {name : String}
      {args : List Argument} (path : String) :
      Run.Course ctx.scene r t r' → r'.next ctx.scene = .asks (.call name args) k →
      Did ctx r (.running ctx (.seeking path args k)) t [.call name args]
  | ended {r' : Run} {t : List Deed} {result : Except ChatError Bool} :
      Run.Course ctx.scene r t r' → r'.next ctx.scene = .ended result → Did ctx r .ended t []

/-- An answer continues the course. -/
theorem Did.answered {ctx : RunContext} {r r' : Run} {t : List Deed} {q : Request}
    {k : q.Answer → Run} (h : Run.Course ctx.scene r t r') (hq : r'.next ctx.scene = .asks q k)
    (a : q.Answer) : Did ctx r (.running ctx (.going (k a))) (t ++ [.asked q a]) [] :=
  .going (h.trans (.asked a hq (.here _)))

/-- A request is answered at once, or it is open. -/
theorem Did.of_answer {ctx : RunContext} {r r' : Run} {t : List Deed} {q : Request}
    {k : q.Answer → Run} (h : Run.Course ctx.scene r t r') (hq : r'.next ctx.scene = .asks q k) :
    ∃ t' opened, Did ctx r (.running ctx (s.answer n ctx q k).2.1) t' opened ∧
      t'.filterMap Deed.asked? ++ opened = t.filterMap Deed.asked? ++ [q] := by
  obtain ⟨-, -, -, hne, -⟩ := Run.next_asks hq
  have hanswered : ∀ a, ∃ t' opened, Did ctx r (.running ctx (.going (k a))) t' opened ∧
      t'.filterMap Deed.asked? ++ opened = t.filterMap Deed.asked? ++ [q] :=
    fun a => ⟨_, _, Did.answered h hq a, by simp [Deed.asked?]⟩
  cases q with
  | enter topic => exact absurd rfl (hne topic)
  | input => exact ⟨t, _, .waiting _ h hq, rfl⟩
  | call name args =>
      show ∃ t' opened, Did ctx r (.running ctx (s.callCommand n ctx name args k).2.1) t' opened ∧ _
      unfold callCommand
      split
      · dsimp only
        split
        · exact hanswered _
        · exact ⟨t, _, .working _ _ h hq, rfl⟩
      · split
        · exact hanswered _
        · exact ⟨t, _, .seeking _ h hq, rfl⟩
      · exact hanswered _
  | record | resolve => exact hanswered _
  | say | offer | requestFile | openTextArea | store | collected | noted | fired | acting =>
      exact hanswered ()

theorem stepClient_running {ctx : RunContext} {stage : RunStage}
    (hs : s.stage? n = some (.running ctx stage)) : s.stepClient n = s.stepRun n ctx stage := by
  have hs : (s.clients[n]?).map Client.stage = some (.running ctx stage) := hs
  rw [stepClient, hs]

theorem request?_going {ctx : RunContext} {r : Run}
    (hs : s.stage? n = some (.running ctx (.going r))) :
    s.request? n = match r.next ctx.scene with
      | .asks q _ => some q
      | _ => none := by
  rw [request?, hs]

/-- In its turn a client goes on by the course of its run. -/
theorem Did.turn {ctx : RunContext} {r : Run} {stage : ClientStage} {t : List Deed}
    {opened : List Request} (hs : s.stage? n = some stage) (h : Did ctx r stage t opened) :
    ∃ stage' t' opened', (s.stepClient n).1.stage? n = some stage' ∧ Did ctx r stage' t' opened' ∧
      t'.filterMap Deed.asked? ++ opened' =
        t.filterMap Deed.asked? ++ opened ++ (s.request? n).toList := by
  have hset : ∀ (s₁ : Session) stage', s₁.stage? n = s.stage? n →
      (s₁.setClient n stage').stage? n = some stage' :=
    fun s₁ stage' hs₁ => stage?_setClient (by rw [hs₁, hs]; rfl)
  cases h with
  | @going r' t hcourse =>
      rw [stepClient_running hs, request?_going hs, stepRun]
      dsimp only
      split
      · next result hend =>
        rw [hend]
        exact ⟨_, t, _, stage?_finish _ (by rw [hs]; rfl), .ended hcourse hend, by simp⟩
      · next r₁ hmoved =>
        rw [hmoved]
        refine ⟨_, _, _, hset _ _ rfl, .going (hcourse.trans (.moved hmoved (.here _))), ?_⟩
        have hentry : r'.entry.filterMap Deed.asked? = [] := by
          unfold Run.entry
          split <;> rfl
        simp [hentry]
      · next q k hasks =>
        rw [hasks]
        obtain ⟨t', opened', hdid, heq⟩ := Did.of_answer (s := s) (n := n) hcourse hasks
        exact ⟨_, t', opened', hset _ _ (stage?_answer _ _ _), hdid, by simpa using heq⟩
  | @waiting r' t k wait hcourse hasks =>
      have hnone : s.request? n = none := by rw [request?, hs]
      rw [stepClient_running hs, hnone, stepRun]
      dsimp only
      split
      · next result _ =>
        exact ⟨_, _, _, hset _ _ rfl, Did.answered hcourse hasks result, by simp [Deed.asked?]⟩
      · exact ⟨_, t, _, hs, .waiting wait hcourse hasks, by simp⟩
  | @working r' t k name args c due hcourse hasks =>
      have hnone : s.request? n = none := by rw [request?, hs]
      rw [stepClient_running hs, hnone, stepRun]
      dsimp only
      split
      · exact ⟨_, _, _, hset _ _ (stage?_heed _ _), Did.answered hcourse hasks _,
          by simp [Deed.asked?]⟩
      · exact ⟨_, t, _, hs, .working c due hcourse hasks, by simp⟩
  | @seeking r' t k name args path hcourse hasks =>
      have hnone : s.request? n = none := by rw [request?, hs]
      rw [stepClient_running hs, hnone, stepRun]
      exact ⟨_, _, _, hset _ _ (stage?_heed _ _), Did.answered hcourse hasks _,
        by simp [Deed.asked?]⟩
  | @ended r' t result hcourse hend =>
      have hnone : s.request? n = none := by rw [request?, hs]
      have hstep : s.stepClient n = (s, false) := by
        have hs : (s.clients[n]?).map Client.stage = some .ended := hs
        rw [stepClient, hs]
      rw [hstep, hnone]
      exact ⟨_, t, _, hs, .ended hcourse hend, by simp⟩

/-- A client goes on by the course of its run, whatever happens. -/
theorem Did.undergo {ctx : RunContext} {r : Run} {stage : ClientStage} {t : List Deed}
    {opened : List Request} (hs : s.stage? n = some stage) (h : Did ctx r stage t opened)
    (i : Incident) :
    ∃ stage' t' opened', (s.undergo i).stage? n = some stage' ∧ Did ctx r stage' t' opened' ∧
      t'.filterMap Deed.asked? ++ opened' =
        t.filterMap Deed.asked? ++ opened ++ requestIn n s i := by
  by_cases hi : i = .move (.turn (.client n))
  · subst hi
    obtain ⟨stage', t', opened', hstage, hdid, heq⟩ := h.turn hs
    refine ⟨stage', t', opened', ?_, hdid, by simpa [requestIn] using heq⟩
    show (s.turn (.client n)).stage? n = _
    rw [stage?_turn]
    exact hstage
  · refine ⟨stage, t, opened, stage?_undergo_ne hi hs, h, ?_⟩
    rcases requestIn_cases (s := s) (n := n) i with hnil | ⟨q, heq, -, -⟩
    · rw [hnil, List.append_nil]
    · exact absurd heq hi

theorem Did.after {ctx : RunContext} {r : Run} {stage : ClientStage} {t : List Deed}
    {opened : List Request} (hs : s.stage? n = some stage) (h : Did ctx r stage t opened)
    (is : List Incident) :
    ∃ stage' t' opened', (s.after is).stage? n = some stage' ∧ Did ctx r stage' t' opened' ∧
      t'.filterMap Deed.asked? ++ opened' =
        t.filterMap Deed.asked? ++ opened ++ s.requests n is := by
  induction is generalizing s stage t opened with
  | nil => exact ⟨stage, t, opened, hs, h, (List.append_nil _).symm⟩
  | cons i is ih =>
      obtain ⟨stage₁, t₁, opened₁, hs₁, h₁, heq₁⟩ := h.undergo hs i
      obtain ⟨stage', t', opened', hs', h', heq'⟩ := ih hs₁ h₁
      refine ⟨stage', t', opened', hs', h', ?_⟩
      rw [heq', heq₁, List.append_assoc]
      rfl

/-- The requests that a client makes in some incidents are those of a course of its run, together
with one that is not answered yet, if there is one. -/
theorem did_after {ctx : RunContext} {r : Run}
    (hs : s.stage? n = some (.running ctx (.going r))) (is : List Incident) :
    ∃ stage t opened, (s.after is).stage? n = some stage ∧ Did ctx r stage t opened ∧
      s.requests n is = t.filterMap Deed.asked? ++ opened := by
  obtain ⟨stage, t, opened, hstage, hdid, heq⟩ := Did.after hs (.going (.here r)) is
  exact ⟨stage, t, opened, hstage, hdid, by simpa using heq.symm⟩

end Session

end Dialogue
