import Dialogue.Session.Schedule
/-!
# Everything that can happen to a session

A `Move` is a turn of any task, the passing of time, a line that is typed, the end of the lines, or
someone who joins. A list of moves is a course of a session with its tasks in an arbitrary order.

* `turn_eq` — what a turn does besides the step of its task.
* `stepRenderer_eq`, `stepForwarder_eq`, `type_eq`, `close_eq` — what the console changes at all.
* `console_stepClient` — the console changes only in the turns of the renderer and the forwarder and
  when a line is typed; clients leave it alone.
-/

namespace Dialogue

/-- Something that happens to a session. -/
inductive Move where
  | turn (t : TaskId)
  | arrive (time : Nat)
  | type (line : String)
  /-- No more lines will be typed. -/
  | close
  | join (c : Client)

namespace Session

/-- What a move does. -/
def move (s : Session) : Move → Session
  | .turn t => s.turn t
  | .arrive time => s.arrive time
  | .type line => s.type line
  | .close => s.close
  | .join c => s.join c

/-- What some moves make of a session. -/
def moves (s : Session) (ms : List Move) : Session := ms.foldl move s

/-! ## Waking, and the passing of time -/

theorem setClient_eq (s : Session) (n : Nat) (stage : ClientStage) :
    ∃ clients, s.setClient n stage = { s with clients } := by
  unfold setClient
  split
  · exact ⟨_, rfl⟩
  · exact ⟨s.clients, rfl⟩

theorem wake_eq (s : Session) (t : TaskId) : ∃ ready, s.wake t = { s with ready } := by
  unfold wake
  split
  · exact ⟨s.ready, rfl⟩
  · exact ⟨_, rfl⟩

theorem obey_eq (s : Session) (signal : Signal) :
    ∃ ready timers, s.obey signal = { s with ready, timers } := by
  have hwake : ∀ t, ∃ ready timers, s.wake t = { s with ready, timers } := by
    intro t
    obtain ⟨ready, heq⟩ := wake_eq s t
    exact ⟨ready, s.timers, heq⟩
  cases signal with
  | wake t => exact hwake t
  | wakeAt due t => exact ⟨s.ready, _, rfl⟩
  | published =>
      unfold obey
      dsimp only
      split
      · exact hwake _
      · exact ⟨s.ready, s.timers, rfl⟩

theorem foldl_obey_eq (signals : List Signal) (s : Session) :
    ∃ ready timers, signals.foldl obey s = { s with ready, timers } := by
  induction signals generalizing s with
  | nil => exact ⟨s.ready, s.timers, rfl⟩
  | cons signal rest ih =>
      obtain ⟨ready, timers, heq⟩ := obey_eq s signal
      obtain ⟨ready', timers', heq'⟩ := ih (s.obey signal)
      refine ⟨ready', timers', ?_⟩
      rw [List.foldl_cons, heq', heq]

theorem foldl_wake_eq (due : List (Nat × TaskId)) (s : Session) :
    ∃ ready, due.foldl (fun s t => s.wake t.2) s = { s with ready } := by
  induction due generalizing s with
  | nil => exact ⟨s.ready, rfl⟩
  | cons t rest ih =>
      obtain ⟨ready, heq⟩ := wake_eq s t.2
      obtain ⟨ready', heq'⟩ := ih (s.wake t.2)
      refine ⟨ready', ?_⟩
      rw [List.foldl_cons, heq', heq]

/-- After the step of its task a turn changes nothing but who can go on, and when. -/
theorem turn_eq (s : Session) (t : TaskId) : ∃ ready timers, s.turn t = { (s.step t).1 with
    conversation := { (s.step t).1.conversation with signals := [] }, ready, timers } := by
  unfold turn obeySignals
  dsimp only
  split
  · exact foldl_obey_eq _ _
  · obtain ⟨ready, timers, heq⟩ := foldl_obey_eq (s.step t).1.conversation.signals
      { (s.step t).1 with
        conversation := { (s.step t).1.conversation with signals := [] }
        ready := (s.step t).1.ready.erase t }
    exact ⟨ready, timers, heq⟩

theorem arrive_eq (s : Session) (time : Nat) : ∃ ready timers, s.arrive time = { s with
    conversation := s.conversation.perform (.pass (time - s.now)), ready, timers } := by
  unfold arrive
  dsimp only
  obtain ⟨ready, heq⟩ := foldl_wake_eq (s.timers.filter (·.1 ≤ time)) { s with
    conversation := s.conversation.perform (.pass (time - s.now))
    timers := s.timers.filter fun t => time < t.1 }
  exact ⟨ready, _, heq⟩

theorem operate_eq (s : Session) (op : Operation) : ∃ ready timers, s.operate op = { s with
    conversation := { s.conversation.perform op with signals := [] }, ready, timers } := by
  unfold operate change obeySignals
  exact foldl_obey_eq _ _

variable {s : Session} {n : Nat}

/-! ## What the console does -/

theorem showMessage_eq (k : ConsoleState) (m : Message) :
    ∃ console output, s.showMessage k m = { s with console, output } := by
  unfold showMessage
  cases Console.format? k.settings m <;> dsimp only <;> split <;> exact ⟨_, _, rfl⟩

/-- The renderer changes nothing but what is on the screen. -/
theorem stepRenderer_eq (s : Session) :
    ∃ console output, s.stepRenderer.1 = { s with console, output } := by
  unfold stepRenderer
  split
  · exact ⟨s.console, s.output, rfl⟩
  · split
    · exact ⟨s.console, s.output, rfl⟩
    · exact showMessage_eq _ _
    · exact ⟨_, s.output, rfl⟩

theorem wakeForwarder_eq (s : Session) (k : ConsoleState) :
    ∃ ready, s.wakeForwarder k = { s with ready } := by
  unfold wakeForwarder
  split
  · exact wake_eq s .forwarder
  · exact ⟨s.ready, rfl⟩

/-- A line that is typed stays with the console. -/
theorem type_eq (s : Session) (line : String) :
    ∃ console ready, s.type line = { s with console, ready } := by
  unfold type
  split
  · next k _ =>
    split
    · obtain ⟨ready, heq⟩ := wakeForwarder_eq (s.setConsole { k with lines := k.lines ++ [line] }) k
      exact ⟨_, ready, heq⟩
    · exact ⟨s.console, s.ready, rfl⟩
  · exact ⟨s.console, s.ready, rfl⟩

theorem close_eq (s : Session) : ∃ console ready, s.close = { s with console, ready } := by
  unfold close
  split
  · next k _ =>
    obtain ⟨ready, heq⟩ := wakeForwarder_eq (s.setConsole { k with closed := true }) k
    exact ⟨_, ready, heq⟩
  · exact ⟨s.console, s.ready, rfl⟩

theorem useLastButton_eq (s : Session) :
    ∃ conversation output, s.useLastButton = { s with conversation, output } := by
  unfold useLastButton
  split
  · split
    · exact ⟨_, s.output, rfl⟩
    · exact ⟨s.conversation, _, rfl⟩
  · exact ⟨s.conversation, _, rfl⟩

theorem submit_eq (s : Session) (a : Option Answer) :
    ∃ conversation output, s.submit a = { s with conversation, output } := by
  unfold submit
  split
  · split
    · exact ⟨_, s.output, rfl⟩
    · exact ⟨s.conversation, _, rfl⟩
  · exact ⟨_, s.output, rfl⟩
  · exact ⟨s.conversation, s.output, rfl⟩

/-- The forwarder leaves the clients alone. -/
theorem stepForwarder_eq (s : Session) : ∃ conversation console timers output,
    s.stepForwarder.1 = { s with conversation, console, timers, output } := by
  unfold stepForwarder
  split
  · exact ⟨s.conversation, s.console, s.timers, s.output, rfl⟩
  · next k _ =>
    split
    · split
      · split
        · obtain ⟨conversation, output, heq⟩ :=
            useLastButton_eq (s.setConsole { k with lines := _ })
          exact ⟨conversation, _, s.timers, output, heq⟩
        · exact ⟨s.conversation, _, s.timers, s.output, rfl⟩
      · split <;> exact ⟨s.conversation, _, s.timers, s.output, rfl⟩
    · next line _ =>
      split
      · obtain ⟨conversation, output, heq⟩ := submit_eq (s.setConsole { k with
          prompting := (k.prompting.resolve line s.conversation.input.textArea).2
          forwarder := .receiving }) (k.prompting.resolve line s.conversation.input.textArea).1
        exact ⟨conversation, _, s.timers, output, heq⟩
      · exact ⟨s.conversation, s.console, _, s.output, rfl⟩
    · split
      · exact ⟨_, _, s.timers, s.output, rfl⟩
      · exact ⟨s.conversation, s.console, _, s.output, rfl⟩
    · exact ⟨s.conversation, s.console, s.timers, s.output, rfl⟩

/-! ## What leaves the console alone -/

@[simp] theorem console_converse (f : Conversation → Conversation) :
    (s.converse f).console = s.console := rfl

@[simp] theorem console_print (text : String) : (s.print text).console = s.console := rfl

@[simp] theorem console_sleepUntil (due : Nat) (t : TaskId) :
    (s.sleepUntil due t).console = s.console := rfl

@[simp] theorem console_setClient (stage : ClientStage) :
    (s.setClient n stage).console = s.console := by
  obtain ⟨clients, heq⟩ := setClient_eq s n stage
  rw [heq]

@[simp] theorem console_wake (t : TaskId) : (s.wake t).console = s.console := by
  obtain ⟨ready, heq⟩ := wake_eq s t
  rw [heq]

@[simp] theorem console_finish (result : Except ChatError Json) :
    (s.finish n result).console = s.console := by
  unfold finish
  split <;> simp

@[simp] theorem console_heed (ctx : RunContext) (r : Reply) :
    (s.heed ctx r).console = s.console := by
  unfold heed
  cases r.said <;> cases r.printed <;> rfl

@[simp] theorem console_replySpec (ctx : RunContext) (c : CommandSpec) (args : List Argument)
    (k : Except String Json → Run) : (s.replySpec ctx c args k).1.console = s.console := by
  simp [replySpec]

@[simp] theorem console_callCommand (ctx : RunContext) (name : String) (args : List Argument)
    (k : Except String Json → Run) : (s.callCommand n ctx name args k).1.console = s.console := by
  unfold callCommand
  split
  · dsimp only
    split <;> simp
  · split <;> simp
  · rfl

@[simp] theorem console_answer (ctx : RunContext) (q : Request) (k : q.Answer → Run) :
    (s.answer n ctx q k).1.console = s.console := by
  cases q with
  | call name args => exact console_callCommand ctx name args k
  | fired v =>
      unfold answer
      dsimp only
      split <;> simp
  | record | say | offer | requestFile | openTextArea | input | resolve | store | collected
  | noted | acting | enter => rfl

@[simp] theorem console_stepRun (ctx : RunContext) (stage : RunStage) :
    (s.stepRun n ctx stage).1.console = s.console := by
  unfold stepRun
  cases stage with
  | fresh => simp
  | going r =>
      dsimp only
      split <;> simp
  | waiting wait k =>
      dsimp only
      split <;> simp
  | working c args due k =>
      dsimp only
      split <;> simp
  | seeking path args k => simp

theorem console_stepClient (n : Nat) : (s.stepClient n).1.console = s.console := by
  unfold stepClient
  split
  · simp
  · unfold stepWaiting
    dsimp only
    split <;> simp
  · simp
  · unfold stepCalling
    split <;> simp
  · exact console_stepRun _ _
  · simp
  · rfl

theorem console_arrive (time : Nat) : (s.arrive time).console = s.console := by
  obtain ⟨ready, timers, heq⟩ := arrive_eq s time
  rw [heq]

theorem console_turn (t : TaskId) : (s.turn t).console = (s.step t).1.console := by
  obtain ⟨ready, timers, heq⟩ := turn_eq s t
  rw [heq]

end Session

end Dialogue
