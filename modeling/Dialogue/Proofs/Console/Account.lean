import Mathlib.Data.List.Basic
import Dialogue.Proofs.Console.Moves
import Dialogue.Proofs.Queue.Pumps
/-!
# What happens at the console

The `account` of a move is what can be noticed of it that concerns questions and answers: a question
took its place in the list of messages, or was shown, or a line was handed over, or the
conversation was cleared.

* `mem_questions_moves` — each question that stands in the list of messages is on the account.
* `handsOver_answerTo` — the line that is handed over goes out as the answer it gives.
-/

namespace Dialogue

/-- Does the message ask for something? -/
def Payload.isQuestion : Payload → Bool
  | .options _ _ _ _ | .uploader _ => true
  | _ => false

/-- The questions in the list of messages. -/
def Conversation.questions (c : Conversation) : List Payload :=
  (c.messages.map Message.payload).filter Payload.isQuestion

/-- What can be noticed of a session that concerns questions and answers. -/
inductive Happening where
  /-- A question took its place in the list of messages. -/
  | delivered (p : Payload)
  /-- A question was shown. -/
  | shown (p : Payload)
  /-- A line was handed over. Was it taken for an answer? -/
  | handed (line : String) (textArea answered : Bool)
  /-- The conversation was cleared. -/
  | cleared

namespace Session

/-- The answer that a line gives at the console. -/
def answerTo (s : Session) (line : String) : Option Answer :=
  s.console.bind fun k => (k.prompting.resolve line s.conversation.input.textArea).1

/-- Is an answer taken? -/
def accepts (s : Session) : Option Answer → Bool
  | some (.text t) => s.conversation.validates t
  | some (.upload _) => true
  | none => false

/-- The question that a pump delivers in its turn. -/
def question? (s : Session) (n : Nat) : Option Payload :=
  match s.conversation.pumps[n]? with
  | some ⟨g, .typing d _ due⟩ =>
    if due ≤ s.now ∧ s.conversation.generation = g then some d.payload else none
  | _ => none

/-- The message that the renderer shows in its turn. -/
def display? (s : Session) : Option Payload :=
  match s.console with
  | none => none
  | some k =>
    match s.conversation.noticesAfter k.seen with
    | (0, m :: _) => some m.payload
    | _ => none

/-- What happens in the turn of the forwarder. -/
def forwarding (s : Session) : List Happening :=
  match s.console.map ConsoleState.forwarder with
  | some (.holding line) =>
    if s.conversation.isAwaiting then
      [.handed line s.conversation.input.textArea (s.accepts (s.answerTo line))]
    else []
  | some .closing => if s.conversation.isAwaiting then [.cleared] else []
  | _ => []

/-- What happens in a move. -/
def account (s : Session) : Move → List Happening
  | .turn (.pump n) => ((s.question? n).filter Payload.isQuestion).toList.map .delivered
  | .turn .renderer => (s.display?.filter Payload.isQuestion).toList.map .shown
  | .turn .forwarder => s.forwarding
  | .turn (.client n) =>
    match (s.clients[n]?).map Client.stage with
    | some (.running _ .fresh) => [.cleared]
    | _ => []
  | _ => []

/-- What happens in some moves. -/
def accounts (s : Session) : List Move → List Happening
  | [] => []
  | m :: ms => s.account m ++ (s.move m).accounts ms

end Session

/-! ## Questions in the list of messages -/

namespace Conversation

variable {c c' : Conversation} {n : Nat} {p : Payload}

/-- A placeholder is not a question. -/
theorem questions_makeRoom (c : Conversation) (i : Item) :
    (c.makeRoom i).questions = c.questions := by
  cases i with
  | message d => simp [questions, makeRoom, add, newMessage, Payload.isQuestion]
  | call ticket job => rfl

theorem questions_takeHead? {w : Work} (h : c.takeHead? = some (w, c')) :
    c'.questions = c.questions := by
  unfold takeHead? at h
  split at h
  · cases h
  · cases h
    exact questions_makeRoom _ _

theorem questions_push (c : Conversation) (i : Item) : (c.push i).questions = c.questions := by
  unfold push
  dsimp only
  split
  · rfl
  · split
    case h_1 w c' hc =>
      have hq : c'.questions =
          ({ c with queue := c.queue ++ [i], pumping := true } : Conversation).questions :=
        questions_takeHead? hc
      exact hq
    case h_2 => rfl

theorem questions_beginWork (c : Conversation) (n : Nat) (w : Work) :
    (c.beginWork n w).questions = c.questions := by
  cases w with
  | message d placeholder => rfl
  | call ticket job => cases job <;> rfl

theorem questions_nextItem (c : Conversation) (n g : Nat) :
    (c.nextItem n g).questions = c.questions := by
  unfold nextItem
  split
  · rfl
  · split
    case h_1 w c' hc =>
      have hq : c'.questions = c.questions := questions_takeHead? hc
      exact hq
    case h_2 => rfl

theorem questions_stepNotice (c : Conversation) (n : Nat) :
    (c.stepNotice n).questions = c.questions := by
  have hm : (c.stepNotice n).messages = c.messages :=
    congrArg Ledger.messages (ledger_stepNotice c n)
  rw [questions, questions, hm]

theorem questions_listen (c : Conversation) (n : Nat) : (c.listen n).questions = c.questions := by
  unfold listen
  split <;> rfl

theorem questions_stepWait (c : Conversation) (n : Nat) :
    (c.stepWait n).questions = c.questions := by
  unfold stepWait
  split
  · split
    · exact questions_listen c n
    · rfl
    · rfl
  · split <;> rfl
  · rfl

theorem questions_call (c : Conversation) (owner : Nat) (job : Job) :
    (c.call owner job).questions = c.questions := questions_push _ _

theorem questions_beginWait (c : Conversation) (owner : Nat) (enable : Bool) :
    (c.beginWait owner enable).questions = c.questions := by
  cases enable with
  | true => exact questions_call _ _ _
  | false => exact questions_listen _ _

theorem questions_clear (c : Conversation) : c.clear.questions = [] := by
  obtain ⟨signals, heq⟩ := clear_eq c
  rw [heq]
  rfl

theorem questions_addFrom (c : Conversation) (text : String) :
    (c.addFrom text).questions = c.questions := by
  show ((c.messages ++ [c.newMessage (.from text c.fixLabel)]).map Message.payload).filter _ = _
  simp [questions, newMessage, Payload.isQuestion]

/-- A message that is delivered takes the place of its placeholder. -/
theorem mem_questions_deliver {d : Delivery} {placeholder : Nat}
    (h : p ∈ (c.deliver d placeholder).questions) : p ∈ c.questions ∨ p = d.payload := by
  obtain ⟨hmem, hq⟩ := List.mem_filter.mp h
  obtain ⟨m, hm, rfl⟩ := List.mem_map.mp hmem
  have hm : m ∈ if placeholder < c.messages.length then
      c.messages.set placeholder (c.messageAt placeholder d.payload)
      else c.messages ++ [c.newMessage d.payload] := hm
  have hcases : m ∈ c.messages ∨ m.payload = d.payload := by
    split at hm
    · rcases List.mem_or_eq_of_mem_set hm with hm | rfl
      · exact .inl hm
      · exact .inr rfl
    · rcases List.mem_append.mp hm with hm | hm
      · exact .inl hm
      · rw [List.mem_singleton.mp hm]
        exact .inr rfl
  rcases hcases with hm | he
  · exact .inl (List.mem_filter.mpr ⟨List.mem_map_of_mem hm, hq⟩)
  · exact .inr he

end Conversation

namespace Session

variable {s : Session} {n : Nat} {p : Payload} {m : Move}

/-! ## The account is true -/

/-- The questions in the list of messages. -/
def questions (s : Session) : List Payload := s.conversation.questions

theorem conversation_turn (t : TaskId) : (s.turn t).conversation =
    { (s.step t).1.conversation with signals := [] } := by
  obtain ⟨ready, timers, heq⟩ := turn_eq s t
  rw [heq]

theorem questions_turn (t : TaskId) : (s.turn t).questions = (s.step t).1.questions := by
  show (s.turn t).conversation.questions = _
  rw [conversation_turn]
  rfl

/-- A pump brings a question into the list by delivering it. -/
theorem mem_questions_stepPump (h : p ∈ (s.conversation.stepPump n).questions) :
    p ∈ s.questions ∨ s.question? n = some p := by
  unfold Conversation.stepPump at h
  split at h
  case h_1 g w hn =>
    rw [Conversation.questions_beginWork] at h
    exact .inl h
  case h_2 g d placeholder due hn =>
    split at h
    case isFalse => exact .inl h
    case isTrue hdue =>
      unfold Conversation.finishTyping at h
      split at h
      case isTrue => exact .inl h
      case isFalse hg =>
        have hdue : due ≤ s.now := hdue
        have hg : s.conversation.generation = g := Decidable.not_not.mp hg
        rcases Conversation.mem_questions_deliver h with hmem | rfl
        · exact .inl hmem
        · right
          simp only [question?, hn, hdue, hg, and_self, if_true]
  case h_3 g ticket job due hn =>
    split at h
    · exact .inl h
    · exact .inl h
  case h_4 g w news hn =>
    rw [Conversation.questions_nextItem] at h
    cases news <;> exact .inl h
  case h_5 => exact .inl h

/-! ## Moves that bring no question -/

@[simp] theorem questions_converse (f : Conversation → Conversation) :
    (s.converse f).questions = (f s.conversation).questions := rfl

@[simp] theorem questions_setClient (stage : ClientStage) :
    (s.setClient n stage).questions = s.questions := by
  obtain ⟨clients, heq⟩ := setClient_eq s n stage
  rw [heq]
  rfl

@[simp] theorem questions_wake (t : TaskId) : (s.wake t).questions = s.questions := by
  obtain ⟨ready, heq⟩ := wake_eq s t
  rw [heq]
  rfl

@[simp] theorem questions_finish (result : Except ChatError Json) :
    (s.finish n result).questions = s.questions := by
  unfold finish
  split
  · rw [questions_setClient]
    rfl
  · rfl

@[simp] theorem questions_heed (ctx : RunContext) (r : Reply) :
    (s.heed ctx r).questions = s.questions := by
  unfold heed
  cases r.said with
  | none => cases r.printed <;> rfl
  | some text =>
      have hpush := Conversation.questions_push s.conversation (.message ⟨.to text, none, none⟩)
      cases r.printed <;> exact hpush

@[simp] theorem questions_replySpec (ctx : RunContext) (c : CommandSpec) (args : List Argument)
    (k : Except String Json → Run) : (s.replySpec ctx c args k).1.questions = s.questions := by
  simp [replySpec]

@[simp] theorem questions_callCommand (ctx : RunContext) (name : String) (args : List Argument)
    (k : Except String Json → Run) :
    (s.callCommand n ctx name args k).1.questions = s.questions := by
  unfold callCommand
  split
  · dsimp only
    split
    · rw [questions_replySpec]
      rfl
    · rfl
  · split
    · exact questions_heed _ _
    · rfl
  · rfl

@[simp] theorem questions_answer (ctx : RunContext) (q : Request) (k : q.Answer → Run) :
    (s.answer n ctx q k).1.questions = s.questions := by
  cases q with
  | call name args => exact questions_callCommand ctx name args k
  | fired v =>
      unfold answer
      dsimp only
      split <;> rfl
  | say text noted => exact Conversation.questions_push _ _
  | offer items => exact Conversation.questions_push _ _
  | requestFile => exact Conversation.questions_push _ _
  | input => exact Conversation.questions_beginWait _ _ _
  | record | openTextArea | resolve | store | collected | noted | acting | enter => rfl

theorem questions_stepRun (ctx : RunContext) (stage : RunStage) :
    (s.stepRun n ctx stage).1.questions ⊆ s.questions := by
  unfold stepRun
  cases stage with
  | fresh =>
      dsimp only
      rw [questions_setClient, questions_converse, Conversation.questions_clear]
      exact List.nil_subset _
  | going r =>
      dsimp only
      split <;> simp
  | waiting wait k =>
      have hstep := Conversation.questions_stepWait s.conversation wait
      dsimp only
      split
      · rw [questions_setClient, questions_converse, hstep]
        exact List.Subset.refl _
      · rw [questions_converse, hstep]
        exact List.Subset.refl _
  | working c args due k =>
      dsimp only
      split <;> simp
  | seeking path args k => simp

theorem questions_stepWaiting (n wait : Nat) :
    (s.stepWaiting n wait).1.questions ⊆ s.questions := by
  have hstep := Conversation.questions_stepWait s.conversation wait
  unfold stepWaiting
  dsimp only
  split
  · rw [questions_finish, questions_converse, hstep]
    exact List.Subset.refl _
  · rw [questions_converse, hstep]
    exact List.Subset.refl _

theorem questions_stepClient (n : Nat) : (s.stepClient n).1.questions ⊆ s.questions := by
  unfold stepClient
  split
  · rw [questions_setClient, questions_converse, Conversation.questions_beginWait]
    exact List.Subset.refl _
  · exact questions_stepWaiting _ _
  · rw [questions_setClient, questions_converse, Conversation.questions_call]
    exact List.Subset.refl _
  · unfold stepCalling
    split <;> simp
  · exact questions_stepRun _ _
  · simp
  · exact List.Subset.refl _

theorem questions_stepRenderer : s.stepRenderer.1.questions = s.questions := by
  obtain ⟨console, output, heq⟩ := stepRenderer_eq s
  rw [heq]
  rfl

theorem questions_useLastButton : s.useLastButton.questions = s.questions := by
  unfold useLastButton
  split
  · split <;> rfl
  · rfl

theorem questions_submit (a : Option Answer) : (s.submit a).questions = s.questions := by
  unfold submit
  split
  · split
    · exact Conversation.questions_addFrom _ _
    · rfl
  · rfl
  · rfl

theorem questions_stepForwarder : s.stepForwarder.1.questions ⊆ s.questions := by
  unfold stepForwarder
  split
  · exact List.Subset.refl _
  · split
    · split
      · split
        · rw [questions_useLastButton]
          exact List.Subset.refl _
        · exact List.Subset.refl _
      · split <;> exact List.Subset.refl _
    · split
      · unfold forward
        dsimp only
        rw [questions_submit]
        exact List.Subset.refl _
      · exact List.Subset.refl _
    · split
      · dsimp only
        rw [questions_converse, Conversation.questions_clear]
        exact List.nil_subset _
      · exact List.Subset.refl _
    · exact List.Subset.refl _

theorem questions_arrive (time : Nat) : (s.arrive time).questions = s.questions := by
  obtain ⟨ready, timers, heq⟩ := arrive_eq s time
  rw [heq]
  rfl

theorem questions_type (line : String) : (s.type line).questions = s.questions := by
  obtain ⟨console, ready, heq⟩ := type_eq s line
  rw [heq]
  rfl

theorem questions_close : s.close.questions = s.questions := by
  obtain ⟨console, ready, heq⟩ := close_eq s
  rw [heq]
  rfl

/-- A question that stands in the list of messages stood there before or is on the account. -/
theorem mem_questions_move (h : p ∈ (s.move m).questions) :
    p ∈ s.questions ∨ .delivered p ∈ s.account m := by
  cases m with
  | turn t =>
      have h : p ∈ (s.turn t).questions := h
      rw [questions_turn] at h
      cases t with
      | pump n =>
          have hq : p.isQuestion = true := (List.mem_filter.mp h).2
          rcases mem_questions_stepPump h with hmem | hp
          · exact .inl hmem
          · right
            simp [account, hp, hq]
      | notice n =>
          have h : p ∈ (s.conversation.stepNotice n).questions := h
          rw [Conversation.questions_stepNotice] at h
          exact .inl h
      | client n => exact .inl (questions_stepClient n h)
      | renderer => exact .inl (questions_stepRenderer ▸ h)
      | forwarder => exact .inl (questions_stepForwarder h)
  | arrive time => exact .inl (questions_arrive time ▸ h)
  | type line => exact .inl (questions_type line ▸ h)
  | close => exact .inl (questions_close ▸ h)
  | join c =>
      have h : p ∈ ({ s with clients := s.clients ++ [c] }.wake
          (.client s.clients.length)).questions := h
      rw [questions_wake] at h
      exact .inl h

/-- Each question in the list of messages was there in the beginning or is on the account. -/
theorem mem_questions_moves {ms : List Move} (h : p ∈ (s.moves ms).questions) :
    p ∈ s.questions ∨ .delivered p ∈ s.accounts ms := by
  induction ms generalizing s with
  | nil => exact .inl h
  | cons m ms ih =>
      rcases ih h with hmem | hmem
      · rcases mem_questions_move hmem with hmem | hmem
        · exact .inl hmem
        · exact .inr (List.mem_append_left _ hmem)
      · exact .inr (List.mem_append_right _ hmem)

/-! ## The line that is handed over -/

/-- The forwarder hands over an answer to the line that it holds. -/
def HandsOver (s : Session) (line : String) (answer : Option Answer) : Prop :=
  ∀ k, s.console = some k → k.forwarder = .holding line → s.conversation.isAwaiting = true →
    ∃ k', s.stepForwarder.1 = (s.setConsole k').submit answer

/-- While somebody waits, the forwarder hands over the answer that its line gives. -/
theorem handsOver_answerTo (line : String) : s.HandsOver line (s.answerTo line) := by
  intro k hk hf ha
  refine ⟨{ k with
    prompting := (k.prompting.resolve line s.conversation.input.textArea).2
    forwarder := .receiving }, ?_⟩
  simp only [stepForwarder, hk, hf, ha, if_true, forward, answerTo, Option.bind_some]

end Session

end Dialogue
