import Mathlib.Data.List.Basic
import Dialogue.Proofs.Session.Histories
/-!
# The forwarder and its lines

The forwarder takes the lines one by one from those that were typed and holds each until somebody
waits for input. Whatever else happens, nobody touches the lines but it, and no client reports a
value.

* `value?_of_operations` — values come from the forwarder or from the host.
* `beltStep_undergo` — what an incident can do to the lines and to the forwarder.
-/

namespace Dialogue

/-- The lines of a console and the stage of its forwarder. -/
structure Belt where
  lines : List String
  closed : Bool
  forwarder : ForwarderStage

/-- Is there something to do for the forwarder? -/
def Belt.isBusy (b : Belt) : Bool :=
  match b.forwarder with
  | .receiving => !b.lines.isEmpty || b.closed
  | .holding _ | .closing => true
  | .ended => false

/-- Does the host give an answer of its own? -/
def Incident.isAnswer : Incident → Bool
  | .operate op => op.value?.isSome
  | _ => false

namespace Session

open Conversation

variable {s s' : Session} {n : Nat} {i : Incident}

/-- The lines of the console and the stage of the forwarder. -/
def belt? (s : Session) : Option Belt := s.console.map fun k => ⟨k.lines, k.closed, k.forwarder⟩

/-- What an incident can do to the lines and to the forwarder, and what it reports. -/
inductive BeltStep (s : Session) (i : Incident) (s' : Session) : Prop where
  | stay (hb : s'.belt? = s.belt?) (hi : ∀ line, i = .move (.type line) → s.takesLine = false)
    (hops : i.isAnswer = false → ∀ op ∈ s.operations i, op.value? = none)
    (hidle : i = .move (.turn .forwarder) → s.conversation.isAwaiting = true →
      ∀ b, s.belt? = some b → b.isBusy = false)
  | type {line : String} {b : Belt} (hi : i = .move (.type line)) (hb : s.belt? = some b)
    (ht : s.takesLine = true) (hb' : s'.belt? = some { b with lines := b.lines ++ [line] })
  | close {b : Belt} (hi : i = .move .close) (hb : s.belt? = some b)
    (hb' : s'.belt? = some { b with closed := true })
  /-- A line uses a button and is not handed over. -/
  | skip {line : String} {lines : List String} {closed : Bool} (hi : i = .move (.turn .forwarder))
    (hb : s.belt? = some ⟨line :: lines, closed, .receiving⟩)
    (hfix : Text.trim line = Console.fixWord) (hops : s.operations i = [])
    (hb' : s'.belt? = some ⟨lines, closed, .receiving⟩)
  | take {line : String} {lines : List String} {closed : Bool} (hi : i = .move (.turn .forwarder))
    (hb : s.belt? = some ⟨line :: lines, closed, .receiving⟩)
    (hfix : Text.trim line ≠ Console.fixWord) (hops : s.operations i = [])
    (hb' : s'.belt? = some ⟨lines, closed, .holding line⟩)
  | hand {line : String} {lines : List String} {closed : Bool} (hi : i = .move (.turn .forwarder))
    (hb : s.belt? = some ⟨lines, closed, .holding line⟩) (ha : s.conversation.isAwaiting = true)
    (hops : s.operations i = s.submitOperations (s.answerTo line))
    (hb' : s'.belt? = some ⟨lines, closed, .receiving⟩)
  /-- The forwarder sees that no more lines will come. -/
  | finish (hi : i = .move (.turn .forwarder)) (hb : s.belt? = some ⟨[], true, .receiving⟩)
    (hops : s.operations i = []) (hb' : s'.belt? = some ⟨[], true, .closing⟩)
  | stop {lines : List String} {closed : Bool} (hi : i = .move (.turn .forwarder))
    (hb : s.belt? = some ⟨lines, closed, .closing⟩) (ha : s.conversation.isAwaiting = true)
    (hops : s.operations i = [.clear]) (hb' : s'.belt? = some ⟨lines, closed, .ended⟩)

/-! ## What reports a value -/

theorem value?_of_reply {r : Reply} {op : Operation} (h : op ∈ r.operations) :
    op.value? = none := by
  obtain ⟨text, -, rfl⟩ := List.mem_map.mp h
  rfl

theorem value?_of_call {ctx : RunContext} {name : String} {args : List Argument} {op : Operation}
    (h : op ∈ s.callOperations ctx name args) : op.value? = none := by
  unfold callOperations at h
  split at h
  · split at h
    · exact value?_of_reply h
    · cases h
  · split at h
    · exact value?_of_reply h
    · cases h
  · cases h

theorem value?_of_request {ctx : RunContext} {q : Request} {op : Operation}
    (h : op ∈ s.requestOperations n ctx q) : op.value? = none := by
  cases q with
  | call name args => exact value?_of_call h
  | say | offer | requestFile | openTextArea | input =>
      rw [List.mem_singleton.mp h]
      rfl
  | _ => cases h

theorem value?_of_run {ctx : RunContext} {stage : RunStage} {op : Operation}
    (h : op ∈ s.runOperations n ctx stage) : op.value? = none := by
  unfold runOperations at h
  split at h
  case h_1 | h_3 =>
    rw [List.mem_singleton.mp h]
    rfl
  case h_2 =>
    split at h
    · exact value?_of_request h
    · cases h
  case h_4 =>
    split at h
    · exact value?_of_reply h
    · cases h
  case h_5 => exact value?_of_reply h

/-- No client reports a value. -/
theorem value?_of_client {op : Operation} (h : op ∈ s.clientOperations n) : op.value? = none := by
  unfold clientOperations at h
  split at h
  · rw [List.mem_singleton.mp h]
    rfl
  · rw [List.mem_singleton.mp h]
    rfl
  · rw [List.mem_singleton.mp h]
    rfl
  · exact value?_of_run h
  · cases h

/-- Values come from the forwarder or from the host. -/
theorem value?_of_operations (hi : i ≠ .move (.turn .forwarder)) (ha : i.isAnswer = false)
    {op : Operation} (h : op ∈ s.operations i) : op.value? = none := by
  cases i with
  | move m =>
      cases m with
      | turn t =>
          cases t with
          | pump | notice =>
              rw [List.mem_singleton.mp h]
              rfl
          | client n => exact value?_of_client h
          | renderer => cases h
          | forwarder => exact absurd rfl hi
      | arrive time =>
          rw [List.mem_singleton.mp h]
          rfl
      | type | close | join => cases h
  | operate op' =>
      rw [List.mem_singleton.mp h]
      exact Option.isNone_iff_eq_none.mp (by simpa [Incident.isAnswer] using ha)
  | setRecord => cases h

/-! ## What an incident does to the lines -/

@[simp] theorem belt?_setConsole (k : ConsoleState) :
    (s.setConsole k).belt? = some ⟨k.lines, k.closed, k.forwarder⟩ := rfl

theorem belt?_of_console (h : s'.console = s.console) : s'.belt? = s.belt? := by
  rw [belt?, belt?, h]

theorem belt?_turn (t : TaskId) : (s.turn t).belt? = (s.step t).1.belt? :=
  belt?_of_console (console_turn t)

theorem belt?_stepRenderer : s.stepRenderer.1.belt? = s.belt? := by
  unfold stepRenderer
  cases hk : s.console with
  | none => rfl
  | some k =>
      have hb : s.belt? = some ⟨k.lines, k.closed, k.forwarder⟩ := by rw [belt?, hk]; rfl
      dsimp only
      rw [hb]
      split
      · exact hb
      · unfold showMessage
        cases Console.format? k.settings _ <;> dsimp only <;> split <;> rfl
      · rfl

theorem belt?_wakeForwarder (k : ConsoleState) : (s.wakeForwarder k).belt? = s.belt? := by
  obtain ⟨ready, heq⟩ := wakeForwarder_eq s k
  rw [heq]
  rfl

theorem belt?_useLastButton : s.useLastButton.belt? = s.belt? := by
  obtain ⟨conversation, output, heq⟩ := useLastButton_eq s
  rw [heq]
  rfl

theorem belt?_submit (a : Option Answer) : (s.submit a).belt? = s.belt? := by
  obtain ⟨conversation, output, heq⟩ := submit_eq s a
  rw [heq]
  rfl

theorem beltStep_forwarder (s : Session) :
    BeltStep s (.move (.turn .forwarder)) (s.turn .forwarder) := by
  have hturn : (s.turn .forwarder).belt? = s.stepForwarder.1.belt? := belt?_turn .forwarder
  have hops : s.operations (.move (.turn .forwarder)) = s.forwarderOperations := rfl
  have hstay : s.stepForwarder.1.belt? = s.belt? → s.forwarderOperations = [] →
      (s.conversation.isAwaiting = true → ∀ b, s.belt? = some b → b.isBusy = false) →
      BeltStep s (.move (.turn .forwarder)) (s.turn .forwarder) := by
    intro hb hnil hidle
    refine .stay (hturn.trans hb) (fun _ he => by cases he) (fun _ op hop => ?_) fun _ => hidle
    rw [hops, hnil] at hop
    cases hop
  cases hk : s.console with
  | none =>
      apply hstay
      · simp [stepForwarder, hk]
      · simp [forwarderOperations, hk]
      · simp [belt?, hk]
  | some k =>
      obtain ⟨settings, prompting, lines, closed, forwarder, seen⟩ := k
      have hb : s.belt? = some ⟨lines, closed, forwarder⟩ := by rw [belt?, hk]; rfl
      cases forwarder with
      | receiving =>
          have hnil : s.operations (.move (.turn .forwarder)) = [] := by
            simp [hops, forwarderOperations, hk]
          cases lines with
          | nil =>
              cases closed with
              | false =>
                  apply hstay
                  · simp [stepForwarder, hk]
                  · exact hnil
                  · simp [hb, Belt.isBusy]
              | true => exact .finish rfl hb hnil (hturn.trans (by simp [stepForwarder, hk]))
          | cons line lines =>
              by_cases hfix : Text.trim line = Console.fixWord
              · refine .skip rfl hb hfix hnil (hturn.trans ?_)
                simp [stepForwarder, hk, hfix, belt?_useLastButton]
              · refine .take rfl hb hfix hnil (hturn.trans ?_)
                simp [stepForwarder, hk, hfix]
      | holding line =>
          cases ha : s.conversation.isAwaiting with
          | true =>
              refine .hand rfl hb ha ?_ (hturn.trans ?_)
              · simp [hops, forwarderOperations, answerTo, hk, ha]
              · simp [stepForwarder, hk, ha, forward, belt?_submit]
          | false =>
              apply hstay
              · simp [stepForwarder, hk, ha, lookAgain, sleepUntil, belt?]
              · simp [forwarderOperations, hk, ha]
              · simp [ha]
      | closing =>
          cases ha : s.conversation.isAwaiting with
          | true =>
              refine .stop rfl hb ha ?_ (hturn.trans ?_)
              · simp [hops, forwarderOperations, hk, ha]
              · simp [stepForwarder, hk, ha, converse, setConsole, belt?]
          | false =>
              apply hstay
              · simp [stepForwarder, hk, ha, lookAgain, sleepUntil, belt?]
              · simp [forwarderOperations, hk, ha]
              · simp [ha]
      | ended =>
          apply hstay
          · simp [stepForwarder, hk]
          · simp [forwarderOperations, hk]
          · simp [hb, Belt.isBusy]

/-- What an incident can do to the lines and to the forwarder. -/
theorem beltStep_undergo (s : Session) (i : Incident) : BeltStep s i (s.undergo i) := by
  by_cases hf : i = .move (.turn .forwarder)
  · subst hf
    exact beltStep_forwarder s
  have hquiet : i.isAnswer = false → ∀ op ∈ s.operations i, op.value? = none :=
    fun ha _ hop => value?_of_operations hf ha hop
  have hstay : (s.undergo i).belt? = s.belt? → (∀ line, i ≠ .move (.type line)) →
      BeltStep s i (s.undergo i) :=
    fun hb ht => .stay hb (fun line he => absurd he (ht line)) hquiet fun he => absurd he hf
  cases i with
  | move m =>
      cases m with
      | turn t =>
          refine hstay ((belt?_turn t).trans ?_) nofun
          cases t with
          | pump | notice => rfl
          | client n => exact belt?_of_console (console_stepClient n)
          | renderer => exact belt?_stepRenderer (s := s)
          | forwarder => exact absurd rfl hf
      | arrive time => exact hstay (belt?_of_console (console_arrive time)) nofun
      | type line =>
          show BeltStep s _ (s.type line)
          cases hk : s.console with
          | none =>
              refine .stay ?_ (fun _ _ => ?_) hquiet fun he => absurd he hf
              · simp [type, hk]
              · simp [takesLine, hk]
          | some k =>
              cases ht : s.takesLine with
              | false =>
                  refine .stay ?_ (fun _ _ => ht) hquiet fun he => absurd he hf
                  simp [type, hk, ht]
              | true =>
                  refine .type (b := ⟨k.lines, k.closed, k.forwarder⟩) rfl ?_ ht ?_
                  · simp [belt?, hk]
                  · simp [type, hk, ht, belt?_wakeForwarder]
      | close =>
          cases hk : s.console with
          | none =>
              refine hstay ?_ nofun
              show s.close.belt? = s.belt?
              simp [close, hk]
          | some k =>
              show BeltStep s _ s.close
              refine .close (b := ⟨k.lines, k.closed, k.forwarder⟩) rfl ?_ ?_
              · simp [belt?, hk]
              · simp [close, hk, belt?_wakeForwarder]
      | join c =>
          refine hstay (belt?_of_console ?_) nofun
          exact console_wake (s := { s with clients := s.clients ++ [c] }) _
  | operate op =>
      obtain ⟨ready, timers, heq⟩ := operate_eq s op
      refine hstay (belt?_of_console ?_) nofun
      show (s.operate op).console = _
      rw [heq]
  | setRecord n r => exact hstay rfl nofun

end Session

end Dialogue
