import Dialogue.Proofs.Input.Closing
import Dialogue.Proofs.Session.Histories
/-!
# Who waits for input

A client begins a wait in its turn and takes the steps of the wait in its later turns, until the
wait has ended. So a wait that is under way always has a client that waits on it, and when all
clients have come to their ends no wait is under way. The host may do what it likes, as long as it
does not take part in waits by itself.

* `awaits_of_begin` — a client that begins a wait waits on it.
* `Awaits.stepClient` — it goes on waiting until the wait has ended.
* `tended_after` — so a wait that is under way has its client.
-/

namespace Dialogue

/-- Does the operation belong to the waits of clients? -/
def Operation.isWait : Operation → Bool
  | .beginWait _ _ | .dropWait _ | .stepWait _ => true
  | _ => false

/-- The host does not take part in waits by itself. -/
def Incident.LeavesWaits : Incident → Prop
  | .operate op => op.isWait = false
  | _ => True

namespace Conversation

variable {c : Conversation} {m n : Nat}

/-! ## Waits that are under way -/

/-- The wait was begun and has not ended, and the one who waits is there. -/
def Underway (c : Conversation) (m : Nat) : Prop :=
  (∃ t, c.waitStage m = .opening t) ∨ ∃ r, c.waitStage m = .listening r

theorem Underway.of_opened (h : c.Opened m) : c.Underway m := by
  rcases h.2 with ⟨t, v, hs, -⟩ | hlistening
  · exact .inl ⟨t, hs⟩
  · exact .inr hlistening

theorem Underway.lt (h : c.Underway m) : m < c.waits.length := by
  rcases h with ⟨t, hs⟩ | ⟨r, hs⟩
  · exact lt_of_waitStage hs WaitStage.noConfusion
  · exact lt_of_waitStage hs WaitStage.noConfusion

theorem Underway.of_waitStage {c' : Conversation} (hs : c'.waitStage m = c.waitStage m)
    (h : c'.Underway m) : c.Underway m := by
  unfold Underway at h ⊢
  rwa [hs] at h

theorem Underway.ne_ended {result : Except RunError Json} (h : c.Underway m) :
    c.waitStage m ≠ .ended result := by
  intro hended
  rcases h with ⟨t, hs⟩ | ⟨r, hs⟩
  · cases hended.symm.trans hs
  · cases hended.symm.trans hs

/-- A wait that was there is under way after an operation only if it was before. -/
theorem Underway.of_perform (h : c.Attended) (hm : m < c.waits.length) {op : Operation}
    (hunder : (c.perform op).Underway m) : c.Underway m := by
  cases fared_perform h hm op with
  | left hs =>
      rcases hunder with ⟨t, hs'⟩ | ⟨r, hs'⟩
      · cases hs.symm.trans hs'
      · cases hs.symm.trans hs'
  | stayed hs => exact hunder.of_waitStage hs
  | stepped hd =>
      have hsame := waitStage_of_waits (congrArg Desk.waits hd) m
      rcases stage_stepWait hm with he | ⟨t, v, hs, -⟩ | ⟨result, he⟩
      · rw [he] at hsame
        exact hunder.of_waitStage hsame
      · exact .inl ⟨t, hs⟩
      · exact absurd (hsame.trans he) hunder.ne_ended

/-- Only the beginning of a wait adds one. -/
theorem length_waits_of_not_begin (hw : c.WorkedOff) {op : Operation}
    (hop : ∀ owner enable, op ≠ .beginWait owner enable) :
    (c.perform op).waits.length = c.waits.length := by
  have hdesk : ∀ {a : Conversation}, a.desk = c.desk → a.waits.length = c.waits.length :=
    fun h => congrArg (fun d => d.waits.length) h
  cases op with
  | queue p hook => exact hdesk (desk_push hw _)
  | queueFrom text => exact hdesk (desk_push hw _)
  | addOptions lead items selected multi =>
      exact hdesk ((desk_push (hw.addLead lead) _).trans (desk_addLead hw lead))
  | addUploader lead options =>
      exact hdesk ((desk_push (hw.addLead lead) _).trans (desk_addLead hw lead))
  | call owner job =>
      have ht : ({ c with tickets := c.tickets ++ [⟨owner, .waiting⟩] } : Conversation).WorkedOff :=
        hw.of_dispatch rfl
      exact congrArg (fun d => d.waits.length) (desk_push ht _)
  | beginWait owner enable => exact absurd rfl (hop owner enable)
  | stepPump k =>
      rcases desk_stepPump c k with hd | ⟨t, v, hd⟩
      · exact hdesk hd
      · exact congrArg (fun d => d.waits.length) hd
  | stepNotice k => exact hdesk (desk_stepNotice c k)
  | clear => exact congrArg (fun d => d.waits.length) (desk_clear c)
  | dropCall ticket =>
      rw [perform]
      split <;> rfl
  | dropWait k =>
      show (c.dropWait k).waits.length = _
      unfold dropWait
      split
      · exact length_waits_setWait
      · exact length_waits_setWait
      · rfl
  | stepWait k =>
      have hstep := waitStep_stepWait c k
      show (c.stepWait k).waits.length = _
      generalize c.stepWait k = c' at hstep ⊢
      cases hstep with
      | stay => rfl
      | listen => exact length_waits_listen
      | lose | receive | miss => exact length_waits_setWait
  | add | replace | addFrom | report | setSettings | setTimeout | setFixme | setValidator
  | setInput | useFixme | pass => rfl

/-- The beginning of a wait adds one. -/
theorem length_waits_begin (hw : c.WorkedOff) (owner : Nat) (enable : Bool) :
    (c.perform (.beginWait owner enable)).waits.length = c.waits.length + 1 := by
  cases enable with
  | true =>
      have hd := congrArg (fun d => d.waits.length) (desk_beginWait hw owner)
      exact hd.trans List.length_append
  | false => exact length_waits_listen.trans List.length_append

end Conversation

namespace Session

open Conversation

variable {s : Session} {c : Conversation} {n k m : Nat}

/-! ## Waits and their clients -/

/-- A client waits on a wait. -/
def Awaits (s : Session) (n m : Nat) : Prop :=
  s.stage? n = some (.waiting m) ∨ ∃ ctx f, s.stage? n = some (.running ctx (.waiting m f))

/-- Each wait that is under way has its client. -/
def Tended (s : Session) : Prop := ∀ m, s.conversation.Underway m → ∃ n, s.Awaits n m

theorem Awaits.clientOperations (h : s.Awaits n m) : s.clientOperations n = [.stepWait m] := by
  unfold Session.clientOperations
  rcases h with hs | ⟨ctx, f, hs⟩
  · rw [hs]
  · rw [hs]
    rfl

/-- A client waits on one wait at most. -/
theorem Awaits.inj {m' : Nat} (h : s.Awaits n m) (h' : s.Awaits n m') : m = m' := by
  have hops := h.clientOperations.symm.trans h'.clientOperations
  cases hops
  rfl

theorem underway_of_alike (h : Alike c s.conversation) :
    s.conversation.Underway m ↔ c.Underway m := by
  obtain ⟨x, heq, -⟩ := h
  rw [heq]
  rfl

/-! ## How waits begin -/

section Begin

variable {ctx : RunContext} {stage : RunStage} {owner : Nat} {enable : Bool}

/-- A command that replies queues a text at most. -/
theorem eq_queue_of_mem_reply {r : Reply} {op : Operation} (h : op ∈ r.operations) :
    ∃ text, op = .queue (.to text) none := by
  obtain ⟨text, -, rfl⟩ := List.mem_map.mp h
  exact ⟨text, rfl⟩

theorem eq_queue_of_mem_call {name : String} {args : List Argument} {op : Operation}
    (h : op ∈ s.callOperations ctx name args) : ∃ text, op = .queue (.to text) none := by
  unfold callOperations at h
  split at h
  · split at h
    · exact eq_queue_of_mem_reply h
    · cases h
  · split at h
    · exact eq_queue_of_mem_reply h
    · cases h
  · cases h

/-- A run begins a wait only to get an input. -/
theorem eq_input_of_begin {q : Request}
    (hbegin : .beginWait owner enable ∈ s.requestOperations n ctx q) : q = .input := by
  cases q with
  | input => rfl
  | call name args =>
      obtain ⟨text, htext⟩ := eq_queue_of_mem_call hbegin
      cases htext
  | say | offer | requestFile | openTextArea | record | resolve | store | collected | noted
  | fired | acting | enter => simp [requestOperations, Request.operations] at hbegin

theorem exists_input_of_begin (hbegin : .beginWait owner enable ∈ s.runOperations n ctx stage) :
    ∃ r k, stage = .going r ∧ r.next ctx.scene = .asks .input k := by
  unfold runOperations at hbegin
  split at hbegin
  · cases List.mem_singleton.mp hbegin
  · next r =>
    split at hbegin
    · next q k hn =>
      obtain rfl := eq_input_of_begin hbegin
      exact ⟨r, k, rfl, hn⟩
    · cases hbegin
  · cases List.mem_singleton.mp hbegin
  · split at hbegin
    · obtain ⟨text, htext⟩ := eq_queue_of_mem_reply hbegin
      cases htext
    · cases hbegin
  · obtain ⟨text, htext⟩ := eq_queue_of_mem_reply hbegin
    cases htext

/-- A client that begins a wait waits on it afterwards, and a run opens the field for it. -/
theorem awaits_of_begin (hbegin : .beginWait owner enable ∈ s.clientOperations n) :
    s.clientOperations n = [.beginWait owner enable] ∧
      (s.stepClient n).1.Awaits n s.conversation.waits.length ∧
      (enable = true ∨ s.stage? n = some (.aboutToWait enable)) := by
  have hset : ∀ {s₁ : Session} {stage stage'}, s.stage? n = some stage → s₁.stage? n = s.stage? n →
      (s₁.setClient n stage').stage? n = some stage' := fun hs hs₁ =>
    stage?_setClient (by rw [hs₁, hs]; rfl)
  have hstage : s.stage? n = (s.clients[n]?).map Client.stage := rfl
  unfold clientOperations at hbegin ⊢
  cases hs : s.stage? n with
  | none =>
      rw [hs] at hbegin
      cases hbegin
  | some stage =>
      rw [hs] at hbegin
      cases stage with
      | aboutToWait enable' =>
          obtain ⟨rfl, rfl⟩ : owner = n ∧ enable = enable' := by simpa using hbegin
          refine ⟨rfl, .inl ?_, .inr rfl⟩
          rw [stepClient, ← hstage, hs]
          exact hset hs rfl
      | running ctx stage =>
          obtain ⟨r, k, rfl, hn⟩ := exists_input_of_begin hbegin
          have hops : s.runOperations n ctx (.going r) = [.beginWait n true] := by
            unfold runOperations
            dsimp only
            rw [hn]
            rfl
          dsimp only at hbegin ⊢
          rw [hops] at hbegin ⊢
          cases List.mem_singleton.mp hbegin
          refine ⟨rfl, .inr ⟨ctx, k, ?_⟩, .inl rfl⟩
          rw [stepClient_running hs, stepRun]
          dsimp only
          rw [hn]
          exact hset hs rfl
      | aboutToCall | waiting => simp at hbegin
      | calling | failing | ended => cases hbegin

end Begin

/-! ## How waits go on -/

/-- A client goes on waiting until the wait has ended. -/
theorem Awaits.stepClient (h : s.Awaits n m)
    (hunder : (s.stepClient n).1.conversation.Underway m) : (s.stepClient n).1.Awaits n m := by
  have hended : ∀ {result}, (s.conversation.stepWait m).waitResult? m = some result →
      ¬(s.conversation.stepWait m).Underway m := by
    intro result hresult hlasts
    unfold waitResult? at hresult
    split at hresult
    · next hs => exact hlasts.ne_ended hs
    · cases hresult
  rcases h with hs | ⟨ctx, f, hs⟩
  · have hstep : s.stepClient n = s.stepWaiting n m := by
      have hstage : (s.clients[n]?).map Client.stage = some (.waiting m) := hs
      rw [Session.stepClient, hstage]
    rw [hstep] at hunder ⊢
    unfold stepWaiting at hunder ⊢
    dsimp only at hunder ⊢
    split
    · next result hresult =>
      rw [hresult] at hunder
      obtain ⟨x, heq, -⟩ := alike_finish (s := s.converse fun v => v.stepWait m) (n := n)
        (result.mapError .run)
      dsimp only at hunder
      rw [heq] at hunder
      exact absurd hunder (hended hresult)
    · exact .inl hs
  · rw [stepClient_running hs] at hunder ⊢
    unfold stepRun at hunder ⊢
    dsimp only at hunder ⊢
    split
    · next result hresult =>
      rw [hresult] at hunder
      dsimp only at hunder
      rw [conversation_setClient] at hunder
      exact absurd hunder (hended hresult)
    · exact .inr ⟨ctx, f, hs⟩

/-- A client takes the steps of a wait while it waits on it. -/
theorem awaits_of_stepWait (hstep : .stepWait m ∈ s.clientOperations n) : s.Awaits n m := by
  unfold clientOperations at hstep
  split at hstep
  · cases List.mem_singleton.mp hstep
  · next hs =>
    cases List.mem_singleton.mp hstep
    exact .inl hs
  · cases List.mem_singleton.mp hstep
  · next ctx stage hs =>
    cases stage with
    | fresh => cases List.mem_singleton.mp hstep
    | waiting wait f =>
        cases List.mem_singleton.mp hstep
        exact .inr ⟨ctx, f, hs⟩
    | going r =>
        dsimp only [runOperations] at hstep
        split at hstep
        · next q k _ =>
          cases q with
          | call name args =>
              obtain ⟨text, htext⟩ := eq_queue_of_mem_call hstep
              cases htext
          | say | offer | requestFile | openTextArea | input | record | resolve | store
          | collected | noted | fired | acting | enter =>
              simp [requestOperations, Request.operations] at hstep
        · cases hstep
    | working c args due k =>
        dsimp only [runOperations] at hstep
        split at hstep
        · obtain ⟨text, htext⟩ := eq_queue_of_mem_reply hstep
          cases htext
        · cases hstep
    | seeking path args k =>
        obtain ⟨text, htext⟩ := eq_queue_of_mem_reply hstep
        cases htext
  · cases hstep

/-- The forwarder gives answers and interrupts. -/
theorem mem_forwarderOperations {op : Operation} (h : op ∈ s.forwarderOperations) :
    (∃ text, op = .addFrom text) ∨ (∃ v, op = .report v) ∨ op = .clear := by
  have hsubmit : ∀ a, op ∈ s.submitOperations a →
      (∃ text, op = .addFrom text) ∨ (∃ v, op = .report v) ∨ op = .clear := by
    intro a hmem
    unfold submitOperations at hmem
    split at hmem
    · next t =>
      split at hmem
      · exact .inl ⟨t, List.mem_singleton.mp hmem⟩
      · cases hmem
    · next v => exact .inr (.inl ⟨v, List.mem_singleton.mp hmem⟩)
    · cases hmem
  unfold forwarderOperations at h
  split at h
  · cases h
  · split at h
    · split at h
      · exact hsubmit _ h
      · cases h
    · split at h
      · exact .inr (.inr (List.mem_singleton.mp h))
      · cases h
    · cases h

/-- Waits are begun and go on in the turns of clients only. -/
theorem exists_turn_of_isWait {i : Incident} (hi : i.LeavesWaits) {op : Operation}
    (hop : op ∈ s.operations i) (hwait : op.isWait = true) :
    ∃ n, i = .move (.turn (.client n)) ∧ op ∈ s.clientOperations n := by
  cases i with
  | operate op =>
      cases List.mem_singleton.mp hop
      cases hwait.symm.trans hi
  | setRecord => cases hop
  | move m =>
      cases m with
      | turn t =>
          cases t with
          | client n => exact ⟨n, rfl, hop⟩
          | pump | notice =>
              cases List.mem_singleton.mp hop
              cases hwait
          | renderer => cases hop
          | forwarder =>
              rcases mem_forwarderOperations hop with ⟨text, rfl⟩ | ⟨v, rfl⟩ | rfl
              · cases hwait
              · cases hwait
              · cases hwait
      | arrive =>
          cases List.mem_singleton.mp hop
          cases hwait
      | type | close | join => cases hop

/-! ## All waits have their clients -/

/-- What holds of a client in its turn holds after it. -/
theorem awaits_turn : (s.turn (.client n)).Awaits n m ↔ (s.stepClient n).1.Awaits n m := by
  unfold Awaits
  rw [stage?_turn]
  rfl

theorem underway_of_operations (h : c.Attended) {ops : List Operation} (hm : m < c.waits.length)
    (hunder : (c.after ops).Underway m) : c.Underway m := by
  induction ops generalizing c with
  | nil => exact hunder
  | cons op rest ih =>
      have hlt := Nat.lt_of_lt_of_le hm (length_waits_perform h.worked op)
      exact (ih (h.perform op) hlt hunder).of_perform h hm

theorem exists_begin_of_lt (hw : c.WorkedOff) {ops : List Operation}
    (hlt : c.waits.length < (c.after ops).waits.length) :
    ∃ owner enable, .beginWait owner enable ∈ ops := by
  by_contra hno
  push Not at hno
  have hsame : (c.after ops).waits.length = c.waits.length := by
    clear hlt
    induction ops generalizing c with
    | nil => rfl
    | cons op rest ih =>
        have hop : ∀ owner enable, op ≠ .beginWait owner enable := fun owner enable he =>
          hno owner enable (he ▸ List.mem_cons_self)
        refine (ih (hw.perform op) fun owner enable hmem => ?_).trans
          (length_waits_of_not_begin hw hop)
        exact hno owner enable (List.mem_cons_of_mem op hmem)
  omega

theorem Tended.undergo (ht : s.Tended) (h : c.Attended) (hw : s.conversation.WorkedOff)
    (halike : Alike c s.conversation) {i : Incident} (hi : i.LeavesWaits) :
    (s.undergo i).Tended := by
  have hafter : Alike (c.after (s.operations i)) (s.undergo i).conversation :=
    (halike.after h.worked _).1.trans (alike_undergo hw i)
  have hlength : s.conversation.waits.length = c.waits.length := by
    obtain ⟨x, heq, -⟩ := halike
    rw [heq]
    rfl
  intro m hm
  have hunder := (underway_of_alike hafter).mp hm
  by_cases hlt : m < c.waits.length
  · -- The wait was under way before, and its client goes on waiting.
    obtain ⟨n, hn⟩ := ht m ((underway_of_alike halike).mpr (underway_of_operations h hlt hunder))
    refine ⟨n, ?_⟩
    by_cases hturn : i = .move (.turn (.client n))
    · subst hturn
      apply awaits_turn.mpr
      apply hn.stepClient
      have hm : (s.turn (.client n)).conversation.Underway m := hm
      rwa [conversation_turn] at hm
    · rcases hn with hs | ⟨ctx, f, hs⟩
      · exact .inl (stage?_undergo_ne hturn hs)
      · exact .inr ⟨ctx, f, stage?_undergo_ne hturn hs⟩
  · -- The wait has just begun.
    obtain ⟨owner, enable, hbegin⟩ := exists_begin_of_lt h.worked
      (Nat.lt_of_le_of_lt (Nat.le_of_not_lt hlt) hunder.lt)
    obtain ⟨n, rfl, hbegin⟩ := exists_turn_of_isWait hi hbegin rfl
    obtain ⟨hops, hn, -⟩ := awaits_of_begin hbegin
    have hops : s.operations (.move (.turn (.client n))) = [.beginWait owner enable] := hops
    rw [hops] at hunder
    have hmlt : m < c.waits.length + 1 :=
      length_waits_begin h.worked owner enable ▸ hunder.lt
    obtain rfl : m = s.conversation.waits.length := by omega
    exact ⟨n, awaits_turn.mpr hn⟩

/-- While the host leaves the waits to the clients, each wait that is under way has its client. -/
theorem tended_after {settings : Settings} {clock : Clock}
    (hstart : s.conversation = .start settings clock) {is : List Incident}
    (his : ∀ i ∈ is, i.LeavesWaits) : (s.after is).Tended := by
  induction is using List.reverseRecOn with
  | nil =>
      intro m hm
      have hm : s.conversation.Underway m := hm
      rw [hstart] at hm
      exact absurd hm.lt (Nat.not_lt_zero m)
  | append_singleton is i ih =>
      rw [after_append]
      have hfirst := ih fun j hj => his j (List.mem_append_left _ hj)
      refine hfirst.undergo ((attended_start settings clock).after (s.history is)) ?_
        (alike_start hstart is) (his i (by simp))
      exact workedOff_after (hstart ▸ workedOff_start settings clock) is

end Session

end Dialogue
