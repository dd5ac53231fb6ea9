import Dialogue.Proofs.Session.Waiters
/-!
# What a run inherits from those before it

A run that wants several lines switches the input field over before it asks. Only an answer that is
added to the messages switches the field back; a value that is reported by itself does not, nor does
an interruption. So a later run can find the field as an earlier one has left it.

Nothing else is left behind. When a run asks and no other client is there, the field is open, and
its other properties are as at the start.

* `Doing` — what bears on the field: the requests of runs, and the answers of the user.
* `field_after` — the field after some incidents.
* `Sole.undergo` — while one run is alone, the field is open when the run listens.
* `prompt_inherited_iff` — a run asks with another field than it would at the start just if an
  earlier run has left the field switched over, and nothing has switched it since.
-/

namespace Dialogue

/-- What a run or the user does in a session. -/
inductive Doing where
  /-- A run makes a request. -/
  | asked (q : Request)
  /-- A text is added as an answer. -/
  | added (text : String)
  /-- A value is reported by itself. -/
  | reported (value : Json)

namespace Doing

/-- Does the field take several lines afterwards? -/
def switch (lines : Bool) : Doing → Bool
  | .asked .openTextArea => true
  | .added _ => false
  | _ => lines

/-- The field stays as it is. -/
def Spares (d : Doing) : Prop := d ≠ .asked .openTextArea ∧ ∀ text, d ≠ .added text

/-- The field has been switched over, and no text was added since. -/
def LeaveOpen (ds : List Doing) : Prop :=
  ∃ before later, ds = before ++ .asked .openTextArea :: later ∧ ∀ text, .added text ∉ later

theorem switch_eq {d : Doing} (h : d.Spares) (lines : Bool) : d.switch lines = lines := by
  unfold switch
  split
  · exact absurd rfl h.1
  · next text => exact absurd rfl (h.2 text)
  · rfl

theorem foldl_switch_of_spares {ds : List Doing} (h : ∀ d ∈ ds, d.Spares) (lines : Bool) :
    ds.foldl switch lines = lines := by
  induction ds with
  | nil => rfl
  | cons d ds ih =>
      rw [List.foldl_cons, switch_eq (h d List.mem_cons_self)]
      exact ih fun d' hd' => h d' (List.mem_cons_of_mem d hd')

/-- It makes a difference how the field was before just if all that is done spares it. -/
theorem foldl_switch_ne_iff {ds : List Doing} :
    ds.foldl switch true ≠ ds.foldl switch false ↔ ∀ d ∈ ds, d.Spares := by
  constructor
  · intro hne
    induction ds with
    | nil => exact fun d hd => absurd hd List.not_mem_nil
    | cons d ds ih =>
        have hd : d.Spares := by
          constructor
          · rintro rfl
            exact hne rfl
          · rintro text rfl
            exact hne rfl
        rw [List.foldl_cons, List.foldl_cons, switch_eq hd, switch_eq hd] at hne
        exact List.forall_mem_cons.mpr ⟨hd, ih hne⟩
  · intro h
    rw [foldl_switch_of_spares h, foldl_switch_of_spares h]
    decide

theorem switch_eq_true_iff {d : Doing} {lines : Bool} : d.switch lines = true ↔
    d = .asked .openTextArea ∨ (lines = true ∧ ∀ text, d ≠ .added text) := by
  unfold switch
  split
  · simp
  · simp
  · next hopen hadded =>
    constructor
    · intro h
      exact .inr ⟨h, fun text => hadded text⟩
    · rintro (h | ⟨h, -⟩)
      · exact absurd h hopen
      · exact h

/-- Something is done last. -/
theorem leaveOpen_concat {ds : List Doing} {d : Doing} : LeaveOpen (ds ++ [d]) ↔
    d = .asked .openTextArea ∨ (LeaveOpen ds ∧ ∀ text, d ≠ .added text) := by
  constructor
  · rintro ⟨before, later, hds, hlater⟩
    rcases List.eq_nil_or_concat later with rfl | ⟨later, d', rfl⟩
    · obtain ⟨-, hd⟩ := List.append_inj' hds rfl
      exact .inl (List.singleton_injective hd)
    · have hds : ds ++ [d] = (before ++ .asked .openTextArea :: later) ++ [d'] := by
        simpa using hds
      obtain ⟨rfl, hd⟩ := List.append_inj' hds rfl
      obtain rfl := List.singleton_injective hd
      refine .inr ⟨⟨before, later, rfl, fun text hmem => ?_⟩, ?_⟩
      · exact hlater text (by simp [hmem])
      · rintro text rfl
        exact hlater text (by simp)
  · rintro (rfl | ⟨⟨before, later, rfl, hlater⟩, hd⟩)
    · exact ⟨ds, [], rfl, fun text => List.not_mem_nil⟩
    · refine ⟨before, later ++ [d], by simp, fun text hmem => ?_⟩
      rcases List.mem_append.mp hmem with hmem | hmem
      · exact hlater text hmem
      · exact hd text (List.mem_singleton.mp hmem).symm

theorem foldl_switch_eq_true_iff {ds : List Doing} :
    ds.foldl switch false = true ↔ LeaveOpen ds := by
  induction ds using List.reverseRecOn with
  | nil =>
      constructor
      · intro h
        cases h
      · rintro ⟨before, later, hds, -⟩
        cases before <;> cases hds
  | append_singleton ds d ih =>
      rw [List.foldl_concat, leaveOpen_concat, ← ih]
      exact switch_eq_true_iff

end Doing

/-- The answer that an operation gives. -/
def Operation.answer? : Operation → Option Doing
  | .addFrom text => some (.added text)
  | .report v => some (.reported v)
  | _ => none

/-- The host neither sets the input field nor takes part in waits by itself. -/
def Incident.LeavesField (i : Incident) : Prop :=
  i.LeavesWaits ∧ ∀ change, i ≠ .operate (.setInput change)

/-- The field of a run that asks, where nothing was set but whether it takes several lines. -/
def InputState.asking (lines : Bool) : InputState :=
  { InputState.standard with enabled := true, textArea := lines }

/-- No client comes. -/
def Incident.LeavesClients (i : Incident) : Prop := ∀ c, i ≠ .move (.join c)

/-! ## The field after some incidents -/

namespace Conversation

variable {c : Conversation} {lines : Bool}

/-- The field is as at the start, but for whether it is open and whether it takes several lines. -/
def HasField (c : Conversation) (lines : Bool) : Prop :=
  c.input = { InputState.standard with enabled := c.input.enabled, textArea := lines }

theorem HasField.eq_asking (h : c.HasField lines) (henabled : c.input.enabled = true) :
    c.input = .asking lines := by
  unfold HasField at h
  rwa [henabled] at h

theorem HasField.perform (h : c.HasField lines) (hw : c.WorkedOff) {op : Operation}
    (hset : ∀ change, op ≠ .setInput change) :
    (c.perform op).HasField (op.answer?.toList.foldl Doing.switch lines) := by
  unfold HasField at h ⊢
  by_cases hadd : ∀ text, op ≠ .addFrom text
  · have hswitch : op.answer?.toList.foldl Doing.switch lines = lines := by
      cases op with
      | addFrom text => exact absurd rfl (hadd text)
      | _ => rfl
    rw [hswitch, input_perform hw hset hadd, h]
  · push Not at hadd
    obtain ⟨text, rfl⟩ := hadd
    show c.input.resetPrompt = _
    rw [h]
    rfl

theorem HasField.after (h : c.HasField lines) (hw : c.WorkedOff) {ops : List Operation}
    (hset : ∀ op ∈ ops, ∀ change, op ≠ .setInput change) :
    (c.after ops).HasField ((ops.filterMap Operation.answer?).foldl Doing.switch lines) := by
  induction ops generalizing c lines with
  | nil => exact h
  | cons op rest ih =>
      have hfirst := h.perform hw (hset op List.mem_cons_self)
      have hrest := ih hfirst (hw.perform op) fun op' hop' =>
        hset op' (List.mem_cons_of_mem op hop')
      have hanswers : (op :: rest).filterMap Operation.answer? =
          op.answer?.toList ++ rest.filterMap Operation.answer? := by
        cases hop : op.answer? <;> simp [hop]
      rw [hanswers, List.foldl_append]
      exact hrest

end Conversation

namespace Session

open Conversation

variable {s : Session} {c : Conversation} {n : Nat} {lines : Bool}

/-- What a run or the user does in an incident. -/
def doings (s : Session) : Incident → List Doing
  | .move (.turn (.client n)) => (s.request? n).toList.map .asked
  | i => (s.operations i).filterMap Operation.answer?

/-- A client gives no answers, and it switches the field over only by its request. -/
theorem clientOperations_cases (s : Session) (n : Nat) :
    (s.request? n = some .openTextArea ∧
      s.clientOperations n = [.setInput fun i => { i with textArea := true }]) ∨
    (s.request? n ≠ some .openTextArea ∧ ∀ op ∈ s.clientOperations n,
      (∀ change, op ≠ .setInput change) ∧ op.answer? = none) := by
  have hqueue : ∀ {op : Operation}, (∃ text, op = .queue (.to text) none) →
      (∀ change, op ≠ .setInput change) ∧ op.answer? = none := by
    rintro op ⟨text, rfl⟩
    exact ⟨fun _ => Operation.noConfusion, rfl⟩
  unfold clientOperations request?
  cases hs : s.stage? n with
  | none => simp
  | some stage =>
      cases stage with
      | running ctx stage =>
          cases stage with
          | going r =>
              dsimp only [runOperations]
              cases hn : r.next ctx.scene with
              | ended | moved => simp
              | asks q k =>
                  cases q with
                  | openTextArea => exact .inl ⟨rfl, rfl⟩
                  | call name args =>
                      refine .inr ⟨by simp, fun op hop => hqueue (eq_queue_of_mem_call hop)⟩
                  | say | offer | requestFile | input | record | resolve | store | collected
                  | noted | fired | acting | enter =>
                      simp [requestOperations, Request.operations, Operation.answer?]
          | fresh | waiting => simp [runOperations, Operation.answer?]
          | working c args due k =>
              refine .inr ⟨by simp, fun op hop => hqueue ?_⟩
              dsimp only [runOperations] at hop
              split at hop
              · exact eq_queue_of_mem_reply hop
              · cases hop
          | seeking path args k =>
              exact .inr ⟨by simp, fun op hop => hqueue (eq_queue_of_mem_reply hop)⟩
      | aboutToWait | waiting | aboutToCall => simp [Operation.answer?]
      | calling | failing | ended => simp

/-- Only the host sets the field otherwise. -/
theorem ne_setInput_of_mem {i : Incident} (hi : i.LeavesField)
    (hn : ∀ n, i ≠ .move (.turn (.client n))) {op : Operation} (hop : op ∈ s.operations i)
    (change : InputState → InputState) : op ≠ .setInput change := by
  rintro rfl
  cases i with
  | operate op =>
      cases List.mem_singleton.mp hop
      exact hi.2 change rfl
  | setRecord => cases hop
  | move m =>
      cases m with
      | turn t =>
          cases t with
          | client n => exact hn n rfl
          | pump | notice => cases List.mem_singleton.mp hop
          | renderer => cases hop
          | forwarder =>
              rcases mem_forwarderOperations hop with ⟨text, h⟩ | ⟨v, h⟩ | h
              · cases h
              · cases h
              · cases h
      | arrive => cases List.mem_singleton.mp hop
      | type | close | join => cases hop

theorem hasField_operations (h : c.HasField lines) (hw : c.WorkedOff) {i : Incident}
    (hi : i.LeavesField) :
    (c.after (s.operations i)).HasField ((s.doings i).foldl Doing.switch lines) := by
  by_cases hclient : ∃ n, i = .move (.turn (.client n))
  · obtain ⟨n, rfl⟩ := hclient
    show (c.after (s.clientOperations n)).HasField _
    rcases clientOperations_cases s n with ⟨hq, hops⟩ | ⟨hq, hops⟩
    · rw [hops]
      unfold HasField at h ⊢
      show ({ { c.input with textArea := true } with enabled := c.input.enabled } : InputState) = _
      rw [h, doings, hq]
      rfl
    · have hafter := h.after hw (fun op hop => (hops op hop).1)
      have hanswers : (s.clientOperations n).filterMap Operation.answer? = [] :=
        List.filterMap_eq_nil_iff.mpr fun op hop => (hops op hop).2
      rw [hanswers] at hafter
      have hspares : ∀ d ∈ s.doings (.move (.turn (.client n))), d.Spares := by
        intro d hd
        obtain ⟨q, hmem, rfl⟩ := List.mem_map.mp hd
        refine ⟨?_, fun text => Doing.noConfusion⟩
        rintro ⟨⟩
        exact hq (Option.mem_toList.mp hmem)
      rw [Doing.foldl_switch_of_spares hspares]
      exact hafter
  · push Not at hclient
    have hdoings : s.doings i = (s.operations i).filterMap Operation.answer? := by
      unfold doings
      split
      · exact absurd rfl (hclient _)
      · rfl
    rw [hdoings]
    exact h.after hw fun op hop => ne_setInput_of_mem hi hclient hop

/-- The field after some incidents. -/
theorem field_after {settings : Settings} {clock : Clock}
    (hstart : s.conversation = .start settings clock) (is : List Incident)
    (his : ∀ i ∈ is, i.LeavesField) :
    (s.after is).conversation.HasField ((s.gathered doings is).foldl Doing.switch false) := by
  have hfield : ∀ {s : Session} {c : Conversation} {lines : Bool} {is : List Incident},
      Alike c s.conversation → c.WorkedOff → s.conversation.WorkedOff → c.HasField lines →
      (∀ i ∈ is, i.LeavesField) →
      (s.after is).conversation.HasField ((s.gathered doings is).foldl Doing.switch lines) := by
    intro s c lines is halike hw hws h his
    induction is generalizing s c lines with
    | nil =>
        obtain ⟨x, heq, -⟩ := halike
        show s.conversation.HasField lines
        rw [heq]
        exact h
    | cons i is ih =>
        have hfirst := hasField_operations (s := s) h hw (his i List.mem_cons_self)
        have hrest := ih ((halike.after hw _).1.trans (alike_undergo hws i)) (hw.after _)
          ((accounts_undergo s i).worked hws) hfirst fun j hj => his j (List.mem_cons_of_mem i hj)
        rw [← List.foldl_append] at hrest
        exact hrest
  have hw := workedOff_start settings clock
  exact hfield (hstart ▸ Alike.refl _) hw (hstart ▸ hw) rfl his

/-! ## A run that is alone -/

/-- The client is a run, or it has been one and has ended. -/
def IsRun (s : Session) (n : Nat) : Prop :=
  (∃ ctx stage, s.stage? n = some (.running ctx stage)) ∨ s.stage? n = some .ended

/-- One client is a run and all others have ended. All waits that are under way open the field, and
when the function of one has been called the field is open. -/
structure Sole (c : Conversation) (s : Session) (n : Nat) : Prop where
  own : s.IsRun n
  others : ∀ k, k ≠ n → s.stage? k = none ∨ s.stage? k = some .ended
  enabling : ∀ m, c.Underway m → c.isEnabling m = true
  opened : ∀ m, c.Opened m → c.input.enabled = true

theorem isRun_stepClient (h : s.IsRun n) : (s.stepClient n).1.IsRun n := by
  rcases h with ⟨ctx, stage, hs⟩ | hs
  · have hset : ∀ {s₁ : Session} {stage'}, s₁.stage? n = s.stage? n →
        (s₁.setClient n (.running ctx stage')).IsRun n :=
      fun hs₁ => .inl ⟨ctx, _, stage?_setClient (by rw [hs₁, hs]; rfl)⟩
    rw [stepClient_running hs]
    unfold stepRun
    cases stage with
    | fresh => exact hset rfl
    | going r =>
        dsimp only
        split
        · exact .inr (stage?_finish _ (by rw [hs]; rfl))
        · exact hset rfl
        · exact hset (stage?_answer _ _ _)
    | waiting wait f =>
        dsimp only
        split
        · exact hset rfl
        · exact .inl ⟨ctx, _, hs⟩
    | working c args due f =>
        dsimp only
        split
        · exact hset (stage?_heed _ _)
        · exact .inl ⟨ctx, _, hs⟩
    | seeking path args f => exact hset (stage?_heed _ _)
  · have hstage : (s.clients[n]?).map Client.stage = some .ended := hs
    rw [stepClient, hstage]
    exact .inr hs

/-- A client that is not there or has ended does nothing. -/
theorem clientOperations_eq_nil (hs : s.stage? n = none ∨ s.stage? n = some .ended) :
    s.clientOperations n = [] := by
  unfold clientOperations
  rcases hs with hs | hs
  · rw [hs]
  · rw [hs]

theorem stage?_undergo_of_idle (hs : s.stage? n = none ∨ s.stage? n = some .ended) {i : Incident}
    (hjoin : i.LeavesClients) : (s.undergo i).stage? n = s.stage? n := by
  by_cases hturn : i = .move (.turn (.client n))
  · subst hturn
    have hstep : s.stepClient n = (s, false) := by
      have hstage : s.stage? n = (s.clients[n]?).map Client.stage := rfl
      rw [stepClient, ← hstage]
      rcases hs with hs | hs
      · rw [hs]
      · rw [hs]
    show (s.turn (.client n)).stage? n = _
    rw [stage?_turn, step, hstep]
  · cases i with
    | move m => exact stage?_move_eq (fun h => hturn (h ▸ rfl)) fun c h => hjoin c (h ▸ rfl)
    | operate op =>
        obtain ⟨ready, timers, heq⟩ := operate_eq s op
        show (s.operate op).stage? n = _
        rw [heq]
        rfl
    | setRecord => rfl

theorem Sole.eq_of_operations (hs : Sole c s n) {k : Nat} (hops : s.clientOperations k ≠ []) :
    k = n := by
  by_contra hk
  exact hops (clientOperations_eq_nil (hs.others k hk))

theorem Sole.eq_of_awaits (hs : Sole c s n) {k m : Nat} (hk : s.Awaits k m) : k = n := by
  apply hs.eq_of_operations
  rw [hk.clientOperations]
  exact List.cons_ne_nil _ _

theorem isEnabling_operations (h : c.Attended) {m : Nat} (hm : m < c.waits.length)
    (ops : List Operation) : (c.after ops).isEnabling m = c.isEnabling m := by
  induction ops generalizing c with
  | nil => rfl
  | cons op rest ih =>
      have hlt := Nat.lt_of_lt_of_le hm (length_waits_perform h.worked op)
      exact (ih (h.perform op) hlt).trans (isEnabling_perform h.worked hm op)

theorem isEnabling_begin (hw : c.WorkedOff) (owner : Nat) :
    (c.perform (.beginWait owner true)).isEnabling c.waits.length = true := by
  have hwaits : (c.perform (.beginWait owner true)).waits =
      c.waits ++ [⟨owner, true, .opening c.tickets.length⟩] :=
    congrArg Desk.waits (desk_beginWait hw owner)
  rw [isEnabling, enables, hwaits, List.map_append, ← List.length_map Wait.enable,
    List.map_singleton, List.getElem?_concat_length]
  rfl

/-- When nothing is received, the field is open as before, or it is opened. -/
theorem opened_operations (h : c.Attended) (hp : c.Prompt)
    (hopened : ∀ m, c.Opened m → c.input.enabled = true) {ops : List Operation}
    (hops : ∀ op ∈ ops, ∀ m, op ≠ .stepWait m) :
    ∀ m, (c.after ops).Opened m → (c.after ops).input.enabled = true := by
  induction ops generalizing c with
  | nil => exact hopened
  | cons op rest ih =>
      refine ih (h.perform op) (hp.perform h op) ?_ fun op' hop' =>
        hops op' (List.mem_cons_of_mem op hop')
      intro m hm
      have hr : c.receives op = [] := by
        cases op with
        | stepWait m => exact absurd rfl (hops _ List.mem_cons_self m)
        | _ => rfl
      rw [enabled_perform h.worked, hr]
      rcases opened_perform h hp op hm with hbefore | hopens
      · simp [hopened m hbefore]
      · simp [hopens]

/-- Nobody but the run that is alone receives a value, and so no wait is left without a field. -/
theorem Sole.undergo (hs : Sole c s n) (ht : s.Tended) (h : c.Attended) (hp : c.Prompt)
    (halike : Alike c s.conversation) {i : Incident} (hi : i.LeavesField)
    (hjoin : i.LeavesClients) :
    Sole (c.after (s.operations i)) (s.undergo i) n where
  own := by
    by_cases hturn : i = .move (.turn (.client n))
    · subst hturn
      have hown := isRun_stepClient hs.own
      unfold IsRun at hown ⊢
      show (∃ ctx stage, (s.turn (.client n)).stage? n = _) ∨ (s.turn (.client n)).stage? n = _
      rw [stage?_turn]
      exact hown
    · rcases hs.own with ⟨ctx, stage, hstage⟩ | hstage
      · exact .inl ⟨ctx, stage, stage?_undergo_ne hturn hstage⟩
      · exact .inr (stage?_undergo_ne hturn hstage)
  others k hk := by
    rw [stage?_undergo_of_idle (hs.others k hk) hjoin]
    exact hs.others k hk
  enabling m hm := by
    by_cases hlt : m < c.waits.length
    · rw [isEnabling_operations h hlt]
      exact hs.enabling m (underway_of_operations h hlt hm)
    · obtain ⟨owner, enable, hbegin⟩ := exists_begin_of_lt h.worked
        (Nat.lt_of_le_of_lt (Nat.le_of_not_lt hlt) hm.lt)
      obtain ⟨k, rfl, hbegin⟩ := exists_turn_of_isWait hi.1 hbegin rfl
      obtain rfl := hs.eq_of_operations (List.ne_nil_of_mem hbegin)
      obtain ⟨hops, -, henable⟩ := awaits_of_begin hbegin
      have hops : s.operations (.move (.turn (.client k))) = [.beginWait owner enable] := hops
      rw [hops] at hm ⊢
      have hmlt : m < c.waits.length + 1 := length_waits_begin h.worked owner enable ▸ hm.lt
      obtain rfl : m = c.waits.length := by omega
      obtain rfl : enable = true := by
        rcases henable with rfl | hstage
        · rfl
        · rcases hs.own with ⟨ctx, stage, hown⟩ | hown
          · cases hstage.symm.trans hown
          · cases hstage.symm.trans hown
      exact isEnabling_begin h.worked owner
  opened := by
    by_cases hstep : ∃ m, .stepWait m ∈ s.operations i
    · obtain ⟨m, hstep⟩ := hstep
      obtain ⟨k, rfl, hstep⟩ := exists_turn_of_isWait hi.1 hstep rfl
      have hk := awaits_of_stepWait hstep
      have hops : s.operations (.move (.turn (.client k))) = [.stepWait m] := hk.clientOperations
      rw [hops]
      intro m' hm'
      have hm' : (c.perform (.stepWait m)).Opened m' := hm'
      show (c.perform (.stepWait m)).input.enabled = true
      have hbefore := (opened_perform h hp _ hm').resolve_right (by simp [opens])
      -- The wait that takes its step is the only one.
      obtain ⟨k', hk'⟩ := ht m' ((underway_of_alike halike).mpr (Underway.of_opened hbefore))
      obtain rfl := hs.eq_of_awaits hk'
      obtain rfl := hs.eq_of_awaits hk
      obtain rfl := hk.inj hk'
      have hr : c.receives (.stepWait m) = [] := by
        by_contra hr
        exact not_opened_of_receives hr hm'
      rw [enabled_perform h.worked, hr, hs.opened m hbefore]
      exact Bool.or_true _
    · push Not at hstep
      refine opened_operations h hp hs.opened fun op hop m => ?_
      rintro rfl
      exact hstep m hop

/-! ## Runs one after the other -/

/-- All clients have come to their ends. -/
def AllEnded (s : Session) : Prop := ∀ c ∈ s.clients, c.hasEnded = true

/-- The wait of a run that waits for input. -/
def prompt? (s : Session) (n : Nat) : Option Nat :=
  match s.stage? n with
  | some (.running _ (.waiting wait _)) => some wait
  | _ => none

/-- The client is a run that waits for input and holds the input slot. -/
def Prompts (s : Session) (n : Nat) : Prop :=
  ∃ wait, s.prompt? n = some wait ∧ s.conversation.holdsSlot wait = true

variable {settings : Settings} {clock : Clock} {before is : List Incident} {ctx : RunContext}
  {name : String}

theorem AllEnded.stage? (h : s.AllEnded) (k : Nat) :
    s.stage? k = none ∨ s.stage? k = some .ended := by
  unfold Session.stage?
  cases hk : s.clients[k]? with
  | none => exact .inl rfl
  | some client =>
      right
      have hended := h client (List.mem_of_getElem? hk)
      unfold Client.hasEnded at hended
      split at hended
      · next hstage => rw [Option.map_some, hstage]
      · cases hended

/-- A run comes. -/
def beginRun (s : Session) (name : String) (ctx : RunContext) : Session :=
  s.join ⟨name, .running ctx .fresh⟩

/-- A run that comes when all clients have ended is alone. -/
theorem sole_beginRun (ht : s.Tended) (halike : Alike c s.conversation) (hended : s.AllEnded)
    (name : String) (ctx : RunContext) :
    Sole c (s.beginRun name ctx) s.clients.length := by
  have hnone : ∀ m, ¬c.Underway m := by
    intro m hm
    obtain ⟨k, hk⟩ := ht m ((underway_of_alike halike).mpr hm)
    have hops := hk.clientOperations
    rw [clientOperations_eq_nil (hended.stage? k)] at hops
    cases hops
  have hstage : ∀ k, (s.beginRun name ctx).stage? k =
      if k = s.clients.length then some (.running ctx .fresh) else s.stage? k :=
    fun k => stage?_join _
  refine ⟨.inl ⟨ctx, .fresh, ?_⟩, fun k hk => ?_, fun m hm => absurd hm (hnone m),
    fun m hm => absurd (Underway.of_opened hm) (hnone m)⟩
  · rw [hstage, if_pos rfl]
  · rw [hstage, if_neg hk]
    exact hended.stage? k

/-- A run stays alone as long as no other client comes. -/
theorem Sole.after (hs : Sole c s n) (ht : s.Tended) (h : c.Attended) (hp : c.Prompt)
    (hw : s.conversation.WorkedOff) (halike : Alike c s.conversation)
    (his : ∀ i ∈ is, i.LeavesField ∧ i.LeavesClients) :
    Sole (c.after (s.history is)) (s.after is) n := by
  induction is generalizing s c with
  | nil => exact hs
  | cons i is ih =>
      obtain ⟨hi, hjoin⟩ := his i List.mem_cons_self
      have hafter : c.after (s.history (i :: is)) =
          (c.after (s.operations i)).after ((s.undergo i).history is) := List.foldl_append
      rw [hafter]
      refine ih (hs.undergo ht h hp halike hi hjoin) (ht.undergo h hw halike hi.1) (h.after _)
        (hp.after h _) ((accounts_undergo s i).worked hw)
        ((halike.after h.worked _).1.trans (alike_undergo hw i)) ?_
      exact fun j hj => his j (List.mem_cons_of_mem i hj)

/-- When a run asks that is alone, the field is open. -/
theorem Sole.enabled (hs : Sole c s n) (halike : Alike c s.conversation) (h : s.Prompts n) :
    s.conversation.input.enabled = true := by
  obtain ⟨wait, -, hholds⟩ := h
  obtain ⟨x, heq, -⟩ := halike
  rw [heq] at hholds ⊢
  obtain ⟨r, hstage, -⟩ := holdsSlot_iff.mp (show c.holdsSlot wait = true from hholds)
  exact hs.opened wait ⟨hs.enabling wait (.inr ⟨r, hstage⟩), .inr ⟨r, hstage⟩⟩

/-- The field of a run that asks, when all clients had ended before it came and no other client has
come since. -/
theorem input_of_prompts (hstart : s.conversation = .start settings clock) (before : List Incident)
    (hbefore : ∀ i ∈ before, i.LeavesField) (hended : (s.after before).AllEnded)
    (his : ∀ i ∈ is, i.LeavesField ∧ i.LeavesClients)
    (hprompts : (((s.after before).beginRun name ctx).after is).Prompts
      (s.after before).clients.length) :
    (((s.after before).beginRun name ctx).after is).conversation.input =
      .asking ((((s.after before).beginRun name ctx).gathered doings is).foldl Doing.switch
        ((s.gathered doings before).foldl Doing.switch false)) := by
  let run : Incident := .move (.join ⟨name, .running ctx .fresh⟩)
  have hrun : run.LeavesField := ⟨trivial, fun change => Incident.noConfusion⟩
  have hw := workedOff_after (hstart ▸ workedOff_start settings clock) before
  have hattended := (attended_start settings clock).after (s.history before)
  have hprompt := (prompt_start settings clock).after (attended_start settings clock)
    (s.history before)
  have halike := alike_start hstart before
  have ht := tended_after hstart fun i hi => (hbefore i hi).1
  -- The run comes, and then it stays alone.
  have hbegun := halike.trans (alike_undergo hw run)
  have hwbegun := (accounts_undergo (s.after before) run).worked hw
  have hsole := (sole_beginRun ht halike hended name ctx).after
    (ht.undergo hattended hw halike hrun.1) hattended hprompt hwbegun hbegun his
  have henabled := hsole.enabled ((hbegun.after hattended.worked _).1.trans
    (alike_after hwbegun is)) hprompts
  have hfield := field_after hstart (before ++ run :: is) fun i hi => by
    rcases List.mem_append.mp hi with hi | hi
    · exact hbefore i hi
    · rcases List.mem_cons.mp hi with rfl | hi
      · exact hrun
      · exact (his i hi).1
  rw [after_append, gathered_append, List.foldl_append] at hfield
  have hlines := hfield.eq_asking henabled
  exact hlines

/-- Two runs with the same doings ask, one after other runs and one in a session in which nothing
has happened. Their fields are the same but for whether they take several lines, and they differ in
that just if the field was switched over before the first run and not back by an answer that was
added, and neither was it switched since. -/
theorem prompt_inherited_iff {used fresh : Session} {is' : List Incident} {name' : String}
    (hused : used.conversation = .start settings clock)
    (hfresh : fresh.conversation = .start settings clock) (hclients : fresh.clients = [])
    (hbefore : ∀ i ∈ before, i.LeavesField) (hended : (used.after before).AllEnded)
    (his : ∀ i ∈ is, i.LeavesField ∧ i.LeavesClients)
    (his' : ∀ i ∈ is', i.LeavesField ∧ i.LeavesClients) :
    let s := (used.after before).beginRun name ctx
    let s' := fresh.beginRun name' ctx
    (s.after is).Prompts (used.after before).clients.length → (s'.after is').Prompts 0 →
    s.gathered doings is = s'.gathered doings is' →
    let field := (s.after is).conversation.input
    let field' := (s'.after is').conversation.input
    field = { field' with textArea := field.textArea } ∧
      (field.textArea ≠ field'.textArea ↔
        Doing.LeaveOpen (used.gathered doings before) ∧ ∀ d ∈ s.gathered doings is, d.Spares) := by
  intro s s' hprompts hprompts' hsame field field'
  have hnone : (fresh.after []).AllEnded := by
    intro c hc
    have hc : c ∈ fresh.clients := hc
    rw [hclients] at hc
    cases hc
  have hfirst : ((fresh.after []).beginRun name' ctx |>.after is').Prompts
      (fresh.after []).clients.length := by
    show (s'.after is').Prompts fresh.clients.length
    rw [hclients]
    exact hprompts'
  have hfield := input_of_prompts hused before hbefore hended his hprompts
  have hfield' := input_of_prompts hfresh [] (fun i hi => absurd hi List.not_mem_nil) hnone his'
    hfirst
  have hfield' : field' = .asking ((s.gathered doings is).foldl Doing.switch false) := by
    rw [hsame]
    exact hfield'
  have hfield : field = .asking ((s.gathered doings is).foldl Doing.switch
    ((used.gathered doings before).foldl Doing.switch false)) := hfield
  rw [hfield, hfield', ← Doing.foldl_switch_ne_iff, ← Doing.foldl_switch_eq_true_iff]
  refine ⟨rfl, ?_⟩
  show _ ≠ _ ↔ _
  cases (used.gathered doings before).foldl Doing.switch false with
  | true => simp [InputState.asking]
  | false => simp [InputState.asking]

/-! ### An answer of several lines, and one of a single line -/

/-- A step that says nothing and wants an answer. -/
def collectStep (multiple : Bool) : Step :=
  { Step.empty with text := some [], collect := some ⟨none, multiple, []⟩ }

/-- A run of the step by itself, without callbacks. -/
def collectContext (multiple : Bool) : RunContext where
  scene := ⟨⟨[⟨defaultTopic, [collectStep multiple]⟩], by simp, by simp⟩, .standard,
    ⟨false, false, false⟩⟩
  record := 0
  table := .empty

/-- A session in which nothing has happened. -/
def collectSession : Session := start .standard .empty .stepped 0 fun _ => false

/-- A run asks for several lines, and ends after the answer that the host gives. -/
def severalLines (answer : Operation) : List Incident :=
  [.move (.join ⟨"first", .running (collectContext true) .fresh⟩), .move (.turn (.client 0)),
    .move (.turn (.client 0)), .move (.turn (.client 0)), .move (.turn (.pump 0)),
    .move (.turn (.pump 0)), .move (.turn (.client 0)), .operate answer,
    .move (.turn (.client 0)), .move (.turn (.client 0))]

/-- A client with a pump of its own asks for a single line. -/
def singleLine (n : Nat) : List Incident :=
  [.move (.turn (.client n)), .move (.turn (.client n)), .move (.turn (.pump n)),
    .move (.turn (.pump n)), .move (.turn (.client n))]

/-- A run comes after the first one was answered. -/
def nextRun (answer : Operation) : Session :=
  (collectSession.after (severalLines answer)).beginRun "second" (collectContext false)

/-- The same run comes to a session in which nothing has happened. -/
def firstRun : Session := collectSession.beginRun "second" (collectContext false)

theorem leavesField_severalLines {answer : Operation} (hwait : answer.isWait = false)
    (hset : ∀ change, answer ≠ .setInput change) : ∀ i ∈ severalLines answer, i.LeavesField := by
  simp [severalLines, Incident.LeavesField, Incident.LeavesWaits, hwait, hset]

theorem leavesField_singleLine (n : Nat) :
    ∀ i ∈ singleLine n, i.LeavesField ∧ i.LeavesClients := by
  simp [singleLine, Incident.LeavesField, Incident.LeavesWaits, Incident.LeavesClients]

/-- The run asks for a line in a session in which nothing has happened. -/
theorem prompts_firstRun : (firstRun.after (singleLine 0)).Prompts 0 ∧
    firstRun.gathered doings (singleLine 0) = [.asked .input] := by
  have hprompt : (firstRun.after (singleLine 0)).prompt? 0 = some 0 := rfl
  exact ⟨⟨0, hprompt, rfl⟩, rfl⟩

/-- After an answer that was added the next run asks as it would at the start. -/
theorem prompt_inherited_iff_added :
    ((nextRun (.addFrom "a")).after (singleLine 1)).Prompts 1 ∧
      ((nextRun (.addFrom "a")).after (singleLine 1)).conversation.input =
        (firstRun.after (singleLine 0)).conversation.input := by
  have hended : (collectSession.after (severalLines (.addFrom "a"))).AllEnded := by
    intro c hc
    cases List.mem_singleton.mp hc
    rfl
  have hprompts : ((nextRun (.addFrom "a")).after (singleLine 1)).Prompts 1 := by
    have hprompt : ((nextRun (.addFrom "a")).after (singleLine 1)).prompt? 1 = some 1 := rfl
    exact ⟨1, hprompt, rfl⟩
  have hdoings : (nextRun (.addFrom "a")).gathered doings (singleLine 1) = [.asked .input] := rfl
  have hclosed : ¬Doing.LeaveOpen
      (collectSession.gathered doings (severalLines (.addFrom "a"))) := by
    rw [← Doing.foldl_switch_eq_true_iff]
    decide
  obtain ⟨hfield, hlines⟩ := prompt_inherited_iff rfl rfl rfl
    (leavesField_severalLines rfl fun _ => Operation.noConfusion) hended
    (leavesField_singleLine 1) (leavesField_singleLine 0) hprompts prompts_firstRun.1
    (hdoings.trans prompts_firstRun.2.symm)
  refine ⟨hprompts, hfield.trans ?_⟩
  rw [not_not.mp (mt hlines.mp fun h => hclosed h.1)]
  rfl

/-- An answer that was only reported leaves the field switched over for the next run. -/
theorem prompt_inherited_after_report :
    (∀ i ∈ severalLines (.report (.string "a")), i.LeavesField) ∧
      (collectSession.after (severalLines (.report (.string "a")))).AllEnded ∧
      ((nextRun (.report (.string "a"))).after (singleLine 1)).Prompts 1 ∧
      (firstRun.after (singleLine 0)).Prompts 0 ∧
      (nextRun (.report (.string "a"))).gathered doings (singleLine 1) =
        firstRun.gathered doings (singleLine 0) ∧
      ((nextRun (.report (.string "a"))).after (singleLine 1)).conversation.input ≠
        (firstRun.after (singleLine 0)).conversation.input := by
  have hprompt : ((nextRun (.report (.string "a"))).after (singleLine 1)).prompt? 1 = some 1 := rfl
  have hdoings : (nextRun (.report (.string "a"))).gathered doings (singleLine 1) =
    [.asked .input] := rfl
  refine ⟨leavesField_severalLines rfl fun _ => Operation.noConfusion, ?_, ⟨1, hprompt, rfl⟩,
    prompts_firstRun.1, hdoings.trans prompts_firstRun.2.symm, ?_⟩
  · intro c hc
    cases List.mem_singleton.mp hc
    rfl
  · intro hsame
    have hlines : ((nextRun (.report (.string "a"))).after
      (singleLine 1)).conversation.input.textArea = true := rfl
    rw [hsame] at hlines
    cases hlines

end Session

end Dialogue
