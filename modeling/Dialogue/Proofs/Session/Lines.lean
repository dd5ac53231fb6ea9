import Mathlib.Data.List.Basic
import Dialogue.Proofs.Console.Account
import Dialogue.Proofs.Input.Answers
import Dialogue.Proofs.Session.Awake
/-!
# Typed lines answer the waits in order

Lines may be typed long before anybody waits for input. When the console is the only one who gives
answers, no line is lost and none is handed over twice: each is handed over to the wait that holds
the input slot, and what the waits return, one after the other, is what the lines give. When no more
lines can come the next wait is interrupted.

* `waitingLines_after` — the lines that were typed were handed over in order, or still wait for it.
* `serves_operations` — what the conversation is told is what the lines give.
* `interrupted_after` — after the end of the lines a wait gets no value.
* `lines_answer_waits` — so the lines answer the waits one by one.
-/

namespace Dialogue

/-- The value that is reported for an answer. -/
def Answer.value : Answer → Json
  | .text t => .string t
  | .upload v => v

/-- Is the line one that gives an answer? The others use a button. -/
def Console.isAnswer (line : String) : Bool := Text.trim line ≠ Console.fixWord

/-- The line that a forwarder holds. -/
def ForwarderStage.held? : ForwarderStage → Option String
  | .holding line => some line
  | _ => none

/-- The lines that are still to be handed over. -/
def Belt.waiting (b : Belt) : List String :=
  b.forwarder.held?.toList ++ b.lines.filter Console.isAnswer

/-- A line that was handed over. -/
structure Handing where
  line : String
  /-- The wait that held the slot then, if there was one. -/
  wait : Option Nat
  /-- The value of the answer, if the line gave one that was accepted. -/
  value : Option Json

/-- The wait that is answered by a line, with the value. -/
def Handing.served? (h : Handing) : Option (Nat × Json) :=
  match h.wait, h.value with
  | some n, some v => some (n, v)
  | _, _ => none

/-- Has the forwarder its turn? -/
def Incident.isForwarding : Incident → Bool
  | .move (.turn .forwarder) => true
  | _ => false

namespace Session

open Conversation

variable {s : Session} {i : Incident} {is : List Incident}

/-- The line that the forwarder holds. -/
def held? (s : Session) : Option String := s.belt?.bind fun b => b.forwarder.held?

/-- The lines that were typed and are still to be handed over. -/
def waitingLines (s : Session) : List String := (s.belt?.map Belt.waiting).getD []

/-- The line that is typed in an incident, if the console can take it and it gives an answer. -/
def typed (s : Session) : Incident → List String
  | .move (.type line) => if s.takesLine && Console.isAnswer line then [line] else []
  | _ => []

/-- The value of the answer that a line gives, if it gives one that is accepted. -/
def valueOf (s : Session) (line : String) : Option Json :=
  ((s.answerTo line).filter fun a => s.accepts (some a)).map Answer.value

/-- What the forwarder holds before an incident and does not hold any more after it. -/
def handings (s : Session) (i : Incident) : List Handing :=
  (s.held?.filter fun _ => (s.undergo i).held?.isNone).toList.map fun line =>
    ⟨line, s.conversation.holder?, s.valueOf line⟩

/-- All lines were handed over and no more will come. The forwarder needs so many turns to interrupt
somebody who waits. -/
inductive Over (s : Session) : Nat → Prop
  | receiving (hb : s.belt? = some ⟨[], true, .receiving⟩) : Over s 2
  | closing (hb : s.belt? = some ⟨[], true, .closing⟩) : Over s 1

/-! ## Each line is handed over once -/

theorem held?_eq {b : Belt} (hb : s.belt? = some b) : s.held? = b.forwarder.held? := by
  rw [held?, hb]
  rfl

theorem waitingLines_eq {b : Belt} (hb : s.belt? = some b) : s.waitingLines = b.waiting := by
  rw [waitingLines, hb]
  rfl

/-- Nothing is handed over when the forwarder holds what it held, or held nothing. -/
theorem handings_eq_nil (h : (s.undergo i).held? = s.held? ∨ s.held? = none) :
    s.handings i = [] := by
  unfold handings
  rcases h with h | h
  · rw [h]
    cases s.held? <;> rfl
  · rw [h]
    rfl

theorem handings_eq_singleton {line : String} (h : s.held? = some line)
    (h' : (s.undergo i).held? = none) :
    s.handings i = [⟨line, s.conversation.holder?, s.valueOf line⟩] := by
  rw [handings, h, h']
  rfl

/-- What waits and what is typed is what is handed over and what still waits. -/
theorem waitingLines_undergo (s : Session) (i : Incident) :
    s.waitingLines ++ s.typed i =
      (s.handings i).map Handing.line ++ (s.undergo i).waitingLines := by
  have hkept : ∀ {b b' : Belt}, s.belt? = some b → (s.undergo i).belt? = some b' →
      (b'.forwarder.held? = b.forwarder.held? ∨ b.forwarder.held? = none) →
      b.waiting ++ s.typed i = b'.waiting →
      s.waitingLines ++ s.typed i =
        (s.handings i).map Handing.line ++ (s.undergo i).waitingLines := by
    intro b b' hb hb' hheld hwaiting
    rw [← held?_eq hb, ← held?_eq hb'] at hheld
    rw [handings_eq_nil hheld, waitingLines_eq hb, waitingLines_eq hb', hwaiting]
    rfl
  cases beltStep_undergo s i with
  | stay hb hi =>
      have htyped : s.typed i = [] := by
        unfold typed
        split
        · simp [hi _ rfl]
        · rfl
      rw [htyped, handings_eq_nil (.inl (by rw [held?, held?, hb])), waitingLines, waitingLines, hb]
      exact List.append_nil _
  | @type line b hi hb ht hb' =>
      refine hkept hb hb' (.inl rfl) ?_
      simp [hi, typed, ht, Belt.waiting, List.filter_cons]
  | close hi hb hb' =>
      refine hkept hb hb' (.inl rfl) ?_
      simp [hi, typed, Belt.waiting]
  | skip hi hb hfix hops hb' =>
      refine hkept hb hb' (.inl rfl) ?_
      simp [hi, typed, Belt.waiting, Console.isAnswer, hfix]
  | take hi hb hfix hops hb' =>
      refine hkept hb hb' (.inr rfl) ?_
      simp [hi, typed, Belt.waiting, ForwarderStage.held?, Console.isAnswer, hfix]
  | hand hi hb ha hops hb' =>
      rw [handings_eq_singleton (held?_eq hb) (held?_eq hb'), waitingLines_eq hb,
        waitingLines_eq hb']
      simp [hi, typed, Belt.waiting, ForwarderStage.held?]
  | finish hi hb hops hb' =>
      refine hkept hb hb' (.inl rfl) ?_
      simp [hi, typed, Belt.waiting, ForwarderStage.held?]
  | stop hi hb ha hops hb' =>
      refine hkept hb hb' (.inl rfl) ?_
      simp [hi, typed, Belt.waiting, ForwarderStage.held?]

/-- The lines that were typed were handed over in the order in which they were typed, or they still
wait for it. -/
theorem waitingLines_after (s : Session) (is : List Incident) :
    s.waitingLines ++ s.gathered typed is =
      (s.gathered handings is).map Handing.line ++ (s.after is).waitingLines := by
  induction is generalizing s with
  | nil => exact List.append_nil _
  | cons i is ih =>
      show s.waitingLines ++ (s.typed i ++ (s.undergo i).gathered typed is) =
        (s.handings i ++ (s.undergo i).gathered handings is).map Handing.line ++
          ((s.undergo i).after is).waitingLines
      rw [← List.append_assoc, waitingLines_undergo, List.append_assoc, ih, List.map_append,
        List.append_assoc]

/-! ## What the conversation is told -/

variable {c : Conversation} {n : Nat} {result : Except RunError Json}

/-- A line is handed over in a turn of the forwarder, while somebody waits, and the answer that it
gives is submitted. Nothing else but an answer of the host reports a value. -/
theorem handings_cases (s : Session) (i : Incident) :
    (s.handings i = [] ∧ (i.isAnswer = false → ∀ op ∈ s.operations i, op.value? = none)) ∨
      ∃ line, i = .move (.turn .forwarder) ∧ s.conversation.isAwaiting = true ∧
        s.handings i = [⟨line, s.conversation.holder?, s.valueOf line⟩] ∧
        s.operations i = s.submitOperations (s.answerTo line) := by
  have hquiet : ∀ {b b' : Belt}, s.belt? = some b → (s.undergo i).belt? = some b' →
      (b'.forwarder.held? = b.forwarder.held? ∨ b.forwarder.held? = none) → s.handings i = [] := by
    intro b b' hb hb' hheld
    rw [← held?_eq hb, ← held?_eq hb'] at hheld
    exact handings_eq_nil hheld
  cases beltStep_undergo s i with
  | stay hb hi hops => exact .inl ⟨handings_eq_nil (.inl (by rw [held?, held?, hb])), hops⟩
  | type hi hb ht hb' => exact .inl ⟨hquiet hb hb' (.inl rfl), by simp [hi, operations]⟩
  | close hi hb hb' => exact .inl ⟨hquiet hb hb' (.inl rfl), by simp [hi, operations]⟩
  | skip hi hb hfix hops hb' => exact .inl ⟨hquiet hb hb' (.inl rfl), by simp [hops]⟩
  | take hi hb hfix hops hb' => exact .inl ⟨hquiet hb hb' (.inr rfl), by simp [hops]⟩
  | finish hi hb hops hb' => exact .inl ⟨hquiet hb hb' (.inl rfl), by simp [hops]⟩
  | stop hi hb hawait hops hb' =>
      exact .inl ⟨hquiet hb hb' (.inl rfl), by simp [hops, Operation.value?]⟩
  | @hand line lines closed hi hb hawait hops hb' =>
      exact .inr ⟨line, hi, hawait, handings_eq_singleton (held?_eq hb) (held?_eq hb'), hops⟩

/-- Operations that report nothing serve nobody. -/
theorem gathered_serves_eq_nil {ops : List Operation} (h : ∀ op ∈ ops, op.value? = none) :
    c.gathered serves ops = [] := by
  induction ops generalizing c with
  | nil => rfl
  | cons op rest ih =>
      have hop : c.serves op = [] := by
        rw [serves, h op List.mem_cons_self]
        cases c.holder? <;> rfl
      rw [Conversation.gathered, hop, List.nil_append]
      exact ih fun op' hop' => h op' (List.mem_cons_of_mem op hop')

theorem valueOf_eq {line : String} {a : Answer} (h : s.answerTo line = some a) :
    s.valueOf line = if s.accepts (some a) then some a.value else none := by
  rw [valueOf, h]
  cases ha : s.accepts (some a) <;> simp [Option.filter, ha]

/-- The wait that holds the slot is served with the value of the line. -/
theorem serves_submit (line : String) :
    s.conversation.gathered serves (s.submitOperations (s.answerTo line)) =
      (Handing.served? ⟨line, s.conversation.holder?, s.valueOf line⟩).toList := by
  have hone : ∀ op v, op.value? = some v → s.conversation.gathered serves [op] =
      (Handing.served? ⟨line, s.conversation.holder?, some v⟩).toList := by
    intro op v hop
    rw [Conversation.gathered, Conversation.gathered, List.append_nil, serves, hop]
    unfold Handing.served?
    cases s.conversation.holder? <;> rfl
  have hnone : [] = (Handing.served? ⟨line, s.conversation.holder?, none⟩).toList := by
    unfold Handing.served?
    cases s.conversation.holder? <;> rfl
  cases ha : s.answerTo line with
  | none =>
      rw [valueOf, ha]
      exact hnone
  | some a =>
      rw [valueOf_eq ha]
      cases a with
      | text t =>
          have haccepts : s.accepts (some (.text t)) = s.conversation.validates t := rfl
          rw [haccepts, submitOperations]
          cases s.conversation.validates t with
          | true => exact hone (.addFrom t) (.string t) rfl
          | false => exact hnone
      | upload v => exact hone (.report v) v rfl

/-- The waits that are served in an incident are served with what is handed over. -/
theorem serves_operations (ha : i.isAnswer = false) :
    s.conversation.gathered serves (s.operations i) =
      (s.handings i).filterMap Handing.served? := by
  rcases handings_cases s i with ⟨hnil, hops⟩ | ⟨line, -, -, hone, hops⟩
  · rw [hnil, gathered_serves_eq_nil (hops ha)]
    rfl
  · rw [hone, hops, serves_submit, List.filterMap_cons, List.filterMap_nil]
    cases Handing.served? _ <;> rfl

/-- The same waits are served in conversations that are alike. -/
theorem gathered_serves_of_alike {c' : Conversation} (hw : c.WorkedOff) (h : Alike c c')
    (ops : List Operation) : c.gathered serves ops = c'.gathered serves ops := by
  induction ops generalizing c c' with
  | nil => rfl
  | cons op rest ih =>
      have hop : c.serves op = c'.serves op := by
        obtain ⟨x, rfl, -⟩ := h
        rfl
      rw [Conversation.gathered, Conversation.gathered, hop, ih (hw.perform op) (h.perform hw op).1]

/-- The waits that are served are served with what is handed over, one after the other. -/
theorem serves_history (hw : s.conversation.WorkedOff) (honly : ∀ i ∈ is, i.isAnswer = false) :
    s.conversation.gathered serves (s.history is) =
      (s.gathered handings is).filterMap Handing.served? := by
  induction is generalizing s with
  | nil => rfl
  | cons i is ih =>
      have hlater := gathered_serves_of_alike (hw.after (s.operations i)) (alike_undergo hw i)
        ((s.undergo i).history is)
      show s.conversation.gathered serves (s.operations i ++ (s.undergo i).history is) =
        (s.handings i ++ (s.undergo i).gathered handings is).filterMap Handing.served?
      rw [Conversation.gathered_append, hlater, serves_operations (honly i List.mem_cons_self),
        List.filterMap_append, ih ((accounts_undergo s i).worked hw) fun j hj =>
          honly j (List.mem_cons_of_mem i hj)]

/-- Each line is handed over to a wait. -/
theorem exists_wait_of_handing (h : c.Attended) (halike : Alike c s.conversation) {x : Handing}
    (hx : x ∈ s.handings i) : ∃ n, x.wait = some n := by
  rcases handings_cases s i with ⟨hnil, -⟩ | ⟨line, -, hawait, hone, -⟩
  · rw [hnil] at hx
    cases hx
  · rw [hone, List.mem_singleton] at hx
    subst hx
    show ∃ n, s.conversation.holder? = some n
    obtain ⟨y, heq, -⟩ := halike
    rw [heq] at hawait ⊢
    rw [← Option.ne_none_iff_exists']
    intro hnone
    cases ((holder?_eq_none_iff h).mp hnone).symm.trans hawait

/-- Somebody who waits gets the line that the forwarder holds. -/
theorem handings_of_held {line : String} (hl : s.held? = some line)
    (hawait : s.conversation.isAwaiting = true) :
    (s.handings (.move (.turn .forwarder))).map Handing.line = [line] := by
  obtain ⟨b, hb, hf⟩ := Option.bind_eq_some_iff.mp hl
  have hheld : b.forwarder = .holding line := by
    cases hstage : b.forwarder with
    | holding line' =>
        rw [hstage] at hf
        cases hf
        rfl
    | receiving | closing | ended =>
        rw [hstage] at hf
        cases hf
  have hother : ∀ {b' : Belt}, s.belt? = some b' → b'.forwarder = .holding line := by
    intro b' hb'
    cases hb.symm.trans hb'
    exact hheld
  cases beltStep_undergo s (.move (.turn .forwarder)) with
  | stay hb' hi hops hidle =>
      have hbusy : b.isBusy = true := by rw [Belt.isBusy, hheld]
      cases (hidle rfl hawait b hb).symm.trans hbusy
  | type hi | close hi => cases hi
  | skip hi hb' | take hi hb' | finish hi hb' | stop hi hb' => cases hother hb'
  | hand hi hb' ha hops hnew =>
      cases hother hb'
      rw [handings_eq_singleton (held?_eq hb') (held?_eq hnew)]
      rfl

theorem exists_split_of_mem_gathered {α : Type} {yield : Session → Incident → List α} {x : α}
    (hx : x ∈ s.gathered yield is) :
    ∃ before i later, is = before ++ i :: later ∧ x ∈ yield (s.after before) i := by
  induction is generalizing s with
  | nil => cases hx
  | cons i is ih =>
      rcases List.mem_append.mp hx with hx | hx
      · exact ⟨[], i, is, rfl, hx⟩
      · obtain ⟨before, j, later, rfl, hx'⟩ := ih hx
        exact ⟨i :: before, j, later, rfl, hx'⟩

/-! ## The end of the lines -/

theorem takesLine_of_closed {b : Belt} (hb : s.belt? = some b) (hclosed : b.closed = true) :
    s.takesLine = false := by
  obtain ⟨k, hk, rfl⟩ := Option.map_eq_some_iff.mp hb
  simp [takesLine, hk, show k.closed = true from hclosed]

theorem isForwarding_iff : i.isForwarding = true ↔ i = .move (.turn .forwarder) := by
  unfold Incident.isForwarding
  split
  case h_1 => exact ⟨fun _ => rfl, fun _ => rfl⟩
  case h_2 hne => exact ⟨nofun, fun he => absurd he hne⟩

/-- Somebody who waits after the end of the lines is interrupted in a turn of the forwarder or gets
nothing, and the forwarder comes nearer to it in each of its turns. -/
theorem Over.undergo {k : Nat} (ho : s.Over k) (hawait : s.conversation.isAwaiting = true)
    (ha : i.isAnswer = false) : s.operations i = [.clear] ∨
      ((∀ op ∈ s.operations i, op.value? = none) ∧
        ∃ k', (s.undergo i).Over k' ∧ k' + (if i.isForwarding then 1 else 0) ≤ k) := by
  obtain ⟨stage, hb, hbusy⟩ : ∃ stage, s.belt? = some ⟨[], true, stage⟩ ∧
      Belt.isBusy ⟨[], true, stage⟩ = true := by
    cases ho with
    | receiving hb => exact ⟨_, hb, rfl⟩
    | closing hb => exact ⟨_, hb, rfl⟩
  -- The lines stay as they are when the forwarder has no turn.
  have hstay : i.isForwarding = false → (s.undergo i).belt? = s.belt? →
      ∃ k', (s.undergo i).Over k' ∧ k' + (if i.isForwarding then 1 else 0) ≤ k := by
    intro hi hsame
    refine ⟨k, ?_, by simp [hi]⟩
    cases ho with
    | receiving hb => exact .receiving (hsame.trans hb)
    | closing hb => exact .closing (hsame.trans hb)
  cases beltStep_undergo s i with
  | stay hb' hi hops hidle =>
      refine .inr ⟨hops ha, hstay ?_ hb'⟩
      rw [Bool.eq_false_iff]
      intro hturn
      cases (hidle (isForwarding_iff.mp hturn) hawait _ hb).symm.trans hbusy
  | type hi hb' ht =>
      cases hb.symm.trans hb'
      cases (takesLine_of_closed hb rfl).symm.trans ht
  | close hi hb' hnew =>
      subst hi
      cases hb.symm.trans hb'
      exact .inr ⟨by simp [operations], hstay rfl (hnew.trans hb.symm)⟩
  | skip hi hb' | take hi hb' => cases hb.symm.trans hb'
  | hand hi hb' =>
      cases ho with
      | receiving ho => cases ho.symm.trans hb'
      | closing ho => cases ho.symm.trans hb'
  | finish hi hb' hops hnew =>
      subst hi
      refine .inr ⟨by simp [hops], 1, .closing hnew, ?_⟩
      cases ho with
      | receiving ho => exact Nat.le_refl _
      | closing ho => cases ho.symm.trans hb'
  | stop hi hb' hawait hops => exact .inl hops

/-- A wait that holds the slot after the end of the lines holds it until the forwarder has had its
turns, and then it is interrupted. -/
theorem interrupted_after {k : Nat} (h : c.Attended) (hw : s.conversation.WorkedOff)
    (halike : Alike c s.conversation) (hn : c.holdsSlot n = true) (ho : s.Over k)
    {later : List Incident} (honly : ∀ i ∈ later, i.isAnswer = false) :
    (c.after (s.history later)).Bound n (.error .interrupted) ∨
      ((c.after (s.history later)).holdsSlot n = true ∧
        later.countP Incident.isForwarding < k) := by
  induction later generalizing s c k with
  | nil =>
      refine .inr ⟨hn, ?_⟩
      cases ho <;> simp
  | cons i later ih =>
      have hawait : s.conversation.isAwaiting = true := by
        obtain ⟨x, heq, -⟩ := halike
        rw [heq]
        exact isAwaiting_of_holdsSlot hn
      have hafter : c.after (s.history (i :: later)) =
          (c.after (s.operations i)).after ((s.undergo i).history later) := List.foldl_append
      have hbound : (c.after (s.operations i)).Bound n (.error .interrupted) →
          (c.after (s.history (i :: later))).Bound n (.error .interrupted) := by
        intro hb
        rw [hafter]
        refine hb.after (h.after _) ?_ _
        exact Nat.lt_of_lt_of_le (lt_of_holdsSlot hn) (length_waits_after h.worked _)
      rcases ho.undergo hawait (honly i List.mem_cons_self) with hclear | ⟨hquiet, k', ho', hk⟩
      · refine .inl (hbound ?_)
        rw [hclear]
        exact bound_clear h hn
      · rcases holdsSlot_or_interrupted h hn hquiet with hholds | hb
        · rw [hafter, List.countP_cons]
          have hnext := ih (h.after _) ((accounts_undergo s i).worked hw)
            ((halike.after h.worked _).1.trans (alike_undergo hw i)) hholds ho' fun j hj =>
              honly j (List.mem_cons_of_mem i hj)
          refine hnext.imp_right fun hr => ⟨hr.1, ?_⟩
          have := hr.2
          omega
        · exact .inl (hbound hb)

/-! ## Sessions with a console -/

/-- What is known of a conversation is known of one that is alike. -/
theorem bound_of_alike {c' : Conversation} {result : Except RunError Json} (h : Alike c c')
    (hb : c.Bound n result) : c'.Bound n result := by
  obtain ⟨x, rfl, -⟩ := h
  cases hb with
  | left hs => exact .left hs
  | lost hs hf => exact .lost hs hf
  | answered hs hr => exact .answered hs hr
  | closed hs hr => exact .closed hs hr
  | ended hs => exact .ended hs

/-- When nobody else gives answers, the lines that were typed at a console were handed over one by
one in the order in which they were typed, each to the wait that held the slot, or they still wait
for it. A wait gets the answer that its line gives and nothing else, no wait is answered by two
lines, and the values that the waits return, one after the other, are those of the answers, unless
the one who waited has gone. A wait that holds the slot after the end of the lines gets no value: it
is interrupted as soon as the forwarder has had two turns. And while there is something to do for
the forwarder, it does not sleep for long. -/
theorem lines_answer_waits (host : HostSettings) (settings : Settings) (record : Record)
    (clock : Clock) (began : Nat) (isFile : String → Bool) (is : List Incident)
    (honly : ∀ i ∈ is, i.isAnswer = false) :
    let s₀ := (start settings record clock began isFile).withConsole host
    let s := s₀.after is
    let c := s.conversation
    let handed := s₀.gathered handings is
    let served := handed.filterMap Handing.served?
    let waits := s₀.conversation.gathered registers (s₀.history is)
    s₀.gathered typed is = handed.map Handing.line ++ s.waitingLines ∧
      (∀ x ∈ handed, ∃ n, x.wait = some n) ∧
      (∀ a ∈ served, c.Bound a.1 (.ok a.2)) ∧ (∀ n v, c.value? n = some v → (n, v) ∈ served) ∧
      (served.map Prod.fst).Nodup ∧
      waits.filterMap c.value? = (served.filter fun a => !c.hasGone a.1).map Prod.snd ∧
      (∀ k n, s.Over k → c.holdsSlot n = true → ∀ later, (∀ i ∈ later, i.isAnswer = false) →
        let s' := s.after later
        s'.conversation.Bound n (.error .interrupted) ∨
          (s'.conversation.holdsSlot n = true ∧ later.countP Incident.isForwarding < k)) ∧
      s.Attentive ∧
      (∀ line, s.held? = some line → c.isAwaiting = true →
        (s.handings (.move (.turn .forwarder))).map Handing.line = [line]) := by
  intro s₀ s c handed served waits
  have hw : s₀.conversation.WorkedOff := workedOff_start settings clock
  have hattended : s₀.conversation.Attended := attended_start settings clock
  have halike : ∀ is, Alike (s₀.conversation.after (s₀.history is)) (s₀.after is).conversation :=
    fun is => alike_after hw is
  have hserved : s₀.conversation.gathered serves (s₀.history is) = served :=
    serves_history hw honly
  obtain ⟨hbound, hvalue, hnodup, hvalues⟩ :=
    values_in_order settings clock (s₀.history is)
  have hend : Alike (s₀.conversation.after (s₀.history is)) c := halike is
  have hsame : c.value? = (s₀.conversation.after (s₀.history is)).value? ∧
      c.hasGone = (s₀.conversation.after (s₀.history is)).hasGone ∧
      c.holdsSlot = (s₀.conversation.after (s₀.history is)).holdsSlot := by
    obtain ⟨x, heq, -⟩ := hend
    rw [heq]
    exact ⟨rfl, rfl, rfl⟩
  refine ⟨waitingLines_after s₀ is, fun x hx => ?_, fun a ha => ?_, fun n v hv => ?_,
    hserved ▸ hnodup, ?_, fun k n ho hn later hlater => ?_, ?_, fun line => handings_of_held⟩
  · obtain ⟨before, i, later, -, hx⟩ := exists_split_of_mem_gathered hx
    exact exists_wait_of_handing (hattended.after (s₀.history before)) (halike before) hx
  · exact bound_of_alike hend (hbound a (hserved ▸ ha))
  · rw [← hserved]
    exact hvalue n v (hsame.1 ▸ hv)
  · rw [← hserved, hsame.1, hsame.2.1]
    exact hvalues
  · intro s'
    have hafter : Alike ((s₀.conversation.after (s₀.history is)).after (s.history later))
        s'.conversation :=
      (hend.after (hw.after _) _).1.trans (alike_after (workedOff_after hw is) later)
    refine (interrupted_after (hattended.after _) (workedOff_after hw is) hend (hsame.2.2 ▸ hn) ho
      hlater).imp (bound_of_alike hafter) fun hr => ⟨?_, hr.2⟩
    obtain ⟨x, heq, -⟩ := hafter
    rw [heq]
    exact hr.1
  · refine Attentive.after hw (fun b hb hbusy => ?_) is
    cases hb
    cases hbusy

/-! ### Lines that are typed ahead -/

/-- A session with a console in which nothing has happened. -/
def lineSession : Session :=
  (start .standard .empty .stepped 0 fun _ => false).withConsole .standard

/-- Two lines are typed before anybody waits, and then two waits follow one another. -/
def firstAndSecond : List Incident :=
  [.move (.type "first"), .move (.type "second"), .move (.turn .forwarder),
    .operate (.beginWait 0 false), .move (.turn .forwarder), .operate (.stepWait 0),
    .move (.turn .forwarder), .operate (.beginWait 0 false), .move (.turn .forwarder)]

/-- The first wait has returned the first line when the second one begins, and the second wait gets
the second line. -/
theorem lines_answer_waits_two_lines :
    let c := (lineSession.after firstAndSecond).conversation
    let waits := lineSession.conversation.gathered registers (lineSession.history firstAndSecond)
    (∀ i ∈ firstAndSecond, i.isAnswer = false) ∧
      lineSession.gathered handings firstAndSecond =
        [⟨"first", some 0, some (.string "first")⟩, ⟨"second", some 1, some (.string "second")⟩] ∧
      waits.filterMap c.value? = [.string "first", .string "second"] := by
  intro c waits
  have honly : ∀ i ∈ firstAndSecond, i.isAnswer = false := by
    simp [firstAndSecond, Incident.isAnswer, Operation.value?]
  have hhanded : lineSession.gathered handings firstAndSecond =
      [⟨"first", some 0, some (.string "first")⟩, ⟨"second", some 1, some (.string "second")⟩] := by
    rfl
  have hstay : c.hasGone 0 = false ∧ c.hasGone 1 = false := ⟨by rfl, by rfl⟩
  obtain ⟨-, -, -, -, -, hvalues, -⟩ :=
    lines_answer_waits .standard .standard .empty .stepped 0 (fun _ => false) firstAndSecond honly
  have hserved : waits.filterMap c.value? =
      (((lineSession.gathered handings firstAndSecond).filterMap Handing.served?).filter fun a =>
        !c.hasGone a.1).map Prod.snd := hvalues
  refine ⟨honly, hhanded, ?_⟩
  rw [hserved, hhanded]
  simp [Handing.served?, hstay]

end Session

end Dialogue
