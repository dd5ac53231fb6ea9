import Dialogue.Proofs.Console.Prompts
import Dialogue.Proofs.Queue.Remaining
import Dialogue.Proofs.Queue.Signals
import Dialogue.Proofs.Session.Awake
import Dialogue.Proofs.Session.Runner
/-!
# What a turn does

When the one client of a session is a run of the program, each turn takes one operation of the
conversation at most. Its signals are obeyed at the end of the turn, which is how tasks get ready
and timers are set.

* `Stepped` — what a step of a task does to a session, and `stepped_step`, that each does so.
* `turn_eq_foldl` — a turn is a step after which the signals are obeyed.
-/

namespace Dialogue

/-- Does the operation occur while the program runs a document? -/
def Operation.isPlain : Operation → Bool
  | .queue p hook => (hook.bind Event.result?).isNone && p.kind ≠ .typing
  | .addOptions _ _ _ _ | .addUploader _ _ | .setInput _ | .clear | .addFrom _ | .report _
  | .beginWait _ true | .stepPump _ | .stepNotice _ | .stepWait _ => true
  | _ => false

namespace Operation

variable {op : Operation}

theorem isPlain_of_isScripted (h : op.isScripted = true) : op.isPlain = true := by
  cases op with
  | queue | addOptions | addUploader | setInput | clear => exact h
  | _ => cases h

theorem isRoutine_of_isPlain (h : op.isPlain = true) : op.isRoutine = true := by
  cases op with
  | add | replace | setSettings | setTimeout => cases h
  | _ => rfl

theorem ne_pass_of_isPlain (h : op.isPlain = true) (ms : Nat) : op ≠ .pass ms := by
  rintro rfl
  cases h

/-- No message that the operation queues tells of the end of a task. -/
theorem hook_of_isPlain (h : op.isPlain = true) {c : Conversation} :
    ∀ i ∈ c.enqueues op, ∀ e, i.hook? = some e → e.result? = none := by
  have hlead : ∀ (lead : Option String) (d : Delivery), d.hook = none →
      ∀ i ∈ lead.toList.map (fun t => Item.message ⟨.to t, none, none⟩) ++ [.message d],
        ∀ e, i.hook? = some e → e.result? = none := by
    intro lead d hd i hi e he
    rcases List.mem_append.mp hi with hi | hi
    · obtain ⟨t, -, rfl⟩ := List.mem_map.mp hi
      cases he
    · rw [List.mem_singleton.mp hi] at he
      cases hd.symm.trans he
  cases op with
  | queue p hook =>
      intro i hi e he
      rw [List.mem_singleton.mp hi] at he
      obtain rfl : hook = some e := he
      exact Option.isNone_iff_eq_none.mp (Bool.and_eq_true_iff.mp h).1
  | addOptions lead items selected multi => exact hlead lead _ rfl
  | addUploader lead options => exact hlead lead _ rfl
  | beginWait owner enable =>
      cases enable with
      | true =>
          intro i hi e he
          rw [List.mem_singleton.mp hi] at he
          cases he
      | false => exact fun i hi => by cases hi
  | queueFrom | call => cases h
  | _ => exact fun i hi => by cases hi

end Operation

namespace Session

open Conversation

variable {s s' : Session} {t u : TaskId} {name : String} {stage : ClientStage}

/-! ## Signals are obeyed -/

theorem mem_ready_foldl_obey {signals : List Signal} (h : .wake u ∈ signals) (s : Session) :
    u ∈ (signals.foldl obey s).ready := by
  induction signals generalizing s with
  | nil => cases h
  | cons signal rest ih =>
      rcases List.mem_cons.mp h with rfl | h
      · exact (retains_foldl_obey rest _).ready (mem_ready_wake s u)
      · exact ih h _

theorem mem_timers_foldl_obey {signals : List Signal} {due : Nat} (h : .wakeAt due u ∈ signals)
    (s : Session) : (due, u) ∈ (signals.foldl obey s).timers := by
  induction signals generalizing s with
  | nil => cases h
  | cons signal rest ih =>
      rcases List.mem_cons.mp h with rfl | h
      · refine (retains_foldl_obey rest _).timers ?_
        exact List.mem_append_right _ (List.mem_singleton_self _)
      · exact ih h _

theorem renderer_mem_foldl_obey {signals : List Signal} (h : .published ∈ signals) (s : Session)
    (hk : s.console.isSome = true) : .renderer ∈ (signals.foldl obey s).ready := by
  induction signals generalizing s with
  | nil => cases h
  | cons signal rest ih =>
      rcases List.mem_cons.mp h with rfl | h
      · refine (retains_foldl_obey rest _).ready ?_
        simp only [obey, hk, if_true]
        exact mem_ready_wake s .renderer
      · refine ih h _ ?_
        obtain ⟨ready, timers, heq⟩ := obey_eq s signal
        rw [heq]
        exact hk

theorem mem_of_mem_ready_wake (h : u ∈ (s.wake t).ready) : u ∈ s.ready ∨ u = t := by
  unfold wake at h
  split at h
  · exact .inl h
  · exact (List.mem_append.mp h).imp_right List.mem_singleton.mp

theorem ready_foldl_obey {signals : List Signal} (s : Session)
    (h : u ∈ (signals.foldl obey s).ready) :
    u ∈ s.ready ∨ .wake u ∈ signals ∨ u = .renderer := by
  induction signals generalizing s with
  | nil => exact .inl h
  | cons signal rest ih =>
      rcases ih _ h with h | h | h
      · cases signal with
        | wake t =>
            rcases mem_of_mem_ready_wake h with h | rfl
            · exact .inl h
            · exact .inr (.inl List.mem_cons_self)
        | wakeAt due t => exact .inl h
        | published =>
            simp only [obey] at h
            split at h
            · exact (mem_of_mem_ready_wake h).imp_right .inr
            · exact .inl h
      · exact .inr (.inl (List.mem_cons_of_mem _ h))
      · exact .inr (.inr h)

theorem timers_foldl_obey {signals : List Signal} {x : Nat × TaskId} (s : Session)
    (h : x ∈ (signals.foldl obey s).timers) : x ∈ s.timers ∨ .wakeAt x.1 x.2 ∈ signals := by
  induction signals generalizing s with
  | nil => exact .inl h
  | cons signal rest ih =>
      rcases ih _ h with h | h
      · cases signal with
        | wake t =>
            obtain ⟨ready, heq⟩ := wake_eq s t
            rw [obey, heq] at h
            exact .inl h
        | wakeAt due t =>
            refine (List.mem_append.mp h).imp_right fun h => ?_
            rw [List.mem_singleton.mp h]
            exact List.mem_cons_self
        | published =>
            simp only [obey] at h
            split at h
            · obtain ⟨ready, heq⟩ := wake_eq s .renderer
              rw [heq] at h
              exact .inl h
            · exact .inl h
      · exact .inr (List.mem_cons_of_mem _ h)

/-- The task leaves those that are ready when it cannot go on. -/
def leave (s : Session) (t : TaskId) (goesOn : Bool) : Session :=
  if goesOn then s else { s with ready := s.ready.erase t }

theorem turn_eq_foldl (s : Session) (t : TaskId) : s.turn t =
    (s.step t).1.conversation.signals.foldl obey (({ (s.step t).1 with
      conversation := { (s.step t).1.conversation with signals := [] } }).leave t
        (s.step t).2) := by
  unfold turn leave
  dsimp only
  split <;> rfl

/-! ## What a turn does -/

/-- What the console shows messages with, and the number of notices that it has looked at. -/
def view? (s : Session) : Option (HostSettings × Nat) := s.console.map fun k => (k.settings, k.seen)

/-- Will the forwarder hand nothing over any more? -/
def IsStopped (s : Session) : Prop := ∀ k, s.console = some k → k.forwarder = .ended

theorem isStopped_of_belt? (hb : s'.belt? = s.belt?) (h : s.IsStopped) : s'.IsStopped := by
  intro k' hk'
  rw [belt?, belt?, hk'] at hb
  obtain ⟨k, hk, hbelt⟩ := Option.map_eq_some_iff.mp hb.symm
  exact (congrArg Belt.forwarder hbelt).symm.trans (h k hk)

/-- Is the run about to begin? -/
def IsFresh (s : Session) : Prop := ∃ name stage, s.clients = [⟨name, stage⟩] ∧ stage.IsFresh

/-- Which operations occur in the turns of a task. -/
def Allows (s : Session) : TaskId → Operation → Prop
  | .pump n, op => op = .stepPump n
  | .notice n, op => op = .stepNotice n
  | .client n, op =>
    n = 0 ∧ op.task? = none ∧ (∀ text, op ≠ .addFrom text) ∧ (op = .clear → s.IsFresh)
  | .renderer, _ => False
  | .forwarder, op => s.conversation.isAwaiting = true ∧ ¬s.IsStopped ∧
    ((∃ text, op = .addFrom text) ∨ (∃ v, op = .report v) ∨ op = .clear)

/-- What a step of a task does: it takes one operation at most, forgets nobody and sets timers for
later times only. -/
structure Stepped (s : Session) (t : TaskId) (op : Option Operation) : Prop where
  does : s.conversation.Does op (s.step t).1.conversation
  quiet : t ≠ .client 0 → ∀ x ∈ (s.step t).1.conversation.journal,
    x ∈ (s.conversation.doing op).journal ∨ x.2.result? = none
  plain : ∀ o, op = some o → o.isPlain = true
  allowed : ∀ o, op = some o → s.Allows t o
  ready : (s.step t).1.ready = s.ready
  timers : ∃ more, (s.step t).1.timers = s.timers ++ more ∧ ∀ x ∈ more, s.now < x.1
  console : (s.step t).1.console.isSome = s.console.isSome
  view : t ≠ .renderer → (s.step t).1.view? = s.view?
  stopped : (s.step t).1.IsStopped ↔ s.IsStopped ∨ t = .forwarder ∧ op = some .clear
  output : ∃ text, (s.step t).1.output = s.output ++ text
  goesOn : ∀ due, (s.step t).1.conversation.resumes? t = some due →
    due ≤ (s.step t).1.conversation.now → (s.step t).2 = true
  pumps : ∀ n, t = .pump n → op = some (.stepPump n)

variable {op : Option Operation} {goesOn : Bool}

theorem Stepped.task (h : Stepped s t op) (hu : op.bind Operation.task? = some u) : u = t := by
  obtain ⟨o, rfl, ho⟩ := Option.bind_eq_some_iff.mp hu
  have hallowed := h.allowed o rfl
  cases t with
  | pump | notice =>
      subst hallowed
      exact (Option.some.inj ho).symm
  | client => cases hallowed.2.1.symm.trans ho
  | renderer => exact hallowed.elim
  | forwarder => obtain ⟨-, -, ⟨_, rfl⟩ | ⟨_, rfl⟩ | rfl⟩ := hallowed <;> cases ho

theorem stepped_pump (s : Session) (n : Nat) : Stepped s (.pump n) (some (.stepPump n)) where
  does := Does.refl _ _
  quiet _ _ := .inl
  plain := forall_eq_some rfl
  allowed := forall_eq_some rfl
  ready := rfl
  timers := ⟨[], (List.append_nil _).symm, List.forall_mem_nil _⟩
  console := rfl
  view _ := rfl
  stopped := (or_iff_left fun h => TaskId.noConfusion h.1).symm
  output := ⟨"", String.append_empty.symm⟩
  goesOn _ := pumpReady_of_resumes?
  pumps _ h := by cases h; rfl

theorem stepped_notice (s : Session) (n : Nat) : Stepped s (.notice n) (some (.stepNotice n)) where
  does := Does.refl _ _
  quiet _ _ := .inl
  plain := forall_eq_some rfl
  allowed := forall_eq_some rfl
  ready := rfl
  timers := ⟨[], (List.append_nil _).symm, List.forall_mem_nil _⟩
  console := rfl
  view _ := rfl
  stopped := (or_iff_left fun h => TaskId.noConfusion h.1).symm
  output := ⟨"", String.append_empty.symm⟩
  goesOn _ := noticeReady_of_resumes?
  pumps _ h := by cases h

/-! ### The renderer -/

theorem output_showMessage (s : Session) (k : ConsoleState) (m : Message) :
    ∃ text, (s.showMessage k m).output = s.output ++
      ((Console.format? k.settings m).map fun line => line ++ "\n").getD "" ++ text := by
  unfold showMessage
  dsimp only
  cases Console.format? k.settings m with
  | none =>
      dsimp only
      rw [Option.map_none, Option.getD_none, String.append_empty]
      split
      · exact ⟨_, rfl⟩
      · exact ⟨"", String.append_empty.symm⟩
  | some line =>
      dsimp only
      split
      · exact ⟨_, rfl⟩
      · exact ⟨"", String.append_empty.symm⟩

theorem stepped_renderer (s : Session) : Stepped s .renderer none := by
  have hconsole : s.stepRenderer.1.console.isSome = s.console.isSome ∧
      ∃ text, s.stepRenderer.1.output = s.output ++ text := by
    unfold stepRenderer
    split
    · exact ⟨rfl, "", String.append_empty.symm⟩
    · next k hk =>
      split
      · exact ⟨rfl, "", String.append_empty.symm⟩
      · next m _ _ =>
        obtain ⟨text, htext⟩ := output_showMessage s k m
        refine ⟨?_, _, htext.trans String.append_assoc⟩
        rw [console_showMessage, hk]
        rfl
      · refine ⟨?_, "", String.append_empty.symm⟩
        rw [hk]
        rfl
  have hstopped : s.stepRenderer.1.IsStopped ↔ s.IsStopped :=
    ⟨isStopped_of_belt? belt?_stepRenderer.symm, isStopped_of_belt? belt?_stepRenderer⟩
  obtain ⟨console, output, heq⟩ := stepRenderer_eq s
  have heq : (s.step .renderer).1 = { s with console, output } := heq
  have hc : (s.step .renderer).1.conversation = s.conversation := by rw [heq]
  constructor
  · rw [hc]
    exact Does.refl _ none
  · rw [hc]
    exact fun _ _ => .inl
  · exact forall_eq_none
  · exact forall_eq_none
  · rw [heq]
  · rw [heq]
    exact ⟨[], (List.append_nil _).symm, List.forall_mem_nil _⟩
  · exact hconsole.1
  · exact fun h => absurd rfl h
  · exact hstopped.trans (or_iff_left fun h => TaskId.noConfusion h.1).symm
  · exact hconsole.2
  · exact fun _ h => by cases h
  · exact fun _ h => by cases h

/-! ### The forwarder -/

theorem isSome_view? (s : Session) : s.view?.isSome = s.console.isSome := Option.isSome_map

theorem Stepped.of_forwarder (heq : s.stepForwarder = (s', goesOn))
    (hd : s.conversation.Does op s'.conversation)
    (hq : ∀ x ∈ s'.conversation.journal,
      x ∈ (s.conversation.doing op).journal ∨ x.2.result? = none)
    (hp : ∀ o, op = some o → o.isPlain = true) (ha : ∀ o, op = some o → s.Allows .forwarder o)
    (hr : s'.ready = s.ready)
    (ht : ∃ more, s'.timers = s.timers ++ more ∧ ∀ x ∈ more, s.now < x.1)
    (hv : s'.view? = s.view?) (hs : s'.IsStopped ↔ s.IsStopped ∨ op = some .clear)
    (ho : ∃ text, s'.output = s.output ++ text) : Stepped s .forwarder op := by
  have heq : s.step .forwarder = (s', goesOn) := heq
  constructor <;> try rw [heq]
  · exact hd
  · exact fun _ => hq
  · exact hp
  · exact ha
  · exact hr
  · exact ht
  · rw [← isSome_view?, ← isSome_view?, hv]
  · exact fun _ => hv
  · rw [hs, eq_self, true_and]
  · exact ho
  · exact fun _ h => by cases h
  · exact fun _ h => by cases h

/-- The forwarder does nothing to the conversation. -/
theorem Stepped.of_idle (heq : s.stepForwarder = (s', goesOn))
    (hc : s'.conversation = s.conversation) (hr : s'.ready = s.ready) (ht : s'.timers = s.timers)
    (hv : s'.view? = s.view?) (hs : s'.IsStopped ↔ s.IsStopped)
    (ho : ∃ text, s'.output = s.output ++ text) : Stepped s .forwarder none := by
  refine .of_forwarder heq (hc ▸ Does.refl _ none) (fun x hx => .inl (hc ▸ hx)) forall_eq_none
    forall_eq_none hr ?_ hv ?_ ho
  · exact ⟨[], by rw [ht, List.append_nil], List.forall_mem_nil _⟩
  · rw [hs, or_iff_left (Option.some_ne_none _).symm]

theorem lt_due_pollDelay (clock : Clock) (now : Nat) : now < clock.due now pollDelay := by
  cases clock with
  | stepped =>
      show now < now + 20
      omega
  | running =>
      show now < now + 20 + 1
      omega

theorem Stepped.of_lookAgain (heq : s.stepForwarder = s.lookAgain) : Stepped s .forwarder none := by
  refine .of_forwarder heq (Does.refl _ none) (fun x hx => .inl hx) forall_eq_none forall_eq_none
    rfl ⟨_, rfl, fun x hx => ?_⟩ rfl (or_iff_left (Option.some_ne_none _).symm).symm
    ⟨"", String.append_empty.symm⟩
  rw [List.mem_singleton.mp hx]
  exact lt_due_pollDelay _ _

/-- The forwarder does one thing to the conversation, which somebody waits for. -/
theorem Stepped.of_operation {o : Operation} (heq : s.stepForwarder = (s', goesOn))
    (hc : s'.conversation = s.conversation.perform o) (hp : o.isPlain = true)
    (ha : s.Allows .forwarder o) (hr : s'.ready = s.ready) (ht : s'.timers = s.timers)
    (hv : s'.view? = s.view?) (hs : s'.IsStopped ↔ o = .clear) (ho : s'.output = s.output) :
    Stepped s .forwarder (some o) := by
  refine .of_forwarder heq (hc ▸ Does.refl _ (some o)) (fun x hx => .inl ?_) (forall_eq_some hp)
    (forall_eq_some ha) hr ⟨[], by rw [ht, List.append_nil], List.forall_mem_nil _⟩ hv
    ?_ ⟨"", ho.trans String.append_empty.symm⟩
  · rw [hc] at hx
    exact hx
  · rw [hs, or_iff_right ha.2.1, Option.some.injEq]

/-- The forwarder uses a button, which is told of only. -/
theorem stepped_useLastButton {k : ConsoleState}
    (heq : s.stepForwarder = ((s.setConsole k).useLastButton, goesOn)) (hgo : ¬s.IsStopped)
    (hk : k.forwarder ≠ .ended) (hv : (s.setConsole k).view? = s.view?) :
    ∃ op, Stepped s .forwarder op := by
  refine ⟨none, ?_⟩
  have hused : ∀ i, (s.setConsole k).useLastButton = (s.setConsole k).converse (·.useFixme i) →
      Stepped s .forwarder none := by
    intro i hi
    rw [hi] at heq
    refine .of_forwarder heq ((Does.refl _ none).recordAll _) (fun x hx => ?_) forall_eq_none
      forall_eq_none rfl ⟨[], (List.append_nil _).symm, List.forall_mem_nil _⟩ hv
      (iff_of_false (fun hs => hk (hs k rfl)) fun hs => hs.elim hgo (Option.some_ne_none _).symm)
      ⟨"", String.append_empty.symm⟩
    refine (mem_journal_recordAll (c := s.conversation) hx).imp_right fun he => ?_
    obtain ⟨hook, -, hhook⟩ := List.mem_map.mp he
    rw [← hhook]
    rfl
  have hrefused : ∀ text, (s.setConsole k).useLastButton = (s.setConsole k).print text →
      Stepped s .forwarder none := by
    intro text ht
    rw [ht] at heq
    exact .of_idle heq rfl rfl rfl hv (iff_of_false (fun hs => hk (hs k rfl)) hgo) ⟨text, rfl⟩
  cases hlast : lastWithButton? (s.setConsole k).conversation.messages with
  | none => exact hrefused _ (by rw [useLastButton, hlast])
  | some i =>
      by_cases hsome : ((s.setConsole k).conversation.fixmeAt? i).isSome = true
      · exact hused i (by simp only [useLastButton, hlast, hsome, if_true])
      · exact hrefused _ (by simp only [useLastButton, hlast, hsome]; rfl)

/-- The forwarder hands an answer over. -/
theorem stepped_submit {k : ConsoleState} {answer : Option Answer}
    (heq : s.stepForwarder = ((s.setConsole k).submit answer, goesOn))
    (ha : s.conversation.isAwaiting = true) (hgo : ¬s.IsStopped) (hk : k.forwarder ≠ .ended)
    (hv : (s.setConsole k).view? = s.view?) : ∃ op, Stepped s .forwarder op := by
  have hgo' : ¬(s.setConsole k).IsStopped := fun hs => hk (hs k rfl)
  cases answer with
  | none =>
      exact ⟨none, .of_idle heq rfl rfl rfl hv (iff_of_false hgo' hgo)
        ⟨"", String.append_empty.symm⟩⟩
  | some answer =>
      cases answer with
      | upload v =>
          exact ⟨some (.report v), .of_operation heq rfl rfl ⟨ha, hgo, .inr (.inl ⟨v, rfl⟩)⟩ rfl rfl
            hv (iff_of_false hgo' Operation.noConfusion) rfl⟩
      | text t =>
          by_cases hvalid : s.conversation.validates t = true
          · have hsubmit : (s.setConsole k).submit (some (.text t)) =
                (s.setConsole k).converse (·.addFrom t) := if_pos hvalid
            rw [hsubmit] at heq
            exact ⟨some (.addFrom t), .of_operation heq rfl rfl ⟨ha, hgo, .inl ⟨t, rfl⟩⟩ rfl rfl hv
              (iff_of_false hgo' Operation.noConfusion) rfl⟩
          · have hsubmit : (s.setConsole k).submit (some (.text t)) =
                (s.setConsole k).print "⚠️ 输入无效，请重新输入\n" := if_neg hvalid
            rw [hsubmit] at heq
            exact ⟨none, .of_idle heq rfl rfl rfl hv (iff_of_false hgo' hgo) ⟨_, rfl⟩⟩

/-- The forwarder gives an answer or interrupts, or does nothing to the conversation. -/
theorem stepped_forwarder (s : Session) : ∃ op, Stepped s .forwarder op := by
  have hsame : ∃ text, s.output = s.output ++ text := ⟨"", String.append_empty.symm⟩
  cases hk : s.console with
  | none =>
      have heq : s.stepForwarder = (s, false) := by rw [stepForwarder, hk]
      exact ⟨none, .of_idle heq rfl rfl rfl rfl .rfl hsame⟩
  | some k =>
      have hview : ∀ {k' : ConsoleState}, k'.settings = k.settings → k'.seen = k.seen →
          (s.setConsole k').view? = s.view? := by
        intro k' hsettings hseen
        rw [view?, view?, hk, Option.map_some, ← hsettings, ← hseen]
        rfl
      have hgo : ∀ {stage : ForwarderStage}, k.forwarder = stage → stage ≠ .ended →
          ¬s.IsStopped := fun hf hne hall => hne (hf.symm.trans (hall k hk))
      have hmove : ∀ {k' : ConsoleState} {goesOn : Bool},
          s.stepForwarder = (s.setConsole k', goesOn) → k'.settings = k.settings →
          k'.seen = k.seen → k'.forwarder ≠ .ended → ¬s.IsStopped →
          ∃ op, Stepped s .forwarder op :=
        fun heq hsettings hseen hk' hgo => ⟨none, .of_idle heq rfl rfl rfl (hview hsettings hseen)
          (iff_of_false (fun hs => hk' (hs _ rfl)) hgo) hsame⟩
      have hstay : ∀ {goesOn : Bool}, s.stepForwarder = (s, goesOn) →
          ∃ op, Stepped s .forwarder op := fun heq =>
        ⟨none, .of_idle heq rfl rfl rfl rfl .rfl hsame⟩
      cases hf : k.forwarder with
      | receiving =>
          cases hl : k.lines with
          | nil =>
              by_cases hclosed : k.closed = true
              · have heq : s.stepForwarder =
                    (s.setConsole { k with forwarder := .closing }, true) := by
                  simp only [stepForwarder, hk, hf, hl, hclosed, if_true]
                exact hmove heq rfl rfl ForwarderStage.noConfusion
                  (hgo hf ForwarderStage.noConfusion)
              · have heq : s.stepForwarder = (s, false) := by
                  simp [stepForwarder, hk, hf, hl, hclosed]
                exact hstay heq
          | cons line lines =>
              by_cases hfix : Text.trim line = Console.fixWord
              · have heq : s.stepForwarder =
                    ((s.setConsole { k with lines }).useLastButton, true) := by
                  simp only [stepForwarder, hk, hf, hl, hfix, if_true]
                have hne : k.forwarder ≠ .ended := by
                  rw [hf]
                  exact ForwarderStage.noConfusion
                exact stepped_useLastButton heq (hgo hf ForwarderStage.noConfusion) hne
                  (hview rfl rfl)
              · have heq : s.stepForwarder =
                    (s.setConsole { k with lines, forwarder := .holding line }, true) := by
                  simp only [stepForwarder, hk, hf, hl, hfix, if_false]
                exact hmove heq rfl rfl ForwarderStage.noConfusion
                  (hgo hf ForwarderStage.noConfusion)
      | holding line =>
          by_cases ha : s.conversation.isAwaiting = true
          · have heq : s.stepForwarder = (s.forward k line, true) := by
              simp only [stepForwarder, hk, hf, ha, if_true]
            exact stepped_submit heq ha (hgo hf ForwarderStage.noConfusion)
              ForwarderStage.noConfusion (hview rfl rfl)
          · refine ⟨none, .of_lookAgain ?_⟩
            simp [stepForwarder, hk, hf, ha]
      | closing =>
          by_cases ha : s.conversation.isAwaiting = true
          · have heq : s.stepForwarder = ((s.setConsole
                { k with forwarder := .ended }).converse Conversation.clear, false) := by
              simp only [stepForwarder, hk, hf, ha, if_true]
            exact ⟨some .clear, .of_operation heq rfl rfl
              ⟨ha, hgo hf ForwarderStage.noConfusion, .inr (.inr rfl)⟩ rfl rfl (hview rfl rfl)
              (iff_of_true (fun _ hk' => Option.some.inj hk' ▸ rfl) rfl) rfl⟩
          · refine ⟨none, .of_lookAgain ?_⟩
            simp [stepForwarder, hk, hf, ha]
      | ended =>
          have heq : s.stepForwarder = (s, false) := by simp only [stepForwarder, hk, hf]
          exact hstay heq

/-! ### Clients -/

theorem Stepped.of_beside (hd : s.conversation.Does op (s.step (.client 0)).1.conversation)
    (hp : ∀ o, op = some o → o.isPlain = true) (ha : ∀ o, op = some o → s.Allows (.client 0) o)
    (hb : Beside s (s.step (.client 0)).1) : Stepped s (.client 0) op where
  does := hd
  quiet h := absurd rfl h
  plain := hp
  allowed := ha
  ready := hb.ready
  timers := ⟨[], by rw [hb.timers, List.append_nil], List.forall_mem_nil _⟩
  console := by rw [hb.console]
  view _ := by rw [view?, hb.console]; rfl
  stopped := by
    rw [IsStopped, IsStopped, hb.console, or_iff_left fun h => TaskId.noConfusion h.1]
  output := hb.output
  goesOn _ h := by cases h
  pumps _ h := by cases h

/-- The client that runs the script. -/
theorem stepped_client (hs : s.clients = [⟨name, stage⟩]) (hplain : stage.IsPlain) :
    ∃ op, Stepped s (.client 0) op := by
  have hbeside : Beside s (s.step (.client 0)).1 := beside_stepClient hs hplain
  have hrest : s.conversation.Does none (s.stepClient 0).1.conversation →
      ∃ op, Stepped s (.client 0) op := fun hd =>
    ⟨none, .of_beside hd forall_eq_none forall_eq_none hbeside⟩
  have hdoes : ∀ {o}, s.conversation.Does (some o) (s.stepClient 0).1.conversation →
      o.isPlain = true → s.Allows (.client 0) o → ∃ op, Stepped s (.client 0) op :=
    fun hd hp ha => ⟨_, .of_beside hd (forall_eq_some hp) (forall_eq_some ha) hbeside⟩
  cases runStep_stepClient hs hplain with
  | act op es hs _ _ _ _ hop _ hc =>
      have hd := (Does.refl s.conversation op).recordAll es
      rw [← hc] at hd
      cases op with
      | none => exact hrest hd
      | some o =>
          obtain ⟨hscripted, hclear⟩ := hop o rfl
          refine hdoes hd (Operation.isPlain_of_isScripted hscripted) ?_
          have hfresh : o = .clear → s.IsFresh := fun he => ⟨_, _, hs, hclear he⟩
          cases o with
          | queue | addOptions | addUploader | setInput | clear =>
              exact ⟨rfl, rfl, (fun _ h => by cases h), hfresh⟩
          | _ => cases hscripted
  | seek _ _ _ _ _ hc => exact hrest (hc ▸ does_wake _ 0)
  | ask _ _ _ _ _ hc =>
      exact hdoes (o := .beginWait 0 true) (hc ▸ Does.refl _ _) rfl
        ⟨rfl, rfl, (fun _ h => by cases h), fun h => by cases h⟩
  | @wait _ _ w _ _ _ hc | @resume _ _ w _ _ _ _ _ hc =>
      exact hdoes (o := .stepWait w) (hc ▸ Does.refl _ _) rfl
        ⟨rfl, rfl, (fun _ h => by cases h), fun h => by cases h⟩
  | finish _ _ _ _ hc => exact hrest (hc ▸ (Does.refl _ none).recordAll [_])
  | rest _ hs' =>
      refine hrest ?_
      rw [hs']
      exact Does.refl _ none

/-- There is no other client. -/
theorem step_other {n : Nat} (hs : s.clients = [⟨name, stage⟩]) (hn : n ≠ 0) :
    s.step (.client n) = (s, false) := by
  cases n with
  | zero => exact absurd rfl hn
  | succ n =>
      show s.stepClient (n + 1) = _
      rw [stepClient, hs]
      rfl

theorem stepped_other {n : Nat} (hs : s.clients = [⟨name, stage⟩]) (hn : n ≠ 0) :
    Stepped s (.client n) none := by
  have heq := step_other hs hn
  constructor <;> try rw [heq]
  · exact Does.refl _ none
  · exact fun _ _ => .inl
  · exact forall_eq_none
  · exact forall_eq_none
  · exact ⟨[], (List.append_nil _).symm, List.forall_mem_nil _⟩
  · exact fun _ => rfl
  · exact (or_iff_left fun h => TaskId.noConfusion h.1).symm
  · exact ⟨"", String.append_empty.symm⟩
  · exact fun _ h => by cases h
  · exact fun _ h => by cases h

/-- What a step of a task does when a run of the program is the only client. -/
theorem stepped_step (hs : s.clients = [⟨name, stage⟩]) (hplain : stage.IsPlain) (t : TaskId) :
    ∃ op, Stepped s t op := by
  cases t with
  | pump n => exact ⟨_, stepped_pump s n⟩
  | notice n => exact ⟨_, stepped_notice s n⟩
  | renderer => exact ⟨_, stepped_renderer s⟩
  | forwarder => exact stepped_forwarder s
  | client n =>
      by_cases hn : n = 0
      · subst hn
        exact stepped_client hs hplain
      · exact ⟨_, stepped_other hs hn⟩

end Session

end Dialogue
