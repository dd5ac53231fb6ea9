import Dialogue.Proofs.Session.Orderly
/-!
# The courses of the program

The tasks that are ready at the same time may have their turns in any order. Only the main task has
a place of its own: the run of the script goes on as long as it can, and otherwise waits for all
others, and when the program has slept until some time, it looks around before anybody else has a
turn. Lines may be typed at any time, and the input may end. A `Course` is any way in which the
program can go on between two states, together with what can be noticed of it.

* `exists_course_complete` — the program by itself takes one of its courses, on which nothing is
  typed.
* `Step` — what a step of the program can be, and `step_of_next`, that it is one of these.
-/

namespace Dialogue.Program

open Conversation Session

/-- The state in which the program goes on, if it does. -/
def Next.state? : Next → Option State
  | .now p | .later _ p => some p
  | .idle | .ended _ => none

namespace State

variable {p q r : State} {t : TaskId} {log log' : Log} {completed : Bool} {due : Nat}

/-- The tasks that are ready stand in another order. -/
def reorder (p : State) (ready : List TaskId) : State := p.withSession { p.session with ready }

/-- The task that has its turn next, if one has. -/
def nextTurn? (p : State) : Option TaskId :=
  match p.stage with
  | .running => if p.result?.isSome then none else p.nextTask?
  | .settling _ _ | .closing _ _ => p.session.ready.head?

/-- What can be noticed of the next step. -/
def turnLog (p : State) : Log := p.nextTurn?.elim .nothing p.session.logOf

/-- Does nothing happen until the given time, unless something is typed? -/
structure Rests (p : State) (time : Nat) : Prop where
  ready : p.session.ready = []
  timers : ∀ x ∈ p.session.timers, time < x.1
  running : p.stage = .running → p.result? = none
  sleeping : ∀ completed due, p.stage = .settling completed due ∨ p.stage = .closing completed due →
    time < due

/-- The program can go on from `p` to another state, and this can be noticed of it. -/
inductive Course (p : State) : Log → State → Prop
  | here : Course p .nothing p
  /-- It goes on by itself. -/
  | step {log : Log} {q r : State} {ready : List TaskId} (h : Course p log q)
    (hready : ready.Perm q.session.ready) (hnext : (q.reorder ready).next.state? = some r) :
    Course p (log ++ (q.reorder ready).turnLog) r
  /-- A line is typed, or the input ends. -/
  | input {log : Log} {q : State} (h : Course p log q) (line : Option String) :
    Course p (log ++ .input q.session.now line) (q.receive line)
  /-- Time passes, and nothing happens. -/
  | rest {log : Log} {q : State} {time : Nat} (h : Course p log q) (hrests : q.Rests time)
    (hlt : q.session.now < time) : Course p log (q.withSession (q.session.arrive time))

theorem Course.trans (h : p.Course log q) (h' : q.Course log' r) : p.Course (log ++ log') r := by
  induction h' with
  | here =>
      rw [Log.append_nothing]
      exact h
  | step _ hready hnext ih =>
      rw [← Log.append_assoc]
      exact .step ih hready hnext
  | input _ line ih =>
      rw [← Log.append_assoc]
      exact .input ih line
  | rest _ hrests hlt ih => exact .rest ih hrests hlt

/-! ## The course that the program takes by itself -/

theorem course_next (hnext : p.next.state? = some q) : p.Course p.turnLog q :=
  .step .here (.refl _) hnext

/-- Some steps of the program by itself, and the state that it comes to. -/
def follow (p : State) : (steps : Nat) → Log × State
  | 0 => (.nothing, p)
  | steps + 1 =>
    match p.next.state? with
    | some q => (p.turnLog ++ (q.follow steps).1, (q.follow steps).2)
    | none => (.nothing, p)

theorem course_follow (p : State) (steps : Nat) :
    p.Course (p.follow steps).1 (p.follow steps).2 := by
  induction steps generalizing p with
  | zero => exact .here
  | succ steps ih =>
      rw [follow]
      split
      · next q hnext => exact (course_next hnext).trans (ih q)
      · exact .here

theorem typed_turnLog (p : State) : p.turnLog.typed = [] := by
  unfold turnLog
  cases p.nextTurn? <;> rfl

/-- When the program comes to its end by itself it has taken a course on which nothing was
typed. -/
theorem exists_course_complete {fuel : Nat} {o : Outcome} (h : p.complete fuel = some o) :
    ∃ log q, p.Course log q ∧ log.typed = [] ∧ q.next = .ended o := by
  induction fuel generalizing p with
  | zero => cases h
  | succ fuel ih =>
      have hgoes : ∀ {q}, p.next.state? = some q → q.complete fuel = some o →
          ∃ log r, p.Course log r ∧ log.typed = [] ∧ r.next = .ended o := by
        intro q hnext hq
        obtain ⟨log, r, hcourse, htyped, hend⟩ := ih hq
        refine ⟨_, r, (course_next hnext).trans hcourse, ?_, hend⟩
        rw [Log.typed_append, typed_turnLog, htyped, List.append_nil]
      unfold complete at h
      cases hnext : p.next with
      | now q | later _ q =>
          rw [hnext] at h
          exact hgoes (by rw [hnext]; rfl) h
      | idle =>
          rw [hnext] at h
          cases h
      | ended o' =>
          rw [hnext] at h
          cases h
          exact ⟨.nothing, p, .here, rfl, hnext⟩

/-! ## Steps -/

/-- What a step of the program can be. -/
inductive Step (p r : State) : Prop where
  /-- A task has its turn. -/
  | turn {t : TaskId} (ht : p.nextTurn? = some t) (hr : r = p.turn t)
  /-- Time passes while the run goes on. -/
  | wait {due : Nat} (hs : p.stage = .running) (ht : p.nextTurn? = none)
    (hresult : p.result? = none) (hready : p.session.ready = [])
    (hdue : p.session.nextTimer? = some due) (hr : r = p.withSession (p.session.arrive due))
  /-- The run has ended well. -/
  | leave {v : Json} (hs : p.stage = .running) (ht : p.nextTurn? = none)
    (hresult : p.result? = some (.ok v))
    (hr : r = (p.withSession p.session.stopForwarder).look (v.bool? = some true))
  /-- Time passes while the program waits for the last messages. -/
  | sleep {completed : Bool} {due time : Nat}
    (hs : p.stage = .settling completed due ∨ p.stage = .closing completed due)
    (ht : p.nextTurn? = none) (hready : p.session.ready = [])
    (htime : p.session.nextTimer? = some time) (hlt : time < due)
    (hr : r = p.withSession (p.session.arrive time))
  /-- It is looked whether all messages were delivered. -/
  | look {completed : Bool} {due : Nat} (hs : p.stage = .settling completed due)
    (ht : p.nextTurn? = none) (hready : p.session.ready = [])
    (htime : ∀ time, p.session.nextTimer? = some time → due ≤ time)
    (hr : r = (p.withSession (p.session.arrive due)).look completed)

theorem ready_of_nextTask? (h : p.nextTask? = none) : p.session.ready = [] := by
  unfold nextTask? at h
  dsimp only at h
  split at h
  · cases h
  · exact List.head?_eq_none_iff.mp (Option.or_eq_none_iff.mp h).2

theorem result?_of_nextTurn? (hs : p.stage = .running) (ht : p.nextTurn? = some t) :
    p.result? = none ∧ p.nextTask? = some t := by
  rw [nextTurn?, hs] at ht
  dsimp only at ht
  split at ht
  · cases ht
  · next hnone => exact ⟨Option.not_isSome_iff_eq_none.mp hnone, ht⟩

/-- A step in which the main task sleeps. -/
theorem step_of_sleep {wake : State → Next}
    (hs : p.stage = .settling completed due ∨ p.stage = .closing completed due)
    (h : (p.sleep due wake).state? = some r) : Step p r ∨
      p.session.ready = [] ∧ (∀ time, p.session.nextTimer? = some time → due ≤ time) ∧
        p.sleep due wake = wake (p.withSession (p.session.arrive due)) := by
  have hturn : p.nextTurn? = p.session.ready.head? := by
    rcases hs with hs | hs <;> rw [nextTurn?, hs]
  unfold sleep at h ⊢
  cases hready : p.session.ready with
  | cons t rest =>
      rw [hready] at h
      exact .inl (.turn (by rw [hturn, hready]; rfl) (Option.some.inj h).symm)
  | nil =>
      rw [hready] at h
      have hnone : p.nextTurn? = none := by rw [hturn, hready]; rfl
      cases htime : p.session.nextTimer? with
      | none => exact .inr ⟨rfl, fun time h => (by cases h), rfl⟩
      | some time =>
          rw [htime] at h
          dsimp only at h ⊢
          by_cases hlt : time < due
          · rw [if_pos hlt] at h
            exact .inl (.sleep hs hnone hready htime hlt (Option.some.inj h).symm)
          · rw [if_neg hlt]
            refine .inr ⟨rfl, fun time' h => ?_, rfl⟩
            cases h
            exact Nat.le_of_not_lt hlt

/-- What the program does next is a step of these kinds. -/
theorem step_of_next (h : p.next.state? = some r) : Step p r := by
  unfold next at h
  cases hs : p.stage with
  | running =>
      rw [hs] at h
      dsimp only at h
      cases hresult : p.result? with
      | some result =>
          have hnone : p.nextTurn? = none := by rw [nextTurn?, hs, hresult]; rfl
          rw [hresult] at h
          cases result with
          | ok v => exact .leave hs hnone hresult (Option.some.inj h).symm
          | error e =>
              unfold close at h
              dsimp only at h
              split at h
              · next heq => cases heq
              · cases h
              · cases h
      | none =>
          have hturn : p.nextTurn? = p.nextTask? := by rw [nextTurn?, hs, hresult]; rfl
          rw [hresult] at h
          cases htask : p.nextTask? with
          | some t =>
              rw [htask] at h
              exact .turn (hturn.trans htask) (Option.some.inj h).symm
          | none =>
              rw [htask] at h
              cases hdue : p.session.nextTimer? with
              | some due =>
                  rw [hdue] at h
                  exact .wait hs (hturn.trans htask) hresult (ready_of_nextTask? htask) hdue
                    (Option.some.inj h).symm
              | none =>
                  rw [hdue] at h
                  cases h
  | settling completed due =>
      rw [hs] at h
      dsimp only at h
      rcases step_of_sleep (.inl hs) h with hstep | ⟨hready, htime, heq⟩
      · exact hstep
      · rw [heq] at h
        refine .look hs ?_ hready htime (Option.some.inj h).symm
        rw [nextTurn?, hs, hready]
        rfl
  | closing completed due =>
      rw [hs] at h
      dsimp only at h
      rcases step_of_sleep (.inr hs) h with hstep | ⟨hready, htime, heq⟩
      · exact hstep
      · rw [heq] at h
        cases h

end State

end Dialogue.Program
