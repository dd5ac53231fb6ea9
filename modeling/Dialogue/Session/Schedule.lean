import Dialogue.Session.Console
/-!
# Turns, and the passing of time

A task that has its turn goes on by one step. As long as it can go on it keeps its place among the
tasks that are ready; otherwise it leaves, and whatever it has woken is put behind the others.
`turn` may be called with any task that is ready, so every order of turns can be described; `drain`
is the order in which the first one goes on until it cannot.

Time passes from timer to timer. Timers of one instant fire in the order in which they were set.
-/

namespace Dialogue.Session

/-! ### Turns -/

/-- A task goes on by one step. Can it go on at once? -/
def step (s : Session) : TaskId → Session × Bool
  | .pump n =>
    let s := s.converse fun v => v.stepPump n
    (s, s.conversation.pumpReady n)
  | .notice n =>
    let s := s.converse fun v => v.stepNotice n
    (s, s.conversation.noticeReady n)
  | .client n => s.stepClient n
  | .renderer => s.stepRenderer
  | .forwarder => s.stepForwarder

/-- A task that is ready has its turn. -/
def turn (s : Session) (t : TaskId) : Session :=
  let (s, goesOn) := s.step t
  let s := if goesOn then s else { s with ready := s.ready.erase t }
  s.obeySignals

/-- Gives turns to the first task that is ready, at most as many as the fuel allows. -/
def drain (s : Session) : (fuel : Nat) → Session
  | 0 => s
  | fuel + 1 =>
    match s.ready with
    | [] => s
    | t :: _ => (s.turn t).drain fuel

/-- The number of turns allowed at one instant. -/
def turnsPerInstant : Nat := 1000000

/-- Does all that can be done at the present instant. -/
def catchUp (s : Session) : Session := s.drain turnsPerInstant

/-! ### Time -/

/-- The time of the next timer. -/
def nextTimer? (s : Session) : Option Nat := (s.timers.map (·.1)).min?

/-- The clock shows a later time, and the timers of that time fire. -/
def arrive (s : Session) (time : Nat) : Session :=
  let due := s.timers.filter (·.1 ≤ time)
  let s := { s with
    conversation := s.conversation.perform (.pass (time - s.now))
    timers := s.timers.filter fun t => time < t.1 }
  due.foldl (fun s t => s.wake t.2) s

/-- Time passes from timer to timer until the given time. The fuel is the number of instants that
may lie on the way. -/
def advanceTo (s : Session) (target : Nat) : (fuel : Nat) → Session
  | 0 => s.arrive target
  | fuel + 1 =>
    match s.nextTimer? with
    | none => s.arrive target
    | some due =>
      let time := max due (s.now + 1)
      if time ≤ target then (s.arrive time).catchUp.advanceTo target fuel else s.arrive target

/-- Time passes, and what can be done on the way is done. -/
def advance (s : Session) (milliseconds : Nat) : Session :=
  s.advanceTo (s.now + milliseconds) milliseconds

/-- Lets time pass in portions of ten milliseconds while a condition holds, at most `n` of them. -/
def advanceWhile (condition : Session → Bool) (s : Session) : (n : Nat) → Session
  | 0 => s
  | n + 1 => if condition s then advanceWhile condition (s.advance 10) n else s

/-- The number of portions for which it is waited at most. -/
def patience : Nat := 2000

/-- Lets time pass until somebody waits for input or no client is left. -/
def awaitInput (s : Session) : Session :=
  let waiting := fun (s : Session) =>
    !s.conversation.isAwaiting && s.clients.any fun c => !c.hasEnded
  advanceWhile waiting s patience

/-- Lets time pass until the queue is worked off. -/
def settle (s : Session) : Session := advanceWhile (fun s => !s.conversation.isIdle) s patience

end Dialogue.Session
