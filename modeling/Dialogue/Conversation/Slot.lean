import Dialogue.Error
/-!
# The input slot

One party at a time can wait for an input. `InputSlot.register` gives it a receiver, and
`InputSlot.report` hands a value to the receiver that is registered; a value that nobody waits for
is lost. A receiver is waiting, holds a value until it is taken, is closed, or was dropped by its
owner.
-/

namespace Dialogue

/-- The state of a receiver. -/
inductive Receiver where
  /-- Nothing has come yet. -/
  | waiting
  /-- A value has come and was not taken yet. -/
  | holding (value : Json)
  /-- Nothing can come any more. -/
  | closed
  /-- The owner has gone. -/
  | dropped
  deriving Inhabited

namespace Receiver

/-- Is the receiver still waiting? -/
def isWaiting : Receiver → Bool
  | .waiting => true
  | _ => false

end Receiver

/-- The receivers that were ever given out, by number, and the one that is registered. -/
structure InputSlot where
  receivers : List Receiver
  registered : Option Nat
  deriving Inhabited

namespace InputSlot

/-- A slot that was never used. -/
def empty : InputSlot := ⟨[], none⟩

/-- The state of a receiver. One that was never given out counts as dropped. -/
def receiver (s : InputSlot) (n : Nat) : Receiver := (s.receivers[n]?).getD .dropped

/-- Changes the state of a receiver. -/
def setReceiver (s : InputSlot) (n : Nat) (r : Receiver) : InputSlot :=
  { s with receivers := s.receivers.set n r }

/-- The registered receiver, if it is waiting. -/
def waiter? (s : InputSlot) : Option Nat := s.registered.filter fun n => (s.receiver n).isWaiting

/-- Is somebody waiting? -/
def isPending (s : InputSlot) : Bool := s.waiter?.isSome

/-- Gives out a receiver and its number; refused while somebody is waiting. -/
def register (s : InputSlot) : Except RunError (Nat × InputSlot) :=
  if s.isPending then .error .inputAlreadyPending
  else .ok (s.receivers.length, ⟨s.receivers ++ [.waiting], some s.receivers.length⟩)

/-- Hands a value to whoever is waiting; `none` when nobody is. -/
def report? (s : InputSlot) (v : Json) : Option (Nat × InputSlot) :=
  s.waiter?.map fun n => (n, { s.setReceiver n (.holding v) with registered := none })

/-- The slot after a value was reported. -/
def report (s : InputSlot) (v : Json) : InputSlot :=
  match s.report? v with
  | some (_, s') => s'
  | none => { s with registered := none }

/-- Closes the receiver that is waiting. -/
def cancel (s : InputSlot) : InputSlot :=
  match s.waiter? with
  | some n => { s.setReceiver n .closed with registered := none }
  | none => { s with registered := none }

/-- The owner of a receiver goes away. -/
def drop (s : InputSlot) (n : Nat) : InputSlot := s.setReceiver n .dropped

/-- What somebody sees who looks into a receiver; a value is taken out. -/
def take (s : InputSlot) (n : Nat) : Receiver × InputSlot :=
  match s.receiver n with
  | .holding v => (.holding v, s.setReceiver n .closed)
  | r => (r, s)

end InputSlot

end Dialogue
