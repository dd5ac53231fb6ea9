/-!
# Clocks

Delays are given in tenths of a millisecond, and timers fire at whole milliseconds. On a clock that
stands still between timers a delay that ends in between is rounded up, and no delay at all takes
no time. On a clock that goes on by itself a little of the present millisecond has always passed,
so a timer fires at the first millisecond that begins after its delay is over.
-/

namespace Dialogue

/-- How time passes. -/
inductive Clock where
  /-- Time stands still while anything can be done. -/
  | stepped
  /-- Time goes on by itself. -/
  | running
  deriving DecidableEq, Repr, Inhabited

/-- The time at which a delay is over that begins at `now`. -/
def Clock.due (k : Clock) (now tenths : Nat) : Nat :=
  match k with
  | .stepped => now + (tenths + 9) / 10
  | .running => now + tenths / 10 + 1

end Dialogue
