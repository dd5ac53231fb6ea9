import Dialogue.Run.Step
/-!
# Running threads

A thread runs its steps in order. The first step that has an action is put aside: nothing of it
happens but its action, and that after the other steps. Actions of later steps are not taken.

A thread that is entered from another one runs inside it. `Run` keeps the activity that goes on now
and those that wait for it, so a run goes forward in single steps however deep threads are nested.
-/

namespace Dialogue

namespace Scene

/-- Takes the action that was put aside, if there is one. -/
def finish (scene : Scene) (saved : Option (Place × String)) : Activity Bool :=
  match saved with
  | some (place, action) => scene.act (some place) action
  | none => return false

/-- Runs the steps of a thread. An action that was put aside is taken at the end. -/
def runSteps (scene : Scene) (topic : String) (saved : Option (Place × String)) :
    List (Step × Nat) → Activity Bool
  | [] => scene.finish saved
  | (s, n) :: rest =>
    match s.flowAction, saved with
    | some action, none => scene.runSteps topic (some (⟨topic, some n⟩, action)) rest
    | _, _ => do
      if ← scene.runStep (some ⟨topic, some n⟩) s then return true
      else scene.runSteps topic saved rest

/-- Runs a thread: does it complete the run? -/
def runThread (scene : Scene) (t : Thread) : Activity Bool := scene.runSteps t.topic none t.numbered

/-- Runs the thread of a topic. -/
def enter (scene : Scene) (topic : String) : Activity Bool :=
  match scene.index.get? topic with
  | some t => scene.runThread t
  | none => .fail (.script (.threadNotFound topic))

end Scene

/-! ### Runs -/

/-- A run: what goes on now, and what goes on after it, innermost first. -/
structure Run where
  current : Activity Bool
  outer : List (Bool → Activity Bool)

/-- What a run does next. -/
inductive Run.Next where
  | ended (result : Except ChatError Bool)
  /-- It goes on by itself. -/
  | moved (r : Run)
  /-- It needs an answer. -/
  | asks (r : Request) (k : r.Answer → Run)

namespace Run

/-- The run of an activity. -/
def ofActivity (a : Activity Bool) : Run := ⟨a, []⟩

/-- The run of a script from its start. -/
def start (scene : Scene) : Run := ofActivity (scene.enter defaultTopic)

/-- What a run does next. A thread that it enters runs first, and then the run goes on. -/
def next (scene : Scene) (r : Run) : Next :=
  match r.current with
  | .done b =>
    match r.outer with
    | [] => .ended (.ok b)
    | k :: ks => .moved ⟨k b, ks⟩
  | .fail e => .ended (.error e)
  | .ask (.enter topic) k => .moved ⟨scene.enter topic, k :: r.outer⟩
  | .ask q k => .asks q fun a => ⟨k a, r.outer⟩

end Run

end Dialogue
