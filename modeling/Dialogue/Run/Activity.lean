import Dialogue.Content.Message
import Dialogue.Command.Line
import Dialogue.Command.Table
import Dialogue.Error
import Dialogue.Record
import Dialogue.Script.Diagnostic
/-!
# Activities

What a script does is an `Activity`: it is done, it has failed, or it makes a `Request` to its
surroundings and goes on with the answer. An activity knows nothing of where answers come from, so
whatever is said of all its answers holds of every table, record and user.
-/

namespace Dialogue

/-- What a running script asks of its surroundings. -/
inductive Request where
  /-- The record as it is now. -/
  | record
  /-- Queue a text to the user, with the meta entries that go with its delivery. -/
  | say (text : String) (noted : Option Meta)
  /-- Queue a list of options. -/
  | offer (items : List OptionItem)
  /-- Queue a request for a file. -/
  | requestFile
  /-- Switch the input field to several lines. -/
  | openTextArea
  /-- Wait for an input, with the input field open. -/
  | input
  /-- Is there a command of that name? -/
  | resolve (name : String)
  /-- Call a command. -/
  | call (name : String) (args : List Argument)
  /-- Enter a value into the record. -/
  | store (key : String) (value : Json)
  /-- Tell that a value was recorded. -/
  | collected (key : String) (value : Json)
  /-- Deliver the meta entries of a step. -/
  | noted (entries : Meta)
  /-- Fire an event. -/
  | fired (value : Json)
  /-- Tell that an action is taken, and at which step it stands. -/
  | acting (place : Option Place) (action : String)
  /-- Run the thread of a topic; does it complete the run? -/
  | enter (topic : String)

/-- What is answered to a request. -/
abbrev Request.Answer : Request → Type
  | .record => Record
  | .input => Except RunError Json
  | .resolve _ => Bool
  | .call _ _ => Except String Json
  | .enter _ => Bool
  | _ => Unit

/-- Something that a script does. -/
inductive Activity (α : Type) where
  | done (a : α)
  | fail (e : ChatError)
  | ask (r : Request) (k : r.Answer → Activity α)

namespace Activity

variable {α β γ : Type}

/-- One activity after another. -/
def bind : Activity α → (α → Activity β) → Activity β
  | .done a, f => f a
  | .fail e, _ => .fail e
  | .ask r k, f => .ask r fun a => bind (k a) f

instance : Monad Activity where
  pure := .done
  bind := bind

theorem bind_done (m : Activity α) : bind m .done = m := by
  induction m with
  | done | fail => rfl
  | ask r k ih => exact congrArg (Activity.ask r) (funext ih)

theorem bind_bind (m : Activity α) (f : α → Activity β) (g : β → Activity γ) :
    bind (bind m f) g = bind m fun a => bind (f a) g := by
  induction m with
  | done | fail => rfl
  | ask r k ih => exact congrArg (Activity.ask r) (funext ih)

instance : LawfulMonad Activity :=
  LawfulMonad.mk' Activity bind_done (fun _ _ => rfl) bind_bind

/-- A request by itself. -/
def request (r : Request) : Activity r.Answer := .ask r .done

/-- Waits for an input; an interruption is a failure. -/
def input : Activity Json :=
  .ask .input fun
    | .ok v => .done v
    | .error e => .fail (.run e)

end Activity

end Dialogue
