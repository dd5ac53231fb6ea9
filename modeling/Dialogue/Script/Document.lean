import Dialogue.Json.Value
/-!
# Scripts

A script document is a list of threads, a thread a topic with a list of steps. Every part of a
step is optional: text lines, quick replies, a value to collect with options that branch on it,
an action, and meta entries for the host.

An action names what happens next: `next` ends the thread, `complete` ends the whole run, and
anything else is the topic of a thread to enter.
-/

namespace Dialogue

/-- The topic of the thread in which a run starts. -/
def defaultTopic : String := "default"

/-- How the pattern of an option is compared with a value. -/
inductive MatchKind where
  /-- The texts are equal. -/
  | string
  /-- The text matches a regular expression. -/
  | regex
  /-- A kind that is not known; it never matches. -/
  | other
  deriving DecidableEq, Repr, Inhabited

/-- An option of a collect: when the value matches, its action is taken. An option marked as
default is taken when none matches. -/
structure CollectOption where
  isDefault : Bool
  kind : Option MatchKind
  pattern : Option String
  action : String
  deriving DecidableEq, Repr, Inhabited

namespace CollectOption

/-- An option that compares for equality. -/
def string (pattern action : String) : CollectOption := ⟨false, some .string, some pattern, action⟩

/-- An option that matches a regular expression. -/
def regex (pattern action : String) : CollectOption := ⟨false, some .regex, some pattern, action⟩

/-- An option that is taken when nothing else matches. -/
def fallback (action : String) : CollectOption := ⟨true, none, none, action⟩

end CollectOption

/-- A request for a value: where to record it, whether it may have several lines, and the options
that branch on it. -/
structure Collect where
  key : Option String
  multiple : Bool
  options : List CollectOption
  deriving DecidableEq, Repr, Inhabited

/-- A reply that is offered: what is shown, and the value it stands for. -/
structure QuickReply where
  title : String
  payload : String
  deriving DecidableEq, Repr, Inhabited

/-- An entry of the meta list of a step. One with the key `on:` and a value's text is an event that
is fired when that value is answered. -/
structure MetaEntry where
  key : String
  value : Json
  deriving Inhabited

/-- The meta list of a step. -/
abbrev Meta := List MetaEntry

/-- A step of a thread. -/
structure Step where
  text : Option (List String)
  quickReplies : Option (List QuickReply)
  collect : Option Collect
  action : Option String
  metaEntries : Option Meta
  deriving Inhabited

/-- A named list of steps. -/
structure Thread where
  topic : String
  steps : List Step
  deriving Inhabited

/-- A script document. -/
structure Document where
  threads : List Thread
  deriving Inhabited

/-! ### Actions -/

/-- What an action asks for. -/
inductive Action where
  | next
  | complete
  | thread (topic : String)
  deriving DecidableEq, Repr

namespace Action

/-- The meaning of an action's name: two names are reserved, the others are topics. -/
def parse (name : String) : Action :=
  if name = "next" then .next
  else if name = "complete" then .complete
  else .thread name

/-- Is it one of the two reserved actions? -/
def isReserved : Action → Bool
  | .thread _ => false
  | _ => true

end Action

namespace Step

/-- A step with nothing in it. -/
def empty : Step := ⟨none, none, none, none, none⟩

/-- The action of a step; the empty name counts as none. -/
def flowAction (s : Step) : Option String := s.action.filter (· ≠ "")

/-- The key under which the step records its value; the empty key counts as none. -/
def collectKey (s : Step) : Option String := (s.collect.bind (·.key)).filter (· ≠ "")

end Step

end Dialogue
