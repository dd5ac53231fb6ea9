import Dialogue.Run.Activity
import Dialogue.Script.Index
import Dialogue.Template
/-!
# Running a step

A step says its lines, calls the commands among them, asks the user when no command gave a value,
records the value and takes the action of the option that fits.

The meta entries of a step are delivered once: after the first command when there is one, with the
delivery of the first line when there is none, and at once when the step has no text.
-/

namespace Dialogue

/-- What a run works with: its threads, the engine for patterns, and the callbacks of the host. -/
structure Scene where
  index : ThreadIndex
  engine : PatternEngine
  callbacks : Callbacks

/-! ### Actions -/

namespace Scene

/-- Takes an action: does it complete the run? An action that names no thread does nothing. -/
def act (scene : Scene) (place : Option Place) (action : String) : Activity Bool := do
  Activity.request (.acting place action)
  match Action.parse action with
  | .next => return false
  | .complete => return true
  | .thread topic =>
    if scene.index.contains topic then Activity.request (.enter topic) else return false

end Scene

/-! ### Commands -/

namespace CommandLine

/-- Gathers the arguments of a command. For a file the user is asked. -/
def gather (key : Option String) : List ImplicitArg → Activity (List Argument)
  | [] => return []
  | .record :: rest => return .record :: (← gather key rest)
  | .context :: rest => return .context :: (← gather key rest)
  | .key :: rest => return .key key :: (← gather key rest)
  | .uploader :: rest => do
    Activity.request .requestFile
    let v ← Activity.input
    return .upload v :: (← gather key rest)

/-- Calls the command of a line. -/
def invoke (l : CommandLine) (key : Option String) : Activity Json := do
  if ← Activity.request (.resolve l.name) then
    let args ← gather key l.args
    match ← Activity.request (.call l.name args) with
    | .ok v => return v
    | .error reason => .fail (.run (.commandFailed l.name reason))
  else .fail (.run (.commandNotFound l.name))

end CommandLine

/-! ### Lines -/

/-- A line of a step. -/
inductive Line where
  | command (c : CommandLine)
  | plain (text : String)
  deriving DecidableEq, Repr

namespace Line

/-- Reads a line. -/
def parse (text : String) : Line :=
  match CommandLine.parse? text with
  | some c => .command c
  | none => .plain text

/-- Is it a command? -/
def isCommand : Line → Bool
  | .command _ => true
  | .plain _ => false

end Line

/-- What is left after some lines of a step: the meta entries to deliver, and the value of the last
command. -/
structure Progress where
  pending : Option Meta
  value : Option Json

namespace Scene

/-- Delivers the meta entries that are left. -/
def note (pending : Option Meta) : Activity Unit :=
  match pending with
  | some entries => Activity.request (.noted entries)
  | none => return ()

/-- Goes through the lines of a step. The entries go with the first plain line, unless there are
commands among the lines. -/
def sayLines (key : Option String) (commands : Bool) (p : Progress) : List Line → Activity Progress
  | [] => return p
  | .command c :: rest => do
    let result ← c.invoke key
    note p.pending
    sayLines key commands ⟨none, result.nonNull?⟩ rest
  | .plain text :: rest => do
    let record ← Activity.request .record
    let filled := Template.fillIn text record
    if commands then
      Activity.request (.say filled none)
      sayLines key commands p rest
    else
      Activity.request (.say filled p.pending)
      sayLines key commands { p with pending := none } rest

/-! ### Asking the user -/

/-- Fires the events of a step that belong to a value. -/
def fire (scene : Scene) (s : Step) (v : Json) : Activity Unit :=
  if scene.callbacks.fired then
    let entries := (s.metaEntries.getD []).filter fun e => e.key = "on:" ++ v.text
    entries.forM fun e => Activity.request (.fired e.value)
  else return ()

/-- The options that stand for quick replies. -/
def replyItems (replies : List QuickReply) : List OptionItem :=
  replies.map fun r => ⟨r.title, .string r.payload⟩

/-- Asks the user for the value of a step, if the step wants one. -/
def question (scene : Scene) (s : Step) : Activity (Option Json) :=
  match s.quickReplies, s.collect with
  | some replies, _ => do
    Activity.request (.offer (replyItems replies))
    let v ← Activity.input
    scene.fire s v
    return v.nonNull?
  | none, some collect => do
    if collect.multiple then Activity.request .openTextArea
    let v ← Activity.input
    return v.nonNull?
  | none, none => return none

/-! ### Recording and branching -/

/-- The first option whose pattern fits a text. -/
def firstMatch (scene : Scene) (text : String) :
    List CollectOption → Except ScriptError (Option CollectOption)
  | [] => .ok none
  | o :: rest =>
    match o.pattern, o.kind with
    | some pattern, some .string =>
      if pattern = text then .ok (some o) else scene.firstMatch text rest
    | some pattern, some .regex =>
      match scene.engine.test pattern with
      | .ok test => if test text then .ok (some o) else scene.firstMatch text rest
      | .error e => .error e
    | _, _ => scene.firstMatch text rest

/-- The option that is taken for a text: the first that fits, or else the first default. -/
def chosen (scene : Scene) (text : String) (options : List CollectOption) :
    Except ScriptError (Option CollectOption) :=
  match scene.firstMatch text options with
  | .ok (some o) => .ok (some o)
  | .ok none => .ok (options.find? (·.isDefault))
  | .error e => .error e

/-- Records a value under the key of a step, if it has one. -/
def storeValue (scene : Scene) (key : Option String) (v : Json) : Activity Unit :=
  match key with
  | some key => do
    Activity.request (.store key v)
    if scene.callbacks.collected then Activity.request (.collected key v)
  | none => return ()

/-- Records a value and takes the action of the option that fits it. -/
def collect (scene : Scene) (place : Option Place) (c : Collect) (key : Option String) (v : Json) :
    Activity Bool := do
  scene.storeValue key v
  match scene.chosen v.text c.options with
  | .ok (some o) => scene.act place o.action
  | .ok none => return false
  | .error e => .fail (.script e)

/-! ### The step -/

/-- Says the lines of a step and asks the user when no command gave a value. -/
def speak (scene : Scene) (s : Step) (pending : Option Meta) (text : List String) :
    Activity (Option Json) := do
  let lines := text.map Line.parse
  let p ← sayLines s.collectKey (lines.any Line.isCommand) ⟨pending, none⟩ lines
  match p.value with
  | some v => return some v
  | none => scene.question s

/-- The value of a step. A step without text has none. -/
def stepValue (scene : Scene) (s : Step) : Activity (Option Json) :=
  let pending := if scene.callbacks.noted then s.metaEntries else none
  match s.text with
  | some text => scene.speak s pending text
  | none => do
    note pending
    return none

/-- Runs a step that stands at the given place: does it complete the run? -/
def runStep (scene : Scene) (place : Option Place) (s : Step) : Activity Bool := do
  let value ← scene.stepValue s
  match value, s.collect with
  | some v, some c => scene.collect place c s.collectKey v
  | _, _ => return false

end Scene

end Dialogue
