import Dialogue.Script.Index
import Dialogue.Script.Reachability
/-!
# Checking a script before it runs

`Document.findings` looks a document over without running it. A finding is an error when every run
that gets there fails, a warning when the script does hardly what was meant, and otherwise an
information. `Diagnostic` is the form in which findings are shown.

The order is: repeated topics, the missing start, then thread by thread the options and after them
the actions, and at last the threads that no run enters.
-/

namespace Dialogue

/-! ### Diagnostics -/

/-- How grave a diagnostic is. -/
inductive Level where
  | info
  | warn
  | error
  deriving DecidableEq, Repr

namespace Level

/-- The name of a level. -/
def name : Level → String
  | .info => "INFO"
  | .warn => "WARN"
  | .error => "ERROR"

/-- The rank of a level; graver levels have the higher rank. -/
def rank : Level → Nat
  | .info => 0
  | .warn => 1
  | .error => 2

end Level

/-- A place in a document: a thread, and the number of a step in it, counted from 1. -/
structure Place where
  topic : String
  step : Option Nat
  deriving DecidableEq, Repr

/-- A remark about a document. -/
structure Diagnostic where
  level : Level
  place : Option Place
  message : String
  detail : Option String
  deriving DecidableEq, Repr

/-- How a place is shown. -/
def Place.text (p : Place) : String :=
  p.topic ++ (p.step.map fun n => "#" ++ toString n).getD ""

namespace Diagnostic

/-- How a diagnostic is shown. -/
def text (d : Diagnostic) : String :=
  "[" ++ d.level.name ++ "]" ++ (d.place.map fun p => " " ++ p.text).getD ""
    ++ ": " ++ d.message ++ (d.detail.map fun t => "\n  | " ++ t).getD ""

/-- The diagnostics of at least the given level. -/
def atLeast (level : Level) (ds : List Diagnostic) : List Diagnostic :=
  ds.filter fun d => level.rank ≤ d.level.rank

/-- The number of diagnostics of a level. -/
def count (level : Level) (ds : List Diagnostic) : Nat := ds.countP fun d => d.level = level

end Diagnostic

/-! ### Findings -/

/-- What can be found in a document. -/
inductive Finding where
  /-- A topic that an earlier thread has. -/
  | repeatedTopic (topic : String)
  /-- No thread has the topic in which runs start. -/
  | noStart
  /-- An option with a pattern that cannot be compiled. -/
  | badPattern (topic : String) (step : Nat) (pattern reason : String)
  /-- An option whose kind is not known. -/
  | unknownKind (topic : String) (step : Nat)
  /-- An option without a pattern. -/
  | noPattern (topic : String) (step : Nat) (action : String)
  /-- An action that names no thread. -/
  | unknownTarget (topic : String) (step : Nat) (target : String)
  /-- A thread that no run enters. -/
  | unreachable (topic : String)
  deriving DecidableEq, Repr

namespace Finding

/-- How grave a finding is. -/
def level : Finding → Level
  | .repeatedTopic _ => .error
  | .noStart => .error
  | .badPattern _ _ _ _ => .error
  | .unknownKind _ _ => .warn
  | .noPattern _ _ _ => .warn
  | .unknownTarget _ _ _ => .warn
  | .unreachable _ => .info

/-- Where a finding is. -/
def place : Finding → Option Place
  | .repeatedTopic topic => some ⟨topic, none⟩
  | .noStart => none
  | .badPattern topic step _ _ => some ⟨topic, some step⟩
  | .unknownKind topic step => some ⟨topic, some step⟩
  | .noPattern topic step _ => some ⟨topic, some step⟩
  | .unknownTarget topic step _ => some ⟨topic, some step⟩
  | .unreachable topic => some ⟨topic, none⟩

/-- The words for a finding. -/
def message : Finding → String
  | .repeatedTopic topic => "重复的线程名: **" ++ topic ++ "**"
  | .noStart => ScriptError.missingDefaultThread.message
  | .badPattern _ _ pattern _ => "无效的正则模式: " ++ pattern
  | .unknownKind _ _ => "选项的匹配类型不受支持，永远不会匹配"
  | .noPattern _ _ action => "选项没有匹配模式: -> " ++ action
  | .unknownTarget _ _ target => "未知的动作目标: **" ++ target ++ "**"
  | .unreachable topic => "线程从入口不可达: **" ++ topic ++ "**"

/-- What is added to the words. -/
def detail : Finding → Option String
  | .badPattern _ _ pattern reason => some (ScriptError.invalidPattern pattern reason).message
  | .unknownTarget _ _ _ => some "运行时按 next 处理"
  | _ => none

/-- The diagnostic that shows a finding. -/
def diagnostic (f : Finding) : Diagnostic := ⟨f.level, f.place, f.message, f.detail⟩

end Finding

/-! ### Options and actions -/

namespace CollectOption

/-- What is found at an option of the given step. -/
def finding? (engine : PatternEngine) (topic : String) (step : Nat) (o : CollectOption) :
    Option Finding :=
  match o.pattern, o.kind with
  | some pattern, some .regex =>
    match engine.compile pattern with
    | .ok _ => none
    | .error reason => some (.badPattern topic step pattern reason)
  | some _, some .other => if o.isDefault then none else some (.unknownKind topic step)
  | none, _ => if o.isDefault then none else some (.noPattern topic step o.action)
  | _, _ => none

end CollectOption

namespace Step

/-- The options of the collect of a step. -/
def options (s : Step) : List CollectOption := (s.collect.map (·.options)).getD []

/-- The actions that a step names: its own, then those of its options; the empty name is none. -/
def actions (s : Step) : List String :=
  s.flowAction.toList
    ++ s.options.filterMap fun o => (some o.action).filter (· ≠ "")

end Step

namespace Thread

/-- The steps with their numbers, counted from 1. -/
def numbered (t : Thread) : List (Step × Nat) := t.steps.zipIdx 1

/-- The actions that the steps name, each with the number of its step. -/
def actions (t : Thread) : List (Nat × String) :=
  t.numbered.flatMap fun (s, n) => s.actions.map fun a => (n, a)

/-- What is found at the options of a thread. -/
def optionFindings (engine : PatternEngine) (t : Thread) : List Finding :=
  t.numbered.flatMap fun (s, n) => s.options.filterMap (CollectOption.finding? engine t.topic n)

/-- What is found at the actions of a thread when the given topics are known. -/
def actionFindings (topics : List String) (t : Thread) : List Finding :=
  t.actions.filterMap fun (n, a) =>
    match Action.parse a with
    | .thread target => if target ∈ topics then none else some (.unknownTarget t.topic n target)
    | _ => none

/-- The known topics that a thread jumps to. -/
def targets (topics : List String) (t : Thread) : List String :=
  t.actions.filterMap fun (_, a) =>
    match Action.parse a with
    | .thread target => if target ∈ topics then some target else none
    | _ => none

end Thread

/-! ### The analysis -/

/-- All entries that stand before them in the list, or among those already `seen`. -/
def repeats (seen : List String) : List String → List String
  | [] => []
  | t :: ts => if t ∈ seen then t :: repeats seen ts else repeats (t :: seen) ts

namespace Document

/-- The topics of a document. -/
def topics (d : Document) : List String := d.threads.map Thread.topic

/-- The jumps of a document between known topics. -/
def jumps (d : Document) : List Reachability.Edge :=
  d.threads.flatMap fun t => (t.targets d.topics).map fun target => (t.topic, target)

/-- The threads that no run from the start enters. -/
def unreachable (d : Document) : List Finding :=
  let reached := Reachability.reachableFrom defaultTopic (.ofEdges d.jumps)
  d.topics.filterMap fun t => if t ∈ reached then none else some (.unreachable t)

/-- What is found in a document. -/
def findings (engine : PatternEngine) (d : Document) : List Finding :=
  (repeats [] d.topics).map .repeatedTopic
    ++ (if defaultTopic ∈ d.topics then [] else [.noStart])
    ++ d.threads.flatMap (fun t => t.optionFindings engine ++ t.actionFindings d.topics)
    ++ (if defaultTopic ∈ d.topics then d.unreachable else [])

/-- The diagnostics of a document. -/
def analyze (engine : PatternEngine) (d : Document) : List Diagnostic :=
  (d.findings engine).map Finding.diagnostic

end Document

end Dialogue
