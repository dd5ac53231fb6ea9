import Dialogue.Command.Table
import Dialogue.Content.Settings
import Dialogue.Record
/-!
# What commands do

A command is one of the program's own (`Builtin`) or is described by data (`CommandSpec`). It is
called with arguments; `Surroundings` is what it can look at, and its `Reply` says what it does: the
record it leaves, a text it says, a text it prints, and its value or the reason why it fails.
-/

namespace Dialogue

/-- What a command can look at when it is called. -/
structure Surroundings where
  args : List Argument
  /-- The record of the run. -/
  record : Record
  /-- Is there a command of that name in the table? -/
  knows : String → Bool
  settings : Settings
  /-- The time of the calendar, in seconds. -/
  seconds : Nat

namespace Surroundings

/-- The record, if it is among the arguments. -/
def record? (s : Surroundings) : Option Record :=
  if s.args.any Argument.isRecord then some s.record else none

/-- The first key among the arguments. -/
def key? (s : Surroundings) : Option String := s.args.findSome? Argument.key?

/-- The first answer to a request for a file among the arguments. -/
def upload? (s : Surroundings) : Option Json := s.args.findSome? Argument.upload?

/-- The record with values entered, if it is among the arguments; as it was otherwise. -/
def enter (s : Surroundings) (entries : List (String × Json)) : Record :=
  if s.args.any Argument.isRecord then entries.foldl (fun r e => r.set e.1 e.2) s.record
  else s.record

end Surroundings

/-- What a command does. -/
structure Reply where
  record : Record
  said : Option String
  printed : Option String
  result : Except String Json
  deriving Inhabited

/-! ### Commands described by data -/

/-- The value of a command. -/
inductive ResultSpec where
  /-- The value in the record. -/
  | get (key : String)
  /-- Is there a command of that name? -/
  | resolve (name : String)
  /-- The key it was called with. -/
  | key
  /-- What the user answered to the request for a file. -/
  | upload
  /-- The number of arguments. -/
  | count
  | value (v : Json)
  deriving Inhabited

/-- A command described by data. -/
structure CommandSpec where
  /-- How long it takes, in milliseconds. -/
  delay : Option Nat
  /-- What it enters into the record. -/
  set : List (String × Json)
  say : Option String
  /-- The reason why it fails. -/
  fail : Option String
  result : ResultSpec
  deriving Inhabited

namespace ResultSpec

/-- The value, or the reason why there is none, when the record is as given. -/
def eval (s : Surroundings) (record : Record) : ResultSpec → Except String Json
  | .get k =>
    if s.record?.isSome then .ok ((record.get? k).getD .null) else .error "no record"
  | .resolve name =>
    if s.args.any Argument.isContext then .ok (.bool (s.knows name)) else .error "no context"
  | .key => .ok (.opt .string s.key?)
  | .upload => .ok (s.upload?.getD .null)
  | .count => .ok (.nat s.args.length)
  | .value v => .ok v

end ResultSpec

namespace CommandSpec

/-- What the command does when its delay is over. -/
def reply (c : CommandSpec) (s : Surroundings) : Reply :=
  let record := s.enter c.set
  let result := match c.fail with
    | some reason => .error reason
    | none => c.result.eval s record
  ⟨record, c.say, none, result⟩

end CommandSpec

/-! ### Commands of the program -/

/-- A command of the program. -/
inductive Builtin where
  /-- The time of the calendar, in seconds. -/
  | now
  /-- The value in the record under the key of the step. -/
  | echo
  /-- Prints the record. -/
  | dump
  /-- Enters the path of a file into the record and says whether there is such a file. -/
  | upload
  deriving DecidableEq, Repr, Inhabited

namespace Builtin

/-- The name of a command. -/
def name : Builtin → String
  | .now => "now"
  | .echo => "echo"
  | .dump => "dump"
  | .upload => "upload"

/-- The failure of a command that lacks an argument. -/
def lacks (b : Builtin) (s : Surroundings) (argument : String) : Reply :=
  ⟨s.record, none, none, .error (b.name ++ " 需要 " ++ argument ++ " 参数")⟩

/-- The path that was answered to a request for a file. -/
def path (answer : Json) : String := ((answer.member? "path").getD answer).text

/-- What the command for files does once it is known whether there is a file. -/
def replyUpload (s : Surroundings) (path : String) (isThere : Bool) : Reply where
  record := s.enter [("upload_path", .string path)]
  said := some (if isThere then s.settings.uploadedFile else s.settings.notUploadedFile)
  printed := none
  result := .ok (.bool isThere)

/-- What a command does. If a file has to be looked for first, its path is given back instead. -/
def reply (s : Surroundings) : Builtin → Reply ⊕ String
  | .now => .inl ⟨s.record, none, none, .ok (.nat s.seconds)⟩
  | .echo =>
    match s.record?, s.key? with
    | none, _ => .inl (lacks .echo s "record")
    | _, none => .inl (lacks .echo s "key")
    | some r, some key => .inl ⟨r, none, none, .ok ((r.get? key).getD .null)⟩
  | .dump =>
    match s.record? with
    | none => .inl (lacks .dump s "record")
    | some r => .inl ⟨r, none, some (r.toJson.pretty ++ "\n"), .ok .null⟩
  | .upload =>
    match s.upload? with
    | none => .inl (lacks .upload s "uploader")
    | some answer => .inr (path answer)

end Builtin

/-! ### Commands -/

/-- A command. -/
inductive Command where
  | builtin (b : Builtin)
  | spec (c : CommandSpec)
  deriving Inhabited

/-- The commands of the program. -/
def Builtin.table : CommandTable Command :=
  .ofList ([Builtin.now, .echo, .dump, .upload].map fun b => (b.name, .builtin b))

end Dialogue
