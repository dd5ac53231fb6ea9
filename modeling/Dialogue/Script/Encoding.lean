import Dialogue.Json.Decode
import Dialogue.Json.Printer
import Dialogue.Script.Document
/-!
# Scripts as JSON

The written form of scripts. Each part has a `Shape` by which it is decoded and an encoder
`toJson`. The encoders leave out the absent parts of a step, and write all fields of everything
else. `Document.loadAll` reads a list of documents, or a single one, through values;
`Document.load` reads one document straight from its text.
-/

namespace Dialogue

open Decode

variable {σ : Type} [Source σ]

/-- A member that is left out when there is nothing to write. -/
def optionalMember {α : Type} (name : String) (encode : α → Json) (a : Option α) :
    List (String × Json) :=
  match a with
  | none => []
  | some a => [(name, encode a)]

/-! ### Match kinds and options -/

namespace MatchKind

/-- The kind of a name. -/
def ofName (name : String) : MatchKind :=
  if name = "string" then .string
  else if name = "regex" then .regex
  else .other

/-- The name of a kind. -/
def name : MatchKind → String
  | .string => "string"
  | .regex => "regex"
  | .other => "other"

/-- Decodes a kind. Unknown names are accepted. -/
def decode (s : σ) : Decoded MatchKind := choice (fun n => .ok (ofName n)) s

/-- The written form. -/
def toJson (k : MatchKind) : Json := .string k.name

end MatchKind

namespace CollectOption

/-- How an option is decoded. -/
def shape : Shape σ CollectOption where
  name := "struct CollectOption"
  fields := [("default", .defaulted), ("type", .defaulted), ("pattern", .defaulted),
    ("action", .defaulted)]
  start := ⟨false, none, none, ""⟩
  set field s o :=
    match field with
    | "default" => do return { o with isDefault := ← bool s }
    | "type" => do return { o with kind := ← option MatchKind.decode s }
    | "pattern" => do return { o with pattern := ← option Decode.string s }
    | "action" => do return { o with action := ← Decode.string s }
    | _ => .ok o

/-- Decodes an option. -/
def decode (s : σ) : Decoded CollectOption := shape.decode s

/-- The written form. -/
def toJson (o : CollectOption) : Json := .object [
  ("action", .string o.action),
  ("default", .bool o.isDefault),
  ("pattern", .opt .string o.pattern),
  ("type", .opt MatchKind.toJson o.kind)]

end CollectOption

namespace Collect

/-- How a collect is decoded. -/
def shape : Shape σ Collect where
  name := "struct Collect"
  fields := [("key", .defaulted), ("multiple", .defaulted), ("options", .defaulted)]
  start := ⟨none, false, []⟩
  set field s c :=
    match field with
    | "key" => do return { c with key := ← option Decode.string s }
    | "multiple" => do return { c with multiple := ← bool s }
    | "options" => do return { c with options := ← list CollectOption.decode s }
    | _ => .ok c

/-- Decodes a collect. -/
def decode (s : σ) : Decoded Collect := shape.decode s

/-- The written form. -/
def toJson (c : Collect) : Json := .object [
  ("key", .opt .string c.key),
  ("multiple", .bool c.multiple),
  ("options", .array (c.options.map CollectOption.toJson))]

end Collect

/-! ### Quick replies and meta entries -/

namespace QuickReply

/-- How a quick reply is decoded. -/
def shape : Shape σ QuickReply where
  name := "struct QuickReply"
  fields := [("title", .required), ("payload", .required)]
  start := ⟨"", ""⟩
  set field s r :=
    match field with
    | "title" => do return { r with title := ← Decode.string s }
    | "payload" => do return { r with payload := ← Decode.string s }
    | _ => .ok r

/-- Decodes a quick reply. -/
def decode (s : σ) : Decoded QuickReply := shape.decode s

/-- The written form. -/
def toJson (r : QuickReply) : Json :=
  .object [("payload", .string r.payload), ("title", .string r.title)]

end QuickReply

namespace MetaEntry

/-- How a meta entry is decoded. -/
def shape : Shape σ MetaEntry where
  name := "struct MetaEntry"
  fields := [("key", .required), ("value", .defaulted)]
  start := ⟨"", .null⟩
  set field s e :=
    match field with
    | "key" => do return { e with key := ← Decode.string s }
    | "value" => do return { e with value := ← any s }
    | _ => .ok e

/-- Decodes a meta entry. -/
def decode (s : σ) : Decoded MetaEntry := shape.decode s

/-- The written form. -/
def toJson (e : MetaEntry) : Json := .object [("key", .string e.key), ("value", e.value)]

end MetaEntry

/-- The written form of a meta list. -/
def Meta.toJson (m : Meta) : Json := .array (m.map MetaEntry.toJson)

/-! ### Steps, threads, documents -/

namespace Step

/-- How a step is decoded. -/
def shape : Shape σ Step where
  name := "struct Step"
  fields := [("text", .defaulted), ("quick_replies", .defaulted), ("collect", .defaulted),
    ("action", .defaulted), ("meta", .defaulted)]
  start := Step.empty
  set field s t :=
    match field with
    | "text" => do return { t with text := ← option (list Decode.string) s }
    | "quick_replies" => do return { t with quickReplies := ← option (list QuickReply.decode) s }
    | "collect" => do return { t with collect := ← option Collect.decode s }
    | "action" => do return { t with action := ← option Decode.string s }
    | "meta" => do return { t with metaEntries := ← option (list MetaEntry.decode) s }
    | _ => .ok t

/-- Decodes a step. -/
def decode (s : σ) : Decoded Step := shape.decode s

/-- The written form. -/
def toJson (t : Step) : Json := .object (
  optionalMember "action" .string t.action
  ++ optionalMember "collect" Collect.toJson t.collect
  ++ optionalMember "meta" Meta.toJson t.metaEntries
  ++ optionalMember "quick_replies" (fun rs => .array (rs.map QuickReply.toJson)) t.quickReplies
  ++ optionalMember "text" (fun ls => .array (ls.map .string)) t.text)

end Step

namespace Thread

/-- How a thread is decoded. -/
def shape : Shape σ Thread where
  name := "struct Thread"
  fields := [("topic", .required), ("script", .defaulted)]
  start := ⟨"", []⟩
  set field s t :=
    match field with
    | "topic" => do return { t with topic := ← Decode.string s }
    | "script" => do return { t with steps := ← list Step.decode s }
    | _ => .ok t

/-- Decodes a thread. -/
def decode (s : σ) : Decoded Thread := shape.decode s

/-- The written form. -/
def toJson (t : Thread) : Json :=
  .object [("script", .array (t.steps.map Step.toJson)), ("topic", .string t.topic)]

end Thread

namespace Document

/-- How a document is decoded. -/
def shape : Shape σ Document where
  name := "struct ScriptDocument"
  fields := [("script", .defaulted)]
  start := ⟨[]⟩
  set field s d :=
    match field with
    | "script" => do return { d with threads := ← list Thread.decode s }
    | _ => .ok d

/-- Decodes a document. -/
def decode (s : σ) : Decoded Document := shape.decode s

/-- The written form. -/
def toJson (d : Document) : Json := .object [("script", .array (d.threads.map Thread.toJson))]

/-- Decodes the documents of a value: an array of them, or a single one. -/
def decodeAll (v : Json) : Decoded (List Document) :=
  match v with
  | .array _ => list decode v
  | v => (decode v).map fun d => [d]

/-- Reads the documents of a text. -/
def loadAll (text : String) : Decoded (List Document) :=
  match Json.read? text with
  | none => .error .notJson
  | some v => decodeAll v

end Document

/-- Decodes something straight from its text. A complaint about a part only stands when the text as
a whole is JSON. -/
def decodeText {α : Type} (decode : Tree → Decoded α) (text : String) : Decoded α :=
  match Tree.read? text with
  | none => .error .notJson
  | some t =>
    match decode t with
    | .ok a => .ok a
    | .error e => .error (if t.toJson?.isSome then e else .notJson)

/-- Reads a single document straight from its text. -/
def Document.load (text : String) : Decoded Document := decodeText Document.decode text

end Dialogue
