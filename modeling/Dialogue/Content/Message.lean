import Dialogue.Script.Encoding
/-!
# Messages

What stands in the list of a conversation. A payload is a typing placeholder, a text to the user,
a text from the user, a list of options or a request for a file. A message adds whether it starts
a group of its kind.

A payload is written as a map of its `kind` and, but for the placeholder, its `params`.
-/

namespace Dialogue

/-- The kinds of messages. -/
inductive MessageKind where
  | typing
  | to
  | «from»
  | options
  | uploader
  deriving DecidableEq, Repr, Inhabited

/-- An option that is shown: its text, and the value it stands for. -/
structure OptionItem where
  display : String
  value : Json
  deriving Inhabited

/-- What a message says. The fix label of a text from the user or an option list is the text of a
button that lets the user answer again. -/
inductive Payload where
  | typing
  | to (message : String)
  | «from» (message : String) (fixme : Option String)
  | options (items : List OptionItem) (selected : Option Json) (multi : Bool)
      (fixme : Option String)
  | uploader (options : Option Json)
  deriving Inhabited

/-- A message of the list. -/
structure Message where
  payload : Payload
  first : Bool
  deriving Inhabited

namespace MessageKind

/-- The name of a kind. -/
def name : MessageKind → String
  | .typing => "typing"
  | .to => "to"
  | .from => "from"
  | .options => "options"
  | .uploader => "uploader"

/-- All kinds, in order. -/
def all : List MessageKind := [.typing, .to, .from, .options, .uploader]

/-- The kind with the given name. -/
def ofName? (n : String) : Option MessageKind := all.find? fun k => k.name = n

end MessageKind

namespace Payload

/-- The kind of a payload. -/
def kind : Payload → MessageKind
  | .typing => .typing
  | .to _ => .to
  | .from _ _ => .from
  | .options _ _ _ _ => .options
  | .uploader _ => .uploader

/-- The text of a text message. -/
def text : Payload → Option String
  | .to m => some m
  | .from m _ => some m
  | _ => none

/-- The fix label. -/
def fixme : Payload → Option String
  | .from _ f => f
  | .options _ _ _ f => f
  | _ => none

end Payload

namespace Message

/-- The kind of a message. -/
def kind (m : Message) : MessageKind := m.payload.kind

/-- Is it a typing placeholder? -/
def isTyping (m : Message) : Bool := m.kind = .typing

end Message

/-! ### The written form -/

open Decode

namespace OptionItem

variable {σ : Type} [Source σ]

/-- How an option is decoded. -/
def shape : Shape σ OptionItem where
  name := "struct OptionItem"
  fields := [("display", .required), ("value", .required)]
  start := ⟨"", .null⟩
  set field s o :=
    match field with
    | "display" => do return { o with display := ← string s }
    | "value" => do return { o with value := ← any s }
    | _ => .ok o

/-- Decodes an option. -/
def decode (s : σ) : Decoded OptionItem := shape.decode s

/-- The written form. -/
def toJson (o : OptionItem) : Json := .object [("display", .string o.display), ("value", o.value)]

end OptionItem

namespace Payload

section Params

variable {σ : Type} [Source σ]

/-- The parameters of a text to the user. -/
def toShape : Shape σ Payload where
  name := "struct variant Payload::To"
  fields := [("message", .required)]
  start := .to ""
  set field s p :=
    match field, p with
    | "message", .to _ => do return .to (← string s)
    | _, p => .ok p

/-- The parameters of a text from the user. -/
def fromShape : Shape σ Payload where
  name := "struct variant Payload::From"
  fields := [("message", .required), ("fixme", .defaulted)]
  start := .from "" none
  set field s p :=
    match field, p with
    | "message", .from _ f => do return .from (← string s) f
    | "fixme", .from m _ => do return .from m (← option string s)
    | _, p => .ok p

/-- The parameters of an option list. -/
def optionsShape : Shape σ Payload where
  name := "struct variant Payload::Options"
  fields := [("options", .required), ("selected", .optional), ("multi", .required),
    ("fixme", .defaulted)]
  start := .options [] none false none
  set field s p :=
    match field, p with
    | "options", .options _ c m f => do return .options (← list OptionItem.decode s) c m f
    | "selected", .options o _ m f => do return .options o (← option any s) m f
    | "multi", .options o c _ f => do return .options o c (← bool s) f
    | "fixme", .options o c m _ => do return .options o c m (← option string s)
    | _, p => .ok p

/-- The parameters of a request for a file. -/
def uploaderShape : Shape σ Payload where
  name := "struct variant Payload::Uploader"
  fields := [("options", .optional)]
  start := .uploader none
  set field s p :=
    match field, p with
    | "options", .uploader _ => do return .uploader (← option any s)
    | _, p => .ok p

/-- Decodes the parameters of a payload of known kind. -/
def decodeParams (k : MessageKind) (s : σ) : Decoded Payload :=
  match k with
  | .typing =>
    match Source.view s with
    | .null => .ok .typing
    | v => .error (mismatch v "unit variant Payload::Typing")
  | .to => toShape.decodeMap s
  | .from => fromShape.decodeMap s
  | .options => optionsShape.decodeMap s
  | .uploader => uploaderShape.decodeMap s

/-- Decodes a kind. -/
def decodeKind (s : σ) : Decoded MessageKind :=
  choice (fun n => match MessageKind.ofName? n with
    | some k => .ok k
    | none => .error (.unknownVariant n (MessageKind.all.map MessageKind.name))) s

/-- Is it the name of one of the two members of a payload? -/
def isMember (n : String) : Bool := n = "kind" || n = "params"

/-- The members up to the first that matters, which is split off. -/
def nextMember? :
    List (Option String × σ) → Decoded (Option (String × σ × List (Option String × σ)))
  | [] => .ok none
  | (none, _) :: _ => .error .notJson
  | (some n, s) :: rest => if isMember n then .ok (some (n, s, rest)) else nextMember? rest

/-- Checks that none of the two members is repeated. -/
def noMore (members : List (Option String × σ)) : Decoded Unit := do
  match ← nextMember? members with
  | none => .ok ()
  | some (n, _, _) => .error (.duplicateField n)

end Params

variable {σ : Type} [Streamed σ]

/-- Decodes the members of a payload. Parameters that stand before the kind are set aside until the
kind is known. -/
def ofMembers (members : List (Option String × σ)) : Decoded Payload := do
  match ← nextMember? members with
  | none => .error (.missingField "kind")
  | some ("kind", s, rest) =>
    let k ← decodeKind s
    match ← nextMember? rest with
    | none => if k = .typing then .ok .typing else .error (.missingField "params")
    | some ("params", s, rest) =>
      let p ← decodeParams k s
      noMore rest
      return p
    | some (n, _, _) => .error (.duplicateField n)
  | some (_, s, rest) =>
    let part ← Streamed.setAside s
    match ← nextMember? rest with
    | none => .error (.missingField "kind")
    | some ("kind", s, rest) =>
      let k ← decodeKind s
      let p ← @decodeParams _ Streamed.part k part
      noMore rest
      return p
    | some (n, _, _) => .error (.duplicateField n)

/-- What a payload is called in messages. -/
def expected : String := "adjacently tagged enum Payload"

/-- Decodes a payload: a map, or an array of the kind and the parameters. -/
def decode (s : σ) : Decoded Payload :=
  match Source.view s with
  | .object members => ofMembers members
  | .array [] => .error (.invalidLength 0 expected)
  | .array [k] => do
    let _ ← decodeKind k
    throw (.invalidLength 1 expected)
  | .array (k :: p :: rest) => do
    let k ← decodeKind k
    let p ← decodeParams k p
    if rest.isEmpty then pure p else throw (Source.surplus σ (rest.length + 2) 2)
  | v => .error (mismatch v expected)

/-- The written parameters; the placeholder has none. -/
def paramsToJson? : Payload → Option Json
  | .typing => none
  | .to m => some (.object [("message", .string m)])
  | .from m f => some (.object (optionalMember "fixme" .string f ++ [("message", .string m)]))
  | .options items selected multi f => some (.object (
      optionalMember "fixme" .string f
      ++ [("multi", .bool multi), ("options", .array (items.map OptionItem.toJson)),
        ("selected", .opt id selected)]))
  | .uploader data => some (.object [("options", .opt id data)])

/-- The members of the written form. -/
def members (p : Payload) : List (String × Json) :=
  ("kind", .string p.kind.name) :: optionalMember "params" id p.paramsToJson?

/-- The written form. -/
def toJson (p : Payload) : Json := .object p.members

end Payload

/-- The written form of a message. -/
def Message.toJson (m : Message) : Json := .object (("first", .bool m.first) :: m.payload.members)

end Dialogue
