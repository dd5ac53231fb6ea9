import Dialogue.Script.Encoding
/-!
# Settings of a conversation

`Settings` are the delay before each message and the texts of buttons; they may change at any
time and hold for what happens afterwards. `InputState` describes the input field that the
host shows.
-/

namespace Dialogue

/-! ### Settings -/

/-- The settings of a conversation. -/
structure Settings where
  /-- How long a message is shown as being typed, in milliseconds. -/
  timeout : Nat
  sendButton : String
  inputPlaceholder : String
  uploadFile : String
  uploadedFile : String
  notUploadedFile : String
  fixLabel : String
  deriving DecidableEq, Repr

namespace Settings

/-- The settings of a conversation that sets nothing. -/
def standard : Settings where
  timeout := 1000
  sendButton := "Send"
  inputPlaceholder := "Type something..."
  uploadFile := "Upload File..."
  uploadedFile := "Uploaded Successfully"
  notUploadedFile := "Failed to upload file"
  fixLabel := "Fix"

instance : Inhabited Settings := ⟨standard⟩

/-- Nanoseconds in a millisecond. -/
def nanos : Nat := 1000000

/-- The delay before a message, in nanoseconds. -/
def delayNanos (c : Settings) : Nat := c.timeout * nanos

/-- The delay of the notice that follows a message: a tenth of the delay before it. -/
def updateDelayNanos (c : Settings) : Nat := c.delayNanos / 10

end Settings

open Decode

variable {σ : Type} [Source σ]

namespace Settings

/-- How settings are decoded. -/
def shape : Shape σ Settings where
  name := "struct ContentConfig"
  fields := [("timeout_ms", .defaulted), ("send_button_text", .defaulted),
    ("input_placeholder", .defaulted), ("upload_file_text", .defaulted),
    ("uploaded_file_text", .defaulted), ("not_uploaded_file_text", .defaulted),
    ("fixme_message", .defaulted)]
  start := standard
  set field s c :=
    match field with
    | "timeout_ms" => do return { c with timeout := ← natural "u64" s }
    | "send_button_text" => do return { c with sendButton := ← string s }
    | "input_placeholder" => do return { c with inputPlaceholder := ← string s }
    | "upload_file_text" => do return { c with uploadFile := ← string s }
    | "uploaded_file_text" => do return { c with uploadedFile := ← string s }
    | "not_uploaded_file_text" => do return { c with notUploadedFile := ← string s }
    | "fixme_message" => do return { c with fixLabel := ← string s }
    | _ => .ok c

/-- Decodes settings. -/
def decode (s : σ) : Decoded Settings := shape.decode s

/-- The written form. -/
def toJson (c : Settings) : Json := .object [
  ("fixme_message", .string c.fixLabel),
  ("input_placeholder", .string c.inputPlaceholder),
  ("not_uploaded_file_text", .string c.notUploadedFile),
  ("send_button_text", .string c.sendButton),
  ("timeout_ms", .nat c.timeout),
  ("upload_file_text", .string c.uploadFile),
  ("uploaded_file_text", .string c.uploadedFile)]

end Settings

/-! ### The input field -/

/-- The state of the input field. -/
structure InputState where
  /-- Does the field take input? -/
  enabled : Bool
  /-- Does it take several lines? -/
  textArea : Bool
  kind : String
  required : Option Bool
  min : Option Binary64
  max : Option Binary64
  step : Option Binary64
  suggestions : Option (List String)
  placeholder : String
  fastScroll : Bool
  deriving DecidableEq, Repr

namespace InputState

/-- A closed one-line text field. -/
def standard : InputState where
  enabled := false
  textArea := false
  kind := "text"
  required := none
  min := none
  max := none
  step := none
  suggestions := none
  placeholder := ""
  fastScroll := false

instance : Inhabited InputState := ⟨standard⟩

/-- The field after an answer: what was set for one question is taken back. -/
def resetPrompt (s : InputState) : InputState := { s with textArea := false, placeholder := "" }

/-- How a field is decoded. -/
def shape : Shape σ InputState where
  name := "struct InputState"
  fields := [("enabled", .required), ("text_area", .required), ("kind", .required),
    ("required", .optional), ("min", .optional), ("max", .optional), ("step", .optional),
    ("suggestions", .optional), ("placeholder", .required), ("fast_scroll", .required)]
  start := standard
  set field s i :=
    match field with
    | "enabled" => do return { i with enabled := ← bool s }
    | "text_area" => do return { i with textArea := ← bool s }
    | "kind" => do return { i with kind := ← string s }
    | "required" => do return { i with required := ← option bool s }
    | "min" => do return { i with min := ← option real s }
    | "max" => do return { i with max := ← option real s }
    | "step" => do return { i with step := ← option real s }
    | "suggestions" => do return { i with suggestions := ← option (list string) s }
    | "placeholder" => do return { i with placeholder := ← string s }
    | "fast_scroll" => do return { i with fastScroll := ← bool s }
    | _ => .ok i

/-- Decodes a field. -/
def decode (s : σ) : Decoded InputState := shape.decode s

/-- The written form of a double. -/
def realToJson (x : Binary64) : Json := .number (.real x)

/-- The written form. -/
def toJson (i : InputState) : Json := .object [
  ("enabled", .bool i.enabled),
  ("fast_scroll", .bool i.fastScroll),
  ("kind", .string i.kind),
  ("max", .opt realToJson i.max),
  ("min", .opt realToJson i.min),
  ("placeholder", .string i.placeholder),
  ("required", .opt .bool i.required),
  ("step", .opt realToJson i.step),
  ("suggestions", .opt (fun xs => .array (xs.map .string)) i.suggestions),
  ("text_area", .bool i.textArea)]

end InputState

end Dialogue
