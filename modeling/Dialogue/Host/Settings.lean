import Dialogue.Content.Settings
/-!
# Settings of the program

`HostSettings` come from a settings file; what is given on the command line goes before it. A file
that is missing or cannot be read counts as one that sets nothing.
-/

namespace Dialogue

/-- The settings of the program. -/
structure HostSettings where
  content : Settings
  /-- The number of the document to run, counted from 0. -/
  document : Nat
  /-- Is the record shown at the end? -/
  dumpRecord : Bool
  deriving DecidableEq, Repr

namespace HostSettings

/-- The settings of a file that sets nothing. -/
def standard : HostSettings := ⟨.standard, 0, false⟩

instance : Inhabited HostSettings := ⟨standard⟩

open Decode

variable {σ : Type} [Source σ]

/-- How settings are decoded. -/
def shape : Shape σ HostSettings where
  name := "struct HostConfig"
  fields := [("content", .defaulted), ("document_index", .defaulted), ("dump_record", .defaulted)]
  start := standard
  set field s h :=
    match field with
    | "content" => do return { h with content := ← Settings.decode s }
    | "document_index" => do return { h with document := ← natural "usize" s }
    | "dump_record" => do return { h with dumpRecord := ← bool s }
    | _ => .ok h

/-- Decodes settings. -/
def decode (s : σ) : Decoded HostSettings := shape.decode s

/-- The settings of a file, whose text is given if there is one. -/
def load (file : Option String) : HostSettings :=
  match file.map (decodeText decode) with
  | some (.ok h) => h
  | _ => standard

/-- The settings with what the command line says put before them. -/
def override (h : HostSettings) (document timeout : Option Nat) (dump : Bool) : HostSettings where
  content := { h.content with timeout := timeout.getD h.content.timeout }
  document := document.getD h.document
  dumpRecord := h.dumpRecord || dump

/-- The written form. -/
def toJson (h : HostSettings) : Json := .object [
  ("content", h.content.toJson),
  ("document_index", .nat h.document),
  ("dump_record", .bool h.dumpRecord)]

end HostSettings

end Dialogue
