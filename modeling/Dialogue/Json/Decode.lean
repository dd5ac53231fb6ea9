import Dialogue.Json.Source
/-!
# Decoding documents

The decoders of texts, numbers, lists and records. A record (`Shape`) may be written as a map or as
an array of its fields in order. Fields are taken in the order in which they are written, so of two
mistakes the first one is reported; a field that is missing is noticed last, in the order of the
declaration. Unknown fields are passed over.
-/

namespace Dialogue.Decode

variable {σ : Type} [Source σ] {α : Type}

/-- The complaint about a view that is not what was expected. -/
def mismatch (v : View σ) (expected : String) : DecodeError :=
  match v with
  | .null => .invalidType .null expected
  | .bool b => .invalidType (.bool b) expected
  | .number n => .invalidType (.number n) expected
  | .string s => .invalidType (.string s) expected
  | .array _ => .invalidType .sequence expected
  | .object _ => .invalidType .map expected
  | .unreadable => .notJson

/-! ### Single values -/

/-- A text. -/
def string (s : σ) : Decoded String :=
  match Source.view s with
  | .string t => .ok t
  | v => .error (mismatch v "a string")

/-- A boolean. -/
def bool (s : σ) : Decoded Bool :=
  match Source.view s with
  | .bool b => .ok b
  | v => .error (mismatch v "a boolean")

/-- A natural number of 64 bits, called `expected` in messages. -/
def natural (expected : String) (s : σ) : Decoded Nat :=
  match Source.view s with
  | .number (.int (.ofNat n)) =>
    if n < Nat.pow 2 64 then .ok n else .error (.invalidValue (.number (.int n)) expected)
  | .number (.int n) => .error (.invalidValue (.number (.int n)) expected)
  | v => .error (mismatch v expected)

/-- A double. Whole numbers are rounded to one. -/
def real (s : σ) : Decoded Binary64 :=
  match Source.view s with
  | .number (.real x) => .ok x
  | .number (.int n) =>
    match Binary64.ofInt? n with
    | some x => .ok x
    | none => .error (.invalidValue (.number (.int n)) "f64")
  | v => .error (mismatch v "f64")

/-- Any value. -/
def any (s : σ) : Decoded Json :=
  match Source.toJson? s with
  | some v => .ok v
  | none => .error .notJson

/-- A value that may be absent: `null` is absence. -/
def option (decode : σ → Decoded α) (s : σ) : Decoded (Option α) :=
  match Source.view s with
  | .null => .ok none
  | _ => (decode s).map some

/-- A list. -/
def list (decode : σ → Decoded α) (s : σ) : Decoded (List α) :=
  match Source.view s with
  | .array xs => xs.mapM decode
  | v => .error (mismatch v "a sequence")

/-! ### Choices without contents -/

/-- The contents that may follow the name of a choice: nothing, or `null`. -/
def nothing (s : σ) : Decoded Unit :=
  match Source.view s with
  | .null => .ok ()
  | v => .error (mismatch v "unit")

/-- A choice by name, or as a map from the name to `null`. -/
def choice (ofName : String → Decoded α) (s : σ) : Decoded α :=
  match Source.view s with
  | .string name => ofName name
  | .object [] => .error (Source.notSingle σ)
  | .object ((name, content) :: rest) => do
    if !Source.streamed σ && !rest.isEmpty then throw (Source.notSingle σ)
    let some name := name | throw .notJson
    let a ← ofName name
    nothing content
    if rest.isEmpty then pure a else throw (Source.notSingle σ)
  | .null => .error (Source.notChoice σ .null)
  | .bool b => .error (Source.notChoice σ (.bool b))
  | .number n => .error (Source.notChoice σ (.number n))
  | .array _ => .error (Source.notChoice σ .sequence)
  | .unreadable => .error .notJson

/-! ### Records -/

/-- Whether a field has to be written: always, in an array only, or never. -/
inductive Presence where
  | required
  | optional
  | defaulted
  deriving DecidableEq, Repr

/-- How a record is decoded: its name and fields, the record to start from, and how a field is
entered into it. -/
structure Shape (σ α : Type) where
  name : String
  fields : List (String × Presence)
  start : α
  set : String → σ → α → Decoded α

namespace Shape

/-- Is there a field of that name? -/
def hasField (sh : Shape σ α) (name : String) : Bool := sh.fields.any (·.1 = name)

/-- Takes one member of a map. The state holds the names seen so far. -/
def takeMember (sh : Shape σ α) (state : List String × α) (m : Option String × σ) :
    Decoded (List String × α) :=
  match m.1 with
  | none => .error .notJson
  | some name =>
    if !sh.hasField name then .ok state
    else if state.1.contains name then .error (.duplicateField name)
    else (sh.set name m.2 state.2).map fun a => (name :: state.1, a)

/-- The first required field that was not seen. -/
def missing? (sh : Shape σ α) (seen : List String) : Option String :=
  (sh.fields.find? fun f => f.2 = .required && !seen.contains f.1).map (·.1)

/-- Decodes the members of a map. -/
def ofMembers (sh : Shape σ α) (members : List (Option String × σ)) : Decoded α := do
  let (seen, a) ← members.foldlM sh.takeMember ([], sh.start)
  match sh.missing? seen with
  | some name => .error (.missingField name)
  | none => .ok a

/-- Decodes the elements of an array, field by field. `index` counts the fields passed. -/
def ofItems (sh : Shape σ α) (total index : Nat) :
    List (String × Presence) → List σ → α → Decoded α
  | [], [], a => .ok a
  | [], _ :: _, _ => .error (Source.surplus σ total index)
  | f :: fs, [], a =>
    if f.2 = .defaulted then ofItems sh total (index + 1) fs [] a
    else .error (.invalidLength index (sh.name ++ " with " ++ elementCount sh.fields.length))
  | f :: fs, x :: xs, a => do ofItems sh total (index + 1) fs xs (← sh.set f.1 x a)

/-- Decodes a record. -/
def decode (sh : Shape σ α) (s : σ) : Decoded α :=
  match Source.view s with
  | .object members => sh.ofMembers members
  | .array items => sh.ofItems items.length 0 sh.fields items sh.start
  | v => .error (mismatch v sh.name)

/-- Decodes a record that may only be written as a map. -/
def decodeMap (sh : Shape σ α) (s : σ) : Decoded α :=
  match Source.view s with
  | .object members => sh.ofMembers members
  | v => .error (mismatch v sh.name)

end Shape

end Dialogue.Decode
