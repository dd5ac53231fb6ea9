import Dialogue.Json.Tree
import Dialogue.Text.Quoted
/-!
# What documents are decoded from

A document can be decoded from a value (`Json`), straight from a text (`Tree`), or from a part of a
text that had to be set aside until it was known what it is (`Aside`). A `Source` shows its
outermost layer (`View`) and can be turned into a value. The three differ in what they say of an
array with too many elements and of a choice that is written wrongly; `DecodeError` has a case for
each thing that can be wrong with a document.
-/

namespace Dialogue

/-! ### Errors -/

/-- What was found in a place, for error messages. -/
inductive Found where
  | null
  | bool (value : Bool)
  | number (value : Number)
  | string (value : String)
  | sequence
  | map
  deriving DecidableEq, Repr

/-- How a finding is named. -/
def Found.text : Found → String
  | .null => "null"
  | .bool true => "boolean `true`"
  | .bool false => "boolean `false`"
  | .number (.int n) => "integer `" ++ toString n ++ "`"
  | .number (.real x) => "floating point `" ++ documentNumbers.text x ++ "`"
  | .string s => "string " ++ Quoted.quote s
  | .sequence => "sequence"
  | .map => "map"

/-- Why a document cannot be decoded. -/
inductive DecodeError where
  /-- The text is no JSON, or a part that is needed has no value. -/
  | notJson
  | invalidType (found : Found) (expected : String)
  | invalidValue (found : Found) (expected : String)
  | invalidLength (length : Nat) (expected : String)
  | unknownVariant (name : String) (known : List String)
  | missingField (name : String)
  | duplicateField (name : String)
  /-- An array in a text goes on after its last element. -/
  | trailing
  /-- A text has something else where a choice has to stand. -/
  | noValue
  /-- Any other cause, in words. -/
  | other (text : String)
  deriving DecidableEq, Repr

/-- The message of an error. -/
def DecodeError.message : DecodeError → String
  | .notJson => "<json error>"
  | .invalidType found expected => "invalid type: " ++ found.text ++ ", expected " ++ expected
  | .invalidValue found expected => "invalid value: " ++ found.text ++ ", expected " ++ expected
  | .invalidLength n expected => "invalid length " ++ toString n ++ ", expected " ++ expected
  | .unknownVariant name known =>
    "unknown variant `" ++ name ++ "`, expected one of "
      ++ ", ".intercalate (known.map fun k => "`" ++ k ++ "`")
  | .missingField name => "missing field `" ++ name ++ "`"
  | .duplicateField name => "duplicate field `" ++ name ++ "`"
  | .trailing => "trailing characters"
  | .noValue => "expected value"
  | .other text => text

/-- The result of decoding. -/
abbrev Decoded (α : Type) := Except DecodeError α

/-! ### Sources -/

/-- The outermost layer of a source. A member's name is `none` when it is unreadable. -/
inductive View (σ : Type) where
  | null
  | bool (value : Bool)
  | number (value : Number)
  | string (value : String)
  | array (items : List σ)
  | object (members : List (Option String × σ))
  | unreadable

/-- Something that a document can be decoded from. -/
class Source (σ : Type) where
  /-- The outermost layer. -/
  view : σ → View σ
  /-- The value; `none` when a part is unreadable. -/
  toJson? : σ → Option Json
  /-- The complaint about an array of `total` elements of which only `taken` are used. -/
  surplus : (total taken : Nat) → DecodeError
  /-- The complaint about something that is neither a text nor a map. -/
  notChoice : Found → DecodeError
  /-- Is a map read member by member, so that the first one is looked at before the others are
  known? -/
  streamed : Bool
  /-- The complaint about a map that has not exactly one member. -/
  notSingle : DecodeError

/-- The view of a value. -/
def Json.view : Json → View Json
  | .null => .null
  | .bool b => .bool b
  | .number n => .number n
  | .string s => .string s
  | .array xs => .array xs
  | .object ms => .object (ms.map fun m => (some m.1, m.2))

instance : Source Json where
  view := Json.view
  toJson? := some
  surplus total _ := .invalidLength total "fewer elements in array"
  notChoice found := .invalidType found "string or map"
  streamed := false
  notSingle := .invalidValue .map "map with a single key"

/-- The view of a tree. -/
def Tree.view : Tree → View Tree
  | .null => .null
  | .bool b => .bool b
  | .number n => .number n
  | .string s => .string s
  | .array xs => .array xs
  | .object ms => .object ms
  | .unreadable => .unreadable

instance : Source Tree where
  view := Tree.view
  toJson? := Tree.toJson?
  surplus _ _ := .trailing
  notChoice _ := .noValue
  streamed := true
  notSingle := .noValue

/-- A part of a text that was set aside before it was decoded. -/
structure Aside where
  tree : Tree

/-- The number of elements, in words. -/
def elementCount (n : Nat) : String :=
  if n = 1 then "1 element" else toString n ++ " elements"

/-- The view of a part that was set aside. -/
def Aside.view (a : Aside) : View Aside :=
  match a.tree with
  | .null => .null
  | .bool b => .bool b
  | .number n => .number n
  | .string s => .string s
  | .array xs => .array (xs.map Aside.mk)
  | .object ms => .object (ms.map fun m => (m.1, ⟨m.2⟩))
  | .unreadable => .unreadable

instance : Source Aside where
  view := Aside.view
  toJson? a := a.tree.toJson?
  surplus total taken := .invalidLength total (elementCount taken ++ " in sequence")
  notChoice found := .invalidType found "string or map"
  streamed := false
  notSingle := .invalidValue .map "map with a single key"

/-- A source whose parts can be set aside. -/
class Streamed (σ : Type) extends Source σ where
  /-- What is left of a part once it is set aside, and how that is decoded. -/
  Part : Type
  part : Source Part
  setAside : σ → Decoded Part

/-- A value needs no setting aside. -/
instance : Streamed Json where
  Part := Json
  part := inferInstance
  setAside := .ok

/-- A part of a text is read completely before it is set aside. -/
instance : Streamed Tree where
  Part := Aside
  part := inferInstance
  setAside t := if t.toJson?.isSome then .ok ⟨t⟩ else .error .notJson

end Dialogue
