import Dialogue.Json.Printer
/-!
# The record of a run

A `Record` maps keys to the values that were collected. Its operations are those of sorted
entries (`Entries`), seen through `get?`.
-/

namespace Dialogue

/-- Values by key, sorted, each key once. -/
structure Record where
  entries : List (String × Json)
  deriving Inhabited

namespace Record

/-- The record without entries. -/
def empty : Record := ⟨[]⟩

/-- The record with the given entries; of two with one key the later counts. -/
def ofList (xs : List (String × Json)) : Record := ⟨Entries.ofList xs⟩

/-- The value under a key. -/
def get? (r : Record) (key : String) : Option Json := Entries.get? key r.entries

/-- Enters a value under a key. -/
def set (r : Record) (key : String) (value : Json) : Record :=
  ⟨Entries.insert key value r.entries⟩

/-- Is there a value under the key? -/
def contains (r : Record) (key : String) : Bool := (r.get? key).isSome

/-- The number of entries. -/
def size (r : Record) : Nat := r.entries.length

/-- The text of the value under a key; `null` counts as absent. -/
def text? (r : Record) (key : String) : Option String :=
  ((r.get? key).bind Json.nonNull?).map Json.text

/-- The written form. -/
def toJson (r : Record) : Json := .object r.entries

end Record

end Dialogue
