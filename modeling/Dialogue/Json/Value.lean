import Dialogue.Decimal.Shortest
import Dialogue.Entries
/-!
# JSON values

`Json` is the type of the values that a conversation collects, stores and reports. The
members of an object are listed with their names; the values that come out of a document
have them sorted by name and each name once.

A whole number between `-2^63` and `2^64 - 1` stays a whole number; every other number is
a double.
-/

namespace Dialogue

/-- A number of a document: whole, or a double. -/
inductive Number where
  | int (value : Int)
  | real (value : Binary64)
  deriving DecidableEq, Repr, Inhabited

/-- A JSON value. -/
inductive Json where
  | null
  | bool (value : Bool)
  | number (value : Number)
  | string (value : String)
  | array (items : List Json)
  | object (members : List (String × Json))
  deriving Inhabited

namespace Json

/-- A whole number as a value. -/
def int (n : Int) : Json := .number (.int n)

/-- A natural number as a value. -/
def nat (n : Nat) : Json := .int n

/-- An optional value; absence is `null`. -/
def opt {α : Type} (encode : α → Json) : Option α → Json
  | none => .null
  | some a => encode a

/-- Is this `null`? -/
def isNull : Json → Bool
  | .null => true
  | _ => false

/-- The value as an option, `null` being absence. -/
def nonNull? (v : Json) : Option Json := if v.isNull then none else some v

/-! ### Members of an object -/

/-- The object with the given members, sorted by name; of two with one name the later counts. -/
def ofMembers (members : List (String × Json)) : Json := .object (Entries.ofList members)

/-- The member of an object with the given name. -/
def member? (v : Json) (name : String) : Option Json :=
  match v with
  | .object members => Entries.get? name members
  | _ => none

/-- The items of an array; anything else has none. -/
def items : Json → List Json
  | .array xs => xs
  | _ => []

/-- The text of a string. -/
def string? : Json → Option String
  | .string s => some s
  | _ => none

/-- The value of a boolean. -/
def bool? : Json → Option Bool
  | .bool b => some b
  | _ => none

/-- The value of a natural number. -/
def nat? : Json → Option Nat
  | .number (.int (.ofNat n)) => some n
  | _ => none

mutual

/-- Equality of values, members compared in order. -/
def beq : Json → Json → Bool
  | .null, .null => true
  | .bool a, .bool b => a == b
  | .number a, .number b => a == b
  | .string a, .string b => a == b
  | .array xs, .array ys => beqItems xs ys
  | .object xs, .object ys => beqMembers xs ys
  | _, _ => false

/-- Equality of item lists. -/
def beqItems : List Json → List Json → Bool
  | [], [] => true
  | x :: xs, y :: ys => beq x y && beqItems xs ys
  | _, _ => false

/-- Equality of member lists. -/
def beqMembers : List (String × Json) → List (String × Json) → Bool
  | [], [] => true
  | (n, x) :: xs, (m, y) :: ys => n == m && beq x y && beqMembers xs ys
  | _, _ => false

end

instance : BEq Json := ⟨beq⟩

end Json

end Dialogue
