import Dialogue.Json.Token
/-!
# JSON as written

A `Tree` is a document in the shape in which it was written: the members of an object in their
order, with repetitions. A part that has no value is `unreadable`: a number beyond the doubles, a
string with half of a surrogate pair, or anything nested deeper than `Tree.greatestDepth`. A tree
without unreadable parts has a value, `Tree.toJson?`, in which members are sorted by name and of
two members with one name the later counts.
-/

namespace Dialogue

/-- A document as written. The name of a member is `none` when it is unreadable. -/
inductive Tree where
  | null
  | bool (value : Bool)
  | number (value : Number)
  | string (value : String)
  | array (items : List Tree)
  | object (members : List (Option String × Tree))
  | unreadable
  deriving Inhabited

namespace Tree

/-- Arrays and objects nested deeper than this are unreadable. -/
def greatestDepth : Nat := 127

/-! ### The value of a tree -/

mutual

/-- The value of a tree without unreadable parts. -/
def toJson? : Tree → Option Json
  | .null => some .null
  | .bool b => some (.bool b)
  | .number n => some (.number n)
  | .string s => some (.string s)
  | .array xs => (itemsToJson? xs).map .array
  | .object ms => (membersToJson? ms).map Json.ofMembers
  | .unreadable => none

/-- The values of the items of an array. -/
def itemsToJson? : List Tree → Option (List Json)
  | [] => some []
  | x :: xs => do return (← toJson? x) :: (← itemsToJson? xs)

/-- The values of the members of an object, in their order. -/
def membersToJson? : List (Option String × Tree) → Option (List (String × Json))
  | [] => some []
  | (n, x) :: xs => do return (← n, ← toJson? x) :: (← membersToJson? xs)

end

/-! ### Building a tree from tokens -/

/-- An array or object under way, its contents in reverse. -/
inductive Frame where
  | array (items : List Tree)
  | object (members : List (Option String × Tree)) (name : Option String)

/-- What may come next. -/
inductive Expect where
  | value
  | firstItem
  | firstName
  | name
  | colon
  | separator
  | finish (result : Tree)

/-- A tree under way: the open arrays and objects, the innermost first. -/
structure Builder where
  frames : List Frame
  expect : Expect

namespace Builder

/-- Puts a finished value into the innermost frame. -/
def supply (frames : List Frame) (v : Tree) : Builder :=
  match frames with
  | [] => ⟨[], .finish v⟩
  | .array xs :: fs => ⟨.array (v :: xs) :: fs, .separator⟩
  | .object ms n :: fs => ⟨.object ((n, v) :: ms) n :: fs, .separator⟩

/-- Ends the innermost frame. -/
def close : List Frame → Option Builder
  | [] => none
  | f :: fs =>
    let v := match f with
      | .array xs => Tree.array xs.reverse
      | .object ms _ => Tree.object ms.reverse
    some (supply fs (if greatestDepth ≤ fs.length then .unreadable else v))

/-- Is the innermost frame an array? -/
def inArray : List Frame → Bool
  | .array _ :: _ => true
  | _ => false

/-- A token where a value has to stand. -/
def takeValue (frames : List Frame) : Token → Option Builder
  | .null => some (supply frames .null)
  | .bool b => some (supply frames (.bool b))
  | .number n => some (supply frames (n.elim .unreadable .number))
  | .string s => some (supply frames (s.elim .unreadable .string))
  | .openArray => some ⟨.array [] :: frames, .firstItem⟩
  | .openObject => some ⟨.object [] none :: frames, .firstName⟩
  | _ => none

/-- A token where the name of a member has to stand. -/
def takeName (frames : List Frame) : Token → Option Builder
  | .string s =>
    match frames with
    | .object ms _ :: fs => some ⟨.object ms s :: fs, .colon⟩
    | _ => none
  | _ => none

/-- Takes one token. -/
def step (b : Builder) (t : Token) : Option Builder :=
  match b.expect, t with
  | .firstItem, .closeArray => close b.frames
  | .firstItem, t => takeValue b.frames t
  | .value, t => takeValue b.frames t
  | .firstName, .closeObject => close b.frames
  | .firstName, t => takeName b.frames t
  | .name, t => takeName b.frames t
  | .colon, .colon => some ⟨b.frames, .value⟩
  | .separator, .comma => some ⟨b.frames, if inArray b.frames then .value else .name⟩
  | .separator, .closeArray => if inArray b.frames then close b.frames else none
  | .separator, .closeObject => if inArray b.frames then none else close b.frames
  | _, _ => none

end Builder

/-- The tree of a text; `none` when the text is not written as JSON. -/
def read? (text : String) : Option Tree := do
  let tokens ← Token.scan text.toList
  let b ← tokens.foldlM Builder.step ⟨[], .value⟩
  match b.expect with
  | .finish v => some v
  | _ => none

end Tree

/-- The value of a text; `none` when it is no JSON or has unreadable parts. -/
def Json.read? (text : String) : Option Json := (Tree.read? text).bind Tree.toJson?

end Dialogue
