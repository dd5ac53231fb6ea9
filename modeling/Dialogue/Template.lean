import Dialogue.Record
/-!
# Filling in placeholders

A text may hold placeholders: a name of ASCII letters, digits and underscores between two pairs of
braces. `fill` replaces them from left to right in one pass; what it puts in is not looked at again.
A name that has no value stands for itself.
-/

namespace Dialogue.Template

/-- May the character occur in the name of a placeholder? -/
def isNameChar (c : Char) : Bool := c.isAlphanum || c = '_'

/-- The placeholder at the front of a text: its name, and what follows it. -/
def placeholder? : List Char → Option (List Char × List Char)
  | '\x7b' :: '\x7b' :: cs =>
    match cs.takeWhile isNameChar, cs.dropWhile isNameChar with
    | [], _ => none
    | name, '\x7d' :: '\x7d' :: rest => some (name, rest)
    | _, _ => none
  | _ => none

/-! ### A length fact for the recursion -/

theorem length_dropWhile_le (p : Char → Bool) :
    ∀ cs : List Char, (cs.dropWhile p).length ≤ cs.length
  | [] => Nat.le_refl _
  | c :: cs => by
    rw [List.dropWhile_cons]
    split
    · exact Nat.le_succ_of_le (length_dropWhile_le p cs)
    · exact Nat.le_refl _

/-- What follows a placeholder is shorter than the text that starts with it. -/
theorem length_placeholder?_lt {cs name rest : List Char}
    (h : placeholder? cs = some (name, rest)) : rest.length < cs.length := by
  unfold placeholder? at h
  split at h
  · next cs' =>
    have hle := length_dropWhile_le isNameChar cs'
    split at h
    · cases h
    · next heq _ =>
      cases h
      rw [heq] at hle
      simp only [List.length_cons] at hle ⊢
      omega
    · cases h
  · cases h

/-! ### The substitution -/

/-- Replaces each placeholder by the value of its name. -/
def fill (value : List Char → List Char) (cs : List Char) : List Char :=
  match _h : placeholder? cs with
  | some (name, rest) => value name ++ fill value rest
  | none =>
    match cs with
    | [] => []
    | c :: cs => c :: fill value cs
termination_by cs.length
decreasing_by
  · exact length_placeholder?_lt ‹_›
  · simp

/-- The value of a name in a record: the text of its entry, or the name itself. -/
def valueIn (r : Record) (name : List Char) : List Char :=
  ((r.text? (String.ofList name)).map String.toList).getD name

/-- The text with its placeholders filled in from a record. -/
def fillIn (text : String) (r : Record) : String := String.ofList (fill (valueIn r) text.toList)

end Dialogue.Template
