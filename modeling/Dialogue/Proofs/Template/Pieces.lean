import Dialogue.Template
/-!
# The pieces of a template

A text consists of placeholders and of characters that belong to none. It is cut from left to right:
where a placeholder begins the whole of it is one piece, and any other character is a piece by
itself. Filling in puts a value for each placeholder and keeps the characters, so what is put in is
not looked at again.

* `placeholder?_eq_some_iff` — what a placeholder is.
* `fill_eq` — filling in goes piece by piece.
* `fillIn_leftmost` — the first placeholder is replaced, and the rest is filled in.
-/

namespace Dialogue

/-- What is shown for a name: the text of its value, or the name when there is none or it is
`null`. -/
def Record.standIn (r : Record) (name : String) : String :=
  match r.get? name with
  | none | some .null => name
  | some v => v.text

namespace Template

/-! ## Placeholders -/

/-- A name of a placeholder: letters, digits and underscores, at least one. -/
def IsName (name : List Char) : Prop := name ≠ [] ∧ ∀ c ∈ name, isNameChar c = true

/-- A name between two pairs of braces. -/
def hole (name : List Char) : List Char := '\x7b' :: '\x7b' :: (name ++ ['\x7d', '\x7d'])

/-- A name between two pairs of braces, as a text. -/
def placeholder (name : String) : String := "\x7b\x7b" ++ name ++ "\x7d\x7d"

/-- The text has a placeholder of that name somewhere. -/
def Occurs (name text : String) : Prop :=
  IsName name.toList ∧ ∃ before after, text = before ++ placeholder name ++ after

variable {value : List Char → List Char} {c : Char} {cs name rest : List Char}

theorem toList_placeholder (name : String) : (placeholder name).toList = hole name.toList := by
  simp [placeholder, hole, String.toList_append]

/-- A text begins with a placeholder just if a name between pairs of braces stands there. -/
theorem placeholder?_eq_some_iff :
    placeholder? cs = some (name, rest) ↔ IsName name ∧ cs = hole name ++ rest := by
  constructor
  · intro h
    unfold placeholder? at h
    split at h
    · next inner =>
      have hsplit := List.takeWhile_append_dropWhile (p := isNameChar) (l := inner)
      have hname : ∀ c ∈ inner.takeWhile isNameChar, isNameChar c = true :=
        fun c hc => List.all_eq_true.mp List.all_takeWhile c hc
      split at h
      · cases h
      · next hrest hne =>
        obtain ⟨rfl, rfl⟩ := Prod.mk.inj (Option.some.inj h)
        rw [hrest] at hsplit
        refine ⟨⟨hne, hname⟩, ?_⟩
        rw [hole, List.cons_append, List.cons_append, List.append_assoc]
        exact congrArg _ (congrArg _ hsplit.symm)
      · cases h
    · cases h
  · rintro ⟨⟨hne, hname⟩, rfl⟩
    have hbrace : isNameChar '\x7d' = false := by decide
    have htake : (name ++ '\x7d' :: '\x7d' :: rest).takeWhile isNameChar = name := by
      rw [List.takeWhile_append_of_pos hname]
      simp [hbrace]
    have hdrop : (name ++ '\x7d' :: '\x7d' :: rest).dropWhile isNameChar =
        '\x7d' :: '\x7d' :: rest := by
      rw [List.dropWhile_append_of_pos hname]
      simp [hbrace]
    have hcs : hole name ++ rest = '\x7b' :: '\x7b' :: (name ++ '\x7d' :: '\x7d' :: rest) := by
      simp [hole]
    rw [hcs, placeholder?, htake, hdrop]
    cases name with
    | nil => exact absurd rfl hne
    | cons c name => rfl

theorem occurs_iff {name text : String} : Occurs name text ↔ IsName name.toList ∧
    ∃ before after, text.toList = before ++ hole name.toList ++ after := by
  constructor
  · rintro ⟨hname, before, after, rfl⟩
    exact ⟨hname, before.toList, after.toList, by
      simp [String.toList_append, toList_placeholder]⟩
  · rintro ⟨hname, before, after, htext⟩
    refine ⟨hname, String.ofList before, String.ofList after, ?_⟩
    rw [← String.toList_inj, htext]
    simp [String.toList_append, toList_placeholder]

/-! ## Filling in, step by step -/

theorem fill_of_some (h : placeholder? cs = some (name, rest)) :
    fill value cs = value name ++ fill value rest := by
  rw [fill]
  split
  · next heq =>
    obtain ⟨rfl, rfl⟩ := Prod.mk.inj (Option.some.inj (heq.symm.trans h))
    rfl
  · next heq => cases heq.symm.trans h

theorem fill_cons_of_none (h : placeholder? (c :: cs) = none) :
    fill value (c :: cs) = c :: fill value cs := by
  rw [fill]
  split
  · next heq => cases heq.symm.trans h
  · rfl

@[simp] theorem fill_nil : fill value [] = [] := by
  rw [fill]
  rfl

/-! ## Pieces -/

/-- A part of a text. -/
inductive Piece where
  /-- A character that belongs to no placeholder. -/
  | char (c : Char)
  /-- A placeholder of that name. -/
  | hole (name : List Char)

namespace Piece

/-- The piece as it stands in the text. -/
def source : Piece → List Char
  | char c => [c]
  | hole name => Template.hole name

/-- The piece as it is shown. -/
def shown (value : List Char → List Char) : Piece → List Char
  | char c => [c]
  | hole name => value name

end Piece

/-- A text, cut from left to right. -/
def pieces (cs : List Char) : List Piece :=
  match _h : placeholder? cs with
  | some (name, rest) => .hole name :: pieces rest
  | none =>
    match cs with
    | [] => []
    | c :: cs => .char c :: pieces cs
termination_by cs.length
decreasing_by
  · exact length_placeholder?_lt ‹_›
  · simp

theorem pieces_of_some (h : placeholder? cs = some (name, rest)) :
    pieces cs = .hole name :: pieces rest := by
  rw [pieces]
  split
  · next heq =>
    obtain ⟨rfl, rfl⟩ := Prod.mk.inj (Option.some.inj (heq.symm.trans h))
    rfl
  · next heq => cases heq.symm.trans h

theorem pieces_cons_of_none (h : placeholder? (c :: cs) = none) :
    pieces (c :: cs) = .char c :: pieces cs := by
  rw [pieces]
  split
  · next heq => cases heq.symm.trans h
  · rfl

@[simp] theorem pieces_nil : pieces [] = [] := by
  rw [pieces]
  rfl

/-- The pieces of a text make it up. -/
theorem flatMap_source_pieces (cs : List Char) : (pieces cs).flatMap Piece.source = cs := by
  fun_induction pieces cs with
  | case1 cs name rest h ih =>
      rw [List.flatMap_cons, ih]
      exact (placeholder?_eq_some_iff.mp h).2.symm
  | case2 => rfl
  | case3 c cs h ih =>
      rw [List.flatMap_cons, ih]
      rfl

/-- Filling in goes piece by piece. -/
theorem fill_eq (value : List Char → List Char) (cs : List Char) :
    fill value cs = (pieces cs).flatMap (Piece.shown value) := by
  fun_induction pieces cs with
  | case1 cs name rest h ih =>
      rw [fill_of_some h, ih, List.flatMap_cons]
      rfl
  | case2 => simp
  | case3 c cs h ih =>
      rw [fill_cons_of_none h, ih, List.flatMap_cons]
      rfl

/-- The placeholders among the pieces are placeholders of the text. -/
theorem exists_of_hole_mem (h : .hole name ∈ pieces cs) :
    IsName name ∧ ∃ before after, cs = before ++ hole name ++ after := by
  fun_induction pieces cs with
  | case1 cs name' rest hcs ih =>
      obtain ⟨hname', rfl⟩ := placeholder?_eq_some_iff.mp hcs
      rcases List.mem_cons.mp h with heq | hrest
      · obtain rfl : name = name' := by simpa using heq
        exact ⟨hname', [], rest, rfl⟩
      · obtain ⟨hname, before, after, rfl⟩ := ih hrest
        exact ⟨hname, hole name' ++ before, after, by simp⟩
  | case2 => cases h
  | case3 c cs hnone ih =>
      rcases List.mem_cons.mp h with heq | hrest
      · cases heq
      · obtain ⟨hname, before, after, rfl⟩ := ih hrest
        exact ⟨hname, c :: before, after, rfl⟩

/-- Before the first placeholder nothing is changed. -/
theorem fill_append {before : List Char}
    (h : ∀ before' after', before = before' ++ after' → after' ≠ [] →
      placeholder? (after' ++ rest) = none) :
    fill value (before ++ rest) = before ++ fill value rest := by
  induction before with
  | nil => rfl
  | cons c before ih =>
      have hnone : placeholder? (c :: (before ++ rest)) = none :=
        h [] (c :: before) rfl (List.cons_ne_nil _ _)
      rw [List.cons_append, fill_cons_of_none hnone, List.cons_append, ih]
      rintro before' after' rfl hne
      exact h (c :: before') after' rfl hne

/-! ## Filling in from a record -/

theorem valueIn_toList (r : Record) (name : String) :
    valueIn r name.toList = (r.standIn name).toList := by
  rw [valueIn, String.ofList_toList, Record.text?, Record.standIn]
  cases r.get? name with
  | none => rfl
  | some v => cases v <;> rfl

theorem toList_fillIn (text : String) (r : Record) :
    (fillIn text r).toList = fill (valueIn r) text.toList := String.toList_ofList

/-- A text without placeholders is left as it is. -/
theorem fillIn_of_none {text : String} (h : ∀ name, ¬Occurs name text) (r : Record) :
    fillIn text r = text := by
  rw [← String.toList_inj, toList_fillIn, ← List.append_nil text.toList, fill_append]
  · rw [fill_nil]
  · intro before after htext _
    rw [List.append_nil, Option.eq_none_iff_forall_ne_some]
    rintro ⟨name, rest⟩ hsome
    obtain ⟨hname, rfl⟩ := placeholder?_eq_some_iff.mp hsome
    refine h (String.ofList name) (occurs_iff.mpr ?_)
    rw [String.toList_ofList]
    exact ⟨hname, before, rest, by rw [htext, List.append_assoc]⟩

/-- The first placeholder is replaced, and what stands behind it is filled in by itself. -/
theorem fillIn_of_first {before name after : String} (hname : IsName name.toList)
    (hfirst : ∀ before' name' after', IsName name'.toList →
      before ++ placeholder name ++ after = before' ++ placeholder name' ++ after' →
      before.length ≤ before'.length) (r : Record) :
    fillIn (before ++ placeholder name ++ after) r =
      before ++ r.standIn name ++ fillIn after r := by
  have hplaceholder : placeholder? (hole name.toList ++ after.toList) =
      some (name.toList, after.toList) := placeholder?_eq_some_iff.mpr ⟨hname, rfl⟩
  rw [← String.toList_inj, toList_fillIn]
  simp only [String.toList_append, toList_placeholder, toList_fillIn, List.append_assoc]
  rw [fill_append, fill_of_some hplaceholder, valueIn_toList]
  intro before' rest hbefore hne
  rw [Option.eq_none_iff_forall_ne_some]
  rintro ⟨name', after'⟩ hsome
  obtain ⟨hname', hrest⟩ := placeholder?_eq_some_iff.mp hsome
  -- A placeholder that began earlier would be the first one.
  have hle := hfirst (String.ofList before') (String.ofList name') (String.ofList after')
    (by simpa using hname') (by
      rw [← String.toList_inj]
      simp only [String.toList_append, toList_placeholder, String.toList_ofList]
      rw [hbefore, List.append_assoc, List.append_assoc, hrest, List.append_assoc])
  have hlength := congrArg List.length hbefore
  have hpos := List.length_pos_iff.mpr hne
  simp only [List.length_append, String.length_toList, String.length_ofList] at hle hlength
  omega

/-- Records that show the same for the names in a text fill it in alike. -/
theorem fillIn_congr {text : String} {r r' : Record}
    (h : ∀ name, Occurs name text → r.standIn name = r'.standIn name) :
    fillIn text r = fillIn text r' := by
  rw [← String.toList_inj, toList_fillIn, toList_fillIn, fill_eq, fill_eq, List.flatMap_def,
    List.flatMap_def]
  refine congrArg List.flatten (List.map_congr_left fun p hp => ?_)
  cases p with
  | char c => rfl
  | hole name =>
      obtain ⟨hname, before, after, htext⟩ := exists_of_hole_mem hp
      have hoccurs : Occurs (String.ofList name) text := by
        rw [occurs_iff, String.toList_ofList]
        exact ⟨hname, before, after, htext⟩
      have hsame := congrArg String.toList (h _ hoccurs)
      rw [← valueIn_toList, ← valueIn_toList, String.toList_ofList] at hsame
      exact hsame

/-- A text without placeholders is left as it is. Otherwise the first placeholder is replaced by
what is shown for its name, what stands before it is kept, and what stands behind it is filled in by
itself. So the text falls into pieces, whatever the record is, of which the characters are kept and
the placeholders are replaced; and a record matters by what it shows for the names in the text. -/
theorem fillIn_leftmost (text : String) (r : Record) :
    ((∀ name, ¬Occurs name text) → fillIn text r = text) ∧
    (∀ before name after, IsName name.toList → text = before ++ placeholder name ++ after →
      (∀ before' name' after', IsName name'.toList → text = before' ++ placeholder name' ++ after' →
        before.length ≤ before'.length) →
      fillIn text r = before ++ r.standIn name ++ fillIn after r) ∧
    (∃ ps : List Piece, ps.flatMap Piece.source = text.toList ∧ ∀ r' : Record,
      (fillIn text r').toList = ps.flatMap (Piece.shown fun name =>
        (r'.standIn (String.ofList name)).toList)) ∧
    ∀ r' : Record, (∀ name, Occurs name text → r.standIn name = r'.standIn name) →
      fillIn text r = fillIn text r' := by
  refine ⟨fun h => fillIn_of_none h r, ?_, ⟨pieces text.toList, flatMap_source_pieces _, ?_⟩,
    fun r' h => fillIn_congr h⟩
  · rintro before name after hname rfl hfirst
    exact fillIn_of_first hname hfirst r
  · intro r'
    have hvalue : valueIn r' = fun name => (r'.standIn (String.ofList name)).toList := by
      funext name
      rw [← valueIn_toList, String.toList_ofList]
    rw [toList_fillIn, fill_eq, hvalue]

/-- A brace in front of a placeholder is kept. -/
theorem fillIn_leftmost_braced : let r : Record := ⟨[("name", .string "Ann")]⟩
    IsName "name".toList ∧
      (∀ before' name' after', IsName name'.toList →
        "é \x7b\x7b\x7bname\x7d\x7d!" = before' ++ placeholder name' ++ after' →
        "é \x7b".length ≤ before'.length) ∧
      fillIn "é \x7b\x7b\x7bname\x7d\x7d!" r = "é \x7b" ++ "Ann" ++ fillIn "!" r := by
  intro r
  have hname : IsName "name".toList := ⟨by decide, List.all_eq_true.mp (by decide)⟩
  have hfirst : ∀ before' name' after', IsName name'.toList →
      "é \x7b\x7b\x7bname\x7d\x7d!" = before' ++ placeholder name' ++ after' →
      "é \x7b".length ≤ before'.length := by
    intro before' name' after' hname' htext
    have hchars : ['é', ' ', '\x7b', '\x7b', '\x7b', 'n', 'a', 'm', 'e', '\x7d', '\x7d', '!'] =
        before'.toList ++ (hole name'.toList ++ after'.toList) := by
      simpa [String.toList_append, toList_placeholder] using congrArg String.toList htext
    show 3 ≤ before'.length
    rw [← String.length_toList]
    -- Shorter beginnings are followed by another character, or by a third brace.
    generalize before'.toList = before' at hchars
    rcases before' with _ | ⟨c₁, _ | ⟨c₂, _ | ⟨c₃, cs⟩⟩⟩
    · simp [hole] at hchars
    · simp [hole] at hchars
    · obtain ⟨hne, hall⟩ := hname'
      cases hcs : name'.toList with
      | nil => exact absurd hcs hne
      | cons c cs =>
          rw [hcs] at hchars hall
          obtain rfl : '\x7b' = c := by
            simp only [hole, List.cons_append, List.nil_append, List.cons.injEq] at hchars
            exact hchars.2.2.2.2.1
          exact absurd (hall _ List.mem_cons_self) (by decide)
    · simp
  have htext : "é \x7b\x7b\x7bname\x7d\x7d!" = "é \x7b" ++ placeholder "name" ++ "!" := rfl
  have hshown : r.standIn "name" = "Ann" := rfl
  have hfilled := (fillIn_leftmost _ r).2.1 _ _ _ hname htext hfirst
  rw [hshown] at hfilled
  exact ⟨hname, hfirst, hfilled⟩

end Template

end Dialogue
