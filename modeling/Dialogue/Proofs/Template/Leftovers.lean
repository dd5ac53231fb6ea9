import Dialogue.Proofs.Template.Pieces
import Mathlib
/-!
# Placeholders that are left over

A text is filled in by one pass, and what has been put in is not looked at again. So a placeholder
can come about in the pass: a value that is put in joins with characters around it. When the values
hold no braces, the braces of such a placeholder are characters of the text, and between them stand
other placeholders that have been replaced.

* `exists_split` — a character that no value has is a piece of its own.
* `Joins` — pieces that are shown as a placeholder, and hold another one.
* `exists_occurs_fillIn_iff` — a placeholder is left over just if some pieces join.
-/

namespace Dialogue.Template

/-- There are no braces among the characters. -/
def Braceless (cs : List Char) : Prop := '\x7b' ∉ cs ∧ '\x7d' ∉ cs

/-- The values of the record hold no braces. -/
def BracelessRecord (r : Record) : Prop :=
  ∀ name v, r.get? name = some v → Braceless v.text.toList

/-- Pieces that are shown as a placeholder: two opening braces, a name, and two closing braces.
Nothing is shown between the braces of a pair, and somewhere between these braces of the text stands
a placeholder. -/
def Joins (value : List Char → List Char) (ps : List Piece) : Prop :=
  ∃ gap inner gap', ps = .char '\x7b' :: (gap ++ .char '\x7b' :: (inner ++ .char '\x7d' ::
      (gap' ++ [.char '\x7d']))) ∧
    (∀ p ∈ gap ++ gap', p.shown value = []) ∧
    (∀ p ∈ inner, ∀ c ∈ p.shown value, isNameChar c = true) ∧
    (∃ p ∈ inner, p.shown value ≠ []) ∧
    ∃ name, .hole name ∈ gap ++ inner ++ gap'

variable {value : List Char → List Char} {cs name rest : List Char} {ps qs : List Piece}

/-! ## Pieces of the rest of a text -/

/-- The last pieces of a text are the pieces of the rest that they make up. -/
theorem pieces_flatMap_source (h : pieces cs = ps ++ qs) :
    pieces (qs.flatMap Piece.source) = qs := by
  have hwhole : ∀ {cs : List Char}, pieces cs = qs → pieces (qs.flatMap Piece.source) = qs := by
    rintro cs rfl
    rw [flatMap_source_pieces]
  fun_induction pieces cs generalizing ps with
  | case1 cs name rest hcs ih =>
      cases ps with
      | nil => exact hwhole ((pieces_of_some hcs).trans h)
      | cons p ps => exact ih (List.cons.inj h).2
  | case2 =>
      obtain ⟨-, rfl⟩ := List.append_eq_nil_iff.mp h.symm
      exact pieces_nil
  | case3 c cs hcs ih =>
      cases ps with
      | nil => exact hwhole ((pieces_cons_of_none hcs).trans h)
      | cons p ps => exact ih (List.cons.inj h).2

/-! ## Characters of the text -/

theorem shown_eq_source (h : ∀ name, .hole name ∉ ps) :
    ps.flatMap (Piece.shown value) = ps.flatMap Piece.source := by
  rw [List.flatMap_def, List.flatMap_def]
  refine congrArg List.flatten (List.map_congr_left fun p hp => ?_)
  cases p with
  | char c => rfl
  | hole name => exact absurd hp (h name)

/-- A character that is shown and that no value has is a character of the text. -/
theorem exists_split {x : Char} {a b : List Char} (hx : ∀ name, .hole name ∈ ps → x ∉ value name)
    (h : ps.flatMap (Piece.shown value) = a ++ x :: b) :
    ∃ before after, ps = before ++ .char x :: after ∧
      before.flatMap (Piece.shown value) = a ∧ after.flatMap (Piece.shown value) = b := by
  induction ps generalizing a with
  | nil => simp at h
  | cons p ps ih =>
      have hrest := fun name hmem => hx name (List.mem_cons_of_mem p hmem)
      rw [List.flatMap_cons] at h
      cases p with
      | char c =>
          cases a with
          | nil =>
              obtain ⟨rfl, hb⟩ := List.cons.inj h
              exact ⟨[], ps, rfl, rfl, hb⟩
          | cons a₀ a =>
              obtain ⟨rfl, ha⟩ := List.cons.inj h
              obtain ⟨before, after, rfl, rfl, hb⟩ := ih hrest ha
              exact ⟨.char c :: before, after, rfl, rfl, hb⟩
      | hole name =>
          have hlater : ∀ {a' : List Char}, ps.flatMap (Piece.shown value) = a' ++ x :: b →
              ∃ before after, Piece.hole name :: ps = before ++ .char x :: after ∧
                before.flatMap (Piece.shown value) = value name ++ a' ∧
                after.flatMap (Piece.shown value) = b := by
            intro a' ha'
            obtain ⟨before, after, rfl, rfl, hb⟩ := ih hrest ha'
            exact ⟨.hole name :: before, after, rfl, rfl, hb⟩
          rcases List.append_eq_append_iff.mp h with ⟨a', rfl, ha'⟩ | ⟨c, hc, hb⟩
          · exact hlater ha'
          · cases c with
            | nil =>
                obtain rfl : value name = a := hc.trans (List.append_nil _)
                obtain ⟨before, after, hps, hbefore, hb⟩ := @hlater [] hb.symm
                exact ⟨before, after, hps, hbefore.trans (List.append_nil _), hb⟩
            | cons x' c =>
                obtain ⟨rfl, -⟩ := List.cons.inj hb
                refine absurd ?_ (hx name List.mem_cons_self)
                show x ∈ Piece.shown value (.hole name)
                simp [hc]

/-! ## Joined pieces -/

theorem Joins.shown (h : Joins value ps) :
    ∃ name, IsName name ∧ ps.flatMap (Piece.shown value) = hole name := by
  obtain ⟨gap, inner, gap', rfl, hgap, hinner, ⟨p, hp, hne⟩, -⟩ := h
  refine ⟨inner.flatMap (Piece.shown value), ⟨fun hnil => ?_, ?_⟩, ?_⟩
  · exact hne (List.flatMap_eq_nil_iff.mp hnil p hp)
  · intro c hc
    obtain ⟨p, hp, hc⟩ := List.mem_flatMap.mp hc
    exact hinner p hp c hc
  · have hnil : gap.flatMap (Piece.shown value) = [] :=
      List.flatMap_eq_nil_iff.mpr fun p hp => hgap p (List.mem_append_left _ hp)
    have hnil' : gap'.flatMap (Piece.shown value) = [] :=
      List.flatMap_eq_nil_iff.mpr fun p hp => hgap p (List.mem_append_right _ hp)
    simp [Piece.shown, hole, hnil, hnil']

/-- Braces and a name that are shown come from pieces that join. -/
theorem exists_joins {a b : List Char} (hname : IsName name)
    (hvalue : ∀ n, .hole n ∈ pieces cs → Braceless (value n))
    (h : (pieces cs).flatMap (Piece.shown value) = a ++ hole name ++ b) :
    ∃ ps, ps <:+: pieces cs ∧ Joins value ps := by
  rw [hole, List.append_assoc, List.cons_append, List.cons_append, List.append_assoc] at h
  obtain ⟨before, ps₁, hps, -, h₁⟩ := exists_split (fun n hn => (hvalue n hn).1) h
  have hvalue₁ : ∀ n, .hole n ∈ ps₁ → Braceless (value n) :=
    fun n hn => hvalue n (by simp [hps, hn])
  obtain ⟨gap, ps₂, rfl, hgap, h₂⟩ :=
    exists_split (a := []) (fun n hn => (hvalue₁ n hn).1) h₁
  obtain ⟨inner, ps₃, rfl, hinner, h₃⟩ :=
    exists_split (fun n hn => (hvalue₁ n (by simp [hn])).2) h₂
  obtain ⟨gap', after, rfl, hgap', -⟩ :=
    exists_split (a := []) (fun n hn => (hvalue₁ n (by simp [hn])).2) h₃
  refine ⟨.char '\x7b' :: (gap ++ .char '\x7b' :: (inner ++ .char '\x7d' ::
    (gap' ++ [.char '\x7d']))), ⟨before, after, ?_⟩, gap, inner, gap', rfl, ?_, ?_, ?_, ?_⟩
  · rw [hps]
    simp
  · intro p hp
    rcases List.mem_append.mp hp with hp | hp
    · exact List.flatMap_eq_nil_iff.mp hgap p hp
    · exact List.flatMap_eq_nil_iff.mp hgap' p hp
  · intro p hp c hc
    exact hname.2 c (hinner ▸ List.mem_flatMap.mpr ⟨p, hp, hc⟩)
  · by_contra hno
    push Not at hno
    exact hname.1 (hinner ▸ List.flatMap_eq_nil_iff.mpr hno)
  · -- Without a placeholder among them the pieces would be one, and would not have been cut.
    by_contra hno
    push Not at hno
    have hsource : ∀ {qs : List Piece}, (∀ p ∈ qs, p ∈ gap ++ inner ++ gap') →
        qs.flatMap (Piece.shown value) = qs.flatMap Piece.source :=
      fun hqs => shown_eq_source fun n hn => hno n (hqs _ hn)
    rw [hsource fun p hp => by simp [hp]] at hgap hgap' hinner
    have hcut := pieces_flatMap_source hps
    have hsome : placeholder? (hole name ++ after.flatMap Piece.source) =
        some (name, after.flatMap Piece.source) := placeholder?_eq_some_iff.mpr ⟨hname, rfl⟩
    have htext : (Piece.char '\x7b' :: (gap ++ .char '\x7b' :: (inner ++ .char '\x7d' ::
        (gap' ++ .char '\x7d' :: after)))).flatMap Piece.source =
        hole name ++ after.flatMap Piece.source := by
      simp [Piece.source, hole, hgap, hgap', hinner]
    rw [htext, pieces_of_some hsome] at hcut
    cases hcut

/-- What is shown for a name has no braces. -/
theorem braceless_valueIn {r : Record} (hr : BracelessRecord r) (hname : IsName name) :
    Braceless (valueIn r name) := by
  have hbrace : isNameChar '\x7b' = false ∧ isNameChar '\x7d' = false := by decide
  have hself : Braceless name := by
    constructor
    · intro hmem
      cases hbrace.1.symm.trans (hname.2 _ hmem)
    · intro hmem
      cases hbrace.2.symm.trans (hname.2 _ hmem)
  have hvalue := valueIn_toList r (String.ofList name)
  rw [String.toList_ofList] at hvalue
  rw [hvalue, Record.standIn]
  cases hget : r.get? (String.ofList name) with
  | none => simpa using hself
  | some v =>
      cases v with
      | null => simpa using hself
      | _ => exact hr _ _ hget

/-- When the values of the record hold no braces, a placeholder is left over just if pieces of the
text join: braces of the text stand around placeholders that have been replaced, and by that they
have come to stand around a name. -/
theorem exists_occurs_fillIn_iff {text : String} {r : Record} (hr : BracelessRecord r) :
    (∃ name, Occurs name (fillIn text r)) ↔
      ∃ ps, ps <:+: pieces text.toList ∧ Joins (valueIn r) ps := by
  constructor
  · rintro ⟨name, hoccurs⟩
    obtain ⟨hname, a, b, htext⟩ := occurs_iff.mp hoccurs
    rw [toList_fillIn, fill_eq] at htext
    exact exists_joins hname
      (fun n hn => braceless_valueIn hr (exists_of_hole_mem hn).1) htext
  · rintro ⟨ps, ⟨before, after, htext⟩, hjoins⟩
    obtain ⟨name, hname, hshown⟩ := hjoins.shown
    refine ⟨String.ofList name, occurs_iff.mpr ?_⟩
    rw [String.toList_ofList, toList_fillIn, fill_eq, ← htext]
    exact ⟨hname, before.flatMap (Piece.shown (valueIn r)), after.flatMap (Piece.shown (valueIn r)),
      by rw [List.flatMap_append, List.flatMap_append, hshown]⟩

/-- Where all braces belong to placeholders, none is left over. -/
theorem exists_occurs_fillIn_iff_greeting : let r : Record := ⟨[("name", .string "Ann")]⟩
    BracelessRecord r ∧ ¬∃ name, Occurs name (fillIn "Hi \x7b\x7bname\x7d\x7d!" r) := by
  intro r
  have hr : BracelessRecord r := by
    intro name v hv
    obtain ⟨e, he, rfl⟩ := Option.map_eq_some_iff.mp hv
    obtain rfl := List.mem_singleton.mp (List.mem_of_find?_eq_some he)
    exact ⟨by decide, by decide⟩
  refine ⟨hr, fun hleft => ?_⟩
  obtain ⟨ps, hinfix, gap, inner, gap', rfl, -⟩ := (exists_occurs_fillIn_iff hr).mp hleft
  have hmem : Piece.char '\x7b' ∈ pieces "Hi \x7b\x7bname\x7d\x7d!".toList :=
    hinfix.subset List.mem_cons_self
  have hpieces : pieces "Hi \x7b\x7bname\x7d\x7d!".toList =
      [.char 'H', .char 'i', .char ' ', .hole "name".toList, .char '!'] := by
    cbv
  rw [hpieces] at hmem
  simp at hmem

/-- A placeholder in two pairs of braces leaves one. -/
theorem occurs_fillIn_nested :
    BracelessRecord .empty ∧ Occurs "a" (fillIn "\x7b\x7b\x7b\x7ba\x7d\x7d\x7d\x7d" .empty) := by
  have hfilled : fillIn "\x7b\x7b\x7b\x7ba\x7d\x7d\x7d\x7d" .empty = "\x7b\x7ba\x7d\x7d" := by
    cbv
  have hr : BracelessRecord .empty := by rintro name v ⟨⟩
  refine ⟨hr, ⟨by decide, List.all_eq_true.mp (by decide)⟩, "", "", ?_⟩
  rw [hfilled]
  rfl

end Dialogue.Template
