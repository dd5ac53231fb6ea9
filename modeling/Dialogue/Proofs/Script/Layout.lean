import Dialogue.Proofs.Script.Members
import Dialogue.Proofs.Script.RoundTrip
/-!
# What is read of a text

The same decoder can be run on a text as it is written and on the value of the text. The value has
the members of each object sorted, of two with one name the later, and there is no value at all
where a part of the text cannot be read. So the two differ in two respects: straight from the text
it is an error to write a field twice, and a part that nobody asks for need not be readable.

Which parts are asked for is said by a `Layout`. It is the grammar of a record without its types.

* `Layout.Repeats` — something that is read stands twice.
* `Layout.strip` — a text without what is passed over.
* `Reads` — how a decoder that is run on texts relates to the same one run on values; the other
  lemmas show this of lists, absent values, choices and records.
-/

namespace Dialogue

/-! ## Trees with a value -/

namespace Tree

/-- A tree and its value. -/
inductive HasValue : Tree → Json → Prop
  | null : HasValue .null .null
  | bool (b : Bool) : HasValue (.bool b) (.bool b)
  | number (n : Number) : HasValue (.number n) (.number n)
  | string (s : String) : HasValue (.string s) (.string s)
  | array {xs : List Tree} {vs : List Json} :
      List.Forall₂ (fun x v => x.toJson? = some v) xs vs → HasValue (.array xs) (.array vs)
  | object {ms : List (Option String × Tree)} {es : List (String × Json)} :
      List.Forall₂ (fun m e => m.1 = some e.1 ∧ m.2.toJson? = some e.2) ms es →
      HasValue (.object ms) (.object (Entries.ofList es))

theorem itemsToJson?_eq_some_iff {xs : List Tree} {vs : List Json} :
    itemsToJson? xs = some vs ↔ List.Forall₂ (fun x v => x.toJson? = some v) xs vs := by
  induction xs generalizing vs with
  | nil => simp [itemsToJson?, eq_comm]
  | cons x xs ih =>
      rw [itemsToJson?]
      simp only [Option.bind_eq_bind, Option.pure_def, Option.bind_eq_some_iff, Option.some.injEq,
        ih, List.forall₂_cons_left_iff]
      grind

theorem membersToJson?_eq_some_iff {ms : List (Option String × Tree)}
    {es : List (String × Json)} : membersToJson? ms = some es ↔
      List.Forall₂ (fun m e => m.1 = some e.1 ∧ m.2.toJson? = some e.2) ms es := by
  induction ms generalizing es with
  | nil => simp [membersToJson?, eq_comm]
  | cons m ms ih =>
      obtain ⟨n, x⟩ := m
      rw [membersToJson?]
      simp only [Option.bind_eq_bind, Option.pure_def, Option.bind_eq_some_iff, Option.some.injEq,
        ih, List.forall₂_cons_left_iff]
      grind

theorem toJson?_eq_some_iff {t : Tree} {v : Json} : t.toJson? = some v ↔ t.HasValue v := by
  constructor
  · intro h
    cases t with
    | null => cases h; exact .null
    | bool b => cases h; exact .bool b
    | number n => cases h; exact .number n
    | string s => cases h; exact .string s
    | array xs =>
        rw [toJson?, Option.map_eq_some_iff] at h
        obtain ⟨vs, hvs, rfl⟩ := h
        exact .array (itemsToJson?_eq_some_iff.mp hvs)
    | object ms =>
        rw [toJson?, Option.map_eq_some_iff] at h
        obtain ⟨es, hes, rfl⟩ := h
        exact .object (membersToJson?_eq_some_iff.mp hes)
    | unreadable => cases h
  · intro h
    cases h with
    | null | bool | number | string => rfl
    | array h => simp [toJson?, itemsToJson?_eq_some_iff.mpr h]
    | object h => simp [toJson?, membersToJson?_eq_some_iff.mpr h, Json.ofMembers]

end Tree

/-! ## Layouts -/

/-- What is read of a document. -/
inductive Layout where
  /-- Something that is read as it is, or not at all. -/
  | whole
  /-- The name of a choice, which may be the only member of an object. -/
  | choice
  | list (item : Layout)
  /-- The members with these names, or as many items of an array. -/
  | record (fields : List (String × Layout))

namespace Layout

/-- The layout of a field. -/
def at? (fields : List (String × Layout)) (name : String) : Option Layout :=
  (fields.find? (·.1 = name)).map (·.2)

/-- A part that is read has two members of one name, both of which would be read. -/
inductive Repeats : Layout → Tree → Prop
  | name {ms : List (Option String × Tree)} :
      ¬ (ms.map Prod.fst).Nodup → Repeats .choice (.object ms)
  | item {p : Layout} {xs : List Tree} {x : Tree} :
      x ∈ xs → Repeats p x → Repeats (.list p) (.array xs)
  | field {fields : List (String × Layout)} {ms : List (Option String × Tree)} {name : String} :
      (at? fields name).isSome → 1 < (ms.map Prod.fst).count (some name) →
      Repeats (.record fields) (.object ms)
  | member {fields : List (String × Layout)} {ms : List (Option String × Tree)} {name : String}
      {p : Layout} {x : Tree} :
      at? fields name = some p → (some name, x) ∈ ms → Repeats p x →
      Repeats (.record fields) (.object ms)
  | place {fields : List (String × Layout)} {xs : List Tree} {f : String × Layout} {x : Tree} :
      (f, x) ∈ fields.zip xs → Repeats f.2 x → Repeats (.record fields) (.array xs)

mutual

/-- The tree without what is passed over. -/
def strip : Layout → Tree → Tree
  | .list p, .array xs => .array (xs.map (strip p))
  | .record fields, .object ms => .object (ms.filterMap (stripMember fields))
  | .record fields, .array xs => .array (stripItems fields xs)
  | _, t => t

/-- A member of a record; none when it is passed over. A name that cannot be read is not passed
over. -/
def stripMember : List (String × Layout) → Option String × Tree → Option (Option String × Tree)
  | [], (n, x) => if n = none then some (n, x) else none
  | (name, p) :: fields, (n, x) =>
    if n = some name then some (n, strip p x) else stripMember fields (n, x)

/-- The items of a record that is written as an array. -/
def stripItems : List (String × Layout) → List Tree → List Tree
  | (_, p) :: fields, x :: xs => strip p x :: stripItems fields xs
  | _, xs => xs

end

theorem stripMember_none (fields : List (String × Layout)) (x : Tree) :
    stripMember fields (none, x) = some (none, x) := by
  induction fields with
  | nil => rfl
  | cons f fields ih => simp [stripMember, ih]

theorem stripMember_some (fields : List (String × Layout)) (n : String) (x : Tree) :
    stripMember fields (some n, x) = (at? fields n).map fun p => (some n, strip p x) := by
  induction fields with
  | nil => simp [stripMember, at?]
  | cons f fields ih =>
      obtain ⟨name, p⟩ := f
      by_cases h : name = n
      · simp [stripMember, at?, h]
      · have h' : ¬ n = name := fun heq => h heq.symm
        simpa [stripMember, at?, h, h'] using ih

theorem repeats_list_iff {p : Layout} {xs : List Tree} :
    (list p).Repeats (.array xs) ↔ ∃ x ∈ xs, p.Repeats x := by
  constructor
  · rintro (_ | ⟨hx, hrepeats⟩)
    exact ⟨_, hx, hrepeats⟩
  · rintro ⟨x, hx, hrepeats⟩
    exact .item hx hrepeats

theorem repeats_record_iff {fields : List (String × Layout)} {ms : List (Option String × Tree)} :
    (record fields).Repeats (.object ms) ↔
      (∃ name, (at? fields name).isSome ∧ 1 < (ms.map Prod.fst).count (some name)) ∨
        ∃ name p x, at? fields name = some p ∧ (some name, x) ∈ ms ∧ p.Repeats x := by
  constructor
  · rintro (_ | _ | ⟨hname, hcount⟩ | ⟨hname, hx, hrepeats⟩)
    · exact .inl ⟨_, hname, hcount⟩
    · exact .inr ⟨_, _, _, hname, hx, hrepeats⟩
  · rintro (⟨name, hname, hcount⟩ | ⟨name, p, x, hname, hx, hrepeats⟩)
    · exact .field hname hcount
    · exact .member hname hx hrepeats

theorem repeats_items_iff {fields : List (String × Layout)} {xs : List Tree} :
    (record fields).Repeats (.array xs) ↔ ∃ f x, (f, x) ∈ fields.zip xs ∧ f.2.Repeats x := by
  constructor
  · rintro (_ | _ | _ | _ | ⟨hx, hrepeats⟩)
    exact ⟨_, _, hx, hrepeats⟩
  · rintro ⟨f, x, hx, hrepeats⟩
    exact .place hx hrepeats

/-! ### Repetitions are not passed over -/

/-- A member that is read stands in the stripped object, without what is passed over. -/
theorem mem_strip_iff {fields : List (String × Layout)} {ms : List (Option String × Tree)}
    {name : String} {p : Layout} {y : Tree} (h : at? fields name = some p) :
    (some name, y) ∈ ms.filterMap (stripMember fields) ↔
      ∃ x, (some name, x) ∈ ms ∧ p.strip x = y := by
  rw [List.mem_filterMap]
  constructor
  · rintro ⟨⟨_ | n, x⟩, hmem, hm⟩
    · simp [stripMember_none] at hm
    · rw [stripMember_some, Option.map_eq_some_iff] at hm
      obtain ⟨q, hq, heq⟩ := hm
      cases heq
      obtain rfl : q = p := Option.some.inj (hq.symm.trans h)
      exact ⟨x, hmem, rfl⟩
  · rintro ⟨x, hmem, rfl⟩
    exact ⟨_, hmem, by rw [stripMember_some, h, Option.map_some]⟩

theorem count_strip {fields : List (String × Layout)} {ms : List (Option String × Tree)}
    {name : String} (h : (at? fields name).isSome) :
    ((ms.filterMap (stripMember fields)).map Prod.fst).count (some name) =
      (ms.map Prod.fst).count (some name) := by
  induction ms with
  | nil => rfl
  | cons m ms ih =>
      obtain ⟨_ | n, x⟩ := m
      · simpa [stripMember_none] using ih
      · rw [List.filterMap_cons, stripMember_some]
        by_cases hname : n = name
        · subst hname
          obtain ⟨p, hp⟩ := Option.isSome_iff_exists.mp h
          simpa [hp] using ih
        · cases at? fields n <;> simpa [hname] using ih

theorem zip_stripItems (fields : List (String × Layout)) (xs : List Tree) :
    fields.zip (stripItems fields xs) =
      (fields.zip xs).map fun e => (e.1, e.1.2.strip e.2) := by
  induction fields generalizing xs with
  | nil => rfl
  | cons f fields ih =>
      cases xs with
      | nil => rfl
      | cons x xs => simp [stripItems, ih]

/-- What is passed over does not repeat anything that is read. -/
theorem repeats_strip_iff {p : Layout} {t : Tree} : p.Repeats (p.strip t) ↔ p.Repeats t := by
  constructor
  · generalize hs : p.strip t = s
    intro h
    induction h generalizing t with
    | name hnodup =>
        obtain rfl : t = _ := by simpa [strip] using hs
        exact .name hnodup
    | item hx _ ih =>
        cases t <;> simp only [strip, reduceCtorEq, Tree.array.injEq] at hs
        subst hs
        obtain ⟨x, hmem, rfl⟩ := List.mem_map.mp hx
        exact .item hmem (ih rfl)
    | field hname hcount =>
        cases t <;> simp only [strip, reduceCtorEq, Tree.object.injEq] at hs
        subst hs
        rw [count_strip hname] at hcount
        exact .field hname hcount
    | member hname hx _ ih =>
        cases t <;> simp only [strip, reduceCtorEq, Tree.object.injEq] at hs
        subst hs
        obtain ⟨x, hmem, rfl⟩ := (mem_strip_iff hname).mp hx
        exact .member hname hmem (ih rfl)
    | place hx _ ih =>
        cases t <;> simp only [strip, reduceCtorEq, Tree.array.injEq] at hs
        subst hs
        rw [zip_stripItems] at hx
        obtain ⟨⟨f, x⟩, hmem, heq⟩ := List.mem_map.mp hx
        cases heq
        exact .place hmem (ih rfl)
  · intro h
    induction h with
    | name hnodup => simpa [strip] using Repeats.name hnodup
    | item hx _ ih =>
        rw [strip]
        exact .item (List.mem_map_of_mem hx) ih
    | field hname hcount =>
        rw [strip]
        exact .field hname ((count_strip hname).symm ▸ hcount)
    | member hname hx _ ih =>
        rw [strip]
        exact .member hname ((mem_strip_iff hname).mpr ⟨_, hx, rfl⟩) ih
    | place hx _ ih =>
        rw [strip]
        refine .place ?_ ih
        rw [zip_stripItems]
        exact List.mem_map_of_mem hx

end Layout

/-! ## Decoders that read alike -/

open Decode

/-- How a decoder that is run on texts relates to the same one run on values. Where a text has a
value, it is decoded from the value to the same result, unless it repeats something. What is passed
over does not matter to the decoder of texts, and all the rest can be read when it succeeds. -/
structure Reads {α : Type} (text : Tree → Decoded α) (value : Json → Decoded α) (p : Layout) :
    Prop where
  value : ∀ t v a, t.HasValue v → (text t = .ok a ↔ value v = .ok a ∧ ¬ p.Repeats t)
  strip : ∀ t a, text (p.strip t) = .ok a ↔ text t = .ok a
  legible : ∀ t a, text t = .ok a → ((p.strip t).toJson?).isSome

section Single

variable {α : Type} {text : Tree → Decoded α} {value : Json → Decoded α} {p : Layout}

theorem reads_whole (hvalue : ∀ t v, t.HasValue v → text t = value v)
    (hlegible : ∀ t a, text t = .ok a → (t.toJson?).isSome) : Reads text value .whole where
  value t v a h := by
    rw [hvalue t v h, iff_self_and]
    rintro - ⟨⟩
  strip t a := by
    have hstrip : Layout.whole.strip t = t := by simp [Layout.strip]
    rw [hstrip]
  legible t a h := by
    have hstrip : Layout.whole.strip t = t := by simp [Layout.strip]
    rw [hstrip]
    exact hlegible t a h

theorem reads_string : Reads (string : Tree → _) (string : Json → _) .whole := by
  apply reads_whole
  · rintro t v (_ | _ | _ | _ | _ | _) <;> rfl
  · intro t a h
    cases t with
    | string s => rfl
    | null | bool | number | array | object | unreadable => cases h

theorem reads_bool : Reads (bool : Tree → _) (bool : Json → _) .whole := by
  apply reads_whole
  · rintro t v (_ | _ | _ | _ | _ | _) <;> rfl
  · intro t a h
    cases t with
    | bool b => rfl
    | null | string | number | array | object | unreadable => cases h

theorem any_tree_eq_ok_iff {t : Tree} {v : Json} : any t = .ok v ↔ t.toJson? = some v := by
  have hsource : Source.toJson? t = t.toJson? := rfl
  rw [any, hsource]
  cases t.toJson? <;> simp

theorem reads_any : Reads (any : Tree → _) (any : Json → _) .whole := by
  apply reads_whole
  · intro t v h
    exact any_tree_eq_ok_iff.mpr (Tree.toJson?_eq_some_iff.mpr h)
  · intro t a h
    rw [any_tree_eq_ok_iff.mp h]
    rfl

/-! ### Lists and absent values -/

theorem mapM_cons_eq_ok_iff {β γ : Type} {f : β → Decoded γ} {x : β} {xs : List β} {as : List γ} :
    (x :: xs).mapM f = .ok as ↔ ∃ a, f x = .ok a ∧ ∃ as', xs.mapM f = .ok as' ∧ a :: as' = as := by
  rw [List.mapM_cons, bind_eq_ok_iff]
  refine exists_congr fun a => and_congr_right fun _ => ?_
  rw [bind_eq_ok_iff]
  exact exists_congr fun as' => and_congr_right fun _ => iff_of_eq (Except.ok.injEq (a :: as') as)

theorem reads_list (h : Reads text value p) : Reads (list text) (list value) (.list p) where
  value t v as hv := by
    cases hv with
    | null | bool | number | string | object =>
        constructor
        · rintro ⟨⟩
        · rintro ⟨⟨⟩, -⟩
    | @array xs vs hxs =>
        rw [Layout.repeats_list_iff]
        show xs.mapM text = .ok as ↔ vs.mapM value = .ok as ∧ _
        induction hxs generalizing as with
        | nil => simp
        | @cons x v xs vs hx _ ih =>
            rw [mapM_cons_eq_ok_iff, mapM_cons_eq_ok_iff]
            simp only [h.value x v _ (Tree.toJson?_eq_some_iff.mp hx), ih]
            simp only [List.mem_cons, exists_eq_or_imp, not_or]
            grind
  strip t as := by
    cases t with
    | null | bool | number | string | object | unreadable => simp [Layout.strip]
    | array xs =>
        simp only [Layout.strip]
        show (xs.map p.strip).mapM text = .ok as ↔ xs.mapM text = .ok as
        induction xs generalizing as with
        | nil => rfl
        | cons x xs ih => simp only [List.map_cons, mapM_cons_eq_ok_iff, h.strip, ih]
  legible t as hok := by
    cases t with
    | null | bool | number | string | object | unreadable => cases hok
    | array xs =>
        replace hok : xs.mapM text = .ok as := hok
        simp only [Layout.strip, Tree.toJson?, Option.isSome_map]
        induction xs generalizing as with
        | nil => rfl
        | cons x xs ih =>
            obtain ⟨a, hx, as', hxs, -⟩ := mapM_cons_eq_ok_iff.mp hok
            obtain ⟨v, hv⟩ := Option.isSome_iff_exists.mp (h.legible x a hx)
            obtain ⟨vs, hvs⟩ := Option.isSome_iff_exists.mp (ih as' hxs)
            simp [Tree.itemsToJson?, hv, hvs]

theorem option_tree_of_ne_null {t : Tree} (hnull : t ≠ .null) :
    option text t = (text t).map some := by
  cases t with
  | null => exact absurd rfl hnull
  | bool | number | string | array | object | unreadable => rfl

theorem Layout.strip_eq_null_iff {t : Tree} : p.strip t = .null ↔ t = .null := by
  cases p <;> cases t <;> simp [Layout.strip]

theorem Layout.not_repeats_null : ¬ p.Repeats .null := by
  rintro ⟨⟩

theorem reads_option (h : Reads text value p) : Reads (option text) (option value) p where
  value t v o hv := by
    by_cases hnull : t = .null
    · subst hnull
      cases hv
      exact (and_iff_left Layout.not_repeats_null).symm
    · have hnull' : v ≠ .null := by
        rintro rfl
        cases hv
        exact hnull rfl
      rw [option_tree_of_ne_null hnull, option_of_ne_null hnull', map_eq_ok_iff,
        map_eq_ok_iff]
      simp only [h.value t v _ hv]
      grind
  strip t o := by
    by_cases hnull : t = .null
    · rw [hnull, Layout.strip_eq_null_iff.mpr rfl]
    · rw [option_tree_of_ne_null hnull,
        option_tree_of_ne_null (fun heq => hnull (Layout.strip_eq_null_iff.mp heq)),
        map_eq_ok_iff, map_eq_ok_iff]
      simp only [h.strip]
  legible t o hok := by
    by_cases hnull : t = .null
    · rw [hnull, Layout.strip_eq_null_iff.mpr rfl]
      rfl
    · rw [option_tree_of_ne_null hnull, map_eq_ok_iff] at hok
      obtain ⟨a, ha, -⟩ := hok
      exact h.legible t a ha

end Single

/-! ### Choices -/

section Choice

variable {α : Type} {ofName : String → Decoded α} {a : α}

theorem nothing_tree_eq_ok_iff {x : Tree} {u : Unit} : nothing x = .ok u ↔ x = .null := by
  cases x with
  | null => exact iff_of_true rfl rfl
  | bool | number | string | array | object | unreadable =>
      constructor
      · rintro ⟨⟩
      · rintro ⟨⟩

theorem nothing_json_eq_ok_iff {v : Json} {u : Unit} : nothing v = .ok u ↔ v = .null := by
  cases v with
  | null => exact iff_of_true rfl rfl
  | bool | number | string | array | object =>
      constructor
      · rintro ⟨⟩
      · rintro ⟨⟩

/-- Both ways a choice may be written as an object with one member, which is the name. -/
theorem choice_tree_eq_ok_iff {ms : List (Option String × Tree)} :
    choice ofName (Tree.object ms) = .ok a ↔
      ∃ n, ms = [(some n, .null)] ∧ ofName n = .ok a := by
  rcases ms with _ | ⟨⟨_ | n, x⟩, rest⟩
  · constructor
    · rintro ⟨⟩
    · rintro ⟨n, ⟨⟩, -⟩
  · constructor
    · rintro ⟨⟩
    · rintro ⟨n, ⟨⟩, -⟩
  · show (ofName n >>= fun a => nothing x >>= fun _ =>
      if rest.isEmpty then pure a else throw (Source.notSingle Tree)) = .ok a ↔ _
    simp only [bind_eq_ok_iff, nothing_tree_eq_ok_iff]
    cases rest with
    | nil =>
        constructor
        · rintro ⟨b, hb, -, rfl, ⟨⟩⟩
          exact ⟨n, rfl, hb⟩
        · rintro ⟨n, ⟨⟩, hn⟩
          exact ⟨a, hn, (), rfl, rfl⟩
    | cons m rest =>
        constructor
        · rintro ⟨b, -, -, -, ⟨⟩⟩
        · rintro ⟨n, ⟨⟩, -⟩

theorem choice_json_eq_ok_iff {es : List (String × Json)} :
    choice ofName (Json.object es) = .ok a ↔ ∃ n, es = [(n, .null)] ∧ ofName n = .ok a := by
  rcases es with _ | ⟨⟨n, v⟩, _ | ⟨e, rest⟩⟩
  · constructor
    · rintro ⟨⟩
    · rintro ⟨n, ⟨⟩, -⟩
  · show (ofName n >>= fun a => nothing v >>= fun _ => pure a) = .ok a ↔ _
    simp only [bind_eq_ok_iff, nothing_json_eq_ok_iff]
    constructor
    · rintro ⟨b, hb, -, rfl, ⟨⟩⟩
      exact ⟨n, rfl, hb⟩
    · rintro ⟨n, ⟨⟩, hn⟩
      exact ⟨a, hn, (), rfl, rfl⟩
  · constructor
    · rintro ⟨⟩
    · rintro ⟨n, ⟨⟩, -⟩

/-- Where no name is repeated, the value of an object with several members has several, too. -/
theorem Tree.eq_singleton_of_ofList {ms : List (Option String × Tree)} {es : List (String × Json)}
    {n : String} {v : Json}
    (hms : List.Forall₂ (fun m e => m.1 = some e.1 ∧ m.2.toJson? = some e.2) ms es)
    (hnodup : (ms.map Prod.fst).Nodup) (hes : Entries.ofList es = [(n, v)]) :
    ∃ x, ms = [(some n, x)] ∧ x.toJson? = some v := by
  have hnames : ms.map Prod.fst = (es.map Prod.fst).map some := by
    clear hnodup hes
    induction hms with
    | nil => rfl
    | cons h _ ih => simp [h.1, ih]
  have hnodup' : (es.map Prod.fst).Nodup := List.Nodup.of_map some (hnames ▸ hnodup)
  have hperm := @Entries.perm_filter_ofList Json es (fun _ => true) (by simpa using hnodup')
  rw [List.filter_true, List.filter_true, hes] at hperm
  obtain rfl := List.perm_singleton.mp hperm.symm
  obtain ⟨⟨m, x⟩, rest, ⟨rfl, hx⟩, hrest, rfl⟩ := List.forall₂_cons_right_iff.mp hms
  cases hrest
  exact ⟨x, rfl, hx⟩

theorem reads_choice : Reads (choice ofName) (choice ofName) .choice where
  value t v a hv := by
    cases hv with
    | null | bool | number | array =>
        constructor
        · rintro ⟨⟩
        · rintro ⟨⟨⟩, -⟩
    | string s =>
        refine (and_iff_left ?_).symm
        rintro ⟨⟩
    | @object ms es hms =>
        rw [choice_tree_eq_ok_iff, choice_json_eq_ok_iff]
        constructor
        · rintro ⟨n, rfl, hn⟩
          obtain ⟨⟨m, v⟩, rest, ⟨⟨⟩, ⟨⟩⟩, hrest, rfl⟩ := List.forall₂_cons_left_iff.mp hms
          cases hrest
          refine ⟨⟨_, rfl, hn⟩, ?_⟩
          rintro ⟨hnodup⟩
          exact hnodup (List.nodup_singleton _)
        · rintro ⟨⟨n, hes, hn⟩, hrepeats⟩
          have hnodup : (ms.map Prod.fst).Nodup := by
            by_contra hnodup
            exact hrepeats (.name hnodup)
          obtain ⟨x, rfl, hx⟩ := Tree.eq_singleton_of_ofList hms hnodup hes
          cases Tree.toJson?_eq_some_iff.mp hx
          exact ⟨n, rfl, hn⟩
  strip t a := by simp [Layout.strip]
  legible t a hok := by
    rw [show Layout.choice.strip t = t by simp [Layout.strip]]
    cases t with
    | string s => rfl
    | object ms =>
        obtain ⟨n, rfl, -⟩ := choice_tree_eq_ok_iff.mp hok
        rfl
    | null | bool | number | array | unreadable => cases hok

end Choice

end Dialogue
