import Mathlib.Data.List.Pairwise
import Dialogue.Proofs.Script.Layout
/-!
# Records that are read from a text and from its value

A record is decoded by a `Shape`, which there is both for texts and for values. `Describes` lists
the fields of such a pair of shapes: how each is decoded, and how it is put into the record. Fields
do not get in each other's way, so it does not matter that the value of a text has its members
sorted.

* `Describes.ofMembers_value_iff` — members are read alike from a text and from its value, unless a
  field is repeated.
* `reads_record` — so is a record, be it written as a map or as an array.
-/

namespace Dialogue

open Decode

/-- A field of a record: how it is decoded from a text and from a value, and how it is put into the
record. -/
structure Field (α : Type) where
  name : String
  layout : Layout
  Value : Type
  text : Tree → Decoded Value
  value : Json → Decoded Value
  put : Value → α → α

variable {α : Type} {text : Shape Tree α} {value : Shape Json α}

namespace Field

/-- The field in the layout of the record. -/
def entry (f : Field α) : String × Layout := (f.name, f.layout)

/-- The shapes of a record enter the field as it says. -/
structure Fits (f : Field α) (text : Shape Tree α) (value : Shape Json α) : Prop where
  reads : Reads f.text f.value f.layout
  text_set : ∀ x a, text.set f.name x a = (f.text x).map (f.put · a)
  value_set : ∀ v a, value.set f.name v a = (f.value v).map (f.put · a)

/-- Two fields that do not get in each other's way. -/
def Apart (f g : Field α) : Prop := ∀ u w a, f.put u (g.put w a) = g.put w (f.put u a)

instance : Std.Symm (@Apart α) := ⟨fun _ _ h u w a => (h w u a).symm⟩

end Field

/-- The fields of a record, which is decoded by one shape from texts and by the other from values.
-/
structure Describes (fs : List (Field α)) (text : Shape Tree α) (value : Shape Json α) : Prop where
  names : text.fields.map Prod.fst = fs.map Field.name
  fields_eq : value.fields = text.fields
  start_eq : value.start = text.start
  distinct : (fs.map Field.name).Nodup
  fits : ∀ f ∈ fs, f.Fits text value
  apart : fs.Pairwise Field.Apart

/-! ## Fields and their names -/

section Names

variable {fs : List (Field α)} {f : Field α} {n : String}

theorem at?_entry (hdistinct : (fs.map Field.name).Nodup) (hf : f ∈ fs) :
    Layout.at? (fs.map Field.entry) f.name = some f.layout := by
  induction fs with
  | nil => cases hf
  | cons g fs ih =>
      obtain ⟨hg, hfs⟩ := List.nodup_cons.mp hdistinct
      rcases List.mem_cons.mp hf with rfl | hf
      · simp [Layout.at?, Field.entry]
      · have hne : g.name ≠ f.name := fun heq => hg (heq ▸ List.mem_map_of_mem hf)
        have hrest := ih hfs hf
        simp only [Layout.at?] at hrest ⊢
        rwa [List.map_cons, List.find?_cons_of_neg (by simp [Field.entry, hne])]

theorem at?_eq_some {p : Layout} (h : Layout.at? (fs.map Field.entry) n = some p) :
    ∃ f ∈ fs, f.name = n ∧ f.layout = p := by
  rw [Layout.at?, Option.map_eq_some_iff] at h
  obtain ⟨e, hfind, rfl⟩ := h
  obtain ⟨f, hf, rfl⟩ := List.mem_map.mp (List.mem_of_find?_eq_some hfind)
  have hname := List.find?_some hfind
  exact ⟨f, hf, of_decide_eq_true hname, rfl⟩

namespace Describes

theorem hasField_iff (h : Describes fs text value) :
    text.hasField n = true ↔ ∃ f ∈ fs, f.name = n := by
  have hmem : text.hasField n = true ↔ n ∈ text.fields.map Prod.fst := by
    simp [Shape.hasField]
  rw [hmem, h.names, List.mem_map]

theorem hasField_value (h : Describes fs text value) (n : String) :
    value.hasField n = text.hasField n := by
  rw [Shape.hasField, Shape.hasField, h.fields_eq]

theorem at?_eq (h : Describes fs text value) (n : String) :
    (text.hasField n = false ∧ Layout.at? (fs.map Field.entry) n = none) ∨
      ∃ f ∈ fs, f.name = n ∧ text.hasField n = true ∧
        Layout.at? (fs.map Field.entry) n = some f.layout := by
  cases hfield : text.hasField n with
  | true =>
      obtain ⟨f, hf, rfl⟩ := h.hasField_iff.mp hfield
      exact .inr ⟨f, hf, rfl, rfl, at?_entry h.distinct hf⟩
  | false =>
      refine .inl ⟨rfl, Option.eq_none_iff_forall_ne_some.mpr fun p hp => ?_⟩
      obtain ⟨f, hf, rfl, -⟩ := at?_eq_some hp
      rw [h.hasField_iff.mpr ⟨f, hf, rfl⟩] at hfield
      cases hfield

/-- Two fields can be entered in any order. -/
theorem commute (h : Describes fs text value) {e e' : String × Json}
    (he : text.hasField e.1 = true) (he' : text.hasField e'.1 = true) (hne : e.1 ≠ e'.1) :
    Commute (fun a m => value.set m.1 m.2 a) e e' := by
  obtain ⟨n, v⟩ := e
  obtain ⟨n', v'⟩ := e'
  obtain ⟨f, hf, rfl⟩ := h.hasField_iff.mp he
  obtain ⟨g, hg, rfl⟩ := h.hasField_iff.mp he'
  have hput : f.Apart g := h.apart.forall hf hg fun heq => hne (heq ▸ rfl)
  intro a b
  simp only [(h.fits f hf).value_set, (h.fits g hg).value_set, bind_eq_ok_iff, map_eq_ok_iff]
  constructor
  · rintro ⟨-, ⟨u, hu, rfl⟩, w, hw, rfl⟩
    exact ⟨_, ⟨w, hw, rfl⟩, u, hu, hput u w a⟩
  · rintro ⟨-, ⟨w, hw, rfl⟩, u, hu, rfl⟩
    exact ⟨_, ⟨u, hu, rfl⟩, w, hw, (hput u w a).symm⟩

end Describes

end Names

/-! ## Members -/

section Members

variable {fs : List (Field α)} {ms : List (Option String × Tree)} {es : List (String × Json)}
  {a b : α}

theorem taken_cons {σ : Type} (sh : Shape σ α) (m : Option String × σ)
    (ms : List (Option String × σ)) : sh.taken (m :: ms) =
      match m.1 with
      | none => sh.taken ms
      | some n => if sh.hasField n then (n, m.2) :: sh.taken ms else sh.taken ms := by
  obtain ⟨_ | n, x⟩ := m
  · rfl
  · cases hfield : sh.hasField n <;> simp [Shape.taken, hfield]

theorem fill_cons {σ : Type} (sh : Shape σ α) (m : String × σ) (ms : List (String × σ)) :
    sh.fill a (m :: ms) = sh.set m.1 m.2 a >>= fun a => sh.fill a ms :=
  List.foldlM_cons

theorem taken_map_some (sh : Shape Json α) (es : List (String × Json)) :
    sh.taken (es.map fun e => (some e.1, e.2)) = es.filter fun e => sh.hasField e.1 := by
  induction es with
  | nil => rfl
  | cons e es ih =>
      rw [List.map_cons, taken_cons, List.filter_cons, ih]

/-- A field is repeated when its name is. -/
theorem nodup_taken_iff (sh : Shape Tree α) (ms : List (Option String × Tree)) :
    ((sh.taken ms).map Prod.fst).Nodup ↔
      ∀ n, sh.hasField n = true → (ms.map Prod.fst).count (some n) ≤ 1 := by
  have hcount : ∀ n, ((sh.taken ms).map Prod.fst).count n =
      if sh.hasField n then (ms.map Prod.fst).count (some n) else 0 := by
    intro n
    induction ms with
    | nil => simp [Shape.taken]
    | cons m ms ih =>
        obtain ⟨_ | k, x⟩ := m
        · rw [taken_cons, List.map_cons, List.count_cons_of_ne (by simp)]
          exact ih
        · rw [taken_cons, List.map_cons]
          by_cases hk : k = n
          · subst hk
            cases hfield : sh.hasField k <;> simp [hfield] at ih ⊢ <;> exact ih
          · cases hfield : sh.hasField k <;> simp [hfield, hk, ih]
  rw [List.nodup_iff_count_le_one]
  refine forall_congr' fun n => ?_
  rw [hcount]
  split <;> simp_all

theorem map_fst_taken (sh : Shape Tree α)
    (hms : List.Forall₂ (fun m e => m.1 = some e.1 ∧ m.2.toJson? = some e.2) ms es) :
    (sh.taken ms).map Prod.fst = (es.filter fun e => sh.hasField e.1).map Prod.fst := by
  induction hms with
  | nil => rfl
  | @cons m e ms es hm _ ih =>
      rw [taken_cons, List.filter_cons, hm.1]
      dsimp only
      split
      · rw [List.map_cons, List.map_cons, ih]
      · exact ih

namespace Describes

variable (h : Describes fs text value)

include h

/-- Members are entered alike from a text and from its value. -/
theorem fill_taken_iff
    (hms : List.Forall₂ (fun m e => m.1 = some e.1 ∧ m.2.toJson? = some e.2) ms es) :
    text.fill a (text.taken ms) = .ok b ↔
      value.fill a (es.filter fun e => text.hasField e.1) = .ok b ∧
        ∀ n p x, Layout.at? (fs.map Field.entry) n = some p → (some n, x) ∈ ms →
          ¬ p.Repeats x := by
  induction hms generalizing a with
  | nil => simp [Shape.taken, Shape.fill]
  | @cons m e ms es hm _ ih =>
      obtain ⟨_, x⟩ := m
      obtain ⟨n, v⟩ := e
      obtain ⟨rfl, hx⟩ := hm
      rw [taken_cons, List.filter_cons]
      dsimp only
      rcases h.at?_eq n with ⟨hfield, hat⟩ | ⟨f, hf, rfl, hfield, hat⟩
      · -- The member is passed over on both sides, and repeats nothing that is read.
        rw [hfield]
        simp only [Bool.false_eq_true, if_false, ih]
        refine and_congr_right fun _ => ⟨fun hrest n' p x' hat' hmem => ?_,
          fun hrest n' p x' hat' hmem => hrest n' p x' hat' (List.mem_cons_of_mem _ hmem)⟩
        rcases List.mem_cons.mp hmem with heq | hmem
        · cases heq
          rw [hat] at hat'
          cases hat'
        · exact hrest n' p x' hat' hmem
      · rw [hfield]
        simp only [if_true]
        have hfit := h.fits f hf
        have hhead := fun u => hfit.reads.value x v u (Tree.toJson?_eq_some_iff.mp hx)
        show text.set f.name x a >>= (text.fill · (text.taken ms)) = .ok b ↔
          value.set f.name v a >>= (value.fill · (es.filter fun e => text.hasField e.1)) = .ok b ∧ _
        rw [hfit.text_set, hfit.value_set, bind_eq_ok_iff, bind_eq_ok_iff]
        simp only [map_eq_ok_iff, hhead, ih]
        constructor
        · rintro ⟨-, ⟨u, ⟨hu, hrepeats⟩, rfl⟩, hfill, hrest⟩
          refine ⟨⟨_, ⟨u, hu, rfl⟩, hfill⟩, fun n' p x' hat' hmem => ?_⟩
          rcases List.mem_cons.mp hmem with heq | hmem
          · cases heq
            rw [hat] at hat'
            cases hat'
            exact hrepeats
          · exact hrest n' p x' hat' hmem
        · rintro ⟨⟨-, ⟨u, hu, rfl⟩, hfill⟩, hrest⟩
          exact ⟨_, ⟨u, ⟨hu, hrest f.name f.layout x hat List.mem_cons_self⟩, rfl⟩, hfill,
            fun n' p x' hat' hmem => hrest n' p x' hat' (List.mem_cons_of_mem _ hmem)⟩

theorem pairwise_commute (hnodup : ((es.filter fun e => text.hasField e.1).map Prod.fst).Nodup) :
    (es.filter fun e => text.hasField e.1).Pairwise (Commute fun a m => value.set m.1 m.2 a) := by
  have hne : (es.filter fun e => text.hasField e.1).Pairwise fun e e' => e.1 ≠ e'.1 :=
    List.pairwise_map.mp hnodup
  refine hne.imp_of_mem fun he he' hne => ?_
  exact h.commute (List.mem_filter.mp he).2 (List.mem_filter.mp he').2 hne

/-- Members are read alike from a text and from its value, unless a field is repeated. -/
theorem ofMembers_value_iff
    (hms : List.Forall₂ (fun m e => m.1 = some e.1 ∧ m.2.toJson? = some e.2) ms es) :
    text.ofMembers ms = .ok a ↔
      value.ofMembers ((Entries.ofList es).map fun e => (some e.1, e.2)) = .ok a ∧
        ¬ (Layout.record (fs.map Field.entry)).Repeats (.object ms) := by
  have hreadable : ∀ m ∈ ms, m.1 ≠ none := by
    clear h
    induction hms with
    | nil => simp
    | cons hm _ ih => simpa [hm.1] using ih
  have hreadable' : ∀ m ∈ (Entries.ofList es).map fun e => (some e.1, e.2), m.1 ≠ none := by
    intro m hm
    obtain ⟨e, -, rfl⟩ := List.mem_map.mp hm
    exact Option.some_ne_none e.1
  have hnames := map_fst_taken text hms
  have hfield : ∀ n, (Layout.at? (fs.map Field.entry) n).isSome ↔ text.hasField n = true := by
    intro n
    rcases h.at?_eq n with ⟨hfield, hat⟩ | ⟨f, -, -, hfield, hat⟩ <;> simp [hfield, hat]
  have hrepeats : ¬ (Layout.record (fs.map Field.entry)).Repeats (.object ms) ↔
      ((text.taken ms).map Prod.fst).Nodup ∧
        ∀ n p x, Layout.at? (fs.map Field.entry) n = some p → (some n, x) ∈ ms →
          ¬ p.Repeats x := by
    rw [Layout.repeats_record_iff, nodup_taken_iff]
    simp only [not_or, not_exists, not_and, not_lt, hfield]
  rw [Shape.ofMembers_eq_ok_iff, Shape.ofMembers_eq_ok_iff, hrepeats, h.fill_taken_iff hms,
    taken_map_some, h.fields_eq, h.start_eq]
  simp only [h.hasField_value]
  rw [hnames]
  -- The value has the same members for the fields, in another order.
  constructor
  · rintro ⟨-, hnodup, hrequired, hfill, hrest⟩
    have hperm := Entries.perm_filter_ofList hnodup
    refine ⟨⟨hreadable', ((hperm.map Prod.fst).nodup_iff).mpr hnodup, fun f hf hreq => ?_, ?_⟩,
      hnodup, hrest⟩
    · exact (hperm.map Prod.fst).mem_iff.mpr (hrequired f hf hreq)
    · exact (foldlM_perm hperm.symm (h.pairwise_commute hnodup)).mp hfill
  · rintro ⟨⟨-, -, hrequired, hfill⟩, hnodup, hrest⟩
    have hperm := Entries.perm_filter_ofList hnodup
    refine ⟨hreadable, hnodup, fun f hf hreq => ?_, ?_, hrest⟩
    · exact (hperm.map Prod.fst).mem_iff.mp (hrequired f hf hreq)
    · exact (foldlM_perm hperm.symm (h.pairwise_commute hnodup)).mpr hfill

end Describes

end Members

/-! ## What is passed over -/

section Strip

variable {fs : List (Field α)} {ms : List (Option String × Tree)} {a b : α}

theorem readable_strip_iff {fields : List (String × Layout)} :
    (∀ m ∈ ms.filterMap (Layout.stripMember fields), m.1 ≠ none) ↔ ∀ m ∈ ms, m.1 ≠ none := by
  induction ms with
  | nil => rfl
  | cons m ms ih =>
      obtain ⟨_ | n, x⟩ := m
      · simp [Layout.stripMember_none]
      · rw [List.filterMap_cons, Layout.stripMember_some]
        cases Layout.at? fields n <;> simpa using ih

namespace Describes

variable (h : Describes fs text value)

include h

theorem map_fst_taken_strip :
    (text.taken (ms.filterMap (Layout.stripMember (fs.map Field.entry)))).map Prod.fst =
      (text.taken ms).map Prod.fst := by
  induction ms with
  | nil => rfl
  | cons m ms ih =>
      obtain ⟨_ | n, x⟩ := m
      · rw [List.filterMap_cons, Layout.stripMember_none, taken_cons, taken_cons]
        exact ih
      · rw [List.filterMap_cons, Layout.stripMember_some, taken_cons]
        rcases h.at?_eq n with ⟨hfield, hat⟩ | ⟨f, -, rfl, hfield, hat⟩
        · simp [hat, hfield, ih]
        · simp [hat, hfield, taken_cons, ih]

/-- Entering the members does not look at what is passed over. -/
theorem fill_taken_strip :
    text.fill a (text.taken (ms.filterMap (Layout.stripMember (fs.map Field.entry)))) = .ok b ↔
      text.fill a (text.taken ms) = .ok b := by
  induction ms generalizing a with
  | nil => rfl
  | cons m ms ih =>
      obtain ⟨_ | n, x⟩ := m
      · rw [List.filterMap_cons, Layout.stripMember_none, taken_cons, taken_cons]
        exact ih
      · rw [List.filterMap_cons, Layout.stripMember_some, taken_cons]
        rcases h.at?_eq n with ⟨hfield, hat⟩ | ⟨f, hf, rfl, hfield, hat⟩
        · simp [hat, hfield, ih]
        · have hfit := h.fits f hf
          simp only [hat, hfield, Option.map_some, taken_cons, if_true, fill_cons, bind_eq_ok_iff,
            hfit.text_set, map_eq_ok_iff, hfit.reads.strip, ih]

/-- What is entered can be read. -/
theorem legible_members (hreadable : ∀ m ∈ ms, m.1 ≠ none)
    (hfill : text.fill a (text.taken ms) = .ok b) :
    (Tree.membersToJson? (ms.filterMap (Layout.stripMember (fs.map Field.entry)))).isSome := by
  induction ms generalizing a with
  | nil => rfl
  | cons m ms ih =>
      obtain ⟨hm, hms⟩ := List.forall_mem_cons.mp hreadable
      obtain ⟨_ | n, x⟩ := m
      · exact absurd rfl hm
      · rw [taken_cons] at hfill
        rw [List.filterMap_cons, Layout.stripMember_some]
        rcases h.at?_eq n with ⟨hfield, hat⟩ | ⟨f, hf, rfl, hfield, hat⟩
        · simp only [hfield, hat] at hfill ⊢
          exact ih hms hfill
        · have hfit := h.fits f hf
          simp only [hfield, if_true, fill_cons, bind_eq_ok_iff, hfit.text_set, map_eq_ok_iff]
            at hfill
          obtain ⟨-, ⟨u, hu, rfl⟩, hfill⟩ := hfill
          obtain ⟨v, hv⟩ := Option.isSome_iff_exists.mp (hfit.reads.legible x u hu)
          obtain ⟨es, hes⟩ := Option.isSome_iff_exists.mp (ih hms hfill)
          simp [hat, Tree.membersToJson?, hv, hes]

end Describes

end Strip

/-! ## Items -/

section Items

variable {fs : List (Field α)} {ps : List (String × Presence)} {xs : List Tree} {a b : α}

theorem ofItems_cons_eq_ok_iff {σ : Type} [Source σ] {sh : Shape σ α} {total index : Nat}
    {p : String × Presence} {x : σ} {xs : List σ} :
    sh.ofItems total index (p :: ps) (x :: xs) a = .ok b ↔
      ∃ c, sh.set p.1 x a = .ok c ∧ sh.ofItems total (index + 1) ps xs c = .ok b := by
  rw [Shape.ofItems, bind_eq_ok_iff]

/-- An array that is too short is completed by the fields that need not be written. -/
theorem ofItems_nil_eq_ok_iff {σ : Type} [Source σ] {sh : Shape σ α} {total index : Nat} :
    sh.ofItems total index ps [] a = .ok b ↔ (∀ p ∈ ps, p.2 = .defaulted) ∧ a = b := by
  induction ps generalizing index with
  | nil => simp [Shape.ofItems]
  | cons p ps ih =>
      rw [Shape.ofItems]
      split <;> simp_all

/-- Items are entered alike from a text and from its value. -/
theorem ofItems_value_iff {vs : List Json} {total total' index : Nat}
    (hnames : ps.map Prod.fst = fs.map Field.name) (hfits : ∀ f ∈ fs, f.Fits text value)
    (hxs : List.Forall₂ (fun x v => x.toJson? = some v) xs vs) :
    text.ofItems total index ps xs a = .ok b ↔
      value.ofItems total' index ps vs a = .ok b ∧
        ¬ (Layout.record (fs.map Field.entry)).Repeats (.array xs) := by
  rw [Layout.repeats_items_iff]
  induction fs generalizing ps xs vs a index with
  | nil =>
      rw [List.map_eq_nil_iff.mp hnames]
      cases hxs <;> simp [Shape.ofItems]
  | cons f fs ih =>
      obtain ⟨⟨n, presence⟩, ps, rfl, rfl, hrest⟩ := List.map_eq_cons_iff.mp hnames
      obtain ⟨hfit, hfits⟩ := List.forall_mem_cons.mp hfits
      cases hxs with
      | nil =>
          rw [ofItems_nil_eq_ok_iff, ofItems_nil_eq_ok_iff]
          simp
      | @cons x v xs vs hx hxs =>
          have hhead := fun u => hfit.reads.value x v u (Tree.toJson?_eq_some_iff.mp hx)
          rw [ofItems_cons_eq_ok_iff, ofItems_cons_eq_ok_iff]
          simp only [hfit.text_set, hfit.value_set, map_eq_ok_iff, hhead, ih hrest hfits hxs]
          have hrepeats : (∃ e y, (e, y) ∈ ((f :: fs).map Field.entry).zip (x :: xs) ∧
              e.2.Repeats y) ↔ f.layout.Repeats x ∨
                ∃ e y, (e, y) ∈ (fs.map Field.entry).zip xs ∧ e.2.Repeats y := by
            simp [Field.entry, or_and_right, exists_or]
          rw [hrepeats]
          grind

/-- Entering the items does not look at what is passed over. -/
theorem ofItems_strip {total total' index : Nat}
    (hnames : ps.map Prod.fst = fs.map Field.name) (hfits : ∀ f ∈ fs, f.Fits text value) :
    text.ofItems total index ps (Layout.stripItems (fs.map Field.entry) xs) a = .ok b ↔
      text.ofItems total' index ps xs a = .ok b := by
  induction fs generalizing ps xs a index with
  | nil =>
      rw [List.map_eq_nil_iff.mp hnames]
      cases xs <;> simp [Layout.stripItems, Shape.ofItems]
  | cons f fs ih =>
      obtain ⟨⟨n, presence⟩, ps, rfl, hname, hnames⟩ := List.map_eq_cons_iff.mp hnames
      obtain ⟨hfit, hfits⟩ := List.forall_mem_cons.mp hfits
      cases xs with
      | nil =>
          rw [List.map_cons, Layout.stripItems, ofItems_nil_eq_ok_iff, ofItems_nil_eq_ok_iff]
          simp
      | cons x xs =>
          rw [List.map_cons, Field.entry, Layout.stripItems, ofItems_cons_eq_ok_iff,
            ofItems_cons_eq_ok_iff]
          dsimp only at hname ⊢
          simp only [hname, hfit.text_set, map_eq_ok_iff, hfit.reads.strip, ih hnames hfits]

theorem legible_items {total index : Nat} (hnames : ps.map Prod.fst = fs.map Field.name)
    (hfits : ∀ f ∈ fs, f.Fits text value) (hok : text.ofItems total index ps xs a = .ok b) :
    (Tree.itemsToJson? (Layout.stripItems (fs.map Field.entry) xs)).isSome := by
  induction fs generalizing ps xs a index with
  | nil =>
      rw [List.map_eq_nil_iff.mp hnames] at hok
      cases xs with
      | nil => rfl
      | cons x xs => simp [Shape.ofItems] at hok
  | cons f fs ih =>
      obtain ⟨⟨n, presence⟩, ps, rfl, hname, hnames⟩ := List.map_eq_cons_iff.mp hnames
      obtain ⟨hfit, hfits⟩ := List.forall_mem_cons.mp hfits
      cases xs with
      | nil => rfl
      | cons x xs =>
          rw [ofItems_cons_eq_ok_iff] at hok
          dsimp only at hname hok
          simp only [hname, hfit.text_set, map_eq_ok_iff] at hok
          obtain ⟨-, ⟨u, hu, rfl⟩, hrest⟩ := hok
          obtain ⟨v, hv⟩ := Option.isSome_iff_exists.mp (hfit.reads.legible x u hu)
          obtain ⟨vs, hvs⟩ := Option.isSome_iff_exists.mp (ih hnames hfits hrest)
          simp [Field.entry, Layout.stripItems, Tree.itemsToJson?, hv, hvs]

end Items

/-! ## Records -/

/-- A record is read alike from a text and from its value, unless it repeats something. -/
theorem reads_record {fs : List (Field α)} (h : Describes fs text value) :
    Reads text.decode value.decode (.record (fs.map Field.entry)) where
  value t v a hv := by
    cases hv with
    | null | bool | number | string =>
        constructor
        · rintro ⟨⟩
        · rintro ⟨⟨⟩, -⟩
    | @array xs vs hxs =>
        show text.ofItems xs.length 0 text.fields xs text.start = .ok a ↔
          value.ofItems vs.length 0 value.fields vs value.start = .ok a ∧ _
        rw [h.fields_eq, h.start_eq]
        exact ofItems_value_iff h.names h.fits hxs
    | @object ms es hms => exact h.ofMembers_value_iff hms
  strip t a := by
    cases t with
    | null | bool | number | string | unreadable => simp [Layout.strip]
    | array xs =>
        simp only [Layout.strip]
        exact ofItems_strip h.names h.fits
    | object ms =>
        simp only [Layout.strip]
        show text.ofMembers _ = .ok a ↔ text.ofMembers ms = .ok a
        rw [Shape.ofMembers_eq_ok_iff, Shape.ofMembers_eq_ok_iff, readable_strip_iff,
          h.map_fst_taken_strip, h.fill_taken_strip]
  legible t a hok := by
    cases t with
    | null | bool | number | string | unreadable => cases hok
    | array xs =>
        simpa [Layout.strip, Tree.toJson?] using legible_items h.names h.fits hok
    | object ms =>
        obtain ⟨hreadable, -, -, hfill⟩ := Shape.ofMembers_eq_ok_iff.mp hok
        simpa [Layout.strip, Tree.toJson?] using h.legible_members hreadable hfill

end Dialogue
