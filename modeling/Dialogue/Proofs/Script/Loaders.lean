import Dialogue.Proofs.Script.Fields
/-!
# The two loaders of scripts

A script can be loaded in two ways. `Document.load` decodes a single document straight from its
text; `Document.loadAll` takes the value of the text first, and accepts a list of documents too. On
the text of an object they do the same but for two things: `load` refuses a field that is written
twice, where `loadAll` takes the later one, and `loadAll` refuses a text with a part that cannot be
read, even where that part is passed over.

* `reads_document` — the same decoder, run on a text and on its value.
* `Document.load_eq_ok_iff` — what `load` accepts.
* `Document.loaders_agree_iff` — exactly when the two loaders agree.
-/

namespace Dialogue

open Decode

/-- A field is entered by decoding it and putting it into the record. -/
theorem Field.fits_of {α : Type} {f : Field α} {text : Shape Tree α} {value : Shape Json α}
    (hreads : Reads f.text f.value f.layout)
    (htext : ∀ x a, text.set f.name x a = do return f.put (← f.text x) a)
    (hvalue : ∀ v a, value.set f.name v a = do return f.put (← f.value v) a) :
    f.Fits text value where
  reads := hreads
  text_set x a := by
    rw [htext]
    cases f.text x <;> rfl
  value_set v a := by
    rw [hvalue]
    cases f.value v <;> rfl

/-! ## Options -/

theorem reads_matchKind : Reads MatchKind.decode MatchKind.decode .choice := reads_choice

namespace CollectOption

/-- What is read of an option. -/
def layout : Layout :=
  .record [("default", .whole), ("type", .choice), ("pattern", .whole), ("action", .whole)]

/-- The fields of an option. -/
def fields : List (Field CollectOption) :=
  [⟨"default", .whole, _, bool, bool, fun b o => { o with isDefault := b }⟩,
   ⟨"type", .choice, _, option MatchKind.decode, option MatchKind.decode,
     fun k o => { o with kind := k }⟩,
   ⟨"pattern", .whole, _, option Decode.string, option Decode.string,
     fun p o => { o with pattern := p }⟩,
   ⟨"action", .whole, _, Decode.string, Decode.string, fun a o => { o with action := a }⟩]

theorem describes_fields : Describes fields shape shape where
  names := rfl
  fields_eq := rfl
  start_eq := rfl
  distinct := by decide
  fits := by
    simp only [fields, List.forall_mem_cons]
    exact ⟨Field.fits_of reads_bool (fun _ _ => rfl) fun _ _ => rfl,
      Field.fits_of (reads_option reads_matchKind) (fun _ _ => rfl) fun _ _ => rfl,
      Field.fits_of (reads_option reads_string) (fun _ _ => rfl) fun _ _ => rfl,
      Field.fits_of reads_string (fun _ _ => rfl) fun _ _ => rfl, List.forall_mem_nil _⟩
  apart := by simp [fields, Field.Apart]

end CollectOption

theorem reads_collectOption :
    Reads CollectOption.decode CollectOption.decode CollectOption.layout :=
  reads_record CollectOption.describes_fields

/-! ## The parts of a step -/

namespace Collect

/-- What is read of a collect. -/
def layout : Layout :=
  .record [("key", .whole), ("multiple", .whole), ("options", .list CollectOption.layout)]

/-- The fields of a collect. -/
def fields : List (Field Collect) :=
  [⟨"key", .whole, _, option Decode.string, option Decode.string, fun k c => { c with key := k }⟩,
   ⟨"multiple", .whole, _, bool, bool, fun b c => { c with multiple := b }⟩,
   ⟨"options", .list CollectOption.layout, _, list CollectOption.decode, list CollectOption.decode,
     fun os c => { c with options := os }⟩]

theorem describes_fields : Describes fields shape shape where
  names := rfl
  fields_eq := rfl
  start_eq := rfl
  distinct := by decide
  fits := by
    simp only [fields, List.forall_mem_cons]
    exact ⟨Field.fits_of (reads_option reads_string) (fun _ _ => rfl) fun _ _ => rfl,
      Field.fits_of reads_bool (fun _ _ => rfl) fun _ _ => rfl,
      Field.fits_of (reads_list reads_collectOption) (fun _ _ => rfl) fun _ _ => rfl,
      List.forall_mem_nil _⟩
  apart := by simp [fields, Field.Apart]

end Collect

theorem reads_collect : Reads Collect.decode Collect.decode Collect.layout :=
  reads_record Collect.describes_fields

namespace QuickReply

/-- What is read of a quick reply. -/
def layout : Layout := .record [("title", .whole), ("payload", .whole)]

/-- The fields of a quick reply. -/
def fields : List (Field QuickReply) :=
  [⟨"title", .whole, _, Decode.string, Decode.string, fun t r => { r with title := t }⟩,
   ⟨"payload", .whole, _, Decode.string, Decode.string, fun p r => { r with payload := p }⟩]

theorem describes_fields : Describes fields shape shape where
  names := rfl
  fields_eq := rfl
  start_eq := rfl
  distinct := by decide
  fits := by
    simp only [fields, List.forall_mem_cons]
    exact ⟨Field.fits_of reads_string (fun _ _ => rfl) fun _ _ => rfl,
      Field.fits_of reads_string (fun _ _ => rfl) fun _ _ => rfl, List.forall_mem_nil _⟩
  apart := by simp [fields, Field.Apart]

end QuickReply

theorem reads_quickReply : Reads QuickReply.decode QuickReply.decode QuickReply.layout :=
  reads_record QuickReply.describes_fields

namespace MetaEntry

/-- What is read of a meta entry. Its value is read whole, so that objects in it may have members of
one name. -/
def layout : Layout := .record [("key", .whole), ("value", .whole)]

/-- The fields of a meta entry. -/
def fields : List (Field MetaEntry) :=
  [⟨"key", .whole, _, Decode.string, Decode.string, fun k e => { e with key := k }⟩,
   ⟨"value", .whole, _, any, any, fun v e => { e with value := v }⟩]

theorem describes_fields : Describes fields shape shape where
  names := rfl
  fields_eq := rfl
  start_eq := rfl
  distinct := by decide
  fits := by
    simp only [fields, List.forall_mem_cons]
    exact ⟨Field.fits_of reads_string (fun _ _ => rfl) fun _ _ => rfl,
      Field.fits_of reads_any (fun _ _ => rfl) fun _ _ => rfl, List.forall_mem_nil _⟩
  apart := by simp [fields, Field.Apart]

end MetaEntry

theorem reads_metaEntry : Reads MetaEntry.decode MetaEntry.decode MetaEntry.layout :=
  reads_record MetaEntry.describes_fields

/-! ## Steps, threads, documents -/

namespace Step

/-- What is read of a step. -/
def layout : Layout :=
  .record [("text", .list .whole), ("quick_replies", .list QuickReply.layout),
    ("collect", Collect.layout), ("action", .whole), ("meta", .list MetaEntry.layout)]

/-- The fields of a step. -/
def fields : List (Field Step) :=
  [⟨"text", .list .whole, _, option (list Decode.string), option (list Decode.string),
     fun ls t => { t with text := ls }⟩,
   ⟨"quick_replies", .list QuickReply.layout, _, option (list QuickReply.decode),
     option (list QuickReply.decode), fun rs t => { t with quickReplies := rs }⟩,
   ⟨"collect", Collect.layout, _, option Collect.decode, option Collect.decode,
     fun c t => { t with collect := c }⟩,
   ⟨"action", .whole, _, option Decode.string, option Decode.string,
     fun a t => { t with action := a }⟩,
   ⟨"meta", .list MetaEntry.layout, _, option (list MetaEntry.decode),
     option (list MetaEntry.decode), fun es t => { t with metaEntries := es }⟩]

theorem describes_fields : Describes fields shape shape where
  names := rfl
  fields_eq := rfl
  start_eq := rfl
  distinct := by decide
  fits := by
    simp only [fields, List.forall_mem_cons]
    exact ⟨Field.fits_of (reads_option (reads_list reads_string)) (fun _ _ => rfl) fun _ _ => rfl,
      Field.fits_of (reads_option (reads_list reads_quickReply)) (fun _ _ => rfl) fun _ _ => rfl,
      Field.fits_of (reads_option reads_collect) (fun _ _ => rfl) fun _ _ => rfl,
      Field.fits_of (reads_option reads_string) (fun _ _ => rfl) fun _ _ => rfl,
      Field.fits_of (reads_option (reads_list reads_metaEntry)) (fun _ _ => rfl) fun _ _ => rfl,
      List.forall_mem_nil _⟩
  apart := by simp [fields, Field.Apart]

end Step

theorem reads_step : Reads Step.decode Step.decode Step.layout :=
  reads_record Step.describes_fields

namespace Thread

/-- What is read of a thread. -/
def layout : Layout := .record [("topic", .whole), ("script", .list Step.layout)]

/-- The fields of a thread. -/
def fields : List (Field Thread) :=
  [⟨"topic", .whole, _, Decode.string, Decode.string, fun s t => { t with topic := s }⟩,
   ⟨"script", .list Step.layout, _, list Step.decode, list Step.decode,
     fun sts t => { t with steps := sts }⟩]

theorem describes_fields : Describes fields shape shape where
  names := rfl
  fields_eq := rfl
  start_eq := rfl
  distinct := by decide
  fits := by
    simp only [fields, List.forall_mem_cons]
    exact ⟨Field.fits_of reads_string (fun _ _ => rfl) fun _ _ => rfl,
      Field.fits_of (reads_list reads_step) (fun _ _ => rfl) fun _ _ => rfl,
      List.forall_mem_nil _⟩
  apart := by simp [fields, Field.Apart]

end Thread

theorem reads_thread : Reads Thread.decode Thread.decode Thread.layout :=
  reads_record Thread.describes_fields

namespace Document

/-- What is read of a document. -/
def layout : Layout := .record [("script", .list Thread.layout)]

/-- The only field of a document. -/
def fields : List (Field Document) :=
  [⟨"script", .list Thread.layout, _, list Thread.decode, list Thread.decode,
     fun ths d => { d with threads := ths }⟩]

theorem describes_fields : Describes fields shape shape where
  names := rfl
  fields_eq := rfl
  start_eq := rfl
  distinct := by decide
  fits := by
    simp only [fields, List.forall_mem_cons]
    exact ⟨Field.fits_of (reads_list reads_thread) (fun _ _ => rfl) fun _ _ => rfl,
      List.forall_mem_nil _⟩
  apart := by simp [fields, Field.Apart]

end Document

theorem reads_document : Reads Document.decode Document.decode Document.layout :=
  reads_record Document.describes_fields

/-! ## Loading -/

namespace Document

variable {text : String} {t : Tree} {ms : List (Option String × Tree)} {d : Document}

/-- The tree has a value, from which the document is decoded. -/
def OfValue (t : Tree) (d : Document) : Prop := ∃ v, t.toJson? = some v ∧ decode v = .ok d

/-- A document is decoded from a text when no field is repeated and it can be decoded from the value
of what is read. -/
theorem decode_tree_eq_ok_iff :
    decode t = .ok d ↔ ¬ layout.Repeats t ∧ OfValue (layout.strip t) d := by
  rw [← reads_document.strip]
  constructor
  · intro hok
    obtain ⟨v, hv⟩ := Option.isSome_iff_exists.mp
      (reads_document.legible t d ((reads_document.strip t d).mp hok))
    obtain ⟨hdecode, hrepeats⟩ :=
      (reads_document.value _ v d (Tree.toJson?_eq_some_iff.mp hv)).mp hok
    exact ⟨fun h => hrepeats (Layout.repeats_strip_iff.mpr h), v, hv, hdecode⟩
  · rintro ⟨hrepeats, v, hv, hdecode⟩
    refine (reads_document.value _ v d (Tree.toJson?_eq_some_iff.mp hv)).mpr ⟨hdecode, fun h => ?_⟩
    exact hrepeats (Layout.repeats_strip_iff.mp h)

/-- Where the whole text can be read, what is passed over makes no difference. -/
theorem ofValue_strip_iff (hlegible : (t.toJson?).isSome) (hrepeats : ¬ layout.Repeats t) :
    OfValue (layout.strip t) d ↔ OfValue t d := by
  obtain ⟨v, hv⟩ := Option.isSome_iff_exists.mp hlegible
  have hdecode : decode t = .ok d ↔ OfValue (layout.strip t) d :=
    decode_tree_eq_ok_iff.trans (and_iff_right hrepeats)
  rw [← hdecode, reads_document.value t v d (Tree.toJson?_eq_some_iff.mp hv),
    and_iff_left hrepeats, OfValue, hv]
  simp

theorem load_eq_ok_iff (h : Tree.read? text = some t) :
    load text = .ok d ↔ ¬ layout.Repeats t ∧ OfValue (layout.strip t) d := by
  rw [← decode_tree_eq_ok_iff, load, decodeText, h]
  dsimp only
  cases decode t <;> simp

/-- The value of an object is taken for a single document. -/
theorem loadAll_eq_ok_iff (h : Tree.read? text = some (.object ms)) {ds : List Document} :
    loadAll text = .ok ds ↔ ∃ d, OfValue (.object ms) d ∧ [d] = ds := by
  have hread : Json.read? text = (Tree.membersToJson? ms).map Json.ofMembers := by
    rw [Json.read?, h]
    rfl
  rw [loadAll, hread]
  simp only [OfValue, Tree.toJson?]
  cases Tree.membersToJson? ms with
  | none => simp
  | some es =>
      show (decode (Json.ofMembers es)).map (fun d => [d]) = .ok ds ↔ _
      simp [map_eq_ok_iff]

/-- The two loaders agree on a text: `loadAll` reads it as a single document exactly when `load`
reads it as that document, and otherwise both fail. -/
def LoadersAgree (text : String) : Prop :=
  (∀ d, loadAll text = .ok [d] ↔ load text = .ok d) ∧
    ((∀ d, load text ≠ .ok d) → ∃ e e', loadAll text = .error e ∧ load text = .error e')

/-- On the text of an object neither loader gives anything but a single document. -/
theorem loadersAgree_iff_same (h : Tree.read? text = some (.object ms)) :
    LoadersAgree text ↔ ∀ d, loadAll text = .ok [d] ↔ load text = .ok d := by
  refine and_iff_left_of_imp fun hsame hnone => ?_
  cases hload : load text with
  | ok d => exact absurd hload (hnone d)
  | error e' =>
      cases hall : loadAll text with
      | error e => exact ⟨e, e', rfl, rfl⟩
      | ok ds =>
          obtain ⟨d, -, rfl⟩ := (loadAll_eq_ok_iff h).mp hall
          exact absurd ((hsame d).mp hall) (hnone d)

/-- On the text of an object the two loaders agree but in two cases: a field that is read is written
twice and the value, in which the later one counts, makes a document; or there is no value, but
without what is passed over there is one, and it makes a document. -/
theorem loaders_agree_iff (h : Tree.read? text = some (.object ms)) :
    LoadersAgree text ↔
      (layout.Repeats (.object ms) → ¬ ∃ d, OfValue (.object ms) d) ∧
        (¬ layout.Repeats (.object ms) → (Tree.object ms).toJson? = none →
          ¬ ∃ d, OfValue (layout.strip (.object ms)) d) := by
  have hall : ∀ d, loadAll text = .ok [d] ↔ OfValue (.object ms) d := by
    intro d
    rw [loadAll_eq_ok_iff h]
    simp
  rw [loadersAgree_iff_same h]
  simp only [hall, load_eq_ok_iff h, not_exists]
  by_cases hrepeats : layout.Repeats (.object ms)
  · simp [hrepeats]
  · cases hvalue : (Tree.object ms).toJson? with
    | none => simp [hrepeats, OfValue, hvalue]
    | some v =>
        have hlegible : ((Tree.object ms).toJson?).isSome := by rw [hvalue]; rfl
        simp [hrepeats, ofValue_strip_iff hlegible hrepeats]

/-- A script without threads and with a note, which is passed over. -/
def notedText : String := "\x7b\"script\":[],\"note\":\"later\"\x7d"

/-- The members of the text. -/
def notedMembers : List (Option String × Tree) :=
  [(some "script", .array []), (some "note", .string "later")]

theorem not_repeats_noted : ¬ layout.Repeats (.object notedMembers) := by
  rw [layout, Layout.repeats_record_iff]
  rintro (⟨name, -, hcount⟩ | ⟨name, p, x, hat, hmem, hitem⟩)
  · have hnodup : (notedMembers.map Prod.fst).Nodup := by decide
    exact absurd (List.nodup_iff_count_le_one.mp hnodup (some name)) (not_le.mpr hcount)
  · rcases List.mem_cons.mp hmem with heq | hmem
    · cases heq
      cases hat
      rw [Layout.repeats_list_iff] at hitem
      simp at hitem
    · cases List.mem_singleton.mp hmem
      cases hat

set_option maxRecDepth 1024 in
theorem loaders_agree_noted :
    Tree.read? notedText = some (.object notedMembers) ∧ LoadersAgree notedText := by
  have hread : Tree.read? notedText = some (.object notedMembers) := by cbv
  refine ⟨hread, (loaders_agree_iff hread).mpr
    ⟨fun h => absurd h not_repeats_noted, fun _ hvalue => ?_⟩⟩
  cases hvalue

/-- A script in which the field of the threads is written twice. -/
def repeatedText : String := "\x7b\"script\":[\x7b\"topic\":\"default\"\x7d],\"script\":[]\x7d"

set_option maxRecDepth 1024 in
/-- A repeated field is refused by `load`, but `loadAll` takes the later one. -/
theorem loaders_differ_on_repeated :
    (∃ ms, Tree.read? repeatedText = some (.object ms)) ∧
      loadAll repeatedText = .ok [⟨[]⟩] ∧ load repeatedText = .error (.duplicateField "script") ∧
      ¬ LoadersAgree repeatedText := by
  have hread : ∃ ms, Tree.read? repeatedText = some (.object ms) := ⟨_, by cbv⟩
  have hall : loadAll repeatedText = .ok [⟨[]⟩] := by cbv
  have hload : load repeatedText = .error (.duplicateField "script") := by cbv
  refine ⟨hread, hall, hload, fun hagree => ?_⟩
  have hok := (hagree.1 ⟨[]⟩).mp hall
  rw [hload] at hok
  cases hok

set_option maxRecDepth 1024 in
/-- Half of a surrogate pair is refused by `loadAll`, even where it is passed over. -/
example : load "\x7b\"script\":[],\"note\":\"\\ud800\"\x7d" = .ok ⟨[]⟩ ∧
    loadAll "\x7b\"script\":[],\"note\":\"\\ud800\"\x7d" = .error .notJson :=
  ⟨by cbv, by cbv⟩

end Document

end Dialogue
