import Mathlib.Data.List.Permutation
import Dialogue.Script.Encoding
/-!
# Scripts survive being written

A script that is written as a value and decoded again is the same script. Decoders and encoders are
built alike, so the same is shown of their parts first: of texts, lists and absent values, and of
records, whose members may stand in any order as long as each stands there once.

* `Shape.decode_object` — a record is what its members, entered one after the other, make of it.
* `restores_step` — absent parts of a step are left out, and are absent again.
* `restores_documents` — so a list of documents comes back, and so does a document by itself.
-/

namespace Dialogue

namespace Decode

variable {α : Type}

/-- Decoding gives back what was encoded. -/
def Restores (decode : Json → Decoded α) (encode : α → Json) : Prop :=
  ∀ a, decode (encode a) = .ok a

/-! ## Single values -/

theorem restores_string : Restores string Json.string := fun _ => rfl

theorem restores_bool : Restores bool Json.bool := fun _ => rfl

/-- A value stands for itself. -/
theorem any_eq_ok (v : Json) : any v = .ok v := rfl

section Lists

variable {decode : Json → Decoded α} {encode : α → Json}

theorem mapM_map_of_restores (h : Restores decode encode) (as : List α) :
    (as.map encode).mapM decode = .ok as := by
  induction as with
  | nil => rfl
  | cons a as ih =>
      rw [List.map_cons, List.mapM_cons, h a, ih]
      rfl

theorem restores_list (h : Restores decode encode) :
    Restores (list decode) fun as => .array (as.map encode) :=
  mapM_map_of_restores h

/-- Absence is written as `null`, so nothing else may be. -/
theorem option_of_ne_null {v : Json} (hnull : v ≠ .null) :
    option decode v = (decode v).map some := by
  cases v with
  | null => exact absurd rfl hnull
  | bool | number | string | array | object => rfl

theorem restores_option (h : Restores decode encode) (hnull : ∀ a, encode a ≠ .null) :
    Restores (option decode) (Json.opt encode) := by
  intro o
  cases o with
  | none => rfl
  | some a =>
      show option decode (encode a) = .ok (some a)
      rw [option_of_ne_null (hnull a), h a]
      rfl

end Lists

/-! ## Records -/

namespace Shape

variable {sh : Shape Json α} {ms : List (String × Json)} {names names' : List String} {a : α}

/-- Members of these names make up a record: all are known and different, and those that are
required are among them. -/
structure Covers (sh : Shape Json α) (names : List String) : Prop where
  known : ∀ name ∈ names, sh.hasField name = true
  distinct : names.Nodup
  complete : ∀ f ∈ sh.fields, f.2 = .required → f.1 ∈ names

instance : Decidable (sh.Covers names) :=
  decidable_of_iff ((∀ name ∈ names, sh.hasField name = true) ∧ names.Nodup ∧
      ∀ f ∈ sh.fields, f.2 = .required → f.1 ∈ names)
    ⟨fun h => ⟨h.1, h.2.1, h.2.2⟩, fun h => ⟨h.known, h.distinct, h.complete⟩⟩

/-- Members may be left out where none is required. -/
theorem Covers.sublist (h : sh.Covers names) (hsub : names'.Sublist names)
    (hnone : ∀ f ∈ sh.fields, f.2 ≠ .required) : sh.Covers names' where
  known name hname := h.known name (hsub.subset hname)
  distinct := h.distinct.sublist hsub
  complete f hf hreq := absurd hreq (hnone f hf)

/-- Enters a member into a record. -/
def enter (sh : Shape Json α) (a : α) (m : String × Json) : Decoded α := sh.set m.1 m.2 a

/-- A member of a known name that was not seen before is entered. -/
theorem takeMember_of_new {seen : List String} {m : String × Json} (hknown : sh.hasField m.1 = true)
    (hnew : m.1 ∉ seen) :
    sh.takeMember (seen, a) (some m.1, m.2) = (sh.enter a m).map fun b => (m.1 :: seen, b) := by
  simp [takeMember, hknown, hnew, enter]

/-- Members of known and different names are entered one after the other. -/
theorem foldlM_takeMember {seen : List String} (hknown : ∀ name ∈ ms.map Prod.fst, sh.hasField name)
    (hdistinct : (ms.map Prod.fst).Nodup) (hnew : ∀ name ∈ ms.map Prod.fst, name ∉ seen) :
    (ms.map fun m => (some m.1, m.2)).foldlM sh.takeMember (seen, a) =
      (ms.foldlM sh.enter a).map fun b => ((ms.map Prod.fst).reverse ++ seen, b) := by
  induction ms generalizing seen a with
  | nil => rfl
  | cons m ms ih =>
      rw [List.map_cons, List.nodup_cons] at hdistinct
      rw [List.map_cons, List.forall_mem_cons] at hknown hnew
      rw [List.map_cons, List.foldlM_cons, List.foldlM_cons, takeMember_of_new hknown.1 hnew.1]
      cases hm : sh.enter a m with
      | error e => rfl
      | ok b =>
          have hrest : ∀ name ∈ ms.map Prod.fst, name ∉ m.1 :: seen := by
            intro name hname hmem
            rcases List.mem_cons.mp hmem with rfl | hmem
            · exact hdistinct.1 hname
            · exact hnew.2 name hname hmem
          show List.foldlM sh.takeMember (m.1 :: seen, b) _ = (ms.foldlM sh.enter b).map _
          rw [ih hknown.2 hdistinct.2 hrest]
          simp

/-- A record is what its members make of it, entered one after the other. -/
theorem decode_object (hnames : ms.map Prod.fst = names) (h : sh.Covers names) :
    sh.decode (.object ms) = ms.foldlM sh.enter sh.start := by
  subst hnames
  have hmissing : sh.missing? (ms.map Prod.fst).reverse = none := by
    simp only [missing?, Option.map_eq_none_iff, List.find?_eq_none]
    intro f hf
    by_cases hreq : f.2 = .required
    · simp [List.mem_reverse, h.complete f hf hreq]
    · simp [hreq]
  show sh.ofMembers _ = _
  rw [ofMembers, foldlM_takeMember h.known h.distinct (fun _ _ => List.not_mem_nil),
    List.append_nil]
  cases ms.foldlM sh.enter sh.start with
  | error e => rfl
  | ok b =>
      simp only [Except.map, bind, Except.bind]
      rw [hmissing]

end Shape

end Decode

open Decode

/-! ## The parts of a step -/

theorem restores_matchKind : Restores MatchKind.decode MatchKind.toJson := by
  intro k
  cases k <;> rfl

theorem restores_collectOption : Restores CollectOption.decode CollectOption.toJson := by
  intro o
  have hkind := restores_option restores_matchKind (fun _ => Json.noConfusion) o.kind
  have hpattern := restores_option restores_string (fun _ => Json.noConfusion) o.pattern
  have hcovers : CollectOption.shape.Covers ["action", "default", "pattern", "type"] := by decide
  apply (Shape.decode_object rfl hcovers).trans
  simp only [List.foldlM_cons, List.foldlM_nil, Shape.enter, CollectOption.shape]
  rw [restores_bool o.isDefault, restores_string o.action, hkind, hpattern]
  rfl

theorem restores_collect : Restores Collect.decode Collect.toJson := by
  intro c
  have hkey := restores_option restores_string (fun _ => Json.noConfusion) c.key
  have hoptions := restores_list restores_collectOption c.options
  have hcovers : Collect.shape.Covers ["key", "multiple", "options"] := by decide
  apply (Shape.decode_object rfl hcovers).trans
  simp only [List.foldlM_cons, List.foldlM_nil, Shape.enter, Collect.shape]
  rw [restores_bool c.multiple, hkey, hoptions]
  rfl

theorem restores_quickReply : Restores QuickReply.decode QuickReply.toJson := by
  intro r
  have hcovers : QuickReply.shape.Covers ["payload", "title"] := by decide
  apply (Shape.decode_object rfl hcovers).trans
  simp only [List.foldlM_cons, List.foldlM_nil, Shape.enter, QuickReply.shape]
  rw [restores_string r.title, restores_string r.payload]
  rfl

/-- The value of an entry may be any value. -/
theorem restores_metaEntry : Restores MetaEntry.decode MetaEntry.toJson := by
  intro e
  have hcovers : MetaEntry.shape.Covers ["key", "value"] := by decide
  apply (Shape.decode_object rfl hcovers).trans
  simp only [List.foldlM_cons, List.foldlM_nil, Shape.enter, MetaEntry.shape]
  rw [restores_string e.key, any_eq_ok e.value]
  rfl

/-! ## Steps, threads, documents -/

section OptionalMembers

variable {α β : Type} {encode : β → Json}

theorem map_fst_optionalMember {name : String} {o : Option β} :
    ((optionalMember name encode o).map Prod.fst).Sublist [name] := by
  cases o with
  | none => exact List.nil_sublist _
  | some b => exact List.Sublist.refl _

theorem foldlM_append_of_ok {f : α → β → Decoded α} {xs ys : List β} {a b c : α}
    (hx : xs.foldlM f a = .ok b) (hy : ys.foldlM f b = .ok c) : (xs ++ ys).foldlM f a = .ok c := by
  rw [List.foldlM_append, hx]
  exact hy

/-- A part that is absent is not entered, and leaves the record as it is. -/
theorem foldlM_optionalMember (sh : Shape Json α) (name : String) {decode : Json → Decoded β}
    (put : Option β → α)
    (hset : ∀ v, sh.set name v (put none) = do return put (← option decode v))
    (h : Restores decode encode) (hnull : ∀ b, encode b ≠ .null) (o : Option β) :
    (optionalMember name encode o).foldlM sh.enter (put none) = .ok (put o) := by
  cases o with
  | none => rfl
  | some b =>
      have hread : option decode (encode b) = .ok (some b) := restores_option h hnull (some b)
      rw [optionalMember, List.foldlM_cons, Shape.enter, hset, hread]
      rfl

end OptionalMembers

/-- The members of the written form of a step. -/
def Step.members (t : Step) : List (String × Json) :=
  optionalMember "action" .string t.action
    ++ optionalMember "collect" Collect.toJson t.collect
    ++ optionalMember "meta" Meta.toJson t.metaEntries
    ++ optionalMember "quick_replies" (fun rs => .array (rs.map QuickReply.toJson)) t.quickReplies
    ++ optionalMember "text" (fun ls => .array (ls.map .string)) t.text

theorem Step.covers_members (t : Step) : Step.shape.Covers (t.members.map Prod.fst) := by
  have hall : Step.shape.Covers ["action", "collect", "meta", "quick_replies", "text"] := by decide
  refine hall.sublist ?_ (by decide)
  simp only [Step.members, List.map_append]
  exact (((map_fst_optionalMember.append map_fst_optionalMember).append
    map_fst_optionalMember).append map_fst_optionalMember).append map_fst_optionalMember

theorem restores_step : Restores Step.decode Step.toJson := by
  intro t
  -- Each part is entered into a step that has the parts written before it.
  have haction := foldlM_optionalMember Step.shape "action"
    (fun x => ⟨none, none, none, x, none⟩) (fun _ => rfl) restores_string
    (fun _ => Json.noConfusion) t.action
  have hcollect := foldlM_optionalMember Step.shape "collect"
    (fun x => ⟨none, none, x, t.action, none⟩) (fun _ => rfl) restores_collect
    (fun _ => Json.noConfusion) t.collect
  have hmeta := foldlM_optionalMember Step.shape "meta"
    (fun x => ⟨none, none, t.collect, t.action, x⟩) (fun _ => rfl)
    (restores_list restores_metaEntry) (fun _ => Json.noConfusion) t.metaEntries
  have hreplies := foldlM_optionalMember Step.shape "quick_replies"
    (fun x => ⟨none, x, t.collect, t.action, t.metaEntries⟩) (fun _ => rfl)
    (restores_list restores_quickReply) (fun _ => Json.noConfusion) t.quickReplies
  have htext := foldlM_optionalMember Step.shape "text"
    (fun x => ⟨x, t.quickReplies, t.collect, t.action, t.metaEntries⟩) (fun _ => rfl)
    (restores_list restores_string) (fun _ => Json.noConfusion) t.text
  apply (Shape.decode_object rfl t.covers_members).trans
  exact foldlM_append_of_ok (foldlM_append_of_ok (foldlM_append_of_ok (foldlM_append_of_ok haction
    hcollect) hmeta) hreplies) htext

theorem restores_thread : Restores Thread.decode Thread.toJson := by
  intro t
  have hsteps := restores_list restores_step t.steps
  have hcovers : Thread.shape.Covers ["script", "topic"] := by decide
  apply (Shape.decode_object rfl hcovers).trans
  simp only [List.foldlM_cons, List.foldlM_nil, Shape.enter, Thread.shape]
  rw [restores_string t.topic, hsteps]
  rfl

theorem restores_document : Restores Document.decode Document.toJson := by
  intro d
  have hthreads := restores_list restores_thread d.threads
  have hcovers : Document.shape.Covers ["script"] := by decide
  apply (Shape.decode_object rfl hcovers).trans
  simp only [List.foldlM_cons, List.foldlM_nil, Shape.enter, Document.shape]
  rw [hthreads]
  rfl

/-! ## Documents -/

namespace Document

theorem decodeAll_array (ds : List Document) : decodeAll (.array (ds.map toJson)) = .ok ds :=
  restores_list restores_document ds

/-- A single document is not taken for a list of them. -/
theorem decodeAll_toJson (d : Document) : decodeAll d.toJson = .ok [d] := by
  show (decode d.toJson).map (fun d => [d]) = _
  rw [restores_document d]
  rfl

theorem loadAll_of_read? {text : String} {v : Json} (h : Json.read? text = some v) :
    loadAll text = decodeAll v := by
  rw [loadAll, h]

/-- Documents that are written as an array and decoded are the same documents, and a document that
is written by itself becomes the list of that document. The same holds of every text that is read as
what was written. -/
theorem restores_documents (ds : List Document) (d : Document) :
    (decodeAll (.array (ds.map toJson)) = .ok ds ∧ decodeAll d.toJson = .ok [d]) ∧
      (∀ text, Json.read? text = some (.array (ds.map toJson)) → loadAll text = .ok ds) ∧
      ∀ text, Json.read? text = some d.toJson → loadAll text = .ok [d] := by
  refine ⟨⟨decodeAll_array ds, decodeAll_toJson d⟩, fun text h => ?_, fun text h => ?_⟩
  · rw [loadAll_of_read? h, decodeAll_array]
  · rw [loadAll_of_read? h, decodeAll_toJson]

/-- A document with a step that has nothing but an entry, whose value is an object. -/
def annotated : Document :=
  ⟨[⟨defaultTopic, [{ Step.empty with
    metaEntries := some [⟨"on:yes", .object [("a", .null)]⟩] }]⟩]⟩

/-- The text of the document. -/
def annotatedText : String :=
  "\x7b\"script\":[\x7b\"script\":[\x7b\"meta\":[\x7b\"key\":\"on:yes\","
    ++ "\"value\":\x7b\"a\":null\x7d\x7d]\x7d],\"topic\":\"default\"\x7d]\x7d"

set_option maxRecDepth 1024 in
theorem restores_documents_annotated :
    Json.read? annotatedText = some annotated.toJson ∧ loadAll annotatedText = .ok [annotated] := by
  have hread : Json.read? annotatedText = some annotated.toJson := by cbv
  exact ⟨hread, (restores_documents [] annotated).2.2 annotatedText hread⟩

end Document

end Dialogue
