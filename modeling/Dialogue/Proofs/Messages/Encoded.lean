import Dialogue.Content.Message
import Dialogue.Proofs.Script.RoundTrip
/-!
# Payloads survive being written, but for `null`

A payload that is written as a value and decoded again is the same payload, whatever its texts,
options and values are. There is one exception: the selected value of an option list and the data of
a request for a file may be absent, and absence is written as `null`. Either of them may be the
value `null` too, which is written alike and comes back as absence.

* `Payload.decode_members` — the kind tells how the parameters are decoded.
* `Payload.decode_toJson` — every payload comes back, `null` being taken for absence.
* `Payload.restored_iff` — it is the same payload just when it holds no such `null`.
-/

namespace Dialogue

open Decode

/-! ## Values that may be absent -/

/-- A value that may be absent comes back, but `null` comes back as absence. -/
theorem option_any_opt (o : Option Json) :
    option any (Json.opt id o) = .ok (o.bind Json.nonNull?) := by
  cases o with
  | none => rfl
  | some v => cases v <;> rfl

theorem opt_bind_nonNull? (o : Option Json) :
    Json.opt id (o.bind Json.nonNull?) = Json.opt id o := by
  cases o with
  | none => rfl
  | some v => cases v <;> rfl

theorem bind_nonNull?_eq_self_iff {o : Option Json} :
    o.bind Json.nonNull? = o ↔ o ≠ some .null := by
  cases o with
  | none => simp
  | some v => cases v <;> simp [Json.nonNull?, Json.isNull]

/-! ## Options -/

theorem restores_optionItem : Restores OptionItem.decode OptionItem.toJson := by
  intro o
  have hcovers : OptionItem.shape.Covers ["display", "value"] := by decide
  apply (Shape.decode_object rfl hcovers).trans
  simp only [List.foldlM_cons, List.foldlM_nil, Shape.enter, OptionItem.shape]
  rw [restores_string o.display, any_eq_ok o.value]
  rfl

/-- A record that may only be written as a map is what its members make of it. -/
theorem Decode.Shape.decodeMap_object {α : Type} {sh : Shape Json α} (ms : List (String × Json))
    (h : sh.Covers (ms.map Prod.fst)) :
    sh.decodeMap (.object ms) = ms.foldlM sh.enter sh.start :=
  Shape.decode_object rfl h

namespace Payload

/-! ## Kind and parameters -/

theorem decodeKind_name (k : MessageKind) : decodeKind (.string k.name : Json) = .ok k := by
  cases k <;> rfl

theorem typing_of_paramsToJson? {p : Payload} (h : p.paramsToJson? = none) : p = .typing := by
  cases p with
  | typing => rfl
  | «to» | «from» | options | uploader => cases h

/-- The kind tells how the parameters are decoded. -/
theorem decode_members (p : Payload) : decode p.toJson =
    match p.paramsToJson? with
    | some v => decodeParams p.kind v
    | none => .ok .typing := by
  cases hparams : p.paramsToJson? with
  | none =>
      obtain rfl := typing_of_paramsToJson? hparams
      rfl
  | some v =>
      have hmembers : p.members = [("kind", .string p.kind.name), ("params", v)] := by
        rw [members, hparams]
        rfl
      rw [toJson, hmembers]
      show (decodeKind (.string p.kind.name : Json) >>= fun k => decodeParams k v >>= pure) = _
      rw [decodeKind_name]
      exact bind_pure (decodeParams p.kind v)

/-! ## The parameters of each kind -/

variable {message : String} {fixme : Option String} {items : List OptionItem}
  {selected data : Option Json} {multi : Bool}

theorem decode_to : decode (Payload.to message).toJson = .ok (.to message) := by
  have hcovers : toShape.Covers ["message"] := by decide
  apply (decode_members _).trans
  exact Shape.decodeMap_object [("message", .string message)] hcovers

theorem decode_from :
    decode (Payload.from message fixme).toJson = .ok (.from message fixme) := by
  have hfixme := foldlM_optionalMember fromShape "fixme" (fun f => .from "" f) (fun _ => rfl)
    restores_string (fun _ => Json.noConfusion) fixme
  have hcovers : fromShape.Covers
      ((optionalMember "fixme" Json.string fixme ++ [("message", Json.string message)]).map
        Prod.fst) := by
    cases fixme with
    | none => exact (by decide : fromShape.Covers ["message"])
    | some label => exact (by decide : fromShape.Covers ["fixme", "message"])
  apply (decode_members _).trans
  apply (Shape.decodeMap_object _ hcovers).trans
  exact foldlM_append_of_ok hfixme rfl

theorem decode_options : decode (Payload.options items selected multi fixme).toJson =
    .ok (.options items (selected.bind Json.nonNull?) multi fixme) := by
  have hfixme := foldlM_optionalMember optionsShape "fixme" (fun f => .options [] none false f)
    (fun _ => rfl) restores_string (fun _ => Json.noConfusion) fixme
  have hitems := restores_list restores_optionItem items
  have hselected := option_any_opt selected
  have hcovers : optionsShape.Covers
      ((optionalMember "fixme" Json.string fixme ++ [("multi", Json.bool multi),
        ("options", Json.array (items.map OptionItem.toJson)),
        ("selected", Json.opt id selected)]).map Prod.fst) := by
    cases fixme with
    | none => exact (by decide : optionsShape.Covers ["multi", "options", "selected"])
    | some label =>
        exact (by decide : optionsShape.Covers ["fixme", "multi", "options", "selected"])
  apply (decode_members _).trans
  apply (Shape.decodeMap_object _ hcovers).trans
  refine foldlM_append_of_ok hfixme ?_
  simp only [List.foldlM_cons, List.foldlM_nil, Shape.enter, optionsShape]
  rw [restores_bool multi, hitems, hselected]
  rfl

theorem decode_uploader :
    decode (Payload.uploader data).toJson = .ok (.uploader (data.bind Json.nonNull?)) := by
  have hcovers : uploaderShape.Covers ["options"] := by decide
  apply (decode_members _).trans
  apply (Shape.decodeMap_object [("options", Json.opt id data)] hcovers).trans
  simp only [List.foldlM_cons, List.foldlM_nil, Shape.enter, uploaderShape]
  rw [option_any_opt data]
  rfl

/-! ## All payloads -/

/-- The payload with absence in place of a selected value or data that is `null`. -/
def settled : Payload → Payload
  | .options items selected multi fixme =>
    .options items (selected.bind Json.nonNull?) multi fixme
  | .uploader data => .uploader (data.bind Json.nonNull?)
  | p => p

/-- Is the selected value or the data there, and is it `null`? -/
def HoldsNull : Payload → Prop
  | .options _ selected _ _ => selected = some .null
  | .uploader data => data = some .null
  | _ => False

theorem decode_toJson (p : Payload) : decode p.toJson = .ok p.settled := by
  cases p with
  | typing => rfl
  | «to» message => exact decode_to
  | «from» message fixme => exact decode_from
  | options items selected multi fixme => exact decode_options
  | uploader data => exact decode_uploader

theorem settled_eq_self_iff {p : Payload} : p.settled = p ↔ ¬ p.HoldsNull := by
  cases p with
  | typing | «to» | «from» => simp [settled, HoldsNull]
  | options | uploader => simp [settled, HoldsNull, bind_nonNull?_eq_self_iff]

/-- `null` and absence are written alike. -/
theorem toJson_settled (p : Payload) : p.settled.toJson = p.toJson := by
  cases p with
  | typing | «to» | «from» => rfl
  | options items selected multi fixme =>
      simp [toJson, members, paramsToJson?, settled, kind, opt_bind_nonNull?]
  | uploader data => simp [toJson, members, paramsToJson?, settled, kind, opt_bind_nonNull?]

/-- Every payload that is written can be decoded, and it is the same one just when neither its
selected value nor its data is `null`; those come back as absent. Two payloads are written alike
only if they differ in nothing else. -/
theorem restored_iff (p : Payload) :
    decode p.toJson = .ok p.settled ∧ (decode p.toJson = .ok p ↔ ¬ p.HoldsNull) ∧
      ∀ q : Payload, p.toJson = q.toJson ↔ p.settled = q.settled := by
  refine ⟨decode_toJson p, ?_, fun q => ⟨fun h => ?_, fun h => ?_⟩⟩
  · rw [decode_toJson, Except.ok.injEq]
    exact settled_eq_self_iff
  · have hdecoded : (.ok p.settled : Decoded Payload) = .ok q.settled := by
      rw [← decode_toJson p, ← decode_toJson q, h]
    exact Except.ok.inj hdecoded
  · rw [← toJson_settled p, ← toJson_settled q, h]

/-- When the value `null` is selected, nothing is selected after decoding. -/
theorem selected_null_lost :
    decode (Payload.options [⟨"None", .null⟩] (some .null) false none).toJson ≠
      .ok (.options [⟨"None", .null⟩] (some .null) false none) := by
  rw [decode_toJson]
  intro h
  cases h

end Payload

end Dialogue
