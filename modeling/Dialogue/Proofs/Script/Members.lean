import Mathlib.Data.List.Permutation
import Dialogue.Script.Encoding
/-!
# Members in any order

The members of an object may be written in any order, and the value of an object has them sorted, of
two with one name the later only. A record does not depend on the order of its members, and unknown
ones do not matter. So where no field is written twice, a record that is decoded from the members as
they are written is the one that is decoded from the sorted members.

* `Entries.perm_filter_ofList` — names that are not repeated keep their entries.
* `Shape.ofMembers_eq_ok_iff` — when the members of an object make up a record.
* `Decode.foldlM_perm` — the order of the members does not matter.
-/

namespace Dialogue

/-! ## Sorted entries -/

namespace Entries

variable {α : Type} {name : String} {value : α} {es : List (String × α)}

/-- The names of the entries grow, so each stands there once. -/
def Sorted (es : List (String × α)) : Prop := es.Pairwise fun e e' => e.1 < e'.1

/-- What is entered takes the place of the entries of that name. -/
theorem perm_insert (h : Sorted es) :
    (insert name value es).Perm ((name, value) :: es.filter (·.1 ≠ name)) := by
  induction es with
  | nil => exact .refl _
  | cons e rest ih =>
      obtain ⟨n, v⟩ := e
      obtain ⟨hfirst, hrest⟩ := List.pairwise_cons.mp h
      have hbehind : ∀ m, m ≤ n → rest.filter (·.1 ≠ m) = rest := by
        intro m hm
        refine List.filter_eq_self.mpr fun e he => ?_
        have hlt : n < e.1 := hfirst e he
        simp only [decide_eq_true_eq]
        rintro rfl
        exact String.not_lt.mpr hm hlt
      rw [insert]
      split
      case isTrue hlt =>
        have hne : n ≠ name := fun heq => String.lt_irrefl n (heq ▸ hlt)
        rw [List.filter_cons_of_pos (by simpa using hne),
          hbehind name (String.not_lt.mp (String.lt_asymm hlt))]
      case isFalse hlt =>
        split
        case isTrue heq =>
          subst heq
          rw [List.filter_cons_of_neg (by simp), hbehind name (String.not_lt.mp hlt)]
        case isFalse hne =>
          rw [List.filter_cons_of_pos (by simpa using Ne.symm hne)]
          exact ((ih hrest).cons (n, v)).trans (.swap _ _ _)

theorem Sorted.insert (h : Sorted es) : Sorted (insert name value es) := by
  induction es with
  | nil => exact List.pairwise_singleton _ _
  | cons e rest ih =>
      obtain ⟨n, v⟩ := e
      obtain ⟨hfirst, hrest⟩ := List.pairwise_cons.mp h
      rw [Entries.insert]
      split
      case isTrue hlt =>
        refine List.pairwise_cons.mpr ⟨fun e he => ?_, h⟩
        rcases List.mem_cons.mp he with rfl | he
        · exact hlt
        · exact String.lt_trans hlt (hfirst e he)
      case isFalse hlt =>
        split
        case isTrue heq =>
          subst heq
          exact List.pairwise_cons.mpr ⟨hfirst, hrest⟩
        case isFalse hne =>
          refine List.pairwise_cons.mpr ⟨fun e he => ?_, ih hrest⟩
          rcases List.mem_cons.mp ((perm_insert hrest).mem_iff.mp he) with rfl | he
          · grind
          · exact hfirst e (List.mem_filter.mp he).1

theorem ofList_concat (es : List (String × α)) (e : String × α) :
    ofList (es ++ [e]) = insert e.1 e.2 (ofList es) := by
  rw [ofList, List.foldl_append]
  rfl

theorem sorted_ofList (es : List (String × α)) : Sorted (ofList es) := by
  induction es using List.reverseRecOn with
  | nil => exact List.Pairwise.nil
  | append_singleton es e ih =>
      rw [ofList_concat]
      exact ih.insert

/-- Names that are not repeated keep their entries when the entries are sorted. -/
theorem perm_filter_ofList {p : String → Bool}
    (h : ((es.filter fun e => p e.1).map Prod.fst).Nodup) :
    ((ofList es).filter fun e => p e.1).Perm (es.filter fun e => p e.1) := by
  induction es using List.reverseRecOn with
  | nil => exact .refl _
  | append_singleton es e ih =>
      rw [List.filter_append, List.map_append] at h
      obtain ⟨hes, -, hdisjoint⟩ := List.nodup_append.mp h
      rw [ofList_concat, List.filter_append]
      have hperm : (insert e.1 e.2 (ofList es)).Perm
          ((e.1, e.2) :: (ofList es).filter (·.1 ≠ e.1)) := perm_insert (sorted_ofList es)
      have hinsert := hperm.filter fun e => p e.1
      -- The entries that are displaced have the name of the new one.
      have hkeep : ((ofList es).filter (·.1 ≠ e.1)).filter (fun e => p e.1) =
          (ofList es).filter fun e => p e.1 := by
        rw [List.filter_filter]
        refine List.filter_congr fun e' he' => ?_
        by_cases hp : p e'.1 = true
        · have hmem : e'.1 ∈ (es.filter fun e => p e.1).map Prod.fst := by
            rw [← ((ih hes).map Prod.fst).mem_iff]
            exact List.mem_map_of_mem (List.mem_filter.mpr ⟨he', hp⟩)
          have hne : e'.1 ≠ e.1 := by
            intro heq
            refine hdisjoint _ hmem e'.1 ?_ rfl
            rw [heq] at hp ⊢
            simp [hp]
          simp [hp, hne]
        · simp [hp]
      by_cases hp : p e.1 = true
      · rw [List.filter_cons_of_pos (by simpa using hp), hkeep] at hinsert
        rw [List.filter_cons_of_pos (by simpa using hp)]
        exact hinsert.trans (((ih hes).cons e).trans (List.perm_append_singleton e _).symm)
      · rw [List.filter_cons_of_neg (by simpa using hp), hkeep] at hinsert
        rw [List.filter_cons_of_neg (by simpa using hp), List.filter_nil, List.append_nil]
        exact hinsert.trans (ih hes)

end Entries

/-! ## Folds that may fail -/

namespace Decode

theorem bind_eq_ok_iff {α β : Type} {m : Decoded α} {f : α → Decoded β} {b : β} :
    m >>= f = .ok b ↔ ∃ a, m = .ok a ∧ f a = .ok b := by
  cases m with
  | error e => simp [bind, Except.bind]
  | ok a => simp [bind, Except.bind]

theorem map_eq_ok_iff {α β : Type} {m : Decoded α} {f : α → β} {b : β} :
    m.map f = .ok b ↔ ∃ a, m = .ok a ∧ f a = b := by
  cases m with
  | error e => simp [Except.map]
  | ok a => simp [Except.map]

/-- One after the other succeeds alike in both orders. -/
def Commute {α β : Type} (f : α → β → Decoded α) (x y : β) : Prop :=
  ∀ a b, f a x >>= (f · y) = .ok b ↔ f a y >>= (f · x) = .ok b

theorem foldlM_perm {α β : Type} {f : α → β → Decoded α} {xs ys : List β} {a b : α}
    (h : xs.Perm ys) (hcommute : xs.Pairwise (Commute f)) :
    xs.foldlM f a = .ok b ↔ ys.foldlM f a = .ok b := by
  have hsymm : ∀ {x y}, Commute f x y → Commute f y x := fun hxy a b => (hxy a b).symm
  induction h generalizing a with
  | nil => rfl
  | cons x _ ih =>
      rw [List.foldlM_cons, List.foldlM_cons, bind_eq_ok_iff, bind_eq_ok_iff]
      exact exists_congr fun c => and_congr_right fun _ => ih (List.pairwise_cons.mp hcommute).2
  | swap x y l =>
      have hxy : Commute f y x := (List.pairwise_cons.mp hcommute).1 x List.mem_cons_self
      simp only [List.foldlM_cons]
      rw [← bind_assoc, ← bind_assoc, bind_eq_ok_iff, bind_eq_ok_iff]
      exact exists_congr fun c => and_congr_left fun _ => hxy a c
  | trans h _ ih ih' =>
      -- What commutes in one order does so in the other.
      exact (ih hcommute).trans (ih' (h.pairwise hcommute hsymm))

/-! ## The members of a record -/

namespace Shape

variable {σ α : Type} {sh : Shape σ α} {a b : α}

/-- The members that belong to the fields of a record, in the order in which they are written. -/
def taken (sh : Shape σ α) (ms : List (Option String × σ)) : List (String × σ) :=
  ms.filterMap fun m => m.1.bind fun n => if sh.hasField n then some (n, m.2) else none

/-- The record with some members entered, one after the other. -/
def fill (sh : Shape σ α) (a : α) (ms : List (String × σ)) : Decoded α :=
  ms.foldlM (fun a m => sh.set m.1 m.2 a) a

theorem missing?_eq_none_iff {seen : List String} :
    sh.missing? seen = none ↔ ∀ f ∈ sh.fields, f.2 = .required → f.1 ∈ seen := by
  simp [missing?]

theorem foldlM_takeMember_eq_ok_iff {ms : List (Option String × σ)} {seen seen' : List String} :
    ms.foldlM sh.takeMember (seen, a) = .ok (seen', b) ↔
      (∀ m ∈ ms, m.1 ≠ none) ∧ ((sh.taken ms).map Prod.fst).Nodup ∧
        (∀ n ∈ (sh.taken ms).map Prod.fst, n ∉ seen) ∧
        seen' = ((sh.taken ms).map Prod.fst).reverse ++ seen ∧
        sh.fill a (sh.taken ms) = .ok b := by
  induction ms generalizing seen a with
  | nil =>
      constructor
      · rintro ⟨⟩
        exact ⟨by simp, List.nodup_nil, by simp [taken], rfl, rfl⟩
      · rintro ⟨-, -, -, rfl, hfill⟩
        cases hfill
        rfl
  | cons m ms ih =>
      obtain ⟨name, x⟩ := m
      rw [List.foldlM_cons, bind_eq_ok_iff]
      cases name with
      | none => simp [takeMember]
      | some n =>
          cases hfield : sh.hasField n with
          | false =>
              have htaken : sh.taken ((some n, x) :: ms) = sh.taken ms := by simp [taken, hfield]
              simp [takeMember, hfield, htaken, ih]
          | true =>
              have htaken : sh.taken ((some n, x) :: ms) = (n, x) :: sh.taken ms := by
                simp [taken, hfield]
              have hfill : sh.fill a ((n, x) :: sh.taken ms) =
                  sh.set n x a >>= fun a => sh.fill a (sh.taken ms) := List.foldlM_cons
              rw [htaken, hfill, bind_eq_ok_iff]
              by_cases hseen : n ∈ seen
              · simp [takeMember, hfield, hseen]
              · have htake : sh.takeMember (seen, a) (some n, x) =
                    (sh.set n x a).map fun b => (n :: seen, b) := by
                  simp [takeMember, hfield, hseen]
                rw [htake]
                cases sh.set n x a with
                | error e => simp [Except.map]
                | ok c =>
                    simp only [Except.map, Except.ok.injEq, exists_eq_left', ih]
                    simp only [List.map_cons, List.nodup_cons, List.forall_mem_cons,
                      List.reverse_cons, List.append_assoc, List.singleton_append, ne_eq,
                      reduceCtorEq, not_false_eq_true, true_and, hseen]
                    grind

/-- The members of an object make up a record when all their names can be read, no field is
repeated, those that are required are there, and each can be entered. -/
theorem ofMembers_eq_ok_iff {ms : List (Option String × σ)} :
    sh.ofMembers ms = .ok b ↔
      (∀ m ∈ ms, m.1 ≠ none) ∧ ((sh.taken ms).map Prod.fst).Nodup ∧
        (∀ f ∈ sh.fields, f.2 = .required → f.1 ∈ (sh.taken ms).map Prod.fst) ∧
        sh.fill sh.start (sh.taken ms) = .ok b := by
  rw [ofMembers, bind_eq_ok_iff]
  constructor
  · rintro ⟨⟨seen, c⟩, hfold, hend⟩
    obtain ⟨hnames, hnodup, -, hseen, hfill⟩ := foldlM_takeMember_eq_ok_iff.mp hfold
    dsimp only at hend
    split at hend
    · cases hend
    · next hmissing =>
      cases hend
      rw [missing?_eq_none_iff, hseen] at hmissing
      exact ⟨hnames, hnodup, by simpa using hmissing, hfill⟩
  · rintro ⟨hnames, hnodup, hrequired, hfill⟩
    refine ⟨(((sh.taken ms).map Prod.fst).reverse ++ [], b),
      foldlM_takeMember_eq_ok_iff.mpr ⟨hnames, hnodup, by simp, rfl, hfill⟩, ?_⟩
    have hmissing : sh.missing? (((sh.taken ms).map Prod.fst).reverse ++ []) = none := by
      rw [missing?_eq_none_iff]
      simpa using hrequired
    dsimp only
    rw [hmissing]

end Shape

end Decode

end Dialogue
