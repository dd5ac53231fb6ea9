import Mathlib.Algebra.Group.Nat.Defs
import Dialogue.Console.Display
import Dialogue.Proofs.Console.Rejected
/-!
# Choosing an option by its number

The console prints options with numbers and reads lines. The number that stands before an option is
read as the choice of this option, whatever the options say. Another line is read as the first
option of this text, or as itself. Either way the options are used up.

As numbers are read in more forms than they are printed, the way back is a relation: `Writes`
relates a text to the number that it writes, and `StandsFor` relates a line to the text that it
stands for.

* `Natural.read?_eq_some_iff` — a text is read as a number when it writes one of 64 bits.
* `Prompting.reading_eq_iff` — a line is read as what it stands for.
* `Prompting.options_of_keeps` — options are pending until a line of an answer uses them up.
* `Prompting.shown_number_selects` — the number that is shown is the number that selects.
-/

namespace Dialogue

/-! ## Blanks around a text -/

namespace Text

/-- The text consists of blanks. -/
def IsGap (s : String) : Prop := ∀ c ∈ s.toList, isBlank c = true

instance (s : String) : Decidable (IsGap s) :=
  List.decidableBAll (fun c => isBlank c = true) s.toList

theorem trimLeft_blanks_append {gap cs : List Char} (h : ∀ c ∈ gap, isBlank c = true) :
    trimLeft (gap ++ cs) = trimLeft cs :=
  List.dropWhile_append_of_pos h

theorem trimLeft_eq_self {cs : List Char} (h : ∀ c ∈ cs.head?, isBlank c = false) :
    trimLeft cs = cs := by
  cases cs with
  | nil => rfl
  | cons c cs => exact List.dropWhile_cons_of_neg (by simp [h c rfl])

/-- Blanks around a text without blanks are taken off. -/
theorem trim_between {before s after : String} (hbefore : IsGap before) (hafter : IsGap after)
    (hs : ∀ c ∈ s.toList, isBlank c = false) : trim (before ++ s ++ after) = s := by
  have hleft : trimLeft (before ++ s ++ after).toList = trimLeft (s.toList ++ after.toList) := by
    rw [String.toList_append, String.toList_append, List.append_assoc,
      trimLeft_blanks_append hbefore]
  have hright : trimRight (trimLeft (s.toList ++ after.toList)) = s.toList := by
    rcases hcs : s.toList with _ | ⟨c, cs⟩
    · have hnil : trimLeft (after.toList ++ []) = [] := trimLeft_blanks_append hafter
      rw [List.nil_append, ← List.append_nil after.toList, hnil]
      rfl
    · have hback : ∀ d ∈ (c :: cs).reverse.head?, isBlank d = false := by
        intro d hd
        exact hs d (hcs ▸ List.mem_reverse.mp (List.mem_of_head? hd))
      rw [trimLeft_eq_self (by simpa using hs c (by simp [hcs])), trimRight, List.reverse_append,
        trimLeft_blanks_append fun d hd => hafter d (List.mem_reverse.mp hd),
        trimLeft_eq_self hback, List.reverse_reverse]
  rw [trim, hleft, hright, String.ofList_toList]

theorem isBlank_of_isDigit {c : Char} (h : c.isDigit = true) : isBlank c = false := by
  have hdigits : ∀ n < 58, 48 ≤ n → Property.whiteSpace.contains n = false := by decide +kernel
  obtain ⟨hlow, hhigh⟩ := Char.isDigit_iff_toNat.mp h
  exact hdigits c.toNat (Nat.lt_succ_of_le hhigh) hlow

end Text

/-! ## Numbers in decimal digits -/

namespace Natural

/-- The text writes the number in decimal digits, perhaps behind a plus sign. -/
def Writes (s : String) (n : Nat) : Prop :=
  ∃ ds : List Char, ds ≠ [] ∧ (∀ c ∈ ds, c.isDigit = true) ∧
    (s.toList = ds ∨ s.toList = '+' :: ds) ∧ n = Nat.ofDigitChars 10 ds 0

theorem digits?_eq_some_iff {cs : List Char} {init n : Nat} : digits? init cs = some n ↔
    (∀ c ∈ cs, c.isDigit = true) ∧ n = Nat.ofDigitChars 10 cs init := by
  induction cs generalizing init with
  | nil => exact Option.some_inj.trans ⟨fun h => ⟨nofun, h.symm⟩, fun h => h.2.symm⟩
  | cons c cs ih =>
      rw [digits?, digit?, List.forall_mem_cons, Nat.ofDigitChars_cons]
      by_cases hc : c.isDigit = true
      · rw [if_pos hc, Option.bind_some, ih, and_iff_right hc]
      · rw [if_neg hc, Option.bind_none]
        exact iff_of_false nofun fun h => hc h.1.1

theorem head?_ne_plus {ds : List Char} (h : ∀ c ∈ ds, c.isDigit = true) :
    ds.head? ≠ some '+' := by
  intro hplus
  exact absurd (h '+' (List.mem_of_head? hplus)) (by decide)

theorem unsigned_eq_iff {cs ds : List Char} (hds : ds.head? ≠ some '+') :
    unsigned cs = ds ↔ cs = ds ∨ cs = '+' :: ds := by
  unfold unsigned
  split
  · next rest =>
    constructor
    · rintro rfl
      exact .inr rfl
    · rintro (rfl | h)
      · exact absurd rfl hds
      · exact (List.cons.inj h).2
  · next hno =>
    refine ⟨.inl, ?_⟩
    rintro (rfl | rfl)
    · rfl
    · exact absurd rfl (hno ds)

/-- A text is read as a number when it writes one that is less than `2 ^ 64`. -/
theorem read?_eq_some_iff {s : String} {n : Nat} :
    read? s = some n ↔ Writes s n ∧ n < 2 ^ 64 := by
  have hread : read? s = some n ↔
      unsigned s.toList ≠ [] ∧ digits? 0 (unsigned s.toList) = some n ∧ n < 2 ^ 64 := by
    unfold read?
    dsimp only
    split
    · next h => simp [List.isEmpty_iff.mp h]
    · next h =>
      rw [and_iff_right (by simpa using h), Option.filter_eq_some_iff]
      simp
  rw [hread, digits?_eq_some_iff]
  constructor
  · rintro ⟨hne, ⟨hdigits, hn⟩, hlt⟩
    refine ⟨⟨unsigned s.toList, hne, hdigits, ?_, hn⟩, hlt⟩
    exact (unsigned_eq_iff (head?_ne_plus hdigits)).mp rfl
  · rintro ⟨⟨ds, hne, hdigits, hs, hn⟩, hlt⟩
    rw [(unsigned_eq_iff (head?_ne_plus hdigits)).mpr hs]
    exact ⟨hne, ⟨hdigits, hn⟩, hlt⟩

theorem toList_toString (n : Nat) : (toString n).toList = Nat.toDigits 10 n := by
  rw [Nat.toString_eq_ofList_toDigits, String.toList_ofList]

theorem isDigit_of_mem_toString {n : Nat} {c : Char} (h : c ∈ (toString n).toList) :
    c.isDigit = true := by
  rw [toList_toString] at h
  exact Nat.isDigit_of_mem_toDigits (by decide) (by decide) h

/-- A number is printed as a text that writes it. -/
theorem writes_toString (n : Nat) : Writes (toString n) n := by
  refine ⟨(toString n).toList, ?_, fun c hc => isDigit_of_mem_toString hc, .inl rfl, ?_⟩
  · rw [toList_toString]
    exact Nat.toDigits_ne_nil
  · rw [toList_toString, Nat.ofDigitChars_ten_toDigits]

end Natural

/-! ## What a line stands for -/

namespace Prompting

/-- The line is the number of an option, counted from 1. -/
def IsNumberOf (items : List OptionItem) (line : String) : Prop :=
  ∃ n < items.length, Natural.Writes line (n + 1)

/-- The text that a line stands for when options are pending: the value of the option of this
number, or else of the first option of this text, or else the line itself. -/
inductive StandsFor (items : List OptionItem) (line : String) : String → Prop
  | number {n : Nat} {o : OptionItem} : Natural.Writes line (n + 1) → items[n]? = some o →
      StandsFor items line o.value.text
  | display {n : Nat} {o : OptionItem} : ¬IsNumberOf items line → items[n]? = some o →
      Text.agreesIgnoringCase o.display line = true →
      (∀ i < n, ∀ o', items[i]? = some o' → Text.agreesIgnoringCase o'.display line = false) →
      StandsFor items line o.value.text
  | itself : ¬IsNumberOf items line →
      (∀ o ∈ items, Text.agreesIgnoringCase o.display line = false) → StandsFor items line line

variable {items : List OptionItem} {p : Prompting} {line s : String} {o : OptionItem} {n : Nat}

theorem index?_eq_some_iff : index? line = some n ↔ Natural.read? line = some (n + 1) := by
  unfold index?
  split
  · next m h => simp [h]
  · next h =>
    refine iff_of_false nofun fun hread => h n hread

/-- As there are less than `2 ^ 64` options, no number of one is too large to be read. -/
theorem bind_index?_eq_some_iff (hlen : items.length < 2 ^ 64) :
    (index? line).bind (items[·]?) = some o ↔
      ∃ n, Natural.Writes line (n + 1) ∧ items[n]? = some o := by
  rw [Option.bind_eq_some_iff]
  refine exists_congr fun n => ?_
  rw [index?_eq_some_iff, Natural.read?_eq_some_iff]
  refine and_congr_left fun ho => and_iff_left ?_
  obtain ⟨hn, -⟩ := List.getElem?_eq_some_iff.mp ho
  omega

theorem bind_index?_eq_none_iff (hlen : items.length < 2 ^ 64) :
    (index? line).bind (items[·]?) = none ↔ ¬IsNumberOf items line := by
  rw [Option.eq_none_iff_forall_ne_some, IsNumberOf]
  simp only [ne_eq, bind_index?_eq_some_iff hlen]
  constructor
  · rintro h ⟨n, hn, hwrites⟩
    exact h items[n] ⟨n, hwrites, List.getElem?_eq_getElem hn⟩
  · rintro h o ⟨n, hwrites, ho⟩
    exact h ⟨n, (List.getElem?_eq_some_iff.mp ho).1, hwrites⟩

theorem reading_of_index? (h : (index? line).bind (p.options[·]?) = some o) :
    p.reading line = o.value.text := by
  rw [reading, chosen?, h]
  rfl

theorem reading_of_display (h : (index? line).bind (p.options[·]?) = none)
    (ho : p.options.find? (fun o => Text.agreesIgnoringCase o.display line) = some o) :
    p.reading line = o.value.text := by
  rw [reading, chosen?, h, Option.none_or, ho]
  rfl

theorem reading_of_none (h : (index? line).bind (p.options[·]?) = none)
    (ho : p.options.find? (fun o => Text.agreesIgnoringCase o.display line) = none) :
    p.reading line = line := by
  rw [reading, chosen?, h, Option.none_or, ho]
  rfl

theorem standsFor_reading (hlen : p.options.length < 2 ^ 64) :
    StandsFor p.options line (p.reading line) := by
  cases hindex : (index? line).bind (p.options[·]?) with
  | some o =>
      rw [reading_of_index? hindex]
      obtain ⟨n, hwrites, ho⟩ := (bind_index?_eq_some_iff hlen).mp hindex
      exact .number hwrites ho
  | none =>
      have hno := (bind_index?_eq_none_iff hlen).mp hindex
      cases hfind : p.options.find? fun o => Text.agreesIgnoringCase o.display line with
      | some o =>
          rw [reading_of_display hindex hfind]
          obtain ⟨hagrees, n, hn, rfl, hfirst⟩ := List.find?_eq_some_iff_getElem.mp hfind
          refine .display hno (List.getElem?_eq_getElem hn) hagrees fun i hi o' ho' => ?_
          obtain ⟨-, rfl⟩ := List.getElem?_eq_some_iff.mp ho'
          simpa using hfirst i hi
      | none =>
          rw [reading_of_none hindex hfind]
          exact .itself hno fun o ho => by simpa using List.find?_eq_none.mp hfind o ho

theorem StandsFor.reading_eq (hlen : p.options.length < 2 ^ 64) (h : StandsFor p.options line s) :
    p.reading line = s := by
  cases h with
  | number hwrites ho =>
      exact reading_of_index? ((bind_index?_eq_some_iff hlen).mpr ⟨_, hwrites, ho⟩)
  | @display n o hno ho hagrees hfirst =>
      refine reading_of_display ((bind_index?_eq_none_iff hlen).mpr hno) ?_
      obtain ⟨hn, rfl⟩ := List.getElem?_eq_some_iff.mp ho
      refine List.find?_eq_some_iff_getElem.mpr ⟨hagrees, n, hn, rfl, fun i hi => ?_⟩
      simpa using hfirst i hi _ (List.getElem?_eq_getElem (Nat.lt_trans hi hn))
  | itself hno hnone =>
      refine reading_of_none ((bind_index?_eq_none_iff hlen).mpr hno) ?_
      exact List.find?_eq_none.mpr fun o ho => by simp [hnone o ho]

/-- A line is read as what it stands for. -/
theorem reading_eq_iff (hlen : p.options.length < 2 ^ 64) :
    p.reading line = s ↔ StandsFor p.options line s := by
  refine ⟨?_, StandsFor.reading_eq hlen⟩
  rintro rfl
  exact standsFor_reading hlen

/-! ## How long options are pending -/

/-- Are the options no longer pending after this? Others are shown, or a line is handed over in an
answer of one line, and no file was asked for. -/
def spends (p : Prompting) : Happening → Bool
  | .handed _ textArea _ => !(p.upload || textArea)
  | e => e.showsOptions

/-- The options are pending throughout. -/
def Keeps : Prompting → List Happening → Prop
  | _, [] => True
  | p, e :: hs => p.spends e = false ∧ (p.remember e).Keeps hs

theorem options_remember_of_spends {e : Happening} (h : p.spends e = false) :
    (p.remember e).options = p.options := by
  cases e with
  | handed line textArea answered =>
      rw [spends, Bool.not_eq_false'] at h
      exact (options_resolve p line textArea).trans (if_pos h)
  | shown | delivered | cleared => exact options_remember rfl h

theorem options_of_keeps {hs : List Happening} (h : p.Keeps hs) :
    (hs.foldl remember p).options = p.options := by
  induction hs generalizing p with
  | nil => rfl
  | cons e hs ih =>
      obtain ⟨hspends, hrest⟩ := h
      exact (ih hrest).trans (options_remember_of_spends hspends)

theorem options_remember_eq_nil {e : Happening} (h : p.options = [])
    (he : e.showsOptions = false) : (p.remember e).options = [] := by
  cases e with
  | handed line textArea answered =>
      refine (options_resolve p line textArea).trans ?_
      rw [h, ite_self]
  | shown | delivered | cleared => exact (options_remember rfl he).trans h

/-- Where there are no options, some have to be shown to be pending. -/
theorem options_foldl_eq_nil {hs : List Happening} (h : p.options = [])
    (hnone : hs.any Happening.showsOptions = false) : (hs.foldl remember p).options = [] := by
  induction hs generalizing p with
  | nil => exact h
  | cons e hs ih =>
      obtain ⟨he, hrest⟩ := Bool.or_eq_false_iff.mp (List.any_cons ▸ hnone)
      exact ih (options_remember_eq_nil h he) hrest

/-! ## The numbers that are shown -/

theorem resolve_of_no_options (hupload : p.upload = false) (h : p.options = []) (line : String) :
    (p.resolve line false).1 = some (.text (Text.trim line)) := by
  rw [resolve_text hupload, reading, chosen?, h]
  cases index? (Text.trim line) <;> rfl

/-- A list of options is shown, and it is pending still when a line is read for an answer of one
line. The console has shown a line with a number for each option, and this number, between any
blanks, is read as the value of that option. Each line is read as what it stands for. It uses the
options up, so until others are shown the lines of such answers are read as themselves. -/
theorem shown_number_selects {m : Message} {selected : Option Json} {multi : Bool}
    {fixme : Option String} (hm : m.payload = .options items selected multi fixme)
    (hlen : items.length < 2 ^ 64) {hs : List Happening} (hkeeps : (p.observe m).Keeps hs)
    (hupload : (hs.foldl remember (p.observe m)).upload = false) (host : HostSettings) :
    let q := hs.foldl remember (p.observe m)
    (∃ lines : List String, lines.length = items.length ∧
      Console.format? host m =
        some ("\n".intercalate (lines ++ fixme.toList.map Console.fixLine)) ∧
      ∀ i o, items[i]? = some o →
        lines[i]? = some ("  [" ++ toString (i + 1) ++ "] " ++ o.display) ∧
        ∀ before after, Text.IsGap before → Text.IsGap after →
          (q.resolve (before ++ toString (i + 1) ++ after) false).1 =
            some (.text o.value.text)) ∧
    ∀ line,
      (∀ s, (q.resolve line false).1 = some (.text s) ↔ StandsFor items (Text.trim line) s) ∧
      (q.resolve line false).2.options = [] ∧
      ∀ hs' : List Happening, hs'.any Happening.showsOptions = false →
        let r := hs'.foldl remember (q.resolve line false).2
        r.upload = false → ∀ further,
          (r.resolve further false).1 = some (.text (Text.trim further)) := by
  intro q
  have hoptions : q.options = items := by
    rw [options_of_keeps hkeeps]
    simp only [observe, hm]
  have hreads : ∀ line s, (q.resolve line false).1 = some (.text s) ↔
      StandsFor items (Text.trim line) s := by
    intro line s
    rw [resolve_text hupload, Option.some_inj, Answer.text.injEq, ← hoptions]
    exact reading_eq_iff (hoptions ▸ hlen)
  refine ⟨⟨(items.zipIdx 1).map fun x => Console.optionLine x.1 x.2, by simp, ?_, ?_⟩, ?_⟩
  · rw [Console.format?, hm]
  · intro i o ho
    refine ⟨?_, fun before after hbefore hafter => ?_⟩
    · rw [List.getElem?_map, List.getElem?_zipIdx, ho, Nat.add_comm i 1]
      rfl
    · have hwrites := Natural.writes_toString (i + 1)
      have hdigits : ∀ c ∈ (toString (i + 1)).toList, Text.isBlank c = false :=
        fun c hc => Text.isBlank_of_isDigit (Natural.isDigit_of_mem_toString hc)
      rw [hreads, Text.trim_between hbefore hafter hdigits]
      exact .number hwrites ho
  · intro line
    have hspent : (q.resolve line false).2.options = [] := by
      rw [resolve_single hupload]
      rfl
    refine ⟨hreads line, hspent, ?_⟩
    intro hs' hnone r hr further
    exact resolve_of_no_options hr (options_foldl_eq_nil hspent hnone) further

/-- The texts of two options are numbers of others. -/
def numberedOptions : List OptionItem :=
  [⟨"2", .string "a"⟩, ⟨"1", .string "b"⟩, ⟨"two", .string "c"⟩]

/-- A file was asked for before the options are shown, and its path and a line of a longer answer
are handed over before an answer of one line is read. -/
theorem shown_number_selects_numberedOptions :
    let m : Message := ⟨.options numberedOptions none false none, true⟩
    let hs : List Happening := [.handed "cv.pdf" false true, .handed "Dear" true false]
    let p : Prompting := { empty with upload := true }
    let q := hs.foldl remember (p.observe m)
    (p.observe m).Keeps hs ∧ q.upload = false ∧
      (q.resolve "\t2 " false).1 = some (.text "b") ∧
      (q.resolve "+1" false).1 = some (.text "a") ∧
      ((q.resolve "4" false).2.resolve "2" false).1 = some (.text "2") := by
  intro m hs p q
  have hkeeps : (p.observe m).Keeps hs := ⟨rfl, rfl, trivial⟩
  obtain ⟨⟨lines, -, -, hshown⟩, hline⟩ :=
    shown_number_selects (m := m) rfl (by decide) hkeeps rfl HostSettings.standard
  refine ⟨hkeeps, rfl, ?_, ?_, ?_⟩
  · exact (hshown 1 ⟨"1", .string "b"⟩ rfl).2 "\t" " " (by decide +kernel) (by decide +kernel)
  · apply ((hline "+1").1 "a").mpr
    exact .number (n := 0) (o := ⟨"2", .string "a"⟩)
      ⟨['1'], by decide, by simp, .inr (by decide +kernel), rfl⟩ rfl
  · exact (hline "4").2.2 [] rfl rfl "2"

end Prompting

end Dialogue
