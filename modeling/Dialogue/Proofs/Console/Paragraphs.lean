import Mathlib.Data.List.DropRight
import Mathlib.Data.List.ReduceOption
import Dialogue.Proofs.Console.Rejected
/-!
# Answers of several lines

In an answer of several lines the lines are kept until an empty one ends the answer. So the answers
are the groups into which the lines fall at the empty ones, and the last group is kept. Options that
are shown meanwhile stay pending.

* `Prompting.answers_eq` — the answers are the groups of lines.
* `Prompting.groups_append_lines` — each line is in a group or is kept, and none is lost or doubled.
* `Prompting.lines_answered_in_groups` — both, with what each line does.
-/

namespace Dialogue

namespace Happening

/-- The line that is handed over. -/
def line? : Happening → Option String
  | .handed line _ _ => some line
  | _ => none

/-- The options that are shown. -/
def options? : Happening → Option (List OptionItem)
  | .shown (.options items _ _ _) => some items
  | _ => none

/-- If a line is handed over it belongs to an answer of several lines, and if a question is shown it
does not ask for a file. -/
def IsWriting : Happening → Prop
  | .handed _ textArea _ => textArea = true
  | e => e.showsUpload = false

end Happening

/-- The lines that are handed over. -/
def handedLines (hs : List Happening) : List String := hs.filterMap Happening.line?

namespace Prompting

/-- What the lines that are handed over yield, one after the other. -/
def answers : Prompting → List Happening → List (Option Answer)
  | _, [] => []
  | p, .handed line textArea answered :: hs =>
    (p.resolve line textArea).1 :: (p.remember (.handed line textArea answered)).answers hs
  | p, e :: hs => (p.remember e).answers hs

theorem answers_of_line? {p : Prompting} {e : Happening} {hs : List Happening}
    (he : e.line? = none) : p.answers (e :: hs) = (p.remember e).answers hs := by
  cases e with
  | handed => cases he
  | shown | delivered | cleared => rfl

variable {p : Prompting} {e : Happening} {hs : List Happening} {line : String}

theorem eq_handed_of_line? (hline : e.line? = some line) (he : e.IsWriting) :
    ∃ answered, e = .handed line true answered := by
  cases e with
  | handed line' textArea answered =>
      cases hline
      obtain rfl : textArea = true := he
      exact ⟨answered, rfl⟩
  | shown | delivered | cleared => cases hline

/-! ## One line -/

theorem upload_remember_writing (h : p.upload = false) (he : e.IsWriting) :
    (p.remember e).upload = false := by
  cases e with
  | handed line textArea answered =>
      obtain rfl : textArea = true := he
      show (p.resolve line true).2.upload = false
      rw [resolve_several h]
      split <;> exact h
  | shown | delivered | cleared =>
      rw [upload_remember rfl, h, Bool.false_or]
      exact he

theorem lines_remember (he : e.line? = none) : (p.remember e).lines = p.lines := by
  cases e with
  | handed => cases he
  | shown payload => cases payload <;> rfl
  | delivered | cleared => rfl

theorem options_remember_writing (he : e.IsWriting) :
    (p.remember e).options = e.options?.getD p.options := by
  cases e with
  | handed line textArea answered =>
      obtain rfl : textArea = true := he
      exact (options_resolve p line true).trans (if_pos (Bool.or_true p.upload))
  | shown payload => cases payload <;> rfl
  | delivered | cleared => rfl

/-! ## Several lines -/

theorem upload_foldl_writing (h : p.upload = false) (hhs : ∀ e ∈ hs, e.IsWriting) :
    (hs.foldl remember p).upload = false := by
  induction hs generalizing p with
  | nil => exact h
  | cons e hs ih =>
      obtain ⟨he, hrest⟩ := List.forall_mem_cons.mp hhs
      exact ih (upload_remember_writing h he) hrest

/-- The options that were shown last are pending. -/
theorem options_foldl_writing (hhs : ∀ e ∈ hs, e.IsWriting) :
    (hs.foldl remember p).options =
      ((hs.filterMap Happening.options?).getLast?).getD p.options := by
  induction hs using List.reverseRecOn with
  | nil => rfl
  | append_singleton hs e ih =>
      obtain ⟨hbefore, he⟩ := List.forall_mem_append.mp hhs
      rw [List.foldl_concat, options_remember_writing (he e (List.mem_singleton_self e)),
        ih hbefore, List.filterMap_append]
      cases he : e.options? <;> simp [he]

/-- What is kept are the lines since the last empty one. -/
theorem lines_foldl_writing (hlines : p.lines = []) (h : p.upload = false)
    (hhs : ∀ e ∈ hs, e.IsWriting) :
    (hs.foldl remember p).lines = (handedLines hs).rtakeWhile (· ≠ "") := by
  induction hs using List.reverseRecOn with
  | nil => exact hlines
  | append_singleton hs e ih =>
      obtain ⟨hbefore, he⟩ := List.forall_mem_append.mp hhs
      have he := he e (List.mem_singleton_self e)
      have hupload := upload_foldl_writing h hbefore
      rw [List.foldl_concat, handedLines, List.filterMap_append, ← handedLines]
      cases hline : e.line? with
      | none =>
          rw [lines_remember hline, ih hbefore]
          simp [hline]
      | some line =>
          obtain ⟨answered, rfl⟩ := eq_handed_of_line? hline he
          show (resolve _ line true).2.lines = _
          rw [resolve_several hupload, ih hbefore]
          by_cases hempty : line = ""
          · simp [Happening.line?, hempty, List.rtakeWhile_concat_neg]
          · simp [Happening.line?, hempty, List.rtakeWhile_concat_pos]

/-- The groups into which lines fall that come after those that are kept. -/
def groups (p : Prompting) (hs : List Happening) : List (List String) :=
  ((p.lines ++ handedLines hs).splitOn "").dropLast

theorem groups_of_line? (he : e.line? = none) : p.groups (e :: hs) = (p.remember e).groups hs := by
  rw [groups, groups, lines_remember he, handedLines, List.filterMap_cons_none he, handedLines]

/-- An empty line closes a group. -/
theorem groups_cons_empty {q : Prompting} {textArea answered : Bool} (hkept : "" ∉ p.lines)
    (hq : q.lines = []) :
    p.groups (.handed "" textArea answered :: hs) = p.lines :: q.groups hs := by
  have hlines : handedLines (.handed "" textArea answered :: hs) = "" :: handedLines hs := rfl
  rw [groups, groups, hlines, hq, List.nil_append,
    List.splitOn_append_cons_self_of_not_mem hkept, List.dropLast_cons_of_ne_nil]
  exact List.splitOn_ne_nil _ _

/-- Another line is kept. -/
theorem groups_cons_line {q : Prompting} {textArea answered : Bool}
    (hq : q.lines = p.lines ++ [line]) :
    p.groups (.handed line textArea answered :: hs) = q.groups hs := by
  have hlines : handedLines (.handed line textArea answered :: hs) = line :: handedLines hs := rfl
  rw [groups, groups, hlines, hq, List.append_assoc, List.singleton_append]

/-- The induction that follows the lines one by one. What is kept has no empty line. -/
theorem writing_induction {motive : Prompting → List Happening → Prop}
    (nil : ∀ p, "" ∉ p.lines → motive p [])
    (other : ∀ p e hs, e.line? = none → motive (p.remember e) hs → motive p (e :: hs))
    (empty : ∀ p answered hs, "" ∉ p.lines → p.upload = false → motive { p with lines := [] } hs →
      motive p (.handed "" true answered :: hs))
    (line : ∀ p line answered hs, line ≠ "" → p.upload = false →
      motive { p with lines := p.lines ++ [line] } hs → motive p (.handed line true answered :: hs))
    (hkept : "" ∉ p.lines) (h : p.upload = false) (hhs : ∀ e ∈ hs, e.IsWriting) : motive p hs := by
  induction hs generalizing p with
  | nil => exact nil p hkept
  | cons e hs ih =>
      obtain ⟨he, hrest⟩ := List.forall_mem_cons.mp hhs
      cases hline : e.line? with
      | none =>
          apply other p e hs hline
          exact ih ((lines_remember hline).symm ▸ hkept) (upload_remember_writing h he) hrest
      | some l =>
          obtain ⟨answered, rfl⟩ := eq_handed_of_line? hline he
          by_cases hempty : l = ""
          · subst hempty
            exact empty p answered hs hkept h (ih List.not_mem_nil h hrest)
          · apply line p l answered hs hempty h
            exact ih (by simp [hkept, Ne.symm hempty]) h hrest

/-- The answers are the groups of lines. -/
theorem answers_eq (hkept : "" ∉ p.lines) (h : p.upload = false) (hhs : ∀ e ∈ hs, e.IsWriting) :
    (p.answers hs).reduceOption =
      (p.groups hs).map fun group => .text ("\n".intercalate group) := by
  refine writing_induction (motive := fun p hs => (p.answers hs).reduceOption =
    (p.groups hs).map fun group => .text ("\n".intercalate group))
      ?nil ?other ?empty ?line hkept h hhs
  case nil =>
    intro p hkept
    simp [answers, groups, handedLines, List.splitOn_eq_singleton hkept]
  case other =>
    intro p e hs hline ih
    rw [answers_of_line? hline, groups_of_line? hline, ih]
  case empty =>
    intro p answered hs hkept h ih
    rw [groups_cons_empty hkept (q := { p with lines := [] }) rfl, List.map_cons, ← ih, answers,
      remember, resolve_several h, if_pos rfl, List.reduceOption_cons_of_some]
  case line =>
    intro p line answered hs hline h ih
    rw [groups_cons_line (q := { p with lines := p.lines ++ [line] }) rfl, ← ih, answers, remember,
      resolve_several h, if_neg hline, List.reduceOption_cons_of_none]

/-- Each line that is not empty is in one group or is kept. -/
theorem groups_append_lines (hkept : "" ∉ p.lines) (h : p.upload = false)
    (hhs : ∀ e ∈ hs, e.IsWriting) : (p.groups hs).flatten ++ (hs.foldl remember p).lines =
      p.lines ++ (handedLines hs).filter (· ≠ "") := by
  refine writing_induction (motive := fun p hs => (p.groups hs).flatten ++
    (hs.foldl remember p).lines = p.lines ++ (handedLines hs).filter (· ≠ ""))
      ?nil ?other ?empty ?line hkept h hhs
  case nil =>
    intro p hkept
    simp [groups, handedLines, List.splitOn_eq_singleton hkept]
  case other =>
    intro p e hs hline ih
    rw [groups_of_line? hline, List.foldl_cons, ih, lines_remember hline, handedLines, handedLines,
      List.filterMap_cons_none hline]
  case empty =>
    intro p answered hs hkept h ih
    rw [groups_cons_empty hkept (q := { p with lines := [] }) rfl, List.flatten_cons,
      List.append_assoc, List.foldl_cons, remember, resolve_several h, if_pos rfl, ih]
    rfl
  case line =>
    intro p line answered hs hline h ih
    have hlines : handedLines (.handed line true answered :: hs) = line :: handedLines hs := rfl
    rw [groups_cons_line (q := { p with lines := p.lines ++ [line] }) rfl, List.foldl_cons,
      remember, resolve_several h, if_neg hline, ih, hlines,
      List.filter_cons_of_pos (by simpa using hline), List.append_assoc, List.singleton_append]

/-- Lines are handed over in answers of several lines, from the first line of one on, and options
may be shown in between. A line that is not empty yields no answer; an empty line yields the lines
since the empty line before, joined. Neither changes which options are pending. So the answers are
the groups into which the lines fall at the empty ones, each line that is not empty is in one of
these or is kept, and the options that were shown last are pending. -/
theorem lines_answered_in_groups (hlines : p.lines = []) (hupload : p.upload = false)
    (hhs : ∀ e ∈ hs, e.IsWriting) :
    let groups := ((handedLines hs).splitOn "").dropLast
    (∀ before line answered after, hs = before ++ .handed line true answered :: after →
      let q := before.foldl remember p
      (q.resolve line true).1 = (if line = "" then
        some (.text ("\n".intercalate ((handedLines before).rtakeWhile (· ≠ "")))) else none) ∧
      (q.resolve line true).2.options = q.options) ∧
    (p.answers hs).reduceOption = groups.map (fun group => .text ("\n".intercalate group)) ∧
    groups.flatten ++ (hs.foldl remember p).lines = (handedLines hs).filter (· ≠ "") ∧
    (hs.foldl remember p).options =
      ((hs.filterMap Happening.options?).getLast?).getD p.options := by
  have hkept : "" ∉ p.lines := hlines ▸ List.not_mem_nil
  have hgroups : p.groups hs = ((handedLines hs).splitOn "").dropLast := by
    rw [groups, hlines, List.nil_append]
  refine ⟨?_, ?_, ?_, options_foldl_writing hhs⟩
  · rintro before line answered after rfl
    have hbefore := (List.forall_mem_append.mp hhs).1
    intro q
    rw [resolve_several (upload_foldl_writing hupload hbefore),
      lines_foldl_writing hlines hupload hbefore]
    split <;> exact ⟨rfl, rfl⟩
  · rw [answers_eq hkept hupload hhs, hgroups]
  · rw [← hgroups, groups_append_lines hkept hupload hhs, hlines, List.nil_append]

/-- Options are shown while an answer of two lines is written. The next answer is empty, and a line
of a third one is kept. -/
theorem lines_answered_in_groups_letter :
    let items : List OptionItem := [⟨"Yes", .string "y"⟩]
    let hs : List Happening := [.handed "Dear" true false, .shown (.options items none false none),
      .handed "you" true false, .handed "" true true, .handed "" true true, .handed "1" true false]
    (∀ e ∈ hs, e.IsWriting) ∧
      (empty.answers hs).reduceOption = [.text "Dear\nyou", .text ""] ∧
      ["Dear", "you"] ++ (hs.foldl remember empty).lines = ["Dear", "you", "1"] ∧
      (hs.foldl remember empty).options = items := by
  intro items hs
  have hhs : ∀ e ∈ hs, e.IsWriting := by simp [hs, Happening.IsWriting, Happening.showsUpload]
  obtain ⟨-, hanswers, hkept, hoptions⟩ := lines_answered_in_groups (p := empty) rfl rfl hhs
  exact ⟨hhs, hanswers, hkept, hoptions⟩

end Prompting

end Dialogue
