import Dialogue.Proofs.Console.Prompts
/-!
# Lines that are rejected

A line is read before its text is validated, and to read it uses up the options that were shown. So
when the text is rejected nothing is submitted and the wait goes on, but the options are forgotten:
the line that is typed instead is taken for a text of its own even when it is the number or the text
of an option.

* `Prompting.withoutOptions` — what is kept in mind after the line.
* `Prompting.resolve_after_iff` — which lines are read without the options as they are with them.
* `Session.rejected_line_costs_nothing_iff` — what a rejected line changes, and for which of the
  lines after it that matters.
-/

namespace Dialogue

/-! ## Reading without the options -/

namespace Prompting

variable {p : Prompting} {line : String} {textArea : Bool}

/-- What is kept in mind, but for the options. -/
def withoutOptions (p : Prompting) : Prompting := { p with options := [] }

theorem withoutOptions_eq_iff : p.withoutOptions = p ↔ p.options = [] := by
  obtain ⟨options, upload, lines⟩ := p
  simp [withoutOptions, eq_comm]

theorem reading_withoutOptions (line : String) : p.withoutOptions.reading line = line := by
  simp [reading, withoutOptions, chosen?]

/-- A line of a single-line answer uses the options up. -/
theorem resolve_single (h : p.upload = false) (line : String) : p.resolve line false =
    (some (.text (p.reading (Text.trim line))), p.withoutOptions) := by
  refine Prod.ext (resolve_text h line) ?_
  simp only [resolve, h, Bool.false_eq_true, if_false]
  split <;> simp [withoutOptions, h]

/-- In an answer of several lines an empty line ends the answer, and the others are kept. -/
theorem resolve_several (h : p.upload = false) (line : String) : p.resolve line true =
    if line = "" then (some (.text ("\n".intercalate p.lines)), { p with lines := [] })
    else (none, { p with lines := p.lines ++ [line] }) := by
  simp only [resolve, h, Bool.false_eq_true, if_false, if_true, ite_not]

/-- A line of an answer of one line uses the options up. -/
theorem options_resolve (p : Prompting) (line : String) (textArea : Bool) :
    (p.resolve line textArea).2.options = if p.upload || textArea then p.options else [] := by
  cases hu : p.upload with
  | true => simp [resolve, hu]
  | false =>
      cases textArea with
      | true =>
          rw [resolve_several hu]
          split <;> rfl
      | false =>
          rw [resolve_single hu]
          rfl

/-- The options matter for lines that choose one whose value is another text, unless a file was
asked for or the answer has several lines. -/
theorem resolve_withoutOptions_iff :
    (p.withoutOptions.resolve line textArea).1 = (p.resolve line textArea).1 ↔
      p.upload = true ∨ textArea = true ∨ p.reading (Text.trim line) = Text.trim line := by
  cases hu : p.upload with
  | true => simp [resolve, withoutOptions, hu]
  | false =>
      cases textArea with
      | true =>
          refine iff_of_true ?_ (.inr (.inl rfl))
          simp only [resolve, withoutOptions, hu, Bool.false_eq_true, if_false, if_true]
          split <;> rfl
      | false =>
          rw [resolve_single hu, resolve_single (show p.withoutOptions.upload = false from hu),
            reading_withoutOptions]
          simp [eq_comm]

/-- Two ways to write the number of the first option, of which one is not its value. -/
theorem exists_reading_ne (h : p.options ≠ []) :
    ∃ line, p.reading (Text.trim line) ≠ Text.trim line := by
  obtain ⟨o, rest, ho⟩ := List.exists_cons_of_ne_nil h
  have hone : p.reading (Text.trim "1") = o.value.text := by
    simp only [reading, chosen?, ho]
    rfl
  have hplus : p.reading (Text.trim "+1") = o.value.text := by
    simp only [reading, chosen?, ho]
    rfl
  by_contra hall
  push Not at hall
  have hsame : Text.trim "1" = Text.trim "+1" :=
    (hall "1").symm.trans (hone.trans (hplus.symm.trans (hall "+1")))
  exact absurd hsame (by decide)

end Prompting

/-! ## What happens before the next line -/

namespace Happening

/-- Are options shown? -/
def showsOptions : Happening → Bool
  | .shown (.options _ _ _ _) => true
  | _ => false

/-- Is a request for a file shown? -/
def showsUpload : Happening → Bool
  | .shown (.uploader _) => true
  | _ => false

/-- Is a line handed over? -/
def isHanded : Happening → Bool
  | .handed _ _ _ => true
  | _ => false

end Happening

namespace Prompting

variable {p : Prompting} {e : Happening} {hs : List Happening}

/-- Options that are shown take the place of those before, so these matter no longer. -/
theorem remember_withoutOptions (he : e.isHanded = false) : p.withoutOptions.remember e =
    if e.showsOptions then p.remember e else (p.remember e).withoutOptions := by
  cases e with
  | handed => cases he
  | shown payload => cases payload <;> rfl
  | delivered | cleared => rfl

theorem options_remember (he : e.isHanded = false) (hshows : e.showsOptions = false) :
    (p.remember e).options = p.options := by
  cases e with
  | handed => cases he
  | shown payload =>
      cases payload
      case options => cases hshows
      all_goals rfl
  | delivered | cleared => rfl

theorem upload_remember (he : e.isHanded = false) :
    (p.remember e).upload = (p.upload || e.showsUpload) := by
  cases e with
  | handed => cases he
  | shown payload => cases payload <;> simp [remember, observe, Happening.showsUpload]
  | delivered | cleared => simp [remember, Happening.showsUpload]

theorem foldl_withoutOptions (hnone : ∀ e ∈ hs, e.isHanded = false) :
    hs.foldl remember p.withoutOptions =
      if hs.any Happening.showsOptions then hs.foldl remember p
      else (hs.foldl remember p).withoutOptions := by
  induction hs generalizing p with
  | nil => rfl
  | cons e hs ih =>
      obtain ⟨he, hrest⟩ := List.forall_mem_cons.mp hnone
      rw [List.foldl_cons, List.foldl_cons, List.any_cons, remember_withoutOptions he]
      cases e.showsOptions with
      | true => rfl
      | false => exact ih hrest

theorem options_foldl (hnone : ∀ e ∈ hs, e.isHanded = false)
    (hshows : hs.any Happening.showsOptions = false) :
    (hs.foldl remember p).options = p.options := by
  induction hs generalizing p with
  | nil => rfl
  | cons e hs ih =>
      obtain ⟨he, hrest⟩ := List.forall_mem_cons.mp hnone
      obtain ⟨hfirst, hshows⟩ := Bool.or_eq_false_iff.mp (List.any_cons ▸ hshows)
      rw [List.foldl_cons, ih hrest hshows, options_remember he hfirst]

theorem upload_foldl (hnone : ∀ e ∈ hs, e.isHanded = false) :
    (hs.foldl remember p).upload = (p.upload || hs.any Happening.showsUpload) := by
  induction hs generalizing p with
  | nil => exact (Bool.or_false _).symm
  | cons e hs ih =>
      obtain ⟨he, hrest⟩ := List.forall_mem_cons.mp hnone
      rw [List.foldl_cons, ih hrest, upload_remember he, List.any_cons, Bool.or_assoc]

/-- The next line is read without the options as it is with them just when options have been shown
since, or it gives a path, or it is a line of several, or the options make nothing else of it. -/
theorem resolve_after_iff (hupload : p.upload = false) (hnone : ∀ e ∈ hs, e.isHanded = false)
    (line : String) (textArea : Bool) :
    ((hs.foldl remember p.withoutOptions).resolve line textArea).1 =
        ((hs.foldl remember p).resolve line textArea).1 ↔
      hs.any Happening.showsOptions = true ∨ hs.any Happening.showsUpload = true ∨
        textArea = true ∨ p.reading (Text.trim line) = Text.trim line := by
  rw [foldl_withoutOptions hnone]
  cases hshows : hs.any Happening.showsOptions with
  | true => simp
  | false =>
      have hreading : (hs.foldl remember p).reading = p.reading := by
        funext line
        rw [reading, reading, options_foldl hnone hshows]
      rw [if_neg Bool.false_ne_true, resolve_withoutOptions_iff, upload_foldl hnone, hupload,
        Bool.false_or, hreading]
      simp

end Prompting

/-! ## Rejected lines -/

namespace Session

variable {s : Session} {k : ConsoleState} {line : String} {p : Prompting}

theorem answerTo_of_prompting (h : s.prompting? = some p) (line : String) :
    s.answerTo line = (p.resolve line s.conversation.input.textArea).1 := by
  obtain ⟨k, hk, rfl⟩ := Option.map_eq_some_iff.mp h
  rw [answerTo, hk, Option.bind_some]

/-- The forwarder holds a line while somebody waits for an answer of one line, and its text is not
accepted. -/
structure Rejects (s : Session) (k : ConsoleState) (line : String) : Prop where
  console : s.console = some k
  holding : k.forwarder = .holding line
  waiting : s.conversation.isAwaiting = true
  single : s.conversation.input.textArea = false
  noUpload : k.prompting.upload = false
  invalid : s.conversation.validates (k.prompting.reading (Text.trim line)) = false

theorem stepForwarder_of_rejects (h : s.Rejects k line) : s.stepForwarder =
    ({ s with
        console := some { k with
          prompting := k.prompting.withoutOptions
          forwarder := .receiving }
        output := s.output ++ "⚠️ 输入无效，请重新输入\n" }, true) := by
  have hrefused : (s.setConsole { k with
      prompting := k.prompting.withoutOptions
      forwarder := .receiving }).conversation.validates
        (k.prompting.reading (Text.trim line)) = false := h.invalid
  simp only [stepForwarder, h.console, h.holding, h.waiting, if_true, forward, h.single,
    Prompting.resolve_single h.noUpload, submit, hrefused, Bool.false_eq_true, if_false]
  rfl

theorem prompting_of_rejects (h : s.Rejects k line) :
    (s.turn .forwarder).prompting? = some k.prompting.withoutOptions := by
  have hstep : s.stepForwarder.1.prompting? = some k.prompting.withoutOptions := by
    rw [stepForwarder_of_rejects h]
    rfl
  rw [← hstep]
  exact prompting?_of_console (console_turn _)

/-- A line that is rejected changes nothing but the options that the console keeps in mind, and what
is printed: nothing is submitted, no message is added, and the wait goes on. What the console keeps
in mind is left as it was just when there were no options. Otherwise the next line is answered as if
the rejected one had not been typed just when options have been shown since, or it gives a path, or
it is a line of several, or the options make nothing else of it; so there is a line that is not. -/
theorem rejected_line_costs_nothing_iff (h : s.Rejects k line) :
    s.stepForwarder =
      ({ s with
          console := some { k with
            prompting := { k.prompting with options := [] }
            forwarder := .receiving }
          output := s.output ++ "⚠️ 输入无效，请重新输入\n" }, true) ∧
    ((s.turn .forwarder).prompting? = some k.prompting ↔ k.prompting.options = []) ∧
    (∀ ms next,
      let s' := (s.turn .forwarder).moves ms
      let hs := (s.turn .forwarder).accounts ms
      (∀ e ∈ hs, e.isHanded = false) →
        (s'.answerTo next = ((hs.foldl Prompting.remember k.prompting).resolve next
            s'.conversation.input.textArea).1 ↔
          hs.any Happening.showsOptions = true ∨ hs.any Happening.showsUpload = true ∨
            s'.conversation.input.textArea = true ∨
            k.prompting.reading (Text.trim next) = Text.trim next)) ∧
    ((∀ next, (s.turn .forwarder).answerTo next = (k.prompting.resolve next false).1) ↔
      k.prompting.options = []) := by
  have hprompting := prompting_of_rejects h
  refine ⟨stepForwarder_of_rejects h, ?_, ?_, ?_⟩
  · rw [hprompting, Option.some_inj, Prompting.withoutOptions_eq_iff]
  · intro ms next s' hs hnone
    have hafter : s'.prompting? =
        some (hs.foldl Prompting.remember k.prompting.withoutOptions) := by
      rw [prompting_moves, hprompting]
      rfl
    rw [answerTo_of_prompting hafter, Prompting.resolve_after_iff h.noUpload hnone]
  · have hsingle : (s.turn .forwarder).conversation.input.textArea = false := by
      rw [conversation_turn]
      show s.stepForwarder.1.conversation.input.textArea = false
      rw [stepForwarder_of_rejects h]
      exact h.single
    simp only [answerTo_of_prompting hprompting, hsingle, Prompting.resolve_withoutOptions_iff,
      h.noUpload, Bool.false_eq_true, false_or]
    constructor
    · intro hall
      by_contra hne
      obtain ⟨next, hnext⟩ := Prompting.exists_reading_ne hne
      exact hnext (hall next)
    · intro hnil next
      rw [← Prompting.withoutOptions_eq_iff] at hnil
      rw [← hnil, Prompting.reading_withoutOptions]

/-- The colours have been shown, and only texts of one character are accepted. -/
def colourShown : Session :=
  (quietSession.moves (colourAsked ++ [.turn (.notice 0), .arrive 1100, .turn (.notice 0),
    .turn .renderer])).operate (.setValidator (some fun text => text.toList.length = 1))

/-- A line that names no colour was typed, and the forwarder has taken it. -/
def greenTyped : Session := colourShown.moves [.type "green", .turn .forwarder]

set_option maxRecDepth 20000 in
theorem rejects_greenTyped : ∃ k, greenTyped.Rejects k "green" ∧
    k.prompting.options = [⟨"Red", .string "r"⟩, ⟨"Blue", .string "b"⟩] := by
  refine ⟨_, ⟨rfl, rfl, by decide +kernel, by decide +kernel, rfl, by decide +kernel⟩, rfl⟩

/-- The text of the line is rejected. A line that chooses no colour is answered as if the first one
had not been typed. -/
theorem rejected_line_costs_nothing_iff_greenTyped :
    ∃ k, greenTyped.Rejects k "green" ∧ (greenTyped.turn .forwarder).answerTo "x" =
      (k.prompting.resolve "x" (greenTyped.turn .forwarder).conversation.input.textArea).1 := by
  obtain ⟨k, hrejects, hoptions⟩ := rejects_greenTyped
  have hreading : k.prompting.reading (Text.trim "x") = Text.trim "x" := by
    simp only [Prompting.reading, hoptions]
    rfl
  refine ⟨k, hrejects, ?_⟩
  apply ((rejected_line_costs_nothing_iff hrejects).2.2.1 [] "x" (by simp [accounts])).mpr
  exact .inr (.inr (.inr hreading))

set_option maxRecDepth 20000 in
/-- The text of the line is rejected, and the number of a colour no longer chooses it. -/
theorem rejected_line_costs_options :
    ∃ k, greenTyped.Rejects k "green" ∧ (k.prompting.resolve "2" false).1 = some (.text "b") ∧
      (greenTyped.turn .forwarder).conversation.isAwaiting = true ∧
      (greenTyped.turn .forwarder).answerTo "2" = some (.text "2") := by
  obtain ⟨k, hrejects, hoptions⟩ := rejects_greenTyped
  refine ⟨k, hrejects, ?_, by decide +kernel, rfl⟩
  rw [Prompting.resolve_text hrejects.noUpload, Prompting.reading, hoptions]
  rfl

end Session

end Dialogue
