import Mathlib.Data.List.Basic
import Dialogue.Proofs.Console.Account
/-!
# Which question a typed line answers

A line is to be read against the question that was asked last: a list of options or a request for a
file that took its place in the list of messages after the last answer. The console reads it against
what the renderer has shown and no line has used up. The renderer learns of a message by a notice
that comes later, so the two may differ, and a question that is shown late is read by a later line.

* `prompting_moves` — what the console keeps in mind is what was shown and not used up.
* `fits_iff_readsAs` — lines are read against the question asked just as long as the two read alike.
* `remembered_eq_asked` — they do when each question was shown before the next line was handed over.
-/

namespace Dialogue

/-! ## What a line is read against -/

namespace Prompting

/-- The text that a line stands for: the value of the option that it chooses, or the line itself. -/
def reading (p : Prompting) (line : String) : String :=
  ((chosen? p.options line).map fun o => o.value.text).getD line

/-- Do all lines give the same answers to both, as long as an answer has one line? -/
def ReadsAs (p q : Prompting) : Prop :=
  p.upload = q.upload ∧
    (q.upload = false → ∀ line, p.reading (Text.trim line) = q.reading (Text.trim line))

/-- Lines answer a question, and nothing else: when a file is asked for, each gives its path, and
otherwise the number of an option chooses this option, and every other line the option of this text
or itself. -/
structure Fits (q : Prompting) (answer : String → Option Answer) : Prop where
  file : q.upload = true → ∀ line,
    answer line = some (.upload (.object [("path", .string (Text.trim line))]))
  number : q.upload = false → ∀ line n o, index? (Text.trim line) = some n →
    q.options[n]? = some o → answer line = some (.text o.value.text)
  other : q.upload = false → ∀ line, (index? (Text.trim line)).bind (q.options[·]?) = none →
    answer line = some (.text (((q.options.find? fun o =>
      Text.agreesIgnoringCase o.display (Text.trim line)).map fun o => o.value.text).getD
        (Text.trim line)))

variable {p q : Prompting}

theorem resolve_file (h : p.upload = true) (line : String) : (p.resolve line false).1 =
    some (.upload (.object [("path", .string (Text.trim line))])) := by
  simp [resolve, h]

theorem resolve_text (h : p.upload = false) (line : String) :
    (p.resolve line false).1 = some (.text (p.reading (Text.trim line))) := by
  simp only [resolve, h, Bool.false_eq_true, if_false, reading]
  cases chosen? p.options (Text.trim line) <;> rfl

theorem fits_iff {answer : String → Option Answer} :
    q.Fits answer ↔ ∀ line, answer line = (q.resolve line false).1 := by
  constructor
  · intro h line
    cases hu : q.upload with
    | true => rw [h.file hu, resolve_file hu]
    | false =>
        rw [resolve_text hu, reading, chosen?]
        cases hn : (index? (Text.trim line)).bind (q.options[·]?) with
        | none => exact h.other hu line hn
        | some o =>
            obtain ⟨n, hn, ho⟩ := Option.bind_eq_some_iff.mp hn
            exact h.number hu line n o hn ho
  · intro h
    constructor
    · intro hu line
      rw [h, resolve_file hu]
    · intro hu line n o hn ho
      rw [h, resolve_text hu, reading, chosen?, hn, Option.bind_some, ho]
      rfl
    · intro hu line hn
      rw [h, resolve_text hu, reading, chosen?, hn]
      rfl

/-- Two states answer all lines alike just if they read alike. -/
theorem readsAs_iff :
    p.ReadsAs q ↔ ∀ line, (p.resolve line false).1 = (q.resolve line false).1 := by
  constructor
  · rintro ⟨hu, hr⟩ line
    cases hq : q.upload with
    | true => rw [resolve_file hq, resolve_file (hu.trans hq)]
    | false => rw [resolve_text hq, resolve_text (hu.trans hq), hr hq]
  · intro h
    -- One line is enough to tell a path from a text.
    have hu : p.upload = q.upload := by
      cases hp : p.upload <;> cases hq : q.upload
      · rfl
      · have := h ""
        rw [resolve_text hp, resolve_file hq] at this
        cases this
      · have := h ""
        rw [resolve_file hp, resolve_text hq] at this
        cases this
      · rfl
    refine ⟨hu, fun hq line => ?_⟩
    have := h line
    rw [resolve_text hq, resolve_text (hu.trans hq)] at this
    exact Answer.text.inj (Option.some.inj this)

end Prompting

/-! ## What is asked, and what is kept in mind -/

namespace Prompting

/-- What was asked after the last answer, as it changes with what happens. -/
def ask (p : Prompting) : Happening → Prompting
  | .delivered payload => p.observe ⟨payload, true⟩
  | .handed _ _ true => .empty
  | .cleared => .empty
  | _ => p

/-- What was shown and no line has used up, as it changes with what happens. -/
def remember (p : Prompting) : Happening → Prompting
  | .shown payload => p.observe ⟨payload, true⟩
  | .handed line textArea _ => (p.resolve line textArea).2
  | _ => p

end Prompting

/-- What was asked after the last answer. -/
def asked (hs : List Happening) : Prompting := hs.foldl Prompting.ask .empty

/-- What was shown and no line has used up. -/
def remembered (hs : List Happening) : Prompting := hs.foldl Prompting.remember .empty

namespace Session

variable {s : Session} {n : Nat}

/-! ## What the console keeps in mind -/

/-- What the console keeps in mind, if there is one. -/
def prompting? (s : Session) : Option Prompting := s.console.map ConsoleState.prompting

theorem prompting?_of_console {s' : Session} (h : s'.console = s.console) :
    s'.prompting? = s.prompting? := by
  rw [prompting?, prompting?, h]

theorem console_showMessage (k : ConsoleState) (m : Message) : (s.showMessage k m).console =
    some { k with prompting := k.prompting.observe m, seen := k.seen + 1 } := by
  unfold showMessage
  dsimp only
  cases Console.format? k.settings m with
  | none =>
      dsimp only
      split <;> rfl
  | some text =>
      dsimp only
      split <;> rfl

theorem console_useLastButton : s.useLastButton.console = s.console := by
  unfold useLastButton
  split
  · split <;> simp
  · simp

theorem console_submit (a : Option Answer) : (s.submit a).console = s.console := by
  unfold submit
  split
  · split <;> simp
  · simp
  · rfl

theorem observe_of_not_isQuestion {m : Message} (p : Prompting)
    (h : m.payload.isQuestion = false) : p.observe m = p := by
  unfold Prompting.observe
  split
  case h_1 hm =>
    rw [hm] at h
    cases h
  case h_2 hm =>
    rw [hm] at h
    cases h
  case h_3 => rfl

theorem foldl_remember_shown (p : Prompting) (m : Message) :
    (((some m.payload).filter Payload.isQuestion).toList.map Happening.shown).foldl
      Prompting.remember p = p.observe m := by
  cases hq : m.payload.isQuestion with
  | true =>
      rw [Option.filter_some, if_pos hq]
      rfl
  | false =>
      rw [Option.filter_some, if_neg (by simp [hq]), observe_of_not_isQuestion p hq]
      rfl

theorem prompting_stepRenderer : s.stepRenderer.1.prompting? =
    s.prompting?.map fun p => (s.account (.turn .renderer)).foldl Prompting.remember p := by
  unfold stepRenderer account display? prompting?
  cases hk : s.console with
  | none => simp only [hk, Option.map_none]
  | some k =>
      dsimp only [Option.map_some]
      rcases s.conversation.noticesAfter k.seen with ⟨_ | missed, _ | ⟨m, rest⟩⟩
      · rw [hk]
        rfl
      · show (s.showMessage k m).console.map ConsoleState.prompting =
          some ((((some m.payload).filter Payload.isQuestion).toList.map Happening.shown).foldl
            Prompting.remember k.prompting)
        rw [console_showMessage, foldl_remember_shown]
        rfl
      · rw [hk]
        rfl
      · rfl

theorem prompting_stepForwarder : s.stepForwarder.1.prompting? =
    s.prompting?.map fun p => (s.account (.turn .forwarder)).foldl Prompting.remember p := by
  unfold stepForwarder account forwarding prompting?
  cases hk : s.console with
  | none => simp only [hk, Option.map_none]
  | some k =>
      dsimp only [Option.map_some]
      cases hf : k.forwarder with
      | receiving =>
          dsimp only
          split
          · split
            · rw [console_useLastButton]
              rfl
            · rfl
          · split
            · rfl
            · rw [hk]
              rfl
      | holding line =>
          dsimp only
          split
          · unfold forward
            dsimp only
            rw [console_submit]
            rfl
          · unfold lookAgain
            rw [console_sleepUntil, hk]
            rfl
      | closing =>
          dsimp only
          split
          · rfl
          · unfold lookAgain
            rw [console_sleepUntil, hk]
            rfl
      | ended =>
          rw [hk]
          rfl

/-- A line that is typed and the end of the lines do not change what the console keeps in mind. -/
theorem prompting_type (line : String) : (s.type line).prompting? = s.prompting? := by
  have hwake : ∀ (s : Session) (k : ConsoleState), (s.wakeForwarder k).console = s.console := by
    intro s k
    obtain ⟨ready, heq⟩ := wakeForwarder_eq s k
    rw [heq]
  unfold type prompting?
  cases hk : s.console with
  | none => simp only [hk]
  | some k =>
      dsimp only
      split
      · rw [hwake]
        rfl
      · rw [hk]

theorem prompting_close : s.close.prompting? = s.prompting? := by
  unfold close wakeForwarder prompting?
  cases hk : s.console with
  | none => simp only [hk]
  | some k =>
      dsimp only
      split
      · rw [console_wake]
        rfl
      · rfl

theorem prompting_move (m : Move) : (s.move m).prompting? =
    s.prompting?.map fun p => (s.account m).foldl Prompting.remember p := by
  -- Most moves leave the console alone, and what is reported of them is not remembered.
  have hsame : ∀ (s' : Session) (hs : List Happening), s'.console = s.console →
      (∀ p, hs.foldl Prompting.remember p = p) →
      s'.prompting? = s.prompting?.map fun p => hs.foldl Prompting.remember p := by
    intro s' hs hc hp
    rw [prompting?_of_console hc]
    simp only [hp, Option.map_id']
  cases m with
  | turn t =>
      cases t with
      | pump n =>
          refine hsame _ _ (console_turn _) fun p => ?_
          simp only [account]
          cases (s.question? n).filter Payload.isQuestion <;> rfl
      | notice n => exact hsame _ _ (console_turn _) fun p => rfl
      | client n =>
          refine hsame _ _ ((console_turn _).trans (console_stepClient n)) fun p => ?_
          simp only [account]
          split <;> rfl
      | renderer =>
          rw [← prompting_stepRenderer]
          exact prompting?_of_console (console_turn _)
      | forwarder =>
          rw [← prompting_stepForwarder]
          exact prompting?_of_console (console_turn _)
  | arrive time => exact hsame _ _ (console_arrive time) fun _ => rfl
  | type line =>
      rw [show (s.move (.type line)).prompting? = s.prompting? from prompting_type line]
      exact Option.map_id'.symm
  | close =>
      rw [show (s.move .close).prompting? = s.prompting? from prompting_close]
      exact Option.map_id'.symm
  | join c => exact hsame _ _ (console_wake _) fun _ => rfl

/-- What the console keeps in mind is what was shown and no line has used up. -/
theorem prompting_moves (ms : List Move) : (s.moves ms).prompting? =
    s.prompting?.map fun p => (s.accounts ms).foldl Prompting.remember p := by
  induction ms generalizing s with
  | nil => exact Option.map_id'.symm
  | cons m ms ih =>
      show ((s.move m).moves ms).prompting? = _
      rw [ih, prompting_move, accounts, Option.map_map]
      simp only [List.foldl_append, Function.comp_def]

end Session

/-! ## Questions that are shown in time -/

/-- What the console keeps in mind after some questions. -/
def observed (ps : List Payload) : Prompting :=
  ps.foldl (fun p payload => p.observe ⟨payload, true⟩) .empty

/-- Each question was shown before the next line was handed over, each of these lines was a whole
answer, and no more than one question was asked for it. The two lists are the questions that were
delivered and those that were shown since the last answer. -/
def InTime : (delivered shown : List Payload) → List Happening → Prop
  | ds, ss, [] => ss = ds
  | ds, ss, .delivered p :: hs => InTime (ds ++ [p]) ss hs
  | ds, ss, .shown p :: hs => InTime ds (ss ++ [p]) hs
  | ds, ss, .handed _ textArea answered :: hs =>
    ss = ds ∧ ds.length ≤ 1 ∧ textArea = false ∧ answered = true ∧ InTime [] [] hs
  | ds, ss, .cleared :: hs => ds = [] ∧ ss = [] ∧ InTime [] [] hs

theorem observed_append (ps : List Payload) (p : Payload) :
    observed (ps ++ [p]) = (observed ps).observe ⟨p, true⟩ :=
  List.foldl_append

/-- A line of an answer uses up the only question that was shown. -/
theorem resolve_observed {ps : List Payload} (h : ps.length ≤ 1) (line : String) :
    ((observed ps).resolve line false).2 = .empty := by
  -- A request for a file that came first would leave the options behind.
  have hempty : ∀ p : Prompting, p.upload = false → p.lines = [] →
      (p.resolve line false).2 = .empty := by
    intro p hu hl
    simp only [Prompting.resolve, hu, Bool.false_eq_true, if_false]
    split <;> simp [Prompting.empty, hl]
  rcases ps with _ | ⟨p, _ | ⟨q, rest⟩⟩
  · exact hempty _ rfl rfl
  · cases p with
    | uploader => rfl
    | _ => exact hempty _ rfl rfl
  · simp at h

theorem foldl_eq_of_inTime {ds ss : List Payload} {hs : List Happening} (h : InTime ds ss hs) :
    hs.foldl Prompting.remember (observed ss) = hs.foldl Prompting.ask (observed ds) := by
  -- A line that is handed over finds the two lists alike and empties both.
  induction hs generalizing ds ss with
  | nil =>
      have h : ss = ds := h
      rw [h]
      rfl
  | cons e hs ih =>
      cases e with
      | delivered p =>
          have := @ih (ds ++ [p]) ss h
          rw [observed_append] at this
          exact this
      | shown p =>
          have := @ih ds (ss ++ [p]) h
          rw [observed_append] at this
          exact this
      | handed line textArea answered =>
          obtain ⟨rfl, hlen, rfl, rfl, hrest⟩ := h
          have := ih hrest
          rw [List.foldl_cons, List.foldl_cons, Prompting.remember, resolve_observed hlen]
          exact this
      | cleared =>
          obtain ⟨rfl, rfl, hrest⟩ := h
          exact ih hrest

/-- When questions are shown in time, the console keeps in mind what was asked. -/
theorem remembered_eq_asked {hs : List Happening} (h : InTime [] [] hs) :
    remembered hs = asked hs :=
  foldl_eq_of_inTime h

/-! ## Lines and questions -/

/-- After whatever has happened, each question in the list of messages is on the account; and a line
that is handed over for a single-line answer is read against the question that was asked last, and
nothing else, just if what was shown and not used up reads as what was asked. This is so when
questions were shown in time. -/
theorem fits_iff_readsAs (settings : Settings) (record : Record) (clock : Clock) (began : Nat)
    (isFile : String → Bool) (host : HostSettings) (ms : List Move) :
    let first := (Session.start settings record clock began isFile).withConsole host
    let s := first.moves ms
    let hs := first.accounts ms
    s.conversation.input.textArea = false →
      (∀ p ∈ s.questions, .delivered p ∈ hs) ∧ (∀ line, s.HandsOver line (s.answerTo line)) ∧
        ((asked hs).Fits s.answerTo ↔ (remembered hs).ReadsAs (asked hs)) ∧
        (InTime [] [] hs → (asked hs).Fits s.answerTo) := by
  intro first s hs hmode
  have hp : s.prompting? = some (remembered hs) := Session.prompting_moves ms
  have hanswer : ∀ line, s.answerTo line = ((remembered hs).resolve line false).1 := by
    intro line
    obtain ⟨k, hk, hprompting⟩ := Option.map_eq_some_iff.mp hp
    rw [Session.answerTo, hk, Option.bind_some, hprompting, hmode]
  have hiff : (asked hs).Fits s.answerTo ↔ (remembered hs).ReadsAs (asked hs) := by
    rw [Prompting.fits_iff, Prompting.readsAs_iff]
    simp only [hanswer]
  refine ⟨fun p hp => ?_, s.handsOver_answerTo, hiff, fun hin => hiff.mpr ?_⟩
  · -- There is no question in the list at first.
    rcases Session.mem_questions_moves hp with hfirst | hmem
    · cases hfirst
    · exact hmem
  · rw [remembered_eq_asked hin]
    exact ⟨rfl, fun _ _ => rfl⟩

/-- A step that asks for one of two colours, and one that asks for a number. -/
def colourAndCount : List Step :=
  [⟨some [], some [⟨"Red", "r"⟩, ⟨"Blue", "b"⟩], some ⟨some "colour", false, []⟩, none, none⟩,
    ⟨some [], none, some ⟨some "count", false, []⟩, none, none⟩]

/-- A run of these steps. -/
def colourRun : RunContext where
  scene := ⟨⟨[⟨defaultTopic, colourAndCount⟩], by decide, by decide⟩, .standard,
    ⟨false, false, false⟩⟩
  record := 0
  table := .empty

/-- A session with a console and nobody else. -/
def quietSession : Session :=
  (Session.start .standard .empty .stepped 0 fun _ => false).withConsole .standard

/-- The run begins, its options are delivered, and it waits for an answer. -/
def colourAsked : List Move :=
  [.join ⟨"run", .running colourRun .fresh⟩, .turn (.client 0), .turn (.client 0),
    .turn (.client 0), .turn (.pump 0), .arrive 1000, .turn (.pump 0), .turn (.pump 0),
    .turn (.pump 0), .turn (.client 0)]

/-- The options are shown before a line is typed. -/
def typedAfterwards : List Move :=
  colourAsked ++ [.turn (.notice 0), .arrive 1100, .turn (.notice 0), .turn .renderer, .type "2",
    .turn .forwarder]

/-- A line is typed ahead and taken by the forwarder before the options are shown. -/
def typedAhead : List Move := [.type "2", .type "2", .turn .forwarder] ++ colourAsked

/-- The line is handed over, the run asks for the number, and the options are shown at last. -/
def shownLate : List Move :=
  typedAhead ++ [.turn (.notice 0), .turn .forwarder, .turn .forwarder, .turn (.client 0),
    .turn (.client 0), .turn (.client 0), .turn (.pump 0), .turn (.pump 0), .turn (.client 0),
    .arrive 1100, .turn (.notice 0), .turn .renderer]

set_option maxRecDepth 20000 in
theorem fits_typedAfterwards :
    let s := quietSession.moves typedAfterwards
    let hs := quietSession.accounts typedAfterwards
    s.conversation.input.textArea = false ∧ InTime [] [] hs ∧ s.conversation.isAwaiting = true ∧
      s.answerTo "2" = some (.text "b") := by
  intro s hs
  have hmode : s.conversation.input.textArea = false := by decide +kernel
  have hin : InTime [] [] hs := ⟨rfl, rfl, rfl⟩
  have hfits : (asked hs).Fits s.answerTo :=
    (fits_iff_readsAs .standard .empty .stepped 0 (fun _ => false) .standard typedAfterwards
      hmode).2.2.2 hin
  refine ⟨hmode, hin, by decide +kernel, ?_⟩
  exact hfits.number rfl "2" 1 ⟨"Blue", .string "b"⟩ rfl rfl

set_option maxRecDepth 20000 in
/-- A line that is typed ahead is not read against the options that stand in the list, and a line
for the next question is read against them although they were not asked for it. -/
theorem misses_typedAhead :
    ((asked (quietSession.accounts typedAhead)).options[1]? = some ⟨"Blue", .string "b"⟩ ∧
      (quietSession.moves typedAhead).conversation.isAwaiting = true ∧
      (quietSession.moves typedAhead).answerTo "2" = some (.text "2")) ∧
    ((asked (quietSession.accounts shownLate)).options.length = 0 ∧
      (quietSession.moves shownLate).conversation.isAwaiting = true ∧
      (quietSession.moves shownLate).answerTo "2" = some (.text "b")) :=
  ⟨⟨rfl, by decide +kernel, rfl⟩, ⟨rfl, by decide +kernel, rfl⟩⟩

end Dialogue
