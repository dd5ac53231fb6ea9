import Dialogue.Proofs.Session.Doing
/-!
# The renderer

The renderer has its turn whenever a notice was sent, and it shows the notices in their order. When
there are more than are kept for it, it passes the first of them over.

* `Log` — what can be noticed of a session.
* `Rendered` — the notices that were sent first were shown or passed over.
* `Rendered.turn_ne`, `Rendered.turn_renderer` — that is so after the turn of any task.
* `Rendered.misses_eq_nil` — when few notices are left nothing is passed over.
-/

namespace Dialogue

/-- What can be noticed of a session: the messages of the script that were delivered and what was
typed, and when, and the notices that were shown or passed over. -/
structure Log where
  delivered : List (Nat × Message)
  shown : List Message
  missed : List Message
  typed : List (Nat × Option String)

namespace Log

/-- Nothing. -/
def nothing : Log := ⟨[], [], [], []⟩

instance : Append Log where
  append a b :=
    ⟨a.delivered ++ b.delivered, a.shown ++ b.shown, a.missed ++ b.missed, a.typed ++ b.typed⟩

variable (a b c : Log)

@[simp]
theorem delivered_append : (a ++ b).delivered = a.delivered ++ b.delivered := rfl

@[simp]
theorem shown_append : (a ++ b).shown = a.shown ++ b.shown := rfl

@[simp]
theorem missed_append : (a ++ b).missed = a.missed ++ b.missed := rfl

@[simp]
theorem typed_append : (a ++ b).typed = a.typed ++ b.typed := rfl

theorem append_nothing : a ++ nothing = a := by
  show Log.mk _ _ _ _ = a
  simp [nothing]

theorem append_assoc : a ++ b ++ c = a ++ (b ++ c) := by
  show Log.mk _ _ _ _ = Log.mk _ _ _ _
  simp

/-- How many times something was typed at the given time. -/
def typedAt (time : Nat) : Nat := a.typed.countP (·.1 = time)

/-- Something is typed. -/
def input (now : Nat) (line : Option String) : Log := ⟨[], [], [], [(now, line)]⟩

theorem typedAt_input (now : Nat) (line : Option String) (time : Nat) :
    (a ++ input now line).typedAt time = a.typedAt time + if now = time then 1 else 0 := by
  rw [typedAt, typed_append, List.countP_append, input, List.countP_singleton, typedAt]
  simp only [decide_eq_true_eq]

/-- The number of notices that were shown or passed over. -/
def seen : Nat := a.shown.length + a.missed.length

theorem seen_append : (a ++ b).seen = a.seen + b.seen := by
  simp only [seen, shown_append, missed_append, List.length_append]
  omega

end Log

namespace Session

open Conversation

variable {s : Session} {t u : TaskId} {op : Option Operation} {settings : HostSettings}
  {shown : List Message} {log : Log} {time : Nat}

/-! ## What can be noticed -/

/-- The messages of the script that a task delivers in its turn. -/
def presents (s : Session) : TaskId → List (Nat × Message)
  | .pump n => s.conversation.presents (.stepPump n)
  | _ => []

/-- The notice that a task shows in its turn. -/
def shows (s : Session) (t : TaskId) : List Message :=
  match t, s.console with
  | .renderer, some k =>
    let after := s.conversation.noticesAfter k.seen
    if after.1 = 0 then after.2.head?.toList else []
  | _, _ => []

/-- The notices that a task passes over in its turn. -/
def misses (s : Session) (t : TaskId) : List Message :=
  match t, s.console with
  | .renderer, some k =>
    (s.conversation.sent.drop k.seen).take (s.conversation.noticesAfter k.seen).1
  | _, _ => []

/-- What can be noticed of the turn of a task. -/
def logOf (s : Session) (t : TaskId) : Log := ⟨s.presents t, s.shows t, s.misses t, []⟩

/-- The line that a message is shown as. -/
def line? (settings : HostSettings) (m : Message) : Option String :=
  (Console.format? settings m).map (· ++ "\n")

/-- The lines of some messages stand in a text, in their order. -/
def Prints (settings : HostSettings) (shown : List Message) (text : String) : Prop :=
  ∃ pieces, text = String.join pieces ∧ (shown.filterMap (line? settings)).Sublist pieces

theorem join_concat (pieces : List String) (text : String) :
    String.join (pieces ++ [text]) = String.join pieces ++ text := by
  simp

theorem Prints.append {text : String} (h : Prints settings shown text) (more : String) :
    Prints settings shown (text ++ more) := by
  obtain ⟨pieces, rfl, hsub⟩ := h
  exact ⟨_, (join_concat pieces more).symm, hsub.trans (List.sublist_append_left _ _)⟩

theorem Prints.show {text : String} (h : Prints settings shown text) (m : Message) :
    Prints settings (shown ++ [m]) (text ++ (line? settings m).getD "") := by
  obtain ⟨pieces, rfl, hsub⟩ := h
  cases hl : line? settings m with
  | none =>
      refine ⟨pieces, String.append_empty, ?_⟩
      rw [List.filterMap_append, List.filterMap_cons_none hl, List.filterMap_nil, List.append_nil]
      exact hsub
  | some line =>
      refine ⟨pieces ++ [line], (join_concat pieces line).symm, ?_⟩
      rw [List.filterMap_append, List.filterMap_cons_some hl]
      exact hsub.append (List.Sublist.refl _)

/-- Only pumps deliver messages of the script. -/
theorem Stepped.presents (h : Stepped s t op) :
    s.presents t = op.elim [] s.conversation.presents := by
  cases t with
  | pump n =>
      rw [h.pumps n rfl]
      rfl
  | notice n =>
      cases op with
      | none => rfl
      | some o =>
          cases h.allowed o rfl
          rfl
  | renderer =>
      cases op with
      | none => rfl
      | some o => exact (h.allowed o rfl).elim
  | client n =>
      cases op with
      | none => rfl
      | some o =>
          obtain ⟨-, htask, hanswer, -⟩ := h.allowed o rfl
          cases o with
          | addFrom text => exact absurd rfl (hanswer text)
          | stepPump => cases htask
          | _ => rfl
  | forwarder =>
      cases op with
      | none => rfl
      | some o =>
          obtain ⟨-, -, ⟨text, rfl⟩ | ⟨v, rfl⟩ | rfl⟩ := h.allowed o rfl
          · rfl
          · rfl
          · rfl

/-! ## What the renderer has seen -/

/-- The notices that were shown or passed over are the first that were sent, and the renderer goes
on when there are others. -/
structure Rendered (s : Session) (settings : HostSettings) (log : Log) : Prop where
  view : s.view? = some (settings, log.seen)
  seen_le : log.seen ≤ s.conversation.sent.length
  perm : (log.shown ++ log.missed).Perm (s.conversation.sent.take log.seen)
  prints : Prints settings log.shown s.output
  ready : log.seen < s.conversation.sent.length → .renderer ∈ s.ready

theorem output_turn (s : Session) (t : TaskId) : (s.turn t).output = (s.step t).1.output := by
  obtain ⟨ready, timers, heq⟩ := turn_eq s t
  rw [heq]

theorem view?_turn (s : Session) (t : TaskId) : (s.turn t).view? = (s.step t).1.view? := by
  rw [view?, view?, console_turn]

theorem logOf_of_ne (ht : t ≠ .renderer) : s.logOf t = ⟨s.presents t, [], [], []⟩ := by
  cases t with
  | renderer => exact absurd rfl ht
  | pump | notice | client | forwarder => rfl

theorem Rendered.turn_ne (h : s.Rendered settings log) (hstep : Stepped s t op)
    (hw : s.conversation.WorkedOff) (hs : s.conversation.signals = []) (ht : t ≠ .renderer) :
    (s.turn t).Rendered settings (log ++ s.logOf t) := by
  obtain ⟨journal, hconv⟩ := hstep.conversation_eq
  have hsent : s.conversation.sent <+: (s.turn t).conversation.sent := by
    rw [hconv]
    exact sent_prefix_doing hw op
  have hseen : (log ++ s.logOf t).seen = log.seen := by
    rw [logOf_of_ne ht, Log.seen_append]
    rfl
  constructor
  · rw [view?_turn, hstep.view ht, hseen]
    exact h.view
  · rw [hseen]
    exact Nat.le_trans h.seen_le hsent.length_le
  · obtain ⟨more, hmore⟩ := hsent
    rw [hseen, ← hmore, List.take_append_of_le_length h.seen_le, logOf_of_ne ht]
    simpa using h.perm
  · obtain ⟨text, htext⟩ := hstep.output
    rw [output_turn, htext, logOf_of_ne ht, Log.shown_append, List.append_nil]
    exact h.prints.append text
  · intro hlt
    rw [hseen] at hlt
    -- A notice that is sent wakes the renderer, and for an older one it was ready before.
    by_cases hmore : s.conversation.sent.length < (s.turn t).conversation.sent.length
    · refine hstep.renderer_mem hs ?_ hmore
      rw [← isSome_view?, h.view]
      rfl
    · have := hsent.length_le
      exact hstep.mem_ready (h.ready (by omega)) fun he => absurd he.symm ht

/-- What the renderer does in its turn, when it has not seen the rest of the notices: it waits for
one, it shows the next, or it passes over those that are not kept for it. -/
inductive RendererStep (s : Session) (k : ConsoleState) (rest : List Message) :
    Session → Bool → Log → Prop
  | waits (hrest : rest = []) : RendererStep s k rest s false .nothing
  | shows {m : Message} {more : List Message} (hrest : rest = m :: more) :
    RendererStep s k rest (s.showMessage k m) true ⟨[], [m], [], []⟩
  | misses (hmany : noticesKept < rest.length) :
    RendererStep s k rest (s.setConsole { k with seen := k.seen + (rest.length - noticesKept) })
      true ⟨[], [], rest.take (rest.length - noticesKept), []⟩

theorem rendererStep_step {k : ConsoleState} {rest : List Message} (hk : s.console = some k)
    (hrest : s.conversation.sent.drop k.seen = rest) :
    RendererStep s k rest (s.step .renderer).1 (s.step .renderer).2 (s.logOf .renderer) := by
  have hafter : s.conversation.noticesAfter k.seen =
      (rest.length - noticesKept, rest.drop (rest.length - noticesKept)) := by
    rw [noticesAfter, hrest]
  have hlog : s.logOf .renderer = ⟨[], if rest.length - noticesKept = 0 then
      (rest.drop (rest.length - noticesKept)).head?.toList else [],
      rest.take (rest.length - noticesKept), []⟩ := by
    show Log.mk [] (s.shows .renderer) (s.misses .renderer) [] = _
    unfold shows misses
    rw [hk]
    dsimp only
    rw [hafter, hrest]
  have hstep : s.step .renderer = s.stepRenderer := rfl
  rw [stepRenderer, hk] at hstep
  dsimp only at hstep
  rw [hafter] at hstep
  by_cases hfew : rest.length ≤ noticesKept
  · rw [Nat.sub_eq_zero_of_le hfew, if_pos rfl, List.drop_zero, List.take_zero] at hlog
    rw [Nat.sub_eq_zero_of_le hfew, List.drop_zero] at hstep
    rw [hlog, hstep]
    cases rest with
    | nil => exact .waits rfl
    | cons m more => exact .shows rfl
  · rw [if_neg fun hzero => hfew (Nat.le_of_sub_eq_zero hzero)] at hlog
    have hmisses : s.step .renderer =
        (s.setConsole { k with seen := k.seen + (rest.length - noticesKept) }, true) := by
      rw [hstep]
      split
      · next hnil =>
        have hlength := congrArg List.length (Prod.mk.inj hnil).2
        rw [List.length_drop, List.length_nil] at hlength
        have : noticesKept = 256 := rfl
        omega
      · next hzero => exact absurd (Prod.mk.inj hzero).1 (by omega)
      · next heq => rw [(Prod.mk.inj heq).1]
    rw [hlog, hmisses]
    exact .misses (Nat.lt_of_not_le hfew)

/-- The renderer passes nothing over that is kept for it. -/
theorem Rendered.misses_eq_nil (h : s.Rendered settings log)
    (hfew : s.conversation.sent.length - log.seen ≤ noticesKept) (t : TaskId) :
    s.misses t = [] := by
  by_cases ht : t = .renderer
  · subst ht
    obtain ⟨k, hk, hview⟩ := Option.map_eq_some_iff.mp h.view
    have hseen : k.seen = log.seen := congrArg Prod.snd hview
    have hstep := rendererStep_step hk rfl
    rw [show s.misses .renderer = (s.logOf .renderer).missed from rfl]
    generalize s.logOf .renderer = more at hstep ⊢
    generalize (s.step .renderer).1 = s₁, (s.step .renderer).2 = goesOn at hstep
    cases hstep with
    | waits | shows => rfl
    | misses hmany =>
        rw [List.length_drop, hseen] at hmany
        exact absurd hfew (Nat.not_le.mpr hmany)
  · exact congrArg Log.missed (logOf_of_ne ht)

/-- The renderer looks at some notices more. -/
theorem Rendered.look_on {s' : Session} {more : Log} (h : s.Rendered settings log)
    (hsent : s'.conversation.sent = s.conversation.sent)
    (hview : s'.view? = some (settings, log.seen + more.seen))
    (hmore : more.shown ++ more.missed = (s.conversation.sent.drop log.seen).take more.seen)
    (hprints : Prints settings (log.shown ++ more.shown) s'.output)
    (hready : log.seen + more.seen < s.conversation.sent.length → .renderer ∈ s'.ready) :
    s'.Rendered settings (log ++ more) := by
  have hseen := Log.seen_append log more
  have hle : log.seen + more.seen ≤ s.conversation.sent.length := by
    have hlength := congrArg List.length hmore
    have := h.seen_le
    rw [List.length_take, List.length_drop, List.length_append, ← Log.seen] at hlength
    omega
  constructor
  · rw [hseen]
    exact hview
  · rw [hseen, hsent]
    exact hle
  · rw [hseen, hsent, List.take_add, ← hmore, Log.shown_append, Log.missed_append]
    refine List.Perm.trans ?_ (h.perm.append_right _)
    rw [List.append_assoc, List.append_assoc]
    refine List.Perm.append_left _ ?_
    rw [← List.append_assoc, ← List.append_assoc]
    exact List.perm_append_comm.append_right _
  · exact hprints
  · rw [hseen, hsent]
    exact hready

/-- The renderer shows the next notice, if there is one, or passes some over. -/
theorem Rendered.turn_renderer (h : s.Rendered settings log) (hready : .renderer ∈ s.ready) :
    (s.turn .renderer).Rendered settings (log ++ s.logOf .renderer) := by
  obtain ⟨k, hk, hview⟩ := Option.map_eq_some_iff.mp h.view
  obtain ⟨hsettings, hseen⟩ := Prod.mk.inj hview
  have hseen : k.seen = log.seen := hseen
  have hsent : (s.turn .renderer).conversation.sent = s.conversation.sent := by
    obtain ⟨console, output, heq⟩ := stepRenderer_eq s
    rw [conversation_turn]
    show s.stepRenderer.1.conversation.sent = _
    rw [heq]
  have hgoes : (s.step .renderer).2 = true → .renderer ∈ (s.turn .renderer).ready := by
    intro hgo
    refine mem_ready_turn ?_ fun _ => hgo
    obtain ⟨console, output, heq⟩ := stepRenderer_eq s
    show _ ∈ s.stepRenderer.1.ready
    rw [heq]
    exact hready
  have hrest : s.conversation.sent.drop log.seen = s.conversation.sent.drop k.seen := by rw [hseen]
  have hview' := view?_turn s .renderer
  have houtput := output_turn s .renderer
  have hstep := rendererStep_step hk rfl
  generalize s.logOf .renderer = more at hstep ⊢
  generalize hs₁ : (s.step .renderer).1 = s₁ at hstep hview' houtput
  generalize (s.step .renderer).2 = goesOn at hstep hgoes
  cases hstep with
  | waits hnil =>
      refine h.look_on hsent (hview'.trans h.view) rfl ?_ fun hlt => ?_
      · rw [houtput, Log.nothing, List.append_nil]
        exact h.prints
      · have hlength := congrArg List.length hnil
        rw [List.length_drop, List.length_nil, hseen] at hlength
        have hlt : log.seen + 0 < s.conversation.sent.length := hlt
        omega
  | @shows m more hcons =>
      refine h.look_on hsent ?_ ?_ ?_ fun _ => hgoes rfl
      · rw [hview', view?, console_showMessage, Option.map_some, hsettings, hseen]
        rfl
      · rw [hrest, hcons]
        rfl
      · obtain ⟨text, htext⟩ := output_showMessage s k m
        rw [houtput, htext, hsettings]
        exact (h.prints.show m).append text
  | misses hmany =>
      refine h.look_on hsent ?_ ?_ ?_ fun _ => hgoes rfl
      · rw [hview', view?, ← hseen, ← hsettings]
        simp [setConsole, Log.seen]
      · rw [hrest]
        simp [Log.seen]
      · rw [houtput, List.append_nil]
        exact h.prints

end Session

end Dialogue
