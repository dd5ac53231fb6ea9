import Dialogue.Proofs.Input.Shown
import Dialogue.Proofs.Session.Histories
/-!
# Questions are shown before an answer is awaited

A run that asks the user queues a message with options, or one that asks for a file, and then waits
for input. Other clients, the console and the host may do anything in between. All the same, when
the wait holds the input slot, the message stands in the list, unless something was cleared.

* `toCome_of_alike` — what is still to come does not depend on pumps of earlier generations.
* `exists_queued` — a question is queued in the turn of its client.
* `shown_before_asked` — what was queued before a wait is shown before the wait listens.
-/

namespace Dialogue

/-- The message that a request of a client shows, where buttons have the given label. -/
def Request.shows? (label : Option String) : Request → Option Payload
  | .say text _ => some (.to text)
  | .offer items => some (.options items none false label)
  | .requestFile => some (.uploader none)
  | _ => none

namespace Conversation

variable {c c' : Conversation} {g : Nat} {p p' : Pump} {ps ps' : List Pump}

/-! ## What alike conversations have in common -/

theorem Echo.isLive (h : Echo g p p') :
    p'.isLive g = p.isLive g ∧ (p.isLive g = true → p' = p) := by
  rcases h with rfl | ⟨-, hg, rfl⟩
  · exact ⟨rfl, fun _ => rfl⟩
  · have hne : ∀ stage, Pump.isLive g ⟨p.generation, stage⟩ = false := fun stage => by
      simp [Pump.isLive, Nat.ne_of_lt hg]
    refine ⟨(hne _).trans (hne p.stage).symm, fun hlive => ?_⟩
    cases hlive.symm.trans (hne p.stage)

/-- Pumps of the present generation are the same. -/
theorem Echoes.filter_isLive (h : Echoes g ps ps') :
    ps'.filter (Pump.isLive g) = ps.filter (Pump.isLive g) := by
  induction ps generalizing ps' with
  | nil => rw [List.length_eq_zero_iff.mp h.length]
  | cons p ps ih =>
      obtain ⟨p', hp', he⟩ := h.echo 0 p rfl
      cases ps' with
      | nil => cases hp'
      | cons q ps' =>
          cases hp'
          have hrest : ps'.filter (Pump.isLive g) = ps.filter (Pump.isLive g) :=
            ih ⟨Nat.succ.inj h.length, fun n q hq => h.echo (n + 1) q hq⟩
          rw [List.filter_cons, List.filter_cons, hrest, he.isLive.1]
          split
          · next hlive => rw [he.isLive.2 hlive]
          · rfl

/-- What is still to come does not depend on pumps of earlier generations. -/
theorem toCome_of_alike (h : Alike c c') : c'.toCome = c.toCome := by
  obtain ⟨x, rfl, hps⟩ := h
  show ((x.pumps.filter (Pump.isLive c.generation)).map Pump.stage).filterMap _ ++ c.queue = _
  rw [hps.filter_isLive]
  rfl

/-- The same items are queued. -/
theorem enqueues_of_alike (h : Alike c c') (op : Operation) : c.enqueues op = c'.enqueues op := by
  obtain ⟨x, rfl, -⟩ := h
  cases op <;> rfl

end Conversation

namespace Session

open Conversation

variable {s : Session} {n : Nat}

/-! ## Questions -/

/-- A request that shows something has queued it when the turn of its client is over. -/
theorem exists_queued {q : Request} {p : Payload} (hq : s.request? n = some q)
    (hp : q.shows? s.conversation.fixLabel = some p) :
    ∃ op d, s.operations (.move (.turn (.client n))) = [op] ∧ d.payload = p ∧
      .message d ∈ s.conversation.enqueues op := by
  unfold request? at hq
  split at hq
  · next ctx r hs =>
    cases hn : r.next ctx.scene with
    | ended | moved => simp [hn] at hq
    | asks q' k =>
        obtain rfl : q' = q := by simpa [hn] using hq
        have hops : s.operations (.move (.turn (.client n))) = s.requestOperations n ctx q' := by
          show s.clientOperations n = _
          rw [clientOperations, hs]
          dsimp only [runOperations]
          rw [hn]
        rw [hops]
        cases q' with
        | say text entries =>
            cases hp
            exact ⟨_, ⟨.to text, entries.map .noted, none⟩, rfl, rfl, List.mem_singleton_self _⟩
        | offer items =>
            cases hp
            exact ⟨_, ⟨_, none, s.conversation.fixme⟩, rfl, rfl, List.mem_singleton_self _⟩
        | requestFile =>
            cases hp
            exact ⟨_, ⟨.uploader none, none, none⟩, rfl, rfl, List.mem_singleton_self _⟩
        | _ => cases hp
  · cases hq

/-- An incident begins a wait that opens the input field. When the wait holds the input slot,
nothing that was queued before is still to come: it was worked off, or thrown away when something
was cleared. If nothing was cleared since the wait began, the messages that were queued before,
after something was cleared for the last time, stand in the list; among them are the questions that
runs have asked. -/
theorem shown_before_asked {settings : Settings} {clock : Clock} {s₀ : Session}
    (hstart : s₀.conversation = .start settings clock) {before later : List Incident}
    {i : Incident} {owner : Nat} (hbegin : (s₀.after before).operations i = [.beginWait owner true])
    (hholds : (s₀.after (before ++ i :: later)).conversation.holdsSlot
      (s₀.after before).conversation.waits.length = true) :
    let c₀ := Conversation.start settings clock
    let c₁ := (c₀.after (s₀.history before)).beginWait owner true
    let s := s₀.after (before ++ i :: later)
    let past := s₀.history (before ++ i :: later)
    let since := (s₀.after (before ++ [i])).history later
    s.conversation.toCome <:+ c₁.gathered enqueues since ∧
      (.clear ∉ since → ∃ works,
        works.map Work.item = c₀.gatheredSince enqueues [] (s₀.history before) ∧
        (∀ w ∈ works, w ∈ c₀.gatheredSince completes [] past) ∧
        s.conversation.Stand (c₀.gatheredSince (fun _ op => [op]) [] past) works ∧
        ∀ earlier between n q p, before = earlier ++ .move (.turn (.client n)) :: between →
          (s₀.after earlier).request? n = some q →
          q.shows? (s₀.after earlier).conversation.fixLabel = some p →
          .clear ∉ (s₀.after (earlier ++ [.move (.turn (.client n))])).history between →
          ∃ w ∈ works, ∃ k, w.place? = some (k, p)) := by
  intro c₀ c₁ s past since
  have halike : ∀ is, Alike (c₀.after (s₀.history is)) (s₀.after is).conversation :=
    alike_start hstart
  have hpast : past = s₀.history before ++ .beginWait owner true :: since :=
    history_eq_of_operations hbegin later
  have hwaits : (s₀.after before).conversation.waits = (c₀.after (s₀.history before)).waits := by
    obtain ⟨x, heq, -⟩ := halike before
    rw [heq]
    rfl
  have hend : Alike (c₀.after past) s.conversation := halike _
  have hslot : (c₀.after past).holdsSlot (c₀.after (s₀.history before)).waits.length = true := by
    rw [← hwaits, ← hholds]
    obtain ⟨x, heq, -⟩ := hend
    show _ = s.conversation.holdsSlot _
    rw [heq]
    rfl
  rw [hpast] at hslot
  have hshown := shown_of_holdsSlot settings clock _ _ owner hslot
  rw [← hpast] at hshown
  refine ⟨toCome_of_alike hend ▸ hshown.1, fun hclear => ?_⟩
  obtain ⟨works, hitems, hcompleted, hstand⟩ := hshown.2 hclear
  refine ⟨works, hitems, hcompleted, ?_, ?_⟩
  · obtain ⟨x, heq, -⟩ := hend
    rw [heq]
    exact ⟨hstand.increasing, hstand.shown⟩
  · intro earlier between n q p hsplit hq hp hbetween
    -- The question was queued by one operation, and it counts because nothing was cleared since.
    obtain ⟨op, d, hop, rfl, hd⟩ := exists_queued hq hp
    rw [← enqueues_of_alike (halike earlier)] at hd
    have hmem : .message d ∈ works.map Work.item := by
      rw [hitems, hsplit, history_eq_of_operations hop between]
      exact mem_gatheredSince hd hbetween []
    obtain ⟨w, hw, hitem⟩ := List.mem_map.mp hmem
    cases w with
    | message d' k =>
        cases hitem
        exact ⟨_, hw, k, rfl⟩
    | call => cases hitem

/-! ### A step with a quick reply -/

/-- A step that says nothing and offers one reply. -/
def replyStep : Step := { Step.empty with text := some [], quickReplies := some [⟨"Red", "r"⟩] }

/-- A run of the step by itself, without callbacks. -/
def replyContext : RunContext where
  scene := ⟨⟨[⟨defaultTopic, [replyStep]⟩], by simp, by simp⟩, .standard, ⟨false, false, false⟩⟩
  record := 0
  table := .empty

/-- A session in which nothing has happened. -/
def replySession : Session := start .standard .empty .stepped 0 fun _ => false

/-- A run of the step begins, and offers the reply. -/
def offering : List Incident :=
  [.move (.join ⟨"run", .running replyContext .fresh⟩), .move (.turn (.client 0)),
    .move (.turn (.client 0))]

/-- The options are delivered, the input field is opened, and the run listens. -/
def showing : List Incident :=
  [.move (.turn (.pump 0)), .move (.arrive 100000), .move (.turn (.pump 0)),
    .move (.turn (.pump 0)), .move (.turn (.pump 0)), .move (.turn (.client 0))]

theorem shown_before_asked_replies :
    let s := replySession.after (offering ++ .move (.turn (.client 0)) :: showing)
    let past := replySession.history (offering ++ .move (.turn (.client 0)) :: showing)
    (replySession.after offering).operations (.move (.turn (.client 0))) = [.beginWait 0 true] ∧
      s.conversation.holdsSlot (replySession.after offering).conversation.waits.length = true ∧
      s.conversation.toCome = [] ∧ ∃ works k, s.conversation.Stand
        (replySession.conversation.gatheredSince (fun _ op => [op]) [] past) works ∧
        (k, .options [⟨"Red", .string "r"⟩] none false none) ∈ works.filterMap Work.place? := by
  intro s past
  have hbegin : (replySession.after offering).operations (.move (.turn (.client 0))) =
    [.beginWait 0 true] := rfl
  have hholds : s.conversation.holdsSlot
    (replySession.after offering).conversation.waits.length = true := rfl
  have hstart : replySession.conversation = .start .standard .stepped := rfl
  obtain ⟨hcome, hshown⟩ := shown_before_asked hstart hbegin hholds
  have hclear : .clear ∉ (replySession.after (offering ++ [.move (.turn (.client 0))])).history
      showing := by
    show .clear ∉ [Operation.stepPump 0, .pass 100000, .stepPump 0, .stepPump 0, .stepPump 0,
      .stepWait 0]
    simp
  obtain ⟨works, -, -, hstand, hasked⟩ := hshown hclear
  obtain ⟨w, hw, k, hplace⟩ := hasked (offering.take 2) [] 0 _ _ rfl rfl rfl nofun
  exact ⟨hbegin, hholds, List.suffix_nil.mp hcome, works, k, hstand,
    List.mem_filterMap.mpr ⟨w, hw, hplace⟩⟩

end Session

end Dialogue
