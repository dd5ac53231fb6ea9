import Dialogue.Conversation.State
import Dialogue.Proofs.Run.Asking
import Dialogue.Proofs.Run.Invocation
/-!
# What a step queues

The lines of a step are said in order. A plain line queues its text, filled in from the record as it
is when the line is reached; a command queues a request for each file among its arguments, and opens
the input field behind each. When all lines are through and no command gave a value, the step asks:
it offers its quick replies, if it has any, and opens the input field. What went wrong on the way
ends this, and what was queued before remains.

* `Deed.marks` — what is queued by some deeds, and between what it is queued.
* `Line.Queues`, `CommandLine.Breaks`, `Step.Queues` — what lines, commands and steps queue.
* `Scene.queues_of_comes` — a step queues that, however it comes out.
-/

namespace Dialogue

/-! ## Marks -/

/-- A message as it is when no label of a button is set. -/
def Payload.unlabelled : Payload → Payload
  | .from text _ => .from text none
  | .options items selected multi _ => .options items selected multi none
  | p => p

/-- What an item of the queue is for. -/
inductive Item.Content where
  | message (p : Payload)
  | function (job : Job)

/-- What an item is for, apart from the button and the hook of a message and from the ticket of a
function. -/
def Item.content : Item → Item.Content
  | .message d => .message d.payload.unlabelled
  | .call _ job => .function job

/-- Something that matters for what is queued. -/
inductive Mark where
  /-- The record was read. -/
  | read (record : Record)
  /-- A command was called. -/
  | called (name : String)
  /-- An item was queued. -/
  | queued (content : Item.Content)

/-- What a request itself queues. A command that is called may queue other items. -/
def Request.contents : Request → List Item.Content
  | .say text _ => [.message (.to text)]
  | .offer items => [.message (.options items none false none)]
  | .requestFile => [.message (.uploader none)]
  | .input => [.function .openInput]
  | _ => []

/-- What matters in a request. -/
def Request.marks : Request → List Mark
  | .call name _ => [.called name]
  | q => q.contents.map .queued

/-- What matters in a deed. -/
def Deed.marks : Deed → List Mark
  | .asked .record record => [.read record]
  | d => d.request.marks

/-- What matters in some deeds, in their order. -/
def Deed.allMarks (t : List Deed) : List Mark := t.flatMap marks

/-! ## What is to be queued -/

/-- For so many files requests are queued, each of them with the function that opens the input
field behind it. -/
def Mark.uploads (n : Nat) : List Mark :=
  (List.replicate n [.queued (.message (.uploader none)), .queued (.function .openInput)]).flatten

/-- What lines queue that are gone through, and what their commands return. -/
inductive Line.Queues : List Line → List Mark → List Json → Prop
  | nil : Queues [] [] []
  /-- The text is filled in from the record, and queued. -/
  | plain {text : String} {lines : List Line} {record : Record} {ms : List Mark}
      {vs : List Json} : Queues lines ms vs → Queues (.plain text :: lines)
        (.read record :: .queued (.message (.to (Template.fillIn text record))) :: ms) vs
  /-- Files are asked for, and the command is called. -/
  | command {c : CommandLine} {lines : List Line} {ms : List Mark} {vs : List Json} {v : Json} :
      Queues lines ms vs → Queues (.command c :: lines)
        (Mark.uploads c.fileCount ++ .called c.name :: ms) (v :: vs)

/-- What a command queues with which a step breaks off, and the error. -/
inductive CommandLine.Breaks (c : CommandLine) : List Mark → RunError → Prop
  /-- There is no such command. -/
  | notFound : Breaks c [] (.commandNotFound c.name)
  /-- The wait for a file failed. -/
  | interrupted {n : Nat} {e : RunError} : n < c.fileCount → Breaks c (Mark.uploads (n + 1)) e
  /-- The command was called, and failed. -/
  | failed {reason : String} : Breaks c (Mark.uploads c.fileCount ++ [.called c.name])
      (.commandFailed c.name reason)

/-- What a step queues that asks for a value. -/
def Step.inquiry (st : Step) : List Mark :=
  match st.quickReplies, st.collect with
  | some replies, _ => [.queued (.message (.options (Scene.replyItems replies) none false none)),
      .queued (.function .openInput)]
  | none, some _ => [.queued (.function .openInput)]
  | none, none => []

/-- What a step queues on the way to its value, what its commands return, and how it comes out. -/
inductive Step.Queues (st : Step) :
    List Mark → List Json → Except ChatError (Option Json) → Prop
  /-- Without a text nothing is queued. -/
  | silent : st.text = none → Queues st [] [] (.ok none)
  /-- The last command gave the value. -/
  | given {text : List String} {ms : List Mark} {vs : List Json} {v : Json} :
      st.text = some text → Line.Queues (text.map Line.parse) ms vs →
      vs.getLast?.bind Json.nonNull? = some v → Queues st ms vs (.ok (some v))
  /-- No value was given, and the step asks. -/
  | asked {text : List String} {ms : List Mark} {vs : List Json}
      {r : Except ChatError (Option Json)} :
      st.text = some text → Line.Queues (text.map Line.parse) ms vs →
      vs.getLast?.bind Json.nonNull? = none → Queues st (ms ++ st.inquiry) vs r
  /-- A command went wrong. The lines behind it are not reached. -/
  | broken {text : List String} {before after : List Line} {c : CommandLine} {ms part : List Mark}
      {vs : List Json} {e : RunError} :
      st.text = some text → text.map Line.parse = before ++ .command c :: after →
      Line.Queues before ms vs → c.Breaks part e →
      Queues st (ms ++ part) vs (.error (.run e))

open Activity Deed

/-! ## Marks of the parts -/

section Parts

variable {t t' : List Deed} {key : Option String}

@[simp] theorem allMarks_append : allMarks (t ++ t') = allMarks t ++ allMarks t' :=
  List.flatMap_append

theorem allMarks_eq_nil (h : ∀ d ∈ t, d.marks = []) : allMarks t = [] :=
  List.flatMap_eq_nil_iff.mpr h

theorem allMarks_uploads (vs : List Json) : allMarks (uploads vs) = Mark.uploads vs.length := by
  induction vs with
  | nil => rfl
  | cons v vs ih =>
      show allMarks ([.asked .requestFile (), .asked .input (.ok v)] ++ uploads vs) = _
      rw [allMarks_append, ih]
      rfl

theorem uploads_succ (n : Nat) : Mark.uploads (n + 1) = Mark.uploads n ++
    [.queued (.message (.uploader none)), .queued (.function .openInput)] := by
  rw [Mark.uploads, List.replicate_succ', List.flatten_concat]
  rfl

/-- For each file there is an argument. -/
theorem length_uploads {args : List ImplicitArg} {as : List Argument}
    (h : List.Forall₂ (ImplicitArg.Supplies key) args as) :
    (as.filterMap Argument.upload?).length = args.count .uploader := by
  induction h with
  | nil => rfl
  | @cons arg a args as ha _ ih =>
      cases arg <;> cases a <;> first
        | exact ha.elim
        | simpa [List.filterMap_cons, Argument.upload?] using ih

/-- A command asks for its files and is called, or it goes wrong on the way. -/
theorem marks_of_comes_invoke {c : CommandLine} {r : Except ChatError Json}
    (h : (c.invoke key).Comes t r) :
    (∃ v, r = .ok v ∧ allMarks t = Mark.uploads c.fileCount ++ [.called c.name] ∧
      results t = [v]) ∨
    ∃ e, r = .error (.run e) ∧ c.Breaks (allMarks t) e ∧ results t = [] := by
  have hresults := (CommandLine.of_comes_invoke h).2
  cases CommandLine.comes_invoke_iff.mp h with
  | unknown => exact .inr ⟨_, rfl, .notFound, rfl⟩
  | @interrupted vs e hlength =>
      have hmarks : allMarks (.asked (.resolve c.name) true :: (uploads vs ++
          [.asked .requestFile (), .asked .input (.error e)])) = Mark.uploads (vs.length + 1) := by
        rw [uploads_succ, ← allMarks_uploads]
        exact allMarks_append
      exact .inr ⟨e, rfl, hmarks ▸ .interrupted hlength, hresults⟩
  | @called args result hargs =>
      have hmarks : allMarks (.asked (.resolve c.name) true ::
          (uploads (args.filterMap Argument.upload?) ++ [.asked (.call c.name args) result])) =
          Mark.uploads c.fileCount ++ [.called c.name] := by
        rw [CommandLine.fileCount, ← length_uploads hargs, ← allMarks_uploads]
        exact allMarks_append
      cases result with
      | ok v => exact .inl ⟨v, rfl, hmarks, hresults⟩
      | error reason => exact .inr ⟨_, rfl, hmarks ▸ .failed, hresults⟩

theorem marks_of_comes_note {pending : Option Meta} {r : Except ChatError Unit}
    (h : (Scene.note pending).Comes t r) :
    (∃ u, r = .ok u) ∧ allMarks t = [] ∧ results t = [] := by
  cases pending with
  | none =>
      obtain ⟨rfl, rfl⟩ := comes_done_iff.mp h
      exact ⟨⟨_, rfl⟩, rfl, rfl⟩
  | some entries =>
      obtain ⟨u, t', rfl, hdone⟩ := (comes_ask_iff (by simp)).mp h
      obtain ⟨rfl, rfl⟩ := comes_done_iff.mp hdone
      exact ⟨⟨_, rfl⟩, rfl, rfl⟩

/-- The lines queue what they should, up to a command that goes wrong. -/
theorem marks_of_comes_sayLines {commands : Bool} {lines : List Line} {p : Progress}
    {r : Except ChatError Progress} (h : (Scene.sayLines key commands p lines).Comes t r) :
    (∃ p', r = .ok p' ∧ Line.Queues lines (allMarks t) (results t)) ∨
    ∃ before c after ms part e, r = .error (.run e) ∧ lines = before ++ .command c :: after ∧
      Line.Queues before ms (results t) ∧ c.Breaks part e ∧ allMarks t = ms ++ part := by
  induction lines generalizing p t with
  | nil =>
      obtain ⟨rfl, rfl⟩ := comes_done_iff.mp h
      exact .inl ⟨p, rfl, .nil⟩
  | cons line rest ih =>
      cases line with
      | command c =>
          rcases comes_bind_iff.mp h with ⟨e, he, rfl⟩ | ⟨t₁, v, t₂, rfl, hinvoke, hrest⟩
          · rcases marks_of_comes_invoke he with ⟨v, hr, -⟩ | ⟨e, hr, hbreaks, hresults⟩
            · cases hr
            · cases hr
              exact .inr ⟨[], c, rest, [], _, e, rfl, rfl, hresults ▸ .nil, hbreaks, rfl⟩
          · rcases marks_of_comes_invoke hinvoke with ⟨v', hr, hmarks, hresults⟩ | ⟨e, hr, -⟩
            · cases hr
              -- Entries may be noted between the command and the next line, which is no mark.
              rcases comes_bind_iff.mp hrest with ⟨e, he, -⟩ | ⟨t₂, u, t₃, rfl, hnote, hlines⟩
              · obtain ⟨⟨u, hu⟩, -⟩ := marks_of_comes_note he
                cases hu
              · obtain ⟨-, hnoted, hnothing⟩ := marks_of_comes_note hnote
                have hall : allMarks (t₁ ++ (t₂ ++ t₃)) =
                    Mark.uploads c.fileCount ++ .called c.name :: allMarks t₃ := by
                  simp [hmarks, hnoted]
                have hvalues : results (t₁ ++ (t₂ ++ t₃)) = v :: results t₃ := by
                  rw [results_append, results_append, hresults, hnothing]
                  rfl
                rw [hall, hvalues]
                rcases ih hlines with ⟨p', rfl, hqueues⟩ |
                  ⟨before, c', after, ms, part, e, rfl, rfl, hqueues, hbreaks, hms⟩
                · exact .inl ⟨p', rfl, .command hqueues⟩
                · exact .inr ⟨.command c :: before, c', after, _, part, e, rfl, rfl,
                    .command hqueues, hbreaks, by simp [hms]⟩
            · cases hr
      | plain text =>
          obtain ⟨record, t₁, rfl, hsay⟩ := (comes_request_bind_iff (by simp)).mp h
          -- A text is said with entries or without any, and that is not a mark.
          have hrest : ∃ entries p' t₂,
              t₁ = .asked (.say (Template.fillIn text record) entries) () :: t₂ ∧
                (Scene.sayLines key commands p' rest).Comes t₂ r := by
            cases commands <;>
            · obtain ⟨u, t₂, rfl, hrest⟩ := (comes_request_bind_iff (by simp)).mp hsay
              exact ⟨_, _, t₂, rfl, hrest⟩
          obtain ⟨entries, p', t₂, rfl, hrest⟩ := hrest
          have hall : allMarks (.asked .record record ::
              .asked (.say (Template.fillIn text record) entries) () :: t₂) =
              .read record :: .queued (.message (.to (Template.fillIn text record))) ::
                allMarks t₂ := rfl
          rw [hall]
          rcases ih hrest with ⟨p', rfl, hqueues⟩ |
            ⟨before, c, after, ms, part, e, rfl, rfl, hqueues, hbreaks, hms⟩
          · exact .inl ⟨p', rfl, .plain hqueues⟩
          · exact .inr ⟨.plain text :: before, c, after, _, part, e, rfl, rfl, .plain hqueues,
              hbreaks, by rw [hms]; rfl⟩

end Parts

/-! ## The step -/

namespace Scene

variable {scene : Scene} {st : Step} {t : List Deed}

/-- Nothing is queued when events are fired. -/
theorem marks_of_comes_fire {v : Json} {r : Except ChatError Unit}
    (h : (scene.fire st v).Comes t r) : allMarks t = [] := by
  refine allMarks_eq_nil fun d hd => ?_
  have hfired : (scene.fire st v).Asks fun q => ∃ e, q = .fired e :=
    scene.asks_fire (fun e => ⟨e, rfl⟩) st v
  obtain ⟨e, he⟩ := hfired.of_comes h d hd
  rcases d with ⟨q, a⟩ | topic <;> cases he
  rfl

/-- A question is queued as a whole, however it is answered. -/
theorem marks_of_comes_question {r : Except ChatError (Option Json)}
    (h : (scene.question st).Comes t r) : allMarks t = st.inquiry := by
  unfold question at h
  split at h
  · next replies hreplies =>
    rw [Step.inquiry, hreplies]
    obtain ⟨u, t₁, rfl, hinput⟩ := (comes_request_bind_iff (by simp)).mp h
    obtain ⟨a, t₂, rfl, hanswer⟩ := comes_input_bind_iff.mp hinput
    have hfired : allMarks t₂ = [] := by
      cases a with
      | error e => rw [hanswer.1]; rfl
      | ok v =>
          rcases comes_bind_iff.mp hanswer with ⟨e, he, -⟩ | ⟨t₃, u, t₄, rfl, hfire, hdone⟩
          · exact marks_of_comes_fire he
          · rw [allMarks_append, marks_of_comes_fire hfire, (comes_done_iff.mp hdone).1]
            rfl
    exact congrArg (fun ms => _ :: _ :: ms) hfired
  · next collect hreplies hcollect =>
    rw [Step.inquiry, hreplies, hcollect]
    have hinput : ∀ {t : List Deed}, (input >>= fun v => .done v.nonNull?).Comes t r →
        allMarks t = [.queued (.function .openInput)] := by
      intro t h
      obtain ⟨a, t', rfl, hanswer⟩ := comes_input_bind_iff.mp h
      have hnil : t' = [] := by
        cases a with
        | error e => exact hanswer.1
        | ok v => exact (comes_done_iff.mp hanswer).1
      rw [hnil]
      rfl
    cases hmultiple : collect.multiple with
    | true =>
        rw [hmultiple] at h
        obtain ⟨u, t', rfl, hanswer⟩ := (comes_request_bind_iff (by simp)).mp h
        show allMarks t' = _
        exact hinput hanswer
    | false =>
        rw [hmultiple] at h
        exact hinput h
  · next hreplies hcollect =>
    rw [Step.inquiry, hreplies, hcollect, (comes_done_iff.mp h).1]
    rfl

/-- A step queues what it should, however it comes out. -/
theorem queues_of_comes {r : Except ChatError (Option Json)}
    (h : (scene.stepValue st).Comes t r) : st.Queues (allMarks t) (results t) r := by
  unfold stepValue at h
  dsimp only at h
  split at h
  · next text htext =>
    rcases comes_bind_iff.mp h with ⟨e, he, rfl⟩ | ⟨t₁, p, t₂, rfl, hlines, hrest⟩
    · rcases marks_of_comes_sayLines he with ⟨p', hr, -⟩ |
        ⟨before, c, after, ms, part, e', hr, hsplit, hqueues, hbreaks, hms⟩
      · cases hr
      · cases hr
        exact hms ▸ .broken htext hsplit hqueues hbreaks
    · rcases marks_of_comes_sayLines hlines with ⟨p', hr, hqueues⟩ | ⟨_, _, _, _, _, _, hr, -⟩
      · cases hr
        have hvalue : p.value = (results t₁).getLast?.bind Json.nonNull? := by
          rcases (of_comes_sayLines hlines).2 with ⟨p', hp, -, hvalue⟩ | ⟨e, he, -⟩
          · cases hp
            rw [hvalue, foldl_nonNull?]
          · cases he
        cases hp : p.value with
        | some v =>
            rw [hp] at hrest
            obtain ⟨rfl, rfl⟩ := comes_done_iff.mp hrest
            rw [List.append_nil]
            exact .given htext hqueues (hvalue.symm.trans hp)
        | none =>
            rw [hp] at hrest
            rw [allMarks_append, marks_of_comes_question hrest, results_append,
              (of_comes_question hrest).2, List.append_nil]
            exact .asked htext hqueues (hvalue.symm.trans hp)
      · cases hr
  · next htext =>
    rcases comes_bind_iff.mp h with ⟨e, he, -⟩ | ⟨t₁, u, t₂, rfl, hnote, hdone⟩
    · obtain ⟨⟨u, hu⟩, -⟩ := marks_of_comes_note he
      cases hu
    · obtain ⟨-, hmarks, hresults⟩ := marks_of_comes_note hnote
      obtain ⟨rfl, rfl⟩ := comes_done_iff.mp hdone
      rw [List.append_nil, hmarks, hresults]
      exact .silent htext

end Scene

end Dialogue
