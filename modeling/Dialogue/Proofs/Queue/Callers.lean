import Dialogue.Proofs.Input.Waits
import Dialogue.Proofs.Queue.Order
/-!
# The course of a conversation without those who wait

Whoever waits, for the value of a function or for an input, only looks on: the list, the queue and
its pumps, the journal and the clock go on in the same way whatever becomes of the calls, the waits
and the input field. `course` forgets these. In particular a caller who goes away neither takes an
item out of the queue nor stops the others.

* `course_perform` — what is left of a conversation goes on by itself.
* `course_of_isLeaving` — going away changes nothing of it.
* `course_after` — so nothing of it is different afterwards.
-/

namespace Dialogue

/-- The call without its fate. -/
def Ticket.blank (t : Ticket) : Ticket := { t with fate := .waiting }

/-- Is an operation that of somebody who goes away? -/
def Operation.isLeaving : Operation → Bool
  | .dropCall _ | .dropWait _ => true
  | _ => false

namespace Conversation

variable {c c' : Conversation} {n : Nat} {op : Operation}

/-- What is left of a conversation when the fates of the calls, the waits, the input field and the
signals are forgotten. -/
def course (c : Conversation) : Conversation :=
  { c with
    tickets := c.tickets.map Ticket.blank, waits := [], slot := .empty, input := .standard
    signals := [] }

/-! ## Tickets -/

theorem map_blank_map_blank (ts : List Ticket) :
    (ts.map Ticket.blank).map Ticket.blank = ts.map Ticket.blank := by
  rw [List.map_map]
  rfl

theorem blank_settle (f : Fate) (t : Ticket) : (Ticket.settle f t).blank = t.blank := by
  obtain ⟨owner, fate⟩ := t
  cases fate <;> rfl

theorem map_blank_lostTickets (ts : List Ticket) (items : List Item) :
    (lostTickets ts items).map Ticket.blank = ts.map Ticket.blank := by
  rw [lostTickets]
  induction items.filterMap Item.ticket? generalizing ts with
  | nil => rfl
  | cons t rest ih => exact (ih _).trans (map_modify_of_eq (blank_settle _) ts t)

/-! ## Changes that are forgotten -/

/-- Nothing but the tickets, the waits, the slot, the field and the signals is different. -/
theorem course_eq_of_blank {ts : List Ticket} {ws : List Wait} {s : InputSlot} {i : InputState}
    {signals : List Signal} (ht : ts.map Ticket.blank = c.tickets.map Ticket.blank) :
    ({ c with tickets := ts, waits := ws, slot := s, input := i, signals } : Conversation).course =
      c.course := by
  show ({ c.course with tickets := ts.map Ticket.blank } : Conversation) = c.course
  rw [ht]
  rfl

theorem course_course (c : Conversation) : c.course.course = c.course :=
  course_eq_of_blank (map_blank_map_blank _)

theorem course_listen (c : Conversation) (n : Nat) : (c.listen n).course = c.course := by
  rw [listen]
  split <;> rfl

theorem course_stepWait (c : Conversation) (n : Nat) : (c.stepWait n).course = c.course := by
  rw [stepWait]
  split
  · split
    · exact course_listen c n
    · rfl
    · rfl
  · split <;> rfl
  · rfl

theorem course_dropCall (c : Conversation) (t : Nat) : (c.dropCall t).course = c.course :=
  course_eq_of_blank
    (map_modify_of_eq (f := fun t => { t with fate := .dropped }) (fun _ => rfl) c.tickets t)

theorem course_dropWait (c : Conversation) (n : Nat) : (c.dropWait n).course = c.course := by
  rw [dropWait]
  split
  · exact course_dropCall c _
  · rfl
  · rfl

theorem course_settle (c : Conversation) (t : Nat) (f : Fate) : (c.settle t f).course = c.course :=
  course_eq_of_blank (map_modify_of_eq (blank_settle f) _ _)

/-- Going away changes nothing of what is left. -/
theorem course_of_isLeaving (ho : op.isLeaving = true) : (c.perform op).course = c.course := by
  cases op with
  | dropCall t =>
      rw [perform]
      split
      · rfl
      · exact course_dropCall c t
  | dropWait n => exact course_dropWait c n
  | _ => cases ho

/-! ## Changes that do not look at what is forgotten -/

/-- What is left after a change depends only on what was left before. -/
def Heedless (f : Conversation → Conversation) : Prop :=
  ∀ c, (f c).course = (f c.course).course

variable {f g : Conversation → Conversation} {a b : Conversation}

theorem Heedless.congr (hf : Heedless f) (h : a.course = b.course) :
    (f a).course = (f b).course := by
  rw [hf a, hf b, h]

theorem Heedless.comp (hg : Heedless g) (hf : Heedless f) : Heedless fun c => g (f c) :=
  fun c => hg.congr (hf c)

/-- A change of nothing but what is forgotten. -/
theorem heedless_of_course (h : ∀ c, (f c).course = c.course) : Heedless f := fun c => by
  rw [h, h, course_course]

/-! ## The queue and its pumps -/

/-- An item that is put into an idle queue is behind the one that is taken. -/
theorem push_of_take {i j : Item} {rest : List Item} (hp : c.pumping = false)
    (hq : c.queue ++ [i] = j :: rest) : c.push i =
      ({ c with queue := rest, pumping := true }.makeRoom j).startPump
        (j.work c.messages.length) := by
  simp only [push, hp, hq, Bool.false_eq_true, if_false]
  rw [takeHead?_cons rfl]

theorem heedless_push (i : Item) : Heedless (push · i) := by
  intro c
  show (c.push i).course = (c.course.push i).course
  cases hp : c.pumping with
  | true =>
      rw [push_of_pumping hp, push_of_pumping (c := c.course) hp]
      exact (course_course { c with queue := c.queue ++ [i] }).symm
  | false =>
      rcases hq : c.queue ++ [i] with _ | ⟨j, rest⟩
      · simp at hq
      · rw [push_of_take hp hq, push_of_take (c := c.course) hp hq]
        exact (course_course (({ c with queue := rest, pumping := true }.makeRoom j).startPump
          (j.work c.messages.length))).symm

theorem heedless_addLead (lead : Option String) : Heedless (addLead · lead) := by
  cases lead with
  | none => exact heedless_of_course fun _ => rfl
  | some text => exact heedless_push _

theorem heedless_addOptions (lead : Option String) (items : List OptionItem)
    (selected : Option Json) (multi : Bool) :
    Heedless fun c => c.addOptions lead items selected multi := by
  intro c
  have hlead := heedless_addLead lead c
  have hlabel : (c.addLead lead).fixLabel = (c.course.addLead lead).fixLabel :=
    (congrArg fixLabel hlead :)
  have hfixme : (c.addLead lead).fixme = (c.course.addLead lead).fixme :=
    (congrArg Conversation.fixme hlead :)
  dsimp only [addOptions]
  rw [hlabel, hfixme]
  exact (heedless_push _).congr hlead

/-- A call gets the same number, as no ticket is forgotten. -/
theorem heedless_call (owner : Nat) (job : Job) : Heedless fun c => c.call owner job := by
  intro c
  have hlen : c.course.tickets.length = c.tickets.length := List.length_map _
  have htickets : (c.course.tickets ++ [Ticket.mk owner .waiting]).map Ticket.blank =
      (c.tickets ++ [Ticket.mk owner .waiting]).map Ticket.blank := by
    show (c.tickets.map Ticket.blank ++ _).map Ticket.blank = _
    rw [List.map_append, List.map_append, map_blank_map_blank]
  have hmade : ({ c with tickets := c.tickets ++ [⟨owner, .waiting⟩] } : Conversation).course =
      ({ c.course with tickets := c.course.tickets ++ [⟨owner, .waiting⟩] } :
        Conversation).course :=
    (course_eq_of_blank (c := { c with tickets := c.tickets ++ [⟨owner, .waiting⟩] })
      htickets).symm
  dsimp only [call]
  rw [hlen]
  exact (heedless_push _).congr hmade

theorem heedless_beginWait (owner : Nat) (enable : Bool) :
    Heedless fun c => c.beginWait owner enable := by
  cases enable with
  | true =>
      have hwait : Heedless fun c => { c with
          waits := c.waits ++ [⟨owner, true, .opening c.tickets.length⟩] } :=
        heedless_of_course fun _ => rfl
      exact (heedless_call owner .openInput).comp hwait
  | false => exact heedless_of_course fun _ => course_listen _ _

theorem heedless_setStage (n : Nat) (stage : PumpStage) : Heedless fun c => c.setStage n stage :=
  fun c => (course_course (c.setStage n stage)).symm

theorem heedless_settle (t : Nat) (f : Fate) : Heedless fun c => c.settle t f :=
  heedless_of_course fun c => course_settle c t f

theorem heedless_beginWork (n : Nat) (w : Work) : Heedless fun c => c.beginWork n w := by
  cases w with
  | message d placeholder => exact fun c => (course_course (c.beginWork n _)).symm
  | call ticket job =>
      cases job with
      | openInput =>
          have hopen : Heedless fun c =>
              { c with input := { c.input with enabled := true } } :=
            heedless_of_course fun _ => rfl
          exact (heedless_setStage n _).comp ((heedless_settle ticket _).comp hopen)
      | host name duration value => exact fun c => (course_course (c.beginWork n _)).symm

theorem heedless_finishTyping (n g : Nat) (d : Delivery) (placeholder : Nat) :
    Heedless fun c => c.finishTyping n g d placeholder := by
  intro c
  have hgen : c.course.generation = c.generation := rfl
  dsimp only [finishTyping]
  rw [hgen]
  split
  · exact heedless_setStage n _ c
  · exact (course_course ((c.deliver d placeholder).setStage n _)).symm

theorem heedless_finishCall (n ticket : Nat) (job : Job) :
    Heedless fun c => c.finishCall n ticket job :=
  (heedless_setStage n _).comp (heedless_settle ticket _)

theorem heedless_tell (news : Option Message) : Heedless fun c => c.tell news := by
  cases news with
  | none => exact heedless_of_course fun _ => rfl
  | some m => exact fun c => (course_course (c.announce m)).symm

theorem heedless_nextItem (n g : Nat) : Heedless fun c => c.nextItem n g := by
  intro c
  show (c.nextItem n g).course = (c.course.nextItem n g).course
  by_cases hg : c.generation = g
  · subst hg
    have hgen : c.course.nextItem n c.generation = c.course.nextItem n c.course.generation := rfl
    rcases hq : c.queue with _ | ⟨i, rest⟩
    · rw [nextItem_nil hq, hgen, nextItem_nil (c := c.course) hq]
      exact (course_course ({ c with pumping := false }.setStage n .ended)).symm
    · rw [nextItem_cons hq, hgen, nextItem_cons (c := c.course) hq]
      exact (course_course (({ c with queue := rest }.makeRoom i).setStage n
        (.taken (i.work c.messages.length)))).symm
  · rw [nextItem_of_ne hg, nextItem_of_ne (c := c.course) hg]
    exact heedless_setStage n .ended c

theorem heedless_stepPump (n : Nat) : Heedless fun c => c.stepPump n := by
  intro c
  show (c.stepPump n).course = (c.course.stepPump n).course
  have hpumps : c.course.pumps = c.pumps := rfl
  have hnow : c.course.now = c.now := rfl
  unfold stepPump
  rw [hpumps, hnow]
  split
  case h_1 g w hn => exact heedless_beginWork n w c
  case h_2 g d placeholder due hn =>
    split
    · exact heedless_finishTyping n g d placeholder c
    · exact (course_course c).symm
  case h_3 g ticket job due hn =>
    split
    · exact heedless_finishCall n ticket job c
    · exact (course_course c).symm
  case h_4 g w news hn => exact (heedless_nextItem n g).comp (heedless_tell news) c
  case h_5 => exact (course_course c).symm

theorem heedless_clear : Heedless clear := by
  have hleft : ∀ c : Conversation, c.clear.course = ({ c with
      messages := [], fixmes := [], queue := [], pumping := false
      generation := c.generation + 1 } : Conversation).course := by
    intro c
    obtain ⟨signals, heq⟩ := clear_eq c
    rw [heq]
    exact course_eq_of_blank (c := { c with
      messages := [], fixmes := [], queue := [], pumping := false
      generation := c.generation + 1 }) (map_blank_lostTickets _ _)
  intro c
  rw [hleft, hleft]
  exact (course_course ({ c with
      messages := [], fixmes := [], queue := [], pumping := false
      generation := c.generation + 1 })).symm

theorem heedless_stepNotice (n : Nat) : Heedless fun c => c.stepNotice n := by
  intro c
  show (c.stepNotice n).course = (c.course.stepNotice n).course
  have hnotices : c.course.notices = c.notices := rfl
  have hnow : c.course.now = c.now := rfl
  unfold stepNotice
  rw [hnotices, hnow]
  split
  case h_1 m delay _ =>
    exact (course_course ({ c with
      notices := c.notices.set n (.pending m (c.clock.due c.now delay)) })).symm
  case h_2 m due _ =>
    split
    · exact (course_course
        ({ c with notices := c.notices.set n .sent, sent := c.sent ++ [m] })).symm
    · exact (course_course c).symm
  case h_3 => exact (course_course c).symm

/-! ## Histories -/

/-- What is left of a conversation goes on by itself. -/
theorem course_perform (c : Conversation) (op : Operation) :
    (c.perform op).course = (c.course.perform op).course := by
  cases op with
  | queue p hook => exact heedless_push _ c
  | queueFrom text => exact heedless_push _ c
  | addOptions lead items selected multi => exact heedless_addOptions lead items selected multi c
  | addUploader lead options => exact (heedless_push _).comp (heedless_addLead lead) c
  | call owner job => exact heedless_call owner job c
  | beginWait owner enable => exact heedless_beginWait owner enable c
  | stepPump n => exact heedless_stepPump n c
  | stepNotice n => exact heedless_stepNotice n c
  | stepWait n => exact heedless_of_course (course_stepWait · n) c
  | clear => exact heedless_clear c
  | dropCall t =>
      have ho : (Operation.dropCall t).isLeaving = true := rfl
      exact heedless_of_course (fun _ => course_of_isLeaving ho) c
  | dropWait n => exact heedless_of_course (course_dropWait · n) c
  | add p => exact (course_course (c.add p)).symm
  | replace p => exact (course_course (c.replaceLast p)).symm
  | addFrom text => exact (course_course (c.addFrom text)).symm
  | report v => exact (course_course (c.report v)).symm
  | setSettings settings => exact (course_course { c with settings }).symm
  | setTimeout timeout => exact (course_course (c.setTimeout timeout)).symm
  | setFixme fixme => exact (course_course { c with fixme }).symm
  | setValidator validator => exact (course_course { c with validator }).symm
  | setInput change => exact (course_course c).symm
  | useFixme i => exact (course_course (c.useFixme i)).symm
  | pass ms => exact (course_course { c with now := c.now + ms }).symm

theorem course_after (h : a.course = b.course) (history : List Operation) :
    (a.after history).course = (b.after history).course := by
  induction history generalizing a b with
  | nil => exact h
  | cons op rest ih =>
      refine ih ?_
      rw [course_perform a, course_perform b, h]

/-- Logs that do not look at what is forgotten are the same. -/
theorem gathered_of_course {α : Type} {yield : Conversation → Operation → List α}
    (hy : ∀ c op, yield c op = yield c.course op) (h : a.course = b.course)
    (history : List Operation) : a.gathered yield history = b.gathered yield history := by
  induction history generalizing a b with
  | nil => rfl
  | cons op rest ih =>
      have hrest : (a.perform op).course = (b.perform op).course := by
        rw [course_perform a, course_perform b, h]
      rw [gathered, gathered, hy a, hy b, h, ih hrest]

end Conversation

end Dialogue
