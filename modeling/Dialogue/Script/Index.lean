import Dialogue.Error
import Dialogue.Pattern.Engine
import Dialogue.Script.Document
/-!
# The threads of a run

A run finds its threads by topic in a `ThreadIndex`. The topics of an index are distinct and the
thread in which runs start is among them, so a thread list is refused when a topic is repeated or
that thread is missing. Of several faults a repetition is told first, and of several repetitions
the one whose second entry comes first.
-/

namespace Dialogue

/-! ### The first repetition -/

/-- The first entry that stands before it in the list, or among those already `seen`. -/
def firstRepeat? (seen : List String) : List String → Option String
  | [] => none
  | t :: ts => if t ∈ seen then some t else firstRepeat? (t :: seen) ts

/-- Without a repetition the entries are distinct, and none was seen before. -/
theorem nodup_of_firstRepeat?_eq_none {seen ts : List String} (h : firstRepeat? seen ts = none) :
    ts.Nodup ∧ ∀ t ∈ ts, t ∉ seen := by
  induction ts generalizing seen with
  | nil => exact ⟨List.nodup_nil, fun _ ht => absurd ht List.not_mem_nil⟩
  | cons t ts ih =>
    unfold firstRepeat? at h
    split at h
    · cases h
    · next hseen =>
      obtain ⟨hnodup, hnew⟩ := ih h
      refine ⟨List.nodup_cons.2 ⟨fun ht => hnew t ht List.mem_cons_self, hnodup⟩, fun u hu => ?_⟩
      cases List.mem_cons.1 hu with
      | inl heq => exact heq ▸ hseen
      | inr hmem => exact fun hu => hnew u hmem (List.mem_cons_of_mem t hu)

/-! ### The index -/

/-- Threads with distinct topics, the one in which runs start among them. -/
structure ThreadIndex where
  threads : List Thread
  distinct : (threads.map Thread.topic).Nodup
  startsSomewhere : defaultTopic ∈ threads.map Thread.topic

namespace ThreadIndex

/-- The index of a list of threads. -/
def ofThreads (threads : List Thread) : Except ScriptError ThreadIndex :=
  match h : firstRepeat? [] (threads.map Thread.topic) with
  | some topic => .error (.duplicateTopic topic)
  | none =>
    if hd : defaultTopic ∈ threads.map Thread.topic then
      .ok ⟨threads, (nodup_of_firstRepeat?_eq_none h).1, hd⟩
    else .error .missingDefaultThread

/-- The index of a document. -/
def ofDocument (d : Document) : Except ScriptError ThreadIndex := ofThreads d.threads

/-- The index of one of several documents. -/
def ofDocuments (ds : List Document) (i : Nat) : Except ScriptError ThreadIndex :=
  match ds[i]? with
  | some d => ofDocument d
  | none => .error (.indexOutOfRange i ds.length)

/-- The thread of a topic. -/
def get? (ix : ThreadIndex) (topic : String) : Option Thread :=
  ix.threads.find? fun t => t.topic = topic

/-- Is there a thread of that topic? -/
def contains (ix : ThreadIndex) (topic : String) : Bool := (ix.get? topic).isSome

/-- The topics, in the order of the list. -/
def topics (ix : ThreadIndex) : List String := ix.threads.map Thread.topic

/-- The number of threads. -/
def size (ix : ThreadIndex) : Nat := ix.threads.length

end ThreadIndex

/-! ### Patterns of options -/

/-- The test that a pattern stands for; the error names the pattern. -/
def PatternEngine.test (engine : PatternEngine) (pattern : String) :
    Except ScriptError (String → Bool) :=
  match engine.compile pattern with
  | .ok test => .ok test
  | .error reason => .error (.invalidPattern pattern reason)

end Dialogue
