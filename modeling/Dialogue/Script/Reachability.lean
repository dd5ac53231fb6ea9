import Dialogue.Entries
/-!
# Reachability in a finite graph

A graph is a map from names to the targets of the edges that start there; a name without an entry
has no edges. A `Search` looks at one name after the other and follows the edges that start there. A
target is queued when it is met for the first time, so each turn takes a name off the queue and
brings in only names that were still to be met, and the search comes to an end.
-/

namespace Dialogue.Reachability

/-- An edge from one name to another. -/
abbrev Edge := String × String

/-- The targets of edges, in order, under the name at which they start. -/
abbrev EdgeMap := List (String × List String)

namespace EdgeMap

/-- The targets of the edges that start at a name. -/
def targets (edges : EdgeMap) (name : String) : List String := (Entries.get? name edges).getD []

/-- Enters an edge behind the others that start at the same name. -/
def add (edges : EdgeMap) (e : Edge) : EdgeMap :=
  Entries.insert e.1 (edges.targets e.1 ++ [e.2]) edges

/-- The map of some edges. -/
def ofEdges (es : List Edge) : EdgeMap := es.foldl add []

/-- The targets of all edges. -/
def allTargets (edges : EdgeMap) : List String := edges.flatMap (·.2)

theorem mem_allTargets {edges : EdgeMap} {name t : String} (h : t ∈ edges.targets name) :
    t ∈ edges.allTargets := by
  unfold targets Entries.get? at h
  cases he : edges.find? (·.1 = name) with
  | none => simp [he] at h
  | some e => exact List.mem_flatMap.2 ⟨e, List.mem_of_find?_eq_some he, by simpa [he] using h⟩

end EdgeMap

/-- How far a search is. -/
structure Search where
  /-- The names that were met. -/
  seen : List String
  /-- Those whose edges are still to be followed, in the order in which they were met. -/
  queue : List String

namespace Search

/-- A search that is about to begin. -/
def start (name : String) : Search := ⟨[name], [name]⟩

/-- A name is met. It is queued unless it was met before. -/
def meet (s : Search) (name : String) : Search :=
  if name ∈ s.seen then s else ⟨name :: s.seen, s.queue ++ [name]⟩

/-- The edges from the first name of the queue are followed. -/
def next? (edges : EdgeMap) (s : Search) : Option Search :=
  match s.queue with
  | [] => none
  | name :: rest => some ((edges.targets name).foldl meet { s with queue := rest })

/-- The names that are queued and the edges whose target was not met. -/
def remaining (edges : EdgeMap) (s : Search) : Nat :=
  (edges.allTargets.filter fun t => !s.seen.contains t).length + s.queue.length

variable {edges : EdgeMap} {s s' : Search}

/-- A name that comes into the queue was still to be met. -/
theorem remaining_meet_le {t : String} (h : t ∈ edges.allTargets) :
    (s.meet t).remaining edges ≤ s.remaining edges := by
  unfold meet
  split
  · exact Nat.le_refl _
  · next hnew =>
    have hsub : (edges.allTargets.filter fun u => !(t :: s.seen).contains u)
        = (edges.allTargets.filter fun u => !s.seen.contains u).filter
            fun u => !(t :: s.seen).contains u := by
      rw [List.filter_filter]
      refine List.filter_congr fun u _ => ?_
      simp only [List.contains_cons]
      cases u == t <;> simp
    have hlt : (edges.allTargets.filter fun u => !(t :: s.seen).contains u).length <
        (edges.allTargets.filter fun u => !s.seen.contains u).length := by
      rw [hsub, List.length_filter_lt_length_iff_exists]
      exact ⟨t, List.mem_filter.2 ⟨h, by simpa using hnew⟩, by simp⟩
    simp only [remaining, List.length_append, List.length_singleton]
    omega

theorem remaining_foldl_meet_le {ts : List String} (h : ∀ t ∈ ts, t ∈ edges.allTargets) :
    (ts.foldl meet s).remaining edges ≤ s.remaining edges := by
  induction ts generalizing s with
  | nil => exact Nat.le_refl _
  | cons t ts ih =>
    obtain ⟨ht, hts⟩ := List.forall_mem_cons.1 h
    exact Nat.le_trans (ih hts) (remaining_meet_le ht)

/-- Each turn takes a name off the queue. -/
theorem remaining_lt (h : s.next? edges = some s') : s'.remaining edges < s.remaining edges := by
  unfold next? at h
  split at h
  · cases h
  · next name rest hq =>
    cases h
    refine Nat.lt_of_le_of_lt (remaining_foldl_meet_le fun _ => EdgeMap.mem_allTargets) ?_
    simp [remaining, hq]

/-- Goes on until the queue is empty. -/
def run (edges : EdgeMap) (s : Search) : Search :=
  match _h : s.next? edges with
  | none => s
  | some s' => run edges s'
termination_by s.remaining edges
decreasing_by exact remaining_lt ‹_›

end Search

/-- The names reachable from a start. -/
def reachableFrom (start : String) (edges : EdgeMap) : List String :=
  (Search.run edges (.start start)).seen

end Dialogue.Reachability
