import Mathlib.Data.List.Nodup
import Mathlib.Logic.Relation
import Dialogue.Proofs.Script.Findings
/-!
# Threads to which jumps lead

The check of a script searches the graph of the jumps for the threads that can be reached from the
start. A search has met only names to which a path leads, and of each name that it met, the edges
were followed or are still queued. So at its end it has met the names to which paths lead and no
others.

* `Reachability.Search.Explores` — the invariant of a search.
* `Reachability.reachableFrom_exact` — the search ends, and what is found is what a path leads to.
* `Document.mem_jumps_iff` — the edges are the actions that name threads.
* `Document.unreached_threads_reported` — the search is exact, and so is the report: it has one
  information for each thread to which no path leads, and no others.
-/

namespace Dialogue

open Relation

namespace Reachability

/-! ## The map of the edges -/

namespace EdgeMap

/-- An edge leads from one name to the other. -/
def Leads (edges : EdgeMap) (name target : String) : Prop := target ∈ edges.targets name

variable {edges : EdgeMap} {name target : String}

theorem leads_add_iff {e : Edge} :
    (edges.add e).Leads name target ↔ edges.Leads name target ∨ e = (name, target) := by
  obtain ⟨source, t⟩ := e
  unfold Leads
  rw [targets, add, Entries.get?_insert]
  split
  · next heq =>
    obtain rfl : source = name := heq
    simp [eq_comm]
  · next hne =>
    have hne : source ≠ name := hne
    simp [targets, hne]

theorem leads_ofEdges_iff {es : List Edge} :
    (ofEdges es).Leads name target ↔ (name, target) ∈ es := by
  have hfold : ∀ edges : EdgeMap, (es.foldl add edges).Leads name target ↔
      edges.Leads name target ∨ (name, target) ∈ es := by
    induction es with
    | nil => simp
    | cons e es ih =>
        intro edges
        rw [List.foldl_cons, ih, leads_add_iff, List.mem_cons, or_assoc, eq_comm (a := e)]
  have hnone : ¬EdgeMap.Leads [] name target := List.not_mem_nil
  exact (hfold []).trans (or_iff_right hnone)

end EdgeMap

/-! ## One turn of a search -/

namespace Search

variable {edges : EdgeMap} {s s' : Search} {start x t : String} {ts : List String}

theorem mem_seen_meet : x ∈ (s.meet t).seen ↔ x ∈ s.seen ∨ x = t := by
  unfold meet
  split
  · next h =>
    refine ⟨.inl, ?_⟩
    rintro (hx | rfl)
    · exact hx
    · exact h
  · simp [or_comm]

theorem mem_queue_meet : x ∈ (s.meet t).queue ↔ x ∈ s.queue ∨ (x = t ∧ x ∉ s.seen) := by
  unfold meet
  split
  · next h =>
    refine ⟨.inl, ?_⟩
    rintro (hx | ⟨rfl, hx⟩)
    · exact hx
    · exact absurd h hx
  · next h =>
    rw [List.mem_append, List.mem_singleton]
    refine or_congr_right ⟨?_, And.left⟩
    rintro rfl
    exact ⟨rfl, h⟩

theorem nodup_seen_meet (h : s.seen.Nodup) : (s.meet t).seen.Nodup := by
  unfold meet
  split
  · exact h
  · next hnew => exact List.nodup_cons.mpr ⟨hnew, h⟩

/-- A name is added to both lists or to none. -/
theorem length_meet (s : Search) (t : String) :
    (s.meet t).seen.length + s.queue.length = s.seen.length + (s.meet t).queue.length := by
  unfold meet
  split
  · rfl
  · simp only [List.length_cons, List.length_append, List.length_nil]
    omega

theorem mem_seen_foldl_meet : x ∈ (ts.foldl meet s).seen ↔ x ∈ s.seen ∨ x ∈ ts := by
  induction ts generalizing s with
  | nil => simp
  | cons t ts ih => rw [List.foldl_cons, ih, mem_seen_meet, List.mem_cons, or_assoc]

theorem mem_queue_foldl_meet :
    x ∈ (ts.foldl meet s).queue ↔ x ∈ s.queue ∨ (x ∈ ts ∧ x ∉ s.seen) := by
  induction ts generalizing s with
  | nil => simp
  | cons t ts ih =>
      rw [List.foldl_cons, ih, mem_queue_meet, mem_seen_meet, List.mem_cons]
      by_cases hx : x = t <;> simp [hx]

theorem nodup_seen_foldl_meet (h : s.seen.Nodup) : (ts.foldl meet s).seen.Nodup := by
  induction ts generalizing s with
  | nil => exact h
  | cons t ts ih => exact ih (nodup_seen_meet h)

theorem length_foldl_meet (ts : List String) (s : Search) :
    (ts.foldl meet s).seen.length + s.queue.length =
      s.seen.length + (ts.foldl meet s).queue.length := by
  induction ts generalizing s with
  | nil => rfl
  | cons t ts ih =>
      have hfirst := length_meet s t
      have hrest := ih (s.meet t)
      rw [List.foldl_cons]
      omega

/-- A turn takes the first name off the queue and meets the targets of its edges. -/
theorem next?_eq_some_iff : s.next? edges = some s' ↔
    ∃ name rest, s.queue = name :: rest ∧
      s' = (edges.targets name).foldl meet { s with queue := rest } := by
  unfold next?
  split
  · next h => simp [h]
  · next h => simp [h, eq_comm]

theorem next?_eq_none_iff : s.next? edges = none ↔ s.queue = [] := by
  unfold next?
  split <;> simp [*]

theorem length_next (h : s.next? edges = some s') :
    s'.seen.length + s.queue.length = s.seen.length + s'.queue.length + 1 := by
  obtain ⟨name, rest, hqueue, rfl⟩ := next?_eq_some_iff.mp h
  have hmet := length_foldl_meet (edges.targets name) ⟨s.seen, rest⟩
  simp only [hqueue, List.length_cons] at hmet ⊢
  omega

/-! ## What a search keeps to -/

/-- Only names were met to which a path leads, and the edges from each of them were followed or are
still queued. -/
structure Explores (edges : EdgeMap) (start : String) (s : Search) : Prop where
  started : start ∈ s.seen
  once : s.seen.Nodup
  reached : ∀ x ∈ s.seen, ReflTransGen edges.Leads start x
  queued : ∀ x ∈ s.queue, x ∈ s.seen
  followed : ∀ x ∈ s.seen, x ∈ s.queue ∨ ∀ t, edges.Leads x t → t ∈ s.seen

theorem explores_start : Explores edges start (.start start) where
  started := List.mem_singleton_self start
  once := List.nodup_singleton start
  reached x hx := by
    obtain rfl := List.mem_singleton.mp hx
    exact .refl
  queued x hx := hx
  followed x hx := .inl hx

theorem Explores.next (h : s.Explores edges start) (hnext : s.next? edges = some s') :
    s'.Explores edges start := by
  obtain ⟨name, rest, hqueue, rfl⟩ := next?_eq_some_iff.mp hnext
  have hname : name ∈ s.seen := h.queued name (by simp [hqueue])
  constructor
  case started => exact mem_seen_foldl_meet.mpr (.inl h.started)
  case once => exact nodup_seen_foldl_meet h.once
  case reached =>
    intro x hx
    rcases mem_seen_foldl_meet.mp hx with hold | htarget
    · exact h.reached x hold
    · exact (h.reached name hname).tail htarget
  case queued =>
    intro x hx
    rw [mem_seen_foldl_meet]
    rcases mem_queue_foldl_meet.mp hx with hrest | ⟨htarget, -⟩
    · exact .inl (h.queued x (hqueue ▸ List.mem_cons_of_mem name hrest))
    · exact .inr htarget
  case followed =>
    intro x hx
    rw [mem_queue_foldl_meet]
    by_cases hold : x ∈ s.seen
    · rcases h.followed x hold with hwaits | hdone
      · rcases List.mem_cons.mp (hqueue ▸ hwaits) with rfl | hrest
        · -- The name whose turn it was.
          exact .inr fun t ht => mem_seen_foldl_meet.mpr (.inr ht)
        · exact .inl (.inl hrest)
      · exact .inr fun t ht => mem_seen_foldl_meet.mpr (.inl (hdone t ht))
    · have htarget := (mem_seen_foldl_meet.mp hx).resolve_left hold
      exact .inl (.inr ⟨htarget, hold⟩)

/-- At the end of a search, what was met is what a path leads to. -/
theorem Explores.mem_seen_iff (h : s.Explores edges start) (hend : s.queue = []) :
    x ∈ s.seen ↔ ReflTransGen edges.Leads start x := by
  refine ⟨h.reached x, fun hpath => ?_⟩
  induction hpath with
  | refl => exact h.started
  | tail _ hlast ih =>
      rcases h.followed _ ih with hwaits | hdone
      · rw [hend] at hwaits
        cases hwaits
      · exact hdone _ hlast

/-! ## Whole searches -/

/-- A search gets from one state to the other in the given number of turns. -/
inductive Turns (edges : EdgeMap) : Nat → Search → Search → Prop
  | none {s : Search} : Turns edges 0 s s
  | next {n : Nat} {s s' s'' : Search} : s.next? edges = some s' → Turns edges n s' s'' →
      Turns edges (n + 1) s s''

/-- Each turn takes one name off the queue, so the names that were followed count the turns. -/
theorem Turns.length_eq {n : Nat} (h : Turns edges n s s') :
    s'.seen.length + s.queue.length = s.seen.length + s'.queue.length + n := by
  induction h with
  | none => rfl
  | next hnext _ ih =>
      have hfirst := length_next hnext
      omega

theorem Turns.explores {n : Nat} (h : Turns edges n s s') (hs : s.Explores edges start) :
    s'.Explores edges start := by
  induction h with
  | none => exact hs
  | next hnext _ ih => exact ih (hs.next hnext)

/-- A search comes to its end. -/
theorem exists_turns_run (edges : EdgeMap) (s : Search) :
    ∃ n, Turns edges n s (run edges s) ∧ (run edges s).queue = [] := by
  fun_induction run edges s with
  | case1 s hnone => exact ⟨0, .none, next?_eq_none_iff.mp hnone⟩
  | case2 s s' hnext ih =>
      obtain ⟨n, hturns, hend⟩ := ih
      exact ⟨n + 1, .next hnext hturns, hend⟩

end Search

variable {edges : EdgeMap} {start x : String}

/-- A search takes one turn for each name that it finds, and then nothing is queued. -/
theorem turns_reachableFrom (start : String) (edges : EdgeMap) :
    Search.Turns edges (reachableFrom start edges).length (.start start)
      ⟨reachableFrom start edges, []⟩ := by
  obtain ⟨n, hturns, hend⟩ := Search.exists_turns_run edges (.start start)
  have hlength := hturns.length_eq
  have hstate : Search.run edges (.start start) = ⟨reachableFrom start edges, []⟩ := by
    rw [← hend]
    rfl
  rw [hstate] at hturns hlength
  obtain rfl : n = (reachableFrom start edges).length := by
    simp only [Search.start, List.length_singleton, List.length_nil] at hlength
    omega
  exact hturns

theorem explores_reachableFrom :
    Search.Explores edges start ⟨reachableFrom start edges, []⟩ :=
  (turns_reachableFrom start edges).explores Search.explores_start

/-- What a search finds is what a path leads to. -/
theorem mem_reachableFrom_iff :
    x ∈ reachableFrom start edges ↔ ReflTransGen edges.Leads start x :=
  explores_reachableFrom.mem_seen_iff rfl

/-- A search from any name in any finite graph takes one turn for each name that it finds, and it
finds each name to which a path leads, once, and no others. -/
theorem reachableFrom_exact (start : String) (edges : EdgeMap) :
    let found := reachableFrom start edges
    Search.Turns edges found.length (.start start) ⟨found, []⟩ ∧ found.Nodup ∧
      ∀ x, x ∈ found ↔ ReflTransGen edges.Leads start x :=
  ⟨turns_reachableFrom start edges, explores_reachableFrom.once, fun _ => mem_reachableFrom_iff⟩

end Reachability

/-! ## The graph of a document -/

namespace Document

variable {d : Document} {engine : PatternEngine} {topic target : String}

/-- A step of a thread of the topic names the target as an action, and this is the topic of a
thread. The empty name is no action here, and two names are reserved. -/
def Jumps (d : Document) (topic target : String) : Prop :=
  ∃ t ∈ d.threads, t.topic = topic ∧ ∃ st ∈ t.steps, st.Names target ∧ target ≠ "" ∧
    Action.parse target = .thread target ∧ target ∈ d.topics

theorem mem_targets_iff {t : Thread} {topics : List String} : target ∈ t.targets topics ↔
    ∃ st ∈ t.steps, st.Names target ∧ target ≠ "" ∧ Action.parse target = .thread target ∧
      target ∈ topics := by
  constructor
  · intro h
    obtain ⟨⟨n, action⟩, haction, hsome⟩ := List.mem_filterMap.mp h
    obtain ⟨⟨st, m⟩, hm, hnumbered⟩ := List.mem_flatMap.mp haction
    obtain ⟨action', hmem, heq⟩ := List.mem_map.mp hnumbered
    cases heq
    obtain ⟨i, -, hst⟩ := Thread.mem_numbered_iff.mp hm
    obtain ⟨hnames, hne⟩ := Step.mem_actions_iff.mp hmem
    dsimp only at hsome
    split at hsome
    · next target' hparse =>
      obtain rfl := Action.topic_eq hparse
      split at hsome
      · next hknown =>
        cases hsome
        exact ⟨st, List.mem_of_getElem? hst, hnames, hne, hparse, hknown⟩
      · cases hsome
    · cases hsome
  · rintro ⟨st, hst, hnames, hne, hparse, hknown⟩
    obtain ⟨i, hi⟩ := List.getElem?_of_mem hst
    have hnumbered : (st, i + 1) ∈ t.numbered := Thread.mem_numbered_iff.mpr ⟨i, rfl, hi⟩
    have hmem : target ∈ st.actions := Step.mem_actions_iff.mpr ⟨hnames, hne⟩
    refine List.mem_filterMap.mpr ⟨(i + 1, target), ?_, by simp [hparse, hknown]⟩
    exact List.mem_flatMap.mpr ⟨(st, i + 1), hnumbered, List.mem_map_of_mem hmem⟩

theorem mem_jumps_iff : (topic, target) ∈ d.jumps ↔ d.Jumps topic target := by
  simp only [jumps, Jumps, List.mem_flatMap, List.mem_map, Prod.mk.injEq]
  refine exists_congr fun t => and_congr_right fun _ => ?_
  rw [← mem_targets_iff]
  constructor
  · rintro ⟨target', htarget, rfl, rfl⟩
    exact ⟨rfl, htarget⟩
  · rintro ⟨rfl, htarget⟩
    exact ⟨target, htarget, rfl, rfl⟩

theorem mem_reached_iff : topic ∈ d.reached ↔ ReflTransGen d.Jumps defaultTopic topic := by
  have hsame : (Reachability.EdgeMap.ofEdges d.jumps).Leads = d.Jumps := by
    funext a b
    rw [Reachability.EdgeMap.leads_ofEdges_iff, mem_jumps_iff]
  rw [reached, Reachability.mem_reachableFrom_iff, hsame]

instance (d : Document) (topic : String) : Decidable (ReflTransGen d.Jumps defaultTopic topic) :=
  decidable_of_iff _ mem_reached_iff

/-! ## The report -/

/-- There is a finding for each thread to which no jumps lead, in the order of the threads. -/
theorem unreachable_eq : d.unreachable =
    (d.threads.filter fun t => ¬ReflTransGen d.Jumps defaultTopic t.topic).map fun t =>
      .unreachable t.topic := by
  show (d.threads.map Thread.topic).filterMap (fun topic =>
    if topic ∈ d.reached then none else some (Finding.unreachable topic)) = _
  induction d.threads with
  | nil => rfl
  | cons t ts ih =>
      rw [List.map_cons, List.filterMap_cons, List.filter_cons, ih]
      by_cases h : t.topic ∈ d.reached
      · simp [h, mem_reached_iff.mp h]
      · simp [h, mt mem_reached_iff.mpr h]

/-- What is found at options and actions is more than an information. -/
theorem level_ne_info {t : Thread} {topics : List String} {f : Finding}
    (h : f ∈ t.optionFindings engine ++ t.actionFindings topics) : f.level ≠ .info := by
  rcases List.mem_append.mp h with hoption | haction
  · obtain ⟨_, -, o, -, hf⟩ := mem_optionFindings.mp hoption
    rcases CollectOption.finding?_eq_some_iff.mp hf with ⟨_, _, -, -, -, rfl⟩ |
      ⟨-, -, -, rfl⟩ | ⟨-, -, rfl⟩
    all_goals rintro ⟨⟩
  · obtain ⟨⟨n, action⟩, -, hf⟩ := List.mem_filterMap.mp haction
    dsimp only at hf
    split at hf
    · split at hf <;> cases hf
      rintro ⟨⟩
    · cases hf

theorem filter_findings_info (hstart : defaultTopic ∈ d.topics) :
    (d.findings engine).filter (·.level = .info) = d.unreachable := by
  have hrepeats :
      ((repeats [] d.topics).map Finding.repeatedTopic).filter (·.level = .info) = [] := by
    simp [Finding.level]
  have hthreads : (d.threads.flatMap fun t =>
      t.optionFindings engine ++ t.actionFindings d.topics).filter (·.level = .info) = [] := by
    refine List.filter_eq_nil_iff.mpr fun f hf => ?_
    obtain ⟨t, -, hf⟩ := List.mem_flatMap.mp hf
    simpa using level_ne_info hf
  have hunreachable : d.unreachable.filter (·.level = .info) = d.unreachable := by
    refine List.filter_eq_self.mpr fun f hf => ?_
    obtain ⟨topic, -, -, rfl⟩ := mem_unreachable_iff.mp hf
    rfl
  simp only [findings, hstart, if_true, List.append_nil, List.filter_append, hrepeats, hthreads,
    hunreachable, List.nil_append]

/-- The search of the check is exact, from any name in any finite graph. So when a document has a
thread in which runs start, the check reports one information for each thread to which no path of
jumps leads, in the order of the threads, and no others. -/
theorem unreached_threads_reported (engine : PatternEngine) (d : Document) :
    (∀ (start : String) (edges : Reachability.EdgeMap),
      let found := Reachability.reachableFrom start edges
      Reachability.Search.Turns edges found.length (.start start) ⟨found, []⟩ ∧ found.Nodup ∧
        ∀ x, x ∈ found ↔ ReflTransGen edges.Leads start x) ∧
    (defaultTopic ∈ d.topics → (d.analyze engine).filter (·.level = .info) =
      (d.threads.filter fun t => ¬ReflTransGen d.Jumps defaultTopic t.topic).map fun t =>
        (Finding.unreachable t.topic).diagnostic) := by
  refine ⟨Reachability.reachableFrom_exact, fun hstart => ?_⟩
  rw [analyze, List.filter_map]
  show ((d.findings engine).filter (·.level = .info)).map Finding.diagnostic = _
  rw [filter_findings_info hstart, unreachable_eq, List.map_map]
  rfl

/-- Jumps lead around in circles on the shore, and to the island leads none. The island is there
twice. -/
def islands : Document :=
  let jump (topic : String) : Step := { Step.empty with action := some topic }
  ⟨[⟨defaultTopic, [jump "shore", jump defaultTopic]⟩,
    ⟨"shore", [jump "harbour", jump "harbour", jump "nowhere"]⟩,
    ⟨"harbour", [jump "shore", jump "complete"]⟩,
    ⟨"island", [jump defaultTopic, jump "island"]⟩,
    ⟨"island", []⟩]⟩

theorem unreached_threads_reported_islands : defaultTopic ∈ islands.topics ∧
    (islands.analyze .standard).filter (·.level = .info) =
      [⟨.info, some ⟨"island", none⟩, "线程从入口不可达: **island**", none⟩,
        ⟨.info, some ⟨"island", none⟩, "线程从入口不可达: **island**", none⟩] :=
  ⟨by decide, ((unreached_threads_reported .standard islands).2 (by decide)).trans
    (by decide +kernel)⟩

end Document

end Dialogue
