import Dialogue.Proofs.Run.Remainders
/-!
# Calling a command

A command is called when it was found and all its arguments are there; otherwise it is not called at
all. For each file among the arguments the user is asked, and what is answered is that argument.

* `ImplicitArg.Supplies` — what a command is called with for an argument of its line.
* `CommandLine.Invokes` — all ways in which a command line can come out.
* `CommandLine.invoke_all_or_nothing` — the line of a command comes out in these ways and no others,
  and at any time it is on one of them.
-/

namespace Dialogue

/-- For an argument of a line the command is called with this one. -/
def ImplicitArg.Supplies (key : Option String) : ImplicitArg → Argument → Prop
  | .record, .record | .context, .context => True
  | .key, .key name => name = key
  | .uploader, .upload _ => True
  | _, _ => False

/-- By these deeds the user is asked for files, one after the other, and answers. -/
def Deed.uploads (vs : List Json) : List Deed :=
  vs.flatMap fun v => [.asked .requestFile (), .asked .input (.ok v)]

namespace CommandLine

/-- The number of files that a command wants. -/
def fileCount (l : CommandLine) : Nat := l.args.count .uploader

/-- The ways in which a command line can come out. -/
inductive Invokes (l : CommandLine) (key : Option String) :
    List Deed → Except ChatError Json → Prop
  /-- There is no command of that name, and nothing is asked for. -/
  | unknown : Invokes l key [.asked (.resolve l.name) false]
      (.error (.run (.commandNotFound l.name)))
  /-- Some files were answered, and then the wait for one fails. The command is not called. -/
  | interrupted {vs : List Json} {e : RunError} : vs.length < l.fileCount →
      Invokes l key (.asked (.resolve l.name) true :: (Deed.uploads vs ++
        [.asked .requestFile (), .asked .input (.error e)])) (.error (.run e))
  /-- The command is called with an argument for each one of the line. The files among them are what
  was answered, in that order. -/
  | called {args : List Argument} {result : Except String Json} :
      List.Forall₂ (ImplicitArg.Supplies key) l.args args →
      Invokes l key (.asked (.resolve l.name) true ::
          (Deed.uploads (args.filterMap Argument.upload?) ++ [.asked (.call l.name args) result]))
        (result.mapError fun reason => .run (.commandFailed l.name reason))

open Activity Deed

variable {key : Option String} {t : List Deed}

/-! ## The arguments -/

/-- What is asked for files, and how that comes out. -/
def Gathered (key : Option String) (args : List ImplicitArg) (t : List Deed)
    (r : Except ChatError (List Argument)) : Prop :=
  (∃ as, List.Forall₂ (ImplicitArg.Supplies key) args as ∧
      t = uploads (as.filterMap Argument.upload?) ∧ r = .ok as) ∨
    ∃ vs e, vs.length < args.count .uploader ∧
      t = uploads vs ++ [.asked .requestFile (), .asked .input (.error e)] ∧ r = .error (.run e)

/-- An argument that is there at once comes before the others. -/
theorem gathered_cons_iff {arg : ImplicitArg} {rest : List ImplicitArg} {a : Argument}
    {r : Except ChatError (List Argument)} (ha : ∀ b, arg.Supplies key b ↔ b = a)
    (hfile : a.upload? = none) (hne : arg ≠ .uploader) : Gathered key (arg :: rest) t r ↔
      ∃ r', Gathered key rest t r' ∧ r = r'.map (a :: ·) := by
  have hupload : ∀ as : List Argument,
      (a :: as).filterMap Argument.upload? = as.filterMap Argument.upload? :=
    fun as => List.filterMap_cons_none hfile
  constructor
  · rintro (⟨as, has, rfl, rfl⟩ | ⟨vs, e, hlength, rfl, rfl⟩)
    · cases has with
      | @cons _ b _ as hb has =>
          obtain rfl := (ha b).mp hb
          exact ⟨.ok as, .inl ⟨as, has, by rw [hupload], rfl⟩, rfl⟩
    · rw [List.count_cons_of_ne hne] at hlength
      exact ⟨.error (.run e), .inr ⟨vs, e, hlength, rfl, rfl⟩, rfl⟩
  · rintro ⟨r', ⟨as, has, rfl, rfl⟩ | ⟨vs, e, hlength, rfl, rfl⟩, rfl⟩
    · exact .inl ⟨a :: as, .cons ((ha a).mpr rfl) has, by rw [hupload], rfl⟩
    · refine .inr ⟨vs, e, ?_, rfl, rfl⟩
      rwa [List.count_cons_of_ne hne]

theorem comes_map_iff {α β : Type} {m : Activity α} {f : α → β} {r : Except ChatError β} :
    (m >>= fun a => .done (f a)).Comes t r ↔ ∃ r', m.Comes t r' ∧ r = r'.map f := by
  rw [comes_bind_iff]
  constructor
  · rintro (⟨e, he, rfl⟩ | ⟨t₁, a, t₂, rfl, hm, hdone⟩)
    · exact ⟨.error e, he, rfl⟩
    · obtain ⟨rfl, rfl⟩ := comes_done_iff.mp hdone
      rw [List.append_nil]
      exact ⟨.ok a, hm, rfl⟩
  · rintro ⟨r', hm, rfl⟩
    cases r' with
    | error e => exact .inl ⟨e, hm, rfl⟩
    | ok a => exact .inr ⟨t, a, [], (List.append_nil t).symm, hm, .done _⟩

/-- A file is asked for first. If that fails the other arguments are not gathered. -/
theorem gathered_uploader_iff {rest : List ImplicitArg} {r : Except ChatError (List Argument)} :
    Gathered key (.uploader :: rest) t r ↔
      ∃ a t', t = .asked .requestFile () :: .asked .input a :: t' ∧
        match a with
        | .ok v => ∃ r', Gathered key rest t' r' ∧ r = r'.map (.upload v :: ·)
        | .error e => t' = [] ∧ r = .error (.run e) := by
  constructor
  · rintro (⟨as, has, rfl, rfl⟩ | ⟨vs, e, hlength, rfl, rfl⟩)
    · cases has with
      | @cons _ b _ as hb has =>
          cases b with
          | upload v => exact ⟨.ok v, _, rfl, .ok as, .inl ⟨as, has, rfl, rfl⟩, rfl⟩
          | record | context | key => cases hb
    · cases vs with
      | nil => exact ⟨.error e, [], rfl, rfl, rfl⟩
      | cons v vs =>
          rw [List.count_cons_self, List.length_cons, Nat.succ_lt_succ_iff] at hlength
          exact ⟨.ok v, _, rfl, .error (.run e), .inr ⟨vs, e, hlength, rfl, rfl⟩, rfl⟩
  · rintro ⟨a, t', rfl, hanswer⟩
    cases a with
    | error e =>
        obtain ⟨rfl, rfl⟩ := hanswer
        refine .inr ⟨[], e, ?_, rfl, rfl⟩
        rw [List.count_cons_self]
        exact Nat.succ_pos _
    | ok v =>
        obtain ⟨r', ⟨as, has, rfl, rfl⟩ | ⟨vs, e, hlength, rfl, rfl⟩, rfl⟩ := hanswer
        · exact .inl ⟨.upload v :: as, .cons trivial has, rfl, rfl⟩
        · refine .inr ⟨v :: vs, e, ?_, rfl, rfl⟩
          rw [List.count_cons_self, List.length_cons]
          exact Nat.succ_lt_succ hlength

/-- The arguments are gathered in order, each as the line wants it. -/
theorem comes_gather_iff {args : List ImplicitArg} {r : Except ChatError (List Argument)} :
    (gather key args).Comes t r ↔ Gathered key args t r := by
  induction args generalizing t r with
  | nil =>
      refine comes_done_iff.trans ?_
      constructor
      · rintro ⟨rfl, rfl⟩
        exact .inl ⟨[], .nil, rfl, rfl⟩
      · rintro (⟨as, ⟨⟩, rfl, rfl⟩ | ⟨vs, e, hlength, -⟩)
        · exact ⟨rfl, rfl⟩
        · cases hlength
  | cons arg rest ih =>
      -- What is there at once goes in front of the arguments that are gathered after it.
      have hrest : ∀ {a : Argument} {t : List Deed} {r : Except ChatError (List Argument)},
          (gather key rest >>= fun as => .done (a :: as)).Comes t r ↔
            ∃ r', Gathered key rest t r' ∧ r = r'.map (a :: ·) := by
        intro a t r
        rw [comes_map_iff]
        simp only [ih]
      cases arg with
      | record =>
          refine hrest.trans (gathered_cons_iff (fun b => ?_) rfl (by simp)).symm
          cases b <;> simp [ImplicitArg.Supplies]
      | context =>
          refine hrest.trans (gathered_cons_iff (fun b => ?_) rfl (by simp)).symm
          cases b <;> simp [ImplicitArg.Supplies]
      | key =>
          refine hrest.trans (gathered_cons_iff (fun b => ?_) rfl (by simp)).symm
          cases b <;> simp [ImplicitArg.Supplies]
      | uploader =>
          rw [gathered_uploader_iff]
          refine (comes_request_bind_iff (by simp)).trans ?_
          constructor
          · rintro ⟨⟨⟩, t₁, rfl, hinput⟩
            obtain ⟨a, t', rfl, hanswer⟩ := comes_input_bind_iff.mp hinput
            refine ⟨a, t', rfl, ?_⟩
            cases a with
            | error e => exact hanswer
            | ok v => exact hrest.mp hanswer
          · rintro ⟨a, t', rfl, hanswer⟩
            refine ⟨(), _, rfl, comes_input_bind_iff.mpr ⟨a, t', rfl, ?_⟩⟩
            cases a with
            | error e => exact hanswer
            | ok v => exact hrest.mpr hanswer

/-! ## The call -/

theorem comes_invoke_iff {l : CommandLine} {r : Except ChatError Json} :
    (l.invoke key).Comes t r ↔ l.Invokes key t r := by
  rw [invoke_eq]
  refine (comes_ask_iff (by simp)).trans ?_
  constructor
  · rintro ⟨found, t', rfl, hfound⟩
    cases found with
    | false =>
        obtain ⟨rfl, rfl⟩ := comes_fail_iff.mp hfound
        exact .unknown
    | true =>
        rcases comes_bind_iff.mp hfound with ⟨e, he, rfl⟩ | ⟨t₁, args, t₂, rfl, hargs, hcall⟩
        · rcases comes_gather_iff.mp he with ⟨as, -, -, hr⟩ | ⟨vs, e, hlength, rfl, hr⟩
          · cases hr
          · cases hr
            exact .interrupted hlength
        · rcases comes_gather_iff.mp hargs with ⟨as, has, rfl, hr⟩ | ⟨vs, e, -, -, hr⟩
          · cases hr
            obtain ⟨result, t₃, rfl, hresult⟩ := (comes_ask_iff (by simp)).mp hcall
            cases result with
            | error reason =>
                obtain ⟨rfl, rfl⟩ := comes_fail_iff.mp hresult
                exact .called has
            | ok v =>
                obtain ⟨rfl, rfl⟩ := comes_done_iff.mp hresult
                exact .called has
          · cases hr
  · intro h
    cases h with
    | unknown => exact ⟨false, [], rfl, .fail _⟩
    | @interrupted vs e hlength =>
        refine ⟨true, _, rfl, comes_bind_iff.mpr (.inl ⟨.run e, ?_, rfl⟩)⟩
        exact comes_gather_iff.mpr (.inr ⟨vs, e, hlength, rfl, rfl⟩)
    | @called args result has =>
        refine ⟨true, _, rfl, comes_bind_iff.mpr (.inr ⟨_, args, _, rfl, ?_, ?_⟩)⟩
        · exact comes_gather_iff.mpr (.inl ⟨args, has, rfl, rfl⟩)
        · refine .asked (q := .call l.name args) result (by simp) ?_
          cases result with
          | error reason => exact .fail _
          | ok v => exact .done v

/-- A command that is not there fails with nothing asked for; a wait that fails is the error, and
the command is not called; and otherwise it is called once, at last, with an argument for each one
of its line. Whatever a line has done so far is the beginning of one of these. -/
theorem invoke_all_or_nothing (l : CommandLine) (key : Option String) :
    (∀ t r, (l.invoke key).Comes t r ↔ l.Invokes key t r) ∧
      ∀ t m, (l.invoke key).Leaves t m → ∃ t' r, m.Comes t' r ∧ l.Invokes key (t ++ t') r := by
  refine ⟨fun t r => comes_invoke_iff, fun t m h => ?_⟩
  obtain ⟨t', r, hm⟩ := m.exists_comes
  exact ⟨t', r, hm, comes_invoke_iff.mp (h.comes hm)⟩

end CommandLine

end Dialogue
