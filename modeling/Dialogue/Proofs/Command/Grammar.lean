import Dialogue.Command.Line
/-!
# The grammar of command lines

A line is a command just if it consists of `cmd.`, a name, and a body in brackets, and of nothing
else. The body is cut into its maximal runs of letters; the runs that are words for arguments give
the arguments, in their order and with repetitions, and the others are passed over.

As in other places where texts are read, the way back is a relation, since a body may hold any
separators: `Runs` relates a body to its runs, and `Lists` relates arguments to the bodies that are
written from them.

* `runs_iff` — each body has one sequence of runs.
* `parse?_eq_some_iff` — what is read from a line.
* `Lists.runs` — what is written from arguments has their words for runs.
* `parse?_accepts_grammar` — the whole grammar.
-/

namespace Dialogue.CommandLine

/-! ## Names, bodies and lines -/

/-- The name of a command: letters and underscores, at least one. -/
def IsName (name : String) : Prop := name ≠ "" ∧ ∀ c ∈ name.toList, isNameChar c = true

/-- A body: lower-case letters, commas and blanks. -/
def IsBody (body : String) : Prop := ∀ c ∈ body.toList, isBodyChar c = true

/-- The line of a name and a body. -/
def written (name body : String) : String := "cmd." ++ name ++ "(" ++ body ++ ")"

/-- Commas and blanks. -/
def IsGap (gap : List Char) : Prop := ∀ c ∈ gap, isSeparator c = true

/-- Lower-case letters, at least one. -/
def IsWord (word : List Char) : Prop := word ≠ [] ∧ ∀ c ∈ word, c.isLower = true

/-- A body and its maximal runs of letters: separators may stand before each of them and at the end,
and behind a run there is a separator or the end. -/
inductive Runs : List Char → List (List Char) → Prop
  | nil {gap : List Char} : IsGap gap → Runs gap []
  | cons {gap word rest : List Char} {words : List (List Char)} :
      IsGap gap → IsWord word → (∀ c ∈ rest.head?, isSeparator c = true) → Runs rest words →
      Runs (gap ++ word ++ rest) (word :: words)

/-- Arguments, and a body that is written from them with separators between any two. -/
inductive Lists : List ImplicitArg → List Char → Prop
  | nil : Lists [] []
  | one (a : ImplicitArg) : Lists [a] a.name.toList
  | cons {a b : ImplicitArg} {args : List ImplicitArg} {gap rest : List Char} :
      IsGap gap → gap ≠ [] → Lists (b :: args) rest →
      Lists (a :: b :: args) (a.name.toList ++ gap ++ rest)

/-- The arguments that are named by words; other words are passed over. -/
def argsOfWords (words : List (List Char)) : List ImplicitArg :=
  words.filterMap fun w => ImplicitArg.ofName? (String.ofList w)

variable {c : Char} {cs gap word body rest : List Char} {words : List (List Char)}
  {args : List ImplicitArg}

/-! ## Cutting a body -/

theorem not_isSeparator_of_isLower (h : c.isLower = true) : isSeparator c = false := by
  rw [Bool.eq_false_iff]
  intro hsep
  rcases (by simpa [isSeparator] using hsep : c = ',' ∨ c = ' ') with rfl | rfl
  · exact absurd h (by decide)
  · exact absurd h (by decide)

/-- The stretches between separators are those of the library. -/
theorem split_eq_splitOnP (cs : List Char) : split cs = cs.splitOnP isSeparator := by
  induction cs with
  | nil => rfl
  | cons c cs ih =>
      rw [split, ih, List.splitOnP_cons_eq_if_modifyHead]
      cases hs : cs.splitOnP isSeparator with
      | nil => exact absurd hs (List.splitOnP_ne_nil _ _)
      | cons w ws => rfl

/-- The stretches that are not empty. -/
def wordsOf (cs : List Char) : List (List Char) := (split cs).filter fun w => !w.isEmpty

theorem wordsOf_cons_separator (h : isSeparator c = true) : wordsOf (c :: cs) = wordsOf cs := by
  rw [wordsOf, split_eq_splitOnP, List.splitOnP_cons_eq_if_modifyHead, if_pos h,
    ← split_eq_splitOnP]
  rfl

theorem wordsOf_gap (h : IsGap gap) : wordsOf (gap ++ cs) = wordsOf cs := by
  induction gap with
  | nil => rfl
  | cons c gap ih =>
      obtain ⟨hc, hgap⟩ := List.forall_mem_cons.mp h
      rw [List.cons_append, wordsOf_cons_separator hc, ih hgap]

/-- A word that ends at a separator, or at the end, is the first one. -/
theorem wordsOf_word (hw : IsWord word) (hrest : ∀ c ∈ rest.head?, isSeparator c = true) :
    wordsOf (word ++ rest) = word :: wordsOf rest := by
  obtain ⟨hne, hlower⟩ := hw
  have hletters : ∀ c ∈ word, isSeparator c = false :=
    fun c hc => not_isSeparator_of_isLower (hlower c hc)
  cases rest with
  | nil =>
      rw [List.append_nil, wordsOf, split_eq_splitOnP, List.splitOnP_eq_singleton hletters,
        List.filter_cons_of_pos (by simpa using hne)]
      rfl
  | cons c rest =>
      have hc : isSeparator c = true := hrest c rfl
      rw [wordsOf_cons_separator hc, wordsOf, split_eq_splitOnP,
        List.splitOnP_append_cons_of_forall_mem hletters c hc,
        List.filter_cons_of_pos (by simpa using hne), ← split_eq_splitOnP]
      rfl

/-- Stretches that are empty name nothing. -/
theorem argsOf_eq (body : List Char) : argsOf body = argsOfWords (wordsOf body) := by
  rw [argsOf, argsOfWords, wordsOf, List.filterMap_filter]
  congr 1
  funext w
  cases w with
  | nil => rfl
  | cons c cs => rfl

/-! ## Runs -/

theorem Runs.prepend (hgap : IsGap gap) (h : Runs body words) : Runs (gap ++ body) words := by
  have hboth : ∀ {gap' : List Char}, IsGap gap' → IsGap (gap ++ gap') :=
    fun hgap' c hc => (List.mem_append.mp hc).elim (hgap c) (hgap' c)
  cases h with
  | nil hgap' => exact .nil (hboth hgap')
  | cons hgap' hw hhead hrest =>
      rw [← List.append_assoc, ← List.append_assoc]
      exact .cons (hboth hgap') hw hhead hrest

/-- A letter in front lengthens the first run or is a run by itself. -/
theorem Runs.exists_cons_letter (hc : c.isLower = true) (h : Runs body words) :
    ∃ words', Runs (c :: body) words' := by
  have hgap : IsGap [] := fun _ h => absurd h List.not_mem_nil
  have hletter : IsWord [c] := ⟨List.cons_ne_nil _ _, by simpa using hc⟩
  -- With a separator in front the letter is a run, whatever follows.
  have halone : ∀ {s : Char} {rest : List Char}, body = s :: rest → isSeparator s = true →
      ∃ words', Runs (c :: body) words' := by
    rintro s rest rfl hs
    exact ⟨_, .cons hgap hletter (by simpa using hs) h⟩
  cases h with
  | nil hbody =>
      cases body with
      | nil => exact ⟨_, .cons hgap hletter (by simp) (.nil hgap)⟩
      | cons s rest => exact halone rfl (hbody s List.mem_cons_self)
  | @cons gap word rest words hbody hw hhead hrest =>
      cases gap with
      | nil =>
          have hlonger : IsWord (c :: word) :=
            ⟨List.cons_ne_nil _ _, List.forall_mem_cons.mpr ⟨hc, hw.2⟩⟩
          exact ⟨_, .cons hgap hlonger hhead hrest⟩
      | cons s gap => exact halone rfl (hbody s List.mem_cons_self)

theorem exists_runs (h : ∀ c ∈ body, isBodyChar c = true) : ∃ words, Runs body words := by
  induction body with
  | nil => exact ⟨[], .nil fun _ h => absurd h List.not_mem_nil⟩
  | cons c body ih =>
      obtain ⟨hc, hbody⟩ := List.forall_mem_cons.mp h
      obtain ⟨words, hruns⟩ := ih hbody
      rcases (by simpa [isBodyChar] using hc : c.isLower = true ∨ isSeparator c = true) with
        hlower | hsep
      · exact hruns.exists_cons_letter hlower
      · have hgap : IsGap [c] := by simpa [IsGap] using hsep
        exact ⟨words, hruns.prepend hgap⟩

/-- The runs of a body are found by cutting it. -/
theorem Runs.eq_wordsOf (h : Runs body words) : words = wordsOf body := by
  induction h with
  | @nil gap hgap =>
      rw [← List.append_nil gap, wordsOf_gap hgap]
      rfl
  | cons hgap hw hhead _ ih =>
      rw [List.append_assoc, wordsOf_gap hgap, wordsOf_word hw hhead, ih]

/-- A body has one sequence of maximal runs. -/
theorem runs_iff (h : ∀ c ∈ body, isBodyChar c = true) :
    Runs body words ↔ words = wordsOf body := by
  constructor
  · exact Runs.eq_wordsOf
  · rintro rfl
    obtain ⟨words, hruns⟩ := exists_runs h
    exact hruns.eq_wordsOf ▸ hruns

/-! ## Reading a line -/

theorem toList_written (name body : String) : (written name body).toList =
    'c' :: 'm' :: 'd' :: '.' :: (name.toList ++ '(' :: (body.toList ++ [')'])) := by
  simp [written, String.toList_append]

theorem afterOpening?_eq_some_iff : afterOpening? cs = some rest ↔
    cs = 'c' :: 'm' :: 'd' :: '.' :: rest := by
  unfold afterOpening?
  split
  · simp
  · next hne => simpa using fun h => hne rest h

/-- Characters are taken up to the first one that does not belong. -/
theorem takeWhile_of_stop {p : Char → Bool} (hall : ∀ c ∈ cs, p c = true) (hstop : p c = false)
    (rest : List Char) :
    (cs ++ c :: rest).takeWhile p = cs ∧ (cs ++ c :: rest).dropWhile p = c :: rest := by
  have hstop : ¬p c = true := by simp [hstop]
  constructor
  · rw [List.takeWhile_append_of_pos hall, List.takeWhile_cons_of_neg hstop, List.append_nil]
  · rw [List.dropWhile_append_of_pos hall, List.dropWhile_cons_of_neg hstop]

/-- What a line reads as, character by character. -/
theorem parseChars?_eq_some_iff {l : CommandLine} : parseChars? cs = some l ↔
    ∃ name body : List Char, name ≠ [] ∧ (∀ c ∈ name, isNameChar c = true) ∧
      (∀ c ∈ body, isBodyChar c = true) ∧
      cs = 'c' :: 'm' :: 'd' :: '.' :: (name ++ '(' :: (body ++ [')'])) ∧
      l = ⟨String.ofList name, argsOf body⟩ := by
  constructor
  · intro h
    obtain ⟨rest, hopening, h⟩ := Option.bind_eq_some_iff.mp h
    rw [afterOpening?_eq_some_iff] at hopening
    dsimp only at h
    split at h
    · cases h
    next hname =>
    -- The name and the body are what is taken; they are followed by what is left.
    have hsplit := List.takeWhile_append_dropWhile (p := isNameChar) (l := rest)
    split at h
    · next inner hinner =>
      have hsplit' := List.takeWhile_append_dropWhile (p := isBodyChar) (l := inner)
      split at h
      · next hclosing =>
        rw [hinner] at hsplit
        rw [hclosing] at hsplit'
        refine ⟨rest.takeWhile isNameChar, inner.takeWhile isBodyChar, by simpa using hname,
          fun c hc => List.all_eq_true.mp List.all_takeWhile c hc,
          fun c hc => List.all_eq_true.mp List.all_takeWhile c hc, ?_, (Option.some.inj h).symm⟩
        rw [hsplit', hsplit, hopening]
      · cases h
    · cases h
  · rintro ⟨name, body, hne, hname, hbody, rfl, rfl⟩
    have hopening : isNameChar '(' = false := by decide
    have hclosing : isBodyChar ')' = false := by decide
    obtain ⟨htaken, hleft⟩ := takeWhile_of_stop hname hopening (body ++ [')'])
    obtain ⟨htaken', hleft'⟩ := takeWhile_of_stop hbody hclosing []
    have hsome : name.isEmpty = false := by simpa using hne
    simp only [parseChars?, afterOpening?, Option.bind_eq_bind, Option.bind_some, htaken, hleft,
      htaken', hleft', hsome, Bool.false_eq_true, if_false]

/-- A line reads as a command just if it is the line of its name and of a body that has the
arguments. -/
theorem parse?_eq_some_iff {line : String} {l : CommandLine} : parse? line = some l ↔
    ∃ body, IsName l.name ∧ IsBody body ∧ line = written l.name body ∧
      l.args = argsOf body.toList := by
  rw [parse?, parseChars?_eq_some_iff]
  constructor
  · rintro ⟨name, body, hne, hname, hbody, hline, rfl⟩
    refine ⟨String.ofList body, ⟨?_, by simpa using hname⟩, by simpa [IsBody] using hbody, ?_,
      by simp⟩
    · simpa using hne
    · rw [← String.toList_inj, hline, toList_written]
      simp
  · rintro ⟨body, ⟨hne, hname⟩, hbody, rfl, hargs⟩
    refine ⟨l.name.toList, body.toList, by simpa using hne, hname, hbody, toList_written _ _, ?_⟩
    rw [String.ofList_toList, ← hargs]

/-! ## Writing arguments -/

theorem isWord_name (a : ImplicitArg) : IsWord a.name.toList := by
  cases a <;> exact ⟨by decide, List.all_eq_true.mp (by decide)⟩

theorem ofName?_name (a : ImplicitArg) : ImplicitArg.ofName? a.name = some a := by
  cases a <;> decide

theorem argsOfWords_names (args : List ImplicitArg) :
    argsOfWords (args.map fun a => a.name.toList) = args := by
  induction args with
  | nil => rfl
  | cons a args ih =>
      rw [List.map_cons, argsOfWords, List.filterMap_cons_some (b := a) ?_, ← argsOfWords, ih]
      rw [String.ofList_toList, ofName?_name]

/-- The runs of what is written from arguments are their words. -/
theorem Lists.runs (h : Lists args body) : Runs body (args.map fun a => a.name.toList) := by
  have hnil : IsGap [] := fun _ h => absurd h List.not_mem_nil
  induction h with
  | nil => exact .nil hnil
  | one a =>
      rw [← List.append_nil a.name.toList]
      exact .cons hnil (isWord_name a) (by simp) (.nil hnil)
  | @cons a b args gap rest hgap hne _ ih =>
      rw [List.append_assoc]
      refine .cons hnil (isWord_name a) ?_ (ih.prepend hgap)
      cases gap with
      | nil => exact absurd rfl hne
      | cons c gap => simpa using hgap c List.mem_cons_self

theorem Runs.isBody (h : Runs body words) : ∀ c ∈ body, isBodyChar c = true := by
  have hsep : ∀ {gap : List Char}, IsGap gap → ∀ c ∈ gap, isBodyChar c = true :=
    fun hgap c hc => by simp [isBodyChar, hgap c hc]
  induction h with
  | nil hgap => exact hsep hgap
  | cons hgap hw _ _ ih =>
      intro c hc
      rcases List.mem_append.mp hc with hc | hc
      · rcases List.mem_append.mp hc with hc | hc
        · exact hsep hgap c hc
        · simp [isBodyChar, hw.2 c hc]
      · exact ih c hc

/-! ## The grammar -/

/-- A line is a command just if the whole of it is that of a name and a body. The command then has
the name, and for arguments the runs of the body that are words for one; there is one way to cut the
body into runs. What is written from a name and arguments, with separators between any two of them,
is read back. -/
theorem parse?_accepts_grammar :
    (∀ line, (parse? line).isSome ↔
      ∃ name body, IsName name ∧ IsBody body ∧ line = written name body) ∧
    (∀ name body, IsName name → IsBody body → ∃ words, (∀ ws, Runs body.toList ws ↔ ws = words) ∧
      parse? (written name body) = some ⟨name, argsOfWords words⟩) ∧
    ∀ name args body, IsName name → Lists args body →
      parse? (written name (String.ofList body)) = some ⟨name, args⟩ := by
  have hread : ∀ {name body : String}, IsName name → IsBody body →
      parse? (written name body) = some ⟨name, argsOfWords (wordsOf body.toList)⟩ :=
    fun hname hbody => parse?_eq_some_iff.mpr ⟨_, hname, hbody, rfl, (argsOf_eq _).symm⟩
  refine ⟨fun line => ⟨fun h => ?_, ?_⟩, fun name body hname hbody => ?_,
    fun name args body hname hlists => ?_⟩
  · obtain ⟨l, hl⟩ := Option.isSome_iff_exists.mp h
    obtain ⟨body, hname, hbody, hline, -⟩ := parse?_eq_some_iff.mp hl
    exact ⟨l.name, body, hname, hbody, hline⟩
  · rintro ⟨name, body, hname, hbody, rfl⟩
    rw [hread hname hbody]
    rfl
  · exact ⟨wordsOf body.toList, fun ws => runs_iff hbody, hread hname hbody⟩
  · have hbody : IsBody (String.ofList body) := by
      unfold IsBody
      rw [String.toList_ofList]
      exact hlists.runs.isBody
    rw [hread hname hbody, String.toList_ofList, ← hlists.runs.eq_wordsOf, argsOfWords_names]

/-- A command with two arguments, and with separators that are mixed. -/
theorem parse?_accepts_grammar_save :
    IsName "save" ∧ Lists [.record, .key] ("record".toList ++ [' ', ','] ++ "key".toList) ∧
      parse? "cmd.save(record ,key)" = some ⟨"save", [.record, .key]⟩ := by
  have hname : IsName "save" := by simp [IsName]; decide
  have hgap : IsGap [' ', ','] := by simp [IsGap, isSeparator]
  have hlists : Lists [.record, .key] ("record".toList ++ [' ', ','] ++ "key".toList) :=
    .cons hgap (List.cons_ne_nil _ _) (.one .key)
  have hparse := parse?_accepts_grammar.2.2 "save" _ _ hname hlists
  exact ⟨hname, hlists, hparse⟩

end Dialogue.CommandLine
