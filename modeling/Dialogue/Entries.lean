/-!
# Entries sorted by name

Objects, records and command tables are lists of entries sorted by name, each name once.
`Entries.insert` keeps them so, and `Entries.get?` looks a name up.
-/

namespace Dialogue.Entries

variable {α : Type}

/-- Enters a value under a name, in place of an earlier one of that name. -/
def insert (name : String) (value : α) : List (String × α) → List (String × α)
  | [] => [(name, value)]
  | (n, v) :: rest =>
    if name < n then (name, value) :: (n, v) :: rest
    else if name = n then (name, value) :: rest
    else (n, v) :: insert name value rest

/-- The given entries, sorted; of two with one name the later counts. -/
def ofList (entries : List (String × α)) : List (String × α) :=
  entries.foldl (fun acc e => insert e.1 e.2 acc) []

/-- The value under a name. -/
def get? (name : String) (entries : List (String × α)) : Option α :=
  (entries.find? (·.1 = name)).map (·.2)

/-- What was entered under a name is found there, and nothing else has changed. -/
theorem get?_insert (name key : String) (value : α) (entries : List (String × α)) :
    get? key (insert name value entries) = if name = key then some value else get? key entries := by
  induction entries with
  | nil => by_cases h : name = key <;> simp [insert, get?, h]
  | cons e rest ih =>
    obtain ⟨n, v⟩ := e
    simp only [get?] at ih
    by_cases hk : name = key
    · subst hk
      by_cases hn : n = name
      · subst hn
        simp [insert, get?]
      · have hn' : ¬ name = n := fun h => hn h.symm
        simp only [insert, hn', if_false]
        split
        · simp [get?]
        · simpa [get?, List.find?_cons, hn] using ih
    · simp only [insert]
      split
      · simp [get?, List.find?_cons, hk]
      · split
        · next heq => subst heq; simp [get?, hk]
        · by_cases hn : n = key
          · simp [get?, hn]
          · simpa [get?, List.find?_cons, hn, hk] using ih

end Dialogue.Entries
