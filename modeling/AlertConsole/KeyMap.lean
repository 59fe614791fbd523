/-!
# Maps with sorted keys

A `KeyMap α` holds entries in strictly ascending order of their keys, so two maps with the same
entries are equal. `insertEntry` is the operation on plain lists; `KeyMap.insert` and
`KeyMap.ofList` keep the last value given for a key.
-/

namespace AlertConsole

/-! ## Sorted association lists -/

/-- Puts an entry at its place, over an entry of the same key. -/
def insertEntry {α : Type} (key : String) (value : α) : List (String × α) → List (String × α)
  | [] => [(key, value)]
  | (k, v) :: rest =>
    if key < k then (key, value) :: (k, v) :: rest
    else if key = k then (key, value) :: rest
    else (k, v) :: insertEntry key value rest

/-- The entries sorted by key, the last one of each key. -/
def sortEntries {α : Type} (entries : List (String × α)) : List (String × α) :=
  entries.foldl (fun sorted (key, value) => insertEntry key value sorted) []

/-- The keys ascend strictly. -/
def Ascending {α : Type} (entries : List (String × α)) : Prop :=
  entries.Pairwise fun a b => a.1 < b.1

section Lemmas

variable {α : Type}

theorem mem_insertEntry {key : String} {value : α} {entries : List (String × α)}
    {entry : String × α} (h : entry ∈ insertEntry key value entries) :
    entry = (key, value) ∨ entry ∈ entries := by
  induction entries with
  | nil => simpa [insertEntry] using h
  | cons e rest ih =>
    unfold insertEntry at h
    split at h
    · simpa using h
    · split at h
      · rcases List.mem_cons.1 h with h | h
        · exact .inl h
        · exact .inr (List.mem_cons_of_mem _ h)
      · rcases List.mem_cons.1 h with h | h
        · exact .inr (h ▸ List.mem_cons_self)
        · exact (ih h).imp_right (List.mem_cons_of_mem _)

theorem Ascending.insertEntry {key : String} {value : α} {entries : List (String × α)}
    (h : Ascending entries) : Ascending (insertEntry key value entries) := by
  induction entries with
  | nil => simp [AlertConsole.insertEntry, Ascending]
  | cons e rest ih =>
    obtain ⟨k, v⟩ := e
    obtain ⟨hk, hrest⟩ := List.pairwise_cons.1 h
    unfold AlertConsole.insertEntry
    split
    · next hlt =>
      refine List.pairwise_cons.2 ⟨fun b hb => ?_, h⟩
      rcases List.mem_cons.1 hb with rfl | hb
      · exact hlt
      · exact String.lt_trans hlt (hk b hb)
    · next hge =>
      split
      · next heq => subst heq; exact List.pairwise_cons.2 ⟨hk, hrest⟩
      · next hne =>
        refine List.pairwise_cons.2 ⟨fun b hb => ?_, ih hrest⟩
        rcases mem_insertEntry hb with rfl | hb
        · rcases String.le_total k key with hle | hle
          · exact Decidable.byContradiction fun hn =>
              hne (String.le_antisymm (String.not_lt.1 hn) hle)
          · exact absurd (String.le_antisymm (String.not_lt.1 hge) hle).symm hne
        · exact hk b hb

theorem ascending_foldl_insertEntry (entries sorted : List (String × α)) (h : Ascending sorted) :
    Ascending (entries.foldl (fun acc (key, value) => insertEntry key value acc) sorted) := by
  induction entries generalizing sorted with
  | nil => exact h
  | cons e rest ih => exact ih _ h.insertEntry

theorem ascending_sortEntries (entries : List (String × α)) : Ascending (sortEntries entries) :=
  ascending_foldl_insertEntry entries [] List.Pairwise.nil

end Lemmas

/-! ## Maps -/

/-- Entries in strictly ascending order of keys. -/
structure KeyMap (α : Type) where
  entries : List (String × α)
  ascending : Ascending entries

namespace KeyMap

variable {α : Type}

@[ext] theorem ext {m n : KeyMap α} (h : m.entries = n.entries) : m = n := by
  cases m; cases n; cases h; rfl

def empty : KeyMap α :=
  ⟨[], List.Pairwise.nil⟩

instance : Inhabited (KeyMap α) := ⟨empty⟩

def isEmpty (m : KeyMap α) : Bool :=
  m.entries.isEmpty

def insert (m : KeyMap α) (key : String) (value : α) : KeyMap α :=
  ⟨insertEntry key value m.entries, m.ascending.insertEntry⟩

def erase (m : KeyMap α) (key : String) : KeyMap α :=
  ⟨m.entries.filter (·.1 != key), m.ascending.filter _⟩

/-- The map of a list of entries; of several with one key the last counts. -/
def ofList (entries : List (String × α)) : KeyMap α :=
  ⟨sortEntries entries, ascending_sortEntries entries⟩

def get? (m : KeyMap α) (key : String) : Option α :=
  m.entries.lookup key

def keys (m : KeyMap α) : List String :=
  m.entries.map (·.1)

end KeyMap

end AlertConsole
