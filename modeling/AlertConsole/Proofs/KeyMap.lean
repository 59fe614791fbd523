import AlertConsole.KeyMap
import Mathlib.Data.List.Dedup
import Mathlib.Data.List.Induction
import Mathlib.Data.List.Perm.Subperm
import Mathlib.Data.String.Basic

/-!
# Looking up in sorted entries

Sorting keeps, for each key, the value that was given last (`lookup_sortEntries`), leaves entries
alone that ascend already (`sortEntries_eq_self`), and commutes with a choice of entries by their
keys (`filter_sortEntries`). A map can be made of its entries in any order
(`KeyMap.ofList_of_perm`).
-/

namespace AlertConsole

variable {α : Type}

/-! ## One entry -/

theorem lookup_cons_eq_ite (k key : String) (value : α) (entries : List (String × α)) :
    ((key, value) :: entries).lookup k = if k = key then some value else entries.lookup k := by
  by_cases hk : k = key
  · simp [hk]
  · simp [List.lookup_cons, beq_false_of_ne hk, hk]

theorem insertEntry_cons_of_lt {key k : String} (h : key < k) (value v : α)
    (rest : List (String × α)) :
    insertEntry key value ((k, v) :: rest) = (key, value) :: (k, v) :: rest := by
  rw [insertEntry, if_pos h]

theorem insertEntry_cons_self (key : String) (value v : α) (rest : List (String × α)) :
    insertEntry key value ((key, v) :: rest) = (key, value) :: rest := by
  rw [insertEntry, if_neg (lt_irrefl key), if_pos rfl]

theorem insertEntry_cons_of_gt {key k : String} (h : k < key) (value v : α)
    (rest : List (String × α)) :
    insertEntry key value ((k, v) :: rest) = (k, v) :: insertEntry key value rest := by
  rw [insertEntry, if_neg (lt_asymm h), if_neg (ne_of_gt h)]

theorem lookup_insertEntry (key k : String) (value : α) (entries : List (String × α)) :
    (insertEntry key value entries).lookup k =
      if k = key then some value else entries.lookup k := by
  induction entries with
  | nil => exact lookup_cons_eq_ite k key value []
  | cons e rest ih =>
    obtain ⟨k', v⟩ := e
    rcases lt_trichotomy key k' with hlt | rfl | hgt
    · rw [insertEntry_cons_of_lt hlt, lookup_cons_eq_ite]
    · rw [insertEntry_cons_self, lookup_cons_eq_ite, lookup_cons_eq_ite]
      by_cases hk : k = key <;> simp [hk]
    · rw [insertEntry_cons_of_gt hgt, lookup_cons_eq_ite, lookup_cons_eq_ite, ih]
      by_cases hk : k = key
      · simp [hk, ne_of_gt hgt]
      · simp [hk]

theorem insertEntry_of_forall_lt {key : String} (value : α) {entries : List (String × α)}
    (h : ∀ e ∈ entries, e.1 < key) : insertEntry key value entries = entries ++ [(key, value)] := by
  induction entries with
  | nil => rfl
  | cons e rest ih =>
    rw [insertEntry_cons_of_gt (h e List.mem_cons_self),
      ih fun e he => h e (List.mem_cons_of_mem _ he), List.cons_append]

theorem insertEntry_of_lt_forall {key : String} (value : α) {entries : List (String × α)}
    (h : ∀ e ∈ entries, key < e.1) : insertEntry key value entries = (key, value) :: entries := by
  cases entries with
  | nil => rfl
  | cons e rest => rw [insertEntry_cons_of_lt (h e List.mem_cons_self)]

theorem filter_insertEntry (p : String → Bool) (key : String) (value : α)
    {entries : List (String × α)} (h : Ascending entries) :
    (insertEntry key value entries).filter (fun e => p e.1) =
      if p key then insertEntry key value (entries.filter fun e => p e.1)
      else entries.filter fun e => p e.1 := by
  induction entries with
  | nil => by_cases hp : p key <;> simp [insertEntry, hp]
  | cons e rest ih =>
    obtain ⟨k, v⟩ := e
    obtain ⟨hk, hrest⟩ := List.pairwise_cons.1 h
    rcases lt_trichotomy key k with hlt | rfl | hgt
    · have hbelow : ∀ e ∈ ((k, v) :: rest).filter (fun e => p e.1), key < e.1 := by
        intro e he
        rcases List.mem_cons.1 (List.mem_of_mem_filter he) with rfl | he
        · exact hlt
        · exact hlt.trans (hk e he)
      rw [insertEntry_cons_of_lt hlt, insertEntry_of_lt_forall value hbelow]
      by_cases hp : p key <;> simp [hp]
    · rw [insertEntry_cons_self]
      by_cases hp : p key <;> simp [hp, insertEntry_cons_self]
    · rw [insertEntry_cons_of_gt hgt]
      by_cases hpk : p k <;> by_cases hp : p key <;>
        simp [hpk, hp, ih hrest, insertEntry_cons_of_gt hgt]

/-! ## Sorting -/

theorem sortEntries_concat (entries : List (String × α)) (key : String) (value : α) :
    sortEntries (entries ++ [(key, value)]) = insertEntry key value (sortEntries entries) := by
  simp [sortEntries]

theorem lookup_sortEntries (k : String) (entries : List (String × α)) :
    (sortEntries entries).lookup k = entries.reverse.lookup k := by
  induction entries using List.reverseRecOn with
  | nil => rfl
  | append_singleton entries e ih =>
    obtain ⟨key, value⟩ := e
    rw [sortEntries_concat, lookup_insertEntry, ih, List.reverse_concat, lookup_cons_eq_ite]

theorem mem_of_mem_sortEntries {entries : List (String × α)} {entry : String × α}
    (h : entry ∈ sortEntries entries) : entry ∈ entries := by
  induction entries using List.reverseRecOn with
  | nil => exact h
  | append_singleton entries e ih =>
    obtain ⟨key, value⟩ := e
    rw [sortEntries_concat] at h
    rw [List.mem_append, List.mem_singleton]
    exact (mem_insertEntry h).symm.imp_left ih

theorem sortEntries_eq_self {entries : List (String × α)} (h : Ascending entries) :
    sortEntries entries = entries := by
  induction entries using List.reverseRecOn with
  | nil => rfl
  | append_singleton entries e ih =>
    obtain ⟨key, value⟩ := e
    obtain ⟨hinit, -, hlast⟩ := List.pairwise_append.1 h
    rw [sortEntries_concat, ih hinit,
      insertEntry_of_forall_lt value fun e he => hlast e he _ List.mem_cons_self]

theorem filter_sortEntries (p : String → Bool) (entries : List (String × α)) :
    (sortEntries entries).filter (fun e => p e.1) =
      sortEntries (entries.filter fun e => p e.1) := by
  induction entries using List.reverseRecOn with
  | nil => rfl
  | append_singleton entries e ih =>
    obtain ⟨key, value⟩ := e
    rw [sortEntries_concat, filter_insertEntry p key value (ascending_sortEntries entries), ih,
      List.filter_append]
    by_cases hp : p key <;> simp [hp, sortEntries_concat]

/-! ## Maps -/

theorem lookup_of_mem {entries : List (String × α)} (h : Ascending entries) {e : String × α}
    (he : e ∈ entries) : entries.lookup e.1 = some e.2 := by
  induction entries with
  | nil => cases he
  | cons first rest ih =>
    obtain ⟨hfirst, hrest⟩ := List.pairwise_cons.1 h
    rw [lookup_cons_eq_ite]
    rcases List.mem_cons.1 he with rfl | he
    · rw [if_pos rfl]
    · rw [if_neg (ne_of_gt (hfirst e he)), ih hrest he]

theorem mem_of_lookup {entries : List (String × α)} {key : String} {value : α}
    (h : entries.lookup key = some value) : (key, value) ∈ entries := by
  obtain ⟨before, after, rfl, -⟩ := List.lookup_eq_some_iff.1 h
  exact List.mem_append_right before List.mem_cons_self

theorem KeyMap.mem_entries_iff {m : KeyMap α} {key : String} {value : α} :
    (key, value) ∈ m.entries ↔ m.get? key = some value :=
  ⟨fun h => lookup_of_mem m.ascending h, mem_of_lookup⟩

/-- The entries before an entry are those with less keys. -/
theorem KeyMap.mem_before_iff {m : KeyMap α} {before after : List (String × α)} {e : String × α}
    (h : m.entries = before ++ e :: after) {other : String × α} :
    other ∈ before ↔ other ∈ m.entries ∧ other.1 < e.1 := by
  have hascending := m.ascending
  rw [h] at hascending
  obtain ⟨-, hafter, hbefore⟩ := List.pairwise_append.1 hascending
  rw [h, List.mem_append, List.mem_cons]
  constructor
  · exact fun hmem => ⟨.inl hmem, hbefore other hmem e List.mem_cons_self⟩
  · rintro ⟨hmem | rfl | hmem, hlt⟩
    · exact hmem
    · exact absurd hlt (lt_irrefl _)
    · exact absurd hlt (lt_asymm ((List.pairwise_cons.1 hafter).1 other hmem))

theorem KeyMap.get?_insert (m : KeyMap α) (key k : String) (value : α) :
    (m.insert key value).get? k = if k = key then some value else m.get? k :=
  lookup_insertEntry key k value m.entries

theorem lookup_filter (p : String → Bool) (k : String) (entries : List (String × α)) :
    (entries.filter fun e => p e.1).lookup k = if p k then entries.lookup k else none := by
  induction entries with
  | nil => simp
  | cons e rest ih =>
    obtain ⟨k', v⟩ := e
    rw [List.filter_cons, lookup_cons_eq_ite]
    by_cases hp : p k' = true
    · rw [if_pos hp, lookup_cons_eq_ite, ih]
      by_cases hk : k = k'
      · simp [hk, hp]
      · simp [hk]
    · rw [if_neg hp, ih]
      by_cases hk : k = k'
      · simp [hk, hp]
      · simp [hk]

theorem KeyMap.get?_erase (m : KeyMap α) (key k : String) :
    (m.erase key).get? k = if k = key then none else m.get? k := by
  have hlookup := lookup_filter (· != key) k m.entries
  rw [KeyMap.get?, KeyMap.erase, hlookup]
  by_cases hk : k = key <;> simp [hk, KeyMap.get?]

/-- An entry of the map after an insertion is the new one, or one from before with another key. -/
theorem KeyMap.mem_insert {m : KeyMap α} {key : String} {value : α} {e : String × α}
    (he : e ∈ (m.insert key value).entries) :
    e = (key, value) ∨ e ∈ m.entries ∧ e.1 ≠ key := by
  have hlookup := lookup_of_mem (m.insert key value).ascending he
  have hget := m.get?_insert key e.1 value
  rw [KeyMap.get?, hlookup] at hget
  by_cases hkey : e.1 = key
  · rw [if_pos hkey, Option.some.injEq] at hget
    exact .inl (Prod.ext hkey hget)
  · refine (mem_insertEntry he).imp_right fun hmem => ⟨hmem, hkey⟩

theorem KeyMap.get?_ofList_eq_none_iff (entries : List (String × α)) (k : String) :
    (KeyMap.ofList entries).get? k = none ↔ ∀ e ∈ entries, e.1 ≠ k := by
  rw [KeyMap.get?, KeyMap.ofList, lookup_sortEntries, List.lookup_eq_none_iff]
  simp only [List.mem_reverse, bne_iff_ne, ne_comm]

theorem KeyMap.nodup_keys (m : KeyMap α) : m.keys.Nodup :=
  List.pairwise_map.2 (m.ascending.imp fun h => ne_of_lt h)

/-- A map of a list has each key of the list once. -/
theorem KeyMap.keys_ofList_perm (entries : List (String × α)) :
    (KeyMap.ofList entries).keys.Perm (entries.map (·.1)).dedup := by
  have hnodup := (KeyMap.ofList entries).nodup_keys
  refine (List.perm_ext_iff_of_nodup hnodup (List.nodup_dedup _)).2 fun key => ?_
  rw [List.mem_dedup, KeyMap.keys]
  constructor
  · intro hkey
    obtain ⟨e, he, rfl⟩ := List.mem_map.1 hkey
    exact List.mem_map_of_mem (mem_of_mem_sortEntries he)
  · intro hkey
    have hsome : (KeyMap.ofList entries).get? key ≠ none := by
      rw [ne_eq, KeyMap.get?_ofList_eq_none_iff]
      intro hnone
      obtain ⟨e, he, rfl⟩ := List.mem_map.1 hkey
      exact hnone e he rfl
    obtain ⟨value, hvalue⟩ := Option.ne_none_iff_exists'.1 hsome
    exact List.mem_map_of_mem (KeyMap.mem_entries_iff.2 hvalue)

/-- A map is as long as the list it was made of exactly if no key comes twice. -/
theorem KeyMap.length_ofList_eq_iff (entries : List (String × α)) :
    (KeyMap.ofList entries).entries.length = entries.length ↔ (entries.map (·.1)).Nodup := by
  have hlength := (KeyMap.keys_ofList_perm entries).length_eq
  rw [KeyMap.keys, List.length_map] at hlength
  have hdedup := (List.dedup_sublist (entries.map (·.1))).length_eq
  rw [List.length_map] at hdedup
  rw [hlength, ← List.dedup_eq_self]
  exact hdedup

theorem sortEntries_perm {entries : List (String × α)} (h : (entries.map (·.1)).Nodup) :
    (sortEntries entries).Perm entries := by
  have hnodup : (sortEntries entries).Nodup := .of_map _ (KeyMap.ofList entries).nodup_keys
  have hsubperm := hnodup.subperm fun _ => mem_of_mem_sortEntries
  exact hsubperm.perm_of_length_le ((KeyMap.length_ofList_eq_iff entries).2 h).ge

/-- A map is made of its entries in any order. -/
theorem KeyMap.ofList_of_perm {m : KeyMap α} {entries : List (String × α)}
    (h : entries.Perm m.entries) : KeyMap.ofList entries = m := by
  have hnodup : (entries.map (·.1)).Nodup := (h.map _).nodup_iff.2 m.nodup_keys
  apply KeyMap.ext
  exact ((sortEntries_perm hnodup).trans h).eq_of_pairwise
    (fun _ _ _ _ hab hba => absurd hab (lt_asymm hba)) (ascending_sortEntries entries) m.ascending

theorem Ascending.mapValues {β : Type} {entries : List (String × α)} (h : Ascending entries)
    (f : α → β) : Ascending (entries.map fun e => (e.1, f e.2)) := by
  unfold Ascending
  rwa [List.pairwise_map]

/-- The map with every value changed by `f`. -/
def KeyMap.mapValues {β : Type} (f : α → β) (m : KeyMap α) : KeyMap β :=
  ⟨m.entries.map fun e => (e.1, f e.2), m.ascending.mapValues f⟩

theorem KeyMap.get?_mapValues {β : Type} (f : α → β) (m : KeyMap α) (k : String) :
    (m.mapValues f).get? k = (m.get? k).map f := by
  show (m.entries.map fun e => (e.1, f e.2)).lookup k = (m.entries.lookup k).map f
  induction m.entries with
  | nil => rfl
  | cons e rest ih =>
    rw [List.map_cons, lookup_cons_eq_ite, lookup_cons_eq_ite, ih]
    split <;> rfl

theorem KeyMap.entries_mapValues {β : Type} (f : α → β) (m : KeyMap α) :
    (m.mapValues f).entries = m.entries.map fun e => (e.1, f e.2) := rfl

end AlertConsole
