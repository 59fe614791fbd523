import AlertConsole.Incident.Listing
import AlertConsole.Proofs.KeyMap
import Mathlib.Data.List.Nodup
import Mathlib.Data.Prod.Lex
import Mathlib.Data.String.Basic

/-!
# The display order

An entry comes before another if its `rank` is less, so the display order is strict, and it is total
on entries with distinct keys. A list `Displays` a map if it has one entry for each key, with the
incident of that key after its repair, in this order; there is exactly one such list
(`displays_iff_eq_order`). Taking an incident away takes its entry out of the list and leaves the
others as they are (`order_erase`).
-/

namespace AlertConsole

/-! ## Ranks -/

theorem Status.code_injective : Function.Injective Status.code := by
  intro s t h
  rw [← Option.some.injEq, ← s.ofCode_code, h, t.ofCode_code]

namespace Entry

/-- What entries are compared by, the least first. -/
def rank (e : Entry) : Int ×ₗ Int ×ₗ String :=
  toLex (-e.incident.status.code, toLex (-e.incident.time, e.key))

variable {a b c : Entry}

theorem key_eq_of_rank_eq (h : a.rank = b.rank) : a.key = b.key := by
  have hlater := congrArg (fun r => (ofLex r).2) h
  exact congrArg (fun r => (ofLex r).2) hlater

theorem before_iff_rank_lt : a.Before b ↔ a.rank < b.rank := by
  simp only [rank, Prod.Lex.toLex_lt_toLex, Before, Int.neg_lt_neg_iff, Int.neg_inj,
    Status.code_injective.eq_iff]

theorem precedes_iff_rank_le : a.precedes b = true ↔ a.rank ≤ b.rank := by
  simp only [rank, Prod.Lex.toLex_le_toLex, Int.neg_lt_neg_iff, Int.neg_inj,
    Status.code_injective.eq_iff]
  unfold precedes
  by_cases hstatus : a.incident.status = b.incident.status
  · by_cases htime : a.incident.time = b.incident.time
    · simp [hstatus, htime]
    · simp [hstatus, htime]
  · simp [hstatus]

theorem not_before_self (a : Entry) : ¬a.Before a :=
  fun h => lt_irrefl _ (before_iff_rank_lt.1 h)

theorem Before.trans (hab : a.Before b) (hbc : b.Before c) : a.Before c :=
  before_iff_rank_lt.2 ((before_iff_rank_lt.1 hab).trans (before_iff_rank_lt.1 hbc))

theorem before_or_before (h : a.key ≠ b.key) : a.Before b ∨ b.Before a := by
  rw [before_iff_rank_lt, before_iff_rank_lt]
  exact lt_or_gt_of_ne (mt key_eq_of_rank_eq h)

theorem before_of_precedes (h : a.precedes b = true) (hkey : a.key ≠ b.key) : a.Before b := by
  have hne : a.rank ≠ b.rank := mt key_eq_of_rank_eq hkey
  exact before_iff_rank_lt.2 (lt_of_le_of_ne (precedes_iff_rank_le.1 h) hne)

end Entry

/-! ## Lists in display order -/

namespace Listing

variable {incidents : KeyMap Incident} {entries : List Entry}

/-- The list shows the incidents of a map. -/
structure Displays (incidents : KeyMap Incident) (entries : List Entry) : Prop where
  /-- There is one entry for each key. -/
  keys : (entries.map Entry.key).Perm incidents.keys
  repaired : ∀ e ∈ entries, (incidents.get? e.key).map Incident.backfill = some e.incident
  ordered : entries.Pairwise Entry.Before

/-- The entries of a map, in the order of their keys. -/
def repairedEntries (incidents : KeyMap Incident) : List Entry :=
  incidents.entries.map fun (key, i) => ⟨key, i.backfill⟩

theorem map_key_repairedEntries (incidents : KeyMap Incident) :
    (repairedEntries incidents).map Entry.key = incidents.keys := by
  rw [repairedEntries, List.map_map]
  rfl

theorem mem_repairedEntries_iff {e : Entry} :
    e ∈ repairedEntries incidents ↔
      (incidents.get? e.key).map Incident.backfill = some e.incident := by
  rw [repairedEntries, List.mem_map, Option.map_eq_some_iff]
  constructor
  · rintro ⟨⟨key, i⟩, hmem, rfl⟩
    exact ⟨i, KeyMap.mem_entries_iff.1 hmem, rfl⟩
  · rintro ⟨i, hget, hincident⟩
    obtain ⟨key, incident⟩ := e
    exact ⟨(key, i), KeyMap.mem_entries_iff.2 hget, congrArg (Entry.mk key) hincident⟩

theorem order_perm (incidents : KeyMap Incident) :
    (order incidents).Perm (repairedEntries incidents) :=
  List.mergeSort_perm _ _

theorem pairwise_precedes_order (incidents : KeyMap Incident) :
    (order incidents).Pairwise fun a b => a.precedes b = true := by
  refine List.pairwise_mergeSort (fun a b c hab hbc => ?_) (fun a b => ?_) _
  · rw [Entry.precedes_iff_rank_le] at hab hbc ⊢
    exact hab.trans hbc
  · rw [Bool.or_eq_true, Entry.precedes_iff_rank_le, Entry.precedes_iff_rank_le]
    exact le_total a.rank b.rank

theorem displays_order (incidents : KeyMap Incident) : Displays incidents (order incidents) := by
  have hkeys : ((order incidents).map Entry.key).Perm incidents.keys := by
    rw [← map_key_repairedEntries]
    exact (order_perm incidents).map Entry.key
  have hdistinct : (order incidents).Pairwise fun a b => a.key ≠ b.key :=
    List.pairwise_map.1 (hkeys.nodup_iff.2 incidents.nodup_keys)
  refine ⟨hkeys, fun e he => ?_, ?_⟩
  · exact mem_repairedEntries_iff.1 ((order_perm incidents).mem_iff.1 he)
  · exact ((pairwise_precedes_order incidents).and hdistinct).imp fun h =>
      Entry.before_of_precedes h.1 h.2

theorem Displays.perm (h : Displays incidents entries) :
    entries.Perm (repairedEntries incidents) := by
  have hnodup : (entries.map Entry.key).Nodup := h.keys.nodup_iff.2 incidents.nodup_keys
  have hnodup' : ((repairedEntries incidents).map Entry.key).Nodup := by
    rw [map_key_repairedEntries]
    exact incidents.nodup_keys
  refine (List.perm_ext_iff_of_nodup (.of_map _ hnodup) (.of_map _ hnodup')).2 fun e => ?_
  refine ⟨fun he => mem_repairedEntries_iff.2 (h.repaired e he), fun he => ?_⟩
  -- The key of `e` is that of some entry of the list, which holds the same incident.
  have hkey : e.key ∈ entries.map Entry.key := by
    rw [h.keys.mem_iff, ← map_key_repairedEntries]
    exact List.mem_map_of_mem he
  obtain ⟨e', he', hkey'⟩ := List.mem_map.1 hkey
  have hincident := h.repaired e' he'
  rw [hkey', mem_repairedEntries_iff.1 he, Option.some.injEq] at hincident
  obtain ⟨key, incident⟩ := e
  obtain ⟨key', incident'⟩ := e'
  cases hkey'
  cases hincident
  exact he'

theorem Displays.unique {entries' : List Entry} (h : Displays incidents entries)
    (h' : Displays incidents entries') : entries = entries' :=
  (h.perm.trans h'.perm.symm).eq_of_pairwise
    (fun a _ _ _ hab hba => absurd (hab.trans hba) (Entry.not_before_self a)) h.ordered h'.ordered

/-- The display order is strict, it is total on entries with distinct keys, and the list in this
order is the only one that shows the incidents of a map. -/
theorem displays_iff_eq_order :
    (∀ a : Entry, ¬a.Before a) ∧
      (∀ a b c : Entry, a.Before b → b.Before c → a.Before c) ∧
      (∀ a b : Entry, a.key ≠ b.key → a.Before b ∨ b.Before a) ∧
      ∀ (incidents : KeyMap Incident) (entries : List Entry),
        Displays incidents entries ↔ entries = order incidents := by
  refine ⟨Entry.not_before_self, fun _ _ _ => Entry.Before.trans,
    fun _ _ => Entry.before_or_before, fun incidents entries => ⟨fun h => ?_, ?_⟩⟩
  · exact h.unique (displays_order incidents)
  · rintro rfl
    exact displays_order incidents

/-- With equal statuses the latest time comes first, at both ends of the range, and equal times
leave it to the keys. -/
theorem displays_iff_eq_order_at_ends :
    ∃ incidents : KeyMap Incident, (order incidents).map (fun e => (e.key, e.incident.time)) =
      [("b", Number.int64Max), ("c", Number.int64Max), ("a", Number.int64Min)] := by
  let incident : Int → Incident := fun time =>
    ⟨"disk", none, "web", Incident.zeroMetric, time, .critical, "", "", .empty⟩
  let incidents : KeyMap Incident := .ofList [("a", incident Number.int64Min),
    ("b", incident Number.int64Max), ("c", incident Number.int64Max)]
  let a : Entry := ⟨"a", incident Number.int64Min⟩
  let b : Entry := ⟨"b", incident Number.int64Max⟩
  let c : Entry := ⟨"c", incident Number.int64Max⟩
  have hbc : b.Before c := .inr ⟨rfl, .inr ⟨rfl, by decide +kernel⟩⟩
  have hba : b.Before a := .inr ⟨rfl, .inl (by decide)⟩
  have hca : c.Before a := .inr ⟨rfl, .inl (by decide)⟩
  have hdisplays : Displays incidents [b, c, a] := by
    refine ⟨by decide +kernel, fun e he => ?_, by simp [hbc, hba, hca]⟩
    simp only [List.mem_cons, List.not_mem_nil, or_false] at he
    rcases he with rfl | rfl | rfl <;> rfl
  have horder := (displays_iff_eq_order.2.2.2 incidents [b, c, a]).1 hdisplays
  exact ⟨incidents, congrArg _ horder.symm⟩

/-! ## Taking an incident away -/

theorem order_erase (incidents : KeyMap Incident) (key : String) :
    order (incidents.erase key) = (order incidents).filter (·.key != key) := by
  have hdisplays := displays_order incidents
  refine (displays_order (incidents.erase key)).unique ⟨?_, fun e he => ?_, ?_⟩
  · have hkeys : (incidents.erase key).keys = incidents.keys.filter (· != key) := by
      rw [KeyMap.keys, KeyMap.keys, List.filter_map]
      rfl
    have hmap : ((order incidents).filter (·.key != key)).map Entry.key =
        ((order incidents).map Entry.key).filter (· != key) := by
      rw [List.filter_map]
      rfl
    rw [hkeys, hmap]
    exact hdisplays.keys.filter _
  · obtain ⟨hmem, hne⟩ := List.mem_filter.1 he
    rw [KeyMap.get?_erase, if_neg (by simpa using hne)]
    exact hdisplays.repaired e hmem
  · exact hdisplays.ordered.filter _

end Listing

end AlertConsole
