import AlertConsole.Proofs.History
import AlertConsole.Proofs.KeyMap
import Mathlib.Data.List.Dedup
import Mathlib.Data.Prod.Lex

/-!
# The order and the index of a history

What a fetch lists is `NewestFirst` for what the server answered: the same snapshots, the latest
time first, and those of one time in the reverse of the order in which they were answered. An index
has the last listed snapshot of each hash and nothing else (`Indexed.snapshot?_eq_some_iff`), so it
is as long as the list exactly if no hash occurs twice (`Indexed.length_eq_iff`).
-/

namespace AlertConsole

/-! ## Times -/

namespace Calendar.Instant

variable {a b c : Instant}

/-- What instants are compared by, the earliest first. -/
def rank (t : Instant) : Int ×ₗ Nat :=
  toLex (t.seconds, t.nanos)

theorem le_iff_rank_le : a.le b = true ↔ a.rank ≤ b.rank := by
  rw [rank, rank, Prod.Lex.toLex_le_toLex]
  simp [le]

theorem le_trans (hab : a.le b = true) (hbc : b.le c = true) : a.le c = true := by
  rw [le_iff_rank_le] at hab hbc ⊢
  exact hab.trans hbc

theorem le_or_le (a b : Instant) : (a.le b || b.le a) = true := by
  rw [Bool.or_eq_true, le_iff_rank_le, le_iff_rank_le]
  exact le_total a.rank b.rank

theorem le_refl (a : Instant) : a.le a = true :=
  le_iff_rank_le.2 le_rfl

end Calendar.Instant

namespace History

open Calendar (Instant)

/-! ## The list -/

/-- The list has the snapshots that were fetched, the latest time first. -/
structure NewestFirst (fetched listed : List Snapshot) : Prop where
  perm : listed.Perm fetched
  ordered : listed.Pairwise fun a b => b.time.le a.time = true
  /-- Those of one time come in the reverse of the order in which they were fetched. -/
  ties : ∀ time, listed.filter (·.time = time) = (fetched.filter (·.time = time)).reverse

/-- The snapshots from the earliest to the latest. -/
def ascending (fetched : List Snapshot) : List Snapshot :=
  fetched.mergeSort fun a b => a.time.le b.time

theorem snapshots_ofSnapshots (fetched : List Snapshot) :
    (ofSnapshots fetched).snapshots = (ascending fetched).reverse := rfl

theorem ascending_perm (fetched : List Snapshot) : (ascending fetched).Perm fetched :=
  List.mergeSort_perm _ _

theorem pairwise_ascending (fetched : List Snapshot) :
    (ascending fetched).Pairwise fun a b => a.time.le b.time = true := by
  apply List.pairwise_mergeSort
  · exact fun a b c => Instant.le_trans
  · exact fun a b => Instant.le_or_le a.time b.time

/-- Sorting keeps the order of the snapshots of one time. -/
theorem filter_ascending (fetched : List Snapshot) (time : Instant) :
    (ascending fetched).filter (·.time = time) = fetched.filter (·.time = time) := by
  have hequal : (fetched.filter (·.time = time)).Pairwise fun a b => a.time.le b.time = true := by
    refine List.pairwise_of_forall_mem_list fun a ha b hb => ?_
    have hatime : a.time = time := by simpa using (List.mem_filter.1 ha).2
    have hbtime : b.time = time := by simpa using (List.mem_filter.1 hb).2
    rw [hatime, hbtime]
    exact Instant.le_refl time
  have hsorted : (fetched.filter (·.time = time)).Sublist (ascending fetched) := by
    apply List.sublist_mergeSort
    · exact fun a b c => Instant.le_trans
    · exact fun a b => Instant.le_or_le a.time b.time
    · exact hequal
    · exact List.filter_sublist
  have hsublist := hsorted.filter (·.time = time)
  rw [List.filter_filter] at hsublist
  simp only [Bool.and_self] at hsublist
  have hlength := ((ascending_perm fetched).filter (·.time = time)).length_eq
  exact (hsublist.eq_of_length hlength.symm).symm

theorem newestFirst_ofSnapshots (fetched : List Snapshot) :
    NewestFirst fetched (ofSnapshots fetched).snapshots where
  perm := (List.reverse_perm _).trans (ascending_perm fetched)
  ordered := List.pairwise_reverse.2 (pairwise_ascending fetched)
  ties time := by
    rw [snapshots_ofSnapshots, List.filter_reverse, filter_ascending]

/-! ## The index -/

/-- The last snapshot of a list that has this hash. -/
def LastWith (hash : String) (s : Snapshot) (listed : List Snapshot) : Prop :=
  s.hash = hash ∧ ∃ before after, listed = before ++ s :: after ∧ ∀ later ∈ after, later.hash ≠ hash

section Index

variable {h : History} {hash : String} {s : Snapshot}

theorem lookup_reverse_eq_some_iff {listed : List Snapshot} :
    (listed.map fun s => (s.hash, s)).reverse.lookup hash = some s ↔ LastWith hash s listed := by
  rw [← List.map_reverse, List.lookup_eq_some_iff]
  constructor
  · rintro ⟨first, rest, hlist, hfirst⟩
    obtain ⟨later, others, hreverse, rfl, hothers⟩ := List.map_eq_append_iff.1 hlist
    obtain ⟨s', earlier, rfl, hs', -⟩ := List.map_eq_cons_iff.1 hothers
    obtain ⟨rfl, rfl⟩ := Prod.mk.inj hs'
    refine ⟨rfl, earlier.reverse, later.reverse, ?_, fun other hother => ?_⟩
    · rw [← List.reverse_reverse listed, hreverse]
      simp
    · have hne := hfirst _ (List.mem_map_of_mem (List.mem_reverse.1 hother))
      exact (bne_iff_ne.1 hne).symm
  · rintro ⟨rfl, before, after, rfl, hafter⟩
    refine ⟨after.reverse.map fun s => (s.hash, s), before.reverse.map fun s => (s.hash, s), ?_, ?_⟩
    · simp
    · intro entry hentry
      obtain ⟨later, hlater, rfl⟩ := List.mem_map.1 hentry
      exact bne_iff_ne.2 (hafter later (List.mem_reverse.1 hlater)).symm

theorem Indexed.snapshot?_eq_some_iff (hindexed : h.Indexed) :
    h.snapshot? hash = some s ↔ LastWith hash s h.snapshots := by
  rw [snapshot?, hindexed, KeyMap.get?, KeyMap.ofList, lookup_sortEntries]
  exact lookup_reverse_eq_some_iff

theorem Indexed.isSome_snapshot?_iff (hindexed : h.Indexed) :
    (h.snapshot? hash).isSome = true ↔ ∃ s ∈ h.snapshots, s.hash = hash := by
  have hnone : h.snapshot? hash = none ↔ ∀ s ∈ h.snapshots, s.hash ≠ hash := by
    rw [snapshot?, hindexed, KeyMap.get?_ofList_eq_none_iff]
    simp
  rw [Option.isSome_iff_ne_none, ne_eq, hnone]
  push Not
  rfl

theorem Indexed.length_eq_iff (hindexed : h.Indexed) :
    h.byHash.entries.length = h.snapshots.length ↔ (h.snapshots.map Snapshot.hash).Nodup := by
  have hlength := KeyMap.length_ofList_eq_iff (h.snapshots.map fun s => (s.hash, s))
  rw [← hindexed, List.length_map, List.map_map] at hlength
  exact hlength

theorem LastWith.mem {listed : List Snapshot} (hlast : LastWith hash s listed) : s ∈ listed := by
  obtain ⟨-, before, after, rfl, -⟩ := hlast
  exact List.mem_append_right before List.mem_cons_self

/-- Of the snapshots with one hash the indexed one is the earliest. -/
theorem NewestFirst.le_of_lastWith {fetched listed : List Snapshot} {s' : Snapshot}
    (hnewest : NewestFirst fetched listed) (hlast : LastWith hash s listed) (hmem : s' ∈ listed)
    (hhash : s'.hash = hash) : s.time.le s'.time = true := by
  obtain ⟨-, before, after, rfl, hafter⟩ := hlast
  have hordered := (List.pairwise_append.1 hnewest.ordered).2.2
  rcases List.mem_append.1 hmem with hbefore | hrest
  · exact hordered s' hbefore s List.mem_cons_self
  · rcases List.mem_cons.1 hrest with rfl | hlater
    · exact Instant.le_refl s'.time
    · exact absurd hhash (hafter s' hlater)

end Index

/-! ## A fetch -/

/-- A fetch that is answered with versions counts them, lists them newest first, and gives for each
hash the last one listed with it. The index is as long as the list exactly if the hashes that were
answered are distinct. -/
theorem fetched_newest_first (h : History) {body : Json} {answered : Option (List Snapshot)}
    (hbody : Decode.optional (Decode.list Snapshot.ofJson) body = .ok answered) :
    ∃ loaded : History,
      (∀ outcome h', h.fetch.Runs [⟨.call loading, .ok body⟩] (outcome, h') ↔
        outcome = .ok (answered.getD []).length ∧ h' = loaded) ∧
      NewestFirst (answered.getD []) loaded.snapshots ∧
      (∀ hash, (loaded.snapshot? hash).isSome = true ↔ ∃ s ∈ loaded.snapshots, s.hash = hash) ∧
      (∀ hash s, loaded.snapshot? hash = some s ↔ LastWith hash s loaded.snapshots) ∧
      (loaded.byHash.entries.length = loaded.snapshots.length ↔
        ((answered.getD []).map Snapshot.hash).Nodup) := by
  have hdecoded : ofJson body = .ok (ofSnapshots (answered.getD [])) := by
    rw [ofJson, hbody]
    rfl
  have hlisted : listed? (.ok body) = some (ofSnapshots (answered.getD [])) :=
    congrArg Except.toOption hdecoded
  have hindexed := indexed_of_listed? hlisted
  have hnewest := newestFirst_ofSnapshots (answered.getD [])
  refine ⟨ofSnapshots (answered.getD []), fun outcome h' => ?_, hnewest,
    fun hash => hindexed.isSome_snapshot?_iff, fun hash s => hindexed.snapshot?_eq_some_iff, ?_⟩
  · have hcount : ((Except.ok body : Except ApiError Json).bind ofJson).map
        (fun fetched => fetched.snapshots.length) = .ok (answered.getD []).length := by
      show (ofJson body).map _ = _
      rw [hdecoded, except_map_ok, hnewest.perm.length_eq]
    rw [runs_fetch_iff]
    constructor
    · rintro ⟨listed, hasked, rfl, rfl⟩
      cases hasked
      rw [hlisted]
      exact ⟨hcount, rfl⟩
    · rintro ⟨rfl, rfl⟩
      refine ⟨.ok body, rfl, hcount.symm, ?_⟩
      rw [hlisted]
      rfl
  · rw [hindexed.length_eq_iff]
    exact (hnewest.perm.map Snapshot.hash).nodup_iff

/-- Of two versions of one time the last answered comes first, and of two with one hash the earlier
is indexed. -/
theorem fetched_newest_first_with_ties :
    let a : Snapshot := ⟨"a", 0, 0⟩
    let b : Snapshot := ⟨"b", 60, 0⟩
    let b' : Snapshot := ⟨"b", 30, 0⟩
    let c : Snapshot := ⟨"c", 0, 0⟩
    ∃ loaded : History,
      empty.fetch.Runs [⟨.call loading, .ok (.array ([a, b, c, b'].map Snapshot.toJson))⟩]
        (.ok 4, loaded) ∧
      loaded.snapshots.filter (·.time = ⟨0, 0⟩) = [c, a] ∧ loaded.snapshot? "b" = some b' ∧
      loaded.byHash.entries.length ≠ loaded.snapshots.length := by
  intro a b b' c
  have hbody : Decode.optional (Decode.list Snapshot.ofJson)
      (.array ([a, b, c, b'].map Snapshot.toJson)) = .ok (some [a, b, c, b']) :=
    toOption_eq_some_iff.1 (by decide +kernel)
  obtain ⟨loaded, hruns, hnewest, hsome, hlast, hlength⟩ := fetched_newest_first empty hbody
  refine ⟨loaded, (hruns _ _).2 ⟨rfl, rfl⟩, ?_, ?_, ?_⟩
  · rw [hnewest.ties]
    decide +kernel
  · have hb' : b' ∈ loaded.snapshots := hnewest.perm.mem_iff.2 (by simp)
    obtain ⟨s, hs⟩ := Option.isSome_iff_exists.1 ((hsome "b").2 ⟨b', hb', rfl⟩)
    have hindexed := (hlast "b" s).1 hs
    have hle := hnewest.le_of_lastWith hindexed hb' rfl
    have hanswered := hnewest.perm.mem_iff.1 hindexed.mem
    have hearliest : ∀ t ∈ [a, b, c, b'], t.hash = "b" → t.time.le b'.time = true → t = b' := by
      decide
    rw [hs, hearliest s hanswered hindexed.1 hle]
  · rw [ne_eq, hlength]
    decide

end History

end AlertConsole
