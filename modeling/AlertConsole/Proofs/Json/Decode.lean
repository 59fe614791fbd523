import AlertConsole.Json.Decode
import AlertConsole.Proofs.Json.Canonical
import AlertConsole.Proofs.Outcome

/-!
# Decoding what was encoded

Two laws about objects. A map is decoded entry by entry and fails with any of its entries
(`map_isOk_iff`, `get?_of_map`); the fault is that of the least key whose entry fails
(`map_object_eq_error_iff`). In a flattened object the free fields stand beside the named members,
and the free fields win: a named member is read back if no free field has its name
(`lookup_flattened`), and the free fields are read back if none of them is named like a member
(`remaining_flattened`, `get?_remaining`).
-/

namespace AlertConsole

namespace Decode

variable {α : Type}

/-! ## Scalars -/

theorem string_isOk_iff {v : Json} : (∃ s, string v = .ok s) ↔ ∃ s, v = .string s := by
  cases v <;> simp [string]

theorem eq_string {v : Json} {s : String} (h : string v = .ok s) : v = .string s := by
  cases v <;> cases h
  rfl

theorem number_isOk_iff {v : Json} :
    (∃ x, number v = .ok x) ↔ (∃ n, v = .int n) ∨ ∃ x, v = .float x := by
  cases v <;> simp [number]

theorem int64_eq_ok_iff {v : Json} {n : Int} :
    int64 v = .ok n ↔ v = .int n ∧ Number.int64Min ≤ n ∧ n ≤ Number.int64Max := by
  rw [int64]
  cases v with
  | int m =>
    rw [intBetween, Json.int.injEq]
    by_cases hm : Number.int64Min ≤ m ∧ m ≤ Number.int64Max
    · rw [if_pos hm, Except.ok.injEq]
      constructor
      · rintro rfl
        exact ⟨rfl, hm⟩
      · exact And.left
    · rw [if_neg hm]
      constructor
      · exact fun h => nomatch h
      · rintro ⟨rfl, h⟩
        exact absurd h hm
  | _ => simp [intBetween]

/-! ## Maps -/

theorem entry_eq_ok_iff (decode : Json → Decoded α) (m : String × Json) (r : String × α) :
    entry decode m = .ok r ↔ m.1 = r.1 ∧ decode m.2 = .ok r.2 := by
  obtain ⟨key, a⟩ := r
  unfold entry
  rcases decode m.2 with e | b <;> simp

theorem keys_of_mapM_entry {decode : Json → Decoded α} {ms : List (String × Json)}
    {rs : List (String × α)} (h : ms.mapM (entry decode) = .ok rs) :
    rs.map (·.1) = ms.map (·.1) := by
  rw [mapM_eq_ok_iff] at h
  induction h with
  | nil => rfl
  | cons hm _ ih =>
    rw [entry_eq_ok_iff] at hm
    rw [List.map_cons, List.map_cons, ih, hm.1]

theorem lookup_of_mapM_entry {decode : Json → Decoded α} {ms : List (String × Json)}
    {rs : List (String × α)} (h : ms.mapM (entry decode) = .ok rs) (k : String) :
    rs.lookup k = (ms.lookup k).bind fun v => (decode v).toOption := by
  rw [mapM_eq_ok_iff] at h
  induction h with
  | nil => rfl
  | cons hm _ ih =>
    rw [entry_eq_ok_iff] at hm
    rw [lookup_cons_eq_ite, lookup_cons_eq_ite, ih, hm.1]
    split_ifs
    · rw [Option.bind_some, hm.2]
      rfl
    · rfl

theorem mapM_entry_isOk_iff {decode : Json → Decoded α} {ms : List (String × Json)} :
    (∃ rs, ms.mapM (entry decode) = .ok rs) ↔ ∀ m ∈ ms, ∃ a, decode m.2 = .ok a := by
  simp only [mapM_eq_ok_iff]
  induction ms with
  | nil => simp
  | cons m rest ih =>
    simp only [List.forall_mem_cons, ← ih, List.forall₂_cons_left_iff, entry_eq_ok_iff]
    constructor
    · rintro ⟨_, r, rs, ⟨-, ha⟩, hrest, -⟩
      exact ⟨⟨r.2, ha⟩, rs, hrest⟩
    · rintro ⟨⟨a, ha⟩, rs, hrest⟩
      exact ⟨_, (m.1, a), rs, ⟨rfl, ha⟩, hrest, rfl⟩

theorem map_object (decode : Json → Decoded α) (ms : List (String × Json)) :
    map decode (.object ms) = (ms.mapM (entry decode)).map KeyMap.ofList := rfl

/-- The decoded entries ascend as the members do, so they are the entries of the decoded map. -/
theorem map_object_eq_ok_iff {decode : Json → Decoded α} {m : KeyMap Json} {r : KeyMap α} :
    map decode (.object m.entries) = .ok r ↔ m.entries.mapM (entry decode) = .ok r.entries := by
  rw [map_object]
  rcases h : m.entries.mapM (entry decode) with e | rs
  · simp
  · have hascending : Ascending rs := by
      have hkeys := List.pairwise_map.2 m.ascending
      rw [← keys_of_mapM_entry h] at hkeys
      exact List.pairwise_map.1 hkeys
    have hentries : (KeyMap.ofList rs).entries = rs := sortEntries_eq_self hascending
    rw [except_map_ok, Except.ok.injEq, Except.ok.injEq]
    constructor
    · rintro rfl
      exact hentries.symm
    · intro hr
      exact KeyMap.ext (hentries.trans hr)

theorem map_isOk_iff_object {decode : Json → Decoded α} {v : Json} :
    (∃ r, map decode v = .ok r) ↔
      ∃ members, v = .object members ∧ ∀ m ∈ members, ∃ a, decode m.2 = .ok a := by
  cases v with
  | object members =>
    simp only [map_object, map_eq_ok_iff, ← mapM_entry_isOk_iff, Json.object.injEq,
      exists_eq_left']
    exact ⟨fun ⟨_, rs, hrs, _⟩ => ⟨rs, hrs⟩, fun ⟨rs, hrs⟩ => ⟨_, rs, hrs, rfl⟩⟩
  | _ => simp [map]

theorem map_isOk_iff {decode : Json → Decoded α} {m : KeyMap Json} :
    (∃ r, map decode (.object m.entries) = .ok r) ↔ ∀ e ∈ m.entries, ∃ a, decode e.2 = .ok a := by
  simp only [map_isOk_iff_object, Json.object.injEq, exists_eq_left']

/-- A map fails with the least of its keys whose value fails. -/
theorem map_object_eq_error_iff {decode : Json → Decoded α} {m : KeyMap Json}
    {cause : DecodeError} :
    map decode (.object m.entries) = .error cause ↔ ∃ key v, m.get? key = some v ∧
      decode v = .error cause ∧
      ∀ smaller w, smaller < key → m.get? smaller = some w → ∃ a, decode w = .ok a := by
  have hentry : ∀ e : String × Json, entry decode e = .error cause ↔ decode e.2 = .error cause :=
    fun e => map_eq_error_iff
  have hisOk : ∀ e : String × Json, (∃ r, entry decode e = .ok r) ↔ ∃ a, decode e.2 = .ok a :=
    fun e => ⟨fun ⟨r, hr⟩ => ⟨r.2, ((entry_eq_ok_iff _ _ _).1 hr).2⟩,
      fun ⟨a, ha⟩ => ⟨(e.1, a), (entry_eq_ok_iff _ _ _).2 ⟨rfl, ha⟩⟩⟩
  simp only [map_object, map_eq_error_iff, mapM_eq_error_iff, hentry, hisOk]
  constructor
  · rintro ⟨before, e, after, hentries, hbefore, he⟩
    have hmem : e ∈ m.entries := hentries ▸ by simp
    refine ⟨e.1, e.2, KeyMap.mem_entries_iff.1 hmem, he, fun smaller w hlt hw => ?_⟩
    exact hbefore (smaller, w)
      ((KeyMap.mem_before_iff hentries).2 ⟨KeyMap.mem_entries_iff.2 hw, hlt⟩)
  · rintro ⟨key, v, hget, hv, hsmaller⟩
    obtain ⟨before, after, hentries⟩ := List.append_of_mem (KeyMap.mem_entries_iff.2 hget)
    refine ⟨before, (key, v), after, hentries, fun e he => ?_, hv⟩
    obtain ⟨hmem, hlt⟩ := (KeyMap.mem_before_iff hentries).1 he
    exact hsmaller e.1 e.2 hlt (KeyMap.mem_entries_iff.1 hmem)

theorem get?_of_map {decode : Json → Decoded α} {m : KeyMap Json} {r : KeyMap α}
    (h : map decode (.object m.entries) = .ok r) (k : String) :
    r.get? k = (m.get? k).bind fun v => (decode v).toOption :=
  lookup_of_mapM_entry (map_object_eq_ok_iff.1 h) k

/-- Where all other entries can be decoded, an entry counts by itself. -/
theorem map_insert_iff {decode : Json → Decoded α} {m : KeyMap Json} {key : String} {v : Json}
    {a : α} (hothers : ∀ e ∈ m.entries, e.1 ≠ key → ∃ b, decode e.2 = .ok b) :
    (∃ r, map decode (.object (m.insert key v).entries) = .ok r ∧ r.get? key = some a) ↔
      decode v = .ok a := by
  have hget : ∀ r, map decode (.object (m.insert key v).entries) = .ok r →
      r.get? key = (decode v).toOption := by
    intro r hr
    rw [get?_of_map hr, KeyMap.get?_insert, if_pos rfl, Option.bind_some]
  constructor
  · rintro ⟨r, hr, ha⟩
    rwa [hget r hr, toOption_eq_some_iff] at ha
  · intro ha
    obtain ⟨r, hr⟩ : ∃ r, map decode (.object (m.insert key v).entries) = .ok r := by
      refine map_isOk_iff.2 fun e he => ?_
      rcases KeyMap.mem_insert he with rfl | ⟨he, hkey⟩
      · exact ⟨a, ha⟩
      · exact hothers e he hkey
    exact ⟨r, hr, by rw [hget r hr, ha]; rfl⟩

/-- Every value of a decoded map was decoded from the value of a member. -/
theorem exists_of_mem_of_map {decode : Json → Decoded α} {members : List (String × Json)}
    {r : KeyMap α} (h : map decode (.object members) = .ok r) {e : String × α}
    (he : e ∈ r.entries) : ∃ m ∈ members, decode m.2 = .ok e.2 := by
  rw [map_object, map_eq_ok_iff] at h
  obtain ⟨rs, hrs, rfl⟩ := h
  obtain ⟨m, hm, hentry⟩ := exists_of_mem_of_mapM hrs (mem_of_mem_sortEntries he)
  exact ⟨m, hm, ((entry_eq_ok_iff decode m e).1 hentry).2⟩

theorem map_erase {decode : Json → Decoded α} {m : KeyMap Json} {r : KeyMap α}
    (h : map decode (.object m.entries) = .ok r) (key : String) :
    map decode (.object (m.erase key).entries) = .ok (r.erase key) := by
  rw [map_object_eq_ok_iff, mapM_eq_ok_iff] at h ⊢
  refine List.rel_filter (fun {e e'} he => ?_) h
  have hkey : e.1 = e'.1 := ((entry_eq_ok_iff _ _ _).1 he).1
  show (e.1 != key) = true ↔ (e'.1 != key) = true
  rw [hkey]

theorem map_ofMap {decode : Json → Decoded α} {encode : α → Json} {m : KeyMap α}
    (h : ∀ e ∈ m.entries, decode (encode e.2) = .ok e.2) :
    map decode (Json.ofMap encode m) = .ok m := by
  rw [Json.ofMap_eq_object, map_object_eq_ok_iff, mapM_eq_ok_iff]
  show List.Forall₂ _ (m.entries.map fun e => (e.1, encode e.2)) _
  rw [List.forall₂_map_left_iff, List.forall₂_same]
  intro e he
  exact (entry_eq_ok_iff _ _ _).2 ⟨rfl, h e he⟩

/-! ## Records -/

theorem memberD_eq (ms : List (String × Json)) (key : String) (decode : Json → Decoded α)
    (default : α) : memberD ms key decode default = (ms.lookup key).elim (.ok default) decode := by
  unfold memberD member?
  rcases ms.lookup key with _ | v
  · rfl
  · rcases h : decode v with e | a <;> simp [h]

/-- A member with a default is decoded exactly if it is, or is not there. -/
theorem memberD_isOk_iff {ms : List (String × Json)} {key : String} {decode : Json → Decoded α}
    {default : α} : (∃ a, memberD ms key decode default = .ok a) ↔
      ∀ v, ms.lookup key = some v → ∃ a, decode v = .ok a := by
  rw [memberD_eq]
  rcases ms.lookup key with _ | v <;> simp

theorem required_member_isOk_iff {ms : List (String × Json)} {key : String}
    {decode : Json → Decoded α} :
    (∃ a?, member? ms key decode = .ok a? ∧ ∃ a, required key a? = .ok a) ↔
      ∃ v, ms.lookup key = some v ∧ ∃ a, decode v = .ok a := by
  rw [member?]
  rcases ms.lookup key with _ | v
  · simp [required]
  · rcases hv : decode v with e | a <;> simp [required, hv]

theorem member?_eq_ok_some_iff {ms : List (String × Json)} {key : String}
    {decode : Json → Decoded α} {a : α} :
    member? ms key decode = .ok (some a) ↔ ∃ v, ms.lookup key = some v ∧ decode v = .ok a := by
  rw [member?]
  rcases ms.lookup key with _ | v
  · simp
  · rcases hv : decode v with e | b <;> simp [hv]

theorem objectRecord_eq_ok_iff {name : String} {ofMembers : List (String × Json) → Decoded α}
    {v : Json} {a : α} :
    objectRecord name ofMembers v = .ok a ↔ ∃ ms, v = .object ms ∧ ofMembers ms = .ok a := by
  cases v <;> simp [objectRecord]

theorem itemD_eq (items : List Json) (index : Nat) (decode : Json → Decoded α) (default : α) :
    itemD items index decode default = (items[index]?).elim (.ok default) decode := by
  unfold itemD
  cases items[index]? <;> rfl

theorem item_eq_ok_iff {name : String} {fields index : Nat} {items : List Json}
    {decode : Json → Decoded α} {a : α} :
    item name fields items index decode = .ok a ↔
      ∃ v, items[index]? = some v ∧ decode v = .ok a := by
  unfold item
  rcases items[index]? with _ | v <;> simp

theorem optional_of_ne_null (decode : Json → Decoded α) {v : Json} (h : v ≠ .null) :
    optional decode v = (decode v).map some := by
  unfold optional
  split
  · exact absurd rfl h
  · rfl

theorem optional_isOk_iff {decode : Json → Decoded α} {v : Json} :
    (∃ r, optional decode v = .ok r) ↔ v = .null ∨ ∃ a, decode v = .ok a := by
  by_cases hnull : v = .null
  · subst hnull
    simp [optional]
  · rw [optional_of_ne_null decode hnull]
    simp [hnull, map_eq_ok_iff]

theorem eq_ok_of_optional {decode : Json → Decoded α} {v : Json} {a : α}
    (h : optional decode v = .ok (some a)) : decode v = .ok a := by
  unfold optional at h
  split at h
  · cases h
  · obtain ⟨b, hb, hsome⟩ := map_eq_ok_iff.1 h
    cases hsome
    exact hb

/-- A member that is left out when there is no value is read back exactly if its value is. -/
theorem memberD_optional_eq_ok_iff {decode : Json → Decoded α} {encode : α → Json}
    {ms : List (String × Json)} {key : String} {s : Option α}
    (hlookup : ms.lookup key = s.map encode) (hnull : ∀ a, encode a ≠ .null) :
    memberD ms key (optional decode) none = .ok s ↔ ∀ a, s = some a → decode (encode a) = .ok a := by
  rw [memberD_eq, hlookup]
  rcases s with _ | a
  · simp
  · rw [Option.map_some, Option.elim_some, optional_of_ne_null _ (hnull a)]
    simp only [Option.some.injEq, forall_eq']
    rcases decode (encode a) with e | b <;> simp

theorem uint32_eq_ok_iff {v : Json} {n : Nat} :
    uint32 v = .ok n ↔ v = .int n ∧ (n : Int) ≤ Number.uint32Max := by
  rw [uint32, map_eq_ok_iff]
  cases v with
  | int m =>
    rw [intBetween, Json.int.injEq]
    by_cases hm : 0 ≤ m ∧ m ≤ Number.uint32Max
    · rw [if_pos hm]
      constructor
      · rintro ⟨m', hm', rfl⟩
        obtain rfl := Except.ok.inj hm'
        rw [Int.toNat_of_nonneg hm.1]
        exact ⟨rfl, hm.2⟩
      · rintro ⟨rfl, -⟩
        exact ⟨n, rfl, (Int.toNat_natCast n).symm⟩
    · rw [if_neg hm]
      constructor
      · rintro ⟨m', hm', -⟩
        cases hm'
      · rintro ⟨rfl, hn⟩
        exact absurd ⟨Int.natCast_nonneg n, hn⟩ hm
  | _ => simp [intBetween]

theorem uint32_natCast {n : Nat} (h : (n : Int) ≤ Number.uint32Max) : uint32 (.int n) = .ok n :=
  uint32_eq_ok_iff.2 ⟨rfl, h⟩

theorem le_of_memberD_uint32 {ms : List (String × Json)} {key : String} {n : Nat}
    (h : memberD ms key uint32 0 = .ok n) : (n : Int) ≤ Number.uint32Max := by
  rw [memberD_eq] at h
  rcases hlookup : ms.lookup key with _ | v
  · rw [hlookup] at h
    cases h
    decide
  · rw [hlookup] at h
    exact (uint32_eq_ok_iff.1 h).2

/-! ## Flattened objects -/

theorem lookup_reverse_of_ascending {entries : List (String × α)} (h : Ascending entries)
    (k : String) : entries.reverse.lookup k = entries.lookup k := by
  rw [← lookup_sortEntries, sortEntries_eq_self h]

theorem lookup_flattened (named : List (String × Json)) (fields : KeyMap Json) (k : String) :
    (sortEntries (named ++ fields.entries)).lookup k =
      (fields.get? k).or (named.reverse.lookup k) := by
  rw [lookup_sortEntries, List.reverse_append, List.lookup_append,
    lookup_reverse_of_ascending fields.ascending]
  rfl

theorem get?_remaining {keys : List String} {k : String} (h : k ∈ keys)
    (ms : List (String × Json)) : (remaining keys ms).get? k = none := by
  have hlookup := lookup_sortEntries k (ms.filter fun m => !keys.contains m.1)
  refine hlookup.trans (List.lookup_eq_none_iff.2 fun m hm => ?_)
  rw [List.mem_reverse, List.mem_filter] at hm
  have hkeep : m.1 ∉ keys := by simpa using hm.2
  have hne : k ≠ m.1 := fun hk => hkeep (hk ▸ h)
  simpa using hne

theorem get?_remaining_of_not_mem {keys : List String} {ms : List (String × Json)}
    (hms : Ascending ms) {k : String} (h : k ∉ keys) : (remaining keys ms).get? k = ms.lookup k := by
  have hentries : (remaining keys ms).entries = ms.filter fun m => !keys.contains m.1 :=
    sortEntries_eq_self (hms.filter _)
  rw [KeyMap.get?, hentries, lookup_filter (fun key => !keys.contains key)]
  simp [h]

theorem remaining_flattened {keys : List String} {named : List (String × Json)}
    {fields : KeyMap Json} (hnamed : ∀ m ∈ named, m.1 ∈ keys)
    (hfields : ∀ k ∈ keys, fields.get? k = none) :
    remaining keys (sortEntries (named ++ fields.entries)) = fields := by
  have hdrop : named.filter (fun m => !keys.contains m.1) = [] := by
    rw [List.filter_eq_nil_iff]
    intro m hm
    simpa using hnamed m hm
  have hkeep : fields.entries.filter (fun m => !keys.contains m.1) = fields.entries := by
    rw [List.filter_eq_self]
    intro m hm
    have hne : ∀ k ∈ keys, k ≠ m.1 := fun k hk => by
      simpa using List.lookup_eq_none_iff.1 (hfields k hk) m hm
    simpa using fun hk => hne m.1 hk rfl
  apply KeyMap.ext
  calc (remaining keys (sortEntries (named ++ fields.entries))).entries
      = sortEntries (sortEntries ((named ++ fields.entries).filter fun m =>
          !keys.contains m.1)) :=
        congrArg sortEntries (filter_sortEntries (fun k => !keys.contains k) _)
    _ = sortEntries (sortEntries fields.entries) := by
        rw [List.filter_append, hdrop, hkeep, List.nil_append]
    _ = fields.entries := by
        rw [sortEntries_eq_self fields.ascending, sortEntries_eq_self fields.ascending]

end Decode

end AlertConsole
