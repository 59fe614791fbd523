import AlertConsole.Json.Reader
import AlertConsole.Proofs.KeyMap

/-!
# Canonical values

A value is canonical if the members of each object in it ascend by their keys
(`canonical_object_eq_self_iff`, `canonical_array_eq_self_iff`). Every value that is read from a text
is (`canonical_of_ofText?`).
-/

namespace AlertConsole.Json

variable {ms : List (String × Json)} {items : List Json}

/-! ## Objects -/

theorem canonical_object (ms : List (String × Json)) :
    (Json.object ms).canonical = .object (sortEntries (canonicalMembers ms)) := by
  rw [canonical]

theorem canonical_object_ne_null (ms : List (String × Json)) :
    (Json.object ms).canonical ≠ .null := by
  rw [canonical_object]
  exact Json.noConfusion

theorem canonical_string (s : String) : (Json.string s).canonical = .string s := by
  rw [canonical] <;> simp

theorem canonicalMembers_eq_map (ms : List (String × Json)) :
    canonicalMembers ms = ms.map fun m => (m.1, m.2.canonical) := by
  induction ms with
  | nil => rfl
  | cons m ms ih => rw [canonicalMembers, ih, List.map_cons]

theorem canonicalMembers_append (ms ns : List (String × Json)) :
    canonicalMembers (ms ++ ns) = canonicalMembers ms ++ canonicalMembers ns := by
  simp only [canonicalMembers_eq_map, List.map_append]

theorem canonicalMembers_eq_self (h : ∀ m ∈ ms, m.2.canonical = m.2) :
    canonicalMembers ms = ms := by
  induction ms with
  | nil => rfl
  | cons m ms ih =>
    rw [canonicalMembers, h m List.mem_cons_self, ih fun n hn => h n (List.mem_cons_of_mem _ hn)]

theorem canonical_object_eq_self_iff :
    (Json.object ms).canonical = .object ms ↔ Ascending ms ∧ ∀ m ∈ ms, m.2.canonical = m.2 := by
  rw [canonical_object, Json.object.injEq]
  constructor
  · intro h
    have hascending : Ascending ms := h ▸ ascending_sortEntries (canonicalMembers ms)
    rw [canonicalMembers_eq_map, sortEntries_eq_self (hascending.mapValues canonical)] at h
    refine ⟨hascending, fun m hm => ?_⟩
    have hsame := List.map_inj_left.1 (h.trans (List.map_id ms).symm) m hm
    exact congrArg Prod.snd hsame
  · rintro ⟨hascending, hvalues⟩
    rw [canonicalMembers_eq_self hvalues, sortEntries_eq_self hascending]

/-! ## Arrays -/

theorem canonical_array (items : List Json) :
    (Json.array items).canonical = .array (canonicalItems items) := by
  rw [canonical]

theorem canonicalItems_eq_map (items : List Json) :
    canonicalItems items = items.map canonical := by
  induction items with
  | nil => rfl
  | cons v rest ih => rw [canonicalItems, ih, List.map_cons]

theorem canonical_array_eq_self_iff :
    (Json.array items).canonical = .array items ↔ ∀ v ∈ items, v.canonical = v := by
  rw [canonical_array, canonicalItems_eq_map, Json.array.injEq]
  constructor
  · intro h
    exact fun v hv => List.map_inj_left.1 (h.trans (List.map_id items).symm) v hv
  · intro h
    exact (List.map_congr_left h).trans (List.map_id items)

/-! ## Maps -/

theorem ofMap_eq_object {α : Type} (encode : α → Json) (m : KeyMap α) :
    ofMap encode m = .object (m.mapValues encode).entries := rfl

theorem canonical_ofMap_eq {α : Type} (encode : α → Json) (m : KeyMap α) :
    (ofMap encode m).canonical = ofMap (fun a => (encode a).canonical) m := by
  have hmembers : canonicalMembers (m.mapValues encode).entries =
      (m.mapValues fun a => (encode a).canonical).entries := by
    rw [canonicalMembers_eq_map]
    exact List.map_map
  rw [ofMap_eq_object, canonical_object, hmembers, sortEntries_eq_self (KeyMap.ascending _)]
  rfl

theorem canonical_ofMap {α : Type} {encode : α → Json} {m : KeyMap α}
    (h : ∀ e ∈ m.entries, (encode e.2).canonical = encode e.2) :
    (ofMap encode m).canonical = ofMap encode m := by
  rw [canonical_ofMap_eq, ofMap, ofMap, Json.object.injEq]
  exact List.map_congr_left fun e he => Prod.ext rfl (h e he)

/-- Members of a flattened object whose values are canonical. -/
theorem canonical_flattened (named : List (String × Json)) {fields : KeyMap Json}
    (hnamed : ∀ m ∈ named, m.2.canonical = m.2)
    (hfields : ∀ m ∈ fields.entries, m.2.canonical = m.2) :
    (Json.object (named ++ fields.entries)).canonical =
      .object (sortEntries (named ++ fields.entries)) := by
  rw [canonical_object, canonicalMembers_append, canonicalMembers_eq_self hnamed,
    canonicalMembers_eq_self hfields]

/-! ## Values that are read -/

mutual

theorem canonical_of_toJson? {depth : Nat} {s : Spelling} {v : Json}
    (h : s.toJson? depth = some v) : v.canonical = v := by
  cases s with
  | null =>
    cases h
    rfl
  | bool b =>
    cases h
    rfl
  | number n =>
    rw [Spelling.toJson?, NumberSpelling.toJson?] at h
    split at h
    · cases h
      rfl
    · obtain ⟨x, -, rfl⟩ := Option.map_eq_some_iff.1 h
      rfl
  | string pieces =>
    obtain ⟨text, -, rfl⟩ := Option.map_eq_some_iff.1 h
    exact canonical_string text
  | array items =>
    rcases depth with _ | depth
    · cases h
    · obtain ⟨vs, hvs, rfl⟩ := Option.map_eq_some_iff.1 h
      exact canonical_array_eq_self_iff.2 (canonical_of_itemsToJson? hvs)
  | object members =>
    rcases depth with _ | depth
    · cases h
    · obtain ⟨ms, hms, rfl⟩ := Option.map_eq_some_iff.1 h
      refine canonical_object_eq_self_iff.2 ⟨ascending_sortEntries ms, fun m hm => ?_⟩
      exact canonical_of_membersToJson? hms m (mem_of_mem_sortEntries hm)

theorem canonical_of_itemsToJson? {depth : Nat} {items : List Spelling} {vs : List Json}
    (h : itemsToJson? depth items = some vs) : ∀ v ∈ vs, v.canonical = v := by
  cases items with
  | nil =>
    cases h
    exact fun v hv => nomatch hv
  | cons item rest =>
    obtain ⟨first, hfirst, h⟩ := Option.bind_eq_some_iff.1 h
    obtain ⟨others, hothers, h⟩ := Option.bind_eq_some_iff.1 h
    cases h
    exact List.forall_mem_cons.2
      ⟨canonical_of_toJson? hfirst, canonical_of_itemsToJson? hothers⟩

theorem canonical_of_membersToJson? {depth : Nat} {members : List (List Piece × Spelling)}
    {ms : List (String × Json)} (h : membersToJson? depth members = some ms) :
    ∀ m ∈ ms, m.2.canonical = m.2 := by
  cases members with
  | nil =>
    cases h
    exact fun m hm => nomatch hm
  | cons member rest =>
    obtain ⟨key, hkey, h⟩ := Option.bind_eq_some_iff.1 h
    obtain ⟨first, hfirst, h⟩ := Option.bind_eq_some_iff.1 h
    obtain ⟨others, hothers, h⟩ := Option.bind_eq_some_iff.1 h
    cases h
    exact List.forall_mem_cons.2
      ⟨canonical_of_toJson? hfirst, canonical_of_membersToJson? hothers⟩

end

theorem canonical_of_ofText? {text : String} {v : Json} (h : ofText? text = some v) :
    v.canonical = v := by
  obtain ⟨s, -, hs⟩ := Option.bind_eq_some_iff.1 h
  exact canonical_of_toJson? hs

end AlertConsole.Json
