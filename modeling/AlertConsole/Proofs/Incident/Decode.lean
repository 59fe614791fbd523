import AlertConsole.Proofs.Incident.Order
import AlertConsole.Proofs.Json.Decode

/-!
# Decoding incidents

An object is decoded as an incident exactly if its members are `Acceptable`
(`Incident.isOk_iff_acceptable`), and members with other names do not count
(`Incident.ofJson_object_congr`). A list of incidents is decoded as a whole or not at all: each
member by itself, and if some of them fail, with the error of the one whose key is least
(`Listing.decoded_member_by_member`).
-/

namespace AlertConsole

/-! ## One incident -/

namespace Incident

variable {ms ns : List (String × Json)}

/-- The members of an incident. -/
def memberNames : List String :=
  ["service", "sub_service", "host", "metric", "time", "status", "policy", "escalation", "tags"]

/-- There is a time and a status, and whatever else is there has its form. -/
structure Acceptable (ms : List (String × Json)) : Prop where
  time : ∃ n, ms.lookup "time" = some (.int n) ∧ Number.int64Min ≤ n ∧ n ≤ Number.int64Max
  status : ∃ n, ms.lookup "status" = some (.int n) ∧ (n = 0 ∨ n = 1 ∨ n = 2)
  metric : ∀ v, ms.lookup "metric" = some v → (∃ n, v = .int n) ∨ ∃ x, v = .float x
  text : ∀ key ∈ ["service", "host", "policy", "escalation"], ∀ v, ms.lookup key = some v →
    ∃ s, v = .string s
  subService : ∀ v, ms.lookup "sub_service" = some v → v = .null ∨ ∃ s, v = .string s
  /-- Servers without tags give `null`. -/
  tags : ∀ v, ms.lookup "tags" = some v →
    v = .null ∨ ∃ tags, v = .object tags ∧ ∀ tag ∈ tags, ∃ s, tag.2 = .string s

theorem decodeStatus_isOk_iff {v : Json} :
    (∃ status, decodeStatus v = .ok status) ↔ ∃ n, v = .int n ∧ (n = 0 ∨ n = 1 ∨ n = 2) := by
  simp only [decodeStatus, bind_eq_ok_iff, Decode.int64_eq_ok_iff]
  constructor
  · rintro ⟨status, n, ⟨rfl, -, -⟩, h⟩
    refine ⟨n, rfl, ?_⟩
    rcases hcode : Status.ofCode? n with _ | known
    · rw [hcode] at h
      cases h
    · rw [← Status.code_of_ofCode hcode]
      cases known <;> simp [Status.code]
  · rintro ⟨n, rfl, hn⟩
    have hrange : Number.int64Min ≤ n ∧ n ≤ Number.int64Max := by
      rw [Number.int64Min, Number.int64Max]
      omega
    obtain ⟨status, hcode⟩ : ∃ status, Status.ofCode? n = some status := by
      rcases hn with rfl | rfl | rfl <;> exact ⟨_, rfl⟩
    exact ⟨status, n, ⟨rfl, hrange⟩, by rw [hcode]; rfl⟩

theorem decodeTags_isOk_iff {v : Json} :
    (∃ tags, decodeTags v = .ok tags) ↔
      v = .null ∨ ∃ tags, v = .object tags ∧ ∀ tag ∈ tags, ∃ s, tag.2 = .string s := by
  have hoptional : (∃ tags, decodeTags v = .ok tags) ↔
      ∃ tags, Decode.optional (Decode.map Decode.string) v = .ok tags := by
    simp only [decodeTags, map_eq_ok_iff]
    exact ⟨fun ⟨_, tags, htags, _⟩ => ⟨tags, htags⟩, fun ⟨tags, htags⟩ => ⟨_, tags, htags, rfl⟩⟩
  simp only [hoptional, Decode.optional_isOk_iff, Decode.map_isOk_iff_object,
    Decode.string_isOk_iff]

/-! ### Members -/

theorem text_isOk_iff {key : String} :
    (∃ s, Decode.memberD ms key Decode.string "" = .ok s) ↔
      ∀ v, ms.lookup key = some v → ∃ s, v = .string s := by
  simp only [Decode.memberD_isOk_iff, Decode.string_isOk_iff]

theorem metric_isOk_iff :
    (∃ x, Decode.memberD ms "metric" Decode.number zeroMetric = .ok x) ↔
      ∀ v, ms.lookup "metric" = some v → (∃ n, v = .int n) ∨ ∃ x, v = .float x := by
  simp only [Decode.memberD_isOk_iff, Decode.number_isOk_iff]

theorem subService_isOk_iff :
    (∃ s, Decode.memberD ms "sub_service" (Decode.optional Decode.string) none = .ok s) ↔
      ∀ v, ms.lookup "sub_service" = some v → v = .null ∨ ∃ s, v = .string s := by
  simp only [Decode.memberD_isOk_iff, Decode.optional_isOk_iff, Decode.string_isOk_iff]

theorem tags_isOk_iff :
    (∃ tags, Decode.memberD ms "tags" decodeTags .empty = .ok tags) ↔
      ∀ v, ms.lookup "tags" = some v →
        v = .null ∨ ∃ tags, v = .object tags ∧ ∀ tag ∈ tags, ∃ s, tag.2 = .string s := by
  simp only [Decode.memberD_isOk_iff, decodeTags_isOk_iff]

theorem time_isOk_iff :
    (∃ time?, Decode.member? ms "time" Decode.int64 = .ok time? ∧
        ∃ time, Decode.required "time" time? = .ok time) ↔
      ∃ n, ms.lookup "time" = some (.int n) ∧ Number.int64Min ≤ n ∧ n ≤ Number.int64Max := by
  simp only [Decode.required_member_isOk_iff, Decode.int64_eq_ok_iff]
  constructor
  · rintro ⟨v, hv, n, rfl, hrange⟩
    exact ⟨n, hv, hrange⟩
  · rintro ⟨n, hv, hrange⟩
    exact ⟨_, hv, n, rfl, hrange⟩

theorem status_isOk_iff :
    (∃ status?, Decode.member? ms "status" decodeStatus = .ok status? ∧
        ∃ status, Decode.required "status" status? = .ok status) ↔
      ∃ n, ms.lookup "status" = some (.int n) ∧ (n = 0 ∨ n = 1 ∨ n = 2) := by
  simp only [Decode.required_member_isOk_iff, decodeStatus_isOk_iff]
  constructor
  · rintro ⟨v, hv, n, rfl, hn⟩
    exact ⟨n, hv, hn⟩
  · rintro ⟨n, hv, hn⟩
    exact ⟨_, hv, n, rfl, hn⟩

theorem isOk_iff_acceptable : (∃ i, ofJson (.object ms) = .ok i) ↔ Acceptable ms := by
  show (∃ i, ofMembers ms = .ok i) ↔ _
  simp only [ofMembers, bind_eq_ok_iff, pure_eq_ok_iff]
  -- No member is read in the light of another, so each is settled by its own lemma.
  constructor
  · rintro ⟨i, escalation, hescalation, host, hhost, metric, hmetric, policy, hpolicy, service,
      hservice, status?, hstatus?, subService, hsub, tags, htags, time?, htime?, time, htime,
      status, hstatus, -⟩
    refine ⟨time_isOk_iff.1 ⟨time?, htime?, time, htime⟩,
      status_isOk_iff.1 ⟨status?, hstatus?, status, hstatus⟩, metric_isOk_iff.1 ⟨metric, hmetric⟩,
      ?_, subService_isOk_iff.1 ⟨subService, hsub⟩, tags_isOk_iff.1 ⟨tags, htags⟩⟩
    simp only [List.forall_mem_cons, List.not_mem_nil, false_imp_iff, implies_true, and_true]
    exact ⟨text_isOk_iff.1 ⟨service, hservice⟩, text_isOk_iff.1 ⟨host, hhost⟩,
      text_isOk_iff.1 ⟨policy, hpolicy⟩, text_isOk_iff.1 ⟨escalation, hescalation⟩⟩
  · intro h
    obtain ⟨service, hservice⟩ := text_isOk_iff.2 (h.text "service" (by simp))
    obtain ⟨host, hhost⟩ := text_isOk_iff.2 (h.text "host" (by simp))
    obtain ⟨policy, hpolicy⟩ := text_isOk_iff.2 (h.text "policy" (by simp))
    obtain ⟨escalation, hescalation⟩ := text_isOk_iff.2 (h.text "escalation" (by simp))
    obtain ⟨metric, hmetric⟩ := metric_isOk_iff.2 h.metric
    obtain ⟨subService, hsub⟩ := subService_isOk_iff.2 h.subService
    obtain ⟨tags, htags⟩ := tags_isOk_iff.2 h.tags
    obtain ⟨time?, htime?, time, htime⟩ := time_isOk_iff.2 h.time
    obtain ⟨status?, hstatus?, status, hstatus⟩ := status_isOk_iff.2 h.status
    exact ⟨_, escalation, hescalation, host, hhost, metric, hmetric, policy, hpolicy, service,
      hservice, status?, hstatus?, subService, hsub, tags, htags, time?, htime?, time, htime,
      status, hstatus, rfl⟩

/-- Members with other names do not count. -/
theorem ofJson_object_congr (h : ∀ key ∈ memberNames, ms.lookup key = ns.lookup key) :
    ofJson (.object ms) = ofJson (.object ns) := by
  show ofMembers ms = ofMembers ns
  simp only [memberNames, List.forall_mem_cons] at h
  obtain ⟨hservice, hsub, hhost, hmetric, htime, hstatus, hpolicy, hescalation, htags, -⟩ := h
  simp only [ofMembers, Decode.memberD, Decode.member?, hservice, hsub, hhost, hmetric, htime,
    hstatus, hpolicy, hescalation, htags]

end Incident

/-! ## The list -/

namespace Listing

variable {body : Json} {entries : List Entry} {error : ApiError}

theorem optional_object (members : List (String × Json)) :
    Decode.optional (Decode.map Incident.ofJson) (.object members) =
      (Decode.map Incident.ofJson (.object members)).map some :=
  rfl

theorem ofJson_eq_ok_iff : ofJson body = .ok entries ↔
    ∃ incidents, Decode.optional (Decode.map Incident.ofJson) body = .ok incidents ∧
      order (incidents.getD .empty) = entries := by
  rw [ofJson]
  rcases Decode.optional (Decode.map Incident.ofJson) body with cause | incidents <;>
    simp [Decoded.toApi, Except.mapError]

theorem ofJson_eq_error_iff : ofJson body = .error error ↔
    ∃ cause, Decode.optional (Decode.map Incident.ofJson) body = .error cause ∧
      error = .malformed (.undecodable cause) := by
  rw [ofJson]
  rcases Decode.optional (Decode.map Incident.ofJson) body with cause | incidents <;>
    simp [Decoded.toApi, Except.mapError, eq_comm]

theorem ofJson_object {members : List (String × Json)} {incidents : KeyMap Incident}
    (h : Decode.map Incident.ofJson (.object members) = .ok incidents) :
    ofJson (.object members) = .ok (order incidents) :=
  ofJson_eq_ok_iff.2 ⟨some incidents, by rw [optional_object, h, except_map_ok], rfl⟩

theorem ofJson_null : ofJson .null = .ok (order .empty) := rfl

theorem exists_displays_of_ofJson {members : List (String × Json)}
    (h : ofJson (.object members) = .ok entries) :
    ∃ incidents, Decode.map Incident.ofJson (.object members) = .ok incidents ∧
      Displays incidents entries := by
  obtain ⟨incidents?, hbody, rfl⟩ := ofJson_eq_ok_iff.1 h
  rw [optional_object, map_eq_ok_iff] at hbody
  obtain ⟨incidents, hmap, rfl⟩ := hbody
  exact ⟨incidents, hmap, displays_order incidents⟩

theorem ofJson_isOk_iff : (∃ entries, ofJson body = .ok entries) ↔ body = .null ∨
    ∃ members, body = .object members ∧ ∀ m ∈ members, ∃ i, Incident.ofJson m.2 = .ok i := by
  rw [← Decode.map_isOk_iff_object, ← Decode.optional_isOk_iff]
  simp only [ofJson_eq_ok_iff]
  exact ⟨fun ⟨_, incidents, h, _⟩ => ⟨incidents, h⟩, fun ⟨incidents, h⟩ => ⟨_, incidents, h, rfl⟩⟩

variable {members : KeyMap Json}

theorem perm_keys_of_ofJson (h : ofJson (.object members.entries) = .ok entries) :
    (entries.map Entry.key).Perm members.keys := by
  obtain ⟨incidents, hmap, hdisplays⟩ := exists_displays_of_ofJson h
  have hkeys : incidents.keys = members.keys :=
    Decode.keys_of_mapM_entry (Decode.map_object_eq_ok_iff.1 hmap)
  exact hkeys ▸ hdisplays.keys

/-- Each entry shows what its own member is decoded to. -/
theorem exists_of_mem_of_ofJson (h : ofJson (.object members.entries) = .ok entries) {e : Entry}
    (he : e ∈ entries) :
    ∃ v i, members.get? e.key = some v ∧ Incident.ofJson v = .ok i ∧ e.incident = i.backfill := by
  obtain ⟨incidents, hmap, hdisplays⟩ := exists_displays_of_ofJson h
  obtain ⟨i, hi, hincident⟩ := Option.map_eq_some_iff.1 (hdisplays.repaired e he)
  rw [Decode.get?_of_map hmap, Option.bind_eq_some_iff] at hi
  obtain ⟨v, hv, hdecode⟩ := hi
  exact ⟨v, i, hv, toOption_eq_some_iff.1 hdecode, hincident.symm⟩

/-- The error is that of the least key whose member fails. -/
theorem ofJson_object_eq_error_iff : ofJson (.object members.entries) = .error error ↔
    ∃ key v cause, members.get? key = some v ∧ Incident.ofJson v = .error cause ∧
      error = .malformed (.undecodable cause) ∧
      ∀ smaller w, smaller < key → members.get? smaller = some w →
        ∃ i, Incident.ofJson w = .ok i := by
  simp only [ofJson_eq_error_iff, optional_object, map_eq_error_iff,
    Decode.map_object_eq_error_iff]
  constructor
  · rintro ⟨cause, ⟨key, v, hget, hv, hsmaller⟩, rfl⟩
    exact ⟨key, v, cause, hget, hv, rfl, hsmaller⟩
  · rintro ⟨key, v, cause, hget, hv, rfl, hsmaller⟩
    exact ⟨cause, ⟨key, v, hget, hv, hsmaller⟩, rfl⟩

theorem ofJson_of_not_object (hnull : body ≠ .null) (hobject : ∀ members, body ≠ .object members) :
    ofJson body = .error (.malformed (.undecodable (.wrongType body .map))) := by
  refine ofJson_eq_error_iff.2 ⟨.wrongType body .map, ?_, rfl⟩
  rw [Decode.optional_of_ne_null _ hnull, map_eq_error_iff]
  cases body with
  | object members => exact absurd rfl (hobject members)
  | _ => rfl

/-- A list of incidents is decoded exactly if each member is decoded by itself, and then there is
one entry for each member, with its own incident. Otherwise the error is that of the least key whose
member fails, or of the body. The members of an object ascend by their keys when it is read, so for
what depends on keys they are given as a map. -/
theorem decoded_member_by_member :
    (∀ body, (∃ entries, ofJson body = .ok entries) ↔ body = .null ∨
      ∃ members, body = .object members ∧ ∀ m ∈ members, ∃ i, Incident.ofJson m.2 = .ok i) ∧
    ofJson .null = .ok [] ∧
    (∀ (members : KeyMap Json) entries, ofJson (.object members.entries) = .ok entries →
      (entries.map Entry.key).Perm members.keys ∧
      ∀ e ∈ entries, ∃ v i, members.get? e.key = some v ∧ Incident.ofJson v = .ok i ∧
        e.incident = i.backfill) ∧
    (∀ (members : KeyMap Json) error, ofJson (.object members.entries) = .error error ↔
      ∃ key v cause, members.get? key = some v ∧ Incident.ofJson v = .error cause ∧
        error = .malformed (.undecodable cause) ∧
        ∀ smaller w, smaller < key → members.get? smaller = some w →
          ∃ i, Incident.ofJson w = .ok i) ∧
    (∀ body, body ≠ .null → (∀ members, body ≠ .object members) →
      ofJson body = .error (.malformed (.undecodable (.wrongType body .map)))) ∧
    (∀ ms, (∃ i, Incident.ofJson (.object ms) = .ok i) ↔ Incident.Acceptable ms) ∧
    ∀ ms ns, (∀ key ∈ Incident.memberNames, ms.lookup key = ns.lookup key) →
      Incident.ofJson (.object ms) = Incident.ofJson (.object ns) := by
  refine ⟨fun body => ofJson_isOk_iff, ?_,
    fun members entries h => ⟨perm_keys_of_ofJson h, fun e => exists_of_mem_of_ofJson h⟩,
    fun members error => ofJson_object_eq_error_iff, fun body => ofJson_of_not_object,
    fun ms => Incident.isOk_iff_acceptable, fun ms ns => Incident.ofJson_object_congr⟩
  rw [ofJson_null, order, KeyMap.empty, List.map_nil, List.mergeSort_nil]

end Listing

end AlertConsole
