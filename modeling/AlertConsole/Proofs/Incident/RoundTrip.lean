import AlertConsole.Proofs.Incident.Decode

/-!
# Reading a list of incidents back

An incident is read back exactly if its time is in range (`Incident.ofJson_toJson_iff`), which it is
if it was decoded. Repairing it twice is repairing it once (`Incident.backfill_backfill`). So a list
that was decoded, and is collected by key after it was written, is decoded to itself
(`Listing.read_back`).
-/

namespace AlertConsole

/-! ## Members that may be left out -/

namespace Json

/-- The members of the slots that have a value. -/
def present (slots : List (String × Option Json)) : List (String × Json) :=
  slots.filterMap fun slot => slot.2.map fun v => (slot.1, v)

variable {slots : List (String × Option Json)}

theorem mem_present_iff {m : String × Json} : m ∈ present slots ↔ (m.1, some m.2) ∈ slots := by
  rw [present, List.mem_filterMap]
  constructor
  · rintro ⟨⟨key, value?⟩, hslot, hm⟩
    obtain ⟨v, rfl, rfl⟩ := Option.map_eq_some_iff.1 hm
    exact hslot
  · exact fun hslot => ⟨_, hslot, rfl⟩

theorem canonicalMembers_present (h : ∀ slot ∈ slots, ∀ v ∈ slot.2, v.canonical = v) :
    canonicalMembers (present slots) = present slots :=
  canonicalMembers_eq_self fun m hm => h (m.1, some m.2) (mem_present_iff.1 hm) m.2 rfl

theorem keys_present_sublist (slots : List (String × Option Json)) :
    ((present slots).map (·.1)).Sublist (slots.map (·.1)) := by
  induction slots with
  | nil => exact .slnil
  | cons slot rest ih =>
    obtain ⟨key, _ | v⟩ := slot
    · exact ih.cons key
    · exact ih.cons_cons key

/-- A slot is found by its key. -/
theorem lookup_present (hkeys : (slots.map (·.1)).Nodup) {key : String} {value? : Option Json}
    (hslot : (key, value?) ∈ slots) : (sortEntries (present slots)).lookup key = value? := by
  have hnodup := hkeys.sublist (keys_present_sublist slots)
  apply Option.ext
  intro v
  calc (sortEntries (present slots)).lookup key = some v
      ↔ (key, v) ∈ sortEntries (present slots) :=
        (KeyMap.mem_entries_iff (m := KeyMap.ofList (present slots))).symm
    _ ↔ (key, some v) ∈ slots := by
        rw [(sortEntries_perm hnodup).mem_iff, mem_present_iff]
    _ ↔ value? = some v := by
        refine ⟨fun h => ?_, fun h => h ▸ hslot⟩
        exact congrArg Prod.snd (List.inj_on_of_nodup_map hkeys hslot h rfl)

end Json

/-! ## One incident -/

namespace Incident

variable {i : Incident}

theorem backfill_backfill (i : Incident) : i.backfill.backfill = i.backfill := by
  have hservice : i.backfill.backfill.service = i.backfill.service := by
    simp only [backfill]
    split_ifs <;> rfl
  have hhost : i.backfill.backfill.host = i.backfill.host := by
    simp only [backfill]
    split_ifs <;> rfl
  have hsub : i.backfill.backfill.subService = i.backfill.subService := by
    simp only [backfill]
    cases i.subService <;> simp
  calc i.backfill.backfill
      = { i.backfill with
          service := i.backfill.backfill.service
          host := i.backfill.backfill.host
          subService := i.backfill.backfill.subService } := rfl
    _ = i.backfill := by rw [hservice, hhost, hsub]

/-! ### Members -/

/-- The value of a member that is left out when its text is empty. -/
def shown? (text : String) : Option Json :=
  if text = "" then none else some (.string text)

theorem canonical_of_shown? {text : String} : ∀ v ∈ shown? text, v.canonical = v := by
  intro v hv
  unfold shown? at hv
  split at hv
  · cases hv
  · cases hv
    exact Json.canonical_string text

/-- The members of an encoded incident, in the order of the structure. -/
def slots (i : Incident) : List (String × Option Json) :=
  [("service", some (.string i.service)), ("sub_service", i.subService.map .string),
    ("host", some (.string i.host)), ("metric", some (.float i.metric)),
    ("time", some (.int i.time)), ("status", some (.int i.status.code)),
    ("policy", shown? i.policy), ("escalation", shown? i.escalation),
    ("tags", if i.tags.isEmpty then none else some (Json.ofMap .string i.tags))]

theorem toJson_eq (i : Incident) : i.toJson = .object (Json.present i.slots) := by
  rw [toJson, slots, textMember, textMember, shown?, shown?]
  cases i.subService <;> split_ifs <;> rfl

theorem canonical_toJson (i : Incident) :
    i.toJson.canonical = .object (sortEntries (Json.present i.slots)) := by
  have hslots : ∀ slot ∈ i.slots, ∀ v ∈ slot.2, v.canonical = v := by
    simp only [slots, List.forall_mem_cons, List.not_mem_nil, false_imp_iff, implies_true, and_true,
      Option.mem_some_iff, forall_eq', Json.canonical, true_and]
    refine ⟨fun v hv => ?_, canonical_of_shown?, canonical_of_shown?, fun v hv => ?_⟩
    · obtain ⟨s, -, rfl⟩ := Option.map_eq_some_iff.1 hv
      exact Json.canonical_string s
    · split at hv
      · cases hv
      · cases hv
        exact Json.canonical_ofMap fun e _ => Json.canonical_string e.2
  rw [toJson_eq, Json.canonical_object, Json.canonicalMembers_present hslots]

theorem lookup_slot (key : String) (value? : Option Json) (h : (key, value?) ∈ i.slots) :
    (sortEntries (Json.present i.slots)).lookup key = value? := by
  refine Json.lookup_present ?_ h
  simp [slots]

/-! ### Decoding -/

theorem ofMembers_eq_ok_iff {ms : List (String × Json)} : ofMembers ms = .ok i ↔
    Decode.memberD ms "escalation" Decode.string "" = .ok i.escalation ∧
      Decode.memberD ms "host" Decode.string "" = .ok i.host ∧
      Decode.memberD ms "metric" Decode.number zeroMetric = .ok i.metric ∧
      Decode.memberD ms "policy" Decode.string "" = .ok i.policy ∧
      Decode.memberD ms "service" Decode.string "" = .ok i.service ∧
      Decode.member? ms "status" decodeStatus = .ok (some i.status) ∧
      Decode.memberD ms "sub_service" (Decode.optional Decode.string) none = .ok i.subService ∧
      Decode.memberD ms "tags" decodeTags .empty = .ok i.tags ∧
      Decode.member? ms "time" Decode.int64 = .ok (some i.time) := by
  unfold ofMembers
  simp only [bind_eq_ok_iff, pure_eq_ok_iff]
  constructor
  · rintro ⟨escalation, hescalation, host, hhost, metric, hmetric, policy, hpolicy, service,
      hservice, status?, hstatus?, subService, hsub, tags, htags, time?, htime?, time, htime,
      status, hstatus, rfl⟩
    rcases time? with _ | time'
    · cases htime
    cases htime
    rcases status? with _ | status'
    · cases hstatus
    cases hstatus
    exact ⟨hescalation, hhost, hmetric, hpolicy, hservice, hstatus?, hsub, htags, htime?⟩
  · rintro ⟨hescalation, hhost, hmetric, hpolicy, hservice, hstatus, hsub, htags, htime⟩
    exact ⟨_, hescalation, _, hhost, _, hmetric, _, hpolicy, _, hservice, _, hstatus, _, hsub, _,
      htags, _, htime, _, rfl, _, rfl, rfl⟩

theorem memberD_shown? {ms : List (String × Json)} {key text : String}
    (h : ms.lookup key = shown? text) : Decode.memberD ms key Decode.string "" = .ok text := by
  rw [Decode.memberD_eq, h, shown?]
  split
  · next hempty => rw [hempty]; rfl
  · rfl

theorem decodeStatus_code (status : Status) : decodeStatus (.int status.code) = .ok status := by
  cases status <;> rfl

theorem decodeTags_ofMap (tags : KeyMap String) :
    decodeTags (Json.ofMap .string tags) = .ok tags := by
  have hmap : Decode.map Decode.string (Json.ofMap .string tags) = .ok tags :=
    Decode.map_ofMap fun _ _ => rfl
  rw [decodeTags, Decode.optional_of_ne_null _ (by simp [Json.ofMap]), hmap]
  rfl

/-- The tags are left out if there are none. -/
theorem memberD_tags {ms : List (String × Json)}
    (h : ms.lookup "tags" = if i.tags.isEmpty then none else some (Json.ofMap .string i.tags)) :
    Decode.memberD ms "tags" decodeTags .empty = .ok i.tags := by
  rw [Decode.memberD_eq, h]
  split
  · next hempty =>
    have htags : i.tags = .empty := KeyMap.ext (List.isEmpty_iff.1 hempty)
    rw [htags]
    rfl
  · exact decodeTags_ofMap i.tags

theorem member?_time_iff {ms : List (String × Json)} (h : ms.lookup "time" = some (.int i.time)) :
    Decode.member? ms "time" Decode.int64 = .ok (some i.time) ↔
      Number.int64Min ≤ i.time ∧ i.time ≤ Number.int64Max := by
  rw [Decode.member?, h]
  show (Decode.int64 (.int i.time)).map some = .ok (some i.time) ↔ _
  rw [map_eq_ok_iff]
  constructor
  · rintro ⟨n, hn, hsome⟩
    cases hsome
    exact (Decode.int64_eq_ok_iff.1 hn).2
  · exact fun hrange => ⟨i.time, Decode.int64_eq_ok_iff.2 ⟨rfl, hrange⟩, rfl⟩

/-- An incident is read back exactly if a word holds its time. -/
theorem ofJson_toJson_iff : ofJson i.toJson.canonical = .ok i ↔
    Number.int64Min ≤ i.time ∧ i.time ≤ Number.int64Max := by
  have hservice := i.lookup_slot "service" (some (.string i.service)) (by simp [slots])
  have hsub := i.lookup_slot "sub_service" (i.subService.map .string) (by simp [slots])
  have hhost := i.lookup_slot "host" (some (.string i.host)) (by simp [slots])
  have hmetric := i.lookup_slot "metric" (some (.float i.metric)) (by simp [slots])
  have htime := i.lookup_slot "time" (some (.int i.time)) (by simp [slots])
  have hstatus := i.lookup_slot "status" (some (.int i.status.code)) (by simp [slots])
  have hpolicy := i.lookup_slot "policy" (shown? i.policy) (by simp [slots])
  have hescalation := i.lookup_slot "escalation" (shown? i.escalation) (by simp [slots])
  have htags := i.lookup_slot "tags" (if i.tags.isEmpty then none else
    some (Json.ofMap .string i.tags)) (by simp [slots])
  rw [canonical_toJson]
  refine ofMembers_eq_ok_iff.trans ⟨fun h => ?_, fun hrange => ?_⟩
  · obtain ⟨-, -, -, -, -, -, -, -, hread⟩ := h
    exact (member?_time_iff htime).1 hread
  · refine ⟨memberD_shown? hescalation, ?_, ?_, memberD_shown? hpolicy, ?_, ?_, ?_,
      memberD_tags htags, (member?_time_iff htime).2 hrange⟩
    · rw [Decode.memberD_eq, hhost]
      rfl
    · rw [Decode.memberD_eq, hmetric]
      rfl
    · rw [Decode.memberD_eq, hservice]
      rfl
    · rw [Decode.member?, hstatus]
      exact congrArg (Except.map some) (decodeStatus_code i.status)
    · exact (Decode.memberD_optional_eq_ok_iff hsub fun s => Json.noConfusion).2 fun _ _ => rfl

/-- Whatever an incident is decoded from, a word holds its time. -/
theorem time_of_ofJson {v : Json} (h : ofJson v = .ok i) :
    Number.int64Min ≤ i.time ∧ i.time ≤ Number.int64Max := by
  obtain ⟨w, hw⟩ : ∃ w, Decode.int64 w = .ok i.time := by
    cases v with
    | object ms =>
      obtain ⟨-, -, -, -, -, -, -, -, htime⟩ := ofMembers_eq_ok_iff.1 h
      obtain ⟨w, -, hw⟩ := Decode.member?_eq_ok_some_iff.1 htime
      exact ⟨w, hw⟩
    | array items =>
      have hitems : ofItems items = .ok i := h
      simp only [ofItems, bind_eq_ok_iff, pure_eq_ok_iff] at hitems
      obtain ⟨-, -, -, -, -, -, -, -, time, htime, -, -, -, -, -, -, -, -, -, -, rfl⟩ := hitems
      obtain ⟨w, -, hw⟩ := Decode.item_eq_ok_iff.1 htime
      exact ⟨w, hw⟩
    | _ => cases h
  exact (Decode.int64_eq_ok_iff.1 hw).2

end Incident

/-! ## The list -/

namespace Entry

/-- The key and the value of an entry that was written. -/
def member? (v : Json) : Option (String × Json) :=
  match v.member? "key", v.member? "value" with
  | some (.string key), some value => some (key, value)
  | _, _ => none

theorem member?_toJson (e : Entry) :
    member? e.toJson.canonical = some (e.key, e.incident.toJson.canonical) := by
  have hlookup : ∀ k, e.toJson.canonical.member? k =
      [("value", e.incident.toJson.canonical), ("key", Json.string e.key)].lookup k := by
    intro k
    rw [toJson, Json.canonical_object]
    exact lookup_sortEntries k _
  rw [member?, hlookup, hlookup]
  rfl

end Entry

namespace Listing

variable {body : Json} {entries : List Entry} {incidents : KeyMap Incident}

/-- The object with the incidents of a written list, each by its key. -/
def collect : Json → Json
  | .array items => .object (KeyMap.ofList (items.filterMap Entry.member?)).entries
  | v => v

theorem canonical_toJson (entries : List Entry) :
    (toJson entries).canonical = .array (entries.map fun e => e.toJson.canonical) := by
  rw [toJson, Json.canonical_array, Json.canonicalItems_eq_map, List.map_map]
  rfl

theorem order_backfill (incidents : KeyMap Incident) :
    order (incidents.mapValues Incident.backfill) = order incidents := by
  rw [order, order, KeyMap.mapValues, List.map_map]
  congr 1
  exact List.map_congr_left fun e _ => congrArg (Entry.mk e.1) (Incident.backfill_backfill e.2)

/-- A list that is collected after it was written is the map of the repaired incidents. -/
theorem collect_toJson_order (incidents : KeyMap Incident) :
    collect (toJson (order incidents)).canonical =
      Json.ofMap (fun i => i.toJson.canonical) (incidents.mapValues Incident.backfill) := by
  have hmembers : ((order incidents).map fun e => e.toJson.canonical).filterMap Entry.member? =
      (order incidents).map fun e => (e.key, e.incident.toJson.canonical) := by
    simp only [List.filterMap_map, Function.comp_def, Entry.member?_toJson,
      List.filterMap_eq_map']
  have hperm : ((order incidents).map fun e => (e.key, e.incident.toJson.canonical)).Perm
      ((incidents.mapValues Incident.backfill).mapValues fun i => i.toJson.canonical).entries := by
    have hrepaired := (order_perm incidents).map fun e => (e.key, e.incident.toJson.canonical)
    rw [repairedEntries, List.map_map] at hrepaired
    simp only [KeyMap.entries_mapValues, List.map_map]
    exact hrepaired
  rw [canonical_toJson, collect, hmembers, KeyMap.ofList_of_perm hperm]
  rfl

theorem time_of_decoded {incidents? : Option (KeyMap Incident)}
    (h : Decode.optional (Decode.map Incident.ofJson) body = .ok incidents?) :
    ∀ e ∈ (incidents?.getD .empty).entries,
      Number.int64Min ≤ e.2.time ∧ e.2.time ≤ Number.int64Max := by
  intro e he
  rcases incidents? with _ | incidents
  · cases he
  have hmap := Decode.eq_ok_of_optional h
  obtain ⟨members, rfl, -⟩ := Decode.map_isOk_iff_object.1 ⟨incidents, hmap⟩
  obtain ⟨m, -, hm⟩ := Decode.exists_of_mem_of_map hmap he
  exact Incident.time_of_ofJson hm

/-- A list of incidents that was decoded is decoded to itself after it was written, entry by entry,
and collected by key. No repair is left to make in it. -/
theorem read_back (h : ofJson body = .ok entries) :
    ofJson (collect (toJson entries).canonical) = .ok entries ∧
      ∀ e ∈ entries, e.incident.backfill = e.incident := by
  obtain ⟨incidents?, hbody, rfl⟩ := ofJson_eq_ok_iff.1 h
  have htimes := time_of_decoded hbody
  generalize incidents?.getD .empty = incidents at htimes ⊢
  constructor
  · have hmap : Decode.map Incident.ofJson
        (Json.ofMap (fun i => i.toJson.canonical) (incidents.mapValues Incident.backfill)) =
          .ok (incidents.mapValues Incident.backfill) := by
      refine Decode.map_ofMap fun e he => ?_
      obtain ⟨entry, hentry, rfl⟩ := List.mem_map.1 he
      exact Incident.ofJson_toJson_iff.2 (htimes entry hentry)
    rw [collect_toJson_order, ← order_backfill incidents]
    exact ofJson_object hmap
  · intro e he
    obtain ⟨i, -, hi⟩ := Option.map_eq_some_iff.1 ((displays_order incidents).repaired e he)
    rw [← hi, Incident.backfill_backfill]

/-- An incident that is repaired from its tags, beside one with members that are null or missing. -/
theorem read_back_with_tags :
    let members : KeyMap Json := .ofList
      [("disk", .object [("status", .int 2), ("time", .int 60),
          ("tags", .object [("host", .string "web"), ("service", .string "disk")])]),
        ("load", .object [("host", .string ""), ("metric", .int 3), ("status", .int 0),
          ("sub_service", .null), ("tags", .null), ("time", .int 0)])]
    ∃ entries, ofJson (.object members.entries) = .ok entries ∧
      (entries.map Entry.key).Perm ["disk", "load"] ∧
      (∀ e ∈ entries, e.key = "disk" → e.incident.service = "disk") ∧
      ofJson (collect (toJson entries).canonical) = .ok entries := by
  intro members
  obtain ⟨entries, hentries⟩ : ∃ entries, ofJson (.object members.entries) = .ok entries := by
    have hmembers : ∀ m ∈ members.entries, (Incident.ofJson m.2).isOk = true := by decide +kernel
    exact ofJson_isOk_iff.2 (.inr ⟨members.entries, rfl, fun m hm => isOk_iff.1 (hmembers m hm)⟩)
  refine ⟨entries, hentries, perm_keys_of_ofJson hentries, fun e he hkey => ?_,
    (read_back hentries).1⟩
  obtain ⟨v, i, hv, hi, hincident⟩ := exists_of_mem_of_ofJson hentries he
  have hservice : ((members.get? "disk").bind fun v =>
      (Incident.ofJson v).toOption.map fun i => i.backfill.service) = some "disk" := by
    decide +kernel
  rw [hkey] at hv
  rw [hv, Option.bind_some, hi] at hservice
  rw [hincident]
  exact Option.some.inj hservice

end Listing

end AlertConsole
