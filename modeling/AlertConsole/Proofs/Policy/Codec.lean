import AlertConsole.Policy.Basic
import AlertConsole.Proofs.Json.Decode

/-!
# Reading a policy back

A section that was encoded is read back exactly if none of its free fields is named like one of its
own members (`NotMatch.ofJson_toJson_iff`, `Condition.ofJson_toJson_iff`), and a policy exactly if
all its sections are (`Policy.ofJson_toJson_iff`).
-/

namespace AlertConsole

/-- A map of values that have no objects with members out of order. -/
def KeyMap.IsCanonical (m : KeyMap Json) : Prop :=
  ∀ e ∈ m.entries, e.2.canonical = e.2

/-! ## Sections -/

namespace NotMatch

/-- The members of the section that are not free fields. -/
def ownMembers : List String := ["occurences"]

/-- The members of the section that are not free fields, with their values. -/
def named (n : NotMatch) : List (String × Json) :=
  [("occurences", .int n.occurrences)]

theorem canonical_toJson {n : NotMatch} (h : n.fields.IsCanonical) :
    n.toJson.canonical = .object (sortEntries (n.named ++ n.fields.entries)) :=
  Json.canonical_flattened n.named (by simp [named, Json.canonical]) h

theorem ofMembers_eq_ok_iff {ms : List (String × Json)} {n : NotMatch} :
    ofMembers ms = .ok n ↔
      Decode.memberD ms "occurences" Decode.uint32 0 = .ok n.occurrences ∧
        Decode.remaining ownMembers ms = n.fields := by
  unfold ofMembers
  simp only [bind_eq_ok_iff, pure_eq_ok_iff]
  constructor
  · rintro ⟨occurrences, h, rfl⟩
    exact ⟨h, rfl⟩
  · rintro ⟨h, hfields⟩
    exact ⟨n.occurrences, h, by rw [← ownMembers, hfields]⟩

theorem ofJson_toJson_iff {n : NotMatch} (hfields : n.fields.IsCanonical)
    (hbound : (n.occurrences : Int) ≤ Number.uint32Max) :
    ofJson n.toJson.canonical = .ok n ↔ ∀ k ∈ ownMembers, n.fields.get? k = none := by
  rw [canonical_toJson hfields]
  refine ofMembers_eq_ok_iff.trans ⟨fun h k hk => ?_, fun h => ⟨?_, ?_⟩⟩
  · rw [← h.2]
    exact Decode.get?_remaining hk _
  · rw [Decode.memberD_eq, Decode.lookup_flattened, h "occurences" (by simp [ownMembers])]
    exact Decode.uint32_natCast hbound
  · exact Decode.remaining_flattened (by simp [named, ownMembers]) h

end NotMatch

namespace Condition

/-- The members of the section that are not free fields. -/
def ownMembers : List String := ["occurences", "escalation"]

/-- The members of the section that are not free fields, with their values. -/
def named (c : Condition) : List (String × Json) :=
  [("occurences", .int c.occurrences), ("escalation", .string c.escalation)]

theorem canonical_toJson {c : Condition} (h : c.fields.IsCanonical) :
    c.toJson.canonical = .object (sortEntries (c.named ++ c.fields.entries)) :=
  Json.canonical_flattened c.named (by simp [named, Json.canonical]) h

theorem ofMembers_eq_ok_iff {ms : List (String × Json)} {c : Condition} :
    ofMembers ms = .ok c ↔
      Decode.memberD ms "escalation" Decode.string "" = .ok c.escalation ∧
        Decode.memberD ms "occurences" Decode.uint32 0 = .ok c.occurrences ∧
        Decode.remaining ownMembers ms = c.fields := by
  unfold ofMembers
  simp only [bind_eq_ok_iff, pure_eq_ok_iff]
  constructor
  · rintro ⟨escalation, he, occurrences, ho, rfl⟩
    exact ⟨he, ho, rfl⟩
  · rintro ⟨he, ho, hfields⟩
    exact ⟨c.escalation, he, c.occurrences, ho, by rw [← ownMembers, hfields]⟩

theorem ofJson_toJson_iff {c : Condition} (hfields : c.fields.IsCanonical)
    (hbound : (c.occurrences : Int) ≤ Number.uint32Max) :
    ofJson c.toJson.canonical = .ok c ↔ ∀ k ∈ ownMembers, c.fields.get? k = none := by
  rw [canonical_toJson hfields]
  refine ofMembers_eq_ok_iff.trans ⟨fun h k hk => ?_, fun h => ⟨?_, ?_, ?_⟩⟩
  · rw [← h.2.2]
    exact Decode.get?_remaining hk _
  · rw [Decode.memberD_eq, Decode.lookup_flattened, h "escalation" (by simp [ownMembers])]
    rfl
  · rw [Decode.memberD_eq, Decode.lookup_flattened, h "occurences" (by simp [ownMembers])]
    exact Decode.uint32_natCast hbound
  · exact Decode.remaining_flattened (by simp [named, ownMembers]) h

end Condition

/-! ## Policies -/

namespace Policy

theorem lookup_sectionMember {α : Type} (k key : String) (encode : α → Json) (s : Option α) :
    (sectionMember key encode s).lookup k = if k = key then s.map encode else none := by
  rcases s with _ | a
  · simp [sectionMember]
  · exact lookup_cons_eq_ite k key (encode a) []

theorem reverse_sectionMember {α : Type} (key : String) (encode : α → Json) (s : Option α) :
    (sectionMember key encode s).reverse = sectionMember key encode s := by
  rcases s with _ | a <;> rfl

theorem canonicalMembers_sectionMember {α : Type} (key : String) (encode : α → Json)
    (s : Option α) :
    Json.canonicalMembers (sectionMember key encode s) =
      sectionMember key (fun a => (encode a).canonical) s := by
  rcases s with _ | a <;> rfl

/-- The members of an encoded policy, in the order of the structure. -/
def members (p : Policy) : List (String × Json) :=
  ("name", .string p.name) ::
    sectionMember "match" (fun m => (Json.ofMap .string m).canonical) p.matchFields ++
    sectionMember "not_match" (fun n => n.toJson.canonical) p.notMatch ++
    sectionMember "crit" (fun c => c.toJson.canonical) p.crit ++
    sectionMember "warn" (fun c => c.toJson.canonical) p.warn

theorem canonical_toJson (p : Policy) : p.toJson.canonical = .object (sortEntries p.members) := by
  rw [toJson, Json.canonical_object]
  simp only [Json.canonicalMembers_append, canonicalMembers_sectionMember, members,
    Json.canonicalMembers, Json.canonical]

/-- The value of a member of an encoded policy. -/
theorem lookup_members (p : Policy) (k : String) :
    (sortEntries p.members).lookup k =
      if k = "warn" then p.warn.map fun c => c.toJson.canonical
      else if k = "crit" then p.crit.map fun c => c.toJson.canonical
      else if k = "not_match" then p.notMatch.map fun n => n.toJson.canonical
      else if k = "match" then p.matchFields.map fun m => (Json.ofMap .string m).canonical
      else if k = "name" then some (.string p.name) else none := by
  rw [lookup_sortEntries]
  simp only [members, List.reverse_append, List.reverse_cons, reverse_sectionMember,
    List.lookup_append, lookup_sectionMember, lookup_cons_eq_ite]
  by_cases hwarn : k = "warn"
  · simp [hwarn]
  by_cases hcrit : k = "crit"
  · simp [hcrit]
  by_cases hnot : k = "not_match"
  · simp [hnot]
  by_cases hmatch : k = "match"
  · simp [hmatch]
  by_cases hname : k = "name" <;> simp [hwarn, hcrit, hnot, hmatch, hname]

theorem ofMembers_eq_ok_iff {ms : List (String × Json)} {p : Policy} :
    ofMembers ms = .ok p ↔
      Decode.memberD ms "crit" (Decode.optional Condition.ofJson) none = .ok p.crit ∧
        Decode.memberD ms "match" (Decode.optional (Decode.map Decode.string)) none =
          .ok p.matchFields ∧
        Decode.member? ms "name" Decode.string = .ok (some p.name) ∧
        Decode.memberD ms "not_match" (Decode.optional NotMatch.ofJson) none = .ok p.notMatch ∧
        Decode.memberD ms "warn" (Decode.optional Condition.ofJson) none = .ok p.warn := by
  unfold ofMembers
  simp only [bind_eq_ok_iff, pure_eq_ok_iff]
  constructor
  · rintro ⟨crit, hcrit, matchFields, hmatch, name?, hname, notMatch, hnot, warn, hwarn, name,
      hrequired, rfl⟩
    rcases name? with _ | n
    · cases hrequired
    cases hrequired
    exact ⟨hcrit, hmatch, hname, hnot, hwarn⟩
  · rintro ⟨hcrit, hmatch, hname, hnot, hwarn⟩
    exact ⟨_, hcrit, _, hmatch, _, hname, _, hnot, _, hwarn, _, rfl, rfl⟩

/-- A policy is read back exactly if each of its sections is, save for the fields to match, which
have no members of their own. -/
theorem ofJson_toJson_iff (p : Policy) :
    ofJson p.toJson.canonical = .ok p ↔
      (∀ n, p.notMatch = some n → NotMatch.ofJson n.toJson.canonical = .ok n) ∧
        (∀ c, p.crit = some c → Condition.ofJson c.toJson.canonical = .ok c) ∧
        ∀ c, p.warn = some c → Condition.ofJson c.toJson.canonical = .ok c := by
  have hmatch : Decode.memberD (sortEntries p.members) "match"
      (Decode.optional (Decode.map Decode.string)) none = .ok p.matchFields := by
    refine (Decode.memberD_optional_eq_ok_iff (p.lookup_members "match")
      fun m => Json.canonical_object_ne_null _).2 fun m _ => ?_
    rw [Json.canonical_ofMap fun e _ => Json.canonical_string e.2]
    exact Decode.map_ofMap fun _ _ => rfl
  have hname : Decode.member? (sortEntries p.members) "name" Decode.string =
      .ok (some p.name) := by
    rw [Decode.member?, p.lookup_members "name"]
    rfl
  have hnot : Decode.memberD (sortEntries p.members) "not_match"
      (Decode.optional NotMatch.ofJson) none = .ok p.notMatch ↔ _ :=
    Decode.memberD_optional_eq_ok_iff (p.lookup_members "not_match")
      fun n => Json.canonical_object_ne_null _
  have hcondition : ∀ key s, (sortEntries p.members).lookup key =
      s.map (fun c : Condition => c.toJson.canonical) →
      (Decode.memberD (sortEntries p.members) key (Decode.optional Condition.ofJson) none = .ok s ↔
        ∀ c, s = some c → Condition.ofJson c.toJson.canonical = .ok c) := fun key s hlookup =>
    Decode.memberD_optional_eq_ok_iff hlookup fun c => Json.canonical_object_ne_null _
  rw [canonical_toJson]
  refine ofMembers_eq_ok_iff.trans ?_
  rw [hnot, hcondition "crit" p.crit (p.lookup_members "crit"),
    hcondition "warn" p.warn (p.lookup_members "warn")]
  tauto

end Policy

end AlertConsole
