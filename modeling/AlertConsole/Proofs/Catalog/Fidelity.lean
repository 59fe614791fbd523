import AlertConsole.Proofs.Catalog
import AlertConsole.Proofs.Escalation.Codec

/-!
# What a listing keeps

A listing can be written again. What is then written for a section of a policy `Completes` the
object that the server sent: it has the members that were sent, whatever their values, and the
defaults of those that were not (`Policy.Keeps`). What is written for a step is the object that was
sent, with a plain name for its type (`Step.Keeps`). Written again, a listing is the same listing
(`Catalog.listings_keep_what_was_sent`).
-/

namespace AlertConsole

/-! ## Objects with defaults -/

namespace Json

variable {defaults named sent : List (String × Json)} {keys : List String}

/-- The value is an object with the members that were sent, and with those of the defaults that were
not. -/
def Completes (defaults sent : List (String × Json)) (v : Json) : Prop :=
  ∃ members : KeyMap Json, v = .object members.entries ∧
    ∀ key, members.get? key = (sent.lookup key).or (defaults.lookup key)

/-- The members that are not named are found beside those that are. -/
theorem lookup_beside_remaining (named : List (String × Json)) (keys : List String)
    (hsent : Ascending sent) (k : String) :
    (sortEntries (named ++ (Decode.remaining keys sent).entries)).lookup k =
      if k ∈ keys then named.reverse.lookup k else (sent.lookup k).or (named.reverse.lookup k) := by
  rw [Decode.lookup_flattened]
  split
  · next hk => rw [Decode.get?_remaining hk, Option.none_or]
  · next hk => rw [Decode.get?_remaining_of_not_mem hsent hk]

theorem completes_flattened (hsent : Ascending sent)
    (hkeys : ∀ k ∉ keys, named.reverse.lookup k = none ∧ defaults.lookup k = none)
    (hnamed : ∀ k ∈ keys, named.reverse.lookup k = (sent.lookup k).or (defaults.lookup k)) :
    Completes defaults sent (.object (sortEntries (named ++ (Decode.remaining keys sent).entries))) := by
  refine ⟨.ofList (named ++ (Decode.remaining keys sent).entries), rfl, fun k => ?_⟩
  refine (lookup_beside_remaining named keys hsent k).trans ?_
  split
  · next hk => exact hnamed k hk
  · next hk => rw [(hkeys k hk).1, (hkeys k hk).2]

/-- A member that is read with a default is written as it was sent, or as the default. -/
theorem or_of_memberD {α : Type} {decode : Json → Decoded α} {encode : α → Json} {key : String}
    {default a : α} (hdecode : ∀ {v a}, decode v = .ok a → v = encode a)
    (h : Decode.memberD sent key decode default = .ok a) :
    (sent.lookup key).or (some (encode default)) = some (encode a) := by
  rw [Decode.memberD_eq] at h
  rcases hlookup : sent.lookup key with _ | v
  · rw [hlookup] at h
    cases h
    rfl
  · rw [hlookup] at h
    rw [hdecode h]
    rfl

theorem isCanonical_remaining (hsent : ∀ m ∈ sent, m.2.canonical = m.2) (keys : List String) :
    (Decode.remaining keys sent).IsCanonical := by
  intro e he
  exact hsent e (List.mem_of_mem_filter (mem_of_mem_sortEntries he))

end Json

/-! ## Sections -/

namespace NotMatch

variable {n : NotMatch} {sent : List (String × Json)}

/-- What is written for members that were not sent. -/
def defaults : List (String × Json) :=
  [("occurences", .int 0)]

theorem isCanonical_of_ofMembers (hsent : ∀ m ∈ sent, m.2.canonical = m.2)
    (h : ofMembers sent = .ok n) : n.fields.IsCanonical := by
  rw [← (ofMembers_eq_ok_iff.1 h).2]
  exact Json.isCanonical_remaining hsent ownMembers

theorem completes_of_ofMembers (hsent : (Json.object sent).canonical = .object sent)
    (h : ofMembers sent = .ok n) : Json.Completes defaults sent n.toJson.canonical := by
  obtain ⟨hascending, hvalues⟩ := Json.canonical_object_eq_self_iff.1 hsent
  obtain ⟨hoccurrences, hfields⟩ := ofMembers_eq_ok_iff.1 h
  rw [canonical_toJson (isCanonical_of_ofMembers hvalues h), ← hfields]
  refine Json.completes_flattened hascending (fun k hk => ?_) fun k hk => ?_
  · rw [ownMembers, List.mem_singleton] at hk
    simp [named, defaults, lookup_cons_eq_ite, hk]
  · obtain rfl := List.mem_singleton.1 hk
    exact (Json.or_of_memberD (fun hread => (Decode.uint32_eq_ok_iff.1 hread).1) hoccurrences).symm

theorem ofJson_toJson_of_ofJson {v : Json} (hv : v.canonical = v) (h : ofJson v = .ok n) :
    ofJson n.toJson.canonical = .ok n := by
  obtain ⟨sent, rfl, hmembers⟩ := Decode.objectRecord_eq_ok_iff.1 h
  have hvalues := (Json.canonical_object_eq_self_iff.1 hv).2
  obtain ⟨hoccurrences, hfields⟩ := ofMembers_eq_ok_iff.1 hmembers
  refine (ofJson_toJson_iff (isCanonical_of_ofMembers hvalues hmembers) ?_).2 fun k hk => ?_
  · exact Decode.le_of_memberD_uint32 hoccurrences
  · rw [← hfields, Decode.get?_remaining hk]

end NotMatch

namespace Condition

variable {c : Condition} {sent : List (String × Json)}

/-- What is written for members that were not sent. -/
def defaults : List (String × Json) :=
  [("occurences", .int 0), ("escalation", .string "")]

theorem isCanonical_of_ofMembers (hsent : ∀ m ∈ sent, m.2.canonical = m.2)
    (h : ofMembers sent = .ok c) : c.fields.IsCanonical := by
  rw [← (ofMembers_eq_ok_iff.1 h).2.2]
  exact Json.isCanonical_remaining hsent ownMembers

theorem completes_of_ofMembers (hsent : (Json.object sent).canonical = .object sent)
    (h : ofMembers sent = .ok c) : Json.Completes defaults sent c.toJson.canonical := by
  obtain ⟨hascending, hvalues⟩ := Json.canonical_object_eq_self_iff.1 hsent
  obtain ⟨hescalation, hoccurrences, hfields⟩ := ofMembers_eq_ok_iff.1 h
  rw [canonical_toJson (isCanonical_of_ofMembers hvalues h), ← hfields]
  refine Json.completes_flattened hascending (fun k hk => ?_) fun k hk => ?_
  · simp only [ownMembers, List.mem_cons, List.not_mem_nil, or_false, not_or] at hk
    simp [named, defaults, lookup_cons_eq_ite, hk.1, hk.2]
  · simp only [ownMembers, List.mem_cons, List.not_mem_nil, or_false] at hk
    rcases hk with rfl | rfl
    · exact (Json.or_of_memberD (fun hread => (Decode.uint32_eq_ok_iff.1 hread).1)
        hoccurrences).symm
    · exact (Json.or_of_memberD Decode.eq_string hescalation).symm

theorem ofJson_toJson_of_ofJson {v : Json} (hv : v.canonical = v) (h : ofJson v = .ok c) :
    ofJson c.toJson.canonical = .ok c := by
  obtain ⟨sent, rfl, hmembers⟩ := Decode.objectRecord_eq_ok_iff.1 h
  have hvalues := (Json.canonical_object_eq_self_iff.1 hv).2
  obtain ⟨-, hoccurrences, hfields⟩ := ofMembers_eq_ok_iff.1 hmembers
  refine (ofJson_toJson_iff (isCanonical_of_ofMembers hvalues hmembers) ?_).2 fun k hk => ?_
  · exact Decode.le_of_memberD_uint32 hoccurrences
  · rw [← hfields, Decode.get?_remaining hk]

end Condition

/-! ## Policies -/

namespace Policy

variable {v w : Json} {p : Policy}

/-- The fields of a policy in the order of the structure. -/
def fieldNames : List String :=
  ["name", "match", "not_match", "crit", "warn"]

/-- What was sent for a field, in an object or in an array of the fields. -/
def sent? (v : Json) (field : String) : Option Json :=
  match v with
  | .object members => members.lookup field
  | .array items => items[fieldNames.idxOf field]?
  | _ => none

theorem canonical_of_sent? (hv : v.canonical = v) {field : String} (h : sent? v field = some w) :
    w.canonical = w := by
  cases v with
  | object members => exact (Json.canonical_object_eq_self_iff.1 hv).2 _ (mem_of_lookup h)
  | array items => exact Json.canonical_array_eq_self_iff.1 hv w (List.mem_of_getElem? h)
  | _ => cases h

theorem sections_of_ofJson (h : ofJson v = .ok p) :
    (sent? v "not_match").elim (.ok none) (Decode.optional NotMatch.ofJson) = .ok p.notMatch ∧
      (sent? v "crit").elim (.ok none) (Decode.optional Condition.ofJson) = .ok p.crit ∧
      (sent? v "warn").elim (.ok none) (Decode.optional Condition.ofJson) = .ok p.warn := by
  cases v with
  | object members =>
    obtain ⟨hcrit, -, -, hnot, hwarn⟩ := ofMembers_eq_ok_iff.1 h
    rw [Decode.memberD_eq] at hcrit hnot hwarn
    exact ⟨hnot, hcrit, hwarn⟩
  | array items =>
    have hitems : ofItems items = .ok p := h
    simp only [ofItems, bind_eq_ok_iff, pure_eq_ok_iff, Decode.itemD_eq] at hitems
    obtain ⟨name, -, matchFields, -, notMatch, hnot, crit, hcrit, warn, hwarn, -, -, rfl⟩ := hitems
    exact ⟨hnot, hcrit, hwarn⟩
  | _ => cases h

/-! ### Sections of a policy -/

/-- An object that was sent for a section is completed, and no section is made up. -/
structure SectionKept (defaults : List (String × Json)) (sent? written? : Option Json) : Prop where
  object : ∀ sent, sent? = some (.object sent) →
    ∃ w, written? = some w ∧ Json.Completes defaults sent w
  nothing : sent? = none ∨ sent? = some .null → written? = none

section Section

variable {α : Type} {decode : Json → Decoded α} {sent? : Option Json}

theorem exists_of_section {a : α}
    (h : sent?.elim (.ok none) (Decode.optional decode) = .ok (some a)) :
    ∃ w, sent? = some w ∧ decode w = .ok a := by
  rcases sent? with _ | w
  · cases h
  · exact ⟨w, rfl, Decode.eq_ok_of_optional h⟩

theorem sectionKept_of_optional {defaults : List (String × Json)} {encode : α → Json} {s : Option α}
    (h : sent?.elim (.ok none) (Decode.optional decode) = .ok s)
    (hcompletes : ∀ sent a, sent? = some (.object sent) → decode (.object sent) = .ok a →
      Json.Completes defaults sent (encode a)) :
    SectionKept defaults sent? (s.map encode) where
  object sent hsent := by
    rw [hsent] at h
    obtain ⟨a, ha, rfl⟩ := map_eq_ok_iff.1 h
    exact ⟨encode a, rfl, hcompletes sent a hsent ha⟩
  nothing hnothing := by
    rcases hnothing with hnone | hnull
    · rw [hnone] at h
      cases h
      rfl
    · rw [hnull] at h
      cases h
      rfl

end Section

/-- What was sent for a policy is in what is written for it. -/
structure Keeps (v : Json) (p : Policy) : Prop where
  notMatch : SectionKept NotMatch.defaults (sent? v "not_match")
    (p.toJson.canonical.member? "not_match")
  crit : SectionKept Condition.defaults (sent? v "crit") (p.toJson.canonical.member? "crit")
  warn : SectionKept Condition.defaults (sent? v "warn") (p.toJson.canonical.member? "warn")

theorem keeps_of_ofJson (hv : v.canonical = v) (h : ofJson v = .ok p) : Keeps v p := by
  obtain ⟨hnot, hcrit, hwarn⟩ := sections_of_ofJson h
  have hmember : ∀ key, p.toJson.canonical.member? key = (sortEntries p.members).lookup key := by
    intro key
    rw [canonical_toJson]
    rfl
  refine ⟨?_, ?_, ?_⟩
  · rw [hmember, lookup_members]
    exact sectionKept_of_optional hnot fun sent n hsent hdecode =>
      NotMatch.completes_of_ofMembers (canonical_of_sent? hv hsent) hdecode
  · rw [hmember, lookup_members]
    exact sectionKept_of_optional hcrit fun sent c hsent hdecode =>
      Condition.completes_of_ofMembers (canonical_of_sent? hv hsent) hdecode
  · rw [hmember, lookup_members]
    exact sectionKept_of_optional hwarn fun sent c hsent hdecode =>
      Condition.completes_of_ofMembers (canonical_of_sent? hv hsent) hdecode

/-- A section that was decoded is read back. -/
theorem ofJson_toJson_of_section {α : Type} {decode : Json → Decoded α} {encode : α → Json}
    {field : String} {s : Option α} (hv : v.canonical = v)
    (h : (sent? v field).elim (.ok none) (Decode.optional decode) = .ok s)
    (hread : ∀ {w a}, w.canonical = w → decode w = .ok a → decode (encode a) = .ok a) :
    ∀ a, s = some a → decode (encode a) = .ok a := by
  rintro a rfl
  obtain ⟨w, hw, ha⟩ := exists_of_section h
  exact hread (canonical_of_sent? hv hw) ha

theorem ofJson_toJson_of_ofJson (hv : v.canonical = v) (h : ofJson v = .ok p) :
    ofJson p.toJson.canonical = .ok p := by
  obtain ⟨hnot, hcrit, hwarn⟩ := sections_of_ofJson h
  exact p.ofJson_toJson_iff.2 ⟨ofJson_toJson_of_section hv hnot NotMatch.ofJson_toJson_of_ofJson,
    ofJson_toJson_of_section hv hcrit Condition.ofJson_toJson_of_ofJson,
    ofJson_toJson_of_section hv hwarn Condition.ofJson_toJson_of_ofJson⟩

end Policy

/-! ## Steps -/

namespace Step

variable {v : Json} {s : Step}

/-- What was sent for a step is what is written for it, its type as a plain name. -/
def Keeps (v : Json) (s : Step) : Prop :=
  ∃ sent, ∃ members : KeyMap Json, v = .object sent ∧ s.toJson.canonical = .object members.entries ∧
    (sent.lookup "type" = some (.string s.kind.name) ∨
      sent.lookup "type" = some (.object [(s.kind.name, .null)])) ∧
    members.get? "type" = some (.string s.kind.name) ∧
    ∀ key ≠ "type", members.get? key = sent.lookup key

theorem keeps_of_ofJson (hv : v.canonical = v) (h : ofJson v = .ok s) : Keeps v s := by
  obtain ⟨sent, rfl, hmembers⟩ := Decode.objectRecord_eq_ok_iff.1 h
  obtain ⟨hascending, hvalues⟩ := Json.canonical_object_eq_self_iff.1 hv
  obtain ⟨hkind, hoptions⟩ := ofMembers_eq_ok_iff.1 hmembers
  have hcanonical : s.options.IsCanonical := hoptions ▸ Json.isCanonical_remaining hvalues ownMembers
  have hlookup := Json.lookup_beside_remaining s.named ownMembers hascending
  rw [hoptions] at hlookup
  refine ⟨sent, .ofList (s.named ++ s.options.entries), rfl, canonical_toJson hcanonical, ?_, ?_, ?_⟩
  · obtain ⟨kind, hsent, hread⟩ := Decode.member?_eq_ok_some_iff.1 hkind
    rw [hsent]
    exact (StepType.ofJson_eq_ok_iff.1 hread).imp (congrArg some) (congrArg some)
  · exact (hlookup "type").trans rfl
  · intro key hkey
    refine (hlookup key).trans ?_
    simp [ownMembers, named, lookup_cons_eq_ite, hkey]

theorem ofJson_toJson_of_ofJson (hv : v.canonical = v) (h : ofJson v = .ok s) :
    ofJson s.toJson.canonical = .ok s := by
  obtain ⟨sent, rfl, hmembers⟩ := Decode.objectRecord_eq_ok_iff.1 h
  obtain ⟨-, hoptions⟩ := ofMembers_eq_ok_iff.1 hmembers
  have hcanonical := Json.isCanonical_remaining (Json.canonical_object_eq_self_iff.1 hv).2 ownMembers
  rw [hoptions] at hcanonical
  refine (ofJson_toJson_iff hcanonical).2 fun k hk => ?_
  rw [← hoptions, Decode.get?_remaining hk]

/-- The steps that were sent are kept in their order. -/
def KeepsAll (v : Json) (steps : List Step) : Prop :=
  ∃ items, v = .array items ∧ List.Forall₂ Keeps items steps

section List

variable {steps : List Step}

theorem keepsAll_of_list (hv : v.canonical = v) (h : Decode.list ofJson v = .ok steps) :
    KeepsAll v steps := by
  cases v with
  | array items =>
    have hvalues := Json.canonical_array_eq_self_iff.1 hv
    have hdecoded := (mapM_eq_ok_iff ofJson items steps).1 h
    refine ⟨items, rfl, ?_⟩
    exact ((List.forall₂_and_left items steps).2 ⟨hvalues, hdecoded⟩).imp fun v s hs =>
      keeps_of_ofJson hs.1 hs.2
  | _ => cases h

theorem list_toJson_of_list (hv : v.canonical = v) (h : Decode.list ofJson v = .ok steps) :
    Decode.list ofJson (Json.array (steps.map toJson)).canonical = .ok steps := by
  cases v with
  | array items =>
    refine ofJson_toJson_list fun s hs => ?_
    obtain ⟨v, hmem, hdecode⟩ := exists_of_mem_of_mapM h hs
    exact ofJson_toJson_of_ofJson (Json.canonical_array_eq_self_iff.1 hv v hmem) hdecode
  | _ => cases h

end List

end Step

/-! ## Listings -/

namespace Catalog

section Listing

variable {α : Type} {decode : Json → Decoded α} {encode : α → Json} {body : Json}
  {listed : KeyMap α}

/-- What is listed is a decoded object, or nothing at all. -/
theorem cases_of_ofJson (h : ofJson decode body = .ok listed) :
    (∃ ms, body = .object ms ∧ Decode.map decode (.object ms) = .ok listed) ∨
      (∀ ms, body ≠ .object ms) ∧ listed = .empty := by
  cases body with
  | null =>
    cases h
    exact .inr ⟨fun ms => Json.noConfusion, rfl⟩
  | string s =>
    rw [ofJson] at h
    split at h
    · cases h
      exact .inr ⟨fun ms => Json.noConfusion, rfl⟩
    · cases h
  | object ms => exact .inl ⟨ms, rfl, ofJson_object_eq_ok_iff.1 h⟩
  | _ => cases h

theorem exists_of_rel {Keeps : Json → α → Prop} {v? : Option Json} {a? : Option α} {v : Json}
    (h : Option.Rel Keeps v? a?) (hv : v? = some v) : ∃ a, a? = some a ∧ Keeps v a := by
  cases h with
  | some hkeeps =>
    cases hv
    exact ⟨_, rfl, hkeeps⟩
  | none => cases hv

theorem rel_of_ofJson {Keeps : Json → α → Prop} (hbody : body.canonical = body)
    (hkeeps : ∀ {v a}, v.canonical = v → decode v = .ok a → Keeps v a)
    (h : ofJson decode body = .ok listed) (name : String) :
    Option.Rel Keeps (body.member? name) (listed.get? name) := by
  rcases cases_of_ofJson h with ⟨ms, rfl, hmap⟩ | ⟨hobject, rfl⟩
  · obtain ⟨hascending, hvalues⟩ := Json.canonical_object_eq_self_iff.1 hbody
    let members : KeyMap Json := ⟨ms, hascending⟩
    have hmap' : Decode.map decode (.object members.entries) = .ok listed := hmap
    have hget := Decode.get?_of_map hmap' name
    show Option.Rel Keeps (members.get? name) (listed.get? name)
    rcases hmember : members.get? name with _ | v
    · rw [hget, hmember]
      exact .none
    · have hmem : (name, v) ∈ ms := KeyMap.mem_entries_iff.2 hmember
      obtain ⟨a, ha⟩ := Decode.map_isOk_iff.1 ⟨listed, hmap'⟩ (name, v) hmem
      rw [hget, hmember, Option.bind_some, ha]
      exact .some (hkeeps (hvalues _ hmem) ha)
  · have hmember : body.member? name = none := by
      cases body with
      | object ms => exact absurd rfl (hobject ms)
      | _ => rfl
    rw [hmember]
    exact .none

theorem ofJson_ofMap (hbody : body.canonical = body)
    (hread : ∀ {v a}, v.canonical = v → decode v = .ok a → decode (encode a).canonical = .ok a)
    (h : ofJson decode body = .ok listed) :
    ofJson decode (Json.ofMap encode listed).canonical = .ok listed := by
  have hmap : Decode.map decode (Json.ofMap (fun a => (encode a).canonical) listed) =
      .ok listed := by
    refine Decode.map_ofMap fun e he => ?_
    rcases cases_of_ofJson h with ⟨ms, rfl, hmap⟩ | ⟨-, rfl⟩
    · obtain ⟨m, hm, ha⟩ := Decode.exists_of_mem_of_map hmap he
      exact hread ((Json.canonical_object_eq_self_iff.1 hbody).2 m hm) ha
    · cases he
  rw [Json.canonical_ofMap_eq]
  exact ofJson_object_eq_ok_iff.2 hmap

end Listing

/-! ### Calls -/

/-- The call for all policies, answered with a body. -/
def policiesListed (body : Json) : List (Exchange Api) :=
  [⟨.call (.get Family.policy.listing), .ok body⟩]

/-- The call for all escalations, answered with a body. -/
def escalationsListed (body : Json) : List (Exchange Api) :=
  [⟨.call (.get Family.escalation.listing), .ok body⟩]

theorem runs_policies_iff {body : Json} {outcome : Except ApiError (KeyMap Policy)} :
    policies.Runs (policiesListed body) outcome ↔ outcome = decodePolicies body := by
  rw [policies, runs_listing_iff]
  constructor
  · rintro ⟨answer, hlog, rfl⟩
    cases hlog
    rfl
  · exact fun h => ⟨.ok body, rfl, h⟩

theorem runs_escalations_iff {body : Json} {outcome : Except ApiError (KeyMap (List Step))} :
    escalations.Runs (escalationsListed body) outcome ↔ outcome = decodeEscalations body := by
  rw [escalations, runs_listing_iff]
  constructor
  · rintro ⟨answer, hlog, rfl⟩
    cases hlog
    rfl
  · exact fun h => ⟨.ok body, rfl, h⟩

/-- What is listed keeps what the server sent: the members of each section and of each step, with
their values. A section gets its defaults for members that it lacks, and a type its plain name. What
is written for a listing is listed as the same again. Values that are read are canonical
(`Json.canonical_of_ofText?`). -/
theorem listings_keep_what_was_sent :
    (∀ body listed, body.canonical = body → policies.Runs (policiesListed body) (.ok listed) →
      (∀ name, Option.Rel Policy.Keeps (body.member? name) (listed.get? name)) ∧
        policies.Runs (policiesListed (Json.ofMap Policy.toJson listed).canonical)
          (.ok listed)) ∧
    ∀ body listed, body.canonical = body →
      escalations.Runs (escalationsListed body) (.ok listed) →
        (∀ name, Option.Rel Step.KeepsAll (body.member? name) (listed.get? name)) ∧
          escalations.Runs (escalationsListed
            (Json.ofMap (fun steps => .array (steps.map Step.toJson)) listed).canonical)
            (.ok listed) := by
  refine ⟨fun body listed hbody hruns => ?_, fun body listed hbody hruns => ?_⟩
  · have hlisted := (runs_policies_iff.1 hruns).symm
    refine ⟨rel_of_ofJson hbody Policy.keeps_of_ofJson hlisted, runs_policies_iff.2 ?_⟩
    exact (ofJson_ofMap hbody Policy.ofJson_toJson_of_ofJson hlisted).symm
  · have hlisted := (runs_escalations_iff.1 hruns).symm
    refine ⟨rel_of_ofJson hbody Step.keepsAll_of_list hlisted, runs_escalations_iff.2 ?_⟩
    exact (ofJson_ofMap hbody Step.list_toJson_of_list hlisted).symm

/-- A section with nested values and without a number of occurrences, beside one that is `null`; and
a step whose type is given by an object. -/
theorem listings_keep_what_was_sent_with_nested_values :
    let crit : List (String × Json) := [("escalation", .string "page"), ("greater", .int 90),
      ("less", .null), ("window", .object [("a", .array [.int 1, .bool true]), ("z", .null)])]
    let policy : Json := .object [("crit", .object crit), ("name", .string "cpu"),
      ("not_match", .null)]
    let steps : Json := .array [.object [("to", .array [.string "ops"]),
      ("type", .object [("email", .null)])], .object [("type", .string "console")]]
    (∃ listed p w, policies.Runs (policiesListed (.object [("cpu", policy)])) (.ok listed) ∧
      listed.get? "cpu" = some p ∧ p.toJson.canonical.member? "crit" = some w ∧
      Json.Completes Condition.defaults crit w ∧
      p.toJson.canonical.member? "not_match" = none) ∧
    ∃ listed kept, escalations.Runs (escalationsListed (.object [("mail", steps)])) (.ok listed) ∧
      listed.get? "mail" = some kept ∧ Step.KeepsAll steps kept := by
  intro crit policy steps
  constructor
  · obtain ⟨listed, hlisted⟩ : ∃ listed, decodePolicies (.object [("cpu", policy)]) = .ok listed :=
      isOk_iff.1 (by decide +kernel)
    have hruns := runs_policies_iff.2 hlisted.symm
    have hkept := (listings_keep_what_was_sent.1 _ listed rfl hruns).1 "cpu"
    obtain ⟨p, hget, hkeeps⟩ := exists_of_rel hkept rfl
    obtain ⟨w, hw, hcompletes⟩ := hkeeps.crit.object crit rfl
    exact ⟨listed, p, w, hruns, hget, hw, hcompletes, hkeeps.notMatch.nothing (.inr rfl)⟩
  · obtain ⟨listed, hlisted⟩ :
        ∃ listed, decodeEscalations (.object [("mail", steps)]) = .ok listed :=
      isOk_iff.1 (by decide +kernel)
    have hruns := runs_escalations_iff.2 hlisted.symm
    have hkept := (listings_keep_what_was_sent.2 _ listed rfl hruns).1 "mail"
    obtain ⟨kept, hget, hkeeps⟩ := exists_of_rel hkept rfl
    exact ⟨listed, kept, hruns, hget, hkeeps⟩

end Catalog

end AlertConsole
