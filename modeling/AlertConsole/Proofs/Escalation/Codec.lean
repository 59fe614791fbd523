import AlertConsole.Escalation.Step
import AlertConsole.Proofs.Policy.Codec

/-!
# Reading a step back

The options of a step stand beside its type in one object, so a step that was encoded is read back
exactly if no option has the name of the member for the type (`Step.ofJson_toJson_iff`), and a list
of steps is if each of them is (`Step.ofJson_toJson_list`). What a transform makes of a text has no
objects in it (`Transform.canonical_apply`).
-/

namespace AlertConsole

/-! ## Values of options -/

theorem Transform.canonical_apply (transform : Transform) (raw : String) :
    (transform.apply raw).canonical = transform.apply raw := by
  cases transform with
  | identity => exact Json.canonical_string raw
  | splitComma =>
    have hpart : ∀ part : List Char,
        (Json.string (String.ofList part)).canonical = .string (String.ofList part) := by
      intro part
      apply Json.canonical_string
    simp only [apply, Json.canonical_array, Json.canonicalItems_eq_map, List.map_map,
      Function.comp_def, hpart]
  | numeric =>
    show (numericValue raw).canonical = numericValue raw
    unfold numericValue
    rcases hint : Number.int64? (Text.trimChars raw.toList) with _ | n
    · rcases hfloat : Number.binary64? (Text.trimChars raw.toList) with _ | x
      · simp only [hint, hfloat, Json.canonical_string]
      · simp only [hint, hfloat, Json.canonical]
    · simp only [hint, Json.canonical]

/-! ## Steps -/

theorem StepType.ofName?_eq_some_iff {kind : StepType} {name : String} :
    ofName? name = some kind ↔ kind.name = name := by
  constructor
  · intro h
    simpa using List.find?_some h
  · rintro rfl
    exact kind.ofName_name

theorem StepType.ofJson_name (kind : StepType) : ofJson (.string kind.name) = .ok kind := by
  rw [ofJson, ofVariant, ofName_name]

theorem StepType.ofVariant_eq_ok_iff {name : String} {kind : StepType} :
    ofVariant name = .ok kind ↔ kind.name = name := by
  rw [← ofName?_eq_some_iff, ofVariant]
  cases ofName? name <;> simp

/-- A type is read from its name, alone or as the only key of an object. -/
theorem StepType.ofJson_eq_ok_iff {v : Json} {kind : StepType} :
    ofJson v = .ok kind ↔ v = .string kind.name ∨ v = .object [(kind.name, .null)] := by
  constructor
  · intro h
    unfold ofJson at h
    split at h
    · next name =>
      rw [ofVariant_eq_ok_iff] at h
      exact .inl (congrArg _ h.symm)
    · next name value =>
      obtain ⟨kind', hkind, h⟩ := bind_eq_ok_iff.1 h
      split at h
      · cases h
        rw [ofVariant_eq_ok_iff] at hkind
        exact .inr (by rw [hkind])
      · cases h
    · cases h
    · cases h
  · rintro (rfl | rfl)
    · exact kind.ofJson_name
    · rw [ofJson, ofVariant_eq_ok_iff.2 rfl]
      rfl

namespace Step

/-- The members of an encoded step that are not options. -/
def ownMembers : List String := ["type"]

/-- The members of an encoded step that are not options, with their values. -/
def named (s : Step) : List (String × Json) :=
  [("type", .string s.kind.name)]

theorem canonical_toJson {s : Step} (h : s.options.IsCanonical) :
    s.toJson.canonical = .object (sortEntries (s.named ++ s.options.entries)) :=
  Json.canonical_flattened s.named (by simp [named, Json.canonical]) h

theorem ofMembers_eq_ok_iff {ms : List (String × Json)} {s : Step} :
    ofMembers ms = .ok s ↔
      Decode.member? ms "type" StepType.ofJson = .ok (some s.kind) ∧
        Decode.remaining ownMembers ms = s.options := by
  unfold ofMembers
  simp only [bind_eq_ok_iff, pure_eq_ok_iff]
  constructor
  · rintro ⟨kind?, hkind, kind, hrequired, rfl⟩
    rcases kind? with _ | k
    · cases hrequired
    · cases hrequired
      exact ⟨hkind, rfl⟩
  · rintro ⟨hkind, hoptions⟩
    exact ⟨some s.kind, hkind, s.kind, rfl, by rw [← ownMembers, hoptions]⟩

theorem ofJson_toJson_iff {s : Step} (hoptions : s.options.IsCanonical) :
    ofJson s.toJson.canonical = .ok s ↔ ∀ k ∈ ownMembers, s.options.get? k = none := by
  rw [canonical_toJson hoptions]
  apply ofMembers_eq_ok_iff.trans
  constructor
  · intro h k hk
    rw [← h.2]
    exact Decode.get?_remaining hk _
  · intro h
    have htype : s.options.get? "type" = none := h "type" (by simp [ownMembers])
    refine ⟨?_, Decode.remaining_flattened (by simp [named, ownMembers]) h⟩
    rw [Decode.member?, Decode.lookup_flattened, htype]
    show (StepType.ofJson (.string s.kind.name)).map some = .ok (some s.kind)
    rw [StepType.ofJson_name, except_map_ok]

/-- Steps are read back in their order if each of them is. -/
theorem ofJson_toJson_list {steps : List Step}
    (h : ∀ s ∈ steps, ofJson s.toJson.canonical = .ok s) :
    Decode.list ofJson (Json.array (steps.map toJson)).canonical = .ok steps := by
  rw [Json.canonical_array, Json.canonicalItems_eq_map, List.map_map, Decode.list,
    mapM_eq_ok_iff, List.forall₂_map_left_iff, List.forall₂_same]
  exact h

end Step

end AlertConsole
