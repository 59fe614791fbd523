import AlertConsole.Api.Memory
import AlertConsole.Proofs.Catalog
import AlertConsole.Proofs.Draft.Submit
import AlertConsole.Proofs.Policy.Codec
import AlertConsole.Proofs.Policy.Edit

/-!
# From a draft to the listing and back

The chips of a section become members of the same object as its occurrences and its escalation.
A draft is `Unambiguous` if no chip that is submitted has the name of such a member, and exactly
then the listing of policies gives back what was built (`PolicyDraft.ofJson_toJson_iff`,
`PolicyDraft.listing_iff_unambiguous`).
-/

namespace AlertConsole

/-! ## Chips as fields -/

theorem get?_chipFields_eq_none_iff (chips : List Chip) (k : String) :
    (chipFields chips).get? k = none ↔ ∀ chip ∈ chips, chip.key ≠ k := by
  rw [chipFields, KeyMap.get?_ofList_eq_none_iff]
  simp

theorem isCanonical_chipFields (chips : List Chip) : (chipFields chips).IsCanonical := by
  intro e he
  obtain ⟨chip, -, rfl⟩ := List.mem_map.1 (mem_of_mem_sortEntries he)
  exact Json.canonical_string chip.value

theorem forall_get?_chipFields_iff (chips : List Chip) (keys : List String) :
    (∀ k ∈ keys, (chipFields chips).get? k = none) ↔ ∀ chip ∈ chips, chip.key ∉ keys := by
  simp only [get?_chipFields_eq_none_iff]
  constructor
  · intro h chip hchip hkey
    exact h chip.key hkey chip hchip rfl
  · rintro h k hk chip hchip rfl
    exact h chip hchip hk

/-! ## Sections -/

namespace ConditionDraft

/-- The section is left out, or none of its chips has the name of a member. -/
def Unambiguous (c : ConditionDraft) : Prop :=
  c.escalation = none ∨ ∀ chip ∈ c.chips, chip.key ∉ Condition.ownMembers

instance (c : ConditionDraft) : Decidable c.Unambiguous :=
  inferInstanceAs (Decidable (_ ∨ _))

theorem ofJson_build?_iff {c : ConditionDraft} (h : c.Counted) :
    (∀ s, c.build? = some s → Condition.ofJson s.toJson.canonical = .ok s) ↔ c.Unambiguous := by
  unfold build? Unambiguous
  rcases hescalation : c.escalation with _ | escalation
  · simp
  by_cases hchips : c.chips = []
  · simp [hchips]
  simp only [if_neg hchips, Option.some.injEq, forall_eq', reduceCtorEq, false_or]
  refine (Condition.ofJson_toJson_iff (isCanonical_chipFields c.chips) ?_).trans ?_
  · exact h
  · exact forall_get?_chipFields_iff c.chips Condition.ownMembers

end ConditionDraft

namespace PolicyDraft

/-- No chip that is submitted has the name of a member of its section. -/
def Unambiguous (d : PolicyDraft) : Prop :=
  (∀ chip ∈ d.notMatchChips, chip.key ∉ NotMatch.ownMembers) ∧
    d.crit.Unambiguous ∧ d.warn.Unambiguous

instance (d : PolicyDraft) : Decidable d.Unambiguous :=
  inferInstanceAs (Decidable (_ ∧ _))

theorem ofJson_notMatchSection?_iff {d : PolicyDraft}
    (h : (d.notMatchOccurrences : Int) ≤ Number.uint32Max) :
    (∀ s, d.notMatchSection? = some s → NotMatch.ofJson s.toJson.canonical = .ok s) ↔
      ∀ chip ∈ d.notMatchChips, chip.key ∉ NotMatch.ownMembers := by
  unfold notMatchSection?
  by_cases hchips : d.notMatchChips = []
  · simp [hchips]
  simp only [if_neg hchips, Option.some.injEq, forall_eq']
  refine (NotMatch.ofJson_toJson_iff (isCanonical_chipFields d.notMatchChips) h).trans ?_
  exact forall_get?_chipFields_iff d.notMatchChips NotMatch.ownMembers

/-! ## Policies -/

/-- A built policy is read back exactly if its draft is unambiguous. -/
theorem ofJson_toJson_iff {d : PolicyDraft} (h : d.Counted) :
    Policy.ofJson d.policy.toJson.canonical = .ok d.policy ↔ d.Unambiguous := by
  rw [Policy.ofJson_toJson_iff]
  exact and_congr (ofJson_notMatchSection?_iff h.notMatch)
    (and_congr (ConditionDraft.ofJson_build?_iff h.crit)
      (ConditionDraft.ofJson_build?_iff h.warn))

end PolicyDraft

/-! ## The listing -/

namespace PolicyDraft

/-- What is submitted of an edited draft is read back from a listing that has it under its name,
beside other policies, exactly if the draft is unambiguous. -/
theorem listing_iff_unambiguous {σ : Type} (server : Api.Server σ) (consent : Bool)
    (t : Api.Transcript σ) (edits : List PolicyEdit)
    (hname : Text.isBlankText (ofEdits edits).name = false) :
    ∃ p body, (ofEdits edits).build = .ok p ∧
      (Api.run server consent (Draft.policy (ofEdits edits)).submit t).2.requests =
        t.requests ++ [.post (Family.policy.path (ofEdits edits).name) (some body)] ∧
      ∀ (stored : KeyMap Json) (later : Api.Transcript σ),
        (∀ e ∈ stored.entries, e.1 ≠ (ofEdits edits).name → ∃ q, Policy.ofJson e.2 = .ok q) →
        (server.answer (.get Family.policy.listing) later.server).1 =
          .ok (.object (stored.insert (ofEdits edits).name body).entries) →
        ((∃ m, (Api.run server consent Catalog.policies later).1 = .ok m ∧
            m.get? (ofEdits edits).name = some p) ↔
          (ofEdits edits).Unambiguous) := by
  refine ⟨_, _, build_of_name hname,
    Draft.requests_run_submit server consent t (Draft.payload_of_name hname), ?_⟩
  intro stored later hothers hlisting
  rw [Catalog.run_policies, hlisting, ← ofJson_toJson_iff (Counted.ofEdits edits),
    ← Decode.map_insert_iff hothers]
  refine exists_congr fun m => and_congr_left fun _ => ?_
  exact Catalog.decodePolicies_object_eq_ok_iff

/-- Chips may have the names of members where they are matched or where the section is left out. -/
theorem listing_of_harmless_chips :
    ∃ p body, (ofEdits [.setName "disk", .addMatch "occurences" "1", .addNotMatch "host" "test",
        .crit (.addChip "mount" "/"), .crit (.setOccurrences 3),
        .crit (.setEscalation (some "page")), .warn (.addChip "escalation" "mail")]).build = .ok p ∧
      ∃ m, (Api.run MemoryServer.server true Catalog.policies
          (.start (.start (KeyMap.empty.insert Family.policy.listing
            (.object (KeyMap.empty.insert "disk" body).entries)) []))).1 = .ok m ∧
        m.get? "disk" = some p := by
  obtain ⟨p, body, hp, -, h⟩ := listing_iff_unambiguous MemoryServer.server true
    (.start (.start .empty []))
    [.setName "disk", .addMatch "occurences" "1", .addNotMatch "host" "test",
      .crit (.addChip "mount" "/"), .crit (.setOccurrences 3),
      .crit (.setEscalation (some "page")), .warn (.addChip "escalation" "mail")] (by decide)
  exact ⟨p, body, hp, (h .empty _ (by simp [KeyMap.empty]) rfl).2 (by decide)⟩

/-- One chip named like the count of its section makes the listing unreadable. -/
theorem listing_of_occurences_chip :
    ∃ p body, (ofEdits [.setName "disk", .crit (.addChip "occurences" "x"),
        .crit (.setEscalation (some "page"))]).build = .ok p ∧
      (Api.run MemoryServer.server true
        (Draft.policy (ofEdits [.setName "disk", .crit (.addChip "occurences" "x"),
          .crit (.setEscalation (some "page"))])).submit
        (.start (.start .empty []))).2.requests =
          [.post (Family.policy.path "disk") (some body)] ∧
      (Api.run MemoryServer.server true Catalog.policies
          (.start (.start (KeyMap.empty.insert Family.policy.listing
            (.object (KeyMap.empty.insert "disk" body).entries)) []))).1 =
        .error (.malformed (.undecodable (.wrongType (.string "x") .uint32))) :=
  ⟨_, _, build_of_name (by decide), rfl, rfl⟩

end PolicyDraft

end AlertConsole
