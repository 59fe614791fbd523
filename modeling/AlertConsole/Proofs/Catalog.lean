import AlertConsole.Catalog
import AlertConsole.Proofs.Api.Run
import AlertConsole.Proofs.Dialogue
import AlertConsole.Proofs.Json.Decode

/-!
# Reading a listing

A listing is asked for in one call. If the answer is an object, it is decoded entry by entry, and
what is listed has the names of its members, which ascend (`keys_of_ofJson`, `pairwise_keys`).
-/

namespace AlertConsole

theorem KeyMap.pairwise_keys {α : Type} (m : KeyMap α) : m.keys.Pairwise (· < ·) :=
  List.pairwise_map.2 m.ascending

theorem KeyMap.mem_keys_insert {α : Type} (m : KeyMap α) (key : String) (value : α) :
    key ∈ (m.insert key value).keys := by
  have hget := m.get?_insert key key value
  rw [if_pos rfl] at hget
  exact List.mem_map_of_mem (mem_of_lookup hget)

namespace Catalog

variable {α : Type}

/-! ## Answers -/

theorem toApi_eq_ok_iff {x : Decoded α} {a : α} : x.toApi = .ok a ↔ x = .ok a := by
  rcases x with e | b <;> simp [Decoded.toApi, Except.mapError]

theorem ofJson_object_eq_ok_iff {decode : Json → Decoded α} {ms : List (String × Json)}
    {m : KeyMap α} : ofJson decode (.object ms) = .ok m ↔ Decode.map decode (.object ms) = .ok m :=
  toApi_eq_ok_iff

theorem decodePolicies_object_eq_ok_iff {ms : List (String × Json)} {m : KeyMap Policy} :
    decodePolicies (.object ms) = .ok m ↔ Decode.map Policy.ofJson (.object ms) = .ok m :=
  ofJson_object_eq_ok_iff

theorem keys_of_ofJson {decode : Json → Decoded α} {m : KeyMap Json} {r : KeyMap α}
    (h : ofJson decode (.object m.entries) = .ok r) : r.keys = m.keys := by
  have hmap := ofJson_object_eq_ok_iff.1 h
  exact Decode.keys_of_mapM_entry (Decode.map_object_eq_ok_iff.1 hmap)

/-! ## Calls -/

theorem runs_listing_iff {path : String} {decode : Json → Except ApiError α}
    {log : List (Exchange Api)} {outcome : Except ApiError α} :
    (do pure ((← Api.get path).bind decode) : Dialogue Api (Except ApiError α)).Runs log outcome ↔
      ∃ answer, log = [⟨.call (.get path), answer⟩] ∧ outcome = answer.bind decode := by
  rw [Dialogue.runs_bind_iff]
  constructor
  · rintro ⟨answer, first, rest, rfl, hget, hdone⟩
    obtain ⟨rfl, rfl⟩ := Dialogue.runs_done_iff.1 hdone
    rw [Dialogue.runs_question_iff.1 hget, List.append_nil]
    exact ⟨answer, rfl, rfl⟩
  · rintro ⟨answer, rfl, rfl⟩
    exact ⟨answer, _, [], (List.append_nil _).symm, Dialogue.runs_question_iff.2 rfl, .done _⟩

variable {σ : Type} (server : Api.Server σ) (consent : Bool) (t : Api.Transcript σ)

theorem run_policies :
    (Api.run server consent policies t).1 =
      (server.answer (.get Family.policy.listing) t.server).1.bind decodePolicies := by
  rw [policies, Api.run_bind, Api.run_get, Dialogue.pure_eq, Api.run_done]

theorem run_escalations :
    (Api.run server consent escalations t).1 =
      (server.answer (.get Family.escalation.listing) t.server).1.bind decodeEscalations := by
  rw [escalations, Api.run_bind, Api.run_get, Dialogue.pure_eq, Api.run_done]

theorem run_escalationNames :
    (Api.run server consent escalationNames t).1 =
      (Api.run server consent escalations t).1.map KeyMap.keys := by
  rw [escalationNames, Api.run_bind, Dialogue.pure_eq, Api.run_done]

end Catalog

end AlertConsole
