import AlertConsole.History
import AlertConsole.Proofs.Dialogue
import AlertConsole.Proofs.Outcome

/-!
# What becomes of a history

The list of a history and its index are replaced together, by the answer to a call for all versions
that can be decoded, and by nothing else (`eq_lastLoading_of_performAll`). A fetch makes this call,
and so does making a version current once the server has accepted it; going back to a version asks
the operator once and calls nothing without consent. The equivalences `runs_fetch_iff`,
`runs_setCurrent_iff` and `runs_requestRevert_iff` say for each operation all that it asks, whatever
the answers are.
-/

namespace AlertConsole.History

variable {h h' : History} {hash : String} {asked : List (Exchange Api)}

/-! ## The calls -/

/-- The call for all versions. -/
abbrev loading : Request :=
  .get Family.version.listing

/-- The call that makes a version the current one. -/
abbrev selecting (hash : String) : Request :=
  .post (Family.version.path hash) none

/-- The history that the answer to the call for all versions has in it. -/
def listed? (listed : Except ApiError Json) : Option History :=
  (listed.bind ofJson).toOption

/-! ## The operations -/

theorem fetch_eq (h : History) :
    h.fetch = (fun listed : Except ApiError Json =>
      ((listed.bind ofJson).map fun fetched => fetched.snapshots.length,
        (listed? listed).getD h)) <$> Api.get Family.version.listing := by
  rw [map_eq_pure_bind]
  refine congrArg (Api.get Family.version.listing >>= ·) (funext fun listed => ?_)
  unfold listed?
  rcases listed.bind ofJson with cause | fetched <;> rfl

theorem runs_fetch_iff {outcome : Except ApiError Nat} :
    h.fetch.Runs asked (outcome, h') ↔
      ∃ listed : Except ApiError Json, asked = [⟨.call loading, listed⟩] ∧
        outcome = (listed.bind ofJson).map (fun fetched => fetched.snapshots.length) ∧
        h' = (listed? listed).getD h := by
  rw [fetch_eq, Dialogue.runs_map_iff]
  refine exists_congr fun listed => ?_
  rw [Prod.mk.injEq]
  exact and_congr_left' Dialogue.runs_question_iff

/-- What is reported of a fetch after a version was made current. -/
def unreloaded (listed : Except ApiError Json) : List (Exchange Api) :=
  match listed.bind ofJson with
  | .ok _ => []
  | .error cause => [⟨.report (.historyNotReloaded cause), ()⟩]

/-- The courses that making a version current can take. -/
inductive Selection (h : History) (hash : String) :
    List (Exchange Api) → Except ApiError Unit → History → Prop where
  | rejected (cause : ApiError) :
    Selection h hash [⟨.call (selecting hash), .error cause⟩] (.error cause) h
  | accepted (listed : Except ApiError Json) :
    Selection h hash
      ([⟨.call (selecting hash), .ok ()⟩, ⟨.report (.versionSelected hash), ()⟩,
        ⟨.call loading, listed⟩] ++ unreloaded listed)
      (.ok ()) ((listed? listed).getD h)

theorem runs_setCurrent_iff {outcome : Except ApiError Unit} :
    (h.setCurrent hash).Runs asked (outcome, h') ↔ Selection h hash asked outcome h' := by
  constructor
  · intro hruns
    obtain ⟨selected, first, rest, rfl, hpost, hrest⟩ := Dialogue.runs_bind_iff.1 hruns
    obtain rfl := Dialogue.runs_question_iff.1 hpost
    rcases selected with cause | ⟨⟩
    · obtain ⟨rfl, ⟨⟩⟩ := Dialogue.runs_done_iff.1 hrest
      exact .rejected cause
    obtain ⟨⟨⟩, reporting, reloading, rfl, hreport, hreload⟩ := Dialogue.runs_bind_iff.1 hrest
    obtain rfl := Dialogue.runs_question_iff.1 hreport
    obtain ⟨⟨counted, h''⟩, fetching, done, rfl, hfetch, hdone⟩ := Dialogue.runs_bind_iff.1 hreload
    obtain ⟨listed, rfl, rfl, rfl⟩ := runs_fetch_iff.1 hfetch
    have haccepted : Selection h hash _ _ _ := .accepted listed
    unfold unreloaded at haccepted
    rcases hlisted : listed.bind ofJson with cause | fetched <;> rw [hlisted] at hdone haccepted
    · obtain ⟨⟨⟩, reporting, last, rfl, hreport, hlast⟩ := Dialogue.runs_bind_iff.1 hdone
      obtain rfl := Dialogue.runs_question_iff.1 hreport
      obtain ⟨rfl, ⟨⟩⟩ := Dialogue.runs_done_iff.1 hlast
      exact haccepted
    · obtain ⟨rfl, ⟨⟩⟩ := Dialogue.runs_done_iff.1 hdone
      exact haccepted
  · rintro (cause | listed)
    · exact .ask _ (.done _)
    · have hcounted := (runs_fetch_iff (h := h)).2 ⟨listed, rfl, rfl, rfl⟩
      refine Dialogue.runs_bind_iff.2 ⟨.ok (), [_], _, rfl, Dialogue.runs_question_iff.2 rfl, ?_⟩
      refine Dialogue.runs_bind_iff.2 ⟨(), [_], _, rfl, Dialogue.runs_question_iff.2 rfl, ?_⟩
      refine Dialogue.runs_bind_iff.2 ⟨_, [_], unreloaded listed, rfl, hcounted, ?_⟩
      unfold unreloaded
      rcases listed.bind ofJson with cause | fetched
      · exact .ask _ (.done _)
      · exact .done _

theorem runs_requestRevert_iff {outcome : Except ApiError RevertOutcome} :
    (h.requestRevert hash).Runs asked (outcome, h') ↔
      (asked = [⟨.confirm revertTitle (revertMessage hash), false⟩] ∧ outcome = .ok .cancelled ∧
        h' = h) ∨
      ∃ rest selected, asked = ⟨.confirm revertTitle (revertMessage hash), true⟩ :: rest ∧
        Selection h hash rest selected h' ∧ outcome = selected.map fun _ => .reverted := by
  constructor
  · intro hruns
    obtain ⟨consent, first, rest, rfl, hconfirm, hrest⟩ := Dialogue.runs_bind_iff.1 hruns
    obtain rfl := Dialogue.runs_question_iff.1 hconfirm
    cases consent with
    | false =>
      obtain ⟨rfl, ⟨⟩⟩ := Dialogue.runs_done_iff.1 hrest
      exact .inl ⟨rfl, rfl, rfl⟩
    | true =>
      obtain ⟨⟨selected, h''⟩, setting, done, rfl, hset, hdone⟩ := Dialogue.runs_bind_iff.1 hrest
      obtain ⟨rfl, ⟨⟩⟩ := Dialogue.runs_done_iff.1 hdone
      rw [List.append_nil]
      exact .inr ⟨setting, selected, rfl, runs_setCurrent_iff.1 hset, rfl⟩
  · rintro (⟨rfl, rfl, rfl⟩ | ⟨rest, selected, rfl, hselection, rfl⟩)
    · exact Dialogue.runs_bind_iff.2
        ⟨false, [_], [], rfl, Dialogue.runs_question_iff.2 rfl, .done _⟩
    · have hset := runs_setCurrent_iff.2 hselection
      refine Dialogue.runs_bind_iff.2 ⟨true, [_], rest, rfl, Dialogue.runs_question_iff.2 rfl, ?_⟩
      exact Dialogue.runs_bind_iff.2 ⟨_, rest, [], (List.append_nil _).symm, hset, .done _⟩

/-! ## The last answer that can be decoded -/

/-- The index is that of the list; of several versions with one hash the last listed counts. -/
def Indexed (h : History) : Prop :=
  h.byHash = .ofList (h.snapshots.map fun s => (s.hash, s))

theorem indexed_of_listed? {listed : Except ApiError Json} (hlisted : listed? listed = some h) :
    h.Indexed := by
  obtain ⟨body, -, hbody⟩ := bind_eq_ok_iff.1 (toOption_eq_some_iff.1 hlisted)
  obtain ⟨fetched, -, rfl⟩ := map_eq_ok_iff.1 hbody
  rfl

/-- The history that an exchange brings, if it is a call for all versions. -/
def loading? : Exchange Api → Option History
  | ⟨.call (.get path), listed⟩ => if path = Family.version.listing then listed? listed else none
  | _ => none

/-- The history that the last call for all versions brought, or the one from before. -/
def lastLoading (asked : List (Exchange Api)) (h : History) : History :=
  (asked.filterMap loading?).getLast?.getD h

theorem lastLoading_append (asked asked' : List (Exchange Api)) (h : History) :
    lastLoading (asked ++ asked') h = lastLoading asked' (lastLoading asked h) := by
  rw [lastLoading, List.filterMap_append, List.getLast?_append, Option.getD_or]
  rfl

theorem lastLoading_loading (listed : Except ApiError Json) (h : History) :
    lastLoading [⟨.call loading, listed⟩] h = (listed? listed).getD h := by
  have hloading : loading? ⟨.call loading, listed⟩ = listed? listed := by simp [loading?]
  rw [lastLoading, List.filterMap_cons, hloading]
  rcases listed? listed <;> rfl

theorem lastLoading_unreloaded (listed : Except ApiError Json) (h : History) :
    lastLoading (unreloaded listed) h = h := by
  unfold unreloaded
  rcases listed.bind ofJson <;> rfl

/-- A history is indexed if it was there before or was brought by a call. -/
theorem indexed_lastLoading (hindexed : h.Indexed) : (lastLoading asked h).Indexed := by
  unfold lastLoading
  rcases hlast : (asked.filterMap loading?).getLast? with _ | last
  · exact hindexed
  obtain ⟨⟨q, r⟩, -, hloading⟩ := List.mem_filterMap.1 (List.mem_of_getLast? hlast)
  unfold loading? at hloading
  split at hloading
  · split at hloading
    · exact indexed_of_listed? hloading
    · cases hloading
  · cases hloading

/-! ## Runs -/

theorem Selection.eq_lastLoading {outcome : Except ApiError Unit}
    (hselection : Selection h hash asked outcome h') : h' = lastLoading asked h := by
  cases hselection with
  | rejected cause => rfl
  | accepted listed =>
    rw [lastLoading_append, lastLoading_unreloaded]
    exact (lastLoading_loading listed h).symm

inductive Operation where
  | fetch
  | setCurrent (hash : String)
  | requestRevert (hash : String)

def perform (h : History) : Operation → Dialogue Api History
  | .fetch => Prod.snd <$> h.fetch
  | .setCurrent hash => Prod.snd <$> h.setCurrent hash
  | .requestRevert hash => Prod.snd <$> h.requestRevert hash

/-- Operations one after the other. -/
def performAll (h : History) : List Operation → Dialogue Api History
  | [] => pure h
  | op :: rest => do (← h.perform op).performAll rest

theorem eq_lastLoading_of_perform {op : Operation} (hruns : (h.perform op).Runs asked h') :
    h' = lastLoading asked h := by
  cases op with
  | fetch =>
    obtain ⟨⟨outcome, _⟩, hfetch, rfl⟩ := Dialogue.runs_map_iff.1 hruns
    obtain ⟨listed, rfl, -, rfl⟩ := runs_fetch_iff.1 hfetch
    exact (lastLoading_loading listed h).symm
  | setCurrent hash =>
    obtain ⟨⟨outcome, _⟩, hset, rfl⟩ := Dialogue.runs_map_iff.1 hruns
    exact (runs_setCurrent_iff.1 hset).eq_lastLoading
  | requestRevert hash =>
    obtain ⟨⟨outcome, _⟩, hrevert, rfl⟩ := Dialogue.runs_map_iff.1 hruns
    rcases runs_requestRevert_iff.1 hrevert with
      ⟨rfl, -, rfl⟩ | ⟨rest, selected, rfl, hselection, -⟩
    · rfl
    · exact hselection.eq_lastLoading

theorem eq_lastLoading_of_performAll {ops : List Operation}
    (hruns : (h.performAll ops).Runs asked h') : h' = lastLoading asked h := by
  induction ops generalizing h asked with
  | nil =>
    obtain ⟨rfl, rfl⟩ := Dialogue.runs_done_iff.1 hruns
    rfl
  | cons op rest ih =>
    obtain ⟨mid, first, later, rfl, hop, hrest⟩ := Dialogue.runs_bind_iff.1 hruns
    obtain rfl := eq_lastLoading_of_perform hop
    rw [ih hrest, lastLoading_append]

/-- After any operations the list and the index are those of the last call for all versions that was
answered with versions, and both are empty if there was none. What each operation asks, how it ends
and which history it leaves is settled by the answers that it gets. -/
theorem consistent_over_runs :
    (∀ (ops : List Operation) (asked : List (Exchange Api)) (h' : History),
      (empty.performAll ops).Runs asked h' → h' = lastLoading asked empty ∧ h'.Indexed) ∧
    (∀ (h h' : History) (asked : List (Exchange Api)) (outcome : Except ApiError Nat),
      h.fetch.Runs asked (outcome, h') ↔
        ∃ listed : Except ApiError Json, asked = [⟨.call loading, listed⟩] ∧
          outcome = (listed.bind ofJson).map (fun fetched => fetched.snapshots.length) ∧
          h' = (listed? listed).getD h) ∧
    (∀ (h h' : History) (hash : String) (asked : List (Exchange Api))
      (outcome : Except ApiError Unit),
      (h.setCurrent hash).Runs asked (outcome, h') ↔ Selection h hash asked outcome h') ∧
    ∀ (h h' : History) (hash : String) (asked : List (Exchange Api))
      (outcome : Except ApiError RevertOutcome),
      (h.requestRevert hash).Runs asked (outcome, h') ↔
        (asked = [⟨.confirm revertTitle (revertMessage hash), false⟩] ∧
          outcome = .ok .cancelled ∧ h' = h) ∨
        ∃ rest selected, asked = ⟨.confirm revertTitle (revertMessage hash), true⟩ :: rest ∧
          Selection h hash rest selected h' ∧ outcome = selected.map fun _ => .reverted := by
  refine ⟨fun ops asked h' hruns => ?_, fun _ _ _ _ => runs_fetch_iff,
    fun _ _ _ _ _ => runs_setCurrent_iff, fun _ _ _ _ _ => runs_requestRevert_iff⟩
  obtain rfl := eq_lastLoading_of_performAll hruns
  exact ⟨rfl, indexed_lastLoading rfl⟩

/-- A version becomes current after it was listed, but it cannot be listed again. -/
theorem consistent_over_runs_after_failure :
    ∃ (asked : List (Exchange Api)) (h' : History),
      (empty.performAll [.fetch, .requestRevert "a"]).Runs asked h' ∧
      ⟨.call loading, .error (.rejected 500 "")⟩ ∈ asked ∧ h'.snapshots.length = 1 ∧
      h'.Indexed := by
  let body : Json :=
    .array [.object [("hash", .string "a"), ("time_stamp", .string "2026-01-02T00:00:00Z")]]
  have hone : ((Decode.optional (Decode.list Snapshot.ofJson) body).toOption.map fun fetched =>
      (fetched.getD []).length) = some 1 := by
    decide +kernel
  obtain ⟨fetched, hfetched, hlength⟩ := Option.map_eq_some_iff.1 hone
  have hlisted : listed? (.ok body) = some (ofSnapshots (fetched.getD [])) := by
    show (ofJson body).toOption = _
    rw [ofJson, toOption_eq_some_iff.1 hfetched]
    rfl
  have hfetch : empty.fetch.Runs _ _ := runs_fetch_iff.2 ⟨.ok body, rfl, rfl, rfl⟩
  have hrevert : (((listed? (.ok body)).getD empty).requestRevert "a").Runs _ _ :=
    runs_requestRevert_iff.2 (.inr ⟨_, _, rfl, .accepted (.error (.rejected 500 "")), rfl⟩)
  have hruns : (empty.performAll [.fetch, .requestRevert "a"]).Runs _ _ :=
    Dialogue.runs_bind_iff.2 ⟨_, _, _, rfl, Dialogue.runs_map_iff.2 ⟨_, hfetch, rfl⟩,
      Dialogue.runs_bind_iff.2 ⟨_, _, [], rfl, Dialogue.runs_map_iff.2 ⟨_, hrevert, rfl⟩, .done _⟩⟩
  obtain ⟨hlast, hindexed⟩ := consistent_over_runs.1 _ _ _ hruns
  refine ⟨_, _, hruns, by simp, ?_, hindexed⟩
  have hkept : (listed? (.error (.rejected 500 ""))).getD ((listed? (.ok body)).getD empty) =
      ofSnapshots (fetched.getD []) := by
    rw [hlisted]
    rfl
  rw [hkept, ofSnapshots, List.length_reverse, List.length_mergeSort, hlength]

end AlertConsole.History
