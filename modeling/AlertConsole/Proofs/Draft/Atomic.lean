import AlertConsole.Api.Memory
import AlertConsole.Proofs.Escalation.Edit
import AlertConsole.Proofs.Policy.RoundTrip
import AlertConsole.Proofs.Policy.Sections

/-!
# Submissions are all or nothing

What a draft is sent as is told by the members of its documents: a step has its type and its options
(`Step.IsSentAs`), a policy the sections that have something in them (`PolicyDraft.IsSentAs`). A draft
that a builder can come to hold is sent whole or not at all, and is given up only when the server has
accepted it (`Draft.submit_atomic`).
-/

namespace AlertConsole

/-! ## Documents -/

/-- An object with exactly these members, in key order. -/
def Json.IsObjectOf (v : Json) (value? : String → Option Json) : Prop :=
  ∃ members, v = .object members ∧ Ascending members ∧
    ∀ key, members.lookup key = value? key

/-- The type of a step and every one of its options. -/
def Step.IsSentAs (s : Step) (v : Json) : Prop :=
  v.IsObjectOf fun key =>
    if key = "type" then some (.string s.kind.name) else s.options.get? key

/-- The value of the last of these chips that has the key. -/
def Chip.lastValue? (chips : List Chip) (key : String) : Option String :=
  (chips.filter fun chip => chip.key = key).getLast?.map Chip.value

/-- The chips of a section beside its own members; a chip stands over a member of its name. -/
def IsSectionDocument (own : List (String × Json)) (chips : List Chip) (v : Json) : Prop :=
  v.IsObjectOf fun key => ((Chip.lastValue? chips key).map .string).or (own.lookup key)

/-- What a section is sent as, which is nothing if it has no chips. -/
inductive IsSection (own : List (String × Json)) (chips : List Chip) : Option Json → Prop where
  | leftOut (h : chips = []) : IsSection own chips none
  | sent {v : Json} (h : chips ≠ []) (hv : IsSectionDocument own chips v) :
    IsSection own chips (some v)

/-- What a condition is sent as, which is nothing unless it has an escalation, too. -/
def ConditionDraft.IsSentAs (c : ConditionDraft) (sent : Option Json) : Prop :=
  match c.escalation with
  | none => sent = none
  | some escalation =>
    IsSection [("escalation", .string escalation), ("occurences", .int c.occurrences)] c.chips sent

structure PolicyDraft.IsSentAs (d : PolicyDraft) (body : Json) : Prop where
  ascending : ∃ members, body = .object members ∧ Ascending members
  name : body.member? "name" = some (.string d.name)
  matched : IsSection [] d.matchChips (body.member? "match")
  notMatched : IsSection [("occurences", .int d.notMatchOccurrences)] d.notMatchChips
    (body.member? "not_match")
  crit : d.crit.IsSentAs (body.member? "crit")
  warn : d.warn.IsSentAs (body.member? "warn")
  nothingElse : ∀ key, key ∉ ["name", "match", "not_match", "crit", "warn"] →
    body.member? key = none

/-- The whole draft: every step in its order, or the name and every section. -/
def Draft.IsSentAs : Draft → Json → Prop
  | escalation d, body =>
    ∃ documents, body = .array documents ∧ List.Forall₂ Step.IsSentAs d.steps documents
  | policy d, body => d.IsSentAs body

theorem Json.isObjectOf_object {members : List (String × Json)} {value? : String → Option Json}
    (hascending : Ascending members) (hvalue : ∀ key, members.lookup key = value? key) :
    (Json.object members).IsObjectOf value? :=
  ⟨members, rfl, hascending, hvalue⟩

/-! ### Steps -/

theorem Step.FollowsSchema.isSentAs {s : Step} (h : s.FollowsSchema) :
    s.IsSentAs s.toJson.canonical := by
  rw [canonical_toJson h.isCanonical]
  refine Json.isObjectOf_object (ascending_sortEntries _) fun key => ?_
  rw [Decode.lookup_flattened]
  by_cases hkey : key = "type"
  · rw [if_pos hkey, hkey, h.get?_type]
    rfl
  · have hnamed : s.named.reverse.lookup key = none := by
      simpa [named] using hkey
    rw [if_neg hkey, hnamed, Option.or_none]

theorem EscalationDraft.FollowSchemas.isSentAs {d : EscalationDraft} (h : d.FollowSchemas) :
    (Draft.escalation d).IsSentAs (Draft.escalation d).body := by
  refine ⟨_, ?_, List.forall₂_map_right_iff.2 (List.forall₂_same.2 fun s hs => (h s hs).isSentAs)⟩
  rw [Draft.body, Json.canonical_array, Json.canonicalItems_eq_map, List.map_map]
  rfl

/-! ### Policies -/

theorem isSectionDocument_flattened (named : List (String × Json)) (chips : List Chip) :
    IsSectionDocument named.reverse chips
      (.object (sortEntries (named ++ (chipFields chips).entries))) := by
  refine Json.isObjectOf_object (ascending_sortEntries _) fun key => ?_
  rw [Decode.lookup_flattened, chipFields, sendsChips_ofList Json.string chips key,
    Chip.lastValue?]

theorem isSectionDocument_match (chips : List Chip) :
    IsSectionDocument [] chips
      (Json.ofMap .string (.ofList (chips.map fun chip => (chip.key, chip.value)))).canonical := by
  rw [Json.canonical_ofMap fun e _ => Json.canonical_string e.2, Json.ofMap_eq_object]
  refine Json.isObjectOf_object (KeyMap.ascending _) fun key => ?_
  have hget := KeyMap.get?_mapValues Json.string
    (.ofList (chips.map fun chip => (chip.key, chip.value))) key
  rw [List.lookup_nil, Option.or_none]
  exact hget.trans (congrArg _ ((sendsChips_ofList id chips key).trans Option.map_id'))

theorem Condition.isSectionDocument (occurrences : Nat) (escalation : String)
    (chips : List Chip) :
    IsSectionDocument [("escalation", .string escalation), ("occurences", .int occurrences)] chips
      (toJson ⟨occurrences, escalation, chipFields chips⟩).canonical := by
  rw [canonical_toJson (isCanonical_chipFields chips)]
  exact isSectionDocument_flattened (named ⟨occurrences, escalation, _⟩) chips

theorem NotMatch.isSectionDocument (occurrences : Nat) (chips : List Chip) :
    IsSectionDocument [("occurences", .int occurrences)] chips
      (toJson ⟨occurrences, chipFields chips⟩).canonical := by
  rw [canonical_toJson (isCanonical_chipFields chips)]
  exact isSectionDocument_flattened (named ⟨occurrences, _⟩) chips

theorem ConditionDraft.isSentAs_build? (c : ConditionDraft) :
    c.IsSentAs (c.build?.map fun s => s.toJson.canonical) := by
  unfold IsSentAs build?
  rcases c.escalation with _ | escalation
  · rfl
  by_cases hchips : c.chips = []
  · simp only [if_pos hchips]
    exact .leftOut hchips
  · simp only [if_neg hchips]
    exact .sent hchips (Condition.isSectionDocument c.occurrences escalation c.chips)

namespace PolicyDraft

theorem isSection_match (d : PolicyDraft) :
    IsSection [] d.matchChips
      (d.matchSection?.map fun m => (Json.ofMap .string m).canonical) := by
  unfold matchSection?
  by_cases hchips : d.matchChips = []
  · rw [if_pos hchips]
    exact .leftOut hchips
  · rw [if_neg hchips]
    exact .sent hchips (isSectionDocument_match d.matchChips)

theorem isSection_notMatch (d : PolicyDraft) :
    IsSection [("occurences", .int d.notMatchOccurrences)] d.notMatchChips
      (d.notMatchSection?.map fun n => n.toJson.canonical) := by
  unfold notMatchSection?
  by_cases hchips : d.notMatchChips = []
  · rw [if_pos hchips]
    exact .leftOut hchips
  · rw [if_neg hchips]
    exact .sent hchips (NotMatch.isSectionDocument d.notMatchOccurrences d.notMatchChips)

theorem isSentAs_body (d : PolicyDraft) : d.IsSentAs (Draft.policy d).body := by
  have hmember : ∀ key, (Draft.policy d).body.member? key = _ := fun key =>
    (congrArg (fun v => v.member? key) d.policy.canonical_toJson).trans
      (d.policy.lookup_members key)
  refine ⟨⟨_, d.policy.canonical_toJson, ascending_sortEntries _⟩, hmember "name", ?_, ?_, ?_, ?_,
    fun key hkey => ?_⟩
  · rw [hmember]
    exact d.isSection_match
  · rw [hmember]
    exact d.isSection_notMatch
  · rw [hmember]
    exact d.crit.isSentAs_build?
  · rw [hmember]
    exact d.warn.isSentAs_build?
  · rw [hmember]
    simp only [List.mem_cons, List.not_mem_nil, or_false, not_or] at hkey
    simp [hkey]

end PolicyDraft

namespace Draft

/-! ## Drafts of a builder -/

/-- What a builder can come to hold, whatever servers answer. -/
inductive Reachable : Draft → Prop where
  | begun (kind : DraftKind) : Reachable (empty kind)
  | performed {σ : Type} {d : Draft} (h : Reachable d) (server : Api.Server σ) (consent : Bool)
      (t : Api.Transcript σ) (operation : DraftOperation) :
    Reachable (Api.run server consent (d.perform operation) t).1

theorem Reachable.edit {d : Draft} (h : d.Reachable) (e : DraftEdit) : (d.edit e).2.Reachable :=
  h.performed MemoryServer.server true (.start (.start .empty [])) (.edit e)

theorem reachable_escalation (edits : List EscalationEdit) :
    (escalation (.ofEdits edits)).Reachable := by
  induction edits using List.reverseRecOn with
  | nil => exact .begun .escalation
  | append_singleton edits edit ih =>
    rw [EscalationDraft.ofEdits, List.foldl_concat]
    exact ih.edit (.escalation edit)

theorem edit_policy (d : PolicyDraft) (edit : PolicyEdit) :
    ((policy d).edit (.policy edit)).2 = policy (d.edited edit) := by
  rw [PolicyDraft.edited, Draft.edit, asPolicy]
  cases hperform : d.perform edit with
  | error cause => simp only [hperform, except_map_error]; rfl
  | ok r => simp only [hperform, except_map_ok]; rfl

theorem reachable_policy (edits : List PolicyEdit) : (policy (.ofEdits edits)).Reachable := by
  induction edits using List.reverseRecOn with
  | nil => exact .begun .policy
  | append_singleton edits edit ih =>
    rw [PolicyDraft.ofEdits, List.foldl_concat, ← edit_policy]
    exact ih.edit (.policy edit)

/-- The steps of an escalation follow the schemas of their types. -/
def FollowsSchemas : Draft → Prop
  | escalation d => d.FollowSchemas
  | policy _ => True

theorem followsSchemas_empty (kind : DraftKind) : (empty kind).FollowsSchemas := by
  cases kind with
  | escalation => exact .ofEdits []
  | policy => trivial

theorem FollowsSchemas.edit {d : Draft} (h : d.FollowsSchemas) (e : DraftEdit) :
    (d.edit e).2.FollowsSchemas := by
  cases d with
  | escalation d =>
    cases e with
    | escalation e => exact EscalationDraft.FollowSchemas.perform h e
    | policy e => exact h
  | policy d =>
    cases e with
    | escalation e => exact h
    | policy e =>
      rw [edit_policy]
      trivial

section Runs

variable {σ : Type} (server : Api.Server σ) (consent : Bool) (t : Api.Transcript σ)

/-- A submission keeps the draft or gives it up for the empty one. -/
theorem kept_or_empty_of_submit (d : Draft) :
    (Api.run server consent d.submit t).1.2 = d ∨
      (Api.run server consent d.submit t).1.2 = empty d.kind := by
  rcases hpayload : d.payload with cause | ⟨name, body⟩
  · exact .inl (by rw [run_submit_of_invalid server consent t hpayload])
  rcases hpost : (server.answer (request d.kind name body) t.server).1 with cause | ⟨⟩
  · exact .inl (by rw [run_submit_of_refused server consent t hpayload hpost])
  · exact .inr (by rw [run_submit_of_accepted server consent t hpayload hpost])

theorem FollowsSchemas.perform {d : Draft} (h : d.FollowsSchemas) (operation : DraftOperation) :
    (Api.run server consent (d.perform operation) t).1.FollowsSchemas := by
  cases operation with
  | edit e => exact h.edit e
  | submit =>
    rw [Draft.perform, Api.run_bind]
    show (Api.run server consent d.submit t).1.2.FollowsSchemas
    rcases kept_or_empty_of_submit server consent t d with hkept | hempty
    · rwa [hkept]
    · rw [hempty]
      exact followsSchemas_empty d.kind
  | cancel => exact followsSchemas_empty d.kind

end Runs

theorem Reachable.followsSchemas {d : Draft} (h : d.Reachable) : d.FollowsSchemas := by
  induction h with
  | begun kind => exact followsSchemas_empty kind
  | performed _ server consent t operation ih => exact ih.perform server consent t operation

theorem Reachable.isSentAs {d : Draft} (h : d.Reachable) : d.IsSentAs d.body := by
  cases d with
  | escalation d => exact EscalationDraft.FollowSchemas.isSentAs h.followsSchemas
  | policy d => exact d.isSentAs_body

/-! ## Submission -/

variable {σ : Type} (server : Api.Server σ) (consent : Bool) (t : Api.Transcript σ)

/-- A draft without a name is left as it is, and the server is not asked. Any other makes one
request with all that it has; one that is refused is left as it is, and one that is accepted starts
afresh. Whatever is done to a draft, it stays of its kind, and refuses the edits of the other. -/
theorem submit_atomic (d : Draft) :
    ((Api.run server consent d.submit t).1.1 = .error (.invalid .missingName) ↔
        Text.trim d.name = "") ∧
      (Text.trim d.name = "" →
        Api.run server consent d.submit t = ((.error (.invalid .missingName), d), t)) ∧
      (Text.trim d.name ≠ "" → ∃ body,
        (d.Reachable → d.IsSentAs body) ∧
          (d.kind = .policy → body.member? "name" = some (.string d.name)) ∧
          (Api.run server consent d.submit t).2.requests =
            t.requests ++ [.post ((family d.kind).path d.name) (some body)] ∧
          (∀ cause,
            (server.answer (.post ((family d.kind).path d.name) (some body)) t.server).1 =
              .error cause →
            (Api.run server consent d.submit t).1 = (.error (.api cause), d)) ∧
          ((server.answer (.post ((family d.kind).path d.name) (some body)) t.server).1 =
              .ok () →
            (Api.run server consent d.submit t).1 = (.ok d.name, empty d.kind))) ∧
      (∀ operations, (Api.run server consent (d.performAll operations) t).1.kind = d.kind) ∧
      ∀ e : DraftEdit, e.kind ≠ d.kind →
        d.edit e = (.error (.draft (.wrongKind e.kind)), d) := by
  refine ⟨?_, ?_, ?_, kind_run_performAll server consent t d, fun e => edit_of_kind_ne⟩
  · rw [← Text.isBlankText_iff_trim]
    rcases hname : Text.isBlankText d.name with _ | _
    · simp only [Bool.false_eq_true, iff_false]
      have hpayload := payload_of_name hname
      rcases hpost : (server.answer (request d.kind d.name d.body) t.server).1 with cause | ⟨⟩
      · rw [run_submit_of_refused server consent t hpayload hpost]
        simp
      · rw [run_submit_of_accepted server consent t hpayload hpost]
        simp
    · rw [run_submit_of_invalid server consent t (payload_of_blank hname)]
      simp
  · rw [← Text.isBlankText_iff_trim]
    intro hname
    exact run_submit_of_invalid server consent t (payload_of_blank hname)
  · rw [Ne, ← Text.isBlankText_iff_trim, Bool.not_eq_true]
    intro hname
    have hpayload := payload_of_name hname
    refine ⟨d.body, fun h => h.isSentAs, ?_, requests_run_submit server consent t hpayload, ?_, ?_⟩
    · intro hkind
      cases d with
      | escalation d => cases hkind
      | policy d => exact d.isSentAs_body.name
    · intro cause hpost
      rw [run_submit_of_refused server consent t hpayload hpost]
    · intro hpost
      rw [run_submit_of_accepted server consent t hpayload hpost]

/-- One step that is typed, with two of its options. -/
def emailEdits : List EscalationEdit :=
  [.setName "oncall ", .selectType .email, .setOption "recipients" "a@x, b@x",
    .setOption "port" "25", .addStep]

/-- A condition with two chips of one key, and a section without chips. -/
def diskEdits : List PolicyEdit :=
  [.setName "disk", .crit (.addChip "mount" "/var"), .crit (.addChip "mount" "/"),
    .crit (.setOccurrences 3), .crit (.setEscalation (some "page")), .setNotMatchOccurrences 2]

theorem submit_atomic_of_edits :
    (∃ step, (Api.run MemoryServer.server true (escalation (.ofEdits emailEdits)).submit
        (.start (.start .empty []))).2.requests =
          [.post "api/escalation/config/oncall%20" (some (.array [.object step]))] ∧
      step.lookup "type" = some (.string "email") ∧
      step.lookup "recipients" = some (.array [.string "a@x", .string "b@x"]) ∧
      step.lookup "port" = some (.int 25) ∧
      step.lookup "host" = some (.string "smtp.gmail.com")) ∧
    ∃ members crit, (Api.run MemoryServer.server true (policy (.ofEdits diskEdits)).submit
        (.start (.start .empty []))).2.requests =
          [.post "api/policy/config/disk" (some (.object members))] ∧
      members.lookup "crit" = some (.object crit) ∧ members.lookup "not_match" = none ∧
      crit.lookup "mount" = some (.string "/") ∧ crit.lookup "occurences" = some (.int 3) ∧
      crit.lookup "escalation" = some (.string "page") := by
  refine ⟨?_, ?_⟩
  · obtain ⟨body, hsent, -, hrequests, -, -⟩ := (submit_atomic MemoryServer.server true
      (.start (.start .empty [])) (escalation (.ofEdits emailEdits))).2.2.1 (by decide)
    obtain ⟨documents, rfl, hsteps⟩ := hsent (reachable_escalation emailEdits)
    obtain ⟨v, rest, hstep, hnone, rfl⟩ := List.forall₂_cons_left_iff.1 hsteps
    obtain rfl := List.forall₂_nil_left_iff.1 hnone
    obtain ⟨step, rfl, -, hvalue⟩ := hstep
    refine ⟨step, hrequests, (hvalue "type").trans rfl, (hvalue "recipients").trans rfl,
      (hvalue "port").trans rfl, (hvalue "host").trans rfl⟩
  · obtain ⟨body, hsent, -, hrequests, -, -⟩ := (submit_atomic MemoryServer.server true
      (.start (.start .empty [])) (policy (.ofEdits diskEdits))).2.2.1 (by decide)
    obtain ⟨⟨members, rfl, -⟩, -, -, hnot, hcrit, -, -⟩ := hsent (reachable_policy diskEdits)
    have hsection : IsSection [("escalation", .string "page"), ("occurences", .int 3)]
        [⟨"mount", "/var"⟩, ⟨"mount", "/"⟩] (members.lookup "crit") := hcrit
    have hempty : IsSection [("occurences", .int 2)] [] (members.lookup "not_match") := hnot
    generalize hmember : members.lookup "crit" = sent at hsection
    generalize hleft : members.lookup "not_match" = left at hempty
    cases hempty with
    | sent h hv => exact absurd rfl h
    | leftOut h =>
      cases hsection with
      | leftOut h => cases h
      | sent h hv =>
        obtain ⟨crit, rfl, -, hvalue⟩ := hv
        exact ⟨members, crit, hrequests, hmember, hleft, (hvalue "mount").trans rfl,
          (hvalue "occurences").trans rfl, (hvalue "escalation").trans rfl⟩

end Draft

end AlertConsole
