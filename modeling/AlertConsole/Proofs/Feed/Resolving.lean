import AlertConsole.Api.Memory
import AlertConsole.Proofs.Api.Paths
import AlertConsole.Proofs.Api.Run
import AlertConsole.Proofs.Feed.Advance
import AlertConsole.Proofs.Incident.Decode
import AlertConsole.Proofs.Relay
import AlertConsole.Proofs.Text.Percent

/-!
# Resolving an incident

A server that `KeepsIncidents` lists a map, and an accepted deletion takes out the key that its path
stands for. Against such a server a resolution deletes, fetches at once and ends with the list from
before without the entry of that key; where the deletion or the fetch fails, the list stays as it
was (`resolved_alone_is_removed`). What else happens until the fetch is answered comes from the
schedule (`elapsed_advance`).
-/

namespace AlertConsole

/-! ## Lists with one incident less -/

namespace Listing

/-- The body lists the map; an empty map may also be listed as `null`. -/
def Lists (held : KeyMap Json) (body : Json) : Prop :=
  body = .object held.entries ∨ held.entries = [] ∧ body = .null

theorem listing?_of_lists {held : KeyMap Json} {body : Json} {incidents : KeyMap Incident}
    (h : Lists held body)
    (hdecode : Decode.map Incident.ofJson (.object held.entries) = .ok incidents) :
    listing? (.ok body) = some (order incidents) := by
  rcases h with rfl | ⟨hempty, rfl⟩
  · exact congrArg Except.toOption (ofJson_object hdecode)
  · rw [hempty] at hdecode
    obtain rfl : KeyMap.empty = incidents := Except.ok.inj hdecode
    exact congrArg Except.toOption ofJson_null

end Listing

/-! ## Servers that keep a map of incidents -/

/-- The server holds a map of incidents: it lists the map, and an accepted deletion takes out the
key that the last segment of the path decodes to. -/
structure KeepsIncidents {σ : Type} (server : Api.Server σ) (Holds : σ → KeyMap Json → Prop) :
    Prop where
  listed : ∀ {s : σ} {held : KeyMap Json} {body : Json}, Holds s held →
    (server.answer (.get Family.incident.listing) s).1 = .ok body → Listing.Lists held body
  deleted : ∀ {s : σ} {held : KeyMap Json} {segment key : String}, Holds s held →
    Text.Percent.decode? segment = some key →
    (server.answer (.delete (Family.incident.root ++ segment)) s).1 = .ok () →
    Holds (server.answer (.delete (Family.incident.root ++ segment)) s).2 (held.erase key)

namespace MemoryServer

/-- The document that lists all incidents is the map. -/
def Holds (s : MemoryServer) (held : KeyMap Json) : Prop :=
  s.documents.get? Family.incident.listing = some (.object held.entries)

variable {s : MemoryServer} {request : Request}

theorem answer_of_ok {a : request.Answer} (h : (s.answer request).1 = .ok a) :
    s.answer request = s.serve request := by
  unfold answer at h ⊢
  split at h
  · cases h
  · rfl

theorem incidentKey?_root_append (segment : String) :
    incidentKey? (Family.incident.root ++ segment) = Text.Percent.decode? segment :=
  Family.incident.name?_root_append segment

theorem holds_removeIncident {held : KeyMap Json} (h : s.Holds held) (key : String) :
    (s.removeIncident key).Holds (held.erase key) := by
  unfold Holds at h ⊢
  rw [removeIncident, h]
  exact (s.documents.get?_insert _ _ _).trans (if_pos rfl)

theorem keepsIncidents : KeepsIncidents server Holds where
  listed := by
    intro s held body hholds hanswer
    have hserve : s.answer (.get Family.incident.listing) = _ := answer_of_ok hanswer
    have hbody : (s.serve (.get Family.incident.listing)).1 = .ok body := hserve ▸ hanswer
    rw [serve, hholds] at hbody
    exact .inl (Except.ok.inj hbody).symm
  deleted := by
    intro s held segment key hholds hdecode hanswer
    have hserve : s.answer (.delete (Family.incident.root ++ segment)) = _ := answer_of_ok hanswer
    show (s.answer (.delete (Family.incident.root ++ segment))).2.Holds (held.erase key)
    rw [hserve, serve, incidentKey?_root_append, hdecode]
    exact holds_removeIncident hholds key

end MemoryServer

namespace Feed

/-! ## A feed against a server -/

abbrev deletion (key : String) : Request :=
  .delete (Family.incident.path key)

abbrev fetchAll : Request :=
  .get Family.incident.listing

section Serving

variable {σ α β : Type} (server : Api.Server σ) (consent : Bool) (latency : Api.Transcript σ → Nat)
  (t : Api.Transcript σ) (f : Feed)

/-- Runs a feed against a server. How long a fetch takes may differ from one to the next. -/
def serve (d : Dialogue Link α) (t : Api.Transcript σ) : α × Api.Transcript σ :=
  d.interpret (m := StateM (Api.Transcript σ))
    (fun q t => Api.run server consent (overApi (latency t) q) t) t

theorem run_overApi (latency : Nat) (d : Dialogue Link α) :
    Api.run server consent (d.interpret (overApi latency)) t =
      serve server consent (fun _ => latency) d t := by
  rw [Api.run, Dialogue.interpret_interpret]
  rfl

@[simp] theorem serve_done (a : α) : serve server consent latency (.done a) t = (a, t) := rfl

theorem serve_bind (d : Dialogue Link α) (f : α → Dialogue Link β) :
    serve server consent latency (d >>= f) t =
      serve server consent latency (f (serve server consent latency d t).1)
        (serve server consent latency d t).2 := by
  rw [serve, Dialogue.interpret_bind]
  rfl

theorem serve_fetch (next : Reply → Dialogue Link α) :
    serve server consent latency (.ask (I := Link) .fetch next) t =
      serve server consent latency
        (next ((server.answer fetchAll t.server).1, latency t)) (t.called server fetchAll) := rfl

theorem serve_delete (key : String) (next : Except ApiError Unit → Dialogue Link α) :
    serve server consent latency (.ask (I := Link) (.delete key) next) t =
      serve server consent latency
        (next (server.answer (deletion key) t.server).1) (t.called server (deletion key)) := rfl

theorem requests_reportFailure (event : ApiError → Event) (outcome : Except ApiError α) :
    (serve server consent latency (reportFailure event outcome) t).2.requests = t.requests := by
  rcases outcome with cause | a <;> rfl

/-! ## What time can do -/

theorem landed_land (outcome : Except ApiError Json) :
    (f.land outcome).2.landed = f.landed + 1 := by
  unfold land
  split <;> rfl

theorem landed_ticked (reply : Reply) : (f.ticked reply).landed = f.landed := by
  unfold ticked
  split <;> rfl

/-- Between two times the schedule fetches once for each of its ticks, and the list changes only
when a fetch is answered. -/
structure Elapsed (limit : Nat) (f : Feed) (t : Api.Transcript σ) (f' : Feed)
    (t' : Api.Transcript σ) : Prop where
  now : f.now ≤ limit → f'.now = limit
  requests : ∃ ticks, t'.requests = t.requests ++ List.replicate ticks fetchAll ∧
    ((∀ time, f.nextTick? = some time → limit < time) → ticks = 0)
  landed : f.landed ≤ f'.landed
  kept : f'.landed = f.landed → f'.incidents = f.incidents ∧ f'.publications = f.publications

theorem elapsed_advance (limit : Nat) :
    Elapsed limit f t (serve server consent latency (f.advance limit) t).1
      (serve server consent latency (f.advance limit) t).2 := by
  induction f using advance.induct limit generalizing t with
  | case1 f hmoment =>
    rw [advance_of_quiet hmoment, serve_done]
    exact ⟨Nat.max_eq_right, ⟨0, (List.append_nil _).symm, fun _ => rfl⟩, Nat.le_refl _,
      fun _ => ⟨rfl, rfl⟩⟩
  | case2 f time hmoment ih =>
    obtain ⟨htick, hle⟩ := nextTick?_of_moment hmoment
    rw [advance_of_tick hmoment, serve_fetch]
    obtain ⟨hnow, ⟨ticks, hrequests, -⟩, hlanded, hkept⟩ := ih _ _
    rw [landed_ticked] at hlanded hkept
    rw [incidents_ticked, publications_ticked] at hkept
    refine ⟨fun _ => hnow (now_ticked htick _ ▸ hle), ⟨ticks + 1, ?_, fun hnone => ?_⟩, hlanded,
      hkept⟩
    · rw [hrequests, Api.Transcript.requests_called, List.append_assoc, List.replicate_succ]
      rfl
    · exact absurd (hnone time htick) (Nat.not_lt.2 hle)
  | case3 f fl rest hmoment ih =>
    obtain ⟨-, hdue, -⟩ := moment_of_landing hmoment
    have hnextTick : (f.landFirst fl rest).2.nextTick? = f.nextTick? := nextTick?_land _ _
    have hcount : (f.landFirst fl rest).2.landed = f.landed + 1 := landed_land _ _
    rw [advance_of_landing hmoment, serve_bind]
    obtain ⟨hnow, ⟨ticks, hrequests, hticks⟩, hlanded, -⟩ := ih (serve server consent latency
      (reportFailure .pollFailed (f.landFirst fl rest).1) t).2
    rw [hcount] at hlanded
    refine ⟨fun _ => hnow (now_landFirst fl rest ▸ hdue), ⟨ticks, ?_, hnextTick ▸ hticks⟩, ?_, ?_⟩
    · rw [hrequests, requests_reportFailure]
    · exact Nat.le_of_succ_le hlanded
    · intro hsame
      exact absurd hsame (Nat.ne_of_gt hlanded)

/-! ## Resolutions -/

/-- The server accepts that an incident is deleted now. -/
def Accepts (server : Api.Server σ) (t : Api.Transcript σ) (key : String) : Prop :=
  (server.answer (deletion key) t.server).1 = .ok ()

/-- The answer to a fetch right after an incident was deleted. -/
def refetched (server : Api.Server σ) (t : Api.Transcript σ) (key : String) :
    Except ApiError Json :=
  (server.answer fetchAll (t.called server (deletion key)).server).1

variable {t : Api.Transcript σ} {key : String}

theorem serve_refresh :
    serve server consent latency f.refresh t =
      ((serve server consent latency (f.advance (f.now + latency t))
          (t.called server fetchAll)).1.land (server.answer fetchAll t.server).1,
        (serve server consent latency (f.advance (f.now + latency t))
          (t.called server fetchAll)).2) :=
  (serve_fetch server consent latency t _).trans
    (serve_bind server consent latency _ (f.advance (f.now + latency t)) fun g =>
      pure (g.land (server.answer fetchAll t.server).1))

theorem serve_resolve_of_refused {cause : ApiError}
    (h : (server.answer (deletion key) t.server).1 = .error cause) :
    serve server consent latency (f.resolve key) t =
      ((.error cause, f), t.called server (deletion key)) := by
  refine (serve_delete server consent latency t key _).trans ?_
  rw [h]
  rfl

/-- The feed fetches once and lands the answer last. -/
theorem serve_resolve_of_accepts (h : Accepts server t key) :
    ∃ g limit t', f.now ≤ limit ∧
      Elapsed limit f ((t.called server (deletion key)).called server fetchAll) g t' ∧
      (serve server consent latency (f.resolve key) t).1 =
        (.ok (), (g.land (refetched server t key)).2) ∧
      (serve server consent latency (f.resolve key) t).2.requests = t'.requests := by
  let deleted := (t.called server (deletion key)).reported (.incidentResolved key)
  have hresolve : serve server consent latency (f.resolve key) t =
      serve server consent latency (f.refresh >>= fun r =>
        reportFailure .refetchFailed r.1 >>= fun _ => pure (.ok (), r.2)) deleted := by
    refine (serve_delete server consent latency t key _).trans ?_
    rw [h]
    rfl
  obtain ⟨hnow, hrequests, hlanded, hkept⟩ :=
    elapsed_advance server consent latency (deleted.called server fetchAll) f
      (f.now + latency deleted)
  rw [hresolve, serve_bind, serve_refresh, serve_bind]
  exact ⟨_, _, _, Nat.le_add_right _ _, ⟨hnow, hrequests, hlanded, hkept⟩, rfl,
    requests_reportFailure _ _ _ _ _ _⟩

/-- What comes of a resolution, by what the server answers. -/
structure Resolution (server : Api.Server σ) (held : KeyMap Json) (key : String) (f : Feed)
    (t : Api.Transcript σ) (answer : Except ApiError Unit) (f' : Feed) (t' : Api.Transcript σ) :
    Prop where
  /-- A refused deletion is the end of it. -/
  refused : ∀ cause, (server.answer (deletion key) t.server).1 = .error cause →
    answer = .error cause ∧ f' = f ∧ t'.requests = t.requests ++ [deletion key]
  /-- An accepted one is followed by one fetch, and by those of the ticks until it is answered. -/
  accepted : Accepts server t key → answer = .ok () ∧ ∃ ticks,
    t'.requests = t.requests ++ deletion key :: fetchAll :: List.replicate ticks fetchAll ∧
      ((∀ time, f.nextTick? = some time → f'.now < time) → ticks = 0)
  removed : Accepts server t key → ∀ body incidents, refetched server t key = .ok body →
    Decode.map Incident.ofJson (.object held.entries) = .ok incidents →
      f'.incidents = (Listing.order incidents).filter (·.key != key)
  /-- A failed fetch leaves the list as it was, if no other was answered meanwhile. -/
  kept : Accepts server t key → listing? (refetched server t key) = none →
    f'.landed = f.landed + 1 → f'.incidents = f.incidents ∧ f'.publications = f.publications

theorem resolved_alone_is_removed (key : String) {Holds : σ → KeyMap Json → Prop}
    (hserver : KeepsIncidents server Holds) {held : KeyMap Json} (hheld : Holds t.server held) :
    Resolution server held key f t (serve server consent latency (f.resolve key) t).1.1
      (serve server consent latency (f.resolve key) t).1.2
      (serve server consent latency (f.resolve key) t).2 where
  refused := by
    intro cause hcause
    rw [serve_resolve_of_refused server consent latency f hcause]
    exact ⟨rfl, rfl, rfl⟩
  accepted := by
    intro haccepts
    obtain ⟨g, limit, t', hle, ⟨hnow, ⟨ticks, hrequests, hticks⟩, -, -⟩, hafter, htranscript⟩ :=
      serve_resolve_of_accepts server consent latency f haccepts
    rw [hafter, htranscript, now_land, hnow hle]
    refine ⟨rfl, ticks, ?_, hticks⟩
    rw [hrequests, Api.Transcript.requests_called, Api.Transcript.requests_called]
    simp only [List.append_assoc, List.cons_append, List.nil_append]
  removed := by
    intro haccepts body incidents hbody hdecode
    obtain ⟨g, -, -, -, -, hafter, -⟩ :=
      serve_resolve_of_accepts server consent latency f haccepts
    have hholds := hserver.deleted hheld (Text.Percent.decode?_encode key) haccepts
    have hlisting := Listing.listing?_of_lists (hserver.listed hholds hbody)
      (Decode.map_erase hdecode key)
    rw [hafter, incidents_land, hbody, hlisting, Listing.order_erase]
    rfl
  kept := by
    intro haccepts hfailed hlanded
    obtain ⟨g, -, -, -, ⟨-, -, -, hkept⟩, hafter, -⟩ :=
      serve_resolve_of_accepts server consent latency f haccepts
    rw [hafter, landed_land, Nat.add_right_cancel_iff] at hlanded
    rw [hafter, incidents_land, publications_land, hfailed]
    exact hkept hlanded

end Serving

/-- Of three incidents the first is resolved, and its key is escaped on the way. -/
theorem resolved_alone_is_removed_with_escaped_key :
    ∃ (held : KeyMap Json) (t t' : Api.Transcript MemoryServer) (f' : Feed),
      held.keys = ["a/*%é", "b", "c"] ∧ t.server.Holds held ∧ t.requests = [] ∧
      serve MemoryServer.server false (fun _ => 0) ((idle 0).resolve "a/*%é") t =
        ((.ok (), f'), t') ∧
      f'.incidents.map Entry.key = ["b", "c"] ∧
      t'.requests = [.delete "api/incident/a%2F%2A%25%C3%A9", .get "api/incident/*"] := by
  let incident : Int → Json := fun time => .object [("status", .int 2), ("time", .int time)]
  let held : KeyMap Json := .ofList [("a/*%é", incident 1), ("b", incident 3), ("c", incident 2)]
  let t : Api.Transcript MemoryServer :=
    .start (.start (.ofList [(Family.incident.listing, .object held.entries)]) [])
  have hheld : t.server.Holds held := (KeyMap.get?_insert .empty _ _ _).trans (if_pos rfl)
  have hresolution := resolved_alone_is_removed MemoryServer.server false (fun _ => 0) (idle 0)
    "a/*%é" MemoryServer.keepsIncidents hheld
  have haccepts : Accepts MemoryServer.server t "a/*%é" := rfl
  obtain ⟨hanswer, ticks, hrequests, hticks⟩ := hresolution.accepted haccepts
  have hothers : ((Decode.map Incident.ofJson (.object held.entries)).toOption.map fun incidents =>
      let others := Listing.repairedEntries (incidents.erase "a/*%é")
      (others.map Entry.key, decide (others.Pairwise fun a b => a.precedes b = true))) =
        some (["b", "c"], true) := by
    decide +kernel
  obtain ⟨incidents, hincidents, hshown⟩ := Option.map_eq_some_iff.1 hothers
  obtain ⟨hkeys, hsorted⟩ := Prod.mk.inj hshown
  have horder : Listing.order (incidents.erase "a/*%é") = _ :=
    List.mergeSort_of_pairwise (of_decide_eq_true hsorted)
  have hlist := hresolution.removed haccepts _ _ rfl (toOption_eq_some_iff.1 hincidents)
  have hpath : Family.incident.path "a/*%é" = "api/incident/a%2F%2A%25%C3%A9" := by decide +kernel
  refine ⟨held, t, _, _, by decide +kernel, hheld, rfl, Prod.ext (Prod.ext hanswer rfl) rfl, ?_, ?_⟩
  · rw [hlist, ← Listing.order_erase, horder]
    exact hkeys
  · rw [hrequests, hticks (fun _ h => nomatch h), deletion, hpath]
    rfl

end Feed

end AlertConsole
