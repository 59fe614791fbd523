import AlertConsole.Proofs.Http.Address
import AlertConsole.Proofs.Http.Calls

/-!
# Names in their own segment

The path of an object is sent with its name in one segment below the root of its family, unless the
name is `.` or `..` (`stays_in_segment_iff`). Percent encoding keeps these two as they are, and
whoever reads the address takes them for dot segments: the request then goes to the root of the
family or to the directory above it.
-/

namespace AlertConsole

open Text.Percent (decode? decode?_encode encode)

namespace Http

open Url (isSegmentChar isSegmentChar_of_mem_encode pathOfChars_path written)

/-! ## Where an address leads -/

/-- The address has no query, and one segment after the root of the family, which decodes to the
name. -/
def IsSegmentOf (f : Family) (name : String) (u : Url) : Prop :=
  u.query = none ∧ ∃ segment, u.path = "/" ++ f.root ++ segment ∧
    (∀ c ∈ segment.toList, c ≠ '/' ∧ c ≠ '?' ∧ c ≠ '#') ∧ decode? segment = some name

theorem ne_of_isSegmentChar {c : Char} (h : isSegmentChar c = true) :
    c ≠ '/' ∧ c ≠ '?' ∧ c ≠ '#' := by
  have hslash := Url.isSlash_of_isSegmentChar h
  simp only [isSegmentChar, Bool.and_eq_true, bne_iff_ne] at h
  refine ⟨?_, h.1.2, h.2⟩
  rintro rfl
  exact absurd hslash (by decide)

/-- The directory above the root of a family has a shorter path than the root. -/
theorem length_above (f : Family) :
    (written (f.directories.dropLast ++ [[]])).length < ("/" ++ f.root).length := by
  cases f <;> decide

theorem isSegmentOf_iff {f : Family} {name : String} {u : Url} (hquery : u.query = none)
    (hpath : u.path = Url.pathOfChars ('/' :: (f.path name).toList)) :
    IsSegmentOf f name u ↔ name ≠ "." ∧ name ≠ ".." := by
  rw [pathOfChars_path] at hpath
  constructor
  · rintro ⟨-, segment, hsegment, -, hdecode⟩
    refine ⟨?_, ?_⟩
    · rintro rfl
      rw [hpath, if_neg (by decide), if_pos rfl, String.append_right_inj] at hsegment
      rw [← hsegment] at hdecode
      exact absurd hdecode (by decide +kernel)
    · rintro rfl
      rw [hpath, if_pos rfl] at hsegment
      have hlength := congrArg String.length hsegment
      rw [String.length_append] at hlength
      have hshorter := length_above f
      omega
  · rintro ⟨hcurrent, hparent⟩
    rw [if_neg hparent, if_neg hcurrent] at hpath
    refine ⟨hquery, encode name, hpath, fun c hc => ?_, decode?_encode name⟩
    exact ne_of_isSegmentChar (isSegmentChar_of_mem_encode name c hc)

/-! ## Requests for an object -/

namespace Client

theorem stays_in_segment_iff (o : Origin) (slashes : Nat) (f : Family) (name : String)
    {config : Config} {request : Request} {store store' : SessionStore} {log : List (Exchange Host)}
    {outcome : request.Outcome} (hbase : config.baseUrl = o.text slashes)
    (hpath : request.path? = some (f.path name))
    (h : (call config request store).Runs log (outcome, store')) :
    (IsSendable store'.held.token → ∃ m, sent log = [m]) ∧
      ∀ m ∈ sent log, IsSegmentOf f name m.url ↔ name ≠ "." ∧ name ≠ ".." := by
  have hurl := urlOf_origin o slashes f name
  rw [← hbase] at hurl
  refine ⟨exists_sent h hpath hurl, fun m hm => ?_⟩
  have hm := url_of_sent h hpath m hm
  rw [hurl, Except.ok.injEq] at hm
  refine isSegmentOf_iff ?_ ?_
  · rw [← hm]
  · rw [← hm]

/-- A call without a session file, whose connection is refused. -/
theorem exists_runs_delete (config : Config) (path : String) :
    ∃ log outcome, (call config (.delete path) .inMemory).Runs log (outcome, .inMemory) := by
  have hsend : ∀ request : Except Fault Message, ∃ log answer, (send request).Runs log answer
    | .error _ => ⟨_, _, .done _⟩
    | .ok m => ⟨_, _, Dialogue.runs_bind_iff.2
        ⟨.error .refused, _, _, rfl, Dialogue.runs_question_iff.2 rfl, .done _⟩⟩
  have htoken : SessionStore.inMemory.currentToken.Runs [] (none, .inMemory) := .done _
  obtain ⟨log, answer, hruns⟩ := hsend (message config none .delete path none)
  refine ⟨log, answer.map fun _ => (), Dialogue.runs_bind_iff.2 ⟨_, [], log, rfl, htoken, ?_⟩⟩
  exact Dialogue.runs_bind_iff.2 ⟨answer, log, [], (List.append_nil log).symm, hruns, .done _⟩

/-- A slash in a name does not end its segment. -/
theorem slash_stays_in_segment :
    ∃ log outcome, (call .standard (.delete (Family.incident.path "disk/full")) .inMemory).Runs log
        (outcome, .inMemory) ∧
      ∃ m, sent log = [m] ∧ IsSegmentOf .incident "disk/full" m.url := by
  obtain ⟨log, outcome, hruns⟩ := exists_runs_delete .standard (Family.incident.path "disk/full")
  obtain ⟨hsent, hinside⟩ := stays_in_segment_iff .standard 0 .incident "disk/full"
    standard_baseUrl rfl hruns
  obtain ⟨m, hm⟩ := hsent fun t ht => nomatch ht
  refine ⟨log, outcome, hruns, m, hm, ?_⟩
  have hmem : m ∈ sent log := hm ▸ List.mem_singleton_self m
  exact (hinside m hmem).2 ⟨by decide, by decide⟩

/-- Resolving the incident `..` asks for the deletion of what all families are in. -/
theorem parent_leaves_segment :
    ∃ log outcome, (call .standard (.delete (Family.incident.path "..")) .inMemory).Runs log
        (outcome, .inMemory) ∧
      ∃ m, sent log = [m] ∧ m.url.path = "/api/" ∧ ¬IsSegmentOf .incident ".." m.url := by
  obtain ⟨log, outcome, hruns⟩ := exists_runs_delete .standard (Family.incident.path "..")
  have hurl := urlOf_origin .standard 0 .incident ".."
  rw [← standard_baseUrl] at hurl
  obtain ⟨m, hm⟩ := exists_sent hruns rfl hurl fun t ht => nomatch ht
  have hmem : m ∈ sent log := hm ▸ List.mem_singleton_self m
  have hsent := url_of_sent hruns rfl m hmem
  rw [hurl, Except.ok.injEq] at hsent
  refine ⟨log, outcome, hruns, m, hm, ?_, ?_⟩
  · rw [← hsent]
    exact (pathOfChars_path .incident "..").trans (by decide +kernel)
  · rw [isSegmentOf_iff (by rw [← hsent]) (by rw [← hsent])]
    exact fun h => h.2 rfl

end Client

end Http

end AlertConsole
