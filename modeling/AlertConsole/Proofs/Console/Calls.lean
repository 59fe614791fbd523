import AlertConsole.Console.Run
import AlertConsole.Proofs.Http.Replies
import AlertConsole.Proofs.Http.Token
import AlertConsole.Proofs.Outcome
import AlertConsole.Proofs.Relay
import AlertConsole.Proofs.Session.Reading

/-!
# What the calls of a command send

The calls of a command go out in their order, each as the request that is prepared for it with the
token of the moment. So what is sent depends on the calls and on what the session file says when it
is read for them, and on nothing else (`Makes.departing_eq`): the replies of the server decide which
calls are made, not how.
-/

namespace AlertConsole

open Dialogue (Relayed)
open Http (Fault Message)
open Http.Client (Carries IsSendable prepared send sent sent_append)

/-! ## Logs -/

/-- What was read from files, in this order. -/
def readings (log : List (Exchange Host)) : List FileContent :=
  log.filterMap fun
    | ⟨.read _, content⟩ => some content
    | _ => none

/-- What was printed, in this order. -/
def printed (log : List (Exchange Host)) : List String :=
  log.filterMap fun
    | ⟨.print text, _⟩ => some text
    | _ => none

def IsPrint : Host.Question → Prop
  | .print _ => True
  | _ => False

theorem printed_of_never {log : List (Exchange Host)} (h : ∀ e ∈ log, ¬IsPrint e.1) :
    printed log = [] := by
  rw [printed, List.filterMap_eq_nil_iff]
  intro e he
  have hquestion := h e he
  rcases e with ⟨m | path | ⟨path, text⟩ | path | event | text | _, r⟩
  case print => exact absurd trivial hquestion
  all_goals rfl

/-- The calls among exchanges, in this order. -/
def callsOf (asked : List (Exchange Api)) : List Request :=
  asked.filterMap fun
    | ⟨.call request, _⟩ => some request
    | _ => none

theorem readings_append (log log' : List (Exchange Host)) :
    readings (log ++ log') = readings log ++ readings log' :=
  List.filterMap_append

theorem printed_append (log log' : List (Exchange Host)) :
    printed (log ++ log') = printed log ++ printed log' :=
  List.filterMap_append

theorem callsOf_append (asked asked' : List (Exchange Api)) :
    callsOf (asked ++ asked') = callsOf asked ++ callsOf asked' :=
  List.filterMap_append

/-! ## Reading the token -/

namespace SessionStore

variable {s s' : SessionStore} {log : List (Exchange Host)}

/-- The store after the next reading, if it has a file, and the readings after that. -/
def reread (s : SessionStore) (contents : List FileContent) : SessionStore × List FileContent :=
  match s.file, contents with
  | some _, content :: rest => (s.learned content, rest)
  | _, contents => (s, contents)

theorem readings_looking (path : String) (content : FileContent) (published : Bool) :
    readings (looking path content published) = [content] := by
  cases published <;> rfl

theorem reread_of_sync (h : s.sync.Runs log s') (more : List FileContent) :
    s.reread (readings log ++ more) = (s', more) := by
  rcases hfile : s.file with _ | path
  · rw [sync, hfile] at h
    obtain ⟨rfl, rfl⟩ := Dialogue.runs_done_iff.1 h
    simp only [reread, hfile]
    rfl
  · obtain ⟨content, rfl, rfl⟩ := (runs_sync_iff hfile).1 h
    simp only [reread, hfile, readings_looking]
    rfl

/-- Every token that the store holds or reads can be sent. -/
structure Sendable (s : SessionStore) (contents : List FileContent) : Prop where
  held : IsSendable s.held.token
  read : ∀ content ∈ contents, ∀ session ∈ sessionOf? content, IsSendable session.token

theorem sendable_reread {contents : List FileContent} (h : s.Sendable contents) :
    (s.reread contents).1.Sendable (s.reread contents).2 := by
  unfold reread
  rcases s.file with _ | path
  · exact h
  rcases contents with _ | ⟨content, rest⟩
  · exact h
  have hrest : ∀ content ∈ rest, ∀ session ∈ sessionOf? content, IsSendable session.token :=
    fun content hcontent => h.read content (List.mem_cons_of_mem _ hcontent)
  refine ⟨?_, hrest⟩
  have hcontent := h.read content List.mem_cons_self
  show IsSendable (s.learned content).held.token
  unfold learned
  rcases hsession : sessionOf? content with _ | session
  · exact h.held
  by_cases hsame : session = s.held
  · simp only [if_pos hsame]
    exact h.held
  · simp only [if_neg hsame]
    exact hcontent session hsession

/-- The store that a call is made with, and what is left to read. -/
def before (s : SessionStore) (request : Request) (contents : List FileContent) :
    SessionStore × List FileContent :=
  if request.path?.isSome then s.reread contents else (s, contents)

theorem sendable_before (request : Request) {contents : List FileContent}
    (h : s.Sendable contents) :
    (s.before request contents).1.Sendable (s.before request contents).2 := by
  unfold before
  split
  · exact sendable_reread h
  · exact h

end SessionStore

theorem readings_of_send {request : Except Fault Message} {answer : Except ApiError String}
    {log : List (Exchange Host)} (h : (send request).Runs log answer) : readings log = [] := by
  rcases request with fault | m
  · obtain ⟨rfl, -⟩ := Http.Client.runs_send_error_iff.1 h
    rfl
  · obtain ⟨reply, rfl, -⟩ := Http.Client.runs_send_ok_iff.1 h
    rfl

namespace Console

variable {α β : Type} {config : Config} {request : Request} {assumeYes : Bool}
  {s s' : SessionStore} {log : List (Exchange Host)}

/-! ## Runs of a console -/

theorem runs_host_iff {d : Dialogue Host α} {a : α} :
    (host d s).Runs log (a, s') ↔ d.Runs log a ∧ s' = s := by
  show (d >>= fun a => Dialogue.done (a, s)).Runs log (a, s') ↔ _
  rw [Dialogue.runs_bind_iff]
  constructor
  · rintro ⟨b, first, rest, rfl, hd, hdone⟩
    obtain ⟨rfl, hresult⟩ := Dialogue.runs_done_iff.1 hdone
    obtain ⟨rfl, rfl⟩ := Prod.mk.inj hresult
    rw [List.append_nil]
    exact ⟨hd, rfl⟩
  · rintro ⟨hd, rfl⟩
    exact ⟨a, log, [], by rw [List.append_nil], hd, .done _⟩

theorem runs_bind_iff {c : Console α} {f : α → Console β} {b : β} :
    ((c >>= f) s).Runs log (b, s') ↔
      ∃ a mid first rest, log = first ++ rest ∧ (c s).Runs first (a, mid) ∧
        (f a mid).Runs rest (b, s') := by
  show (c s >>= fun r => f r.1 r.2).Runs log (b, s') ↔ _
  rw [Dialogue.runs_bind_iff]
  constructor
  · rintro ⟨⟨a, mid⟩, first, rest, rfl, hc, hf⟩
    exact ⟨a, mid, first, rest, rfl, hc, hf⟩
  · rintro ⟨a, mid, first, rest, rfl, hc, hf⟩
    exact ⟨(a, mid), first, rest, rfl, hc, hf⟩

theorem runs_pure_iff {a b : α} :
    ((pure a : Console α) s).Runs log (b, s') ↔ log = [] ∧ b = a ∧ s' = s := by
  show (Dialogue.done (a, s)).Runs log (b, s') ↔ _
  rw [Dialogue.runs_done_iff, Prod.mk.injEq]

theorem runs_get_iff {held : SessionStore} :
    ((get : Console SessionStore) s).Runs log (held, s') ↔ log = [] ∧ held = s ∧ s' = s := by
  show (Dialogue.done (s, s)).Runs log (held, s') ↔ _
  rw [Dialogue.runs_done_iff, Prod.mk.injEq]

theorem runs_printLine_iff {line : String} :
    (printLine line s).Runs log ((), s') ↔ log = [⟨.print (line ++ "\n"), ()⟩] ∧ s' = s := by
  rw [printLine, print, runs_host_iff]
  exact and_congr_left' Dialogue.runs_question_iff

/-- A command goes on after success, and stops at a failure. -/
theorem runs_andThen {ε : Type} {outcome : Except ε α} {fault : ε → CommandError}
    {next : α → Console Unit} {answer : Except CommandError Unit}
    (h : (andThen outcome fault next s).Runs log (answer, s')) :
    (∃ cause, outcome = .error cause ∧ answer = .error (fault cause) ∧ log = [] ∧ s' = s) ∨
      ∃ a, outcome = .ok a ∧ answer = .ok () ∧ (next a s).Runs log ((), s') := by
  rcases outcome with cause | a
  · obtain ⟨rfl, hresult⟩ := Dialogue.runs_done_iff.1 h
    obtain ⟨rfl, rfl⟩ := Prod.mk.inj hresult
    exact .inl ⟨cause, rfl, rfl, rfl, rfl⟩
  · obtain ⟨⟨⟩, mid, first, rest, rfl, hnext, hdone⟩ := runs_bind_iff.1 h
    obtain ⟨rfl, hresult⟩ := Dialogue.runs_done_iff.1 hdone
    obtain ⟨rfl, rfl⟩ := Prod.mk.inj hresult
    rw [List.append_nil]
    exact .inr ⟨a, rfl, rfl, hnext⟩

/-! ## One call -/

theorem before_of_call {outcome : request.Outcome}
    (h : (Http.Client.call config request s).Runs log (outcome, s')) (more : List FileContent) :
    s.before request (readings log ++ more) = (s', more) := by
  rcases hpath : request.path? with _ | path
  · obtain ⟨user, password, rfl⟩ := Request.exists_of_path?_eq_none hpath
    obtain ⟨answer, first, rest, rfl, hsend, hdone⟩ := Dialogue.runs_bind_iff.1 h
    obtain ⟨rfl, hresult⟩ := Dialogue.runs_done_iff.1 hdone
    obtain ⟨-, rfl⟩ := Prod.mk.inj hresult
    rw [List.append_nil, readings_of_send hsend]
    rfl
  · obtain ⟨reading, sending, answer, rfl, hsync, hsend, -⟩ :=
      (Http.Client.runs_call_iff hpath).1 h
    have hsynced := SessionStore.reread_of_sync hsync more
    rw [readings_append, readings_of_send hsend, List.append_nil, SessionStore.before, hpath]
    exact hsynced

theorem printed_of_call {outcome : request.Outcome}
    (h : (Http.Client.call config request s).Runs log (outcome, s')) : printed log = [] :=
  printed_of_never (h.never (Http.Client.never_call (fun _ => id) (fun _ => id) (fun _ => id)
    config request s))

/-- What is no call reads nothing, sends nothing and leaves the store alone. -/
theorem silent_of_not_call {q : Api.Question} (hq : ∀ request, q ≠ .call request)
    {r : Api.Answer q} (h : (answerApi config assumeYes q s).Runs log (r, s')) :
    s' = s ∧ readings log = [] ∧ sent log = [] := by
  rcases q with request | event | ⟨title, message⟩
  · exact absurd rfl (hq request)
  · obtain ⟨hreport, rfl⟩ := runs_host_iff.1 h
    obtain rfl := Dialogue.runs_question_iff.1 hreport
    exact ⟨rfl, rfl, rfl⟩
  · rcases assumeYes with _ | _
    · obtain ⟨hask, rfl⟩ := runs_host_iff.1 h
      obtain ⟨⟨⟩, printing, rest, rfl, hprint, hrest⟩ := Dialogue.runs_bind_iff.1 hask
      obtain ⟨line, reading, last, rfl, hline, hdone⟩ := Dialogue.runs_bind_iff.1 hrest
      obtain rfl := Dialogue.runs_question_iff.1 hprint
      obtain rfl := Dialogue.runs_question_iff.1 hline
      obtain ⟨rfl, -⟩ := Dialogue.runs_done_iff.1 hdone
      exact ⟨rfl, rfl, rfl⟩
    · obtain ⟨rfl, hresult⟩ := Dialogue.runs_done_iff.1 h
      obtain ⟨-, rfl⟩ := Prod.mk.inj hresult
      exact ⟨rfl, rfl, rfl⟩

/-! ## Many calls -/

/-- What goes out for calls that are made one after the other, and the store after them, when this
is what reading the session file gives. -/
def departing (config : Config) :
    SessionStore → List FileContent → List Request → List Message × SessionStore
  | s, _, [] => ([], s)
  | s, contents, request :: rest =>
    let (s, contents) := s.before request contents
    let (messages, last) := departing config s contents rest
    ((prepared config s.held.token request).toOption.toList ++ messages, last)

theorem departing_of_relayed {asked : List (Exchange Api)}
    (h : Relayed (answerApi config assumeYes) s asked log s') (more : List FileContent) :
    departing config s (readings log ++ more) (callsOf asked) = (sent log, s') := by
  induction h with
  | nil s => rfl
  | @cons q r s mid last asked first rest hfirst _ ih =>
    rw [readings_append, sent_append, List.append_assoc]
    rcases q with request | event | ⟨title, message⟩
    · show departing config s _ (request :: callsOf asked) = _
      have hbefore := before_of_call hfirst (readings rest ++ more)
      have hsent := Http.Client.sent_of_call hfirst
      simp only [departing, hbefore, ih, hsent]
    · obtain ⟨rfl, hreadings, hsent⟩ := silent_of_not_call (by nofun) hfirst
      rw [hreadings, hsent]
      exact ih
    · obtain ⟨rfl, hreadings, hsent⟩ := silent_of_not_call (by nofun) hfirst
      rw [hreadings, hsent]
      exact ih

/-- The calls can be addressed with these settings. -/
def Addressed (config : Config) (requests : List Request) : Prop :=
  ∀ request ∈ requests, (prepared config none request).isOk = true

instance (config : Config) (requests : List Request) : Decidable (Addressed config requests) :=
  inferInstanceAs (Decidable (∀ request ∈ requests, (prepared config none request).isOk = true))

theorem forall₂_departing {requests : List Request} (haddressed : Addressed config requests)
    {contents : List FileContent} (hsendable : s.Sendable contents) :
    List.Forall₂ (Carries config) requests (departing config s contents requests).1 := by
  induction requests generalizing s contents with
  | nil => exact .nil
  | cons request rest ih =>
    obtain ⟨hrequest, hrest⟩ := List.forall_mem_cons.1 haddressed
    obtain ⟨m, hm⟩ := isOk_iff.1 hrequest
    have hbefore := SessionStore.sendable_before request hsendable
    obtain ⟨m', hm'⟩ := Http.Client.exists_prepared hbefore.held hm
    simp only [departing, hm']
    exact .cons (Http.Client.carries_of_prepared hm') (ih hrest hbefore)

/-- The calls are made one after the other in the log, each with an answer that the log has for it,
and nothing else is sent. -/
def Makes (config : Config) (s : SessionStore) (requests : List Request)
    (log : List (Exchange Host)) (last : SessionStore) : Prop :=
  ∃ asked relayed rest, log = relayed ++ rest ∧ callsOf asked = requests ∧
    Relayed (answerApi config false) s asked relayed last ∧ readings rest = [] ∧ sent rest = []

namespace Makes

variable {requests : List Request}

/-- What is sent for calls is prepared from them and from what the session file says. -/
theorem departing_eq (h : Makes config s requests log s') :
    departing config s (readings log) requests = (sent log, s') := by
  obtain ⟨asked, relayed, rest, rfl, rfl, hrelayed, hreadings, hsent⟩ := h
  rw [readings_append, hreadings, sent_append, hsent, List.append_nil (sent relayed)]
  exact departing_of_relayed hrelayed []

theorem sent_of_none (h : Makes config s [] log s') : sent log = [] :=
  (congrArg Prod.fst h.departing_eq).symm

theorem sent_of_one (h : Makes config s [request] log s') :
    sent log = (prepared config s'.held.token request).toOption.toList := by
  have hdeparting := h.departing_eq
  simp only [departing, List.append_nil] at hdeparting
  obtain ⟨hsent, rfl⟩ := Prod.mk.inj hdeparting
  exact hsent.symm

/-- Every call goes out if its request can be made. -/
theorem forall₂_carries (h : Makes config s requests log s') (haddressed : Addressed config requests)
    (hsendable : s.Sendable (readings log)) : List.Forall₂ (Carries config) requests (sent log) := by
  have hdeparting := forall₂_departing haddressed hsendable
  rw [h.departing_eq] at hdeparting
  exact hdeparting

end Makes

end Console

end AlertConsole
