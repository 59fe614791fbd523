import AlertConsole.Proofs.Dialogue
import AlertConsole.Proofs.Session.Sharing

/-!
# Reading a session file that anybody may change

The host answers a read with whatever the file holds by then, so a run of operations with arbitrary
answers is one with arbitrary changes of the file in between. A read takes over what the file says,
gives up the session when the file is missing, and keeps it when the file says nothing
(`runs_read_iff`). In every state that a store can reach, who is logged in has a token
(`Reachable.sound`).
-/

namespace AlertConsole

open SessionStore (sessionOf?)

/-! ## Sound sessions -/

/-- Nobody is logged in without a token. -/
def Session.Sound (session : Session) : Prop :=
  session.loggedIn = true → session.token.isSome = true

namespace Session

theorem sound_loggedOut : loggedOut.Sound := nofun

theorem sound_withToken (token : String) : (withToken token).Sound := fun _ => rfl

theorem sound_of_ofBytes? {bytes : List UInt8} {session : Session}
    (h : ofBytes? bytes = some session) : session.Sound := by
  obtain ⟨fields, -, hfields⟩ := Option.bind_eq_some_iff.1 h
  unfold ofFields? at hfields
  split at hfields
  · obtain ⟨token, -, htoken⟩ := Option.bind_eq_some_iff.1 hfields
    obtain ⟨flag, -, hflag⟩ := Option.bind_eq_some_iff.1 htoken
    obtain rfl := Option.some.inj hflag
    simp [Sound]
  · cases hfields

theorem sound_of_sessionOf? {content : FileContent} {session : Session}
    (h : sessionOf? content = some session) : session.Sound := by
  cases content with
  | missing =>
    obtain rfl := Option.some.inj h
    exact sound_loggedOut
  | unreadable => cases h
  | bytes bytes => exact sound_of_ofBytes? h

end Session

/-! ## Reading the file -/

namespace SessionStore

variable {s s' : SessionStore} {path : String} {content : FileContent}
  {log : List (Exchange Host)}

/-- The store once it was told what its file holds. -/
def learned (s : SessionStore) (content : FileContent) : SessionStore :=
  match sessionOf? content with
  | none => s
  | some session => if session = s.held then s else s.publish session

theorem file_learned (s : SessionStore) (content : FileContent) :
    (s.learned content).file = s.file := by
  unfold learned
  split
  · rfl
  · split <;> rfl

theorem held_learned (s : SessionStore) (content : FileContent) :
    (s.learned content).held = (sessionOf? content).getD s.held := by
  unfold learned
  split
  · next hsession => rw [hsession, Option.getD_none]
  · next session hsession =>
    rw [hsession, Option.getD_some]
    split
    · next hsame => exact hsame.symm
    · rfl

theorem publications_learned (s : SessionStore) (content : FileContent) :
    (s.learned content).publications =
      s.publications + if (s.learned content).held = s.held then 0 else 1 := by
  rw [held_learned]
  unfold learned
  split
  · next hsession => simp [hsession]
  · next session hsession =>
    rw [hsession, Option.getD_some]
    split <;> rfl

/-- The exchanges of a look at the file: what it holds, and a report if that is published. -/
def looking (path : String) (content : FileContent) (published : Bool) : List (Exchange Host) :=
  ⟨.read path, content⟩ :: if published then [⟨.report (.sessionFileChanged path), ()⟩] else []

theorem sync_eq (hfile : s.file = some path) :
    s.sync = (do
      let content ← Host.read path
      if (s.learned content).held = s.held then pure (s.learned content)
      else
        Host.report (.sessionFileChanged path)
        pure (s.learned content)) := by
  rw [sync, hfile]
  refine congrArg (Host.read path >>= ·) (funext fun content => ?_)
  rw [held_learned, learned]
  cases sessionOf? content with
  | none => exact (if_pos rfl).symm
  | some session =>
    by_cases hsame : session = s.held
    · simp [hsame]
    · simp [hsame]

theorem runs_sync_iff (hfile : s.file = some path) :
    s.sync.Runs log s' ↔ ∃ content, s' = s.learned content ∧
      log = looking path content (decide (s'.held ≠ s.held)) := by
  rw [sync_eq hfile, Dialogue.runs_bind_iff]
  constructor
  · rintro ⟨content, first, rest, rfl, hread, hrest⟩
    obtain rfl := Dialogue.runs_question_iff.1 hread
    refine ⟨content, ?_⟩
    split at hrest
    · next hsame =>
      obtain ⟨rfl, rfl⟩ := Dialogue.runs_done_iff.1 hrest
      simp [looking, hsame]
    · next hnew =>
      obtain ⟨⟨⟩, reporting, done, rfl, hreport, hdone⟩ := Dialogue.runs_bind_iff.1 hrest
      obtain rfl := Dialogue.runs_question_iff.1 hreport
      obtain ⟨rfl, rfl⟩ := Dialogue.runs_done_iff.1 hdone
      simp [looking, hnew]
  · rintro ⟨content, rfl, rfl⟩
    by_cases hsame : (s.learned content).held = s.held
    · refine ⟨content, [⟨.read path, content⟩], [], ?_, Dialogue.runs_question_iff.2 rfl, ?_⟩
      · simp [looking, hsame]
      · rw [if_pos hsame]
        exact .done _
    · refine ⟨content, [⟨.read path, content⟩], [⟨.report (.sessionFileChanged path), ()⟩], ?_,
        Dialogue.runs_question_iff.2 rfl, ?_⟩
      · simp [looking, hsame]
      · rw [if_neg hsame]
        exact Dialogue.runs_ask_iff.2 ⟨(), [], rfl, .done _⟩

/-- Every read syncs, and then looks at the held session. -/
theorem runs_reading_iff {α : Type} (view : Session → α) {a : α} :
    (do
      let s ← s.sync
      pure (view s.held, s) : Dialogue Host (α × SessionStore)).Runs log (a, s') ↔
      s.sync.Runs log s' ∧ a = view s'.held := by
  rw [Dialogue.runs_bind_iff]
  constructor
  · rintro ⟨synced, first, rest, rfl, hsync, hdone⟩
    obtain ⟨rfl, hresult⟩ := Dialogue.runs_done_iff.1 hdone
    obtain ⟨rfl, rfl⟩ := Prod.mk.inj hresult
    rw [List.append_nil]
    exact ⟨hsync, rfl⟩
  · rintro ⟨hsync, rfl⟩
    exact ⟨s', log, [], by rw [List.append_nil], hsync, .done _⟩

end SessionStore

/-! ## Reads -/

namespace SessionOperation

variable {op : SessionOperation} {s s' : SessionStore} {result : op.Result}
  {log : List (Exchange Host)}

/-- What a read is to give when this is the session. -/
def Shows : (op : SessionOperation) → op.Result → Session → Prop
  | currentToken, token, held => token = held.token
  | isLoggedIn, loggedIn, held => loggedIn = held.loggedIn
  | session, whole, held => whole = held
  | _, _, _ => True

theorem runs_read_iff (hread : op.IsRead) :
    (op.perform s).Runs log (result, s') ↔ s.sync.Runs log s' ∧ op.Shows result s'.held := by
  cases hread with
  | currentToken => exact SessionStore.runs_reading_iff Session.token
  | isLoggedIn => exact SessionStore.runs_reading_iff Session.loggedIn
  | session => exact SessionStore.runs_reading_iff id

end SessionOperation

/-! ## Logins and logouts -/

namespace SessionStore

variable {s s' : SessionStore} {path : String} {log : List (Exchange Host)}
  {result : Except SessionError Unit}

/-- What a login or logout comes to once it is known whether the file was changed. -/
def settling (s : SessionStore) (session : Session) (event : Event) (changed : Bool) :
    Dialogue Host (Except SessionError Unit × SessionStore) :=
  if changed then do
    Host.report event
    pure (.ok (), s.publish session)
  else pure (.error .storage, s)

theorem login_ok_eq (s : SessionStore) (user token : String) :
    s.login user (.ok token) =
      (s.file.elim (pure true) fun path => Host.save path (Session.withToken token).fileText) >>=
        s.settling (.withToken token) (.loggedIn user) := by
  rw [login]
  cases s.file <;> rfl

theorem logout_eq (s : SessionStore) :
    s.logout = s.file.elim (pure true) Host.remove >>= s.settling .loggedOut .loggedOut := by
  rw [logout]
  cases s.file <;> rfl

theorem runs_settling {session : Session} {event : Event} {changing : Dialogue Host Bool}
    (h : (changing >>= s.settling session event).Runs log (result, s')) :
    s' = s ∨ s' = s.publish session := by
  obtain ⟨changed, first, rest, rfl, -, hrest⟩ := Dialogue.runs_bind_iff.1 h
  cases changed with
  | false =>
    obtain ⟨-, hresult⟩ := Dialogue.runs_done_iff.1 hrest
    exact .inl (congrArg Prod.snd hresult)
  | true =>
    obtain ⟨⟨⟩, reporting, done, rfl, -, hdone⟩ := Dialogue.runs_bind_iff.1 hrest
    obtain ⟨-, hresult⟩ := Dialogue.runs_done_iff.1 hdone
    exact .inr (congrArg Prod.snd hresult)

theorem runs_login {user : String} {answer : Except ApiError String}
    (h : (s.login user answer).Runs log (result, s')) :
    s' = s ∨ ∃ token, s' = s.publish (.withToken token) := by
  cases answer with
  | error cause =>
    obtain ⟨-, hresult⟩ := Dialogue.runs_done_iff.1 h
    exact .inl (congrArg Prod.snd hresult)
  | ok token =>
    rw [login_ok_eq] at h
    exact (runs_settling h).imp_right fun hpublished => ⟨token, hpublished⟩

theorem runs_logout (h : s.logout.Runs log (result, s')) : s' = s ∨ s' = s.publish .loggedOut := by
  rw [logout_eq] at h
  exact runs_settling h

theorem held_of_opened (h : (opened path).Runs log s) :
    s.held = .loggedOut ∨ ∃ content, sessionOf? content = some s.held := by
  obtain ⟨content, first, rest, rfl, -, hrest⟩ := Dialogue.runs_bind_iff.1 h
  cases hsession : sessionOf? content with
  | some session =>
    rw [hsession] at hrest
    obtain ⟨-, rfl⟩ := Dialogue.runs_done_iff.1 hrest
    exact .inr ⟨content, hsession⟩
  | none =>
    rw [hsession] at hrest
    obtain ⟨⟨⟩, reporting, done, rfl, -, hdone⟩ := Dialogue.runs_bind_iff.1 hrest
    obtain ⟨-, rfl⟩ := Dialogue.runs_done_iff.1 hdone
    exact .inl rfl

/-! ## Reachable states -/

/-- The states that a store can get into, whatever the host answers. -/
inductive Reachable : SessionStore → Prop where
  | inMemory : Reachable .inMemory
  | opened {path : String} {log : List (Exchange Host)} {s : SessionStore} :
      (opened path).Runs log s → Reachable s
  | performed {op : SessionOperation} {log : List (Exchange Host)} {result : op.Result}
      {s s' : SessionStore} :
      Reachable s → (op.perform s).Runs log (result, s') → Reachable s'

theorem sound_of_opened (h : (opened path).Runs log s) : s.held.Sound := by
  rcases held_of_opened h with hnone | ⟨content, hsession⟩
  · rw [hnone]
    exact Session.sound_loggedOut
  · exact Session.sound_of_sessionOf? hsession

theorem sound_learned (h : s.held.Sound) (content : FileContent) :
    (s.learned content).held.Sound := by
  rw [held_learned]
  cases hsession : sessionOf? content with
  | none => exact h
  | some session => exact Session.sound_of_sessionOf? hsession

theorem sound_of_sync (h : s.held.Sound) (hsync : s.sync.Runs log s') : s'.held.Sound := by
  cases hfile : s.file with
  | none =>
    rw [sync, hfile] at hsync
    obtain ⟨-, rfl⟩ := Dialogue.runs_done_iff.1 hsync
    exact h
  | some path =>
    obtain ⟨content, rfl, -⟩ := (runs_sync_iff hfile).1 hsync
    exact sound_learned h content

theorem sound_of_perform {op : SessionOperation} {result : op.Result} (h : s.held.Sound)
    (hruns : (op.perform s).Runs log (result, s')) : s'.held.Sound := by
  cases op with
  | currentToken => exact sound_of_sync h ((SessionOperation.runs_read_iff .currentToken).1 hruns).1
  | isLoggedIn => exact sound_of_sync h ((SessionOperation.runs_read_iff .isLoggedIn).1 hruns).1
  | session => exact sound_of_sync h ((SessionOperation.runs_read_iff .session).1 hruns).1
  | login user answer =>
    rcases runs_login hruns with rfl | ⟨token, rfl⟩
    · exact h
    · exact Session.sound_withToken token
  | logout =>
    rcases runs_logout hruns with rfl | rfl
    · exact h
    · exact Session.sound_loggedOut
  | restart =>
    obtain ⟨reopened, first, rest, rfl, hopen, hdone⟩ := Dialogue.runs_bind_iff.1 hruns
    obtain ⟨-, hresult⟩ := Dialogue.runs_done_iff.1 hdone
    obtain rfl := congrArg Prod.snd hresult
    cases hfile : s.file with
    | none =>
      rw [hfile] at hopen
      obtain ⟨-, rfl⟩ := Dialogue.runs_done_iff.1 hopen
      exact Session.sound_loggedOut
    | some path =>
      rw [hfile] at hopen
      exact sound_of_opened hopen

theorem Reachable.sound (h : Reachable s) : s.held.Sound := by
  induction h with
  | inMemory => exact Session.sound_loggedOut
  | opened hopened => exact sound_of_opened hopened
  | performed _ hruns ih => exact sound_of_perform ih hruns

/-! ## Following the file -/

/-- How a read goes that finds this in the file. -/
structure Follows (path : String) (content : FileContent) (s : SessionStore)
    (log : List (Exchange Host)) (s' : SessionStore) : Prop where
  parsed : ∀ bytes session, content = .bytes bytes → Session.ofBytes? bytes = some session →
    s'.held = session
  missing : content = .missing → s'.held = .loggedOut
  kept : content = .unreadable ∨ (∃ bytes, content = .bytes bytes ∧ Session.ofBytes? bytes = none) →
    s'.held = s.held
  published : s'.publications = s.publications + if s'.held = s.held then 0 else 1
  file : s'.file = s.file
  asked : log = looking path content (decide (s'.held ≠ s.held))

theorem follows_learned (path : String) (content : FileContent) (s : SessionStore) :
    Follows path content s (looking path content (decide ((s.learned content).held ≠ s.held)))
      (s.learned content) where
  parsed := by
    rintro bytes session rfl hsession
    simp [held_learned, sessionOf?, hsession]
  missing := by
    rintro rfl
    simp [held_learned, sessionOf?]
  kept := by
    rintro (rfl | ⟨bytes, rfl, hnone⟩)
    · simp [held_learned, sessionOf?]
    · simp [held_learned, sessionOf?, hnone]
  published := publications_learned s content
  file := file_learned s content
  asked := rfl

/-- A read is settled by what it finds. -/
theorem Follows.eq_learned {content : FileContent} (h : Follows path content s log s') :
    s' = s.learned content := by
  have hlearned := follows_learned path content s
  have hheld : s'.held = (s.learned content).held := by
    cases content with
    | missing => rw [h.missing rfl, hlearned.missing rfl]
    | unreadable => rw [h.kept (.inl rfl), hlearned.kept (.inl rfl)]
    | bytes bytes =>
      cases hsession : Session.ofBytes? bytes with
      | none => rw [h.kept (.inr ⟨_, rfl, hsession⟩), hlearned.kept (.inr ⟨_, rfl, hsession⟩)]
      | some session => rw [h.parsed _ _ rfl hsession, hlearned.parsed _ _ rfl hsession]
  have hpublications := h.published
  rw [hheld, ← hlearned.published] at hpublications
  have hfile := h.file.trans hlearned.file.symm
  generalize s.learned content = t at hheld hpublications hfile
  obtain ⟨file, held, publications⟩ := t
  obtain ⟨file', held', publications'⟩ := s'
  simp_all

theorem runs_sync_iff_follows (hfile : s.file = some path) :
    s.sync.Runs log s' ↔ ∃ content, Follows path content s log s' := by
  rw [runs_sync_iff hfile]
  refine exists_congr fun content => ⟨?_, fun h => ⟨h.eq_learned, h.asked⟩⟩
  rintro ⟨rfl, rfl⟩
  exact follows_learned path content s

/-- In every state that a store can get into, who is logged in has a token, and a read of its file
goes by what it finds there, which may be anything. -/
theorem reads_follow_file (h : Reachable s) :
    (s.held.loggedIn = true → s.held.token.isSome = true) ∧
      ∀ path, s.file = some path → ∀ op : SessionOperation, op.IsRead →
        ∀ log (result : op.Result) s', (op.perform s).Runs log (result, s') ↔
          ∃ content, Follows path content s log s' ∧ op.Shows result s'.held := by
  refine ⟨h.sound, fun path hfile op hread log result s' => ?_⟩
  rw [SessionOperation.runs_read_iff hread, runs_sync_iff_follows hfile, exists_and_right]

/-- A store that was opened before there was a file, after a login with this token. -/
theorem reachable_of_login (path token : String) :
    Reachable ⟨some path, .withToken token, 1⟩ := by
  have hopened : (opened path).Runs [⟨.read path, .missing⟩] ⟨some path, .loggedOut, 0⟩ :=
    Dialogue.runs_ask_iff.2 ⟨.missing, [], rfl, .done _⟩
  have hlogin : ((SessionOperation.login "ann" (.ok token)).perform
      ⟨some path, .loggedOut, 0⟩).Runs _ (.ok (), ⟨some path, .withToken token, 1⟩) :=
    Dialogue.runs_ask_iff.2 ⟨true, [_], rfl, Dialogue.runs_ask_iff.2 ⟨(), [], rfl, .done _⟩⟩
  exact (Reachable.opened hopened).performed hlogin

/-- A file that somebody cut short leaves the token in force, and one that they wrote whole brings
its own. -/
theorem reads_follow_file_cut_short :
    ∃ s s' log log', Reachable s ∧ (s.held.loggedIn = true → s.held.token.isSome = true) ∧
      s.currentToken.Runs log (some "t", s) ∧
      log = [⟨.read "session.json", .bytes (Text.utf8 "\x7b\"token\"")⟩] ∧
      s.currentToken.Runs log' (some "u", s') ∧ s'.publications = s.publications + 1 ∧
      log' = [⟨.read "session.json", .bytes (Text.utf8 (Session.withToken "u").fileText)⟩,
        ⟨.report (.sessionFileChanged "session.json"), ()⟩] := by
  let s : SessionStore := ⟨some "session.json", .withToken "t", 1⟩
  let cut : FileContent := .bytes (Text.utf8 "\x7b\"token\"")
  let whole : FileContent := .bytes (Text.utf8 (Session.withToken "u").fileText)
  obtain ⟨hsound, hreads⟩ := reads_follow_file (reachable_of_login "session.json" "t")
  have hkept : s.learned cut = s := by
    have hnone : sessionOf? cut = none := by decide +kernel
    rw [learned, hnone]
  have hadopted : s.learned whole = s.publish (.withToken "u") := by
    have hsession : sessionOf? whole = some (.withToken "u") := Session.ofBytes?_fileText _
    rw [learned, hsession]
    rfl
  have hcut := follows_learned "session.json" cut s
  rw [hkept] at hcut
  have hwhole := follows_learned "session.json" whole s
  rw [hadopted] at hwhole
  have hruns := (hreads "session.json" rfl .currentToken .currentToken _ _ _).2 ⟨cut, hcut, rfl⟩
  have hruns' := (hreads "session.json" rfl .currentToken .currentToken _ _ _).2
    ⟨whole, hwhole, rfl⟩
  exact ⟨s, _, _, _, reachable_of_login _ _, hsound, hruns, rfl, hruns', rfl, rfl⟩

end SessionStore

end AlertConsole
