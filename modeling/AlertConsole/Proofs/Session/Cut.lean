import AlertConsole.Proofs.Json.Prefix
import AlertConsole.Proofs.Session.File
import AlertConsole.Proofs.Session.Reading

/-!
# Session files that are cut short

A session file is written in place, so another program may find only the first of its bytes there.
These are no session, wherever the cut is (`ofBytes?_eq_none_of_cut`): a store that reads them stays
as it is, one that is opened on them is logged out, and only the whole file brings the new session
(`whole_file_alone_counts`).
-/

namespace AlertConsole

open Text (utf8)

/-! ## Parts of a file -/

namespace Session

open Json

theorem head?_fileText (s : Session) :
    (byteText (prettyChars 0 s.toJson)).head? = some '\x7b' := by
  rw [byteText_fileText]
  rfl

theorem getLast?_fileText (s : Session) :
    (byteText (prettyChars 0 s.toJson)).getLast? = some '\x7d' := by
  rw [byteText_fileText]
  simp [memberChars, List.getLast?_cons, List.getLast?_append]

theorem ofBytes?_eq_none_of_cut {s : Session} {part more : List UInt8}
    (hpart : part ++ more = utf8 s.fileText) (hmore : more ≠ []) : ofBytes? part = none := by
  have hchars : part.map byteChar ++ more.map byteChar = byteText (prettyChars 0 s.toJson) := by
    rw [← List.map_append, hpart, fileText, Json.pretty, Text.utf8_ofList]
    rfl
  have hwhole : Spelling.ofChars? (part.map byteChar ++ more.map byteChar) = some s.spelled := by
    rw [← List.map_append, hpart]
    exact spelling_fileText s
  have hclose : (more.map byteChar).getLast? = some '\x7d' := by
    rw [← getLast?_fileText s, ← hchars, List.getLast?_append_of_ne_nil _ (by simpa using hmore)]
  have hcut : Spelling.ofBytes? part = none :=
    ofChars?_eq_none_of_cut hwhole (hchars ▸ head?_fileText s) hclose rfl
  rw [ofBytes?, hcut]
  rfl

end Session

namespace SessionStore

variable {s s' : SessionStore} {path : String} {content : FileContent} {session : Session}
  {log : List (Exchange Host)}

/-! ## Reading and opening -/

theorem runs_read_iff_learned {op : SessionOperation} {result : op.Result} (hread : op.IsRead)
    (hfile : s.file = some path) :
    (op.perform s).Runs (⟨.read path, content⟩ :: log) (result, s') ↔
      s' = s.learned content ∧ op.Shows result s'.held ∧
        log = if s'.held = s.held then [] else [⟨.report (.sessionFileChanged path), ()⟩] := by
  rw [SessionOperation.runs_read_iff hread, runs_sync_iff hfile]
  constructor
  · rintro ⟨⟨content', hlearned, hlog⟩, hshows⟩
    obtain ⟨hread, hrest⟩ := List.cons.inj hlog
    cases hread
    refine ⟨hlearned, hshows, hrest.trans ?_⟩
    by_cases hsame : s'.held = s.held <;> simp [hsame]
  · rintro ⟨hlearned, hshows, rfl⟩
    refine ⟨⟨content, hlearned, congrArg (List.cons _) ?_⟩, hshows⟩
    by_cases hsame : s'.held = s.held <;> simp [hsame]

theorem runs_opened_iff :
    (opened path).Runs (⟨.read path, content⟩ :: log) s' ↔
      s' = ⟨some path, (sessionOf? content).getD .loggedOut, 0⟩ ∧
        log = if (sessionOf? content).isSome then [] else
          [⟨.report (.sessionFileIgnored path), ()⟩] := by
  constructor
  · intro h
    obtain ⟨content', first, rest, hlog, hread, hrest⟩ := Dialogue.runs_bind_iff.1 h
    obtain rfl := Dialogue.runs_question_iff.1 hread
    obtain ⟨hfirst, rfl⟩ := List.cons.inj hlog
    cases hfirst
    rcases hsession : sessionOf? content with _ | session <;> rw [hsession] at hrest
    · obtain ⟨⟨⟩, reporting, done, rfl, hreport, hdone⟩ := Dialogue.runs_bind_iff.1 hrest
      obtain rfl := Dialogue.runs_question_iff.1 hreport
      obtain ⟨rfl, rfl⟩ := Dialogue.runs_done_iff.1 hdone
      exact ⟨rfl, rfl⟩
    · obtain ⟨rfl, rfl⟩ := Dialogue.runs_done_iff.1 hrest
      exact ⟨rfl, rfl⟩
  · rintro ⟨rfl, rfl⟩
    refine Dialogue.runs_bind_iff.2 ⟨content, [_], _, rfl, Dialogue.runs_question_iff.2 rfl, ?_⟩
    rcases sessionOf? content with _ | session
    · exact Dialogue.runs_bind_iff.2
        ⟨(), [_], [], rfl, Dialogue.runs_question_iff.2 rfl, .done _⟩
    · exact .done _

/-- Nobody takes anything from a file with this content: a store that reads it stays as it is, and
one that is opened on it is logged out. -/
structure Ignored (content : FileContent) : Prop where
  read : ∀ (s : SessionStore) (path : String), s.file = some path →
    ∀ op : SessionOperation, op.IsRead → ∀ log (result : op.Result) s',
      (op.perform s).Runs (⟨.read path, content⟩ :: log) (result, s') ↔
        s' = s ∧ op.Shows result s.held ∧ log = []
  opened : ∀ path log s', (opened path).Runs (⟨.read path, content⟩ :: log) s' ↔
    s' = ⟨some path, .loggedOut, 0⟩ ∧ log = [⟨.report (.sessionFileIgnored path), ()⟩]

/-- Everybody takes the session from a file with this content. -/
structure Adopted (content : FileContent) (session : Session) : Prop where
  read : ∀ (s : SessionStore) (path : String), s.file = some path →
    ∀ op : SessionOperation, op.IsRead → ∀ log (result : op.Result) s',
      (op.perform s).Runs (⟨.read path, content⟩ :: log) (result, s') ↔
        s' = (if session = s.held then s else s.publish session) ∧ op.Shows result session ∧
          log = if session = s.held then [] else [⟨.report (.sessionFileChanged path), ()⟩]
  opened : ∀ path log s', (opened path).Runs (⟨.read path, content⟩ :: log) s' ↔
    s' = ⟨some path, session, 0⟩ ∧ log = []

theorem ignored_of_none (hnone : sessionOf? content = none) : Ignored content where
  read := by
    intro s path hfile op hread log result s'
    have hlearned : s.learned content = s := by rw [learned, hnone]
    rw [runs_read_iff_learned hread hfile, hlearned]
    refine and_congr_right fun hs' => ?_
    rw [hs', if_pos rfl]
  opened := by
    intro path log s'
    rw [runs_opened_iff, hnone]
    rfl

theorem adopted_of_some (hsome : sessionOf? content = some session) : Adopted content session where
  read := by
    intro s path hfile op hread log result s'
    have hlearned : s.learned content = if session = s.held then s else s.publish session := by
      rw [learned, hsome]
    have hheld : (s.learned content).held = session := by rw [held_learned, hsome, Option.getD_some]
    rw [runs_read_iff_learned hread hfile, ← hlearned]
    refine and_congr_right fun hs' => ?_
    rw [hs', hheld]
  opened := by
    intro path log s'
    rw [runs_opened_iff, hsome]
    rfl

/-! ## Logins -/

theorem runs_login_ok {user token : String} {result : Except SessionError Unit}
    (hfile : s.file = some path) (h : (s.login user (.ok token)).Runs log (result, s')) :
    ∃ saved, log = ⟨.save path (Session.withToken token).fileText, saved⟩ ::
      if saved then [⟨.report (.loggedIn user), ()⟩] else [] := by
  rw [login_ok_eq, hfile] at h
  obtain ⟨saved, first, rest, rfl, hsave, hrest⟩ := Dialogue.runs_bind_iff.1 h
  obtain rfl := Dialogue.runs_question_iff.1 hsave
  refine ⟨saved, congrArg (List.cons _) ?_⟩
  cases saved with
  | false => exact (Dialogue.runs_done_iff.1 hrest).1
  | true =>
    obtain ⟨⟨⟩, reporting, done, rfl, hreport, hdone⟩ := Dialogue.runs_bind_iff.1 hrest
    obtain rfl := Dialogue.runs_question_iff.1 hreport
    obtain ⟨rfl, -⟩ := Dialogue.runs_done_iff.1 hdone
    rfl

/-- A login saves one text, whatever the token is. Everybody takes the session of the token from the
whole of its bytes, and nobody takes anything from the bytes up to a place before their end. -/
theorem whole_file_alone_counts {user token : String} {result : Except SessionError Unit}
    (hfile : s.file = some path) (h : (s.login user (.ok token)).Runs log (result, s')) :
    ∃ text saved, log = ⟨.save path text, saved⟩ ::
        (if saved then [⟨.report (.loggedIn user), ()⟩] else []) ∧
      Adopted (.bytes (utf8 text)) (.withToken token) ∧
      ∀ part, part <+: utf8 text → part ≠ utf8 text → Ignored (.bytes part) := by
  obtain ⟨saved, hlog⟩ := runs_login_ok hfile h
  refine ⟨_, saved, hlog, adopted_of_some (Session.ofBytes?_fileText (.withToken token)), ?_⟩
  rintro part ⟨more, hmore⟩ hproper
  refine ignored_of_none (Session.ofBytes?_eq_none_of_cut hmore ?_)
  rintro rfl
  exact hproper ((List.append_nil part).symm.trans hmore)

/-- The bytes up to the middle of a character are not even those of a text. -/
theorem whole_file_alone_counts_within_character :
    ∃ (s s' : SessionStore) (log : List (Exchange Host)) (text : String) (part : List UInt8),
      (s.login "ann" (.ok "é")).Runs log (.ok (), s') ∧
      ⟨.save "session.json" text, true⟩ ∈ log ∧ part <+: utf8 text ∧ Text.ofUtf8? part = none ∧
      Ignored (.bytes part) := by
  let text := (Session.withToken "é").fileText
  let s : SessionStore := ⟨some "session.json", .loggedOut, 0⟩
  have hlogin : (s.login "ann" (.ok "é")).Runs
      [⟨.save "session.json" text, true⟩, ⟨.report (.loggedIn "ann"), ()⟩]
      (.ok (), s.publish (.withToken "é")) :=
    Dialogue.runs_ask_iff.2 ⟨true, [_], rfl, Dialogue.runs_ask_iff.2 ⟨(), [], rfl, .done _⟩⟩
  obtain ⟨saved, _, hlog, -, hcut⟩ := whole_file_alone_counts rfl hlogin
  cases (List.cons.inj hlog).1
  refine ⟨s, _, _, text, (utf8 text).take 15, hlogin, List.mem_cons_self, List.take_prefix _ _,
    by decide +kernel, hcut _ (List.take_prefix _ _) (by decide +kernel)⟩

end SessionStore

end AlertConsole
