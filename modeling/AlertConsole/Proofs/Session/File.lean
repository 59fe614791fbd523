import AlertConsole.Proofs.Json.Strings
import AlertConsole.Session.Basic

/-!
# Session files

A session that was written to a file is read back from it, whatever the characters of its token
(`ofBytes?_fileText`).
-/

namespace AlertConsole

open Text (utf8)

namespace Json

variable {fuel : Nat} {chars next : List Char} {value : Spelling}

/-! ## Members -/

/-- A member on a line of its own, up to its value. -/
def memberChars (key : String) (rest : List Char) : List Char :=
  '\n' :: ' ' :: ' ' :: '"' :: (byteText (key.toList.flatMap escapedChar) ++
    '"' :: ':' :: ' ' :: rest)

theorem members?_of_comma (key : String)
    (hvalue : value? fuel (' ' :: (chars ++ ',' :: next)) = some (value, ',' :: next)) :
    members? (fuel + 1) (memberChars key (chars ++ ',' :: next)) =
      (members? fuel next).map fun (members, rest) =>
        ((key.toList.flatMap pieces, value) :: members, rest) := by
  have hquote : ∀ rest : List Char, skipSpace ('\n' :: ' ' :: ' ' :: '"' :: rest) = '"' :: rest :=
    fun _ => rfl
  have hcolon : ∀ rest : List Char, skipSpace (':' :: rest) = ':' :: rest := fun _ => rfl
  have hcomma : skipSpace (',' :: next) = ',' :: next := rfl
  rw [memberChars, members?, hquote]
  simp only [stringRest?_stringChars, hcolon, hvalue, hcomma]

theorem members?_of_brace (key : String)
    (hvalue : value? fuel (' ' :: (chars ++ ['\n', '\x7d'])) = some (value, ['\n', '\x7d'])) :
    members? (fuel + 1) (memberChars key (chars ++ ['\n', '\x7d'])) =
      some ([(key.toList.flatMap pieces, value)], []) := by
  have hquote : ∀ rest : List Char, skipSpace ('\n' :: ' ' :: ' ' :: '"' :: rest) = '"' :: rest :=
    fun _ => rfl
  have hcolon : ∀ rest : List Char, skipSpace (':' :: rest) = ':' :: rest := fun _ => rfl
  have hbrace : skipSpace ['\n', '\x7d'] = ['\x7d'] := rfl
  rw [memberChars, members?, hquote]
  simp only [stringRest?_stringChars, hcolon, hvalue, hbrace]

/-! ## Scalars -/

theorem byteText_stringChars (s : String) (rest : List Char) :
    byteText (stringChars s) ++ rest =
      '"' :: (byteText (s.toList.flatMap escapedChar) ++ '"' :: rest) := by
  have hquote : byteText ['"'] = ['"'] := rfl
  rw [stringChars, ← List.singleton_append, byteText_append, byteText_append, hquote]
  simp

/-- How a text that may be absent is spelled. -/
def spelledText (s : Option String) : Spelling :=
  s.elim .null fun s => .string (s.toList.flatMap pieces)

theorem value?_ofString? (fuel : Nat) (s : Option String) (rest : List Char) :
    value? (fuel + 1) (' ' :: (byteText (scalarChars (ofString? s)) ++ rest)) =
      some (spelledText s, rest) := by
  rcases s with _ | s
  · rfl
  · have hspace : skipSpace (' ' :: (byteText (stringChars s) ++ rest)) =
        '"' :: (byteText (s.toList.flatMap escapedChar) ++ '"' :: rest) := by
      rw [byteText_stringChars]
      rfl
    show value? (fuel + 1) (' ' :: (byteText (stringChars s) ++ rest)) = _
    rw [value?, hspace]
    simp only [stringRest?_stringChars]
    rfl

theorem value?_bool (fuel : Nat) (b : Bool) (rest : List Char) :
    value? (fuel + 1) (' ' :: (byteText (scalarChars (.bool b)) ++ rest)) =
      some (.bool b, rest) := by
  cases b <;> rfl

theorem text?_spelledText (s : String) : (spelledText (some s)).text? = some s :=
  textOfBytePieces?_pieces s

end Json

namespace Session

open Json

/-- How the file of a session is spelled. -/
def spelled (s : Session) : Spelling :=
  .object [("token".toList.flatMap pieces, spelledText s.token),
    ("logged_in".toList.flatMap pieces, .bool s.loggedIn)]

theorem byteText_fileText (s : Session) :
    byteText (prettyChars 0 s.toJson) =
      '\x7b' :: memberChars "token" (byteText (scalarChars (ofString? s.token)) ++
        ',' :: memberChars "logged_in" (byteText (scalarChars (.bool s.loggedIn)) ++
          ['\n', '\x7d'])) := by
  have htoken : prettyChars 1 (ofString? s.token) = scalarChars (ofString? s.token) := by
    rcases s.token <;> rfl
  have hflag : prettyChars 1 (.bool s.loggedIn) = scalarChars (.bool s.loggedIn) := rfl
  have hchars : prettyChars 0 s.toJson =
      ['\x7b', '\n', ' ', ' '] ++ (stringChars "token" ++ ([':', ' '] ++
        (scalarChars (ofString? s.token) ++ ([',', '\n', ' ', ' '] ++
          (stringChars "logged_in" ++ ([':', ' '] ++
            (scalarChars (.bool s.loggedIn) ++ ['\n', '\x7d']))))))) := by
    rw [← htoken, ← hflag]
    simp [toJson, prettyChars, prettyMembers, newline]
  have hopen : byteText ['\x7b', '\n', ' ', ' '] = ['\x7b', '\n', ' ', ' '] := rfl
  have hcolon : byteText [':', ' '] = [':', ' '] := rfl
  have hcomma : byteText [',', '\n', ' ', ' '] = [',', '\n', ' ', ' '] := rfl
  have hclose : byteText ['\n', '\x7d'] = ['\n', '\x7d'] := rfl
  rw [hchars]
  simp only [byteText_append, hopen, hcolon, hcomma, hclose]
  simp only [byteText_stringChars, memberChars, List.cons_append, List.nil_append]

theorem value?_fileText (s : Session) (fuel : Nat) :
    value? (fuel + 4) (byteText (prettyChars 0 s.toJson)) = some (s.spelled, []) := by
  have hflag := members?_of_brace "logged_in"
    (value?_bool fuel s.loggedIn ['\n', '\x7d'])
  have hmembers := members?_of_comma "token" (value?_ofString? (fuel + 1) s.token
    (',' :: memberChars "logged_in" (byteText (scalarChars (.bool s.loggedIn)) ++ ['\n', '\x7d'])))
  rw [hflag] at hmembers
  rw [byteText_fileText]
  exact congrArg (Option.map _) hmembers

theorem fields?_spelled (s : Session) :
    s.spelled.fields? ["token", "logged_in"] =
      some [some (spelledText s.token), some (.bool s.loggedIn)] := by
  have hmembers : memberTexts? [("token".toList.flatMap pieces, spelledText s.token),
      ("logged_in".toList.flatMap pieces, .bool s.loggedIn)] =
        some [("token", spelledText s.token), ("logged_in", .bool s.loggedIn)] := by
    simp only [memberTexts?, textOfBytePieces?_pieces, Option.bind_eq_bind, Option.bind_some,
      Option.pure_def]
  rw [spelled, Spelling.fields?, hmembers]
  rfl

theorem tokenOf?_spelledText (token : Option String) :
    tokenOf? (spelledText token) = some token := by
  rcases token with _ | t
  · rfl
  · exact congrArg (Option.map some) (text?_spelledText t)

theorem spelling_fileText (s : Session) :
    Spelling.ofBytes? (utf8 s.fileText) = some s.spelled := by
  have hlength : ∃ fuel, 2 * (byteText (prettyChars 0 s.toJson)).length + 1 = fuel + 4 := by
    refine ⟨2 * (byteText (prettyChars 0 s.toJson)).length + 1 - 4, ?_⟩
    rw [byteText_fileText]
    simp only [memberChars, List.length_cons]
    omega
  obtain ⟨fuel, hfuel⟩ := hlength
  rw [fileText, Json.pretty, ofBytes?_utf8, Spelling.ofChars?, hfuel, value?_fileText]
  rfl

/-- The session in a file that was written. -/
theorem ofBytes?_fileText (s : Session) :
    ofBytes? (utf8 s.fileText) = some ⟨s.token, s.loggedIn && s.token.isSome⟩ := by
  rw [ofBytes?, spelling_fileText, Option.bind_some, fields?_spelled, Option.bind_some, ofFields?,
    Option.elim_some, tokenOf?_spelledText]
  rfl

end Session

end AlertConsole
