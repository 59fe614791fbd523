import AlertConsole.Json.Printer
import AlertConsole.Json.Record
import AlertConsole.Proofs.Text.Percent

/-!
# Strings in the bytes of a file

A string that is written with its escapes is read back from the bytes of the file, whatever its
characters are (`stringRest?_stringChars`, `textOfBytePieces?_pieces`).
-/

namespace AlertConsole.Json

open String (utf8EncodeChar)
open Text (utf8 utf8_ofList ofUtf8?_utf8)
open Text.Percent (toNat_ofNat_of_lt)

/-! ## Bytes as characters -/

/-- The character that stands for a byte. -/
def byteChar (b : UInt8) : Char :=
  Char.ofNat b.toNat

/-- The bytes of a text, each as a character. -/
def byteText (cs : List Char) : List Char :=
  (cs.flatMap utf8EncodeChar).map byteChar

theorem toNat_byteChar (b : UInt8) : (byteChar b).toNat = b.toNat :=
  toNat_ofNat_of_lt b.toNat_lt

theorem byteText_append (cs ds : List Char) : byteText (cs ++ ds) = byteText cs ++ byteText ds := by
  rw [byteText, List.flatMap_append, List.map_append]
  rfl

theorem byteText_of_ascii {cs : List Char} (h : ∀ c ∈ cs, c.toNat < 0x80) : byteText cs = cs := by
  induction cs with
  | nil => rfl
  | cons c cs ih =>
    have hc : c.toNat < 0x80 := h c List.mem_cons_self
    have hbyte : byteChar (UInt8.ofNat c.toNat) = c := by
      have hlt : c.toNat < 256 := by omega
      rw [byteChar, UInt8.toNat_ofNat_of_lt' hlt, Char.ofNat_toNat]
    have hrest : byteText cs = cs := ih fun d hd => h d (List.mem_cons_of_mem c hd)
    rw [← List.singleton_append, byteText_append, hrest, byteText, List.flatMap_singleton,
      Text.utf8EncodeChar_of_ascii hc, List.map_singleton, hbyte]

theorem ofBytes?_utf8 (cs : List Char) :
    Spelling.ofBytes? (utf8 (String.ofList cs)) = Spelling.ofChars? (byteText cs) := by
  rw [Spelling.ofBytes?, utf8_ofList]
  rfl

/-! ## Reading what was written -/

/-- The character is written by its code. -/
def isNamed (c : Char) : Bool :=
  c.toNat < 0x20 && c != '\x08' && c != '\x0c' && c != '\n' && c != '\r' && c != '\t'

/-- What a character in a string is read as. -/
def pieces (c : Char) : List Piece :=
  if isNamed c then [.unit c.toNat] else (utf8EncodeChar c).map fun b => .char (byteChar b)

/-- More pieces before those that follow. -/
def before (first : List Piece) (r : List Piece × List Char) : List Piece × List Char :=
  (first ++ r.1, r.2)

theorem stringRest?_cons_of_plain {c : Char} (hquote : c ≠ '"') (hbackslash : c ≠ '\\')
    (hcontrol : 0x20 ≤ c.toNat) (rest : List Char) :
    stringRest? (c :: rest) = (stringRest? rest).map (before [.char c]) := by
  have hrefused : ¬(c = '\\' ∨ c.toNat < 0x20) := by
    rintro (h | h)
    · exact hbackslash h
    · omega
  rw [stringRest?]
  · rw [if_neg hrefused]
    rcases stringRest? rest with _ | ⟨more, after⟩ <;> rfl
  · exact hquote
  · exact fun _ _ _ _ _ h _ => hbackslash h
  · exact fun _ _ h _ => hbackslash h

theorem stringRest?_cons_of_short {c e : Char} (hshort : simpleEscape? e = some c) (hu : e ≠ 'u')
    (rest : List Char) :
    stringRest? ('\\' :: e :: rest) = (stringRest? rest).map (before [.char c]) := by
  rw [stringRest?]
  · rw [hshort]
    rcases stringRest? rest with _ | ⟨more, after⟩ <;> rfl
  · exact fun _ _ _ _ _ h _ => hu h

theorem stringRest?_cons_of_code {n : Nat} (h : n < 0x20) (rest : List Char) :
    stringRest? ('\\' :: 'u' :: '0' :: '0' :: Text.lowerHexDigit (n / 16) ::
      Text.lowerHexDigit (n % 16) :: rest) = (stringRest? rest).map (before [.unit n]) := by
  have hhi : Text.hexValue? (Text.lowerHexDigit (n / 16)) = some (n / 16) :=
    Text.hexValue_lowerHexDigit _ (by omega)
  have hlo : Text.hexValue? (Text.lowerHexDigit (n % 16)) = some (n % 16) :=
    Text.hexValue_lowerHexDigit _ (by omega)
  have hzero : Text.hexValue? '0' = some 0 := by decide
  have hsum : ((0 * 16 + 0) * 16 + n / 16) * 16 + n % 16 = n := by omega
  have hcode : unitCode? '0' '0' (Text.lowerHexDigit (n / 16)) (Text.lowerHexDigit (n % 16)) =
      some n := by
    simp only [unitCode?, hzero, hhi, hlo, Option.bind_eq_bind, Option.bind_some, Option.pure_def,
      hsum]
  rw [stringRest?, hcode]
  rcases stringRest? rest with _ | ⟨more, after⟩ <;> rfl

theorem map_before_before (first second : List Piece) (r : Option (List Piece × List Char)) :
    (r.map (before second)).map (before first) = r.map (before (first ++ second)) := by
  rcases r with _ | ⟨more, after⟩
  · rfl
  · show some (first ++ (second ++ more), after) = some (first ++ second ++ more, after)
    rw [List.append_assoc]

theorem stringRest?_bytes {bytes : List UInt8}
    (h : ∀ b ∈ bytes, 0x20 ≤ b.toNat ∧ b ≠ 0x22 ∧ b ≠ 0x5C) (rest : List Char) :
    stringRest? (bytes.map byteChar ++ rest) =
      (stringRest? rest).map (before (bytes.map fun b => .char (byteChar b))) := by
  induction bytes with
  | nil =>
    show stringRest? rest = (stringRest? rest).map (before [])
    rcases stringRest? rest with _ | ⟨more, after⟩ <;> rfl
  | cons b bytes ih =>
    obtain ⟨hcontrol, hquote, hbackslash⟩ := h b List.mem_cons_self
    have hne : ∀ b' : UInt8, b ≠ b' → byteChar b ≠ byteChar b' := by
      intro b' hb heq
      have htoNat := congrArg Char.toNat heq
      rw [toNat_byteChar, toNat_byteChar] at htoNat
      exact hb (UInt8.toNat_inj.1 htoNat)
    have hrest := ih fun b' hb' => h b' (List.mem_cons_of_mem b hb')
    rw [List.map_cons, List.cons_append, stringRest?_cons_of_plain (hne 0x22 hquote)
      (hne 0x5C hbackslash) (by rwa [toNat_byteChar]), hrest, map_before_before]
    rfl

/-! ## Written characters -/

/-- The three ways in which a character is written. -/
theorem escapedChar_cases (c : Char) :
    (∃ e, escapedChar c = ['\\', e] ∧ simpleEscape? e = some c ∧ e ≠ 'u' ∧ e.toNat < 0x80 ∧
        c.toNat < 0x80 ∧ isNamed c = false) ∨
      (escapedChar c = ['\\', 'u', '0', '0', Text.lowerHexDigit (c.toNat / 16),
          Text.lowerHexDigit (c.toNat % 16)] ∧ c.toNat < 0x20 ∧ isNamed c = true) ∨
      (escapedChar c = [c] ∧ 0x20 ≤ c.toNat ∧ c ≠ '"' ∧ c ≠ '\\' ∧ isNamed c = false) := by
  unfold escapedChar
  split
  case h_8 hquote hbackslash hbackspace hfeed hline hreturn htab =>
    by_cases hcontrol : c.toNat < 0x20
    · refine .inr (.inl ⟨if_pos hcontrol, hcontrol, ?_⟩)
      simp only [isNamed, Bool.and_eq_true, decide_eq_true_eq, bne_iff_ne]
      exact ⟨⟨⟨⟨⟨hcontrol, hbackspace⟩, hfeed⟩, hline⟩, hreturn⟩, htab⟩
    · refine .inr (.inr ⟨if_neg hcontrol, Nat.not_lt.1 hcontrol, hquote, hbackslash, ?_⟩)
      simp [isNamed, hcontrol]
  all_goals exact .inl ⟨_, rfl, by decide, by decide, by decide, by decide, by decide⟩

theorem bytes_of_plain {c : Char} (hcontrol : 0x20 ≤ c.toNat) (hquote : c ≠ '"')
    (hbackslash : c ≠ '\\') :
    ∀ b ∈ utf8EncodeChar c, 0x20 ≤ b.toNat ∧ b ≠ 0x22 ∧ b ≠ 0x5C := by
  intro b hb
  by_cases hascii : c.toNat < 0x80
  · rw [Text.utf8EncodeChar_of_ascii hascii, List.mem_singleton] at hb
    have hlt : c.toNat < 256 := by omega
    have htoNat : b.toNat = c.toNat := by rw [hb, UInt8.toNat_ofNat_of_lt' hlt]
    refine ⟨by omega, ?_, ?_⟩
    · rintro rfl
      exact hquote (Char.toNat_inj.1 htoNat.symm)
    · rintro rfl
      exact hbackslash (Char.toNat_inj.1 htoNat.symm)
  · have hle := Text.le_of_mem_utf8EncodeChar (Nat.not_lt.1 hascii) b hb
    refine ⟨by omega, ?_, ?_⟩ <;> rintro rfl <;> exact absurd hle (by decide)

theorem pieces_of_ascii {c : Char} (hascii : c.toNat < 0x80) (hnamed : isNamed c = false) :
    pieces c = [.char c] := by
  have hlt : c.toNat < 256 := by omega
  rw [pieces, hnamed, if_neg Bool.false_ne_true, Text.utf8EncodeChar_of_ascii hascii,
    List.map_singleton, byteChar, UInt8.toNat_ofNat_of_lt' hlt, Char.ofNat_toNat]

theorem lowerHexDigit_ascii : ∀ n < 16, (Text.lowerHexDigit n).toNat < 0x80 := by
  decide

/-- A written character is read as its pieces. -/
theorem stringRest?_escapedChar (c : Char) (rest : List Char) :
    stringRest? (byteText (escapedChar c) ++ rest) = (stringRest? rest).map (before (pieces c)) := by
  rcases escapedChar_cases c with ⟨e, hescaped, hshort, hu, he, hc, hnamed⟩ |
    ⟨hescaped, hcontrol, hnamed⟩ | ⟨hescaped, hcontrol, hquote, hbackslash, hnamed⟩
  · have hbytes : byteText ['\\', e] = ['\\', e] := by
      refine byteText_of_ascii fun d hd => ?_
      simp only [List.mem_cons, List.not_mem_nil, or_false] at hd
      rcases hd with rfl | rfl
      · decide
      · exact he
    rw [hescaped, hbytes, pieces_of_ascii hc hnamed]
    exact stringRest?_cons_of_short hshort hu rest
  · have hbytes : byteText (escapedChar c) = escapedChar c := by
      refine byteText_of_ascii fun d hd => ?_
      rw [hescaped] at hd
      simp only [List.mem_cons, List.not_mem_nil, or_false] at hd
      rcases hd with rfl | rfl | rfl | rfl | rfl | rfl
      · decide
      · decide
      · decide
      · decide
      · exact lowerHexDigit_ascii _ (by omega)
      · exact lowerHexDigit_ascii _ (by omega)
    rw [hbytes, hescaped, pieces, if_pos hnamed]
    exact stringRest?_cons_of_code hcontrol rest
  · rw [hescaped, byteText, List.flatMap_singleton, pieces, if_neg (by simp [hnamed])]
    exact stringRest?_bytes (bytes_of_plain hcontrol hquote hbackslash) rest

/-- A written string is read as the pieces of its characters. -/
theorem stringRest?_stringChars (cs rest : List Char) :
    stringRest? (byteText (cs.flatMap escapedChar) ++ '"' :: rest) =
      some (cs.flatMap pieces, rest) := by
  induction cs with
  | nil => rfl
  | cons c cs ih =>
    rw [List.flatMap_cons, byteText_append, List.append_assoc, stringRest?_escapedChar, ih]
    rfl

/-! ## The text of the pieces -/

section Decoding

variable {α : Type} (plain named : Char → List α)

theorem decodePieces?_unit {n : Nat} (hhigh : isHighSurrogate n = false)
    (hlow : isLowSurrogate n = false) (rest : List Piece) :
    decodePieces? plain named (.unit n :: rest) =
      (decodePieces? plain named rest).map (named (Char.ofNat n) ++ ·) := by
  rcases rest with _ | ⟨_ | low, rest⟩ <;> simp [decodePieces?, hhigh, hlow]

theorem decodePieces?_chars (bytes : List UInt8) (rest : List Piece) :
    decodePieces? plain named ((bytes.map fun b => .char (byteChar b)) ++ rest) =
      (decodePieces? plain named rest).map (bytes.flatMap (fun b => plain (byteChar b)) ++ ·) := by
  induction bytes with
  | nil =>
    show decodePieces? plain named rest = (decodePieces? plain named rest).map ([] ++ ·)
    rcases decodePieces? plain named rest with _ | as <;> rfl
  | cons b bytes ih =>
    rw [List.map_cons, List.cons_append, decodePieces?, ih, Option.map_map]
    rcases decodePieces? plain named rest with _ | as
    · rfl
    · simp

end Decoding

theorem decodePieces?_pieces (c : Char) (rest : List Piece) :
    decodePieces? (fun c => [UInt8.ofNat c.toNat]) utf8EncodeChar (pieces c ++ rest) =
      (decodePieces? (fun c => [UInt8.ofNat c.toNat]) utf8EncodeChar rest).map
        (utf8EncodeChar c ++ ·) := by
  unfold pieces
  by_cases hnamed : isNamed c
  · have hcontrol : c.toNat < 0x20 := by
      simp only [isNamed, Bool.and_eq_true, decide_eq_true_eq] at hnamed
      exact hnamed.1.1.1.1.1
    have hhigh : isHighSurrogate c.toNat = false := by simp [isHighSurrogate]; omega
    have hlow : isLowSurrogate c.toNat = false := by simp [isLowSurrogate]; omega
    rw [if_pos hnamed, List.singleton_append, decodePieces?_unit _ _ hhigh hlow, Char.ofNat_toNat]
  · have hbytes : (utf8EncodeChar c).flatMap (fun b => [UInt8.ofNat (byteChar b).toNat]) =
        utf8EncodeChar c := by
      simp only [toNat_byteChar, UInt8.ofNat_toNat, List.flatMap_singleton']
    rw [if_neg hnamed, decodePieces?_chars, hbytes]

/-- The pieces of the characters of a text give the text. -/
theorem textOfBytePieces?_pieces (s : String) :
    textOfBytePieces? (s.toList.flatMap pieces) = some s := by
  have hdecode : ∀ cs : List Char,
      decodePieces? (fun c => [UInt8.ofNat c.toNat]) utf8EncodeChar (cs.flatMap pieces) =
        some (cs.flatMap utf8EncodeChar) := by
    intro cs
    induction cs with
    | nil => rfl
    | cons c cs ih => rw [List.flatMap_cons, decodePieces?_pieces, ih, Option.map_some]; rfl
  rw [textOfBytePieces?, hdecode, Option.bind_some]
  exact ofUtf8?_utf8 s

end AlertConsole.Json
