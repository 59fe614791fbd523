import AlertConsole.Proofs.Text.Utf8
import AlertConsole.Text.Percent

/-!
# Percent-encoded names

An encoded name is made of unreserved characters and `%` alone (`encodedChar_of_mem_encode`), and
decoding gives the name back (`decode?_encode`). Text that keeps all its bytes is left as it is
(`encodeWhere_of_forall_keep`).
-/

namespace AlertConsole.Text.Percent

/-! ## Characters -/

/-- A character that percent encoding writes. -/
def EncodedChar (c : Char) : Prop :=
  c = '%' ∨ ∃ b, isUnreserved b = true ∧ c = Char.ofNat b.toNat

theorem toNat_ofNat_of_lt {n : Nat} (h : n < 0x100) : (Char.ofNat n).toNat = n := by
  have hvalid : n.isValidChar := .inl (by omega)
  rw [Char.ofNat, dif_pos hvalid]
  rfl

theorem isUnreserved_upperHexDigit :
    ∀ n < 16, isUnreserved (UInt8.ofNat (upperHexDigit n).toNat) = true ∧
      upperHexDigit n = Char.ofNat (UInt8.ofNat (upperHexDigit n).toNat).toNat := by
  decide

theorem encodedChar_upperHexDigit {n : Nat} (h : n < 16) : EncodedChar (upperHexDigit n) :=
  .inr ⟨_, isUnreserved_upperHexDigit n h⟩

theorem encodedChar_of_mem_encodeByteWhere {b : UInt8} {c : Char}
    (h : c ∈ encodeByteWhere isUnreserved b) : EncodedChar c := by
  have hbyte : b.toNat < 256 := b.toNat_lt
  unfold encodeByteWhere at h
  by_cases hkeep : isUnreserved b
  · rw [if_pos hkeep, List.mem_singleton] at h
    exact .inr ⟨b, hkeep, h⟩
  · rw [if_neg hkeep, escape] at h
    simp only [List.mem_cons, List.not_mem_nil, or_false] at h
    rcases h with rfl | rfl | rfl
    · exact .inl rfl
    · exact encodedChar_upperHexDigit (by omega)
    · exact encodedChar_upperHexDigit (by omega)

theorem encodedChar_of_mem_encode {name : String} {c : Char} (h : c ∈ (encode name).toList) :
    EncodedChar c := by
  rw [encode, String.toList_ofList, encodeWhere, List.mem_flatMap] at h
  obtain ⟨b, -, hb⟩ := h
  exact encodedChar_of_mem_encodeByteWhere hb

/-! ## Decoding -/

theorem decodeBytes_cons_of_ne {c : Char} (h : c ≠ '%') (rest : List Char) :
    decodeBytes (c :: rest) = String.utf8EncodeChar c ++ decodeBytes rest := by
  rw [decodeBytes]
  rintro hi lo rest rfl
  exact absurd rfl h

theorem decodeBytes_escape (b : UInt8) (rest : List Char) :
    decodeBytes (escape b ++ rest) = b :: decodeBytes rest := by
  have hbyte : b.toNat < 256 := b.toNat_lt
  have hhi := hexValue_upperHexDigit (b.toNat / 16) (by omega)
  have hlo := hexValue_upperHexDigit (b.toNat % 16) (by omega)
  have hsum : b.toNat / 16 * 16 + b.toNat % 16 = b.toNat := Nat.div_add_mod' b.toNat 16
  simp only [escape, List.cons_append, List.nil_append, decodeBytes, hhi, hlo, hsum,
    UInt8.ofNat_toNat]

theorem unreserved_bounds (b : UInt8) :
    isUnreserved b = true → b.toNat < 0x80 ∧ Char.ofNat b.toNat ≠ '%' :=
  byte_forall (p := fun b => isUnreserved b = true → b.toNat < 0x80 ∧ Char.ofNat b.toNat ≠ '%')
    (by decide +kernel) b

theorem decodeBytes_encodeByteWhere (b : UInt8) (rest : List Char) :
    decodeBytes (encodeByteWhere isUnreserved b ++ rest) = b :: decodeBytes rest := by
  unfold encodeByteWhere
  by_cases hkeep : isUnreserved b
  · obtain ⟨hascii, hne⟩ := unreserved_bounds b hkeep
    have htoNat := toNat_ofNat_of_lt b.toNat_lt
    rw [if_pos hkeep, List.singleton_append, decodeBytes_cons_of_ne hne,
      utf8EncodeChar_of_ascii (by rwa [htoNat]), htoNat, UInt8.ofNat_toNat]
    rfl
  · rw [if_neg hkeep, decodeBytes_escape]

theorem decodeBytes_flatMap_encode (bytes : List UInt8) :
    decodeBytes (bytes.flatMap (encodeByteWhere isUnreserved)) = bytes := by
  induction bytes with
  | nil => rfl
  | cons b rest ih => rw [List.flatMap_cons, decodeBytes_encodeByteWhere, ih]

theorem decode?_encode (name : String) : decode? (encode name) = some name := by
  rw [decode?, encode, String.toList_ofList, encodeWhere, decodeBytes_flatMap_encode, ofUtf8?_utf8]

/-! ## Text that is kept -/

theorem encodeWhere_of_forall_keep {keep : UInt8 → Bool} {cs : List Char}
    (h : ∀ c ∈ cs, c.toNat < 0x80 ∧ keep (UInt8.ofNat c.toNat) = true) :
    encodeWhere keep (String.ofList cs) = cs := by
  rw [encodeWhere, utf8_ofList, List.flatMap_assoc]
  induction cs with
  | nil => rfl
  | cons c rest ih =>
    obtain ⟨hascii, hkeep⟩ := h c List.mem_cons_self
    have hlt : c.toNat < 256 := by omega
    rw [List.flatMap_cons, ih fun c hc => h c (List.mem_cons_of_mem _ hc),
      utf8EncodeChar_of_ascii hascii, List.flatMap_singleton, encodeByteWhere, if_pos hkeep,
      UInt8.toNat_ofNat_of_lt' hlt, Char.ofNat_toNat, List.singleton_append]

end AlertConsole.Text.Percent
