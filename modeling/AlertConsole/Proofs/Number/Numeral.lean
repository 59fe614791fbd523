import AlertConsole.Number.Reading
import AlertConsole.Proofs.Number.Integer
import Mathlib.Algebra.Field.Rat
import Mathlib.Data.List.TakeDrop
import Mathlib.Data.List.TakeWhile

/-!
# The grammar of decimal numbers

`Denotes cs d` is the grammar of floating-point texts: a sign, digits with a point and an exponent,
or one of the words for infinity and for no number, in capital or small letters. The reader takes
the numerals and nothing else, with the parts that the grammar gives them
(`Numeral.ofChars?_eq_some_iff`), and no text has two meanings (`Denotes.unique`).
-/

namespace AlertConsole.Number

variable {cs rest sign mantissa exponentText whole fraction : List Char} {negative : Bool}

/-! ## The grammar -/

/-- Digits, with a point before, among or after them; at least one digit. -/
inductive MantissaText : List Char → List Char → List Char → Prop where
  | whole {whole : List Char} (hne : whole ≠ []) (hwhole : ∀ c ∈ whole, c.isDigit) :
      MantissaText whole [] whole
  | point {whole fraction : List Char} (hne : whole ≠ [] ∨ fraction ≠ [])
      (hwhole : ∀ c ∈ whole, c.isDigit) (hfraction : ∀ c ∈ fraction, c.isDigit) :
      MantissaText whole fraction (whole ++ '.' :: fraction)

/-- Nothing, or `e` or `E` and an integer. -/
inductive ExponentText : List Char → Int → Prop where
  | absent : ExponentText [] 0
  | letter {letter : Char} {cs : List Char} {n : Int} (hletter : letter = 'e' ∨ letter = 'E')
      (hn : SpellsInteger cs n) : ExponentText (letter :: cs) n

/-- `cs` is a sign, a mantissa and an exponent; `n` has them as its parts. -/
inductive NumeralText : List Char → Numeral → Prop where
  | parts {negative : Bool} {sign whole fraction mantissa exponentText : List Char}
      {exponent : Int} (hsign : SignText negative sign)
      (hmantissa : MantissaText whole fraction mantissa)
      (hexponent : ExponentText exponentText exponent) :
      NumeralText (sign ++ (mantissa ++ exponentText)) ⟨negative, whole, fraction, exponent⟩

/-- The number with the digits before and after the point, times a power of ten. -/
def Numeral.magnitude (n : Numeral) : ℚ :=
  Nat.ofDigitChars 10 (n.whole ++ n.fraction) 0 * 10 ^ (n.exponent - n.fraction.length)

/-- `cs` is one of the words, whichever of its letters are capital. -/
def IsWord (words : List String) (cs : List Char) : Prop :=
  ∃ word ∈ words, cs.map Char.toLower = word.toList

/-- The meaning of a floating-point text. -/
inductive Denoted where
  | finite (negative : Bool) (magnitude : ℚ)
  | infinity (negative : Bool)
  | notANumber

/-- `cs` is a floating-point text, and `d` is its meaning. -/
inductive Denotes : List Char → Denoted → Prop where
  | number {cs : List Char} {n : Numeral} (hn : NumeralText cs n) :
      Denotes cs (.finite n.negative n.magnitude)
  | infinity {negative : Bool} {sign word : List Char} (hsign : SignText negative sign)
      (hword : IsWord ["inf", "infinity"] word) : Denotes (sign ++ word) (.infinity negative)
  | notANumber {negative : Bool} {sign word : List Char} (hsign : SignText negative sign)
      (hword : IsWord ["nan"] word) : Denotes (sign ++ word) .notANumber

/-! ## Parts of a numeral -/

theorem spanDigits_eq_iff : spanDigits cs = (whole, rest) ↔
    cs = whole ++ rest ∧ (∀ c ∈ whole, c.isDigit) ∧ ∀ c ∈ rest.head?, ¬c.isDigit := by
  rw [spanDigits, List.span_eq_takeWhile_dropWhile]
  constructor
  · intro h
    obtain ⟨rfl, rfl⟩ := Prod.mk.inj h
    refine ⟨List.takeWhile_append_dropWhile.symm, fun c => List.mem_takeWhile_imp, fun c hc => ?_⟩
    have hfirst := List.head?_dropWhile_not Char.isDigit cs
    rw [hc] at hfirst
    simpa using hfirst
  · rintro ⟨rfl, hwhole, hrest⟩
    rw [List.takeWhile_append_of_pos hwhole, List.dropWhile_append_of_pos hwhole]
    cases rest with
    | nil => rw [List.takeWhile_nil, List.dropWhile_nil, List.append_nil]
    | cons c cs =>
      have hc : ¬c.isDigit := hrest c rfl
      rw [List.takeWhile_cons_of_neg hc, List.dropWhile_cons_of_neg hc, List.append_nil]

theorem exponentPart?_eq_some_iff {n : Int} : exponentPart? cs = some n ↔ ExponentText cs n := by
  constructor
  · intro h
    unfold exponentPart? at h
    split at h
    · cases h
      exact .absent
    · split at h
      · next hletter => exact .letter hletter (readInteger?_eq_some_iff.1 h)
      · cases h
  · rintro (_ | ⟨hletter, hn⟩)
    · rfl
    · rw [exponentPart?, if_pos hletter, readInteger?_eq_some_iff.2 hn]

/-- An exponent does not go on with the digits before it, nor with a point. -/
theorem ExponentText.head?_not {n : Int} (h : ExponentText cs n) :
    (∀ c ∈ cs.head?, ¬c.isDigit) ∧ ∀ rest, cs ≠ '.' :: rest := by
  cases h with
  | absent => exact ⟨fun c hc => (nomatch hc), fun rest => nofun⟩
  | letter hletter hn =>
    rcases hletter with rfl | rfl
    · exact ⟨fun c hc => by cases hc; decide, fun rest h => by cases h⟩
    · exact ⟨fun c hc => by cases hc; decide, fun rest h => by cases h⟩

/-- A mantissa starts with a digit or with the point. -/
theorem MantissaText.ne_cons (h : MantissaText whole fraction mantissa) {c : Char}
    (hc : c.isDigit = false) (hpoint : c ≠ '.') (cs : List Char) : mantissa ++ rest ≠ c :: cs := by
  cases h with
  | whole hne hwhole =>
    obtain ⟨d, ds, rfl⟩ := List.exists_cons_of_ne_nil hne
    intro h
    cases h
    exact Bool.false_ne_true (hc.symm.trans (hwhole c List.mem_cons_self))
  | point hne hwhole hfraction =>
    cases whole with
    | nil => exact fun h => hpoint (List.cons.inj h).1.symm
    | cons d ds =>
      intro h
      cases h
      exact Bool.false_ne_true (hc.symm.trans (hwhole c List.mem_cons_self))

theorem SignText.takeSign_numeral (hsign : SignText negative sign)
    (hmantissa : MantissaText whole fraction mantissa) :
    takeSign (sign ++ (mantissa ++ rest)) = (negative, mantissa ++ rest) :=
  takeSign_append_of_signText hsign (hmantissa.ne_cons rfl (by decide))
    (hmantissa.ne_cons rfl (by decide))

theorem MantissaText.take (h : MantissaText whole fraction mantissa) {n : Int}
    (hexponent : ExponentText exponentText n) :
    ∃ afterWhole, spanDigits (mantissa ++ exponentText) = (whole, afterWhole) ∧
      takeFraction afterWhole = (fraction, exponentText) ∧ ¬(whole = [] ∧ fraction = []) := by
  obtain ⟨hdigit, hpoint⟩ := hexponent.head?_not
  cases h with
  | whole hne hwhole =>
    refine ⟨exponentText, spanDigits_eq_iff.2 ⟨rfl, hwhole, hdigit⟩, ?_, fun h => hne h.1⟩
    rw [takeFraction]
    exact hpoint
  | point hne hwhole hfraction =>
    refine ⟨'.' :: (fraction ++ exponentText), ?_, ?_, not_and_or.2 hne⟩
    · rw [List.append_assoc]
      refine spanDigits_eq_iff.2 ⟨rfl, hwhole, fun c hc => ?_⟩
      cases hc
      decide
    · exact spanDigits_eq_iff.2 ⟨rfl, hfraction, hdigit⟩

theorem mantissaText_of_take {afterWhole : List Char} (hwhole : spanDigits cs = (whole, afterWhole))
    (hfraction : takeFraction afterWhole = (fraction, rest)) (hne : ¬(whole = [] ∧ fraction = [])) :
    ∃ mantissa, MantissaText whole fraction mantissa ∧ cs = mantissa ++ rest := by
  obtain ⟨rfl, hdigits, -⟩ := spanDigits_eq_iff.1 hwhole
  unfold takeFraction at hfraction
  split at hfraction
  · obtain ⟨rfl, hafter, -⟩ := spanDigits_eq_iff.1 hfraction
    exact ⟨_, .point (not_and_or.1 hne) hdigits hafter,
      (List.append_assoc whole ('.' :: fraction) rest).symm⟩
  · cases hfraction
    exact ⟨whole, .whole (fun h => hne ⟨h, rfl⟩) hdigits, rfl⟩

/-! ## Reading a numeral -/

theorem Numeral.ofChars?_eq_some_iff {n : Numeral} : ofChars? cs = some n ↔ NumeralText cs n := by
  constructor
  · intro h
    rcases hsign : takeSign cs with ⟨negative, unsigned⟩
    rcases hwhole : spanDigits unsigned with ⟨whole, afterWhole⟩
    rcases hfraction : takeFraction afterWhole with ⟨fraction, afterFraction⟩
    obtain ⟨sign, hsignText, rfl⟩ := signText_of_takeSign hsign
    simp only [ofChars?, hsign, hwhole, hfraction] at h
    split at h
    · cases h
    · next hne =>
      obtain ⟨exponent, hexponent, rfl⟩ := Option.map_eq_some_iff.1 h
      obtain ⟨mantissa, hmantissa, rfl⟩ := mantissaText_of_take hwhole hfraction hne
      exact .parts hsignText hmantissa (exponentPart?_eq_some_iff.1 hexponent)
  · intro h
    cases h with
    | parts hsign hmantissa hexponent =>
      obtain ⟨afterWhole, hwhole, hfraction, hne⟩ := hmantissa.take hexponent
      simp only [ofChars?, hsign.takeSign_numeral hmantissa, hwhole, hfraction]
      rw [if_neg hne, exponentPart?_eq_some_iff.2 hexponent]
      rfl

/-! ## Words -/

theorem toLower_of_isDigit {c : Char} (h : c.isDigit) : c.toLower = c := by
  rw [Char.isDigit_iff_toNat] at h
  have hhigh : c.toNat ≤ 57 := h.2
  have hupper : ¬(c.val ≥ 'A'.val ∧ c.val ≤ 'Z'.val) := by
    rintro ⟨hlow, -⟩
    have hlow : 65 ≤ c.toNat := hlow
    omega
  exact dif_neg hupper

/-- A word starts with a letter, so it is no numeral and the sign before it ends where it starts. -/
theorem IsWord.eq_cons {word : List Char} (h : IsWord ["inf", "infinity", "nan"] word) :
    ∃ c rest, word = c :: rest ∧ ¬c.isDigit ∧ c ≠ '.' ∧ c ≠ '+' ∧ c ≠ '-' := by
  have hfirst : (word.map Char.toLower).head? = some 'i' ∨
      (word.map Char.toLower).head? = some 'n' := by
    obtain ⟨w, hw, hword⟩ := h
    rw [hword]
    clear hword
    revert w
    decide
  cases word with
  | nil => rcases hfirst with h | h <;> cases h
  | cons c rest =>
    rw [List.map_cons, List.head?_cons, Option.some.injEq, Option.some.injEq] at hfirst
    refine ⟨c, rest, rfl, fun hdigit => ?_, ?_, ?_, ?_⟩
    · rw [toLower_of_isDigit hdigit] at hfirst
      rcases hfirst with rfl | rfl <;> cases hdigit
    all_goals
      rintro rfl
      revert hfirst
      decide

variable {word : List Char}

theorem SignText.takeSign_word (hsign : SignText negative sign)
    (hword : IsWord ["inf", "infinity", "nan"] word) :
    takeSign (sign ++ word) = (negative, word) := by
  obtain ⟨c, rest, rfl, -, -, hplus, hminus⟩ := hword.eq_cons
  exact takeSign_append_of_signText hsign (fun _ h => hplus (List.cons.inj h).1)
    fun _ h => hminus (List.cons.inj h).1

theorem not_numeralText_word (hsign : SignText negative sign)
    (hword : IsWord ["inf", "infinity", "nan"] word) (n : Numeral) :
    ¬NumeralText (sign ++ word) n := by
  intro h
  obtain ⟨c, rest, hcons, hdigit, hpoint, -⟩ := hword.eq_cons
  have htake := hsign.takeSign_word hword
  generalize sign ++ word = cs at h htake
  cases h with
  | parts hsign' hmantissa hexponent =>
    have heq := (Prod.mk.inj ((hsign'.takeSign_numeral hmantissa).symm.trans htake)).2
    exact hmantissa.ne_cons (Bool.eq_false_of_not_eq_true hdigit) hpoint rest (heq.trans hcons)

theorem IsWord.mono {words more : List String} (h : IsWord words cs) (hsub : words ⊆ more) :
    IsWord more cs :=
  let ⟨w, hw, hcs⟩ := h
  ⟨w, hsub hw, hcs⟩

theorem Denotes.eq_finite {n : Numeral} {d : Denoted} (hn : NumeralText cs n) (h : Denotes cs d) :
    d = .finite n.negative n.magnitude := by
  cases h with
  | number hm =>
    rw [← Numeral.ofChars?_eq_some_iff] at hn hm
    rw [Option.some.inj (hn.symm.trans hm)]
  | infinity hsign hword => exact absurd hn (not_numeralText_word hsign (hword.mono (by simp)) n)
  | notANumber hsign hword => exact absurd hn (not_numeralText_word hsign (hword.mono (by simp)) n)

theorem IsWord.disjoint (hinf : IsWord ["inf", "infinity"] cs) : ¬IsWord ["nan"] cs := by
  rintro ⟨nan, hnan, hcs⟩
  obtain ⟨inf, hinf, hcs'⟩ := hinf
  have heq := String.toList_inj.1 (hcs'.symm.trans hcs)
  clear hcs hcs'
  revert inf nan
  decide

theorem Denotes.takeSign_of_not_numeralText {d : Denoted} (h : Denotes cs d)
    (hcs : ∀ n, ¬NumeralText cs n) :
    ∃ negative word, takeSign cs = (negative, word) ∧
      (d = .infinity negative ∧ IsWord ["inf", "infinity"] word ∨
        d = .notANumber ∧ IsWord ["nan"] word) := by
  cases h with
  | number hn => exact absurd hn (hcs _)
  | infinity hsign hword =>
    exact ⟨_, _, hsign.takeSign_word (hword.mono (by simp)), .inl ⟨rfl, hword⟩⟩
  | notANumber hsign hword =>
    exact ⟨_, _, hsign.takeSign_word (hword.mono (by simp)), .inr ⟨rfl, hword⟩⟩

/-- No text has two meanings. -/
theorem Denotes.unique {d e : Denoted} (hd : Denotes cs d) (he : Denotes cs e) : d = e := by
  by_cases hnumeral : ∃ n, NumeralText cs n
  · obtain ⟨n, hn⟩ := hnumeral
    rw [hd.eq_finite hn, he.eq_finite hn]
  · rw [not_exists] at hnumeral
    obtain ⟨negative, word, htake, hd⟩ := hd.takeSign_of_not_numeralText hnumeral
    obtain ⟨_, _, htake', he⟩ := he.takeSign_of_not_numeralText hnumeral
    obtain ⟨rfl, rfl⟩ := Prod.mk.inj (htake.symm.trans htake')
    rcases hd with ⟨rfl, hinf⟩ | ⟨rfl, hnan⟩ <;> rcases he with ⟨rfl, hinf'⟩ | ⟨rfl, hnan'⟩
    · rfl
    · exact absurd hnan' hinf.disjoint
    · exact absurd hnan hinf'.disjoint
    · rfl

end AlertConsole.Number
