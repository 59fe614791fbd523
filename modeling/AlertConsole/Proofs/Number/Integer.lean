import AlertConsole.Number.Integer
import Mathlib.Data.Nat.Digits.Defs

/-!
# The integers that texts spell out

`SpellsInteger cs n` is the grammar of integers: an optional sign and one or more digits, which may
start with zeros. The readers answer exactly what the grammar says (`readInteger?_eq_some_iff`,
`int64?_eq_some_iff`), and the decimal text of an integer spells out that integer
(`spellsInteger_toString`).
-/

namespace AlertConsole.Number

variable {cs rest sign digits : List Char} {negative : Bool} {n : Int}

/-! ## Signs -/

/-- The ways to write a sign: a plus may be left out. -/
inductive SignText : Bool → List Char → Prop where
  | absent : SignText false []
  | plus : SignText false ['+']
  | minus : SignText true ['-']

/-- An integer by its sign and its magnitude. -/
def signed (negative : Bool) (n : Nat) : Int :=
  if negative then -(n : Int) else n

theorem signText_of_takeSign (h : takeSign cs = (negative, rest)) :
    ∃ sign, SignText negative sign ∧ cs = sign ++ rest := by
  unfold takeSign at h
  split at h
  · cases h
    exact ⟨_, .plus, rfl⟩
  · cases h
    exact ⟨_, .minus, rfl⟩
  · cases h
    exact ⟨_, .absent, rfl⟩

/-- What follows a sign does not start with another one. -/
theorem takeSign_append_of_signText (h : SignText negative sign)
    (hplus : ∀ cs, rest ≠ '+' :: cs) (hminus : ∀ cs, rest ≠ '-' :: cs) :
    takeSign (sign ++ rest) = (negative, rest) := by
  cases h with
  | absent => rw [List.nil_append, takeSign] <;> assumption
  | plus => rfl
  | minus => rfl

theorem ne_cons_of_digits (hdigits : ∀ c ∈ digits, c.isDigit) {c : Char} (hc : c.isDigit = false)
    (cs : List Char) : digits ≠ c :: cs := by
  rintro rfl
  exact Bool.false_ne_true (hc.symm.trans (hdigits c List.mem_cons_self))

theorem takeSign_append_digits (h : SignText negative sign) (hdigits : ∀ c ∈ digits, c.isDigit) :
    takeSign (sign ++ digits) = (negative, digits) :=
  takeSign_append_of_signText h (ne_cons_of_digits hdigits rfl) (ne_cons_of_digits hdigits rfl)

/-! ## Reading an integer -/

/-- `cs` is an optional sign and one or more digits; `n` is their value. -/
inductive SpellsInteger : List Char → Int → Prop where
  | digits {negative : Bool} {sign digits : List Char} (hsign : SignText negative sign)
      (hne : digits ≠ []) (hdigits : ∀ c ∈ digits, c.isDigit) :
      SpellsInteger (sign ++ digits) (signed negative (Nat.ofDigitChars 10 digits 0))

theorem readInteger?_eq_some_iff : readInteger? cs = some n ↔ SpellsInteger cs n := by
  constructor
  · intro h
    rcases hsign : takeSign cs with ⟨negative, digits⟩
    obtain ⟨sign, htext, rfl⟩ := signText_of_takeSign hsign
    simp only [readInteger?, hsign] at h
    split at h
    · next hdigits =>
      cases h
      exact .digits htext hdigits.1 (List.all_eq_true.1 hdigits.2)
    · cases h
  · rintro ⟨hsign, hne, hdigits⟩
    simp only [readInteger?, takeSign_append_digits hsign hdigits]
    rw [if_pos ⟨hne, List.all_eq_true.2 hdigits⟩]
    rfl

/-- `cs` spells out `n`, and a signed word of 64 bits can hold it. -/
def SpellsInt64 (cs : List Char) (n : Int) : Prop :=
  SpellsInteger cs n ∧ int64Min ≤ n ∧ n ≤ int64Max

theorem int64?_eq_some_iff : int64? cs = some n ↔ SpellsInt64 cs n := by
  rw [int64?, Option.filter_eq_some_iff, readInteger?_eq_some_iff, SpellsInt64, Bool.and_eq_true,
    decide_eq_true_eq, decide_eq_true_eq]

theorem int64?_eq_none_iff : int64? cs = none ↔ ∀ n, ¬SpellsInt64 cs n := by
  simp only [← int64?_eq_some_iff, Option.eq_none_iff_forall_ne_some, ne_eq]

/-! ## Decimal text -/

theorem isDigit_of_mem_toDigits {c : Char} {n : Nat} (h : c ∈ Nat.toDigits 10 n) : c.isDigit :=
  Nat.isDigit_of_mem_toDigits (by decide) (by decide) h

theorem spellsInteger_toDigits (n : Nat) (hsign : SignText negative sign) :
    SpellsInteger (sign ++ Nat.toDigits 10 n) (signed negative n) := by
  have h := SpellsInteger.digits hsign (Nat.toDigits_ne_nil (n := n) (b := 10))
    fun c => isDigit_of_mem_toDigits
  rwa [Nat.ofDigitChars_toDigits (by decide) (by decide)] at h

theorem spellsInteger_toString (n : Int) : SpellsInteger (toString n).toList n := by
  rw [Int.toString_eq_repr]
  cases n with
  | ofNat n =>
    rw [show (Int.ofNat n).repr = n.repr from rfl, Nat.toList_repr]
    exact spellsInteger_toDigits n .absent
  | negSucc n =>
    rw [show (Int.negSucc n).repr = "-" ++ (n + 1).repr from rfl, String.toList_append,
      Nat.toList_repr]
    exact spellsInteger_toDigits (n + 1) .minus

end AlertConsole.Number
