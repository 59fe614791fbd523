import AlertConsole.Escalation.StepType
import AlertConsole.Proofs.Number.Decimal
import AlertConsole.Proofs.Text.Blank

/-!
# The numeric transform

What is typed for a number is sent as an integer if it spells one out that fits in a signed word of
64 bits, else as the double that it denotes if that is finite, else as it was typed
(`Transform.apply_numeric_iff`). The three cases exclude one another, so the grammars of integers
and of floating-point texts decide what is sent (`Transform.numeric_by_grammar`).
-/

namespace AlertConsole

open Number Text

/-! ## Blanks around an integer -/

namespace Number.SpellsInteger

variable {cs : List Char} {n : Int}

theorem ne_nil (h : SpellsInteger cs n) : cs ≠ [] := by
  cases h with
  | digits hsign hne hdigits => exact List.append_ne_nil_of_right_ne_nil _ hne

theorem not_isBlank (h : SpellsInteger cs n) : ∀ c ∈ cs, ¬isBlank c := by
  cases h with
  | digits hsign hne hdigits =>
    intro c hc
    rcases List.mem_append.1 hc with hc | hc
    · cases hsign with
      | absent => cases hc
      | plus =>
        obtain rfl := List.mem_singleton.1 hc
        decide
      | minus =>
        obtain rfl := List.mem_singleton.1 hc
        decide
    · exact not_isBlank_of_isDigit (hdigits c hc)

theorem isTrimmed (h : SpellsInteger cs n) : IsTrimmed cs :=
  ⟨fun c hc => h.not_isBlank c (List.mem_of_mem_head? hc),
    fun c hc => h.not_isBlank c (List.mem_of_mem_getLast? hc)⟩

theorem trimChars_padded (h : SpellsInteger cs n) {before after : String}
    (hbefore : isBlankText before) (hafter : isBlankText after) :
    trimChars (before.toList ++ (cs ++ after.toList)) = cs :=
  trimChars_append hbefore hafter h.ne_nil h.isTrimmed

end Number.SpellsInteger

/-! ## The rules -/

/-- The numeric transform makes `v` of the text `raw`. -/
inductive Transform.Numeric (raw : String) : Json → Prop where
  | int {n : Int} (hn : SpellsInt64 (trimChars raw.toList) n) : Numeric raw (.int n)
  | float {d : Denoted} {x : Binary64} (hint : ∀ n, ¬SpellsInt64 (trimChars raw.toList) n)
      (hd : Denotes (trimChars raw.toList) d) (hfinite : d.RoundsFinitely) (hx : d.RoundsTo x) :
      Numeric raw (.float x)
  | text (hint : ∀ n, ¬SpellsInt64 (trimChars raw.toList) n)
      (hfloat : ∀ d, Denotes (trimChars raw.toList) d → ¬d.RoundsFinitely) :
      Numeric raw (.string raw)

namespace Transform

variable {raw : String} {v : Json} {n : Int} {x : Binary64}

theorem numeric_apply (raw : String) : Numeric raw (apply numeric raw) := by
  show Numeric raw (numericValue raw)
  unfold numericValue
  rcases hint : int64? (trimChars raw.toList) with _ | n
  · have hnone := int64?_eq_none_iff.1 hint
    rcases hfloat : binary64? (trimChars raw.toList) with _ | x
    · simp only [hint, hfloat]
      exact .text hnone (binary64?_eq_none_iff.1 hfloat)
    · obtain ⟨d, hd, hfinite, hx⟩ := binary64?_eq_some_iff.1 hfloat
      simp only [hint, hfloat]
      exact .float hnone hd hfinite hx
  · simp only [hint]
    exact .int (int64?_eq_some_iff.1 hint)

theorem apply_numeric_iff : apply numeric raw = v ↔ Numeric raw v := by
  constructor
  · rintro rfl
    exact numeric_apply raw
  · intro h
    show numericValue raw = v
    cases h with
    | int hn => simp only [numericValue, int64?_eq_some_iff.2 hn]
    | float hint hd hfinite hx =>
      simp only [numericValue, int64?_eq_none_iff.2 hint,
        binary64?_eq_some_iff.2 ⟨_, hd, hfinite, hx⟩]
    | text hint hfloat =>
      simp only [numericValue, int64?_eq_none_iff.2 hint, binary64?_eq_none_iff.2 hfloat]

theorem apply_numeric_padded {before after : String} (hbefore : isBlankText before)
    (hafter : isBlankText after) (hmin : int64Min ≤ n) (hmax : n ≤ int64Max) :
    apply numeric (before ++ toString n ++ after) = .int n := by
  have hspells := spellsInteger_toString n
  rw [apply_numeric_iff]
  apply Numeric.int
  rw [String.toList_append, String.toList_append, List.append_assoc,
    hspells.trimChars_padded hbefore hafter]
  exact ⟨hspells, hmin, hmax⟩

/-! ## The grammars decide -/

theorem numeric_int_iff : Numeric raw (.int n) ↔ SpellsInt64 (trimChars raw.toList) n := by
  constructor
  · rintro ⟨hn⟩
    exact hn
  · exact .int

theorem exists_numeric_float_iff : (∃ x, x.isFinite ∧ Numeric raw (.float x)) ↔
    (∀ n, ¬SpellsInt64 (trimChars raw.toList) n) ∧
      ∃ d, Denotes (trimChars raw.toList) d ∧ d.RoundsFinitely := by
  constructor
  · rintro ⟨x, -, hx⟩
    cases hx with
    | float hint hd hfinite _ => exact ⟨hint, _, hd, hfinite⟩
  · rintro ⟨hint, d, hd, hfinite⟩
    obtain ⟨v, hv⟩ : ∃ v, Numeric raw v := ⟨_, numeric_apply raw⟩
    cases hv with
    | int hn => exact absurd hn (hint _)
    | float _ hd' hfinite' hx => exact ⟨_, hx.finite, .float hint hd' hfinite' hx⟩
    | text _ hfloat => exact absurd hfinite (hfloat d hd)

/-- A text has one meaning, so the double is what that one rounds to. -/
theorem Numeric.roundsTo (h : Numeric raw (.float x)) {d : Denoted}
    (hd : Denotes (trimChars raw.toList) d) : d.RoundsTo x := by
  cases h with
  | float _ hd' _ hx => rwa [hd.unique hd']

theorem numeric_text_iff : Numeric raw (.string raw) ↔
    (∀ n, ¬SpellsInt64 (trimChars raw.toList) n) ∧
      ∀ d, Denotes (trimChars raw.toList) d → ¬d.RoundsFinitely := by
  constructor
  · intro h
    cases h with
    | text hint hfloat => exact ⟨hint, hfloat⟩
  · rintro ⟨hint, hfloat⟩
    exact .text hint hfloat

theorem Numeric.cases (h : Numeric raw v) :
    (∃ n, v = .int n) ∨ (∃ x, x.isFinite ∧ v = .float x) ∨ v = .string raw := by
  cases h with
  | int => exact .inl ⟨_, rfl⟩
  | float _ _ _ hx => exact .inr (.inl ⟨_, hx.finite, rfl⟩)
  | text => exact .inr (.inr rfl)

/-- The value is an integer exactly if the trimmed text spells one out that fits in 64 bits, and
else a finite double, the one that the text rounds to, exactly if the text denotes a number that
does not round to infinity. In every other case it is the text as typed. -/
theorem numeric_by_grammar (raw : String) :
    (∀ n, apply numeric raw = .int n ↔ SpellsInt64 (trimChars raw.toList) n) ∧
    ((∃ x, x.isFinite ∧ apply numeric raw = .float x) ↔
      (∀ n, ¬SpellsInt64 (trimChars raw.toList) n) ∧
        ∃ d, Denotes (trimChars raw.toList) d ∧ d.RoundsFinitely) ∧
    (∀ x d, apply numeric raw = .float x → Denotes (trimChars raw.toList) d → d.RoundsTo x) ∧
    (apply numeric raw = .string raw ↔
      (∀ n, ¬SpellsInt64 (trimChars raw.toList) n) ∧
        ∀ d, Denotes (trimChars raw.toList) d → ¬d.RoundsFinitely) ∧
    ((∃ n, apply numeric raw = .int n) ∨ (∃ x, x.isFinite ∧ apply numeric raw = .float x) ∨
      apply numeric raw = .string raw) ∧
    ∀ n before after, int64Min ≤ n → n ≤ int64Max → isBlankText before → isBlankText after →
      apply numeric (before ++ toString n ++ after) = .int n := by
  refine ⟨fun n => ?_, ?_, fun x d hx hd => ?_, ?_, ?_, ?_⟩
  · rw [apply_numeric_iff, numeric_int_iff]
  · simp only [apply_numeric_iff, exists_numeric_float_iff]
  · exact (apply_numeric_iff.1 hx).roundsTo hd
  · rw [apply_numeric_iff, numeric_text_iff]
  · exact (numeric_apply raw).cases
  · exact fun n before after hmin hmax hbefore hafter =>
      apply_numeric_padded hbefore hafter hmin hmax

/-- The least integer of 64 bits is sent as an integer, also between blanks outside ASCII. -/
theorem numeric_of_padded_least : int64Min ≤ int64Min ∧ int64Min ≤ int64Max ∧
    isBlankText " \t" ∧ isBlankText "\u2003\n" ∧
    apply numeric (" \t" ++ toString int64Min ++ "\u2003\n") = .int int64Min :=
  have hblank : isBlankText " \t" ∧ isBlankText "\u2003\n" := by decide +kernel
  ⟨by decide, by decide, hblank.1, hblank.2,
    (numeric_by_grammar "").2.2.2.2.2 int64Min " \t" "\u2003\n" (by decide) (by decide) hblank.1
      hblank.2⟩

example : apply numeric " +007\n" = .int 7 ∧ apply numeric " 1e400" = .string " 1e400" ∧
    apply numeric "-Infinity" = .string "-Infinity" :=
  ⟨rfl, rfl, rfl⟩

end Transform

end AlertConsole
