import AlertConsole.Text.Blank
import Mathlib.Data.List.TakeWhile

/-!
# Trimmed texts

A text is blank exactly if nothing is left of it when it is trimmed (`isBlankText_iff_trim`), and
blanks around a text are trimmed away (`trimChars_append`). What is left begins and ends without a
blank, and trimming changes no text that does (`isTrimmed_iff`).
-/

namespace AlertConsole.Text

theorem trimEnd_eq_nil_iff (cs : List Char) : trimEnd cs = [] ↔ cs.all isBlank := by
  rw [trimEnd, List.reverse_eq_nil_iff, List.dropWhile_eq_nil_iff, List.all_eq_true]
  simp only [List.mem_reverse]

theorem all_trimStart (cs : List Char) : (trimStart cs).all isBlank = cs.all isBlank := by
  unfold trimStart
  induction cs with
  | nil => rfl
  | cons c cs ih =>
    by_cases hc : isBlank c
    · rw [List.dropWhile_cons_of_pos hc, ih, List.all_cons, hc, Bool.true_and]
    · rw [List.dropWhile_cons_of_neg hc]

theorem trimChars_eq_nil_iff (cs : List Char) : trimChars cs = [] ↔ cs.all isBlank := by
  rw [trimChars, trimEnd_eq_nil_iff, all_trimStart]

theorem isBlankText_iff_trim (s : String) : isBlankText s = true ↔ trim s = "" := by
  have htrim : trim s = "" ↔ trimChars s.toList = [] := by
    rw [trim, ← String.toList_inj, String.toList_ofList, String.toList_empty]
  rw [htrim, trimChars_eq_nil_iff, isBlankText]

/-! ## Text between blanks -/

theorem not_isBlank_of_isDigit {c : Char} (h : c.isDigit) : ¬isBlank c := by
  rw [Char.isDigit_iff_toNat] at h
  have hlow : 48 ≤ c.toNat := h.1
  have hhigh : c.toNat ≤ 57 := h.2
  simp only [isBlank, Bool.or_eq_true, Bool.and_eq_true, decide_eq_true_eq, beq_iff_eq]
  omega

theorem dropWhile_blanks_append {blanks cs : List Char} (hblanks : blanks.all isBlank)
    (hcs : ∀ c ∈ cs.head?, ¬isBlank c) : (blanks ++ cs).dropWhile isBlank = cs := by
  rw [List.dropWhile_append_of_pos (List.all_eq_true.1 hblanks)]
  cases cs with
  | nil => rfl
  | cons c cs => exact List.dropWhile_cons_of_neg (hcs c rfl)

/-- The text has no blank at either end. -/
structure IsTrimmed (cs : List Char) : Prop where
  first : ∀ c ∈ cs.head?, ¬isBlank c
  last : ∀ c ∈ cs.getLast?, ¬isBlank c

/-- Trimming leaves what stands between blanks, if that has no blank at its own ends. -/
theorem trimChars_append {before cs after : List Char} (hbefore : before.all isBlank)
    (hafter : after.all isBlank) (hne : cs ≠ []) (htrimmed : IsTrimmed cs) :
    trimChars (before ++ (cs ++ after)) = cs := by
  have hstart : trimStart (before ++ (cs ++ after)) = cs ++ after := by
    obtain ⟨c, rest, rfl⟩ := List.exists_cons_of_ne_nil hne
    exact dropWhile_blanks_append hbefore htrimmed.first
  have hend : (after.reverse ++ cs.reverse).dropWhile isBlank = cs.reverse := by
    apply dropWhile_blanks_append (by rwa [List.all_reverse])
    rw [List.head?_reverse]
    exact htrimmed.last
  rw [trimChars, hstart, trimEnd, List.reverse_append, hend, List.reverse_reverse]

/-! ## What trimming leaves -/

theorem not_isBlank_of_mem_head?_dropWhile {cs : List Char} :
    ∀ c ∈ (cs.dropWhile isBlank).head?, ¬isBlank c := by
  intro c hc
  have hfirst := List.head?_dropWhile_not isBlank cs
  rw [Option.mem_def.1 hc] at hfirst
  exact Bool.eq_false_iff.1 hfirst

theorem trimEnd_prefix_self (cs : List Char) : trimEnd cs <+: cs := by
  have hsuffix : cs.reverse.dropWhile isBlank <:+ cs.reverse := List.dropWhile_suffix isBlank
  rw [trimEnd, ← List.reverse_suffix, List.reverse_reverse]
  exact hsuffix

theorem mem_of_mem_trimChars {cs : List Char} {c : Char} (h : c ∈ trimChars cs) : c ∈ cs := by
  have hstart : c ∈ trimStart cs := (trimEnd_prefix_self _).subset h
  exact (List.dropWhile_suffix isBlank).subset hstart

theorem isTrimmed_trimChars (cs : List Char) : IsTrimmed (trimChars cs) where
  first := by
    intro c hc
    obtain ⟨blanks, hblanks⟩ := trimEnd_prefix_self (trimStart cs)
    have hstart : (trimStart cs).head? = some c := by
      rw [← hblanks, List.head?_append, ← trimChars, hc, Option.some_or]
    exact not_isBlank_of_mem_head?_dropWhile c hstart
  last := by
    rw [trimChars, trimEnd, List.getLast?_reverse]
    exact not_isBlank_of_mem_head?_dropWhile

theorem isTrimmed_iff {cs : List Char} : IsTrimmed cs ↔ trimChars cs = cs := by
  constructor
  · intro h
    rcases eq_or_ne cs [] with rfl | hne
    · rfl
    · have hpadded : trimChars ([] ++ (cs ++ [])) = cs := trimChars_append rfl rfl hne h
      rwa [List.nil_append, List.append_nil] at hpadded
  · intro h
    rw [← h]
    exact isTrimmed_trimChars cs

end AlertConsole.Text
