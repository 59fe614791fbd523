import AlertConsole.Text.Split

/-!
# Parts of a text

At a separator the parts of a text fall into those before it and those after it
(`splitWhere_append_cons`), and text without separators is one part (`splitWhere_of_forall_not`). A
text is cut once at its first separator (`splitOnce_eq_some_iff`), and it `IsJoined` from its parts
in exactly one way (`isJoined_iff`).
-/

namespace AlertConsole.Text

variable {isSep : Char → Bool} {sep : Char} {cs : List Char}

theorem splitWhere_eq_splitOnP (isSep : Char → Bool) (cs : List Char) :
    splitWhere isSep cs = cs.splitOnP isSep := by
  induction cs with
  | nil => rfl
  | cons c cs ih =>
    rw [splitWhere, List.splitOnP_cons_eq_if_modifyHead, ← ih]
    rcases hrest : splitWhere isSep cs with _ | ⟨part, parts⟩
    · exact absurd hrest (splitWhere_ne_nil isSep cs)
    · rfl

/-- The parts before a separator and those after it do not depend on one another. -/
theorem splitWhere_append_cons (hsep : isSep sep = true) (before after : List Char) :
    splitWhere isSep (before ++ sep :: after) =
      splitWhere isSep before ++ splitWhere isSep after := by
  simp only [splitWhere_eq_splitOnP]
  exact List.splitOnP_append_cons before after hsep

theorem splitWhere_of_forall_not (h : ∀ c ∈ cs, isSep c = false) : splitWhere isSep cs = [cs] := by
  induction cs with
  | nil => rfl
  | cons c cs ih =>
    have hc : ¬isSep c = true := by simp [h c List.mem_cons_self]
    rw [splitWhere, if_neg hc, ih fun c hc => h c (List.mem_cons_of_mem _ hc)]

theorem splitWhere_append (h : ∀ c ∈ cs, isSep c = false) (hsep : isSep sep = true)
    (rest : List Char) : splitWhere isSep (cs ++ sep :: rest) = cs :: splitWhere isSep rest := by
  rw [splitWhere_append_cons hsep, splitWhere_of_forall_not h, List.singleton_append]

theorem splitAll_append_cons (sep : Char) (before after : List Char) :
    splitAll sep (before ++ sep :: after) = splitAll sep before ++ splitAll sep after := by
  apply splitWhere_append_cons
  exact beq_self_eq_true sep

theorem splitAll_of_not_mem (h : sep ∉ cs) : splitAll sep cs = [cs] := by
  apply splitWhere_of_forall_not
  intro c hc
  exact beq_false_of_ne (ne_of_mem_of_not_mem hc h)

theorem splitOnce_append (h : sep ∉ cs) (rest : List Char) :
    splitOnce sep (cs ++ sep :: rest) = some (cs, rest) := by
  induction cs with
  | nil => rw [List.nil_append, splitOnce, if_pos rfl]
  | cons c cs ih =>
    obtain ⟨hc, hcs⟩ := List.ne_and_not_mem_of_not_mem_cons h
    rw [List.cons_append, splitOnce, if_neg (Ne.symm hc), ih hcs, Option.map_some]

theorem splitOnce_eq_none (h : sep ∉ cs) : splitOnce sep cs = none := by
  induction cs with
  | nil => rfl
  | cons c cs ih =>
    obtain ⟨hc, hcs⟩ := List.ne_and_not_mem_of_not_mem_cons h
    rw [splitOnce, if_neg (Ne.symm hc), ih hcs, Option.map_none]

theorem splitOnce_eq_some_iff {before after : List Char} :
    splitOnce sep cs = some (before, after) ↔ sep ∉ before ∧ cs = before ++ sep :: after := by
  constructor
  · intro h
    by_cases hmem : sep ∈ cs
    · obtain ⟨b, a, hcs, hb⟩ := List.eq_append_cons_of_mem hmem
      rw [hcs, splitOnce_append hb] at h
      cases h
      exact ⟨hb, hcs⟩
    · rw [splitOnce_eq_none hmem] at h
      cases h
  · rintro ⟨hbefore, rfl⟩
    exact splitOnce_append hbefore after

theorem splitOnce_eq_none_iff : splitOnce sep cs = none ↔ sep ∉ cs := by
  refine ⟨fun h hmem => ?_, splitOnce_eq_none⟩
  obtain ⟨b, a, hcs, hb⟩ := List.eq_append_cons_of_mem hmem
  rw [hcs, splitOnce_append hb] at h
  cases h

/-! ## Joined parts -/

theorem isSep_of_mem_splitWhere {part : List Char} (h : part ∈ splitWhere isSep cs) :
    ∀ c ∈ part, isSep c = false := by
  induction cs generalizing part with
  | nil =>
    rw [splitWhere, List.mem_singleton] at h
    simp [h]
  | cons c cs ih =>
    rw [splitWhere] at h
    by_cases hc : isSep c = true
    · rw [if_pos hc, List.mem_cons] at h
      rcases h with rfl | h
      · simp
      · exact ih h
    · rw [if_neg hc] at h
      rcases hrest : splitWhere isSep cs with _ | ⟨first, rest⟩
      · exact absurd hrest (splitWhere_ne_nil isSep cs)
      · rw [hrest] at h ih
        rcases List.mem_cons.1 h with rfl | h
        · rw [List.forall_mem_cons]
          exact ⟨Bool.eq_false_iff.2 hc, ih List.mem_cons_self⟩
        · exact ih (List.mem_cons_of_mem _ h)

/-- The text is made of parts with `sep` between them, and `sep` is in none of them. -/
structure IsJoined (sep : Char) (parts : List (List Char)) (cs : List Char) : Prop where
  ne_nil : parts ≠ []
  not_mem : ∀ part ∈ parts, sep ∉ part
  intercalate : [sep].intercalate parts = cs

theorem isJoined_iff {parts : List (List Char)} :
    IsJoined sep parts cs ↔ parts = splitAll sep cs := by
  have hsplit : splitAll sep cs = cs.splitOn sep := splitWhere_eq_splitOnP _ cs
  constructor
  · rintro ⟨hne, hparts, rfl⟩
    rw [splitAll, splitWhere_eq_splitOnP]
    exact (List.splitOn_intercalate sep hparts hne).symm
  · rintro rfl
    refine ⟨splitWhere_ne_nil _ cs, fun part hpart hmem => ?_, ?_⟩
    · have hfalse := isSep_of_mem_splitWhere hpart sep hmem
      simp at hfalse
    · rw [hsplit, List.intercalate_splitOn]

end AlertConsole.Text
