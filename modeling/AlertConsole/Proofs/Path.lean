import AlertConsole.Path
import AlertConsole.Proofs.Text.Split

/-!
# The directory of a path

The directory that a file is to be in starts where its path does (`isAbsolute_parent`), and leads
through all of its steps but the last (`steps_parent`).
-/

namespace AlertConsole.Path

variable {path : String} {names : List String}

/-! ## Parts -/

/-- A name between slashes. -/
def IsPart (name : String) : Prop :=
  name ≠ "" ∧ '/' ∉ name.toList

theorem isPart_of_mem_parts {name : String} (h : name ∈ parts path) : IsPart name := by
  obtain ⟨part, hpart, rfl⟩ := List.mem_map.1 h
  obtain ⟨hmem, hne⟩ := List.mem_filter.1 hpart
  have hjoined := Text.isJoined_iff.2 (rfl : Text.splitAll '/' path.toList = _)
  refine ⟨fun hempty => ?_, ?_⟩
  · exact of_decide_eq_true hne (by simpa using congrArg String.toList hempty)
  · rw [String.toList_ofList]
    exact hjoined.not_mem part hmem

theorem splitAll_join (hne : names ≠ []) (h : ∀ name ∈ names, IsPart name) :
    Text.splitAll '/' (join names).toList = names.map String.toList := by
  refine (Text.isJoined_iff.1 ⟨by simpa using hne, fun part hpart => ?_, ?_⟩).symm
  · obtain ⟨name, hname, rfl⟩ := List.mem_map.1 hpart
    exact (h name hname).2
  · rw [join, String.toList_intercalate]
    rfl

/-- What is joined from parts is taken apart into them. -/
theorem parts_join (h : ∀ name ∈ names, IsPart name) : parts (join names) = names := by
  by_cases hne : names = []
  · rw [hne]
    rfl
  have hkeep : (names.map String.toList).filter (· ≠ []) = names.map String.toList := by
    rw [List.filter_eq_self]
    intro part hpart
    obtain ⟨name, hname, rfl⟩ := List.mem_map.1 hpart
    simpa using (h name hname).1
  rw [parts, splitAll_join hne h, hkeep, List.map_map]
  simp

theorem isAbsolute_join (h : ∀ name ∈ names, IsPart name) : isAbsolute (join names) = false := by
  rcases names with _ | ⟨first, rest⟩
  · rfl
  have hsplit := splitAll_join (List.cons_ne_nil first rest) h
  rw [isAbsolute]
  rcases hjoin : (join (first :: rest)).toList with _ | ⟨c, cs⟩
  · rfl
  · rw [hjoin] at hsplit
    have hc : c ≠ '/' := by
      rintro rfl
      have hfirst : [] = first.toList := (List.cons.inj hsplit).1
      exact (h first List.mem_cons_self).1 (String.toList_eq_nil_iff.1 hfirst.symm)
    simpa using hc

/-- A slash in front adds no part. -/
theorem parts_slash_append (path : String) : parts ("/" ++ path) = parts path := by
  rw [parts, parts, String.toList_append]
  rfl

/-! ## Parents -/

theorem steps_eq (path : String) : steps path = (parts path).filter (· ≠ ".") := by
  rw [steps, names]
  split
  · simp
  · rfl

theorem isPart_of_mem_dropLast_steps {name : String} (h : name ∈ (steps path).dropLast) :
    IsPart name ∧ name ≠ "." := by
  have hmem := List.dropLast_subset _ h
  rw [steps_eq] at hmem
  obtain ⟨hpart, hne⟩ := List.mem_filter.1 hmem
  exact ⟨isPart_of_mem_parts hpart, of_decide_eq_true hne⟩

theorem steps_parent (path : String) : steps (parent path) = (steps path).dropLast := by
  have hparts : parts (parent path) = (steps path).dropLast := by
    rw [parent]
    split
    · rw [parts_slash_append]
      exact parts_join fun name hname => (isPart_of_mem_dropLast_steps hname).1
    · rw [String.empty_append]
      exact parts_join fun name hname => (isPart_of_mem_dropLast_steps hname).1
  rw [steps_eq, hparts, List.filter_eq_self]
  exact fun name hname => decide_eq_true (isPart_of_mem_dropLast_steps hname).2

theorem isAbsolute_parent (path : String) : isAbsolute (parent path) = isAbsolute path := by
  rw [parent]
  split
  · next habsolute =>
    rw [habsolute, isAbsolute, String.toList_append]
    rfl
  · next hrelative =>
    rw [String.empty_append, Bool.eq_false_iff.2 hrelative]
    exact isAbsolute_join fun name hname => (isPart_of_mem_dropLast_steps hname).1

end AlertConsole.Path
