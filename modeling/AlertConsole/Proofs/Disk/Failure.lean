import AlertConsole.Proofs.Disk
import AlertConsole.Proofs.Path

/-!
# Changes that fail

A disk that `Extends` another has its files (`Extends.bytes?_read`), and behind a directory that
could not be made there is no file (`bytes?_walk_of_not_made`). So a file that was not saved, or not
removed, is as it was (`bytes?_read_of_not_saved`, `read_of_not_removed`).
-/

namespace AlertConsole

/-- What a file has, if there is one that can be read. -/
def FileContent.bytes? : FileContent → Option (List UInt8)
  | .bytes content => some content
  | _ => none

namespace Disk

variable {d made : Disk} {base place target : Place} {names : List String} {path : String}
  {bytes content : List UInt8}

def Sight.bytes? : Sight → Option (List UInt8)
  | .file _ bytes => some bytes
  | _ => none

theorem bytes?_read (d : Disk) (base : Place) (path : String) :
    (d.read base path).bytes? = (d.sight base path).bytes? := by
  unfold read
  cases d.sight base path <;> rfl

/-! ## Disks that were added to -/

/-- Everything on the one disk is on the other. -/
def Extends (made d : Disk) : Prop :=
  ∀ place node, d.node? place = some node → made.node? place = some node

theorem Extends.refl (d : Disk) : d.Extends d := fun _ _ h => h

theorem Extends.trans {d' : Disk} (h : made.Extends d') (h' : d'.Extends d) : made.Extends d :=
  fun place node hnode => h place node (h' place node hnode)

theorem extends_put (h : d.node? target = none) (node : DiskNode) :
    (d.put target node).Extends d := by
  intro place old hold
  have htarget : target ≠ [] := by
    rintro rfl
    cases h
  rw [node?_put, if_neg, hold]
  rintro ⟨hplace, hjoin⟩
  rw [node?_eq_of_join_eq hplace htarget hjoin, h] at hold
  cases hold

theorem extends_makeWay (d : Disk) (place : Place) (names : List String) :
    (d.makeWay place names).2.Extends d := by
  induction names generalizing d place with
  | nil => exact .refl d
  | cons name rest ih =>
    unfold makeWay
    split
    · exact .refl d
    · rcases hnode : d.node? (follow place name) with _ | bytes | _
      · exact (ih _ _).trans (extends_put hnode .directory)
      · exact .refl d
      · exact ih d _

theorem extends_makeDirectory (d : Disk) (base : Place) (path : String) :
    (d.makeDirectory base path).2.Extends d := by
  unfold makeDirectory
  split
  · exact extends_makeWay _ _ _
  · exact .refl d

theorem node?_of_sight_file (h : d.sight base path = .file place bytes) :
    d.node? place = some (.file bytes) := by
  have hplace : (d.sight base path).place? = some place := by rw [h]; rfl
  have hlook := sight_of_directories (fun _ hp => hp) hplace (node?_of_sight hplace)
  rw [h, look] at hlook
  rcases hnode : d.node? place with _ | other | _
  · simp [hnode] at hlook
  · simp only [hnode, Sight.file.injEq, true_and] at hlook
    rw [hlook]
  · simp [hnode] at hlook

theorem Extends.bytes?_read (h : made.Extends d) (hread : (d.read base path).bytes? = some content) :
    (made.read base path).bytes? = some content := by
  rw [Disk.bytes?_read] at hread ⊢
  obtain ⟨place, hsight⟩ : ∃ place, d.sight base path = .file place content := by
    rcases hsight : d.sight base path with _ | _ | _ | ⟨place, bytes⟩ | _
    all_goals rw [hsight] at hread
    all_goals cases hread
    exact ⟨place, rfl⟩
  have hplace : (d.sight base path).place? = some place := by rw [hsight]; rfl
  have hnode : made.node? place = some (.file content) :=
    h place _ (node?_of_sight_file hsight)
  have hfile : made.node? place ≠ some .directory := by
    rw [hnode]
    exact fun heq => nomatch heq
  rw [sight_of_directories (fun p hp => h p _ hp) hplace hfile, look, hnode]
  rfl

/-! ## Saving -/

/-- The directories on the way to the last of some names. -/
def way (names : List String) : List String :=
  (names.filter (· ≠ ".")).dropLast

theorem way_cons {name : String} {rest : List String} (hname : name ≠ ".")
    (hne : way (name :: rest) ≠ []) : way (name :: rest) = name :: way rest := by
  have hfilter : (name :: rest).filter (· ≠ ".") = name :: rest.filter (· ≠ ".") :=
    List.filter_cons_of_pos (decide_eq_true hname)
  rw [way, hfilter] at hne ⊢
  apply List.dropLast_cons_of_ne_nil
  intro hrest
  rw [hrest] at hne
  exact hne rfl

theorem way_ne_nil (h : d.makeWay place (way names) = (false, made)) : way names ≠ [] := by
  intro hnil
  rw [hnil] at h
  cases h

/-- Past a directory, what could not be made is on the rest of the way. -/
theorem exists_makeWay_of_directory {name : String} {rest : List String}
    (h : d.makeWay place (way (name :: rest)) = (false, made))
    (hnode : made.node? (follow place name) = some .directory) (hname : isFileName name) :
    ∃ d' : Disk, d'.makeWay (follow place name) (way rest) = (false, made) := by
  by_cases hdot : name = "."
  · subst hdot
    exact ⟨d, h⟩
  rw [way_cons hdot (way_ne_nil h), makeWay, if_neg (by simp [hname])] at h
  rcases hold : d.node? (follow place name) with _ | bytes | _
  · simp only [hold] at h
    exact ⟨_, h⟩
  · simp only [hold] at h
    cases h
    rw [hold] at hnode
    cases hnode
  · simp only [hold] at h
    exact ⟨d, h⟩

/-- No file is found behind a directory that could not be made. -/
theorem bytes?_walk_of_not_made (h : d.makeWay place (way names) = (false, made)) :
    (made.walk place names).bytes? = none := by
  induction names generalizing d place with
  | nil => rfl
  | cons name rest ih =>
    have hrest : rest ≠ [] := by
      rintro rfl
      have hshort : ([name].filter (· ≠ ".")).length ≤ 1 := List.length_filter_le _ _
      refine way_ne_nil h (List.eq_nil_of_length_eq_zero ?_)
      rw [way, List.length_dropLast]
      omega
    unfold walk
    by_cases hname : isFileName name
    · rcases hnode : made.node? (follow place name) with _ | bytes | _
      · simp [hname, hrest, Sight.bytes?]
      · simp [hname, hrest, Sight.bytes?]
      · obtain ⟨d', hd'⟩ := exists_makeWay_of_directory h hnode hname
        simpa [hname] using ih hd'
    · simp [hname, Sight.bytes?]

theorem bytes?_sight_of_not_made (husable : isUsable (Path.parent path) = true)
    (h : d.makeDirectory base (Path.parent path) = (false, made)) :
    (made.sight base path).bytes? = none := by
  rw [makeDirectory, if_pos husable, Path.steps_parent] at h
  have horigin : origin base (Path.parent path) = origin base path := by
    rw [origin, Path.isAbsolute_parent, origin]
  rw [horigin] at h
  unfold sight
  split
  · exact bytes?_walk_of_not_made h
  · rfl

/-- A failed write changes nothing, and there is no file that it could have replaced. -/
theorem bytes?_sight_of_not_written (h : (d.write base path bytes).1 = false) :
    (d.write base path bytes).2 = d ∧ (d.sight base path).bytes? = none := by
  unfold write at h ⊢
  rcases hsight : d.sight base path with _ | _ | _ | ⟨place, old⟩ | _
  · exact ⟨rfl, rfl⟩
  · simp [hsight] at h
  · exact ⟨rfl, rfl⟩
  · simp [hsight] at h
  · exact ⟨rfl, rfl⟩

/-- A failed save may have made directories, and there is no file that it could have written. -/
theorem bytes?_sight_of_not_saved (husable : isUsable (Path.parent path) = true)
    (h : (d.save base path bytes).1 = false) :
    (d.save base path bytes).2.Extends d ∧
      ((d.save base path bytes).2.sight base path).bytes? = none := by
  have hextends := extends_makeDirectory d base (Path.parent path)
  unfold save at h ⊢
  rcases hmade : d.makeDirectory base (Path.parent path) with ⟨_ | _, made⟩
  · rw [hmade] at hextends
    exact ⟨hextends, bytes?_sight_of_not_made husable hmade⟩
  · simp only [hmade] at h hextends ⊢
    obtain ⟨hkept, hnone⟩ := bytes?_sight_of_not_written h
    rw [hkept]
    exact ⟨hextends, hnone⟩

/-- A file that was not saved is as it was. -/
theorem bytes?_read_of_not_saved (h : (d.save base path bytes).1 = false) :
    ((d.save base path bytes).2.read base path).bytes? = (d.read base path).bytes? := by
  by_cases husable : isUsable (Path.parent path) = true
  · obtain ⟨hextends, hnone⟩ := bytes?_sight_of_not_saved husable h
    rw [← bytes?_read] at hnone
    rw [hnone]
    rcases hread : (d.read base path).bytes? with _ | content
    · rfl
    · rw [hextends.bytes?_read hread] at hnone
      cases hnone
  · have hmade : d.makeDirectory base (Path.parent path) = (false, d) := if_neg husable
    rw [save, hmade]

/-! ## Removing -/

theorem read_of_not_removed (h : (d.remove base path).1 = false) :
    (d.remove base path).2.read base path = d.read base path := by
  unfold remove at h ⊢
  rcases hsight : d.sight base path with _ | _ | _ | ⟨place, bytes⟩ | _
  · rfl
  · rfl
  · rfl
  · simp [hsight] at h
  · rfl

end Disk

end AlertConsole
