import AlertConsole.Disk
import AlertConsole.Proofs.KeyMap

/-!
# Reading after a change

A change of the disk that leaves directories alone leads a path to the same place as before
(`walk_of_directories`), so what was saved under a path is read from it (`read_of_save`), and a path
whose file was removed has none (`read_of_remove`).
-/

namespace AlertConsole.Disk

variable {d d' : Disk} {base place target : Place} {names : List String} {path : String}

/-! ## Nodes -/

theorem node?_put (d : Disk) (place target : Place) (node : DiskNode) :
    (d.put target node).node? place =
      if place ≠ [] ∧ Path.join place = Path.join target then some node else d.node? place := by
  by_cases hroot : place = []
  · simp [node?, hroot]
  · simp only [node?, put, hroot, if_false, KeyMap.get?_insert, ne_eq, not_false_eq_true, true_and]

/-- The disk without the file at a place. -/
def without (d : Disk) (target : Place) : Disk :=
  ⟨d.nodes.erase (Path.join target)⟩

theorem node?_without (d : Disk) (place target : Place) :
    (d.without target).node? place =
      if place ≠ [] ∧ Path.join place = Path.join target then none else d.node? place := by
  by_cases hroot : place = []
  · simp [node?, hroot]
  · simp only [node?, without, hroot, if_false, KeyMap.get?_erase, ne_eq, not_false_eq_true,
      true_and]

/-- Two names of one node. -/
theorem node?_eq_of_join_eq (hplace : place ≠ []) (htarget : target ≠ [])
    (h : Path.join place = Path.join target) : d.node? place = d.node? target := by
  rw [node?, if_neg hplace, node?, if_neg htarget, h]

/-! ## Where a path leads -/

/-- The place of a file, or of one that could be made. -/
def Sight.place? : Sight → Option Place
  | .vacant place => some place
  | .file place _ => some place
  | _ => none

/-- What a path that leads to a place has there. -/
def look (d : Disk) (place : Place) : Sight :=
  match d.node? place with
  | none => .vacant place
  | some .directory => .directory
  | some (.file bytes) => .file place bytes

theorem node?_of_walk (h : (d.walk place names).place? = some target) :
    d.node? target ≠ some .directory := by
  induction names generalizing place with
  | nil => cases h
  | cons name rest ih =>
    unfold walk at h
    split at h
    · cases h
    · rcases hnode : d.node? (follow place name) with _ | bytes | _
      · simp only [hnode] at h
        split at h
        · cases h
          simp [hnode]
        · cases h
      · simp only [hnode] at h
        split at h
        · cases h
          simp [hnode]
        · cases h
      · simp only [hnode] at h
        exact ih h

/-- A path leads to the same place on a disk that has the directories of this one. -/
theorem walk_of_directories
    (hdirectories : ∀ p, d.node? p = some .directory → d'.node? p = some .directory)
    (h : (d.walk place names).place? = some target) (hnode' : d'.node? target ≠ some .directory) :
    d'.walk place names = d'.look target := by
  induction names generalizing place with
  | nil => cases h
  | cons name rest ih =>
    unfold walk at h ⊢
    by_cases hname : isFileName name
    · simp only [hname, Bool.not_true, Bool.false_eq_true, if_false] at h ⊢
      -- Where the walk over the first disk ends, the second one may have a file or none.
      have hlast : rest = [] → follow place name = target →
          (match d'.node? (follow place name) with
            | none => if rest = [] then .vacant (follow place name) else .absent
            | some .directory => d'.walk (follow place name) rest
            | some (.file bytes) =>
              if rest = [] then .file (follow place name) bytes else .blocked) =
            d'.look target := by
        rintro rfl rfl
        unfold look
        rcases hnode : d'.node? (follow place name) with _ | bytes | _
        · rfl
        · rfl
        · exact absurd hnode hnode'
      rcases hnode : d.node? (follow place name) with _ | bytes | _
      · simp only [hnode] at h
        split at h
        · next hrest => exact hlast hrest (Option.some.inj h)
        · cases h
      · simp only [hnode] at h
        split at h
        · next hrest => exact hlast hrest (Option.some.inj h)
        · cases h
      · simp only [hnode, hdirectories _ hnode] at h ⊢
        exact ih h
    · simp [hname, Sight.place?] at h

theorem sight_of_directories
    (hdirectories : ∀ p, d.node? p = some .directory → d'.node? p = some .directory)
    (h : (d.sight base path).place? = some target) (hnode' : d'.node? target ≠ some .directory) :
    d'.sight base path = d'.look target := by
  unfold sight at h ⊢
  split at h
  · next husable =>
    rw [if_pos husable]
    exact walk_of_directories hdirectories h hnode'
  · cases h

theorem node?_of_sight (h : (d.sight base path).place? = some target) :
    d.node? target ≠ some .directory := by
  unfold sight at h
  split at h
  · exact node?_of_walk h
  · cases h

theorem ne_nil_of_sight (h : (d.sight base path).place? = some target) : target ≠ [] := by
  rintro rfl
  exact node?_of_sight h rfl

/-- The node of a path is no directory under another name. -/
theorem join_ne_of_directory (h : (d.sight base path).place? = some target) {p : Place}
    (hp : d.node? p = some .directory) : ¬(p ≠ [] ∧ Path.join p = Path.join target) := by
  rintro ⟨hne, hjoin⟩
  have hnode := node?_of_sight h
  rw [← node?_eq_of_join_eq hne (ne_nil_of_sight h) hjoin] at hnode
  exact hnode hp

/-! ## Changes -/

theorem sight_put (h : (d.sight base path).place? = some target) (bytes : List UInt8) :
    (d.put target (.file bytes)).sight base path = .file target bytes := by
  have hnode : (d.put target (.file bytes)).node? target = some (.file bytes) := by
    rw [node?_put, if_pos ⟨ne_nil_of_sight h, rfl⟩]
  have hdirectories : ∀ p, d.node? p = some .directory →
      (d.put target (.file bytes)).node? p = some .directory := by
    intro p hp
    rw [node?_put, if_neg (join_ne_of_directory h hp), hp]
  have hfile : (d.put target (.file bytes)).node? target ≠ some .directory := by
    rw [hnode]
    exact fun heq => nomatch heq
  rw [sight_of_directories hdirectories h hfile, look, hnode]

theorem sight_without (h : (d.sight base path).place? = some target) :
    (d.without target).sight base path = .vacant target := by
  have hnode : (d.without target).node? target = none := by
    rw [node?_without, if_pos ⟨ne_nil_of_sight h, rfl⟩]
  have hdirectories : ∀ p, d.node? p = some .directory →
      (d.without target).node? p = some .directory := by
    intro p hp
    rw [node?_without, if_neg (join_ne_of_directory h hp), hp]
  have hfile : (d.without target).node? target ≠ some .directory := by
    rw [hnode]
    exact fun heq => nomatch heq
  rw [sight_of_directories hdirectories h hfile, look, hnode]

theorem read_of_sight_file {bytes : List UInt8} (h : d.sight base path = .file place bytes) :
    d.read base path = .bytes bytes := by
  rw [read, h]

theorem read_of_write {bytes : List UInt8} (h : (d.write base path bytes).1 = true) :
    (d.write base path bytes).2.read base path = .bytes bytes := by
  unfold write at h ⊢
  rcases hsight : d.sight base path with _ | target | _ | ⟨target, old⟩ | _
  · simp [hsight] at h
  · exact read_of_sight_file (sight_put (by rw [hsight]; rfl) bytes)
  · simp [hsight] at h
  · exact read_of_sight_file (sight_put (by rw [hsight]; rfl) bytes)
  · simp [hsight] at h

/-- What was saved is read. -/
theorem read_of_save {bytes : List UInt8} (h : (d.save base path bytes).1 = true) :
    (d.save base path bytes).2.read base path = .bytes bytes := by
  unfold save at h ⊢
  rcases hmade : d.makeDirectory base (Path.parent path) with ⟨_ | _, made⟩
  · simp [hmade] at h
  · simp only [hmade] at h ⊢
    exact read_of_write h

/-- What was removed is missing. -/
theorem read_of_remove (h : (d.remove base path).1 = true) :
    (d.remove base path).2.read base path = .missing := by
  unfold remove at h ⊢
  rcases hsight : d.sight base path with _ | target | _ | ⟨target, old⟩ | _
  · simp only [read, hsight]
  · simp only [read, hsight]
  · simp [hsight] at h
  · have hvacant : (d.without target).sight base path = .vacant target :=
      sight_without (by rw [hsight]; rfl)
    show (d.without target).read base path = .missing
    rw [read, hvacant]
  · simp [hsight] at h

end AlertConsole.Disk
