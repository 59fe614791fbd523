import AlertConsole.Api.Paths
import AlertConsole.Proofs.Text.Percent

/-!
# What a path stands for

The name of an object is read back from its path (`name?_path`), and from the path of an object of
another family no name is read. So a path belongs to one object, and it is neither the path of all
objects of a family nor the one at which tokens are bought, whatever the name (`path_identifies`).
-/

namespace AlertConsole

open Text (byte_forall)
open Text.Percent

namespace Family

/-- The name in a path of the family: what follows its root, decoded. -/
def name? (f : Family) (path : String) : Option String :=
  if f.root.toList.isPrefixOf path.toList then
    decode? (String.ofList (path.toList.drop f.root.length))
  else none

theorem toList_path (f : Family) (name : String) :
    (f.path name).toList = f.root.toList ++ (encode name).toList := by
  rw [path, String.toList_append]

/-! ## Roots -/

/-- No root starts with another one. -/
theorem eq_of_prefix_root {f g : Family} (h : f.root.toList <+: g.root.toList) : f = g := by
  revert h
  cases f <;> cases g <;> decide

theorem not_root_prefix_authPath (f : Family) : ¬f.root.toList <+: authPath.toList := by
  cases f <;> decide

theorem star_not_mem_root (f : Family) : '*' ∉ f.root.toList := by
  cases f <;> decide

/-- A path starts with the root of its own family only. -/
theorem root_prefix_path_iff {f g : Family} {name : String} :
    g.root.toList <+: (f.path name).toList ↔ g = f := by
  rw [toList_path]
  constructor
  · intro h
    rcases List.prefix_or_prefix_of_prefix h (List.prefix_append _ _) with hprefix | hprefix
    · exact eq_of_prefix_root hprefix
    · exact (eq_of_prefix_root hprefix).symm
  · rintro rfl
    exact List.prefix_append _ _

/-! ## Names -/

theorem star_ne_of_unreserved :
    ∀ b : UInt8, isUnreserved b = true → '*' ≠ Char.ofNat b.toNat :=
  byte_forall (by decide +kernel)

theorem star_not_mem_encode (name : String) : '*' ∉ (encode name).toList := by
  intro h
  rcases encodedChar_of_mem_encode h with hstar | ⟨b, hb, hstar⟩
  · exact absurd hstar (by decide)
  · exact star_ne_of_unreserved b hb hstar

theorem name?_root_append (f : Family) (segment : String) :
    f.name? (f.root ++ segment) = decode? segment := by
  have hlength : f.root.length = f.root.toList.length := String.length_toList.symm
  rw [name?, String.toList_append, if_pos (by simp), hlength, List.drop_left, String.ofList_toList]

theorem name?_path (f g : Family) (name : String) :
    g.name? (f.path name) = if g = f then some name else none := by
  by_cases h : g = f
  · rw [if_pos h, h, path, name?_root_append, decode?_encode]
  · have hprefix : ¬g.root.toList <+: (f.path name).toList := mt root_prefix_path_iff.1 h
    rw [if_neg h, name?, if_neg (mt List.isPrefixOf_iff_prefix.1 hprefix)]

/-! ## Paths -/

theorem path_inj {f g : Family} {a b : String} : f.path a = g.path b ↔ f = g ∧ a = b := by
  constructor
  · intro h
    have hname := name?_path f f a
    rw [h, name?_path, if_pos rfl] at hname
    by_cases hfamily : f = g
    · rw [if_pos hfamily, Option.some.injEq] at hname
      exact ⟨hfamily, hname.symm⟩
    · rw [if_neg hfamily] at hname
      cases hname
  · rintro ⟨rfl, rfl⟩
    rfl

theorem path_ne_listing (f g : Family) (name : String) : f.path name ≠ g.listing := by
  intro h
  have hstar : '*' ∈ (f.path name).toList := by
    rw [h, listing, String.toList_append]
    exact List.mem_append_right _ List.mem_cons_self
  rw [toList_path, List.mem_append] at hstar
  exact hstar.elim (star_not_mem_root f) (star_not_mem_encode name)

theorem path_ne_authPath (f : Family) (name : String) : f.path name ≠ authPath := by
  intro h
  exact not_root_prefix_authPath f (h ▸ root_prefix_path_iff.2 rfl)

/-- A path stands for one object of one family and for nothing else, and the name of the object can
be read back from it. -/
theorem path_identifies (f : Family) (name : String) :
    (∀ (g : Family) (other : String), f.path name = g.path other ↔ f = g ∧ name = other) ∧
      (∀ g : Family, f.path name ≠ g.listing) ∧ f.path name ≠ authPath ∧
      ∀ g : Family, g.name? (f.path name) = if g = f then some name else none :=
  ⟨fun _ _ => path_inj, fun g => path_ne_listing f g name, path_ne_authPath f name,
    fun g => name?_path f g name⟩

example : incident.path "*" = "api/incident/%2A" ∧ incident.path "a/b" = "api/incident/a%2Fb" := by
  decide +kernel

end Family

end AlertConsole
