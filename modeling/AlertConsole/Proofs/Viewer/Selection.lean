import AlertConsole.Viewer.Screen
import Mathlib.Data.List.Basic

/-!
# The selected incident

A new list keeps the selection on its incident if that is listed (`selectedKey?_update_of_mem`), and
else moves it to the first one (`selectedKey?_update_of_not_mem`).
-/

namespace AlertConsole.Viewer

/-- The key of the selected incident. -/
def selectedKey? (v : Viewer) : Option String :=
  v.selectedEntry?.map Entry.key

theorem indexOf?_of_mem {key : String} {incidents : List Entry}
    (h : key ∈ incidents.map Entry.key) :
    indexOf? key incidents = some ((incidents.map Entry.key).idxOf key) := by
  have hfound : ∃ e ∈ incidents, (e.key == key) = true := by simpa using h
  rw [indexOf?, List.findIdx?_eq_some_of_exists hfound, List.idxOf, List.findIdx_map]
  rfl

theorem indexOf?_of_not_mem {key : String} {incidents : List Entry}
    (h : key ∉ incidents.map Entry.key) : indexOf? key incidents = none := by
  rw [indexOf?, List.findIdx?_eq_none_iff]
  intro e he
  have hne : e.key ≠ key := fun hkey => h (hkey ▸ List.mem_map_of_mem he)
  simpa using hne

theorem selectedKey?_eq (v : Viewer) :
    v.selectedKey? = v.selected.bind ((v.incidents.map Entry.key)[·]?) := by
  simp only [selectedKey?, selectedEntry?, Option.map_bind, List.getElem?_map]
  rfl

/-! ## New lists -/

theorem selected_update (v : Viewer) (incidents : List Entry) :
    (v.update incidents).selected =
      (v.selectedKey?.bind (indexOf? · incidents)).or (if incidents = [] then none else some 0) := by
  rw [selectedKey?, Option.bind_map]
  rfl

/-- The selection stays on its incident, wherever that is listed. -/
theorem selected_update_of_mem {v : Viewer} {key : String} {incidents : List Entry}
    (hselected : v.selectedKey? = some key) (h : key ∈ incidents.map Entry.key) :
    (v.update incidents).selected = some ((incidents.map Entry.key).idxOf key) := by
  rw [selected_update, hselected, Option.bind_some, indexOf?_of_mem h, Option.some_or]

theorem selected_update_of_not_mem {v : Viewer} {incidents : List Entry}
    (h : ∀ key, v.selectedKey? = some key → key ∉ incidents.map Entry.key) :
    (v.update incidents).selected = if incidents = [] then none else some 0 := by
  have hkept : v.selectedKey?.bind (indexOf? · incidents) = none :=
    Option.bind_eq_none_iff.2 fun key hkey => indexOf?_of_not_mem (h key hkey)
  rw [selected_update, hkept, Option.none_or]

theorem selectedKey?_update_of_mem {v : Viewer} {key : String} {incidents : List Entry}
    (hselected : v.selectedKey? = some key) (h : key ∈ incidents.map Entry.key) :
    (v.update incidents).selectedKey? = some key := by
  rw [selectedKey?_eq, selected_update_of_mem hselected h]
  exact List.getElem?_idxOf h

theorem selectedKey?_update_of_not_mem {v : Viewer} {incidents : List Entry}
    (h : ∀ key, v.selectedKey? = some key → key ∉ incidents.map Entry.key) :
    (v.update incidents).selectedKey? = incidents.head?.map Entry.key := by
  rw [selectedKey?_eq, selected_update_of_not_mem h]
  cases incidents <;> rfl

end AlertConsole.Viewer
