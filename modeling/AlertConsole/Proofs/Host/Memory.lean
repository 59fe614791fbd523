import AlertConsole.Host.Memory
import AlertConsole.Proofs.Disk

/-!
# Runs on a host in memory

What a question does to the host, and what is read of a file after it was written or removed
(`readFile_of_save`, `readFile_of_remove`).
-/

namespace AlertConsole.MemoryHost

variable {α β : Type} (h : MemoryHost)

/-! ## Runs -/

@[simp] theorem run_done (a : α) : h.run (.done a) = (a, h) := rfl

theorem run_bind (d : Dialogue Host α) (f : α → Dialogue Host β) :
    h.run (d >>= f) = (h.run d).2.run (f (h.run d).1) := by
  rw [run, Dialogue.interpret_bind]
  rfl

@[simp] theorem run_read (path : String) : h.run (Host.read path) = (h.readFile path, h) := rfl

@[simp] theorem run_save (path text : String) :
    h.run (Host.save path text) = h.saveFile path text := rfl

@[simp] theorem run_remove (path : String) : h.run (Host.remove path) = h.removeFile path := rfl

@[simp] theorem run_report (event : Event) : h.run (Host.report event) = ((), h.report event) := rfl

/-! ## Files -/

/-- A report changes no more than what was printed. -/
theorem disk_report (event : Event) :
    (h.report event).disk = h.disk ∧ (h.report event).directory = h.directory := by
  unfold report
  split
  · exact ⟨rfl, rfl⟩
  · split
    · exact ⟨rfl, rfl⟩
    · exact ⟨rfl, rfl⟩

@[simp] theorem readFile_report (event : Event) (path : String) :
    (h.report event).readFile path = h.readFile path := by
  obtain ⟨hdisk, hdirectory⟩ := h.disk_report event
  rw [readFile, hdisk, hdirectory]
  rfl

variable {h} {path text : String}

theorem readFile_of_save (hsaved : (h.saveFile path text).1 = true) :
    (h.saveFile path text).2.readFile path = .bytes (Text.utf8 text) :=
  Disk.read_of_save hsaved

theorem readFile_of_remove (hremoved : (h.removeFile path).1 = true) :
    (h.removeFile path).2.readFile path = .missing :=
  Disk.read_of_remove hremoved

end AlertConsole.MemoryHost
