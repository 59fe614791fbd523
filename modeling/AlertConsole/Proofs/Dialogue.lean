import AlertConsole.Dialogue
import Mathlib.Data.List.Basic

/-!
# Runs of a dialogue

A run is a log of questions with the answers they were given, and the result that these lead to.
Every list of answers is allowed, so what holds of all runs holds whatever the surroundings do; a
run in a monad with a state is one of them (`exists_runs_interpret`).
-/

namespace AlertConsole

/-- A question and its answer. -/
abbrev Exchange (I : Interface) : Type :=
  (q : I.Question) × I.Answer q

namespace Dialogue

variable {I : Interface} {α β σ : Type}

/-- The dialogue gives `a` after the exchanges of the log. -/
inductive Runs : Dialogue I α → List (Exchange I) → α → Prop where
  | done (a : α) : Runs (.done a) [] a
  | ask {q : I.Question} {next : I.Answer q → Dialogue I α} {log : List (Exchange I)} {a : α}
      (r : I.Answer q) : Runs (next r) log a → Runs (.ask q next) (⟨q, r⟩ :: log) a

@[simp] theorem runs_done_iff {a b : α} {log : List (Exchange I)} :
    (done a : Dialogue I α).Runs log b ↔ log = [] ∧ b = a := by
  constructor
  · rintro ⟨⟩
    exact ⟨rfl, rfl⟩
  · rintro ⟨rfl, rfl⟩
    exact .done b

@[simp] theorem runs_ask_iff {q : I.Question} {next : I.Answer q → Dialogue I α}
    {log : List (Exchange I)} {a : α} :
    (ask q next).Runs log a ↔ ∃ r rest, log = ⟨q, r⟩ :: rest ∧ (next r).Runs rest a := by
  constructor
  · rintro (_ | ⟨r, h⟩)
    exact ⟨r, _, rfl, h⟩
  · rintro ⟨r, rest, rfl, h⟩
    exact .ask r h

theorem runs_question_iff {q : I.Question} {log : List (Exchange I)} {r : I.Answer q} :
    (question q).Runs log r ↔ log = [⟨q, r⟩] := by
  rw [question, runs_ask_iff]
  constructor
  · rintro ⟨s, rest, rfl, h⟩
    obtain ⟨rfl, rfl⟩ := runs_done_iff.1 h
    rfl
  · rintro rfl
    exact ⟨r, [], rfl, .done r⟩

/-- A run of a sequence is a run of its first part and one of the rest. -/
theorem runs_bind_iff {d : Dialogue I α} {f : α → Dialogue I β} {log : List (Exchange I)} {b : β} :
    (d >>= f).Runs log b ↔
      ∃ a first rest, log = first ++ rest ∧ d.Runs first a ∧ (f a).Runs rest b := by
  constructor
  · intro h
    induction d generalizing log with
    | done a => exact ⟨a, [], log, rfl, .done a, h⟩
    | ask q next ih =>
      rw [ask_bind, runs_ask_iff] at h
      obtain ⟨r, rest, rfl, h⟩ := h
      obtain ⟨a, first, rest, rfl, hd, hf⟩ := ih r h
      exact ⟨a, ⟨q, r⟩ :: first, rest, rfl, .ask r hd, hf⟩
  · rintro ⟨a, first, rest, rfl, hd, hf⟩
    induction hd with
    | done a => exact hf
    | ask r _ ih => exact .ask r (ih hf)

theorem runs_map_iff {d : Dialogue I α} {f : α → β} {log : List (Exchange I)} {b : β} :
    (f <$> d).Runs log b ↔ ∃ a, d.Runs log a ∧ b = f a := by
  rw [map_eq_pure_bind, runs_bind_iff]
  constructor
  · rintro ⟨a, first, rest, rfl, hd, hf⟩
    obtain ⟨rfl, rfl⟩ := runs_done_iff.1 hf
    exact ⟨a, by rwa [List.append_nil], rfl⟩
  · rintro ⟨a, hd, rfl⟩
    exact ⟨a, log, [], by rw [List.append_nil], hd, .done (f a)⟩

/-! ## Questions that are not asked -/

/-- No question of the dialogue is one of `p`. -/
def Never (p : I.Question → Prop) : Dialogue I α → Prop
  | done _ => True
  | ask q next => ¬p q ∧ ∀ r, (next r).Never p

section Never

variable {p : I.Question → Prop}

theorem never_question {q : I.Question} (h : ¬p q) : (question q).Never p :=
  ⟨h, fun _ => trivial⟩

theorem Never.bind {d : Dialogue I α} {f : α → Dialogue I β} (hd : d.Never p)
    (hf : ∀ a, (f a).Never p) : (d >>= f).Never p := by
  induction d with
  | done a => exact hf a
  | ask q next ih => exact ⟨hd.1, fun r => ih r (hd.2 r)⟩

theorem Runs.never {d : Dialogue I α} {log : List (Exchange I)} {a : α} (h : d.Runs log a)
    (hd : d.Never p) : ∀ e ∈ log, ¬p e.1 := by
  induction h with
  | done a => exact fun e he => nomatch he
  | ask r _ ih =>
    intro e he
    rcases List.mem_cons.1 he with rfl | he
    · exact hd.1
    · exact ih (hd.2 r) e he

end Never

/-! ## Answers from a state -/

/-- The exchanges with someone who answers from a state. -/
def trace (answer : (q : I.Question) → StateM σ (I.Answer q)) :
    Dialogue I α → σ → List (Exchange I)
  | done _, _ => []
  | ask q next, s => ⟨q, (answer q s).1⟩ :: (next (answer q s).1).trace answer (answer q s).2

theorem runs_trace (answer : (q : I.Question) → StateM σ (I.Answer q)) (d : Dialogue I α) (s : σ) :
    d.Runs (d.trace answer s) (d.interpret answer s).1 := by
  induction d generalizing s with
  | done a => exact .done a
  | ask q next ih => exact .ask _ (ih (answer q s).1 (answer q s).2)

/-- Whoever answers from a state answers as in some run. -/
theorem exists_runs_interpret (answer : (q : I.Question) → StateM σ (I.Answer q))
    (d : Dialogue I α) (s : σ) : ∃ log, d.Runs log (d.interpret answer s).1 :=
  ⟨d.trace answer s, d.runs_trace answer s⟩

end Dialogue

end AlertConsole
