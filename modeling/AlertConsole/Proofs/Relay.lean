import AlertConsole.Proofs.Dialogue

/-!
# Answering one dialogue through another

When each question of a dialogue is answered by a dialogue of another interface, a run of the whole
is a run of the first, with a run of an answer for each of its exchanges (`runs_interpret_iff`).
Answers that are themselves answered through a third interface compose (`interpret_interpret`).
-/

namespace AlertConsole.Dialogue

variable {I J K : Interface} {σ α : Type}

theorem interpret_interpret {m : Type → Type} [Monad m] [LawfulMonad m]
    (inner : (q : I.Question) → Dialogue J (I.Answer q)) (outer : (q : J.Question) → m (J.Answer q))
    (d : Dialogue I α) :
    (d.interpret inner).interpret outer = d.interpret fun q => (inner q).interpret outer := by
  induction d with
  | done a => rfl
  | ask q next ih =>
    rw [interpret_ask, interpret_bind, interpret_ask]
    simp only [ih]

/-- The exchanges `asked` were answered one after the other, each through exchanges of the log, while
the state went from the first to the last. -/
inductive Relayed (answer : (q : I.Question) → StateT σ (Dialogue J) (I.Answer q)) :
    σ → List (Exchange I) → List (Exchange J) → σ → Prop where
  | nil (s : σ) : Relayed answer s [] [] s
  | cons {q : I.Question} {r : I.Answer q} {s mid last : σ} {asked : List (Exchange I)}
      {first rest : List (Exchange J)} :
      (answer q s).Runs first (r, mid) → Relayed answer mid asked rest last →
        Relayed answer s (⟨q, r⟩ :: asked) (first ++ rest) last

variable {answer : (q : I.Question) → StateT σ (Dialogue J) (I.Answer q)} {s last : σ}
  {asked : List (Exchange I)} {log : List (Exchange J)}

@[simp] theorem relayed_nil_iff : Relayed answer s [] log last ↔ log = [] ∧ last = s := by
  constructor
  · rintro ⟨⟩
    exact ⟨rfl, rfl⟩
  · rintro ⟨rfl, rfl⟩
    exact .nil last

theorem relayed_cons_iff {e : Exchange I} :
    Relayed answer s (e :: asked) log last ↔
      ∃ mid first rest, log = first ++ rest ∧ (answer e.1 s).Runs first (e.2, mid) ∧
        Relayed answer mid asked rest last := by
  constructor
  · rintro (_ | ⟨hfirst, hrest⟩)
    exact ⟨_, _, _, rfl, hfirst, hrest⟩
  · rintro ⟨mid, first, rest, rfl, hfirst, hrest⟩
    exact .cons hfirst hrest

theorem runs_interpret_iff {d : Dialogue I α} {a : α} :
    (d.interpret answer s).Runs log (a, last) ↔
      ∃ asked, d.Runs asked a ∧ Relayed answer s asked log last := by
  induction d generalizing s log with
  | done b =>
    show (done (b, s)).Runs log (a, last) ↔ _
    rw [runs_done_iff]
    constructor
    · rintro ⟨rfl, ⟨⟩⟩
      exact ⟨[], .done a, .nil last⟩
    · rintro ⟨asked, hasked, hrelayed⟩
      obtain ⟨rfl, rfl⟩ := runs_done_iff.1 hasked
      obtain ⟨rfl, rfl⟩ := relayed_nil_iff.1 hrelayed
      exact ⟨rfl, rfl⟩
  | ask q next ih =>
    show (answer q s >>= fun r => (next r.1).interpret answer r.2).Runs log (a, last) ↔ _
    rw [runs_bind_iff]
    constructor
    · rintro ⟨⟨r, mid⟩, first, rest, rfl, hfirst, hrest⟩
      obtain ⟨asked, hasked, hrelayed⟩ := (ih r).1 hrest
      exact ⟨⟨q, r⟩ :: asked, .ask r hasked, .cons hfirst hrelayed⟩
    · rintro ⟨asked, hasked, hrelayed⟩
      obtain ⟨r, later, rfl, hlater⟩ := runs_ask_iff.1 hasked
      obtain ⟨mid, first, rest, rfl, hfirst, hrest⟩ := relayed_cons_iff.1 hrelayed
      exact ⟨(r, mid), first, rest, rfl, hfirst, (ih r).2 ⟨later, hlater, hrest⟩⟩

end AlertConsole.Dialogue
