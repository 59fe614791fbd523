import AlertConsole.Json.Spelling
import Mathlib.Data.List.TakeDrop
import Mathlib.Data.List.TakeWhile

/-!
# Texts that are cut short

What is read at the start of a text is read there too when more text follows (`lasting`). Numbers
are the exception, since they take in the digits that follow. So after a text that spells out
anything else only white space may follow (`ofChars?_append`), and what is left of an object that was
cut short before its closing brace spells out nothing (`ofChars?_eq_none_of_cut`).
-/

namespace AlertConsole.Json

open Number (spanDigits takeSign)

variable {cs rest : List Char}

/-! ## White space, words and digits -/

theorem dropWhile_append_of_ne_nil {p : Char → Bool} (h : cs.dropWhile p ≠ [])
    (more : List Char) : (cs ++ more).dropWhile p = cs.dropWhile p ++ more := by
  rw [List.dropWhile_append, if_neg (by simpa using h)]

theorem takeWhile_append_of_ne_nil {p : Char → Bool} (h : cs.dropWhile p ≠ [])
    (more : List Char) : (cs ++ more).takeWhile p = cs.takeWhile p := by
  induction cs with
  | nil => exact absurd rfl h
  | cons c cs ih =>
    by_cases hp : p c
    · rw [List.dropWhile_cons_of_pos hp] at h
      rw [List.cons_append, List.takeWhile_cons_of_pos hp, List.takeWhile_cons_of_pos hp, ih h]
    · rw [List.cons_append, List.takeWhile_cons_of_neg hp, List.takeWhile_cons_of_neg hp]

theorem skipSpace_append {c : Char} (h : skipSpace cs = c :: rest) (more : List Char) :
    skipSpace (cs ++ more) = c :: (rest ++ more) := by
  have hne : cs.dropWhile isSpace ≠ [] := by
    intro hnil
    cases h.symm.trans hnil
  exact (dropWhile_append_of_ne_nil hne more).trans (congrArg (· ++ more) h)

theorem spanDigits_append {digits : List Char} (h : spanDigits cs = (digits, rest))
    (hrest : rest ≠ []) (more : List Char) : spanDigits (cs ++ more) = (digits, rest ++ more) := by
  rw [spanDigits, List.span_eq_takeWhile_dropWhile] at h ⊢
  obtain ⟨rfl, rfl⟩ := Prod.mk.inj h
  rw [takeWhile_append_of_ne_nil hrest, dropWhile_append_of_ne_nil hrest]

theorem after?_append {word : List Char} (h : after? word cs = some rest) (more : List Char) :
    after? word (cs ++ more) = some (rest ++ more) := by
  induction word generalizing cs with
  | nil => exact congrArg (Option.map (· ++ more)) h
  | cons w word ih =>
    cases cs with
    | nil => cases h
    | cons c cs =>
      rw [after?] at h
      rw [List.cons_append, after?]
      split at h
      · next hc => rw [if_pos hc, ih h]
      · cases h

/-! ## Strings -/

theorem stringRest?_append {pieces : List Piece} (h : stringRest? cs = some (pieces, rest))
    (more : List Char) : stringRest? (cs ++ more) = some (pieces, rest ++ more) := by
  induction cs using stringRest?.induct generalizing pieces with
  | case1 => cases h
  | case2 cs =>
    cases h
    rfl
  | case3 a b c d cs ih =>
    rw [stringRest?] at h
    obtain ⟨code, hcode, hrest⟩ := Option.bind_eq_some_iff.1 h
    obtain ⟨⟨later, last⟩, hlater, hpieces⟩ := Option.bind_eq_some_iff.1 hrest
    obtain ⟨rfl, rfl⟩ := Prod.mk.inj (Option.some.inj hpieces)
    simp only [List.cons_append]
    rw [stringRest?, hcode, ih hlater]
    rfl
  | case4 e cs hunit ih =>
    rw [stringRest?] at h
    · obtain ⟨c, hc, hrest⟩ := Option.bind_eq_some_iff.1 h
      obtain ⟨⟨later, last⟩, hlater, hpieces⟩ := Option.bind_eq_some_iff.1 hrest
      obtain ⟨rfl, rfl⟩ := Prod.mk.inj (Option.some.inj hpieces)
      -- No further characters turn this into the escape of a unit: `u` alone escapes nothing.
      have hne : e ≠ 'u' := by
        rintro rfl
        cases hc
      simp only [List.cons_append]
      rw [stringRest?]
      · rw [hc, ih hlater]
        rfl
      · exact fun _ _ _ _ _ he _ => hne he
    · exact hunit
  | case5 c cs hquote hunit hescape hrefused =>
    rw [stringRest?, if_pos hrefused] at h
    · cases h
    all_goals assumption
  | case6 c cs hquote hunit hescape hplain ih =>
    rw [stringRest?, if_neg hplain] at h
    · obtain ⟨⟨later, last⟩, hlater, hpieces⟩ := Option.bind_eq_some_iff.1 h
      obtain ⟨rfl, rfl⟩ := Prod.mk.inj (Option.some.inj hpieces)
      have hne : c ≠ '\\' := fun hc => hplain (.inl hc)
      rw [List.cons_append, stringRest?, if_neg hplain, ih hlater]
      · rfl
      · exact hquote
      · exact fun _ _ _ _ _ hc _ => hne hc
      · exact fun _ _ hc _ => hne hc
    all_goals assumption

/-! ## Numbers -/

theorem wholePart?_eq_some_iff {digits : List Char} :
    wholePart? cs = some (digits, rest) ↔
      spanDigits cs = (digits, rest) ∧ digits ≠ [] ∧ ∀ d ds, digits ≠ '0' :: d :: ds := by
  unfold wholePart?
  rcases spanDigits cs with ⟨ds, after⟩
  split <;> grind

theorem wholePart?_append {digits : List Char} (h : wholePart? cs = some (digits, rest))
    (hrest : rest ≠ []) (more : List Char) :
    wholePart? (cs ++ more) = some (digits, rest ++ more) := by
  rw [wholePart?_eq_some_iff] at h ⊢
  exact ⟨spanDigits_append h.1 hrest more, h.2⟩

theorem fractionPart?_append {fraction : Option (List Char)}
    (h : fractionPart? cs = some (fraction, rest)) (hrest : rest ≠ []) (more : List Char) :
    fractionPart? (cs ++ more) = some (fraction, rest ++ more) := by
  unfold fractionPart? at h
  split at h
  · next cs' =>
    rcases hspan : spanDigits cs' with ⟨_ | ⟨d, ds⟩, after⟩ <;> rw [hspan] at h <;> cases h
    rw [List.cons_append, fractionPart?, spanDigits_append hspan hrest]
  · next hpoint =>
    cases h
    obtain ⟨c, cs', rfl⟩ := List.exists_cons_of_ne_nil hrest
    have hnotPoint : c ≠ '.' := fun hc => hpoint cs' (hc ▸ rfl)
    rw [List.cons_append, fractionPart?]
    exact fun _ hcs => hnotPoint (List.cons.inj hcs).1

theorem takeSign_append {negative : Bool} (h : takeSign cs = (negative, rest)) (hrest : rest ≠ [])
    (more : List Char) : takeSign (cs ++ more) = (negative, rest ++ more) := by
  unfold takeSign at h
  split at h
  · cases h
    rfl
  · cases h
    rfl
  · next hplus hminus =>
    cases h
    obtain ⟨c, cs', rfl⟩ := List.exists_cons_of_ne_nil hrest
    have hnotPlus : c ≠ '+' := fun hc => hplus cs' (hc ▸ rfl)
    have hnotMinus : c ≠ '-' := fun hc => hminus cs' (hc ▸ rfl)
    rw [List.cons_append, takeSign]
    · exact fun _ hcs => hnotPlus (List.cons.inj hcs).1
    · exact fun _ hcs => hnotMinus (List.cons.inj hcs).1

theorem exponentPart?_append {exponent : Option (Bool × List Char)}
    (h : exponentPart? cs = some (exponent, rest)) (hrest : rest ≠ []) (more : List Char) :
    exponentPart? (cs ++ more) = some (exponent, rest ++ more) := by
  rcases cs with _ | ⟨c, cs⟩
  · cases h
    exact absurd rfl hrest
  rw [exponentPart?] at h
  rw [List.cons_append, exponentPart?]
  split at h
  · next hletter =>
    rcases hsign : takeSign cs with ⟨negative, unsigned⟩
    rw [hsign] at h
    rcases hspan : spanDigits unsigned with ⟨_ | ⟨d, ds⟩, after⟩ <;> simp only [hspan] at h <;>
      cases h
    have hunsigned : unsigned ≠ [] := by
      rintro rfl
      cases hspan
    rw [if_pos hletter, takeSign_append hsign hunsigned]
    simp only [spanDigits_append hspan hrest]
  · next hother =>
    cases h
    rw [if_neg hother]
    rfl

theorem number?_append {negative : Bool} {n : NumberSpelling}
    (h : number? negative cs = some (n, rest)) (hrest : rest ≠ []) (more : List Char) :
    number? negative (cs ++ more) = some (n, rest ++ more) := by
  unfold number? at h ⊢
  obtain ⟨⟨whole, afterWhole⟩, hwhole, h⟩ := Option.bind_eq_some_iff.1 h
  obtain ⟨⟨fraction, afterFraction⟩, hfraction, h⟩ := Option.bind_eq_some_iff.1 h
  obtain ⟨⟨exponent, afterExponent⟩, hexponent, h⟩ := Option.bind_eq_some_iff.1 h
  obtain ⟨rfl, rfl⟩ := Prod.mk.inj (Option.some.inj h)
  have hafterFraction : afterFraction ≠ [] := by
    rintro rfl
    cases hexponent
    exact hrest rfl
  have hafterWhole : afterWhole ≠ [] := by
    rintro rfl
    cases hfraction
    exact hafterFraction rfl
  refine Option.bind_eq_some_iff.2 ⟨_, wholePart?_append hwhole hafterWhole more, ?_⟩
  refine Option.bind_eq_some_iff.2 ⟨_, fractionPart?_append hfraction hafterFraction more, ?_⟩
  exact Option.bind_eq_some_iff.2 ⟨_, exponentPart?_append hexponent hrest more, rfl⟩

/-! ## Values -/

/-- What the readers find with some fuel they find with more, and with more text after it. A number
goes on with the digits that follow, so it has to be followed by something else already. -/
structure Lasting (fuel : Nat) : Prop where
  value : ∀ {cs rest : List Char} {v : Spelling}, value? fuel cs = some (v, rest) →
    (rest = [] → ∀ n, v ≠ .number n) →
    ∀ {fuel' : Nat}, fuel ≤ fuel' → ∀ more, value? fuel' (cs ++ more) = some (v, rest ++ more)
  items : ∀ {cs rest : List Char} {vs : List Spelling}, items? fuel cs = some (vs, rest) →
    ∀ {fuel' : Nat}, fuel ≤ fuel' → ∀ more, items? fuel' (cs ++ more) = some (vs, rest ++ more)
  members : ∀ {cs rest : List Char} {ms : List (List Piece × Spelling)},
    members? fuel cs = some (ms, rest) →
    ∀ {fuel' : Nat}, fuel ≤ fuel' → ∀ more, members? fuel' (cs ++ more) = some (ms, rest ++ more)

theorem Lasting.items_succ {fuel : Nat} (h : Lasting fuel) {vs : List Spelling}
    (hitems : items? (fuel + 1) cs = some (vs, rest)) {fuel' : Nat} (hle : fuel ≤ fuel')
    (more : List Char) : items? (fuel' + 1) (cs ++ more) = some (vs, rest ++ more) := by
  rw [items?] at hitems ⊢
  rcases hvalue : value? fuel cs with _ | ⟨v, after⟩ <;> simp only [hvalue] at hitems
  · cases hitems
  have hafter : after ≠ [] := by
    rintro rfl
    cases hitems
  simp only [h.value hvalue (fun hnil => absurd hnil hafter) hle]
  split at hitems
  · next hbracket =>
    cases hitems
    simp only [skipSpace_append hbracket]
  · next hcomma =>
    obtain ⟨⟨later, last⟩, hlater, hvs⟩ := Option.map_eq_some_iff.1 hitems
    cases hvs
    simp only [skipSpace_append hcomma, h.items hlater hle, Option.map_some]
  · cases hitems

theorem Lasting.members_succ {fuel : Nat} (h : Lasting fuel) {ms : List (List Piece × Spelling)}
    (hmembers : members? (fuel + 1) cs = some (ms, rest)) {fuel' : Nat} (hle : fuel ≤ fuel')
    (more : List Char) : members? (fuel' + 1) (cs ++ more) = some (ms, rest ++ more) := by
  rw [members?] at hmembers ⊢
  split at hmembers
  · next afterQuote hquote =>
    rcases hkey : stringRest? afterQuote with _ | ⟨key, afterKey⟩ <;> simp only [hkey] at hmembers
    · cases hmembers
    simp only [skipSpace_append hquote, stringRest?_append hkey]
    split at hmembers
    · next afterColon hcolon =>
      simp only [skipSpace_append hcolon]
      rcases hvalue : value? fuel afterColon with _ | ⟨v, after⟩ <;>
        simp only [hvalue] at hmembers
      · cases hmembers
      have hafter : after ≠ [] := by
        rintro rfl
        cases hmembers
      simp only [h.value hvalue (fun hnil => absurd hnil hafter) hle]
      split at hmembers
      · next hbrace =>
        cases hmembers
        simp only [skipSpace_append hbrace]
      · next hcomma =>
        obtain ⟨⟨later, last⟩, hlater, hms⟩ := Option.map_eq_some_iff.1 hmembers
        cases hms
        simp only [skipSpace_append hcomma, h.members hlater hle, Option.map_some]
      · cases hmembers
    · cases hmembers
  · cases hmembers

theorem value?_nil (fuel : Nat) : value? fuel [] = none := by
  cases fuel <;> rfl

theorem items?_nil (fuel : Nat) : items? fuel [] = none := by
  cases fuel with
  | zero => rfl
  | succ fuel => rw [items?, value?_nil]

theorem members?_nil (fuel : Nat) : members? fuel [] = none := by
  cases fuel <;> rfl

theorem Lasting.value_succ {fuel : Nat} (h : Lasting fuel) {v : Spelling}
    (hvalue : value? (fuel + 1) cs = some (v, rest)) (hended : rest = [] → ∀ n, v ≠ .number n)
    {fuel' : Nat} (hle : fuel ≤ fuel') (more : List Char) :
    value? (fuel' + 1) (cs ++ more) = some (v, rest ++ more) := by
  rw [value?] at hvalue ⊢
  split at hvalue
  case h_1 => cases hvalue
  case h_2 hquote =>
    obtain ⟨⟨pieces, last⟩, hpieces, hv⟩ := Option.map_eq_some_iff.1 hvalue
    cases hv
    simp only [skipSpace_append hquote, stringRest?_append hpieces, Option.map_some]
  case h_3 after hbracket =>
    simp only [skipSpace_append hbracket]
    split at hvalue
    case h_1 hclose =>
      cases hvalue
      simp only [skipSpace_append hclose]
    case h_2 hopen =>
      obtain ⟨⟨vs, last⟩, hitems, hv⟩ := Option.map_eq_some_iff.1 hvalue
      cases hv
      rcases hfirst : skipSpace after with _ | ⟨c, tail⟩ <;> rw [hfirst] at hitems
      · rw [items?_nil] at hitems
        cases hitems
      simp only [skipSpace_append hfirst]
      split
      · next hc =>
        cases hc
        exact absurd hfirst (hopen tail)
      · rw [← List.cons_append, h.items hitems hle]
        rfl
  case h_4 after hbrace =>
    simp only [skipSpace_append hbrace]
    split at hvalue
    case h_1 hclose =>
      cases hvalue
      simp only [skipSpace_append hclose]
    case h_2 hopen =>
      obtain ⟨⟨ms, last⟩, hmembers, hv⟩ := Option.map_eq_some_iff.1 hvalue
      cases hv
      rcases hfirst : skipSpace after with _ | ⟨c, tail⟩ <;> rw [hfirst] at hmembers
      · rw [members?_nil] at hmembers
        cases hmembers
      simp only [skipSpace_append hfirst]
      split
      · next hc =>
        cases hc
        exact absurd hfirst (hopen tail)
      · rw [← List.cons_append, h.members hmembers hle]
        rfl
  case h_5 hminus =>
    obtain ⟨⟨n, last⟩, hnumber, hv⟩ := Option.map_eq_some_iff.1 hvalue
    cases hv
    have hlast : rest ≠ [] := fun hnil => hended hnil n rfl
    simp only [skipSpace_append hminus, number?_append hnumber hlast, Option.map_some]
  case h_6 hword | h_7 hword | h_8 hword =>
    obtain ⟨last, hafter, hv⟩ := Option.map_eq_some_iff.1 hvalue
    cases hv
    simp only [skipSpace_append hword, after?_append hafter, Option.map_some]
  case h_9 hnil hquote hbracket hbrace hminus hnull htrue hfalse =>
    obtain ⟨⟨n, last⟩, hnumber, hv⟩ := Option.map_eq_some_iff.1 hvalue
    cases hv
    have hlast : rest ≠ [] := fun hnil => hended hnil n rfl
    rcases hfirst : skipSpace cs with _ | ⟨c, tail⟩
    · exact absurd hfirst hnil
    rw [hfirst] at hnumber
    simp only [skipSpace_append hfirst]
    -- The text still starts with `c`, which starts none of the other values.
    split
    case h_9 =>
      rw [← List.cons_append, number?_append hnumber hlast]
      rfl
    all_goals next hc => cases hc <;> simp_all

theorem lasting (fuel : Nat) : Lasting fuel := by
  induction fuel with
  | zero => exact ⟨nofun, nofun, nofun⟩
  | succ fuel ih =>
    refine ⟨fun hvalue hended fuel' hle more => ?_, fun hitems fuel' hle more => ?_,
      fun hmembers fuel' hle more => ?_⟩ <;>
      obtain ⟨fuel', rfl⟩ := Nat.exists_eq_add_of_le' (Nat.le_trans (Nat.succ_pos fuel) hle)
    · exact ih.value_succ hvalue hended (Nat.le_of_succ_le_succ hle) more
    · exact ih.items_succ hitems (Nat.le_of_succ_le_succ hle) more
    · exact ih.members_succ hmembers (Nat.le_of_succ_le_succ hle) more

/-! ## Texts -/

theorem skipSpace_append_of_nil (h : skipSpace cs = []) (more : List Char) :
    skipSpace (cs ++ more) = skipSpace more := by
  unfold skipSpace at h ⊢
  rw [List.dropWhile_append, h]
  rfl

theorem ofChars?_eq_some_iff {v : Spelling} :
    Spelling.ofChars? cs = some v ↔
      ∃ rest, value? (2 * cs.length + 1) cs = some (v, rest) ∧ skipSpace rest = [] := by
  unfold Spelling.ofChars?
  rcases value? (2 * cs.length + 1) cs with _ | ⟨v', rest⟩ <;> simp [and_comm]

/-- After a text that spells out a value other than a number, only white space may follow. -/
theorem ofChars?_append {v : Spelling} (h : Spelling.ofChars? cs = some v)
    (hended : ∀ n, v ≠ .number n) (more : List Char) :
    Spelling.ofChars? (cs ++ more) = if skipSpace more = [] then some v else none := by
  obtain ⟨rest, hvalue, hspace⟩ := ofChars?_eq_some_iff.1 h
  have hlength : 2 * cs.length + 1 ≤ 2 * (cs ++ more).length + 1 := by
    rw [List.length_append]
    omega
  rw [Spelling.ofChars?, (lasting _).value hvalue (fun _ => hended) hlength]
  show (if skipSpace (rest ++ more) = [] then some v else none) = _
  rw [skipSpace_append_of_nil hspace]

theorem value?_brace (fuel : Nat) (cs : List Char) :
    value? (fuel + 1) ('\x7b' :: cs) =
      match skipSpace cs with
      | '\x7d' :: rest => some (.object [], rest)
      | rest => (members? fuel rest).map fun (members, rest) => (.object members, rest) := rfl

theorem exists_object_of_value? {fuel : Nat} {v : Spelling}
    (h : value? fuel ('\x7b' :: cs) = some (v, rest)) : ∃ members, v = .object members := by
  cases fuel with
  | zero => cases h
  | succ fuel =>
    rw [value?_brace] at h
    split at h
    · cases h
      exact ⟨_, rfl⟩
    · obtain ⟨⟨members, last⟩, -, hv⟩ := Option.map_eq_some_iff.1 h
      cases hv
      exact ⟨members, rfl⟩

/-- An object that is cut short before its closing brace is not spelled out any more. -/
theorem ofChars?_eq_none_of_cut {part more : List Char} {v : Spelling} {last : Char}
    (hwhole : Spelling.ofChars? (part ++ more) = some v)
    (hopen : (part ++ more).head? = some '\x7b') (hclose : more.getLast? = some last)
    (hlast : isSpace last = false) : Spelling.ofChars? part = none := by
  rcases hpart : Spelling.ofChars? part with _ | v'
  · rfl
  exfalso
  rcases part with _ | ⟨c, part⟩
  · cases hpart
  obtain rfl : c = '\x7b' := by simpa using hopen
  obtain ⟨rest, hvalue, -⟩ := ofChars?_eq_some_iff.1 hpart
  obtain ⟨members, rfl⟩ := exists_object_of_value? hvalue
  rw [ofChars?_append hpart (fun _ => nofun)] at hwhole
  split at hwhole
  · next hspace =>
    have hall := List.dropWhile_eq_nil_iff.1 hspace last (List.mem_of_getLast? hclose)
    rw [hlast] at hall
    cases hall
  · cases hwhole

end AlertConsole.Json
