import AlertConsole.Api.Paths
import AlertConsole.Http.Url
import AlertConsole.Proofs.Text.Percent
import AlertConsole.Proofs.Text.Split

/-!
# Names in the path of an address

The path of an object is that of its family with one more segment, unless its name is `.` or `..`.
Percent encoding leaves these two alone (`isCurrent_encode_iff`, `isParent_encode_iff`), and they are
resolved away, the second with the segment before it (`pathOfChars_path`).
-/

namespace AlertConsole

open Text (byte_forall splitWhere splitWhere_append splitWhere_of_forall_not utf8 utf8_injective)
open Text.Percent

/-! ## Segments -/

namespace Http.Url

/-- The character stands for itself in a path, and ends neither a segment nor the path. -/
def isSegmentChar (c : Char) : Bool :=
  0x20 < c.toNat && c.toNat < 0x80 && keepInPath (UInt8.ofNat c.toNat) && !isSlash c &&
    c != '?' && c != '#'

theorem isSegmentChar_of_unreserved :
    ∀ b : UInt8, isUnreserved b = true → isSegmentChar (Char.ofNat b.toNat) = true :=
  byte_forall (by decide +kernel)

theorem isSegmentChar_of_encodedChar {c : Char} (h : EncodedChar c) : isSegmentChar c = true := by
  rcases h with rfl | ⟨b, hb, rfl⟩
  · decide
  · exact isSegmentChar_of_unreserved b hb

theorem isSlash_of_isSegmentChar {c : Char} (h : isSegmentChar c = true) : isSlash c = false := by
  simp only [isSegmentChar, Bool.and_eq_true] at h
  simpa using h.1.1.2

end Http.Url

namespace Family

/-- The segments that the paths of a family start with. -/
def directories : Family → List (List Char)
  | incident => [['a', 'p', 'i'], "incident".toList]
  | escalation => [['a', 'p', 'i'], "escalation".toList, "config".toList]
  | policy => [['a', 'p', 'i'], "policy".toList, "config".toList]
  | version => [['a', 'p', 'i'], "config".toList, "version".toList]

theorem root_eq (f : Family) : f.root.toList = f.directories.flatMap (· ++ ['/']) := by
  cases f <;> decide

theorem all_directories (f : Family) : ∀ d ∈ f.directories, ∀ c ∈ d, Http.Url.isSegmentChar c := by
  have hall : f.directories.all (·.all Http.Url.isSegmentChar) = true := by
    cases f <;> decide
  intro d hd
  exact List.all_eq_true.1 (List.all_eq_true.1 hall d hd)

end Family

namespace Http.Url

variable {segment : List Char} {segments : List (List Char)}

theorem splitWhere_isSlash (hdirectories : ∀ d ∈ segments, ∀ c ∈ d, isSegmentChar c)
    (hsegment : ∀ c ∈ segment, isSegmentChar c) :
    splitWhere isSlash (segments.flatMap (· ++ ['/']) ++ segment) = segments ++ [segment] := by
  induction segments with
  | nil => exact splitWhere_of_forall_not fun c hc => isSlash_of_isSegmentChar (hsegment c hc)
  | cons d segments ih =>
    have hd : ∀ c ∈ d, isSlash c = false := fun c hc =>
      isSlash_of_isSegmentChar (hdirectories d List.mem_cons_self c hc)
    rw [List.flatMap_cons, List.append_assoc, List.append_assoc, List.singleton_append,
      splitWhere_append hd (by decide), ih fun d hd => hdirectories d (List.mem_cons_of_mem _ hd),
      List.cons_append]

/-! ## Dot segments -/

theorem afterDot?_cons_of_ne {c : Char} (hdot : c ≠ '.') (hpercent : c ≠ '%') (cs : List Char) :
    afterDot? (c :: cs) = none := by
  unfold afterDot?
  split
  · next h => exact absurd (List.cons.inj h).1 hdot
  · next h => exact absurd (List.cons.inj h).1 hpercent
  · next h => exact absurd (List.cons.inj h).1 hpercent
  · rfl

theorem kept_ne_dot :
    ∀ b : UInt8, b ≠ 0x2E → isUnreserved b = true → Char.ofNat b.toNat ≠ '.' :=
  byte_forall (by decide +kernel)

/-- Only a byte that is kept could be written as an encoded dot. -/
theorem escape_ne_dot :
    ∀ b : UInt8, isUnreserved b = false → escape b ≠ ['%', '2', 'e'] ∧ escape b ≠ ['%', '2', 'E'] :=
  byte_forall (by decide +kernel)

theorem afterDot?_escape {b : UInt8} (h : isUnreserved b = false) (cs : List Char) :
    afterDot? (escape b ++ cs) = none := by
  obtain ⟨hlower, hupper⟩ := escape_ne_dot b h
  simp only [escape, List.cons_append, List.nil_append] at hlower hupper ⊢
  unfold afterDot?
  split
  · next heq => exact absurd (List.cons.inj heq).1 (by decide)
  · next heq =>
    simp only [List.cons.injEq] at heq
    exact absurd (by rw [heq.2.1, heq.2.2.1]) hlower
  · next heq =>
    simp only [List.cons.injEq] at heq
    exact absurd (by rw [heq.2.1, heq.2.2.1]) hupper
  · rfl

/-- An encoded text starts with a dot exactly if the text does. -/
theorem afterDot?_flatMap_encode (bytes : List UInt8) :
    afterDot? (bytes.flatMap (encodeByteWhere isUnreserved)) =
      if bytes.head? = some 0x2E then some (bytes.tail.flatMap (encodeByteWhere isUnreserved))
      else none := by
  rcases bytes with _ | ⟨b, rest⟩
  · rfl
  simp only [List.flatMap_cons, List.head?_cons, List.tail_cons, Option.some.injEq]
  by_cases hdot : b = 0x2E
  · subst hdot
    rfl
  rw [if_neg hdot, encodeByteWhere]
  by_cases hkeep : isUnreserved b
  · obtain ⟨-, hpercent⟩ := unreserved_bounds b hkeep
    rw [if_pos hkeep, List.singleton_append]
    exact afterDot?_cons_of_ne (kept_ne_dot b hdot hkeep) hpercent _
  · rw [if_neg hkeep]
    exact afterDot?_escape (Bool.eq_false_iff.2 hkeep) _

theorem flatMap_encode_eq_nil_iff (bytes : List UInt8) :
    bytes.flatMap (encodeByteWhere isUnreserved) = [] ↔ bytes = [] := by
  constructor
  · intro h
    rw [← decodeBytes_flatMap_encode bytes, h]
    rfl
  · rintro rfl
    rfl

theorem afterDot?_encode (name : String) :
    afterDot? (encode name).toList =
      if (utf8 name).head? = some 0x2E then
        some ((utf8 name).tail.flatMap (encodeByteWhere isUnreserved))
      else none := by
  rw [encode, String.toList_ofList, encodeWhere, afterDot?_flatMap_encode]

theorem isCurrent_encode_iff (name : String) :
    isCurrent (encode name).toList = true ↔ name = "." := by
  have hname : name = "." ↔ utf8 name = [0x2E] := utf8_injective.eq_iff.symm
  rw [hname, isCurrent, afterDot?_encode, beq_iff_eq]
  rcases utf8 name with _ | ⟨b, rest⟩
  · simp
  · by_cases hdot : b = 0x2E
    · simp only [List.head?_cons, hdot, if_true, Option.some.injEq, List.tail_cons,
        flatMap_encode_eq_nil_iff, List.cons.injEq, true_and]
    · simp [hdot]

theorem isParent_encode_iff (name : String) :
    isParent (encode name).toList = true ↔ name = ".." := by
  have hname : name = ".." ↔ utf8 name = [0x2E, 0x2E] := utf8_injective.eq_iff.symm
  rw [hname, isParent, afterDot?_encode, beq_iff_eq]
  rcases utf8 name with _ | ⟨b, rest⟩
  · simp
  by_cases hdot : b = 0x2E
  · simp only [List.head?_cons, hdot, if_true, Option.bind_some, List.tail_cons,
      afterDot?_flatMap_encode, List.cons.injEq, true_and]
    rcases rest with _ | ⟨b', rest⟩
    · simp
    · by_cases hdot' : b' = 0x2E
      · simp only [List.head?_cons, hdot', if_true, Option.some.injEq, List.tail_cons,
          flatMap_encode_eq_nil_iff, List.cons.injEq, true_and]
      · simp [hdot']
  · simp [hdot]

/-! ## Resolving -/

/-- Segments that lead nowhere else. -/
def Plain (segments : List (List Char)) : Prop :=
  ∀ d ∈ segments, isParent d = false ∧ isCurrent d = false

theorem resolve_append {done : List (List Char)} (h : Plain segments) (rest : List (List Char)) :
    resolve done (segments ++ rest) = resolve (segments.reverse ++ done) rest := by
  induction segments generalizing done with
  | nil => rfl
  | cons d segments ih =>
    obtain ⟨hparent, hcurrent⟩ := h d List.mem_cons_self
    have hplain : Plain segments := fun d hd => h d (List.mem_cons_of_mem _ hd)
    rw [List.cons_append, resolve, hparent, hcurrent, if_neg Bool.false_ne_true,
      if_neg Bool.false_ne_true, ih hplain, List.reverse_cons, List.append_assoc,
      List.singleton_append]

theorem plain_directories (f : Family) : Plain f.directories := by
  unfold Plain
  cases f <;> decide

theorem reverse_shorten_directories (f : Family) :
    (shorten f.directories.reverse).reverse = f.directories.dropLast := by
  cases f <;> decide

theorem resolve_directories (f : Family) (segment : List Char) :
    resolve [] (f.directories ++ [segment]) =
      if isParent segment then f.directories.dropLast ++ [[]]
      else f.directories ++ [if isCurrent segment then [] else segment] := by
  rw [resolve_append (plain_directories f), List.append_nil]
  by_cases hparent : isParent segment
  · rw [if_pos hparent, resolve, if_pos hparent, if_pos rfl, resolve, List.reverse_cons,
      reverse_shorten_directories]
  rw [if_neg hparent, resolve, if_neg hparent]
  by_cases hcurrent : isCurrent segment
  · rw [if_pos hcurrent, if_pos hcurrent, if_pos rfl, resolve, List.reverse_cons,
      List.reverse_reverse]
  · rw [if_neg hcurrent, if_neg hcurrent, resolve, List.reverse_cons, List.reverse_reverse]

/-! ## Whole paths -/

theorem encodeWhere_keepInPath {cs : List Char} (h : ∀ c ∈ cs, isSegmentChar c) :
    encodeWhere keepInPath (String.ofList cs) = cs := by
  refine encodeWhere_of_forall_keep fun c hc => ?_
  have hc := h c hc
  simp only [isSegmentChar, Bool.and_eq_true, decide_eq_true_eq] at hc
  exact ⟨hc.1.1.1.1.2, hc.1.1.1.2⟩

/-- Segments as they are written, a slash before each. -/
def written (segments : List (List Char)) : String :=
  String.ofList (segments.flatMap ('/' :: ·))

theorem written_concat (segments : List (List Char)) (segment : List Char) :
    written (segments ++ [segment]) =
      String.ofList ('/' :: (segments.flatMap (· ++ ['/']) ++ segment)) := by
  rw [written, String.ofList_inj]
  induction segments with
  | nil => simp
  | cons d segments ih => simp [ih]

theorem pathOfChars_eq_written {cs : List Char} {resolved : List (List Char)}
    (hsplit : splitWhere isSlash cs = segments) (hne : segments ≠ [])
    (hresolve : resolve [] segments = resolved) (hchars : ∀ d ∈ resolved, ∀ c ∈ d, isSegmentChar c) :
    pathOfChars ('/' :: cs) = written resolved := by
  have hslash : splitWhere isSlash ('/' :: cs) = [] :: segments := by
    rw [splitWhere, if_pos (by decide), hsplit]
  have hjoin : ∀ l : List (List Char), (∀ d ∈ l, ∀ c ∈ d, isSegmentChar c) →
      (l.map fun d => "/" ++ String.ofList (encodeWhere keepInPath (String.ofList d))) =
        l.map fun d => String.ofList ('/' :: d) := by
    intro l hl
    refine List.map_congr_left fun d hd => ?_
    rw [encodeWhere_keepInPath (hl d hd), String.ofList_cons]
    rfl
  unfold pathOfChars
  simp only [hslash, if_neg hne, hresolve]
  rw [hjoin resolved hchars, ← String.toList_inj, String.toList_join, written, String.toList_ofList,
    List.flatMap_map]
  simp only [String.toList_ofList]

theorem isSegmentChar_of_mem_encode (name : String) :
    ∀ c ∈ (encode name).toList, isSegmentChar c := fun _ hc =>
  isSegmentChar_of_encodedChar (encodedChar_of_mem_encode hc)

/-- The path for the name of an object, which goes astray for two names. -/
theorem pathOfChars_path (f : Family) (name : String) :
    pathOfChars ('/' :: (f.path name).toList) =
      if name = ".." then written (f.directories.dropLast ++ [[]])
      else "/" ++ f.root ++ if name = "." then "" else encode name := by
  have hpath : (f.path name).toList =
      f.directories.flatMap (· ++ ['/']) ++ (encode name).toList := by
    rw [Family.path, String.toList_append, Family.root_eq]
  have hsplit := splitWhere_isSlash f.all_directories (isSegmentChar_of_mem_encode name)
  have hresolve := resolve_directories f (encode name).toList
  rw [hpath]
  by_cases hparent : name = ".."
  · rw [if_pos ((isParent_encode_iff name).2 hparent)] at hresolve
    rw [if_pos hparent]
    refine pathOfChars_eq_written hsplit (by simp) hresolve fun d hd c hc => ?_
    rcases List.mem_append.1 hd with hd | hd
    · exact f.all_directories d (List.dropLast_subset _ hd) c hc
    · rw [List.mem_singleton.1 hd] at hc
      cases hc
  · rw [if_neg (mt (isParent_encode_iff name).1 hparent)] at hresolve
    rw [if_neg hparent]
    have hlast : (if isCurrent (encode name).toList then [] else (encode name).toList) =
        (if name = "." then "" else encode name).toList := by
      by_cases hcurrent : name = "."
      · rw [if_pos hcurrent, if_pos ((isCurrent_encode_iff name).2 hcurrent)]
        rfl
      · rw [if_neg hcurrent, if_neg (mt (isCurrent_encode_iff name).1 hcurrent)]
    have hchars : ∀ c ∈ (if name = "." then "" else encode name).toList, isSegmentChar c := by
      split
      · exact fun c hc => nomatch hc
      · exact isSegmentChar_of_mem_encode name
    rw [hlast] at hresolve
    rw [pathOfChars_eq_written hsplit (by simp) hresolve, written_concat, ← Family.root_eq,
      ← String.toList_inj]
    · simp
    · intro d hd c hc
      rcases List.mem_append.1 hd with hd | hd
      · exact f.all_directories d hd c hc
      · rw [List.mem_singleton.1 hd] at hc
        exact hchars c hc

end Http.Url

end AlertConsole
