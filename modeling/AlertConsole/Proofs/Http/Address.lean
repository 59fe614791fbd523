import AlertConsole.Http.Client
import AlertConsole.Proofs.Http.Path
import Mathlib.Data.List.TakeWhile

/-!
# Addresses below a server

A request goes to the server that the base address of the settings names, however many slashes
follow it, and to the path of its object below it (`urlOf_origin`). The characters of such an address
are all significant, so it is read back as it was written (`ofChars?_origin`).
-/

namespace AlertConsole.Http

open Text (splitOnce splitOnce_append splitOnce_eq_none)
open Url

/-! ## Servers -/

/-- A server, named as in `scheme://host[:port]`. -/
structure Origin where
  /-- The scheme, in letters of any case. -/
  name : List Char
  authority : List Char
  scheme : Scheme
  host : String
  port : Nat
  named : Scheme.ofName? (String.ofList name).toLower = some scheme
  located : authorityOfChars? scheme authority = some (host, port)
  plain : ∀ c ∈ authority, isAuthorityChar c = true ∧ c ≠ '#' ∧ 0x20 < c.toNat

namespace Origin

/-- The address of a server. -/
def chars (o : Origin) : List Char :=
  o.name ++ ':' :: '/' :: '/' :: o.authority

/-- The address with slashes after it. -/
def text (o : Origin) (slashes : Nat) : String :=
  String.ofList (o.chars ++ List.replicate slashes '/')

variable (o : Origin)

theorem authority_ne_nil : o.authority ≠ [] := by
  intro h
  have hlocated := o.located
  rw [h] at hlocated
  cases hlocated

theorem lower_mem_of_mem_name {c : Char} (h : c ∈ o.name) :
    c.toLower ∈ ['h', 't', 't', 'p', 's'] := by
  have hlower : (String.ofList o.name).toLower = (String.ofList o.name).map Char.toLower := rfl
  have hmem : c.toLower ∈ (String.ofList o.name).toLower.toList := by
    rw [hlower, String.toList_map, String.toList_ofList]
    exact List.mem_map_of_mem h
  have hnamed := o.named
  unfold Scheme.ofName? at hnamed
  split at hnamed
  · next hhttp =>
    rw [hhttp] at hmem
    exact List.mem_append_left ['s'] hmem
  · split at hnamed
    · next hhttps =>
      rw [hhttps] at hmem
      exact hmem
    · cases hnamed

theorem lt_toNat_of_lower_mem {c : Char} (h : c.toLower ∈ ['h', 't', 't', 'p', 's']) :
    0x20 < c.toNat := by
  unfold Char.toLower at h
  split at h
  · next hupper =>
    have hle : 65 ≤ c.toNat := hupper.1
    omega
  · have hall : ['h', 't', 't', 'p', 's'].all (fun c => 0x20 < c.toNat) = true := by decide
    exact of_decide_eq_true (List.all_eq_true.1 hall c h)

theorem name_plain {c : Char} (h : c ∈ o.name) : c ≠ ':' ∧ c ≠ '#' ∧ 0x20 < c.toNat := by
  have hlower := o.lower_mem_of_mem_name h
  refine ⟨?_, ?_, lt_toNat_of_lower_mem hlower⟩
  · rintro rfl
    exact absurd hlower (by decide)
  · rintro rfl
    exact absurd hlower (by decide)

/-- No character of the address is taken away or ends it. -/
theorem chars_plain {c : Char} (h : c ∈ o.chars) : c ≠ '#' ∧ 0x20 < c.toNat := by
  rcases List.mem_append.1 h with h | h
  · exact (o.name_plain h).2
  · simp only [List.mem_cons] at h
    rcases h with rfl | rfl | rfl | h
    · decide
    · decide
    · decide
    · exact (o.plain c h).2

end Origin

/-- The server of the standard settings. -/
def Origin.standard : Origin where
  name := "http".toList
  authority := "localhost:8081".toList
  scheme := .http
  host := "localhost"
  port := 8081
  named := by decide +kernel
  located := by decide +kernel
  plain := by
    have hall : "localhost:8081".toList.all
        (fun c => isAuthorityChar c && c != '#' && 0x20 < c.toNat) = true := by
      decide
    intro c hc
    have hplain := List.all_eq_true.1 hall c hc
    simp only [Bool.and_eq_true, bne_iff_ne, decide_eq_true_eq] at hplain
    exact ⟨hplain.1.1, hplain.1.2, hplain.2⟩

theorem standard_baseUrl : Config.standard.baseUrl = Origin.standard.text 0 := by
  decide +kernel

/-! ## Reading an address -/

theorem dropWhile_of_forall_not {p : Char → Bool} {cs : List Char} (h : ∀ c ∈ cs, p c = false) :
    cs.dropWhile p = cs := by
  rw [List.dropWhile_eq_self_iff]
  intro hlength
  rw [h _ (List.getElem_mem hlength)]
  exact Bool.false_ne_true

theorem significant_of_plain {cs : List Char} (h : ∀ c ∈ cs, 0x20 < c.toNat) :
    significant cs = cs := by
  have hcontrol : ∀ c ∈ cs, isControlOrSpace c = false := by
    intro c hc
    exact decide_eq_false (Nat.not_le.2 (h c hc))
  have hbreak : ∀ c ∈ cs, (!isLineBreak c) = true := by
    intro c hc
    have hlt := h c hc
    simp only [isLineBreak, Bool.not_eq_true', Bool.or_eq_false_iff, beq_eq_false_iff_ne]
    refine ⟨⟨?_, ?_⟩, ?_⟩ <;> rintro rfl <;> exact absurd hlt (by decide)
  have hreverse : ∀ c ∈ cs.reverse, isControlOrSpace c = false := fun c hc =>
    hcontrol c (List.mem_reverse.1 hc)
  rw [significant, dropWhile_of_forall_not hcontrol, dropWhile_of_forall_not hreverse,
    List.reverse_reverse, List.filter_eq_self.2 hbreak]

variable (o : Origin)

theorem splitScheme?_origin (path : List Char) :
    splitScheme? (o.chars ++ '/' :: path) = some (o.scheme, o.authority ++ '/' :: path) := by
  have hcolon : ':' ∉ o.name := fun h => (o.name_plain h).1 rfl
  have hslashes : ('/' :: '/' :: (o.authority ++ '/' :: path)).dropWhile isSlash =
      o.authority ++ '/' :: path := by
    rcases hauthority : o.authority with _ | ⟨c, rest⟩
    · exact absurd hauthority o.authority_ne_nil
    · have hc := (o.plain c (hauthority ▸ List.mem_cons_self)).1
      have hslash : ¬isSlash c = true := by
        intro hslash
        simp [isAuthorityChar, hslash] at hc
      rw [List.dropWhile_cons_of_pos (by decide), List.dropWhile_cons_of_pos (by decide),
        List.cons_append, List.dropWhile_cons_of_neg hslash]
  have hsplit : splitOnce ':' (o.chars ++ '/' :: path) =
      some (o.name, '/' :: '/' :: (o.authority ++ '/' :: path)) := by
    rw [Origin.chars, List.append_assoc]
    exact splitOnce_append hcolon _
  rw [splitScheme?, hsplit]
  simp only [o.named, Option.map_some, hslashes]

theorem ofChars?_origin {path : List Char}
    (h : ∀ c ∈ path, c ≠ '#' ∧ c ≠ '?' ∧ 0x20 < c.toNat) :
    ofChars? (o.chars ++ '/' :: path) =
      some ⟨o.scheme, o.host, o.port, pathOfChars ('/' :: path), none⟩ := by
  have hall : ∀ c ∈ o.chars ++ '/' :: path, c ≠ '#' ∧ 0x20 < c.toNat := by
    intro c hc
    rcases List.mem_append.1 hc with hc | hc
    · exact o.chars_plain hc
    · rcases List.mem_cons.1 hc with rfl | hc
      · decide
      · exact ⟨(h c hc).1, (h c hc).2.2⟩
  have hfragment : withoutFragment (o.chars ++ '/' :: path) = o.chars ++ '/' :: path := by
    rw [withoutFragment, List.takeWhile_eq_self_iff]
    exact fun c hc => bne_iff_ne.2 (hall c hc).1
  have hauthority : ∀ c ∈ o.authority, isAuthorityChar c = true := fun c hc => (o.plain c hc).1
  have hquery : '?' ∉ '/' :: path := by
    intro hmem
    rcases List.mem_cons.1 hmem with heq | hmem
    · exact absurd heq (by decide)
    · exact (h _ hmem).2.1 rfl
  have hpath : ('/' :: path).takeWhile (· != '?') = '/' :: path := by
    rw [List.takeWhile_eq_self_iff]
    exact fun c hc => bne_iff_ne.2 fun heq => hquery (heq ▸ hc)
  rw [ofChars?, significant_of_plain fun c hc => (hall c hc).2, hfragment, splitScheme?_origin]
  simp only [Option.bind_eq_bind, Option.bind_some, List.takeWhile_append_of_pos hauthority,
    List.dropWhile_append_of_pos hauthority]
  have htake : ('/' :: path).takeWhile isAuthorityChar = [] := rfl
  have hdrop : ('/' :: path).dropWhile isAuthorityChar = '/' :: path := rfl
  rw [htake, hdrop, List.append_nil, o.located, splitOnce_eq_none hquery, hpath]
  rfl

/-! ## Addresses below a server -/

theorem ne_slash_of_mem_authority {c : Char} (h : c ∈ o.authority) : c ≠ '/' := by
  rintro rfl
  exact absurd (o.plain '/' h).1 (by decide)

theorem dropSlashes_text (slashes : Nat) :
    (Client.dropSlashes (o.text slashes).toList.reverse).reverse = o.chars := by
  have hreverse : (o.text slashes).toList.reverse =
      List.replicate slashes '/' ++ o.chars.reverse := by
    rw [Origin.text, String.toList_ofList, List.reverse_append, List.reverse_replicate]
  have hslashes : ∀ c ∈ List.replicate slashes '/', (c == '/') = true := by
    intro c hc
    rw [List.eq_of_mem_replicate hc]
    rfl
  have hchars : o.chars.reverse.dropWhile (· == '/') = o.chars.reverse := by
    rcases hauthority : o.authority.reverse with _ | ⟨c, rest⟩
    · exact absurd (List.reverse_eq_nil_iff.1 hauthority) o.authority_ne_nil
    · have hmem : c ∈ o.authority := by
        rw [← List.mem_reverse, hauthority]
        exact List.mem_cons_self
      have hne : ¬(c == '/') = true := by
        rw [beq_iff_eq]
        exact ne_slash_of_mem_authority o hmem
      simp only [Origin.chars, List.reverse_append, List.reverse_cons, hauthority,
        List.cons_append]
      exact List.dropWhile_cons_of_neg hne
  rw [hreverse, Client.dropSlashes, List.dropWhile_append_of_pos hslashes, hchars,
    List.reverse_reverse]

theorem head?_path (f : Family) (name : String) : (f.path name).toList.head? = some 'a' := by
  rw [Family.path, String.toList_append]
  cases f <;> rfl

theorem path_plain (f : Family) (name : String) :
    ∀ c ∈ (f.path name).toList, c ≠ '#' ∧ c ≠ '?' ∧ 0x20 < c.toNat := by
  have hsegment : ∀ c, isSegmentChar c = true → c ≠ '#' ∧ c ≠ '?' ∧ 0x20 < c.toNat := by
    intro c hc
    simp only [isSegmentChar, Bool.and_eq_true, decide_eq_true_eq, bne_iff_ne] at hc
    exact ⟨hc.2, hc.1.2, hc.1.1.1.1.1⟩
  intro c hc
  rw [Family.path, String.toList_append, Family.root_eq, List.mem_append, List.mem_flatMap] at hc
  rcases hc with ⟨d, hd, hc⟩ | hc
  · rcases List.mem_append.1 hc with hc | hc
    · exact hsegment c (f.all_directories d hd c hc)
    · rw [List.mem_singleton.1 hc]
      decide
  · exact hsegment c (isSegmentChar_of_mem_encode name c hc)

theorem address_origin (slashes : Nat) (f : Family) (name : String) :
    Client.address (o.text slashes) (f.path name) =
      String.ofList (o.chars ++ '/' :: (f.path name).toList) := by
  have hpath : Client.dropSlashes (f.path name).toList = (f.path name).toList := by
    have hhead := head?_path f name
    rcases hcs : (f.path name).toList with _ | ⟨c, rest⟩
    · rfl
    · rw [hcs, List.head?_cons, Option.some.injEq] at hhead
      subst hhead
      rfl
  rw [Client.address, dropSlashes_text, hpath]

/-- The address of an object is at the server. -/
theorem urlOf_origin (slashes : Nat) (f : Family) (name : String) :
    Client.urlOf (o.text slashes) (f.path name) =
      .ok ⟨o.scheme, o.host, o.port, pathOfChars ('/' :: (f.path name).toList), none⟩ := by
  rw [Client.urlOf, address_origin, ofText?, String.toList_ofList,
    ofChars?_origin o (path_plain f name)]
  rfl

end AlertConsole.Http
