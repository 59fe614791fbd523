/-!
# Splitting at a character

`splitOnce` cuts at the first occurrence of a separator and `splitAll` at every one; `splitAll`
never returns an empty list. Neither drops a character other than the separators.
-/

namespace AlertConsole.Text

/-- The parts before and after the first `sep`, if there is one. -/
def splitOnce (sep : Char) : List Char → Option (List Char × List Char)
  | [] => none
  | c :: rest =>
    if c = sep then some ([], rest)
    else (splitOnce sep rest).map fun (before, after) => (c :: before, after)

/-- The parts between consecutive characters that `isSep` accepts. -/
def splitWhere (isSep : Char → Bool) : List Char → List (List Char)
  | [] => [[]]
  | c :: rest =>
    if isSep c then [] :: splitWhere isSep rest
    else match splitWhere isSep rest with
      | [] => [[c]]
      | part :: parts => (c :: part) :: parts

def splitAll (sep : Char) (cs : List Char) : List (List Char) :=
  splitWhere (· == sep) cs

theorem splitWhere_ne_nil (isSep : Char → Bool) (cs : List Char) : splitWhere isSep cs ≠ [] := by
  cases cs with
  | nil => simp [splitWhere]
  | cons c rest =>
    unfold splitWhere
    split
    · simp
    · split <;> simp

end AlertConsole.Text
