/-!
# The status of an incident
-/

namespace AlertConsole

inductive Status where
  | ok
  | warning
  | critical
  deriving DecidableEq

namespace Status

def code : Status → Int
  | ok => 0
  | warning => 1
  | critical => 2

def ofCode? (code : Int) : Option Status :=
  if code = 0 then some ok
  else if code = 1 then some warning
  else if code = 2 then some critical
  else none

def label : Status → String
  | ok => "OK"
  | warning => "WARNING"
  | critical => "CRITICAL"

/-- The name or the hexadecimal form of the colour in which a status is shown. -/
def color : Status → String
  | ok => "green"
  | warning => "#FFFD82"
  | critical => "#FB5C5C"

theorem ofCode_code (s : Status) : ofCode? s.code = some s := by
  cases s <;> rfl

theorem code_of_ofCode {n : Int} {s : Status} (h : ofCode? n = some s) : s.code = n := by
  unfold ofCode? at h
  split at h
  · next hn => cases h; exact hn.symm
  · split at h
    · next hn => cases h; exact hn.symm
    · split at h
      · next hn => cases h; exact hn.symm
      · cases h

end Status

end AlertConsole
