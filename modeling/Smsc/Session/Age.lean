import Smsc.Session.State

/-!
# Smsc.Session.Age — how long ago a session began, for people

* `ageText`: in minutes, hours or days, whichever is the largest that counts;
* `Session.age`: by the wall clock, which may have been set since.
-/

namespace Smsc

/-- A number of things. -/
def countText (n : Nat) (thing : String) : String :=
  toString n ++ " " ++ (if n = 1 then thing else thing ++ "s")

/-- An age in milliseconds. A minute that is not full is "just now", and so is the future. -/
def ageText (millis : Int) : String :=
  let seconds := (millis / 1000).toNat
  if seconds < 60 then "just now"
  else if seconds < 3600 then "about " ++ countText (seconds / 60) "minute" ++ " ago"
  else if seconds < 86400 then "about " ++ countText (seconds / 3600) "hour" ++ " ago"
  else countText (seconds / 86400) "day" ++ " ago"

/-- The age by a wall clock that was set forward by `shift` milliseconds since the session began. -/
def Session.age (s : Session) (shift : Int) : Int := s.lifetime.millis + shift

end Smsc
