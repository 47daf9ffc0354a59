import Mathlib.Tactic

/-!
# Timers

`set_timeout` and `chk_timeout` of `timer.c`, with the clock as a parameter.
-/

namespace Watt32.Timer

/-- `set_timeout (msec)` at the time `now`: never 0. -/
def setTimeout (now msec : BitVec 32) : BitVec 32 :=
  let ret := now + msec
  if ret = 0 then 1 else ret

/-- `chk_timeout (value)` at the time `now`. -/
def chkTimeout (now value : BitVec 32) : Bool :=
  if value = 0 then false else value ≤ setTimeout now 0

end Watt32.Timer
