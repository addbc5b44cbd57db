import Mathlib.Data.List.Basic

/-!
# Times
-/

namespace NetSnmp

/-- A normalized `struct timeval`. -/
structure Timeval where
  tvSec : Nat
  tvUsec : Nat
  normalized : tvUsec < 1000000
  deriving DecidableEq, Repr

namespace Timeval

def zero : Timeval := ⟨0, 0, by decide⟩

def micros (time : Timeval) : Nat := time.tvSec * 1000000 + time.tvUsec

/-- `timerisset` -/
def isSet (time : Timeval) : Bool := time.tvSec ≠ 0 || time.tvUsec ≠ 0

/-- `timercmp` with `<`. -/
def before (time other : Timeval) : Bool :=
  if time.tvSec = other.tvSec then time.tvUsec < other.tvUsec else time.tvSec < other.tvSec

/-- `NETSNMP_TIMERADD` -/
def add (time other : Timeval) : Timeval :=
  if carries : 1000000 ≤ time.tvUsec + other.tvUsec then
    ⟨time.tvSec + other.tvSec + 1, time.tvUsec + other.tvUsec - 1000000, by
      have := time.normalized
      have := other.normalized
      omega⟩
  else ⟨time.tvSec + other.tvSec, time.tvUsec + other.tvUsec, by omega⟩

/-- `NETSNMP_TIMERSUB`; the seconds may be negative. -/
def sub (time other : Timeval) : Int × Nat :=
  let sec : Int := time.tvSec - other.tvSec - 1
  let usec := time.tvUsec + 1000000 - other.tvUsec
  if 1000000 ≤ usec then (sec + 1, usec - 1000000) else (sec, usec)

theorem isSet_iff (time : Timeval) : time.isSet = true ↔ 0 < time.micros := by
  simp only [isSet, micros, Bool.or_eq_true, decide_eq_true_eq]
  omega

theorem before_iff (time other : Timeval) : time.before other = true ↔
    time.micros < other.micros := by
  have := time.normalized
  have := other.normalized
  rw [before]
  split
  · simp only [micros, decide_eq_true_eq]
    omega
  · simp only [micros, decide_eq_true_eq]
    omega

theorem micros_add (time other : Timeval) : (time.add other).micros =
    time.micros + other.micros := by
  rw [add]
  split
  · simp only [micros]
    omega
  · simp only [micros]
    omega

theorem micros_sub (time other : Timeval) :
    (time.sub other).1 * 1000000 + (time.sub other).2 = (time.micros : Int) - other.micros ∧
      (time.sub other).2 < 1000000 := by
  have := time.normalized
  have := other.normalized
  simp only [sub, micros]
  split
  · constructor
    · omega
    · omega
  · constructor
    · omega
    · omega

end Timeval

end NetSnmp
