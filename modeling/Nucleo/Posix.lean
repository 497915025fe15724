/-
# The target's integers, `errno` and `struct timespec`

`int`, `long` and `time_t` are 32 bits wide on the target and are modelled as
integers brought back into range by `wrap32` after every operation.

`timespec.c` is modelled here: `timespecAdd`, `timespecDiff`, the two conversions and the
two constants.  `timespecDiff` returns both what the source stores through `diff`
and what it returns.
-/
import Mathlib

namespace Nucleo

/-- The error numbers that the modelled functions store in `errno`. -/
inductive Errno
  | EACCES | EAFNOSUPPORT | EAGAIN | EBADF | ECONNREFUSED | ECONNRESET | EDESTADDRREQ
  | EEXIST | EINTR | EINVAL | EISCONN | EISDIR | EMLINK | EMSGSIZE | ENFILE | ENOENT
  | ENOMEM | ENOSYS | ENOTCONN | ENOTDIR | ENOTEMPTY | ENOTSOCK | ENOTTY | EOPNOTSUPP
  | EPIPE | EPROTONOSUPPORT | EPROTOTYPE | EROFS | ESRCH | ETIMEDOUT
  deriving DecidableEq, Repr

/-- Two's complement wrap-around to 32 bits. -/
def wrap32 (x : ℤ) : ℤ := Int.bmod x (2 ^ 32)

theorem wrap32_of_fits {x : ℤ} (hlo : -2 ^ 31 ≤ x) (hhi : x < 2 ^ 31) : wrap32 x = x := by
  unfold wrap32
  apply Int.bmod_eq_of_le_mul_two <;> push_cast <;> omega

/-- The upper half of the unsigned values becomes negative. -/
theorem wrap32_of_large {x : ℤ} (hlo : 2 ^ 31 ≤ x) (hhi : x < 2 ^ 32) : wrap32 x = x - 2 ^ 32 := by
  unfold wrap32
  rw [← Int.sub_bmod_right]
  apply Int.bmod_eq_of_le_mul_two <;> push_cast <;> omega

/-! ## `struct timespec` -/

/-- `struct timespec`. -/
structure Timespec where
  tvSec : ℤ
  tvNsec : ℤ
  deriving DecidableEq, Repr

def nsecsInSec : ℤ := 1000000000

/-- `INT_MAX`, which is also `LONG_MAX` on the target. -/
def intMax : ℤ := 2147483647

def timespecZero : Timespec := ⟨0, 0⟩

def timespecInfinity : Timespec := ⟨intMax, intMax⟩

/-- `timespec_add`: the sum stored in `dst`. -/
def timespecAdd (t1 t2 : Timespec) : Timespec :=
  let sec := wrap32 (t1.tvSec + t2.tvSec)
  let nsec := wrap32 (t1.tvNsec + t2.tvNsec)
  if nsec ≥ nsecsInSec then ⟨wrap32 (sec + 1), wrap32 (nsec - nsecsInSec)⟩
  else ⟨sec, nsec⟩

/-- `timespec_diff`: the value stored in `diff` and the value returned. -/
def timespecDiff (toT fromT : Timespec) : Timespec × ℤ :=
  let nsec := wrap32 (toT.tvNsec - fromT.tvNsec)
  let sec := wrap32 (toT.tvSec - fromT.tvSec)
  let d : Timespec :=
    if nsec < 0 then ⟨wrap32 (sec - 1), wrap32 (nsec + nsecsInSec)⟩ else ⟨sec, nsec⟩
  (d, if d.tvSec = 0 then d.tvNsec else d.tvSec)

/-- `struct timeval`. -/
structure Timeval where
  tvSec : ℤ
  tvUsec : ℤ
  deriving DecidableEq, Repr

def usecsInSec : ℤ := 1000000

/-- `timespec_to_timeval`: the value stored in `dst`; the division truncates. -/
def timespecToTimeval (src : Timespec) : Timeval :=
  ⟨src.tvSec, src.tvNsec.tdiv (nsecsInSec / usecsInSec)⟩

/-- `timeval_to_timespec`: the value stored in `dst`. -/
def timevalToTimespec (src : Timeval) : Timespec :=
  ⟨src.tvSec, wrap32 (src.tvUsec * (nsecsInSec / usecsInSec))⟩

end Nucleo
