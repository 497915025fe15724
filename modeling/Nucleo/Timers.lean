/-
# Timers

The table of `timers.c`, the creation of a timer and what an expired timer does: notify as
its `struct sigevent` says, then move its next expiration or disarm it.  The clock reading
that the source takes with `clock_gettime` is an argument.
-/
import Nucleo.SignalCalls
import Nucleo.Clock

namespace Nucleo

namespace Timer

open Signal

/-! ## The table -/

/-- `SIGEV_NONE`, `SIGEV_SIGNAL`, `SIGEV_THREAD` and every other value of `sigev_notify`. -/
inductive SigevNotify
  | none | signal | thread
  | other (notify : ℤ)
  deriving DecidableEq, Repr

/-- `struct sigevent`, without its thread attributes and its function. -/
structure Sigevent where
  sigevNotify : SigevNotify
  sigevSigno : ℤ
  sigevValue : BitVec 32
  deriving DecidableEq, Repr

/-- `struct itimerspec`. -/
structure Itimerspec where
  itInterval : Timespec
  itValue : Timespec
  deriving DecidableEq, Repr

/-- `struct sys_timer`, without the `flags` that nothing reads. -/
structure SysTimer where
  timerid : ℤ
  clockid : ClockId
  sevp : Sigevent
  value : Itimerspec
  overrun : ℤ
  deriving DecidableEq, Repr

/-- `TIMER_MAX`. -/
def timerMax : ℕ := 32

/-- `SIGALRM`. -/
def sigalrm : ℤ := 14

/-- `SI_TIMER`. -/
def siTimer : ℤ := 3

/-- A table entry of zeros. -/
def zeroTimer : SysTimer :=
  ⟨0, .other, ⟨.none, 0, 0⟩, ⟨timespecZero, timespecZero⟩, 0⟩

/-- The static `sys_timers`. -/
abbrev SysTimers := Fin timerMax → SysTimer

/-- `sys_td2timerid`. -/
def sysTd2timerid (td : Fin timerMax) : ℤ := td.val + 1

/-- `sys_timer_isallocated`. -/
def sysTimerIsallocated (t : SysTimers) (td : Fin timerMax) : Bool := decide ((t td).timerid ≠ 0)

/-- `sys_timer_alloc`: the first free entry, cleared and given its identifier. -/
def sysTimerAlloc (t : SysTimers) : Option (Fin timerMax × SysTimers) :=
  ((List.finRange timerMax).find? fun td => !sysTimerIsallocated t td).map fun td =>
    (td, Function.update t td { zeroTimer with timerid := sysTd2timerid td })

/-- `timer_create`: the error, or the identifier stored and the new table. -/
def timerCreate (clockid : ClockId) (sevp : Option Sigevent) (t : SysTimers) :
    Except Errno (ℤ × SysTimers) :=
  if clockid = .monotonic ∨ clockid = .realtime then
    match sysTimerAlloc t with
    | none => .error .EAGAIN
    | some (td, t) =>
      let timerid := (t td).timerid
      let sevp := sevp.getD ⟨.signal, sigalrm, BitVec.ofInt 32 timerid⟩
      .ok (timerid, Function.update t td { t td with clockid, sevp })
  else .error .EINVAL

/-! ## Expiration -/

/-- The re-arming half of `timer_expired`, at the time `now`. -/
def SysTimer.rearm (now : Timespec) (t : SysTimer) : SysTimer :=
  if (timespecDiff t.value.itInterval timespecZero).2 > 0 then
    { t with value := { t.value with itValue := timespecAdd now t.value.itInterval } }
  else { t with value := { t.value with itValue := timespecZero } }

/-- The notifying half: what `sigqueue_info` returned, which the source drops, or zero
where it is not called.  What a notification function does is up to the program. -/
def SysTimer.notify {Q : Type} (I : QueueImpl Q) (t : SysTimer) (s : SigState Q) :
    ℤ × SigState Q :=
  match t.sevp.sigevNotify with
  | .signal => sigqueueInfo I ⟨t.sevp.sigevSigno, siTimer, 0, t.sevp.sigevValue⟩ s
  | .none | .thread | .other _ => (0, s)

/-- `timer_expired`. -/
def timerExpired {Q : Type} (I : QueueImpl Q) (td : Fin timerMax) (now : Timespec)
    (t : SysTimers) (s : SigState Q) : ℤ × SysTimers × SigState Q :=
  let (ret, s) := (t td).notify I s
  (ret, Function.update t td ((t td).rearm now), s)

end Timer

end Nucleo
