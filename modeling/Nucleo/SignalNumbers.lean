/-
# The numbers of queued signals

Four producers put signals into the queue: `kill`, `raise`, `sigqueue` and an expiring
timer.  None of them looks at the number beyond its being zero, where `sigaction` has the
range check.  The consumer shifts by the number less one and indexes `signal_actions` by
it, long after the call.

`runSafe_iff` says for which runs every queued number stays in range and every other one
is refused.
-/
import Nucleo.Timers

namespace Nucleo

namespace Timer

open Signal

/-! ## The machine -/

/-- The signal state and the table of timers. -/
structure System where
  sig : SigState SignalQueue
  timers : SysTimers

/-- A call of a producer or of another function of the signal library, the creation of a
timer, the expiration of one, or a dequeue by `pend_sv_handler` or a waiting call. -/
inductive Event
  | call (c : SigCall)
  | create (clockid : ClockId) (sevp : Option Sigevent)
  | expire (td : Fin timerMax) (now : Timespec)
  | dequeue (set : SigSet)
  deriving DecidableEq, Repr

/-- One event: the value returned, and the state after it. -/
def System.step (s : System) : Event → ℤ × System
  | .call c =>
    let (ret, sig) := c.exec arrayQueue s.sig
    (ret, { s with sig })
  | .create clockid sevp =>
    match timerCreate clockid sevp s.timers with
    | .error e => (-1, { s with sig := { s.sig with errno := some e } })
    | .ok (_, timers) => (0, { s with timers })
  | .expire td now =>
    let (ret, timers, sig) := timerExpired arrayQueue td now s.timers s.sig
    (ret, ⟨sig, timers⟩)
  | .dequeue set =>
    match signalDequeue arrayQueue set s.sig with
    | (none, sig) => (-1, { s with sig })
    | (some _, sig) => (0, { s with sig })

/-- The number that a call asks to be queued. -/
def numberOfCall : SigCall → Option ℤ
  | .kill _ sig => some sig
  | .raise sig => some sig
  | .sigqueue _ sig _ => some sig
  | .sighold _ | .sigrelse _ | .sigprocmask _ _ => none

/-- The number that an expiring timer asks to be queued. -/
def numberOfTimer (t : SysTimer) : Option ℤ :=
  match t.sevp.sigevNotify with
  | .signal => some t.sevp.sigevSigno
  | .none | .thread | .other _ => none

/-- The number that an event asks to be queued. -/
def System.number (s : System) : Event → Option ℤ
  | .call c => numberOfCall c
  | .expire td _ => numberOfTimer (s.timers td)
  | .create _ _ | .dequeue _ => none

/-! ## What the consumer relies on -/

/-- Every queued number is in range: `sigmask` shifts by 0 to 31 and `signal_act` indexes
one of the `SIGNAL_MAX + 1` elements of `signal_actions`. -/
def QueueSafe (q : SignalQueue) : Prop :=
  ∀ i, q.occupied i = true →
    IsSignal (q.items i).info.siSigno ∧
    0 ≤ (q.items i).info.siSigno - 1 ∧ (q.items i).info.siSigno - 1 ≤ 31 ∧
    0 ≤ (q.items i).info.siSigno ∧ (q.items i).info.siSigno < signalMax + 1

theorem queueSafe_iff (q : SignalQueue) : QueueSafe q ↔ QueuedLegal q := by
  constructor
  · intro h i hi
    exact (h i hi).1
  · intro h i hi
    have hsig : IsSignal (q.items i).info.siSigno := h i hi
    have hlo : 1 ≤ (q.items i).info.siSigno := hsig.1
    have hhi : (q.items i).info.siSigno ≤ 32 := hsig.2
    unfold signalMax
    exact ⟨hsig, by omega, by omega, by omega, by omega⟩

/-- A call that fails with `EINVAL` and leaves the queue as it was. -/
def Refused (s : System) (r : ℤ × System) : Prop :=
  r.1 = -1 ∧ r.2.sig.errno = some .EINVAL ∧ r.2.sig.queue = s.sig.queue

/-- In every state of the run the queue is safe, and every number out of range is refused. -/
def RunSafe (s : System) : List Event → Prop
  | [] => QueueSafe s.sig.queue
  | e :: es =>
    QueueSafe s.sig.queue ∧
    (∀ sig, s.number e = some sig → ¬ IsSignal sig → Refused s (s.step e)) ∧
    RunSafe (s.step e).2 es

/-- Every number that an event of the run asks to be queued is in range. -/
def RunLegal (s : System) : List Event → Prop
  | [] => True
  | e :: es => (∀ sig, s.number e = some sig → IsSignal sig) ∧ RunLegal (s.step e).2 es

/-! ## One event -/

section Step

variable {s : System}

/-- No producer fails with `EINVAL`: the queue is full, or the process is another. -/
theorem errno_sigqueueInfo {t : SigState SignalQueue} {info : SigInfo}
    (h : (sigqueueInfo arrayQueue info t).1 = -1) :
    (sigqueueInfo arrayQueue info t).2.errno = some .EAGAIN := by
  cases hq : t.queue.enqueue info with
  | none => rw [sigqueueInfo_of_none (I := arrayQueue) hq]
  | some q =>
    rw [sigqueueInfo_of_some (I := arrayQueue) hq] at h
    cases h

theorem not_refused_of_errno {r : ℤ × System} {e : Errno} (he : e ≠ .EINVAL)
    (h : r.1 = -1 → r.2.sig.errno = some e) : ¬ Refused s r := by
  rintro ⟨hret, heinval, -⟩
  rw [h hret] at heinval
  exact he (Option.some.inj heinval)

/-- `kill` and `sigqueue` refuse other processes, and queue every number but zero. -/
def postUnless (refuse : Prop) [Decidable refuse] (sig : ℤ) (info : SigInfo)
    (t : SigState SignalQueue) : ℤ × SigState SignalQueue :=
  if refuse then (-1, { t with errno := some .ESRCH })
  else if sig ≠ 0 then sigqueueInfo arrayQueue info t
  else (0, t)

theorem not_refused_postUnless (refuse : Prop) [Decidable refuse] (sig : ℤ) (info : SigInfo)
    (timers : SysTimers) :
    ¬ Refused s ((postUnless refuse sig info s.sig).1,
      ⟨(postUnless refuse sig info s.sig).2, timers⟩) := by
  unfold postUnless
  by_cases hrefuse : refuse
  · rw [if_pos hrefuse]
    exact not_refused_of_errno (e := .ESRCH) (by decide) fun _ => rfl
  · rw [if_neg hrefuse]
    by_cases hzero : sig ≠ 0
    · rw [if_pos hzero]
      exact not_refused_of_errno (by decide) errno_sigqueueInfo
    · rw [if_neg hzero]
      rintro ⟨hret, -, -⟩
      cases hret

theorem not_refused_kill (pid sig : ℤ) : ¬ Refused s (s.step (.call (.kill pid sig))) :=
  not_refused_postUnless (pid ≠ getpid ∧ pid > 0) sig ⟨sig, siUser, getpid, 0⟩ s.timers

theorem not_refused_sigqueue (pid sig : ℤ) (value : BitVec 32) :
    ¬ Refused s (s.step (.call (.sigqueue pid sig value))) :=
  not_refused_postUnless (pid ≠ getpid) sig ⟨sig, siQueue, 0, value⟩ s.timers

/-- **No event that asks for a signal is refused for its number.** -/
theorem not_refused {e : Event} {sig : ℤ} (h : s.number e = some sig) :
    ¬ Refused s (s.step e) := by
  cases e with
  | call c =>
    cases c with
    | kill pid sig => exact not_refused_kill pid sig
    | raise sig => exact not_refused_kill getpid sig
    | sigqueue pid sig value => exact not_refused_sigqueue pid sig value
    | sighold sig => cases h
    | sigrelse sig => cases h
    | sigprocmask how set => cases h
  | create clockid sevp => cases h
  | dequeue set => cases h
  | expire td now =>
    have hnotify : (s.timers td).sevp.sigevNotify = .signal := by
      have hnum : numberOfTimer (s.timers td) = some sig := h
      unfold numberOfTimer at hnum
      cases hn : (s.timers td).sevp.sigevNotify <;> rw [hn] at hnum <;> first | rfl | cases hnum
    show ¬ Refused s (((s.timers td).notify arrayQueue s.sig).1,
      ⟨((s.timers td).notify arrayQueue s.sig).2, _⟩)
    unfold SysTimer.notify
    rw [hnotify]
    exact not_refused_of_errno (by decide) errno_sigqueueInfo

/-! ### What stays queued -/

theorem queuedLegal_exec {c : SigCall} (h : QueuedLegal s.sig.queue)
    (hc : ∀ sig, numberOfCall c = some sig → IsSignal sig) :
    QueuedLegal (c.exec arrayQueue s.sig).2.queue := by
  have heff : Effect arrayQueue s.sig (c.exec arrayQueue s.sig).2 := by
    cases c with
    | kill pid sig => exact effect_kill (hc sig rfl)
    | raise sig => exact effect_kill (hc sig rfl)
    | sigqueue pid sig value => exact effect_sigqueue (hc sig rfl)
    | sighold sig => exact effect_sigholdrel .sigBlock sig
    | sigrelse sig => exact effect_sigholdrel .sigUnblock sig
    | sigprocmask how set => exact effect_sigprocmask how set
  cases hs : (c.exec arrayQueue s.sig).2 with
  | mk q mask pendsv err =>
    rw [hs] at heff
    cases heff with
    | queued hsig hq => exact queuedLegal_enqueue h hsig hq
    | remasked => exact h
    | masked => exact h

/-- **A legal event keeps the queue legal.** -/
theorem queuedLegal_step {e : Event} (h : QueuedLegal s.sig.queue)
    (he : ∀ sig, s.number e = some sig → IsSignal sig) :
    QueuedLegal (s.step e).2.sig.queue := by
  cases e with
  | call c => exact queuedLegal_exec h he
  | create clockid sevp =>
    simp only [System.step]
    cases timerCreate clockid sevp s.timers with
    | error e => exact h
    | ok r => exact h
  | expire td now =>
    show QueuedLegal ((s.timers td).notify arrayQueue s.sig).2.queue
    have hnum : ∀ sig, numberOfTimer (s.timers td) = some sig → IsSignal sig := he
    unfold numberOfTimer at hnum
    unfold SysTimer.notify
    cases hn : (s.timers td).sevp.sigevNotify with
    | signal =>
      rw [hn] at hnum
      exact queuedLegal_sigqueueInfo h (hnum _ rfl)
    | none => exact h
    | thread => exact h
    | other n => exact h
  | dequeue set =>
    simp only [System.step]
    have hkept := h.fewer (fewer_signalDequeue s.sig set)
    cases hq : signalDequeue arrayQueue set s.sig with
    | mk taken sig =>
      rw [hq] at hkept
      cases taken <;> exact hkept

end Step

/-! ## Runs -/

/-- **Which runs keep the queue safe**: those that ask only for numbers in range. -/
theorem runSafe_iff_of_queuedLegal {s : System} (h : QueuedLegal s.sig.queue) (es : List Event) :
    RunSafe s es ↔ RunLegal s es := by
  induction es generalizing s with
  | nil => exact ⟨fun _ => trivial, fun _ => (queueSafe_iff _).mpr h⟩
  | cons e es ih =>
    constructor
    · rintro ⟨-, href, hrest⟩
      -- an event out of range would have to be refused, and none ever is
      have hlegal : ∀ sig, s.number e = some sig → IsSignal sig := by
        intro sig hnum
        by_contra hout
        exact not_refused hnum (href sig hnum hout)
      exact ⟨hlegal, (ih (queuedLegal_step h hlegal)).mp hrest⟩
    · rintro ⟨hlegal, hrest⟩
      refine ⟨(queueSafe_iff _).mpr h, ?_, (ih (queuedLegal_step h hlegal)).mpr hrest⟩
      intro sig hnum hout
      exact absurd (hlegal sig hnum) hout

/-- The signal state at reset, with any table of timers. -/
def System.boot (timers : SysTimers) : System := ⟨SigState.zero arrayQueue, timers⟩

/-- **The queue holds only signals exactly in the runs that are given only signals.** -/
theorem runSafe_iff (timers : SysTimers) (es : List Event) :
    RunSafe (System.boot timers) es ↔ RunLegal (System.boot timers) es :=
  runSafe_iff_of_queuedLegal queuedLegal_zero es

/-- `kill` of the own process with number 33 returns 0, and 33 is queued. -/
theorem not_runSafe_kill :
    ((System.boot fun _ => zeroTimer).step (.call (.kill 1 33))).1 = 0 ∧
      (((System.boot fun _ => zeroTimer).step (.call (.kill 1 33))).2.sig.queue.items
        ⟨0, by decide⟩).info.siSigno = 33 ∧
      ¬ RunSafe (System.boot fun _ => zeroTimer) [.call (.kill 1 33)] := by
  refine ⟨by decide, by decide, ?_⟩
  intro h
  exact absurd (h.2.2 ⟨0, by decide⟩ (by decide)).1 (by decide)

end Timer

end Nucleo
