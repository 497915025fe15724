/-
# Waiting for a signal

`sigtimedwait`, `sigwaitinfo` and `sigwait` of `signal.c`.  A wait polls the queue, and reads
the monotonic clock after each poll that found nothing.  Its local variable `ret` is given a
value where the time has run out and nowhere else, so what it holds when the call begins is an
argument here.

The clock readings and what other code does with the queue before each poll are an input.
A round of the loop depends on nothing but its number, so a wait is the first round that ends
it (`sigtimedwait_eq_some_iff`), and the rest is about one round: what a poll finds is the
earliest queued member of the set, and the time runs out when it is over and not before.
-/
import Nucleo.Lib.Retry
import Nucleo.Signal
import Nucleo.TimespecAlgebra

namespace Nucleo

namespace Signal

open Timespec Retry

/-! ## The code -/

/-- What a wait depends on: the calls on the queue since reset, the readings of the monotonic
clock, the first of which is the start of the wait, and the calls on the queue before each
poll. -/
structure Scene where
  past : List QueueCall
  clock : ℕ → Timespec
  calls : ℕ → List QueueCall

/-- What a wait returns, the content of `*info` and the state then; and, for reference, the
number of the last poll and what it took. -/
structure Waited (Q : Type) where
  ret : ℤ
  info : SigInfo
  state : SigState Q
  last : ℕ
  taken : Option SigInfo

section Code

variable {Q : Type} (I : QueueImpl Q) (m : Scene) (set : SigSet)

/-- The loop of `sigtimedwait` with poll number `k`; the numeral that decreases bounds the
polls. -/
def sigtimedwaitLoop (timeout start : Timespec) (ret : ℤ) (info : SigInfo) :
    ℕ → ℕ → SigState Q → Option (Waited Q)
  | 0, _, _ => none
  | fuel + 1, k, s =>
      match signalDequeue I set (execCalls I s (m.calls k)).2 with
      | (some i, s) => some ⟨ret, i, s, k, some i⟩
      | (none, s) =>
          let now := m.clock (k + 1)
          let elapsed := (timespecDiff now start).1
          if (timespecDiff timeout elapsed).2 ≤ 0 then
            some ⟨-1, info, { s with errno := some .EAGAIN }, k, none⟩
          else sigtimedwaitLoop timeout start ret info fuel (k + 1) s

/-- `sigtimedwait`; `ret` is what its local variable of that name holds when it begins. -/
def sigtimedwait (timeout : Timespec) (ret : ℤ) (info : SigInfo) (fuel : ℕ) (s : SigState Q) :
    Option (Waited Q) :=
  sigtimedwaitLoop I m set timeout (m.clock 0) ret info fuel 0 s

/-- `sigwaitinfo`. -/
def sigwaitinfo (ret : ℤ) (info : SigInfo) (fuel : ℕ) (s : SigState Q) : Option (Waited Q) :=
  sigtimedwait I m set timespecInfinity ret info fuel s

/-- `sigwait`: the value returned, the content of `*sig` and the state; `info` is what its
local variable of that name holds when it begins. -/
def sigwait (sig ret : ℤ) (info : SigInfo) (fuel : ℕ) (s : SigState Q) :
    Option (ℤ × ℤ × SigState Q) :=
  (sigwaitinfo I m set ret info fuel s).map fun r =>
    (r.ret, if r.ret = 0 then r.info.siSigno else sig, r.state)

end Code

/-! ## Rounds -/

namespace Scene

variable (m : Scene)

/-- The calls on the queue before poll number `k`, without those just before it. -/
def history : ℕ → List QueueCall
  | 0 => m.past
  | k + 1 => history k ++ m.calls k

/-- The state after those calls. -/
def stateAt (k : ℕ) : SigState SignalQueue :=
  (execCalls arrayQueue (SigState.zero arrayQueue) (m.history k)).2

/-- The signals queued after those calls, in the order in which they were queued. -/
def queued (k : ℕ) : List SigInfo := (boundedListCalls [] (m.history k)).2

/-- Poll number `k` finds a member of the set. -/
def Found (set : SigSet) (k : ℕ) : Prop :=
  ∃ i, (m.stateAt (k + 1)).queue.candidate set i = true

/-- The time has run out when the clock is read after poll number `k`. -/
def Expired (timeout : Timespec) (k : ℕ) : Prop :=
  (timespecDiff timeout (timespecDiff (m.clock (k + 1)) (m.clock 0)).1).2 ≤ 0

instance (timeout : Timespec) (k : ℕ) : Decidable (m.Expired timeout k) :=
  inferInstanceAs (Decidable (_ ≤ _))

/-- The time from the start to the reading after poll number `k`. -/
def elapsed (k : ℕ) : ℤ := (m.clock (k + 1)).nanos - (m.clock 0).nanos

/-- Some poll finds a member of the set, and the time has not run out before. -/
def Arrives (set : SigSet) (timeout : Timespec) : Prop :=
  ∃ k, m.Found set k ∧ ∀ j < k, ¬ m.Expired timeout j

end Scene

section Rounds

variable (m : Scene) (set : SigSet) (timeout : Timespec) (ret : ℤ) (info : SigInfo)

/-- How round number `k` ends the wait, if it does. -/
def round (k : ℕ) : Option (Waited SignalQueue) :=
  match signalDequeue arrayQueue set (m.stateAt (k + 1)) with
  | (some i, s) => some ⟨ret, i, s, k, some i⟩
  | (none, s) =>
      if m.Expired timeout k then some ⟨-1, info, { s with errno := some .EAGAIN }, k, none⟩
      else none

variable {m set timeout ret info}

/-- Two lists of calls are made one after the other. -/
theorem execCalls_append {Q : Type} (I : QueueImpl Q) (s : SigState Q) (cs cs' : List QueueCall) :
    (execCalls I s (cs ++ cs')).2 = (execCalls I (execCalls I s cs).2 cs').2 := by
  induction cs generalizing s with
  | nil => rfl
  | cons c cs ih => exact ih (c.exec I s).2

/-- A poll finds what the calls before it have left. -/
theorem Scene.stateAt_succ (m : Scene) (k : ℕ) :
    m.stateAt (k + 1) = (execCalls arrayQueue (m.stateAt k) (m.calls k)).2 :=
  execCalls_append arrayQueue _ _ _

/-- A poll that finds nothing leaves the state alone, so what the next one starts from does
not depend on there having been one. -/
theorem sigtimedwaitLoop_eq (fuel k : ℕ) :
    sigtimedwaitLoop arrayQueue m set timeout (m.clock 0) ret info fuel k (m.stateAt k)
      = attempts (round m set timeout ret info) fuel k := by
  induction fuel generalizing k with
  | zero => rfl
  | succ fuel ih =>
      unfold sigtimedwaitLoop attempts round
      rw [← m.stateAt_succ]
      cases hdeq : arrayQueue.dequeue set (m.stateAt (k + 1)).queue with
      | some r =>
          obtain ⟨i, q⟩ := r
          rw [signalDequeue_of_some hdeq]
      | none =>
          rw [signalDequeue_of_none hdeq]
          dsimp only
          by_cases hexp : m.Expired timeout k
          · rw [if_pos hexp]
            exact if_pos hexp
          · rw [if_neg hexp]
            exact (if_neg hexp).trans (ih (k + 1))

/-- **A wait is the first round that ends it.** -/
theorem sigtimedwait_eq_some_iff {fuel : ℕ} {r : Waited SignalQueue} :
    sigtimedwait arrayQueue m set timeout ret info fuel (m.stateAt 0) = some r
      ↔ ∃ k < fuel, FirstAt (round m set timeout ret info) k r := by
  unfold sigtimedwait
  rw [sigtimedwaitLoop_eq, attempts_eq_some_iff]

/-! ### One round -/

/-- A poll takes a signal exactly when it finds one. -/
theorem dequeue_of_found {k : ℕ} (h : m.Found set k) :
    ∃ i q, arrayQueue.dequeue set (m.stateAt (k + 1)).queue = some (i, q) := by
  cases hdeq : arrayQueue.dequeue set (m.stateAt (k + 1)).queue with
  | some r => exact ⟨r.1, r.2, rfl⟩
  | none =>
      obtain ⟨i, hi⟩ := h
      rw [SignalQueue.dequeue_eq_none _ hdeq i] at hi
      cases hi

/-- A poll that finds nothing takes nothing. -/
theorem dequeue_of_not_found {k : ℕ} (h : ¬ m.Found set k) :
    arrayQueue.dequeue set (m.stateAt (k + 1)).queue = none := by
  cases hdeq : arrayQueue.dequeue set (m.stateAt (k + 1)).queue with
  | none => rfl
  | some r =>
      obtain ⟨i, hi, -⟩ := SignalQueue.dequeue_cases _ hdeq
      exact absurd ⟨i, hi⟩ h

/-- A round that finds a signal ends the wait. -/
theorem round_of_found {k : ℕ} (h : m.Found set k) :
    ∃ i s, ∀ (timeout : Timespec) (ret : ℤ) (info : SigInfo),
      round m set timeout ret info k = some ⟨ret, i, s, k, some i⟩ := by
  obtain ⟨i, q, hdeq⟩ := dequeue_of_found h
  refine ⟨i, { m.stateAt (k + 1) with queue := q }, fun timeout ret info => ?_⟩
  unfold round
  rw [signalDequeue_of_some hdeq]

/-- Another one ends it when the time has run out. -/
theorem round_of_not_found {k : ℕ} (h : ¬ m.Found set k) :
    round m set timeout ret info k
      = if m.Expired timeout k then
          some ⟨-1, info, { m.stateAt (k + 1) with errno := some .EAGAIN }, k, none⟩
        else none := by
  unfold round
  rw [signalDequeue_of_none (dequeue_of_not_found h)]

/-- A round that does not end the wait has found nothing in time. -/
theorem round_eq_none_iff {k : ℕ} :
    round m set timeout ret info k = none ↔ ¬ m.Found set k ∧ ¬ m.Expired timeout k := by
  by_cases hfound : m.Found set k
  · obtain ⟨i, s, hround⟩ := round_of_found hfound
    rw [hround timeout ret info]
    constructor
    · intro h
      cases h
    · intro h
      exact absurd hfound h.1
  · rw [round_of_not_found hfound]
    by_cases hexp : m.Expired timeout k
    · rw [if_pos hexp]
      constructor
      · intro h
        cases h
      · intro h
        exact absurd hexp h.2
    · rw [if_neg hexp]
      exact ⟨fun _ => ⟨hfound, hexp⟩, fun _ => rfl⟩

/-- The two ways in which a round ends the wait. -/
theorem round_cases {k : ℕ} {r : Waited SignalQueue}
    (h : round m set timeout ret info k = some r) :
    (m.Found set k ∧ ∃ i s, signalDequeue arrayQueue set (m.stateAt (k + 1)) = (some i, s) ∧
        r = ⟨ret, i, s, k, some i⟩) ∨
      m.Expired timeout k ∧
        r = ⟨-1, info, { m.stateAt (k + 1) with errno := some .EAGAIN }, k, none⟩ := by
  by_cases hfound : m.Found set k
  · left
    obtain ⟨i, q, hdeq⟩ := dequeue_of_found hfound
    unfold round at h
    rw [signalDequeue_of_some hdeq] at h
    exact ⟨hfound, i, _, signalDequeue_of_some hdeq, (Option.some.inj h).symm⟩
  · right
    rw [round_of_not_found hfound] at h
    by_cases hexp : m.Expired timeout k
    · rw [if_pos hexp] at h
      exact ⟨hexp, (Option.some.inj h).symm⟩
    · rw [if_neg hexp] at h
      cases h

end Rounds

/-! ## The time -/

/-- The readings of a clock that does not go back. -/
structure Readings (clock : ℕ → Timespec) : Prop where
  reading : ∀ k, (clock k).Reading
  mono : ∀ j k, j ≤ k → (clock j).Le (clock k)

/-- A time-out: a time with nanoseconds that are a fraction of a second, or the infinite
time. -/
def IsTimeout (t : Timespec) : Prop := t.Value ∨ t = timespecInfinity

section Time

variable {m : Scene} (hclock : Readings m.clock)

include hclock

/-- Time does not go back. -/
theorem elapsed_nonneg (k : ℕ) : 0 ≤ m.elapsed k := by
  obtain ⟨-, -, -, hhi⟩ := hclock.reading 0
  obtain ⟨-, -, hlo, -⟩ := hclock.reading (k + 1)
  have hle := hclock.mono 0 (k + 1) (Nat.zero_le _)
  unfold nsecsInSec at hhi
  unfold Timespec.Le at hle
  unfold Scene.elapsed nanos
  omega

/-- It fits into the seconds. -/
theorem elapsed_lt (k : ℕ) : m.elapsed k < 2 ^ 31 * 1000000000 := by
  obtain ⟨hslo, -, hnlo, -⟩ := hclock.reading 0
  obtain ⟨-, hshi, -, hnhi⟩ := hclock.reading (k + 1)
  unfold intMax at hshi
  unfold nsecsInSec at hnhi
  unfold Scene.elapsed nanos
  omega

/-- The elapsed time is computed without a wrap, and is itself what a clock can show. -/
theorem reading_elapsed (k : ℕ) :
    (timespecDiff (m.clock (k + 1)) (m.clock 0)).1.Reading ∧
      (timespecDiff (m.clock (k + 1)) (m.clock 0)).1.nanos = m.elapsed k := by
  have hlo := elapsed_nonneg hclock k
  have hhi := elapsed_lt hclock k
  obtain ⟨hval, hnanos⟩ := diff_of_fits (hclock.reading (k + 1)).normalised
    (hclock.reading 0).normalised (show SecsFit (m.elapsed k) by unfold SecsFit; omega)
  have hsec := hval.sec_eq
  rw [hnanos] at hsec
  unfold Scene.elapsed at hlo hhi
  refine ⟨⟨by omega, ?_, hval.normalised⟩, hnanos⟩
  unfold intMax
  omega

/-- The infinite time does not run out. -/
theorem not_expired_infinity (k : ℕ) : ¬ m.Expired timespecInfinity k :=
  not_le.2 (diff_of_infinity_pos (reading_elapsed hclock k).1)

/-- **The time runs out no earlier than it is over.**  A time-out before zero may be too far
from the elapsed time for a 32-bit difference; that it is over says its sign. -/
theorem le_elapsed_of_expired {timeout : Timespec} (htimeout : IsTimeout timeout) {k : ℕ}
    (h : m.Expired timeout k) : timeout.nanos ≤ m.elapsed k := by
  obtain ⟨hread, hnanos⟩ := reading_elapsed hclock k
  have hlo := elapsed_nonneg hclock k
  have hhi := elapsed_lt hclock k
  rcases htimeout with hval | rfl
  · by_cases hneg : timeout.nanos < 0
    · omega
    · have hfits := hval.secsFit
      obtain ⟨-, -, hpos⟩ := diff_sign hval.normalised hread.normalised
        (show SecsFit (timeout.nanos - _) by rw [hnanos]; unfold SecsFit at hfits ⊢; omega)
      rw [hnanos] at hpos
      exact not_lt.1 fun hlt => absurd (hpos.2 hlt) (not_lt.2 h)
  · exact absurd h (not_expired_infinity hclock k)

/-- A time-out that is not before zero runs out once it is over. -/
theorem expired_of_le_elapsed {timeout : Timespec} (hval : timeout.Value)
    (hnonneg : 0 ≤ timeout.nanos) {k : ℕ} (h : timeout.nanos ≤ m.elapsed k) :
    m.Expired timeout k := by
  obtain ⟨hread, hnanos⟩ := reading_elapsed hclock k
  have hhi := elapsed_lt hclock k
  obtain ⟨-, -, hpos⟩ := diff_sign hval.normalised hread.normalised
    (show SecsFit (timeout.nanos - _) by rw [hnanos]; unfold SecsFit; omega)
  rw [hnanos] at hpos
  exact not_lt.1 fun hlt => absurd (hpos.1 hlt) (not_lt.2 h)

end Time

/-! ## The signal -/

/-- What the calls do to the list. -/
theorem execCalls_listQueue (t : SigState (StampedQueue SigInfo)) (cs : List QueueCall) :
    (execCalls listQueue t cs).2.queue.contents = (boundedListCalls t.queue.contents cs).2 := by
  induction cs generalizing t with
  | nil => rfl
  | cons c cs ih =>
      have hone := (exec_listQueue t c).2
      simp only [execCalls, boundedListCalls]
      rw [ih, hone]

/-- **A poll takes the earliest queued member of the set**, and takes one if there is one. -/
theorem poll_eq_find {m : Scene} {k : ℕ} (hlegal : ∀ c ∈ m.history k, c.Legal)
    (hfresh : StaysFresh (SigState.zero listQueue) (m.history k)) (set : SigSet) :
    (signalDequeue arrayQueue set (m.stateAt k)).1 = (m.queued k).find? (inSet set) := by
  have hsim := (sim_zero.execCalls hlegal hfresh).2
  have hlast := hfresh (m.history k).length
  rw [List.take_length] at hlast
  rw [show (signalDequeue arrayQueue set (m.stateAt k)).1 = _ from (hsim.signalDequeue hlast set).1]
  have hans := (exec_listQueue (execCalls listQueue (SigState.zero listQueue) (m.history k)).2
    (.signalDequeue set)).1
  rw [execCalls_listQueue] at hans
  exact Answer.taken.inj hans

/-! ## What is expected of a wait -/

/-- A wait that has returned: it succeeds exactly when it took a signal, which is the earliest
queued one of the set and is stored through `info`; else it fails with EAGAIN, the queue is as
other code left it, and the time-out has elapsed. -/
structure Meets (m : Scene) (set : SigSet) (timeout : Timespec) (r : Waited SignalQueue) :
    Prop where
  success : r.ret = 0 ↔ r.taken.isSome = true
  earliest : ∀ i, r.taken = some i →
    (m.queued (r.last + 1)).find? (inSet set) = some i ∧ r.info = i
  failure : r.ret ≠ 0 → r.ret = -1 ∧ r.state.errno = some .EAGAIN ∧
    r.state.queue = (m.stateAt (r.last + 1)).queue ∧ timeout.nanos ≤ m.elapsed r.last

/-- Every return of `sigtimedwait` is as expected, and the value returned does not depend on
what `ret` holds when the call begins. -/
def SigtimedwaitMeets (m : Scene) (set : SigSet) (timeout : Timespec) : Prop :=
  ∀ (ret : ℤ) (info : SigInfo) (fuel : ℕ) (r : Waited SignalQueue),
    sigtimedwait arrayQueue m set timeout ret info fuel (m.stateAt 0) = some r →
      Meets m set timeout r ∧
      ∀ ret' : ℤ, (sigtimedwait arrayQueue m set timeout ret' info fuel (m.stateAt 0)).map
        Waited.ret = some r.ret

/-- Every return of `sigwaitinfo` is as expected, and `sigwait` reports the same signal. -/
def SigwaitMeets (m : Scene) (set : SigSet) : Prop :=
  ∀ (ret : ℤ) (info : SigInfo) (fuel : ℕ) (r : Waited SignalQueue),
    sigwaitinfo arrayQueue m set ret info fuel (m.stateAt 0) = some r →
      Meets m set timespecInfinity r ∧
      ∀ (i : SigInfo) (sig ret' : ℤ) (info' : SigInfo), r.taken = some i →
        sigwait arrayQueue m set sig ret' info' fuel (m.stateAt 0)
          = some (0, i.siSigno, r.state)

section Settled

variable {m : Scene} {set : SigSet} {timeout : Timespec}

/-- The round in which the time runs out is as expected. -/
theorem meets_of_expired (hclock : Readings m.clock) (htimeout : IsTimeout timeout) {k : ℕ}
    (hexp : m.Expired timeout k) (info : SigInfo) :
    Meets m set timeout
      ⟨-1, info, { m.stateAt (k + 1) with errno := some .EAGAIN }, k, none⟩ where
  success := by
    constructor
    · intro h
      cases h
    · intro h
      cases h
  earliest := by
    intro i h
    cases h
  failure := fun _ => ⟨rfl, rfl, rfl, le_elapsed_of_expired hclock htimeout hexp⟩

/-- Where no signal arrives, a wait ends because the time has run out. -/
theorem expired_of_firstAt {ret : ℤ} {info : SigInfo} (hnone : ¬ m.Arrives set timeout) {k : ℕ}
    {r : Waited SignalQueue} (h : FirstAt (round m set timeout ret info) k r) :
    m.Expired timeout k ∧
      r = ⟨-1, info, { m.stateAt (k + 1) with errno := some .EAGAIN }, k, none⟩ := by
  rcases round_cases h.result with ⟨hfound, -⟩ | hexpired
  · refine absurd ⟨k, hfound, fun j hj => ?_⟩ hnone
    exact (round_eq_none_iff.1 (h.before j hj)).2
  · exact hexpired

/-- A signal that arrives ends the wait with the value that `ret` held when it began. -/
theorem returned_of_arrives (h : m.Arrives set timeout) :
    ∃ k i s, ∀ (ret : ℤ) (info : SigInfo) (fuel : ℕ), k < fuel →
      sigtimedwait arrayQueue m set timeout ret info fuel (m.stateAt 0)
        = some ⟨ret, i, s, k, some i⟩ := by
  classical
  obtain ⟨k, hfound, hbefore⟩ := h
  -- the first poll that finds a signal
  have hex : ∃ k, m.Found set k := ⟨k, hfound⟩
  have hle : Nat.find hex ≤ k := Nat.find_min' hex hfound
  obtain ⟨i, s, hround⟩ := round_of_found (Nat.find_spec hex)
  refine ⟨Nat.find hex, i, s, fun ret info fuel hfuel => ?_⟩
  refine sigtimedwait_eq_some_iff.2 ⟨Nat.find hex, hfuel, fun j hj => ?_, hround timeout ret info⟩
  exact round_eq_none_iff.2 ⟨Nat.find_min hex hj, hbefore j (by omega)⟩

/-! ### If the value were set -/

/-- **With `ret` at zero a wait is as expected**, also when it takes a signal: nothing else is
wrong with it.  The signals queued have numbers in range, and the order counter has not gone
half way round while one stays queued. -/
theorem meets_of_ret_zero (hclock : Readings m.clock) (htimeout : IsTimeout timeout)
    (hlegal : ∀ k, ∀ c ∈ m.history k, c.Legal)
    (hfresh : ∀ k, StaysFresh (SigState.zero listQueue) (m.history k)) {info : SigInfo}
    {fuel : ℕ} {r : Waited SignalQueue}
    (h : sigtimedwait arrayQueue m set timeout 0 info fuel (m.stateAt 0) = some r) :
    Meets m set timeout r := by
  obtain ⟨k, -, hfirst⟩ := sigtimedwait_eq_some_iff.1 h
  rcases round_cases hfirst.result with ⟨-, i, s, hpoll, rfl⟩ | ⟨hexp, rfl⟩
  · constructor
    · exact ⟨fun _ => rfl, fun _ => rfl⟩
    · intro j hj
      cases hj
      have hfind := poll_eq_find (hlegal (k + 1)) (hfresh (k + 1)) set
      rw [hpoll] at hfind
      exact ⟨hfind.symm, rfl⟩
    · intro hne
      exact absurd rfl hne
  · exact meets_of_expired hclock htimeout hexp info

/-- With `ret` at zero `sigwait` reports the signal that `sigwaitinfo` takes. -/
theorem sigwait_of_ret_zero {info info' : SigInfo} {fuel : ℕ} {r : Waited SignalQueue}
    {i : SigInfo} (hclock : Readings m.clock)
    (h : sigwaitinfo arrayQueue m set 0 info fuel (m.stateAt 0) = some r)
    (htaken : r.taken = some i) (sig : ℤ) :
    sigwait arrayQueue m set sig 0 info' fuel (m.stateAt 0) = some (0, i.siSigno, r.state) := by
  obtain ⟨k, hk, hfirst⟩ := sigtimedwait_eq_some_iff.1 h
  rcases round_cases hfirst.result with ⟨-, j, s, hpoll, rfl⟩ | ⟨hexp, -⟩
  · cases htaken
    have hfirst' : FirstAt (round m set timespecInfinity 0 info') k ⟨0, i, s, k, some i⟩ := by
      refine ⟨fun j hj => round_eq_none_iff.2 (round_eq_none_iff.1 (hfirst.before j hj)), ?_⟩
      unfold round
      rw [hpoll]
    unfold sigwait sigwaitinfo
    rw [sigtimedwait_eq_some_iff.2 ⟨k, hk, hfirst'⟩]
    rfl
  · exact absurd hexp (not_expired_infinity hclock k)

/-- **A wait ends** once a signal of the set is queued or the time is over. -/
theorem sigtimedwait_returns (hclock : Readings m.clock) (hval : timeout.Value)
    (hnonneg : 0 ≤ timeout.nanos) {k : ℕ} (hend : m.Found set k ∨ timeout.nanos ≤ m.elapsed k)
    (ret : ℤ) (info : SigInfo) {fuel : ℕ} (hfuel : k < fuel) :
    ∃ r, sigtimedwait arrayQueue m set timeout ret info fuel (m.stateAt 0) = some r := by
  have hne : round m set timeout ret info k ≠ none := by
    rw [ne_eq, round_eq_none_iff]
    rintro ⟨hfound, hexp⟩
    rcases hend with hk | hk
    · exact hfound hk
    · exact hexp (expired_of_le_elapsed hclock hval hnonneg hk)
  obtain ⟨j, hj, r, hfirst⟩ := exists_firstAt hne
  exact ⟨r, sigtimedwait_eq_some_iff.2 ⟨j, by omega, hfirst⟩⟩

/-- When a signal arrives some return is not as expected: `ret` may hold another value than
zero when the call begins. -/
theorem exists_not_meets (h : m.Arrives set timeout) :
    ∃ ret info fuel r, sigtimedwait arrayQueue m set timeout ret info fuel (m.stateAt 0) = some r ∧
      ¬ Meets m set timeout r := by
  obtain ⟨k, i, s, hreturned⟩ := returned_of_arrives h
  refine ⟨1, i, k + 1, _, hreturned 1 i (k + 1) (Nat.lt_succ_self k), fun hmeets => ?_⟩
  have hzero := hmeets.success.2 rfl
  cases hzero

/-- **A wait that nothing ends is as expected**. -/
theorem sigtimedwaitMeets_of_not_arrives (hclock : Readings m.clock)
    (htimeout : IsTimeout timeout) (h : ¬ m.Arrives set timeout) :
    SigtimedwaitMeets m set timeout := by
  intro ret info fuel r hr
  obtain ⟨k, hk, hfirst⟩ := sigtimedwait_eq_some_iff.1 hr
  obtain ⟨hexp, rfl⟩ := expired_of_firstAt h hfirst
  refine ⟨meets_of_expired hclock htimeout hexp info, fun ret' => ?_⟩
  -- the round does not read `ret`
  have hfirst' : FirstAt (round m set timeout ret' info) k
      ⟨-1, info, { m.stateAt (k + 1) with errno := some .EAGAIN }, k, none⟩ := by
    refine ⟨fun j hj => round_eq_none_iff.2 (round_eq_none_iff.1 (hfirst.before j hj)), ?_⟩
    have hfound : ¬ m.Found set k := fun hfound =>
      h ⟨k, hfound, fun j hj => (round_eq_none_iff.1 (hfirst.before j hj)).2⟩
    rw [round_of_not_found hfound, if_pos hexp]
  rw [sigtimedwait_eq_some_iff.2 ⟨k, hk, hfirst'⟩]
  rfl

/-- **`sigtimedwait` is right exactly when it times out.**  For every history of the queue,
every set, every time-out and all readings of a clock that does not go back, and whatever
other code does with the queue meanwhile: `sigtimedwait` is as expected exactly when no poll
before the time has run out finds a member of the set, and `sigwaitinfo` and `sigwait` are
exactly when no poll ever does, so that they do not return.  A signal that is taken leaves
the value returned undefined. -/
theorem sigtimedwait_meets_iff (set : SigSet) (hclock : Readings m.clock)
    (htimeout : IsTimeout timeout) :
    (SigtimedwaitMeets m set timeout ↔ ¬ m.Arrives set timeout) ∧
      (SigwaitMeets m set ↔ ∀ k, ¬ m.Found set k) := by
  constructor
  · constructor
    · intro hmeets harrives
      obtain ⟨ret, info, fuel, r, hr, hnot⟩ := exists_not_meets harrives
      exact hnot (hmeets ret info fuel r hr).1
    · exact sigtimedwaitMeets_of_not_arrives hclock htimeout
  · constructor
    · intro hmeets k hfound
      have harrives : m.Arrives set timespecInfinity :=
        ⟨k, hfound, fun j _ => not_expired_infinity hclock j⟩
      obtain ⟨ret, info, fuel, r, hr, hnot⟩ := exists_not_meets harrives
      exact hnot (hmeets ret info fuel r hr).1
    · intro hnone ret info fuel r hr
      obtain ⟨k, -, hfirst⟩ := sigtimedwait_eq_some_iff.1 hr
      have harrives : ¬ m.Arrives set timespecInfinity := fun ⟨k, hfound, _⟩ => hnone k hfound
      exact absurd (expired_of_firstAt harrives hfirst).1 (not_expired_infinity hclock k)

end Settled

/-! ### Two waits -/

/-- A queued signal that is not waited for, and a clock that has gone on by a second when it is
read again. -/
def secondScene : Scene :=
  ⟨[.sigqueueInfo ⟨2, 1, 1, 0⟩], fun k => if k = 0 then ⟨0, 0⟩ else ⟨1, 0⟩, fun _ => []⟩

theorem Scene.history_of_no_calls {m : Scene} (h : ∀ k, m.calls k = []) (k : ℕ) :
    m.history k = m.past := by
  induction k with
  | zero => rfl
  | succ k ih =>
      show m.history k ++ m.calls k = m.past
      rw [ih, h k, List.append_nil]

/-- That signal is not found. -/
theorem not_found_secondScene (k : ℕ) : ¬ secondScene.Found 1#32 k := by
  rintro ⟨i, hi⟩
  unfold Scene.stateAt at hi
  rw [Scene.history_of_no_calls (fun _ => rfl)] at hi
  have hnone : ∀ i, (execCalls arrayQueue (SigState.zero arrayQueue)
      [.sigqueueInfo ⟨2, 1, 1, 0⟩]).2.queue.candidate 1#32 i = false := by decide +kernel
  have hpast : secondScene.past = [.sigqueueInfo ⟨2, 1, 1, 0⟩] := rfl
  rw [hpast, hnone i] at hi
  cases hi

/-- The clock of the example goes on. -/
theorem readings_secondScene : Readings secondScene.clock := by
  refine ⟨fun k => ?_, fun j k hjk => ?_⟩
  · cases k with
    | zero => exact (⟨by decide, by decide, by decide, by decide⟩ : Timespec.Reading ⟨0, 0⟩)
    | succ k => exact (⟨by decide, by decide, by decide, by decide⟩ : Timespec.Reading ⟨1, 0⟩)
  · cases k with
    | zero =>
        rw [Nat.le_zero.1 hjk]
        exact Timespec.Le.refl _
    | succ k =>
        cases j with
        | zero => exact (Or.inl (by decide) : Timespec.Le ⟨0, 0⟩ ⟨1, 0⟩)
        | succ j => exact Timespec.Le.refl _

/-- A wait of a second that nothing ends. -/
theorem sigtimedwait_meets_iff_second :
    SigtimedwaitMeets secondScene 1#32 ⟨1, 0⟩ ∧ SigwaitMeets secondScene 1#32 := by
  have hiff := sigtimedwait_meets_iff 1#32 readings_secondScene
    (Or.inl ⟨⟨by decide, by decide⟩, by decide, by decide⟩ : IsTimeout ⟨1, 0⟩)
  exact ⟨hiff.1.2 fun ⟨k, hfound, _⟩ => not_found_secondScene k hfound,
    hiff.2.2 not_found_secondScene⟩

/-- A signal that is queued before the wait begins. -/
def queuedScene : Scene := ⟨[.sigqueueInfo ⟨1, 1, 1, 0⟩], fun _ => ⟨0, 0⟩, fun _ => []⟩

/-- The wait takes it and returns what `ret` holds: 7, or 0; `sigwait` takes it and does not
report it. -/
theorem sigtimedwait_success_undefined :
    (∀ ret : ℤ, (sigtimedwait arrayQueue queuedScene 1#32 ⟨1, 0⟩ ret ⟨0, 0, 0, 0⟩ 1
        (queuedScene.stateAt 0)).map (fun r => (r.ret, r.taken))
      = some (ret, some ⟨1, 1, 1, 0⟩)) ∧
    (sigwait arrayQueue queuedScene 1#32 0 7 ⟨0, 0, 0, 0⟩ 1 (queuedScene.stateAt 0)).map
        (fun w => (w.1, w.2.1)) = some (7, 0) ∧
      ¬ SigtimedwaitMeets queuedScene 1#32 ⟨1, 0⟩ := by
  have hpoll : (signalDequeue arrayQueue 1#32 (queuedScene.stateAt 1)).1
      = some ⟨1, 1, 1, 0⟩ := by decide +kernel
  have hreturned : ∀ ret : ℤ, sigtimedwait arrayQueue queuedScene 1#32 ⟨1, 0⟩ ret ⟨0, 0, 0, 0⟩ 1
      (queuedScene.stateAt 0) = some ⟨ret, ⟨1, 1, 1, 0⟩,
        (signalDequeue arrayQueue 1#32 (queuedScene.stateAt 1)).2, 0, some ⟨1, 1, 1, 0⟩⟩ := by
    intro ret
    refine sigtimedwait_eq_some_iff.2 ⟨0, Nat.one_pos, fun j hj => ?_, ?_⟩
    · exact absurd hj (Nat.not_lt_zero j)
    unfold round
    rw [show signalDequeue arrayQueue 1#32 (queuedScene.stateAt (0 + 1)) = (some ⟨1, 1, 1, 0⟩, _)
      from Prod.ext hpoll rfl]
  refine ⟨fun ret => ?_, by decide +kernel, fun hmeets => ?_⟩
  · rw [hreturned ret]
    rfl
  · have hzero := (hmeets 7 _ 1 _ (hreturned 7)).1.success.2 rfl
    cases hzero

end Signal

end Nucleo
