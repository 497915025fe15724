/-
# Polling until a deadline

The loop of `poll` around the passes of `poll_tentative`.  What a call finds is an input: the
clock readings and, for each pass, what the drivers answer.

A pass stores what it finds in `revents` and nothing puts that back, but what a pass finds does
not depend on `revents` (`pollOne_revents`).  So the passes can be numbered as if each started
from the array that was passed, and a call ends with the first pass that decides
(`pollLoop_eq`).
-/
import Nucleo.Select

namespace Nucleo

namespace Select

open W5100

/-- What a call of `poll` finds: what the first clock reading leaves in `tcurrent`, and for each
pass the clock reading before it, if `clock_gettime` does not fail, and the answers of the
drivers. -/
structure PollInput where
  start : Timespec
  clock : ℕ → Option Timespec
  drivers : ℕ → Drivers

/-- `timeout_ts`; the division is that of C. -/
def timeoutTs (timeout : ℤ) : Timespec :=
  let tvSec := timeout.tdiv 1000
  let timeout := timeout - tvSec * 1000
  ⟨tvSec, timeout * (nsecsInSec / 1000)⟩

/-- `tend`. -/
def PollInput.tend (i : PollInput) (timeout : ℤ) : Timespec :=
  if timeout = -1 then timespecInfinity else timespecAdd i.start (timeoutTs timeout)

/-- How a call ends: the value returned and the array as it is left. -/
inductive PollOutcome
  | waiting
  | returned (ret : ℤ) (fds : List Pollfd)
  deriving DecidableEq, Repr

/-- The loop of `poll` from pass `k` on; the first argument bounds the passes. -/
def pollLoop (i : PollInput) (tend : Timespec) : ℕ → ℕ → List Pollfd → PollOutcome
  | 0, _, _ => .waiting
  | fuel + 1, k, fds =>
      match i.clock k with
      | none => .returned (-1) fds
      | some tcurrent =>
          let r := pollTentative (i.drivers k) fds
          if r.1 ≠ 0 then .returned r.1 r.2
          else if 0 ≤ (timespecDiff tcurrent tend).2 then .returned r.1 r.2
          else pollLoop i tend fuel (k + 1) r.2

/-- `poll`; the clock is not read where the timeout is 0. -/
def poll (i : PollInput) (fds : List Pollfd) (timeout : ℤ) (fuel : ℕ) : PollOutcome :=
  if timeout = 0 then
    let r := pollTentative (i.drivers 0) fds
    .returned r.1 r.2
  else pollLoop i (i.tend timeout) fuel 0 fds

/-! ## One pass -/

section OnePass

variable (drivers : Drivers)

/-- A descriptor is counted. -/
def pollReady (p : Pollfd) : Bool := decide ((pollOne drivers p).1.toInt > 0)

/-- What a structure asks for. -/
def Pollfd.asked (p : Pollfd) : ℤ × BitVec 16 := (p.fd, p.events)

/-- The events that are reported of an answer: those asked for, and the three that always are. -/
def reported (drivers : Drivers) (p : Pollfd) : BitVec 16 :=
  pollAnswer drivers p.fd &&& (p.events ||| (pollHup ||| pollErr ||| pollNval))

/-- What polling finds does not depend on `revents`. -/
theorem pollOne_revents {p p' : Pollfd} (h : p'.asked = p.asked) :
    (pollOne drivers p').1 = (pollOne drivers p).1 := by
  obtain ⟨hfd, hev⟩ := Prod.mk.inj h
  unfold pollOne
  rw [hfd, hev]
  dsimp only
  split_ifs <;> rfl

theorem asked_pollOne (p : Pollfd) : (pollOne drivers p).2.asked = p.asked := by
  unfold pollOne
  dsimp only
  split_ifs <;> rfl

/-- An answer that is not negative is stored. -/
theorem pollOne_of_nonneg {p : Pollfd} (h : 0 ≤ (pollAnswer drivers p.fd).toInt) :
    pollOne drivers p = (reported drivers p, { p with revents := reported drivers p }) := by
  unfold pollOne
  dsimp only
  rw [if_pos h]
  rfl

theorem reported_nonneg {p : Pollfd} (h : 0 ≤ (pollAnswer drivers p.fd).toInt) :
    0 ≤ (reported drivers p).toInt := by
  have hmsb : (reported drivers p).msb = false := by
    unfold reported
    rw [BitVec.msb_and, BitVec.msb_eq_toInt, decide_eq_false (by omega), Bool.false_and]
  rw [BitVec.msb_eq_toInt] at hmsb
  exact not_lt.1 (of_decide_eq_false hmsb)

/-- A descriptor whose driver answers is counted when an event is reported. -/
theorem pollReady_iff {p : Pollfd} (h : 0 ≤ (pollAnswer drivers p.fd).toInt) :
    pollReady drivers p = true ↔ reported drivers p ≠ 0 := by
  have hpos := reported_nonneg drivers h
  unfold pollReady
  rw [pollOne_of_nonneg drivers h, decide_eq_true_iff]
  dsimp only
  have hzero : (reported drivers p).toInt = 0 ↔ reported drivers p = 0 := by
    rw [← BitVec.toInt_inj]
    rfl
  rw [ne_eq, ← hzero]
  omega

theorem pollTentativeLoop_eq (fds : List Pollfd) (n : ℤ) :
    pollTentativeLoop drivers fds n
      = (n + fds.countP (pollReady drivers), fds.map fun p => (pollOne drivers p).2) := by
  induction fds generalizing n with
  | nil => rw [List.countP_nil, Nat.cast_zero, add_zero]; rfl
  | cons p fds ih =>
      unfold pollTentativeLoop
      dsimp only
      rw [if_neg (pollOne_ne drivers p), ih, List.countP_cons, List.map_cons]
      unfold pollReady
      by_cases hready : (pollOne drivers p).1.toInt > 0
      · rw [if_pos hready, if_pos (decide_eq_true hready), Nat.cast_add, Nat.cast_one, add_assoc,
          add_comm (1 : ℤ)]
      · rw [if_neg hready, decide_eq_false hready, if_neg Bool.false_ne_true, add_zero]

/-- **A pass** polls every descriptor and counts the ready ones; it never fails. -/
theorem pollTentative_eq (fds : List Pollfd) :
    pollTentative drivers fds
      = (((fds.countP (pollReady drivers) : ℕ) : ℤ), fds.map fun p => (pollOne drivers p).2) := by
  unfold pollTentative
  rw [pollTentativeLoop_eq, zero_add]

/-- The count depends on what is asked for only. -/
theorem countP_pollReady_congr {fds fds' : List Pollfd}
    (h : fds'.map Pollfd.asked = fds.map Pollfd.asked) :
    fds'.countP (pollReady drivers) = fds.countP (pollReady drivers) := by
  induction fds' generalizing fds with
  | nil =>
      rw [List.map_nil] at h
      rw [List.map_eq_nil_iff.1 h.symm]
  | cons p' fds' ih =>
      cases fds with
      | nil => cases h
      | cons p fds =>
          rw [List.map_cons, List.map_cons] at h
          obtain ⟨hhead, htail⟩ := List.cons.inj h
          rw [List.countP_cons, List.countP_cons, ih htail]
          unfold pollReady
          rw [pollOne_revents drivers hhead]

end OnePass

/-! ## The passes -/

section Passes

variable (i : PollInput) (fds : List Pollfd)

/-- The array before pass `k`, if there is one. -/
def fdsAt : ℕ → List Pollfd
  | 0 => fds
  | k + 1 => (pollTentative (i.drivers k) (fdsAt k)).2

theorem fdsAt_succ (k : ℕ) :
    fdsAt i fds (k + 1) = (fdsAt i fds k).map fun p => (pollOne (i.drivers k) p).2 := by
  show (pollTentative (i.drivers k) (fdsAt i fds k)).2 = _
  rw [pollTentative_eq]

/-- What is asked for stays. -/
theorem asked_fdsAt (k : ℕ) : (fdsAt i fds k).map Pollfd.asked = fds.map Pollfd.asked := by
  induction k with
  | zero => rfl
  | succ k ih =>
      rw [fdsAt_succ, List.map_map, ← ih]
      exact List.map_congr_left fun p _ => asked_pollOne (i.drivers k) p

/-- The descriptors that pass `k` counts. -/
def readyCount (k : ℕ) : ℕ := fds.countP (pollReady (i.drivers k))

theorem pollTentative_fdsAt (k : ℕ) :
    pollTentative (i.drivers k) (fdsAt i fds k) = ((readyCount i fds k : ℤ), fdsAt i fds (k + 1)) := by
  rw [pollTentative_eq, fdsAt_succ, countP_pollReady_congr (i.drivers k) (asked_fdsAt i fds k)]
  rfl

/-- What pass `k` decides. -/
def pollRound (tend : Timespec) (k : ℕ) : Option (ℤ × List Pollfd) :=
  match i.clock k with
  | none => some (-1, fdsAt i fds k)
  | some tcurrent =>
      if readyCount i fds k ≠ 0 ∨ 0 ≤ (timespecDiff tcurrent tend).2 then
        some ((readyCount i fds k : ℤ), fdsAt i fds (k + 1))
      else none

/-- **The loop is the search for the first pass that decides.** -/
theorem pollLoop_eq (tend : Timespec) (fuel k : ℕ) :
    pollLoop i tend fuel k (fdsAt i fds k)
      = match Retry.attempts (pollRound i fds tend) fuel k with
        | some r => .returned r.1 r.2
        | none => .waiting := by
  induction fuel generalizing k with
  | zero => rfl
  | succ fuel ih =>
      unfold pollLoop Retry.attempts
      rw [pollTentative_fdsAt]
      unfold pollRound
      cases i.clock k with
      | none => rfl
      | some tcurrent =>
          dsimp only
          by_cases hready : readyCount i fds k = 0
          · rw [if_neg (by rw [hready]; decide)]
            by_cases hexp : 0 ≤ (timespecDiff tcurrent tend).2
            · rw [if_pos hexp, if_pos (Or.inr hexp)]
            · rw [if_neg hexp, if_neg (not_or.2 ⟨not_not.2 hready, hexp⟩)]
              exact ih (k + 1)
          · rw [if_pos (by omega), if_pos (Or.inl hready)]

end Passes

/-! ## The end of the wait -/

section End

variable {timeout : ℤ}

/-- A timeout that is not negative, as a time. -/
theorem timeoutTs_spec (hpos : 0 ≤ timeout) (hmax : timeout ≤ intMax) :
    (timeoutTs timeout).Normalised ∧ 0 ≤ (timeoutTs timeout).tvSec ∧
      (timeoutTs timeout).tvSec ≤ intMax ∧ (timeoutTs timeout).nanos = timeout * 1000000 := by
  have hdiv : timeout.tdiv 1000 = timeout / 1000 := Int.tdiv_eq_ediv_of_nonneg hpos
  unfold timeoutTs Timespec.Normalised Timespec.nanos nsecsInSec
  unfold intMax at hmax ⊢
  dsimp only
  rw [hdiv]
  omega

/-- A timeout that is negative ends before the wait begins, while the seconds of the clock leave
room for the difference. -/
theorem reached_of_neg {start t : Timespec} (hneg : timeout < 0) (hmin : -2 ^ 31 ≤ timeout)
    (hstart : start.Reading) (ht : t.Reading) (hle : start.Le t)
    (hroom : t.tvSec + 2147484 ≤ intMax) :
    0 ≤ (timespecDiff t (timespecAdd start (timeoutTs timeout))).2 := by
  -- the division truncates towards zero, so both parts of the deadline move back
  obtain ⟨m, u, hdiv, hmlo, hmhi, hulo, huhi⟩ : ∃ m u : ℤ, timeoutTs timeout = ⟨-m, -u⟩ ∧
      0 ≤ m ∧ m ≤ 2147483 ∧ 0 ≤ u ∧ u < 1000000000 := by
    have hquot : timeout.tdiv 1000 = -(-timeout / 1000) := by
      rw [← Int.tdiv_eq_ediv_of_nonneg (by omega), Int.neg_tdiv, neg_neg]
    refine ⟨-timeout / 1000, (-timeout - -timeout / 1000 * 1000) * 1000000, ?_, ?_⟩
    · unfold timeoutTs nsecsInSec
      dsimp only
      rw [hquot]
      congr 1
      omega
    · omega
  obtain ⟨hslo, hshi, hnlo, hnhi⟩ := hstart
  obtain ⟨hslo', hshi', hnlo', hnhi'⟩ := ht
  unfold Timespec.Le at hle
  unfold nsecsInSec at hnhi hnhi'
  unfold intMax at hroom hshi hshi'
  have hend : timespecAdd start (timeoutTs timeout) = ⟨start.tvSec - m, start.tvNsec - u⟩ := by
    unfold timespecAdd nsecsInSec
    rw [hdiv]
    dsimp only
    rw [wrap32_of_fits (x := start.tvNsec + -u) (by omega) (by omega),
      wrap32_of_fits (x := start.tvSec + -m) (by omega) (by omega), if_neg (by omega)]
    rfl
  rw [hend]
  unfold timespecDiff nsecsInSec
  dsimp only
  rw [wrap32_of_fits (x := t.tvNsec - (start.tvNsec - u)) (by omega) (by omega),
    wrap32_of_fits (x := t.tvSec - (start.tvSec - m)) (by omega) (by omega)]
  -- the nanoseconds may need a borrow
  by_cases hborrow : t.tvNsec - (start.tvNsec - u) < 0
  · rw [if_pos hborrow,
      wrap32_of_fits (x := t.tvSec - (start.tvSec - m) - 1) (by omega) (by omega),
      wrap32_of_fits (x := t.tvNsec - (start.tvNsec - u) + 1000000000) (by omega) (by omega)]
    dsimp only
    split_ifs <;> omega
  · rw [if_neg hborrow]
    dsimp only
    split_ifs <;> omega

/-- The readings are times of a clock that does not go back before the first one. -/
structure PollInput.Steady (i : PollInput) : Prop where
  start : i.start.Reading
  reading : ∀ k t, i.clock k = some t → t.Reading ∧ i.start.Le t

/-- The wait is over at pass `k`: at once for a timeout of 0, and never for -1. -/
def PollInput.Over (i : PollInput) (timeout : ℤ) (k : ℕ) : Prop :=
  timeout = 0 ∨ timeout ≠ -1 ∧
    ∃ t, i.clock k = some t ∧ i.start.nanos + timeout * 1000000 ≤ t.nanos

/-- The arguments of a call, and the room that the clock leaves for a negative timeout. -/
structure PollInput.Sound (i : PollInput) (timeout : ℤ) : Prop where
  steady : i.Steady
  min : -2 ^ 31 ≤ timeout
  max : timeout ≤ intMax
  room : timeout < -1 → ∀ k t, i.clock k = some t → t.tvSec + 2147484 ≤ intMax

/-- **The comparison with `tend`** is the true one. -/
theorem PollInput.Sound.reached_iff {i : PollInput} (h : i.Sound timeout) (hne : timeout ≠ 0)
    {k : ℕ} {t : Timespec} (ht : i.clock k = some t) :
    0 ≤ (timespecDiff t (i.tend timeout)).2 ↔ i.Over timeout k := by
  obtain ⟨hread, hle⟩ := h.steady.reading k t ht
  have hover : i.Over timeout k
      ↔ timeout ≠ -1 ∧ i.start.nanos + timeout * 1000000 ≤ t.nanos := by
    unfold PollInput.Over
    rw [or_iff_right hne, ht]
    refine and_congr_right fun _ => ⟨?_, fun hend => ⟨t, rfl, hend⟩⟩
    rintro ⟨t', heq, hend⟩
    cases heq
    exact hend
  rw [hover]
  unfold PollInput.tend
  -- the deadline of an endless wait is never reached
  by_cases hinf : timeout = -1
  · rw [if_pos hinf]
    have hneg := Timespec.diff_infinity_neg hread
    exact iff_of_false (by omega) fun hand => hand.1 hinf
  · rw [if_neg hinf, and_iff_right hinf]
    by_cases hpos : 0 ≤ timeout
    · obtain ⟨hnorm, hsec, hmax, hnanos⟩ := timeoutTs_spec hpos h.max
      rw [Timespec.reached_iff h.steady.start hnorm hsec hmax hread hle, hnanos]
    · refine iff_of_true (reached_of_neg (not_le.1 hpos) h.min h.steady.start hread hle
        (h.room (by omega) k t ht)) ?_
      have hnanos : i.start.nanos ≤ t.nanos := by
        obtain ⟨-, -, -, hnhi⟩ := h.steady.start
        obtain ⟨-, -, hnlo, -⟩ := hread
        unfold nsecsInSec at hnhi
        unfold Timespec.Le at hle
        unfold Timespec.nanos
        omega
      omega

end End

/-! ## What is returned -/

section Returned

variable (i : PollInput) (fds : List Pollfd) (timeout : ℤ) (k : ℕ)

/-- The clock can be read before pass `k`, if it is read. -/
def PollInput.ClockWorks : Prop := timeout = 0 ∨ i.clock k ≠ none

/-- Pass `k` ends the call. -/
def PollDecides : Prop :=
  ¬ i.ClockWorks timeout k ∨ (∃ p ∈ fds, pollReady (i.drivers k) p = true) ∨ i.Over timeout k

/-- What a call leaves that pass `k` ends: what was asked for stays in place, and the rest is
what that pass found. -/
structure Polled (ret : ℤ) (fds' : List Pollfd) : Prop where
  asked : fds'.map Pollfd.asked = fds.map Pollfd.asked
  failed : ret = -1 ↔ ¬ i.ClockWorks timeout k
  counted : i.ClockWorks timeout k → ret = readyCount i fds k
  revents : i.ClockWorks timeout k → ∀ p ∈ fds', 0 ≤ (pollAnswer (i.drivers k) p.fd).toInt →
    p.revents = reported (i.drivers k) p
  /-- The count of POSIX, where the drivers answer with events. -/
  nonzero : i.ClockWorks timeout k → (∀ p ∈ fds, 0 ≤ (pollAnswer (i.drivers k) p.fd).toInt) →
    ret = fds'.countP fun p => p.revents ≠ 0
  zero : ret = 0 → i.Over timeout k

variable {i fds timeout k}

theorem readyCount_ne_zero_iff :
    readyCount i fds k ≠ 0 ↔ ∃ p ∈ fds, pollReady (i.drivers k) p = true := by
  unfold readyCount
  rw [← Nat.pos_iff_ne_zero, List.countP_pos_iff]

/-! ### One pass -/

/-- What a pass stores. -/
theorem revents_of_mem_fdsAt {p : Pollfd} (hp : p ∈ fdsAt i fds (k + 1))
    (hans : 0 ≤ (pollAnswer (i.drivers k) p.fd).toInt) :
    p.revents = reported (i.drivers k) p := by
  rw [fdsAt_succ] at hp
  obtain ⟨q, -, rfl⟩ := List.mem_map.1 hp
  have hfd : (pollOne (i.drivers k) q).2.fd = q.fd :=
    congrArg Prod.fst (asked_pollOne (i.drivers k) q)
  rw [hfd] at hans
  rw [pollOne_of_nonneg (i.drivers k) hans]
  rfl

/-- The structures with events are those that were counted. -/
theorem countP_revents (hans : ∀ p ∈ fds, 0 ≤ (pollAnswer (i.drivers k) p.fd).toInt) :
    (fdsAt i fds (k + 1)).countP (fun p => p.revents ≠ 0) = readyCount i fds k := by
  have hasked := asked_fdsAt i fds (k + 1)
  unfold readyCount
  rw [← countP_pollReady_congr (i.drivers k) hasked]
  refine List.countP_congr fun p hp => ?_
  have hfd : p.fd ∈ fds.map Pollfd.fd := by
    have hmem : p.asked ∈ fds.map Pollfd.asked := hasked ▸ List.mem_map_of_mem hp
    obtain ⟨q, hq, heq⟩ := List.mem_map.1 hmem
    exact List.mem_map.2 ⟨q, hq, congrArg Prod.fst heq⟩
  obtain ⟨q, hq, heq⟩ := List.mem_map.1 hfd
  have hansp : 0 ≤ (pollAnswer (i.drivers k) p.fd).toInt := heq ▸ hans q hq
  rw [decide_eq_true_iff, pollReady_iff (i.drivers k) hansp, revents_of_mem_fdsAt hp hansp]

/-- A pass that was made. -/
theorem polled_pass (hclock : i.ClockWorks timeout k)
    (hzero : readyCount i fds k = 0 → i.Over timeout k) :
    Polled i fds timeout k (readyCount i fds k) (fdsAt i fds (k + 1)) where
  asked := asked_fdsAt i fds (k + 1)
  failed := iff_of_false (by omega) fun h => h hclock
  counted _ := rfl
  revents _ _ hp hans := revents_of_mem_fdsAt hp hans
  nonzero _ hans := by rw [countP_revents hans]
  zero h := hzero (by omega)

theorem pollDecides_iff (h : i.Sound timeout) (hne : timeout ≠ 0) :
    PollDecides i fds timeout k ↔ pollRound i fds (i.tend timeout) k ≠ none := by
  unfold PollDecides PollInput.ClockWorks pollRound
  rw [or_iff_right hne, not_not]
  cases hclock : i.clock k with
  | none => exact iff_of_true (Or.inl rfl) (by dsimp only; exact Option.some_ne_none _)
  | some t =>
      dsimp only
      rw [or_iff_right (Option.some_ne_none t), ← readyCount_ne_zero_iff,
        ← h.reached_iff hne hclock]
      split_ifs with hdec
      · exact iff_of_true hdec (Option.some_ne_none _)
      · exact iff_of_false hdec (not_not.2 rfl)

/-- A pass that decides. -/
theorem polled_of_round (h : i.Sound timeout) (hne : timeout ≠ 0) {r : ℤ × List Pollfd}
    (hround : pollRound i fds (i.tend timeout) k = some r) : Polled i fds timeout k r.1 r.2 := by
  unfold pollRound at hround
  cases hclock : i.clock k with
  | none =>
      rw [hclock] at hround
      cases hround
      have hfails : ¬ i.ClockWorks timeout k := by
        rintro (hzero | hsome)
        · exact hne hzero
        · exact hsome hclock
      exact
        { asked := asked_fdsAt i fds k
          failed := iff_of_true rfl hfails
          counted := fun hworks => absurd hworks hfails
          revents := fun hworks => absurd hworks hfails
          nonzero := fun hworks => absurd hworks hfails
          zero := fun hzero => absurd (show (-1 : ℤ) = 0 from hzero) (by decide) }
  | some t =>
      rw [hclock] at hround
      dsimp only at hround
      split_ifs at hround with hdec
      cases hround
      refine polled_pass (Or.inr (by rw [hclock]; exact Option.some_ne_none t)) fun hzero => ?_
      exact (h.reached_iff hne hclock).1 (hdec.resolve_left (not_not.2 hzero))

/-- **`poll` ends with the first pass that decides**: that before which the clock cannot be read,
that finds a descriptor ready, or that begins when the wait is over.  It leaves what that pass
found, and a return of 0 is never early. -/
theorem poll_first_decision (h : i.Sound timeout) (fuel : ℕ) :
    (poll i fds timeout fuel = .waiting
      ↔ timeout ≠ 0 ∧ ∀ k < fuel, ¬ PollDecides i fds timeout k) ∧
    ∀ ret fds', poll i fds timeout fuel = .returned ret fds' →
      ∃ k, (∀ j < k, ¬ PollDecides i fds timeout j) ∧ PollDecides i fds timeout k ∧
        Polled i fds timeout k ret fds' := by
  unfold poll
  -- a timeout of 0 is one pass, without the clock
  by_cases hzero : timeout = 0
  · rw [if_pos hzero]
    have hover : i.Over timeout 0 := Or.inl hzero
    refine ⟨iff_of_false (by intro heq; cases heq) fun hw => hw.1 hzero, fun ret fds' hret => ?_⟩
    rw [show pollTentative (i.drivers 0) fds = _ from pollTentative_fdsAt i fds 0] at hret
    cases hret
    exact ⟨0, fun j hj => absurd hj (Nat.not_lt_zero j), Or.inr (Or.inr hover),
      polled_pass (Or.inl hzero) fun _ => hover⟩
  · rw [if_neg hzero, show pollLoop i (i.tend timeout) fuel 0 fds = _ from
      pollLoop_eq i fds (i.tend timeout) fuel 0]
    cases hatt : Retry.attempts (pollRound i fds (i.tend timeout)) fuel 0 with
    | none =>
        refine ⟨iff_of_true rfl ⟨hzero, fun k hk hdec => ?_⟩, fun ret fds' hret => by cases hret⟩
        obtain ⟨j, hj, r, hfirst⟩ := Retry.exists_firstAt ((pollDecides_iff h hzero).1 hdec)
        rw [Retry.attempts_eq_some_iff.2 ⟨j, by omega, hfirst⟩] at hatt
        cases hatt
    | some r =>
        obtain ⟨k, hk, hbefore, hround⟩ := Retry.attempts_eq_some_iff.1 hatt
        have hdec : PollDecides i fds timeout k := by
          rw [pollDecides_iff h hzero, hround]
          exact Option.some_ne_none r
        refine ⟨iff_of_false (by intro heq; cases heq) fun hw => hw.2 k hk hdec,
          fun ret fds' hret => ?_⟩
        cases hret
        refine ⟨k, fun j hj => ?_, hdec, polled_of_round h hzero hround⟩
        rw [pollDecides_iff h hzero, hbefore j hj]
        exact not_not.2 rfl

/-! ### A call of several passes -/

/-- Descriptor 3 can be read from the second pass on. -/
def laterReadable : PollInput where
  start := ⟨5, 0⟩
  clock _ := some ⟨7, 0⟩
  drivers k fd := if 0 < k ∧ fd = 3 then some pollIn else some 0

theorem poll_first_decision_laterReadable :
    poll laterReadable [⟨3, pollIn, pollHup⟩] (-1) 4 = .returned 1 [⟨3, pollIn, pollIn⟩] ∧
      ∃ k, PollDecides laterReadable [⟨3, pollIn, pollHup⟩] (-1) k ∧
        Polled laterReadable [⟨3, pollIn, pollHup⟩] (-1) k 1 [⟨3, pollIn, pollIn⟩] := by
  have hsound : laterReadable.Sound (-1) := by
    refine ⟨⟨⟨by decide, by decide, by decide, by decide⟩, fun k t ht => ?_⟩, by decide, by decide,
      fun hlt => absurd hlt (by decide)⟩
    cases ht
    exact ⟨⟨by decide, by decide, by decide, by decide⟩, Or.inl (by decide)⟩
  have hret : poll laterReadable [⟨3, pollIn, pollHup⟩] (-1) 4
      = .returned 1 [⟨3, pollIn, pollIn⟩] := by decide
  obtain ⟨k, -, hdec, hpolled⟩ := (poll_first_decision hsound 4).2 _ _ hret
  exact ⟨hret, k, hdec, hpolled⟩

end Returned

end Select

end Nucleo
