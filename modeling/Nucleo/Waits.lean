/-
# Waiting for a time

`clock_nanosleep_poll.c`, `nanosleep.c` and `sleep.c`: a loop that reads the clock until
the difference to the end of the wait is not positive.  The readings are an input; the end
is a 32-bit sum that may lie behind the last second that fits.
-/
import Nucleo.Select
import Nucleo.TimerIds

namespace Nucleo

namespace Waits

open Timespec Timer

/-! ## The code -/

/-- How a wait goes on: the value returned, the number of the last clock reading, and what
`*rmtp` holds if there is one. -/
inductive Wait
  | waiting
  | returned (ret : ℤ) (last : ℕ) (rmt : Option Timespec)
  deriving DecidableEq, Repr

/-- The loop of `clock_nanosleep` with reading number `k`, where `clock_gettime` makes one; the
first argument bounds the readings. -/
def clockNanosleepLoop (clock : ℕ → Option Timespec) (rqtp : Timespec) (rmt : Option Timespec) :
    ℕ → ℕ → Wait
  | 0, _ => .waiting
  | fuel + 1, k =>
      match clock k with
      | none => .returned (-1) k rmt
      | some tcurrent =>
          if (timespecDiff rqtp tcurrent).2 ≤ 0 then
            .returned 0 k (rmt.map fun _ => timespecZero)
          else clockNanosleepLoop clock rqtp rmt fuel (k + 1)

/-- `clock_nanosleep`, which reads the clock twice before a relative wait. -/
def clockNanosleep (clock : ℕ → Option Timespec) (flags : BitVec 32) (rqtp : Timespec)
    (rmt : Option Timespec) (fuel : ℕ) : Wait :=
  if flags &&& timerAbstime = 0 then
    match clock 1 with
    | none => .returned (-1) 1 rmt
    | some tcurrent => clockNanosleepLoop clock (timespecAdd tcurrent rqtp) rmt fuel 1
  else clockNanosleepLoop clock rqtp rmt fuel 0

/-- `nanosleep`; the clock is `CLOCK_MONOTONIC`. -/
def nanosleep (clock : ℕ → Option Timespec) (rqtp : Timespec) (rmt : Option Timespec)
    (fuel : ℕ) : Wait :=
  clockNanosleep clock 0 rqtp rmt fuel

/-- `sleep`; `rmt` is what its local variable of that name holds before. -/
def sleep (clock : ℕ → Option Timespec) (seconds : BitVec 32) (rmt : Timespec) (fuel : ℕ) : Wait :=
  let seconds := if (seconds.toNat : ℤ) > intMax then intMax else seconds.toNat
  match nanosleep clock ⟨seconds, 0⟩ (some rmt) fuel with
  | .waiting => .waiting
  | .returned _ last rmt' => .returned ((rmt'.getD rmt).tvSec % 2 ^ 32) last none

/-! ## The loop -/

/-- What a return is due to: a clock that cannot be read, or a reading that meets the end. -/
theorem loop_returned {clock : ℕ → Option Timespec} {rqtp : Timespec} {rmt rmt' : Option Timespec}
    {fuel k last : ℕ} {ret : ℤ}
    (h : clockNanosleepLoop clock rqtp rmt fuel k = .returned ret last rmt') :
    k ≤ last ∧ (clock last = none ∧ ret = -1 ∨
      ∃ t, clock last = some t ∧ (timespecDiff rqtp t).2 ≤ 0 ∧ ret = 0) := by
  induction fuel generalizing k with
  | zero => cases h
  | succ fuel ih =>
      unfold clockNanosleepLoop at h
      cases hclock : clock k with
      | none =>
          rw [hclock] at h
          cases h
          exact ⟨le_rfl, Or.inl ⟨hclock, rfl⟩⟩
      | some tcurrent =>
          rw [hclock] at h
          dsimp only at h
          split_ifs at h with hmet
          · cases h
            exact ⟨le_rfl, Or.inr ⟨tcurrent, hclock, hmet, rfl⟩⟩
          · obtain ⟨hle, hlast⟩ := ih h
            exact ⟨by omega, hlast⟩

/-- The loop ends at a reading that meets the end of the wait. -/
theorem returned_of_met {clock : ℕ → Option Timespec} {rqtp : Timespec} {rmt : Option Timespec}
    {fuel k last : ℕ} (hsome : ∀ j, (clock j).isSome = true) (hk : k ≤ last)
    (hfuel : last < k + fuel)
    (hmet : ∀ tcurrent, clock last = some tcurrent → (timespecDiff rqtp tcurrent).2 ≤ 0) :
    ∃ last', clockNanosleepLoop clock rqtp rmt fuel k
      = .returned 0 last' (rmt.map fun _ => timespecZero) := by
  induction fuel generalizing k with
  | zero => omega
  | succ fuel ih =>
      obtain ⟨tcurrent, hclock⟩ := Option.isSome_iff_exists.1 (hsome k)
      unfold clockNanosleepLoop
      rw [hclock]
      dsimp only
      by_cases hdiff : (timespecDiff rqtp tcurrent).2 ≤ 0
      · rw [if_pos hdiff]
        exact ⟨k, rfl⟩
      · rw [if_neg hdiff]
        have hne : k ≠ last := by
          rintro rfl
          exact hdiff (hmet tcurrent hclock)
        exact ih (by omega) (by omega)

/-! ## Waits that do not end early -/

/-- The readings of a clock that does not go back, where it can be read. -/
structure Steady (clock : ℕ → Option Timespec) : Prop where
  reading : ∀ k t, clock k = some t → t.Reading
  mono : ∀ j k t t', j ≤ k → clock j = some t → clock k = some t' → t.Le t'

/-- A time to wait. -/
structure Interval (t : Timespec) : Prop where
  normalised : t.Normalised
  sec_nonneg : 0 ≤ t.tvSec
  sec_le : t.tvSec ≤ intMax

/-- Reading number `last` is at or past the sum of number `first` and an interval. -/
def Past (clock : ℕ → Option Timespec) (first last : ℕ) (interval : Timespec) : Prop :=
  ∃ now t, clock first = some now ∧ clock last = some t ∧ now.nanos + interval.nanos ≤ t.nanos

/-- A relative wait returns at a reading past its end, or because the clock cannot be read. -/
theorem clockNanosleep_past {clock : ℕ → Option Timespec} (hclock : Steady clock)
    {flags : BitVec 32} (hflags : flags &&& timerAbstime = 0) {rqtp : Timespec}
    (hrqtp : Interval rqtp) {rmt rmt' : Option Timespec} {fuel last : ℕ} {ret : ℤ}
    (h : clockNanosleep clock flags rqtp rmt fuel = .returned ret last rmt') :
    Past clock 1 last rqtp ∨ clock last = none ∧ ret = -1 := by
  unfold clockNanosleep at h
  rw [if_pos hflags] at h
  cases hnow : clock 1 with
  | none =>
      rw [hnow] at h
      cases h
      exact Or.inr ⟨hnow, rfl⟩
  | some now =>
      rw [hnow] at h
      obtain ⟨hle, hfail | ⟨t, ht, hmet, -⟩⟩ := loop_returned h
      · exact Or.inr hfail
      · have hiff := met_iff (hclock.reading 1 now hnow) hrqtp.normalised hrqtp.sec_nonneg
          hrqtp.sec_le (hclock.reading last t ht) (hclock.mono 1 last now t hle hnow ht)
        exact Or.inl ⟨now, t, hnow, ht, hiff.1 hmet⟩

/-! ### `sleep` and `pselect` -/

/-- The time that `sleep` waits for. -/
def sleepInterval (seconds : BitVec 32) : Timespec := ⟨min (seconds.toNat : ℤ) intMax, 0⟩

theorem interval_sleepInterval (seconds : BitVec 32) : Interval (sleepInterval seconds) :=
  ⟨⟨le_rfl, (by decide : (0 : ℤ) < nsecsInSec)⟩,
    le_min (Int.natCast_nonneg _) (by decide), min_le_right _ _⟩

theorem sleep_past {clock : ℕ → Option Timespec} (hclock : Steady clock)
    (hsome : ∀ k, (clock k).isSome = true) {seconds : BitVec 32} {rmt : Timespec}
    {rmt' : Option Timespec} {fuel last : ℕ} {ret : ℤ}
    (h : sleep clock seconds rmt fuel = .returned ret last rmt') :
    Past clock 1 last (sleepInterval seconds) := by
  have hclamp : (if (seconds.toNat : ℤ) > intMax then intMax else (seconds.toNat : ℤ))
      = min (seconds.toNat : ℤ) intMax := by
    split_ifs <;> omega
  unfold sleep nanosleep at h
  dsimp only at h
  rw [hclamp] at h
  cases hwait : clockNanosleep clock 0 (sleepInterval seconds) (some rmt) fuel with
  | waiting =>
      unfold sleepInterval at hwait
      rw [hwait] at h
      cases h
  | returned ret' last' rmt'' =>
      have hlast : last' = last := by
        unfold sleepInterval at hwait
        rw [hwait] at h
        cases h
        rfl
      rw [← hlast]
      have hpast := clockNanosleep_past hclock rfl (interval_sleepInterval seconds) hwait
      -- a clock that can always be read does not make it fail
      refine hpast.resolve_right ?_
      rintro ⟨hnone, -⟩
      have hlast' := hsome last'
      rw [hnone] at hlast'
      cases hlast'

/-- `pselect` reads the clock first for the end of the wait, and last before the pass that ends
the call. -/
theorem pselect_past {clock : ℕ → Option Timespec} (hclock : Steady clock) {i : Select.Input}
    (hpasses : i.clock = fun k => clock (k + 1)) (hstart : clock 0 = some i.start)
    {nfds : ℤ} {sets : Select.Sets} {timeout : Timespec} (htimeout : Interval timeout) {fuel : ℕ}
    {r : Select.Result} (h : Select.pselect i nfds sets (some timeout) fuel = .returned r)
    (hret : r.ret = 0) : ∃ k, Select.pselect i nfds sets (some timeout) k = .waiting ∧
      Select.pselect i nfds sets (some timeout) (k + 1) = .returned r ∧
      Past clock 0 (k + 1) timeout := by
  obtain ⟨k, tcurrent, hsel⟩ := Select.pselect_selected h hret.ge
  have hcurrent : clock (k + 1) = some tcurrent := by
    have hpass := hsel.clock
    rw [hpasses] at hpass
    exact hpass
  -- reading number `k + 1` is the one that ends pass number `k`
  obtain ⟨hwaiting, hends⟩ := Select.ends_with_pass h hsel.idle
    (Select.not_idle_of_decides hsel.clock (Or.inr (hsel.expired hret)))
  refine ⟨k, hwaiting, hends, i.start, tcurrent, hstart, hcurrent, ?_⟩
  exact hsel.deadline timeout rfl htimeout.normalised htimeout.sec_le
    (hclock.reading 0 _ hstart).normalised (hclock.reading _ _ hcurrent).normalised
    (hclock.mono 0 (k + 1) _ _ (Nat.zero_le _) hstart hcurrent) hret

/-- The wait is over once a reading is past its end. -/
theorem clockNanosleep_ends {clock : ℕ → Option Timespec} (hclock : Steady clock)
    (hsome : ∀ k, (clock k).isSome = true) {flags : BitVec 32}
    (hflags : flags &&& timerAbstime = 0) {rqtp : Timespec} (hrqtp : Interval rqtp)
    (rmt : Option Timespec) {fuel last : ℕ} (hlast : 1 ≤ last) (hfuel : last < fuel)
    (hpast : Past clock 1 last rqtp) :
    ∃ last', clockNanosleep clock flags rqtp rmt fuel
      = .returned 0 last' (rmt.map fun _ => timespecZero) := by
  obtain ⟨now, t, hnow, ht, hle⟩ := hpast
  have hiff := met_iff (hclock.reading 1 now hnow) hrqtp.normalised hrqtp.sec_nonneg
    hrqtp.sec_le (hclock.reading last t ht) (hclock.mono 1 last now t hlast hnow ht)
  unfold clockNanosleep
  rw [if_pos hflags, hnow]
  refine returned_of_met hsome hlast (by omega) fun tcurrent hcurrent => ?_
  rw [ht] at hcurrent
  cases hcurrent
  exact hiff.2 hle

/-- **Waits never end early** on a clock that does not go back: a relative `clock_nanosleep`
does not return 0, `sleep`, which clamps its argument, does not return from a clock that can be
read, and `pselect` does not report a timeout before a reading at or past the exact sum, which
is the last one that it made; and once there is one, `clock_nanosleep` does return. -/
theorem waits_not_early {clock : ℕ → Option Timespec} (hclock : Steady clock) :
    (∀ flags rqtp rmt fuel last rmt', flags &&& timerAbstime = 0 → Interval rqtp →
      clockNanosleep clock flags rqtp rmt fuel = .returned 0 last rmt' →
        Past clock 1 last rqtp) ∧
    (∀ seconds rmt fuel ret last rmt', (∀ k, (clock k).isSome = true) →
      sleep clock seconds rmt fuel = .returned ret last rmt' →
        Past clock 1 last ⟨min (seconds.toNat : ℤ) intMax, 0⟩) ∧
    (∀ (i : Select.Input) nfds sets timeout fuel r, i.clock = (fun k => clock (k + 1)) →
      clock 0 = some i.start → Interval timeout →
      Select.pselect i nfds sets (some timeout) fuel = .returned r → r.ret = 0 →
        ∃ k, Select.pselect i nfds sets (some timeout) k = .waiting ∧
          Select.pselect i nfds sets (some timeout) (k + 1) = .returned r ∧
          Past clock 0 (k + 1) timeout) ∧
    ∀ flags rqtp rmt fuel last, (∀ k, (clock k).isSome = true) →
      flags &&& timerAbstime = 0 → Interval rqtp → 1 ≤ last → last < fuel →
      Past clock 1 last rqtp →
        ∃ last', clockNanosleep clock flags rqtp rmt fuel
          = .returned 0 last' (rmt.map fun _ => timespecZero) := by
  refine ⟨?_, ?_, ?_, ?_⟩
  · intro flags rqtp rmt fuel last rmt' hflags hrqtp h
    exact (clockNanosleep_past hclock hflags hrqtp h).resolve_right fun hfail =>
      absurd hfail.2 (by decide)
  · intro seconds rmt fuel ret last rmt' hsome h
    exact sleep_past hclock hsome h
  · intro i nfds sets timeout fuel r hpasses hstart htimeout h hret
    exact pselect_past hclock hpasses hstart htimeout h hret
  · intro flags rqtp rmt fuel last hsome hflags hrqtp hlast hfuel hpast
    exact clockNanosleep_ends hclock hsome hflags hrqtp rmt hlast hfuel hpast

/-! ### Two seconds -/

/-- A clock that shows a second more at each reading, up to the last one that fits. -/
def secondsClock (k : ℕ) : Option Timespec := some ⟨min (k : ℤ) intMax, 0⟩

theorem steady_secondsClock : Steady secondsClock := by
  constructor
  · intro k t h
    cases h
    exact ⟨le_min (Int.natCast_nonneg k) (by decide), min_le_right _ _,
      le_rfl, (by decide : (0 : ℤ) < nsecsInSec)⟩
  · intro j k t t' hle h h'
    cases h
    cases h'
    unfold Timespec.Le intMax
    dsimp only
    omega

/-- Sleeping for two seconds. -/
theorem waits_two_seconds :
    sleep secondsClock 2 timespecZero 10 = .returned 0 3 none ∧
      Past secondsClock 1 3 ⟨min ((2 : BitVec 32).toNat : ℤ) intMax, 0⟩ := by
  have hsleep : sleep secondsClock 2 timespecZero 10 = .returned 0 3 none := by decide
  exact ⟨hsleep, (waits_not_early steady_secondsClock).2.1 _ _ _ _ _ _ (fun _ => rfl) hsleep⟩

end Waits

end Nucleo
