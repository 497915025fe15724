/-
# The resolution of the clocks

`clock_getres` reports the fraction of a tick that belongs to the counter value one, as if
the counter counted up.  It counts down: at the value one nearly the whole tick has passed, and
the fraction is that of all counts but one.  One count, by which two readings of a tick can
differ, is the same number only where a tick has two counts.
-/
import Nucleo.TimespecAlgebra

namespace Nucleo

/-- `clock_getres`: the error, or what is stored unless `res` is `NULL`. -/
def clockGetres (f : BitVec 32) (clockId : ClockId) (hasRes : Bool) :
    Except Errno (Option Timespec) :=
  match clockId with
  | .other => .error .EINVAL
  | .monotonic | .realtime =>
    .ok (if hasRes then some (systickFractionToTimespec f 1) else none)

/-! ## What two readings can tell -/

/-- A call of `clock_gettime` stored `r`, and the turn it accepted read the stored clock
`clk` and the counter value `c`. -/
structure ReadsAs (f : BitVec 32) (clockId : ClockId) (turns : List Turn) (clk : Timespec)
    (c : BitVec 32) (r : Timespec) : Prop where
  stored : clockGettime f clockId turns = .ok (some r)
  accepted : ∃ t, acceptedTurn turns = some t ∧ t.clk = clk ∧ t.fractionTicks = c

theorem ReadsAs.eq_add {f : BitVec 32} {clockId : ClockId} {turns : List Turn} {clk r : Timespec}
    {c : BitVec 32} (h : ReadsAs f clockId turns clk c r) :
    r = timespecAdd clk (systickFractionToTimespec f c) := by
  obtain ⟨hstored, t, hacc, rfl, rfl⟩ := h
  have hread : clockRead f turns = some r := by
    cases clockId with
    | monotonic => exact Except.ok.inj hstored
    | realtime => exact Except.ok.inj hstored
    | other => cases hstored
  unfold clockRead at hread
  rw [hacc] at hread
  exact (Option.some.inj hread).symm

/-- Two readings in the same tick whose counters differ by one differ by what `clock_getres`
reports.  The counter counts down, so the reading with the larger one is the earlier. -/
def ReportsGranularity (f : BitVec 32) : Prop :=
  ∀ clockId turns turns' clk c r r', clk.Value → InPeriod f c → InPeriod f (c + 1) →
    ReadsAs f clockId turns clk (c + 1) r → ReadsAs f clockId turns' clk c r' →
    clockGetres f clockId true = .ok (some (timespecDiff r' r).1)

/-- Less than a second, in nanoseconds. -/
theorem value_of_nsec {n : ℕ} (h : n < 1000000000) : (⟨0, n⟩ : Timespec).Value := by
  refine ⟨⟨Int.natCast_nonneg _, ?_⟩, ?_, ?_⟩
  · show (n : ℤ) < nsecsInSec
    unfold nsecsInSec
    omega
  · show (-2 ^ 31 : ℤ) ≤ 0
    decide
  · show (0 : ℤ) < 2 ^ 31
    decide

section Count

variable {f c : BitVec 32} (hlo : 1000 ≤ f.toNat)

/-! ## One count of the counter -/

/-- One count, as the source divides it. -/
theorem subTick_of_succ (h : c.toNat + 1 < f.toNat / 1000) (hsucc : (c + 1).toNat = c.toNat + 1) :
    subTick f c = subTick f (c + 1) + 1000000000 / f.toNat := by
  unfold subTick
  rw [hsucc, show f.toNat / 1000 - c.toNat = f.toNat / 1000 - (c.toNat + 1) + 1 by omega,
    Nat.add_mul, Nat.one_mul]

include hlo

theorem inPeriod_of_lt (h : c.toNat < f.toNat / 1000) : InPeriod f c := by
  have hone : (1 : BitVec 32) ≤ f / systickFreqHz := by
    rw [BitVec.le_def, toNat_reload]
    show 1 ≤ f.toNat / 1000
    omega
  unfold InPeriod
  rw [BitVec.le_def, BitVec.toNat_sub_of_le hone, toNat_reload]
  show c.toNat ≤ f.toNat / 1000 - 1
  omega

/-- The next counter value of a tick does not run over. -/
theorem toNat_succ_of_inPeriod (hc : InPeriod f c) : (c + 1).toNat = c.toNat + 1 := by
  have hlt := toNat_of_inPeriod hlo hc
  have hone : (1 : BitVec 32).toNat = 1 := rfl
  have hf := f.isLt
  rw [BitVec.toNat_add, hone]
  omega

/-- The fraction of a count is a value that is less than a second. -/
theorem value_fraction (hc : InPeriod f c) : (systickFractionToTimespec f c).Value := by
  have hle := subTick_le f c
  rw [systickFractionToTimespec_eq hlo hc]
  exact value_of_nsec (by omega)

/-- Two readings of a tick differ by one count, also where a carry lies between them. -/
theorem diff_of_readings {clk : Timespec} (hclk : clk.Value) (hc : InPeriod f c)
    (hc' : InPeriod f (c + 1)) :
    (timespecDiff (timespecAdd clk (systickFractionToTimespec f c))
        (timespecAdd clk (systickFractionToTimespec f (c + 1)))).1
      = ⟨0, ((1000000000 / f.toNat : ℕ) : ℤ)⟩ := by
  have hfrac := value_fraction hlo hc
  have hfrac' := value_fraction hlo hc'
  obtain ⟨hnorm, q, hq⟩ := Timespec.add_nanos hclk.normalised hfrac.normalised
  obtain ⟨hnorm', q', hq'⟩ := Timespec.add_nanos hclk.normalised hfrac'.normalised
  obtain ⟨-, -, q'', hq''⟩ := Timespec.diff_nanos hnorm hnorm'
  have hsucc := toNat_succ_of_inPeriod hlo hc
  have hlt := toNat_of_inPeriod hlo hc'
  rw [hsucc] at hlt
  have hcount := subTick_of_succ hlt hsucc
  have hle := subTick_le f c
  have hvalue : (⟨0, ((1000000000 / f.toNat : ℕ) : ℤ)⟩ : Timespec).Value :=
    value_of_nsec (by omega)
  refine (Timespec.value_diff hnorm hnorm').eq_of_nanos hvalue (q := q - q' + q'') ?_
  rw [hq'', hq, hq', systickFractionToTimespec_eq hlo hc, systickFractionToTimespec_eq hlo hc',
    hcount]
  unfold Timespec.nanos
  push_cast
  ring

/-! ## `clock_getres` -/

/-- What `clock_getres` reports is all counts of a tick but one. -/
theorem clockGetres_eq {clockId : ClockId} (hid : clockId ≠ .other) (h2 : 2 ≤ f.toNat / 1000) :
    clockGetres f clockId true
      = .ok (some ⟨0, (((f.toNat / 1000 - 1) * (1000000000 / f.toNat) : ℕ) : ℤ)⟩) := by
  have hin : InPeriod f 1 := inPeriod_of_lt hlo h2
  have hres : systickFractionToTimespec f 1
      = ⟨0, (((f.toNat / 1000 - 1) * (1000000000 / f.toNat) : ℕ) : ℤ)⟩ :=
    systickFractionToTimespec_eq hlo hin
  cases clockId with
  | monotonic => exact congrArg (fun t => Except.ok (some t)) hres
  | realtime => exact congrArg (fun t => Except.ok (some t)) hres
  | other => exact absurd rfl hid

/-- **Every pair of readings tells**: the difference is what is reported exactly when a tick
has no more than two counts. -/
theorem clockGetres_eq_diff_iff (hhi : f.toNat ≤ 1000000000) {clockId : ClockId}
    {turns turns' : List Turn} {clk r r' : Timespec} (hclk : clk.Value) (hc : InPeriod f c)
    (hc' : InPeriod f (c + 1)) (h : ReadsAs f clockId turns clk (c + 1) r)
    (h' : ReadsAs f clockId turns' clk c r') :
    clockGetres f clockId true = .ok (some (timespecDiff r' r).1) ↔ f.toNat < 3000 := by
  have hid : clockId ≠ .other := by
    rintro rfl
    cases h.stored
  have hlt := toNat_of_inPeriod hlo hc'
  rw [toNat_succ_of_inPeriod hlo hc] at hlt
  rw [h.eq_add, h'.eq_add, diff_of_readings hlo hclk hc hc', clockGetres_eq hlo hid (by omega),
    Except.ok.injEq, Option.some.injEq, Timespec.mk.injEq, Nat.cast_inj]
  have hpos : 0 < 1000000000 / f.toNat := Nat.div_pos hhi (by omega)
  constructor
  · rintro ⟨-, heq⟩
    -- a count is not nothing, so the number of counts is one
    have hone : f.toNat / 1000 - 1 = 1 := Nat.eq_of_mul_eq_mul_right hpos (by rw [heq, Nat.one_mul])
    omega
  · intro hsmall
    refine ⟨rfl, ?_⟩
    rw [show f.toNat / 1000 - 1 = 1 by omega, Nat.one_mul]

end Count

/-- A reading in the first tick that accepts its first turn. -/
theorem readsAs_single (f : BitVec 32) (c : BitVec 32) :
    ReadsAs f .monotonic [⟨0, timespecZero, c, 0⟩] timespecZero c
      (timespecAdd timespecZero (systickFractionToTimespec f c)) :=
  ⟨rfl, ⟨0, timespecZero, c, 0⟩, rfl, rfl, rfl⟩

/-- **`clock_getres` reports the granularity below 3 kHz only.** -/
theorem reportsGranularity_iff {f : BitVec 32} (hlo : 1000 ≤ f.toNat)
    (hhi : f.toNat ≤ 1000000000) : ReportsGranularity f ↔ f.toNat < 3000 := by
  constructor
  · intro hreports
    by_contra hbig
    have hzero : InPeriod f 0 := inPeriod_of_lt hlo (by show 0 < f.toNat / 1000; omega)
    have hone : InPeriod f (0 + 1) := inPeriod_of_lt hlo (by show 1 < f.toNat / 1000; omega)
    have hclk : timespecZero.Value := ⟨⟨by decide, by decide⟩, by decide, by decide⟩
    have heq := hreports .monotonic _ _ timespecZero 0 _ _ hclk hzero hone
      (readsAs_single f (0 + 1)) (readsAs_single f 0)
    exact hbig ((clockGetres_eq_diff_iff hlo hhi hclk hzero hone (readsAs_single f (0 + 1))
      (readsAs_single f 0)).1 heq)
  · intro hsmall clockId turns turns' clk c r r' hclk hc hc' h h'
    exact (clockGetres_eq_diff_iff hlo hhi hclk hc hc' h h').2 hsmall

/-- At 2 kHz a tick has two counts. -/
theorem reportsGranularity_at_2kHz : ReportsGranularity 2000 :=
  (reportsGranularity_iff (f := 2000) (by decide) (by decide)).2 (by decide)

/-- At 84 MHz a count is 11 nanoseconds, and nearly a millisecond is reported. -/
theorem not_reportsGranularity_at_84MHz :
    clockGettime 84000000 .monotonic [⟨0, timespecZero, 1, 0⟩] = .ok (some ⟨0, 923989⟩) ∧
      clockGettime 84000000 .monotonic [⟨0, timespecZero, 0, 0⟩] = .ok (some ⟨0, 924000⟩) ∧
      clockGetres 84000000 .monotonic true = .ok (some ⟨0, 923989⟩) ∧
      ¬ ReportsGranularity 84000000 := by
  refine ⟨by decide, by decide, by decide, fun hreports => ?_⟩
  have heq := hreports .monotonic _ _ timespecZero 0 _ _
    ⟨⟨by decide, by decide⟩, by decide, by decide⟩ (by unfold InPeriod; decide)
    (by unfold InPeriod; decide) (readsAs_single 84000000 (0 + 1)) (readsAs_single 84000000 0)
  revert heq
  decide

end Nucleo
