/-
# The SysTick clocks

`clock_gettime_systick.c` keeps one `struct timespec` for each clock, moves both by a
millisecond in every SysTick interrupt, and adds to a reading what the counter says
has passed since the last interrupt.  A reading whose clock value and counter belong to
one tick is the number of nanoseconds passed so far, cut down twice by an integer
division; the cut is never so short of a tick that a later reading falls behind.
-/
import Nucleo.Posix

namespace Nucleo

/-! ## Nanoseconds as a `struct timespec` -/

/-- A timespec whose nanoseconds are a fraction of a second. -/
def Timespec.Normalised (t : Timespec) : Prop := 0 ≤ t.tvNsec ∧ t.tvNsec < nsecsInSec

/-- The order of time. -/
def Timespec.Le (s t : Timespec) : Prop :=
  s.tvSec < t.tvSec ∨ s.tvSec = t.tvSec ∧ s.tvNsec ≤ t.tvNsec

/-- The normalised timespec of a number of nanoseconds. -/
def Timespec.ofNanos (n : ℕ) : Timespec :=
  ⟨((n / 1000000000 : ℕ) : ℤ), ((n % 1000000000 : ℕ) : ℤ)⟩

/-- A number of nanoseconds gives a timespec. -/
theorem Timespec.normalised_ofNanos (n : ℕ) : (Timespec.ofNanos n).Normalised := by
  have hlt : n % 1000000000 < 1000000000 := Nat.mod_lt _ (by norm_num)
  constructor
  · exact Int.natCast_nonneg _
  · show ((n % 1000000000 : ℕ) : ℤ) < nsecsInSec
    unfold nsecsInSec
    omega

/-- More nanoseconds are later. -/
theorem Timespec.ofNanos_le {m n : ℕ} (h : m ≤ n) :
    (Timespec.ofNanos m).Le (Timespec.ofNanos n) := by
  unfold Timespec.Le Timespec.ofNanos
  dsimp only
  omega

/-- **`timespec_add` adds nanoseconds**, when one side is at most a second short of it and
the seconds of the sum fit. -/
theorem timespecAdd_ofNanos {m n : ℕ} (hn : n < 1000000000)
    (hfit : m + n < 2 ^ 31 * 1000000000) :
    timespecAdd (Timespec.ofNanos m) ⟨0, n⟩ = Timespec.ofNanos (m + n) := by
  have hmod : m % 1000000000 < 1000000000 := Nat.mod_lt _ (by norm_num)
  have hsec : wrap32 (((m / 1000000000 : ℕ) : ℤ) + 0) = ((m / 1000000000 : ℕ) : ℤ) := by
    rw [add_zero]
    exact wrap32_of_fits (by omega) (by omega)
  have hnsec : wrap32 (((m % 1000000000 : ℕ) : ℤ) + (n : ℤ)) = ((m % 1000000000 : ℕ) : ℤ) + n :=
    wrap32_of_fits (by omega) (by omega)
  unfold timespecAdd Timespec.ofNanos nsecsInSec
  dsimp only
  rw [hsec, hnsec]
  by_cases hcarry : ((m % 1000000000 : ℕ) : ℤ) + n ≥ 1000000000
  · -- the carry: the second it adds is the one the quotient of the sum gains
    rw [if_pos hcarry, wrap32_of_fits (by omega) (by omega), wrap32_of_fits (by omega) (by omega),
      Timespec.mk.injEq]
    omega
  · rw [if_neg hcarry, Timespec.mk.injEq]
    omega

/-! ## The clocks and their interrupt -/

/-- `SYSTICK_NSEC`. -/
def systickNsec : ℤ := 1000000

/-- `SYSTICK_FREQ_HZ`, of the type of `rcc_ahb_frequency` beside which it is used. -/
def systickFreqHz : BitVec 32 := 1000

/-- `clockid_t`: the two clocks there are, and every other number. -/
inductive ClockId
  | monotonic | realtime | other
  deriving DecidableEq, Repr

/-- The static variables of `clock_gettime_systick.c`. -/
structure Clocks where
  realtime : Timespec
  monotonic : Timespec
  timerUpdateFlag : ℤ
  deriving DecidableEq, Repr

/-- The variables as the program starts. -/
def bootClocks : Clocks := ⟨timespecZero, timespecZero, 0⟩

/-- `clock_get`: the clock of an identifier, where there is one. -/
def Clocks.get (s : Clocks) : ClockId → Option Timespec
  | .monotonic => some s.monotonic
  | .realtime => some s.realtime
  | .other => none

/-- A millisecond, which each interrupt adds. -/
def systickStep : Timespec := ⟨0, systickNsec⟩

/-- It is a million nanoseconds. -/
theorem systickStep_eq : systickStep = ⟨0, ((1000000 : ℕ) : ℤ)⟩ := by
  rw [Nat.cast_ofNat]
  rfl

/-- `sys_tick_handler`. -/
def sysTickHandler (s : Clocks) : Clocks where
  monotonic := timespecAdd s.monotonic systickStep
  realtime := timespecAdd s.realtime systickStep
  timerUpdateFlag := wrap32 (s.timerUpdateFlag + 1)

/-- `clock_settime`: the error, or the clocks it leaves.  Its loop writes the clock again
when an interrupt came in between, so the last write is to the clocks of one tick. -/
def clockSettime (s : Clocks) (clockId : ClockId) (tp : Option Timespec) : Except Errno Clocks :=
  match s.get clockId with
  | none => .error .EINVAL
  | some _ =>
    if clockId = .monotonic then .error .EINVAL
    else match tp with
      | none => .error .EINVAL
      | some tp =>
        if tp.tvNsec < 0 then .error .EINVAL
        else if tp.tvNsec ≥ nsecsInSec then .error .EINVAL
        else .ok { s with realtime := tp }

/-- What happens to the clocks: an interrupt, or a call of `clock_settime`. -/
inductive ClockEvent
  | tick
  | settime (clockId : ClockId) (tp : Option Timespec)
  deriving DecidableEq, Repr

/-- What an event does to the clocks. -/
def Clocks.step (s : Clocks) : ClockEvent → Clocks
  | .tick => sysTickHandler s
  | .settime clockId tp => (clockSettime s clockId tp).toOption.getD s

/-- What a list of events does. -/
def Clocks.run (s : Clocks) (es : List ClockEvent) : Clocks := es.foldl Clocks.step s

/-- The number of interrupts among the events. -/
def ticksOf (es : List ClockEvent) : ℕ := es.count .tick

/-! ### Runs of events -/

/-- Interrupts are counted over a whole run. -/
theorem ticksOf_append (es fs : List ClockEvent) : ticksOf (es ++ fs) = ticksOf es + ticksOf fs :=
  List.count_append

/-- A run goes on from what another one leaves. -/
theorem run_append (s : Clocks) (es fs : List ClockEvent) :
    s.run (es ++ fs) = (s.run es).run fs :=
  List.foldl_append

/-- No call of `clock_settime` touches the monotonic clock or the flag. -/
theorem clockSettime_keeps {s s' : Clocks} {clockId : ClockId} {tp : Option Timespec}
    (h : clockSettime s clockId tp = .ok s') :
    s'.monotonic = s.monotonic ∧ s'.timerUpdateFlag = s.timerUpdateFlag := by
  unfold clockSettime at h
  cases clockId with
  | monotonic => cases h
  | other => cases h
  | realtime =>
    cases tp with
    | none => cases h
    | some tp =>
      simp only [Clocks.get, reduceCtorEq, if_false] at h
      by_cases hneg : tp.tvNsec < 0
      · rw [if_pos hneg] at h
        cases h
      · by_cases hbig : tp.tvNsec ≥ nsecsInSec
        · rw [if_neg hneg, if_pos hbig] at h
          cases h
        · rw [if_neg hneg, if_neg hbig] at h
          cases h
          exact ⟨rfl, rfl⟩

/-- Setting a clock leaves `CLOCK_MONOTONIC`. -/
theorem step_settime_monotonic (s : Clocks) (clockId : ClockId) (tp : Option Timespec) :
    (s.step (.settime clockId tp)).monotonic = s.monotonic := by
  show ((clockSettime s clockId tp).toOption.getD s).monotonic = s.monotonic
  cases h : clockSettime s clockId tp with
  | error e => rfl
  | ok s' => exact (clockSettime_keeps h).1

/-- **The stored clock counts the interrupts**, in milliseconds. -/
theorem monotonic_run (es : List ClockEvent) (hfit : ticksOf es * 1000000 < 2 ^ 31 * 1000000000) :
    (bootClocks.run es).monotonic = Timespec.ofNanos (ticksOf es * 1000000) := by
  -- the induction adds the last event, so that the run before it is a run from the start
  induction es using List.reverseRecOn with
  | nil => rfl
  | append_singleton es e ih =>
    rw [ticksOf_append] at hfit
    rw [run_append, ticksOf_append]
    cases e with
    | tick =>
      have hone : ticksOf [.tick] = 1 := rfl
      rw [hone, Nat.add_mul, Nat.one_mul] at hfit ⊢
      show timespecAdd (bootClocks.run es).monotonic systickStep = _
      rw [ih (lt_of_le_of_lt (Nat.le_add_right _ _) hfit), systickStep_eq]
      exact timespecAdd_ofNanos (m := ticksOf es * 1000000) (n := 1000000) (by norm_num) hfit
    | settime clockId tp =>
      have hzero : ticksOf [.settime clockId tp] = 0 := rfl
      rw [hzero, Nat.add_zero] at hfit ⊢
      rw [← ih hfit]
      exact step_settime_monotonic _ clockId tp

/-! ## The fraction of a tick -/

/-- The `ticks` of `systick_fraction_to_timespec`, for the AHB frequency `f`. -/
def systickTicks (f fraction : BitVec 32) : BitVec 32 := f / systickFreqHz - fraction

/-- The nanoseconds of one count, as the source divides them. -/
def nsecsPerCount (f : BitVec 32) : BitVec 32 := 1000000000 / f

/-- `systick_fraction_to_timespec`. -/
def systickFractionToTimespec (f fraction : BitVec 32) : Timespec :=
  ⟨0, (systickTicks f fraction * nsecsPerCount f).toInt⟩

/-- The counter runs from `f / 1000 - 1`, the value it is reloaded with, down to zero. -/
def InPeriod (f fraction : BitVec 32) : Prop := fraction ≤ f / systickFreqHz - 1

/-- The nanoseconds since the last interrupt, as computed. -/
def subTick (f fraction : BitVec 32) : ℕ :=
  (f.toNat / 1000 - fraction.toNat) * (1000000000 / f.toNat)

/-- The fraction is a millisecond at most. -/
theorem subTick_le (f fraction : BitVec 32) : subTick f fraction ≤ 1000000 := by
  unfold subTick
  -- both divisions round down, and the exact quotients multiply to a millisecond
  have hmul : f.toNat / 1000 * (1000000000 / f.toNat) * 1000 ≤ 1000000000 :=
    calc f.toNat / 1000 * (1000000000 / f.toNat) * 1000
        = f.toNat / 1000 * 1000 * (1000000000 / f.toNat) := by ring
      _ ≤ f.toNat * (1000000000 / f.toNat) := Nat.mul_le_mul_right _ (Nat.div_mul_le_self _ _)
      _ ≤ 1000000000 := Nat.mul_div_le _ _
  have hle : (f.toNat / 1000 - fraction.toNat) * (1000000000 / f.toNat) ≤
      f.toNat / 1000 * (1000000000 / f.toNat) :=
    Nat.mul_le_mul_right _ (Nat.sub_le _ _)
  omega

/-- It grows as the counter falls. -/
theorem subTick_antitone (f : BitVec 32) {c d : BitVec 32} (h : d.toNat ≤ c.toNat) :
    subTick f c ≤ subTick f d :=
  Nat.mul_le_mul_right _ (Nat.sub_le_sub_left h _)

section Fraction

variable {f fraction : BitVec 32} (hf : 1000 ≤ f.toNat) (h : InPeriod f fraction)

/-- The counter starts from the period. -/
theorem toNat_reload (f : BitVec 32) : (f / systickFreqHz).toNat = f.toNat / 1000 :=
  BitVec.toNat_udiv

include hf h

/-- It stays below it. -/
theorem toNat_of_inPeriod : fraction.toNat < f.toNat / 1000 := by
  have hone : (1 : BitVec 32) ≤ f / systickFreqHz := by
    rw [BitVec.le_def, toNat_reload]
    show 1 ≤ f.toNat / 1000
    omega
  unfold InPeriod at h
  rw [BitVec.le_def, BitVec.toNat_sub_of_le hone, toNat_reload] at h
  have hsub : (1 : BitVec 32).toNat = 1 := rfl
  omega

/-- The counts since the last interrupt. -/
theorem toNat_systickTicks : (systickTicks f fraction).toNat = f.toNat / 1000 - fraction.toNat := by
  have hlt : fraction.toNat < f.toNat / 1000 := toNat_of_inPeriod hf h
  unfold systickTicks
  rw [BitVec.toNat_sub_of_le (by rw [BitVec.le_def, toNat_reload]; omega), toNat_reload]

/-- The product fits its 32 bits. -/
theorem toNat_mul_nsecsPerCount :
    (systickTicks f fraction).toNat * (nsecsPerCount f).toNat = subTick f fraction := by
  have hdiv : (nsecsPerCount f).toNat = 1000000000 / f.toNat := BitVec.toNat_udiv
  rw [toNat_systickTicks hf h, hdiv]
  rfl

/-- Their product with the period of a count does not run over. -/
theorem no_overflow_systickTicks :
    (systickTicks f fraction).umulOverflow (nsecsPerCount f) = false := by
  have hle : subTick f fraction ≤ 1000000 := subTick_le f fraction
  unfold BitVec.umulOverflow
  rw [toNat_mul_nsecsPerCount hf h, decide_eq_false_iff_not]
  omega

/-- **The fraction is computed exactly**. -/
theorem systickFractionToTimespec_eq :
    systickFractionToTimespec f fraction = ⟨0, subTick f fraction⟩ := by
  have hle : subTick f fraction ≤ 1000000 := subTick_le f fraction
  have hmul : (systickTicks f fraction * nsecsPerCount f).toNat = subTick f fraction := by
    rw [BitVec.toNat_mul, toNat_mul_nsecsPerCount hf h]
    exact Nat.mod_eq_of_lt (by omega)
  unfold systickFractionToTimespec
  rw [BitVec.toInt_eq_toNat_of_lt (by rw [hmul]; omega), hmul]

end Fraction

/-! ## A reading -/

/-- What one turn of the loop of `clock_gettime` reads. -/
structure Turn where
  flagBefore : ℤ
  clk : Timespec
  fractionTicks : BitVec 32
  flagAfter : ℤ
  deriving DecidableEq, Repr

/-- The loop leaves with the first turn whose two flags are equal. -/
def acceptedTurn (turns : List Turn) : Option Turn :=
  turns.find? (fun t => t.flagBefore = t.flagAfter)

/-- The value that the loop and `timespec_incr` leave in `tp`. -/
def clockRead (f : BitVec 32) (turns : List Turn) : Option Timespec :=
  (acceptedTurn turns).map fun t =>
    timespecAdd t.clk (systickFractionToTimespec f t.fractionTicks)

/-- `clock_gettime` up to the synchronisation, which only `CLOCK_REALTIME` has: the error,
or the value stored if one of the turns ends the loop. -/
def clockGettime (f : BitVec 32) (clockId : ClockId) (turns : List Turn) :
    Except Errno (Option Timespec) :=
  match clockId with
  | .other => .error .EINVAL
  | .monotonic | .realtime => .ok (clockRead f turns)

/-- The turn that reads the first flag after the events `es`, the monotonic clock after
`fs` more, and the second flag after `gs` more. -/
def turnDuring (es fs gs : List ClockEvent) (fraction : BitVec 32) : Turn where
  flagBefore := (bootClocks.run es).timerUpdateFlag
  clk := (bootClocks.run (es ++ fs)).monotonic
  fractionTicks := fraction
  flagAfter := (bootClocks.run (es ++ fs ++ gs)).timerUpdateFlag

/-- Setting a clock leaves the flag. -/
theorem step_settime_flag (s : Clocks) (clockId : ClockId) (tp : Option Timespec) :
    (s.step (.settime clockId tp)).timerUpdateFlag = s.timerUpdateFlag := by
  show ((clockSettime s clockId tp).toOption.getD s).timerUpdateFlag = s.timerUpdateFlag
  cases h : clockSettime s clockId tp with
  | error e => rfl
  | ok s' => exact (clockSettime_keeps h).2

/-- The flag counts the interrupts, modulo 2 ^ 32. -/
theorem flag_run (s : Clocks) (es : List ClockEvent) :
    Int.ModEq (2 ^ 32) (s.run es).timerUpdateFlag (s.timerUpdateFlag + ticksOf es) := by
  induction es generalizing s with
  | nil =>
    have hzero : ((ticksOf [] : ℕ) : ℤ) = 0 := rfl
    rw [hzero, add_zero]
    exact Int.ModEq.rfl
  | cons e es ih =>
    refine (ih (s.step e)).trans ?_
    cases e with
    | tick =>
      have hcons : ticksOf (.tick :: es) = ticksOf es + 1 := List.count_cons_self
      have hwrap : Int.ModEq (2 ^ 32) (wrap32 (s.timerUpdateFlag + 1)) (s.timerUpdateFlag + 1) :=
        Int.bmod_emod
      rw [hcons, Nat.cast_add, Nat.cast_one, add_comm (ticksOf es : ℤ), ← add_assoc]
      exact hwrap.add_right _
    | settime clockId tp =>
      have hcons : ticksOf (.settime clockId tp :: es) = ticksOf es :=
        List.count_cons_of_ne (by simp)
      rw [hcons, step_settime_flag]

/-- **What the equal flags say**: no interrupt came during an accepted turn, unless
2 ^ 32 of them did. -/
theorem ticksOf_eq_zero_of_accepted {es fs gs : List ClockEvent} {fraction : BitVec 32}
    (hfew : ticksOf (fs ++ gs) < 2 ^ 32)
    (hacc : (turnDuring es fs gs fraction).flagBefore = (turnDuring es fs gs fraction).flagAfter) :
    ticksOf fs = 0 ∧ ticksOf gs = 0 := by
  have hflag : Int.ModEq (2 ^ 32) ((bootClocks.run es).timerUpdateFlag + 0)
      ((bootClocks.run es).timerUpdateFlag + ticksOf (fs ++ gs)) := by
    have hrun := flag_run (bootClocks.run es) (fs ++ gs)
    rw [← run_append, ← List.append_assoc] at hrun
    rw [add_zero]
    exact (congrArg (· % 2 ^ 32) hacc).trans hrun
  have hmod : Int.ModEq (2 ^ 32) 0 (ticksOf (fs ++ gs)) := Int.ModEq.add_left_cancel' _ hflag
  have hzero : ticksOf (fs ++ gs) = 0 := by
    unfold Int.ModEq at hmod
    omega
  rw [ticksOf_append] at hzero
  omega

/-! ### Two readings -/

/-- The nanoseconds that a reading stands for, after `k` interrupts. -/
def elapsed (f : BitVec 32) (k : ℕ) (fraction : BitVec 32) : ℕ := k * 1000000 + subTick f fraction

/-- One instant is before another: after fewer interrupts, or after as many and with a
counter that has run down no further. -/
def Earlier (k₁ : ℕ) (c₁ : BitVec 32) (k₂ : ℕ) (c₂ : BitVec 32) : Prop :=
  k₁ < k₂ ∨ k₁ = k₂ ∧ c₂ ≤ c₁

/-- Time that has elapsed does not go back. -/
theorem elapsed_le {f : BitVec 32} {k₁ k₂ : ℕ} {c₁ c₂ : BitVec 32} (h : Earlier k₁ c₁ k₂ c₂) :
    elapsed f k₁ c₁ ≤ elapsed f k₂ c₂ := by
  unfold elapsed
  rcases h with hlt | ⟨heq, hc⟩
  · -- a whole tick lies between them, and a fraction is at most a tick
    have hle : subTick f c₁ ≤ 1000000 := subTick_le f c₁
    omega
  · have hle : subTick f c₁ ≤ subTick f c₂ := subTick_antitone f hc
    omega

/-- A call of `clock_gettime(CLOCK_MONOTONIC, …)` stored `r`, and the turn it accepted
paired the clock after `k` interrupts with the counter value `c` of the same tick. -/
structure ReadAt (f : BitVec 32) (turns : List Turn) (k : ℕ) (c : BitVec 32) (r : Timespec) :
    Prop where
  stored : clockGettime f .monotonic turns = .ok (some r)
  paired : ∀ t, acceptedTurn turns = some t →
    (∃ es, ticksOf es = k ∧ t.clk = (bootClocks.run es).monotonic) ∧ t.fractionTicks = c

/-- An accepted turn pairs the two, whatever happened during the turns before it. -/
theorem paired_of_turnDuring {turns : List Turn} (es fs gs : List ClockEvent) {c : BitVec 32}
    (hfew : ticksOf (fs ++ gs) < 2 ^ 32)
    (hacc : acceptedTurn turns = some (turnDuring es fs gs c)) :
    ∀ t, acceptedTurn turns = some t →
      (∃ es', ticksOf es' = ticksOf es ∧ t.clk = (bootClocks.run es').monotonic) ∧
        t.fractionTicks = c := by
  have hflags : (turnDuring es fs gs c).flagBefore = (turnDuring es fs gs c).flagAfter := by
    have hfind := List.find?_some hacc
    exact of_decide_eq_true hfind
  have hnone : ticksOf fs = 0 := (ticksOf_eq_zero_of_accepted hfew hflags).1
  intro t ht
  rw [hacc] at ht
  cases ht
  exact ⟨⟨es ++ fs, by rw [ticksOf_append, hnone, Nat.add_zero], rfl⟩, rfl⟩

/-- **What a reading is**: the nanoseconds passed, as a normalised timespec. -/
theorem ReadAt.eq_ofNanos {f : BitVec 32} {turns : List Turn} {k : ℕ} {c : BitVec 32}
    {r : Timespec} (hf : 1000 ≤ f.toNat) (hc : InPeriod f c)
    (hfit : elapsed f k c < 2 ^ 31 * 1000000000) (h : ReadAt f turns k c r) :
    r = Timespec.ofNanos (elapsed f k c) := by
  have hle : subTick f c ≤ 1000000 := subTick_le f c
  unfold elapsed at hfit
  have hread : clockRead f turns = some r := Except.ok.inj h.stored
  unfold clockRead at hread
  obtain ⟨t, hacc, hr⟩ := Option.map_eq_some_iff.mp hread
  obtain ⟨⟨es, rfl, hclk⟩, rfl⟩ := h.paired t hacc
  have hless : ticksOf es * 1000000 < 2 ^ 31 * 1000000000 :=
    lt_of_le_of_lt (Nat.le_add_right _ _) hfit
  rw [← hr, hclk, monotonic_run es hless, systickFractionToTimespec_eq hf hc]
  exact timespecAdd_ofNanos (by omega) hfit

/-- **`CLOCK_MONOTONIC` never goes backwards.**  The stored clock is the number of
interrupts in milliseconds; the part of a tick is at most a millisecond and computed
without overflow; and a reading at a later instant is not less than one before. -/
theorem clockGettime_monotone {f : BitVec 32} (hf : 1000 ≤ f.toNat) :
    (∀ es : List ClockEvent, ticksOf es * 1000000 < 2 ^ 31 * 1000000000 →
      (bootClocks.run es).monotonic = ⟨((ticksOf es / 1000 : ℕ) : ℤ),
        ((ticksOf es % 1000 * 1000000 : ℕ) : ℤ)⟩ ∧
      (bootClocks.run es).monotonic.Normalised) ∧
    (∀ c, InPeriod f c →
      (systickTicks f c).umulOverflow (nsecsPerCount f) = false ∧
      (systickFractionToTimespec f c).tvSec = 0 ∧
      0 ≤ (systickFractionToTimespec f c).tvNsec ∧
      (systickFractionToTimespec f c).tvNsec ≤ systickNsec) ∧
    ∀ turns₁ k₁ c₁ r₁ turns₂ k₂ c₂ r₂,
      ReadAt f turns₁ k₁ c₁ r₁ → ReadAt f turns₂ k₂ c₂ r₂ → InPeriod f c₁ → InPeriod f c₂ →
      Earlier k₁ c₁ k₂ c₂ → elapsed f k₂ c₂ < 2 ^ 31 * 1000000000 →
      r₁.Le r₂ ∧ r₁.Normalised ∧ r₂.Normalised := by
  refine ⟨fun es hfit => ?_, fun c hc => ?_, ?_⟩
  · rw [monotonic_run es hfit]
    refine ⟨?_, Timespec.normalised_ofNanos _⟩
    unfold Timespec.ofNanos
    rw [Timespec.mk.injEq]
    omega
  · have hsub : subTick f c ≤ 1000000 := subTick_le f c
    rw [systickFractionToTimespec_eq hf hc]
    refine ⟨no_overflow_systickTicks hf hc, rfl, Int.natCast_nonneg _, ?_⟩
    show (subTick f c : ℤ) ≤ systickNsec
    unfold systickNsec
    omega
  · intro turns₁ k₁ c₁ r₁ turns₂ k₂ c₂ r₂ h₁ h₂ hc₁ hc₂ hle hfit
    have hmono : elapsed f k₁ c₁ ≤ elapsed f k₂ c₂ := elapsed_le hle
    rw [h₁.eq_ofNanos hf hc₁ (by omega), h₂.eq_ofNanos hf hc₂ hfit]
    exact ⟨Timespec.ofNanos_le hmono, Timespec.normalised_ofNanos _, Timespec.normalised_ofNanos _⟩

/-- At 84 MHz, in the first tick and at the end of the second. -/
theorem clockGettime_monotone_at_84MHz :
    Timespec.Le ⟨0, 1000011⟩ ⟨0, 2924000⟩ ∧ Timespec.Normalised ⟨0, 1000011⟩ ∧
      Timespec.Normalised ⟨0, 2924000⟩ :=
  (clockGettime_monotone (f := 84000000) (by decide)).2.2
    [⟨1, ⟨0, 1000000⟩, 83999, 1⟩] 1 83999 _
    [⟨1, ⟨0, 1000000⟩, 0, 2⟩, ⟨2, ⟨0, 2000000⟩, 0, 2⟩] 2 0 _
    ⟨rfl, paired_of_turnDuring [.tick] [] [] (by decide) rfl⟩
    ⟨rfl, paired_of_turnDuring [.tick, .tick] [] [] (by decide) rfl⟩
    (by unfold InPeriod; decide) (by unfold InPeriod; decide) (Or.inl (by decide)) (by decide)

end Nucleo
