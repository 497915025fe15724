/-
# The order of 32-bit times

`timespec_add` and `timespec_diff` compute in 32 bits.  On readings of a clock that has not
run over, `timespec_diff` has the sign of the true difference, and adding whole seconds to
a reading is exact as long as the sum fits; a sum that does not fit becomes a time before
the epoch.
-/
import Nucleo.Clock

namespace Nucleo

namespace Timespec

/-- What a 32-bit clock that started at the epoch can show. -/
structure Reading (t : Timespec) : Prop where
  sec_nonneg : 0 ≤ t.tvSec
  sec_le : t.tvSec ≤ intMax
  normalised : t.Normalised

/-- A time that a reading is compared with; its nanoseconds need not be a fraction of a
second, as those of the infinite time are not. -/
structure Stamp (t : Timespec) : Prop where
  sec_nonneg : 0 ≤ t.tvSec
  sec_le : t.tvSec ≤ intMax
  nsec_nonneg : 0 ≤ t.tvNsec
  nsec_le : t.tvNsec ≤ intMax

/-- A reading can be compared with. -/
theorem Reading.stamp {t : Timespec} (h : t.Reading) : t.Stamp := by
  obtain ⟨hlo, hhi, hnlo, hnhi⟩ := h
  refine ⟨hlo, hhi, hnlo, ?_⟩
  unfold nsecsInSec at hnhi
  unfold intMax
  omega

theorem stamp_infinity : timespecInfinity.Stamp := ⟨by decide, by decide, by decide, by decide⟩

theorem Le.refl (t : Timespec) : t.Le t := Or.inr ⟨rfl, le_rfl⟩

theorem Le.trans {s t u : Timespec} (h : s.Le t) (h' : t.Le u) : s.Le u := by
  unfold Timespec.Le at h h' ⊢
  omega

/-- Every reading is before the infinite time. -/
theorem Reading.le_infinity {t : Timespec} (h : t.Reading) : t.Le timespecInfinity := by
  have hnsec := h.stamp.nsec_le
  have hsec := h.sec_le
  unfold Timespec.Le timespecInfinity
  dsimp only
  omega

/-! ## Differences -/

/-- The value that `timespec_diff` returns for times that are not too far apart. -/
theorem diff_snd {s t : Timespec} (hs : s.Stamp) (ht : t.Reading) :
    (timespecDiff s t).2
      = if s.tvNsec < t.tvNsec then
          if s.tvSec - t.tvSec = 1 then s.tvNsec - t.tvNsec + nsecsInSec
          else s.tvSec - t.tvSec - 1
        else if s.tvSec = t.tvSec then s.tvNsec - t.tvNsec
        else s.tvSec - t.tvSec := by
  obtain ⟨hslo, hshi, hnlo, hnhi⟩ := hs
  obtain ⟨hslo', hshi', hnlo', hnhi'⟩ := ht
  unfold nsecsInSec at hnhi'
  unfold intMax at hshi hshi' hnhi
  unfold timespecDiff nsecsInSec
  rw [wrap32_of_fits (x := s.tvNsec - t.tvNsec) (by omega) (by omega),
    wrap32_of_fits (x := s.tvSec - t.tvSec) (by omega) (by omega)]
  dsimp only
  by_cases hborrow : s.tvNsec < t.tvNsec
  · rw [if_pos (show s.tvNsec - t.tvNsec < 0 by omega), if_pos hborrow,
      wrap32_of_fits (x := s.tvSec - t.tvSec - 1) (by omega) (by omega),
      wrap32_of_fits (x := s.tvNsec - t.tvNsec + 1000000000) (by omega) (by omega)]
    dsimp only
    by_cases hone : s.tvSec - t.tvSec = 1
    · rw [if_pos hone, if_pos (by omega)]
    · rw [if_neg hone, if_neg (by omega)]
  · rw [if_neg (show ¬ s.tvNsec - t.tvNsec < 0 by omega), if_neg hborrow]
    dsimp only
    by_cases heq : s.tvSec = t.tvSec
    · rw [if_pos heq, if_pos (by omega)]
    · rw [if_neg heq, if_neg (by omega)]

/-- **`timespec_diff` tells which time is later.** -/
theorem diff_nonpos_iff {s t : Timespec} (hs : s.Stamp) (ht : t.Reading) :
    (timespecDiff s t).2 ≤ 0 ↔ s.Le t := by
  rw [diff_snd hs ht]
  obtain ⟨-, -, hnlo, -⟩ := hs
  obtain ⟨-, -, -, hnhi'⟩ := ht
  unfold Timespec.Le
  split_ifs <;> omega

/-- No reading has reached the infinite time. -/
theorem diff_infinity_neg {t : Timespec} (ht : t.Reading) :
    (timespecDiff t timespecInfinity).2 < 0 := by
  obtain ⟨hslo, hshi, hnlo, hnhi⟩ := ht
  unfold nsecsInSec at hnhi
  unfold intMax at hshi
  unfold timespecDiff timespecInfinity intMax nsecsInSec
  dsimp only
  rw [wrap32_of_fits (x := t.tvNsec - 2147483647) (by omega) (by omega),
    wrap32_of_fits (x := t.tvSec - 2147483647) (by omega) (by omega),
    if_pos (show t.tvNsec - 2147483647 < 0 by omega),
    wrap32_of_fits (x := t.tvSec - 2147483647 - 1) (by omega) (by omega)]
  dsimp only
  rw [if_neg (by omega)]
  omega

/-! ## Sums and differences in nanoseconds -/

/-- The nanoseconds of a time. -/
def nanos (t : Timespec) : ℤ := t.tvSec * 1000000000 + t.tvNsec

/-- An era: the nanoseconds after which 32-bit seconds are the same again. -/
def eraNanos : ℤ := 2 ^ 32 * 1000000000

/-- Wrapping takes off a multiple of the range. -/
theorem wrap32_spec (x : ℤ) :
    ∃ q : ℤ, wrap32 x = x - 2 ^ 32 * q ∧ -2 ^ 31 ≤ wrap32 x ∧ wrap32 x < 2 ^ 31 := by
  have hcast : ((2 ^ 32 : ℕ) : ℤ) = 4294967296 := by norm_num
  have hlo : -(((2 ^ 32 : ℕ) : ℤ) / 2) ≤ wrap32 x := Int.le_bmod (by decide)
  have hhi : wrap32 x < (((2 ^ 32 : ℕ) : ℤ) + 1) / 2 := Int.bmod_lt (by decide)
  have hdvd : ((2 ^ 32 : ℕ) : ℤ) ∣ x - wrap32 x := Int.dvd_self_sub_bmod
  obtain ⟨q, hq⟩ := hdvd
  rw [hcast] at hlo hhi hq
  exact ⟨q, by omega, by omega, by omega⟩

/-- `timespec_add` is exact up to whole eras. -/
theorem add_nanos {s t : Timespec} (hs : s.Normalised) (ht : t.Normalised) :
    (timespecAdd s t).Normalised ∧
      ∃ q : ℤ, (timespecAdd s t).nanos = s.nanos + t.nanos - eraNanos * q := by
  obtain ⟨hslo, hshi⟩ := hs
  obtain ⟨htlo, hthi⟩ := ht
  unfold nsecsInSec at hshi hthi
  obtain ⟨q, hq, -⟩ := wrap32_spec (s.tvSec + t.tvSec)
  obtain ⟨q', hq', -⟩ := wrap32_spec (wrap32 (s.tvSec + t.tvSec) + 1)
  unfold timespecAdd nanos eraNanos Normalised nsecsInSec
  rw [wrap32_of_fits (x := s.tvNsec + t.tvNsec) (by omega) (by omega)]
  dsimp only
  split_ifs with hcarry
  · -- the carried second may begin another era
    rw [wrap32_of_fits (x := s.tvNsec + t.tvNsec - 1000000000) (by omega) (by omega)]
    exact ⟨⟨by dsimp only; omega, by dsimp only; omega⟩, q + q', by dsimp only; omega⟩
  · exact ⟨⟨by dsimp only; omega, by dsimp only; omega⟩, q, by dsimp only; omega⟩

/-- `timespec_diff` is exact up to whole eras, and what it returns has the sign of what it
stores. -/
theorem diff_nanos {s t : Timespec} (hs : s.Normalised) (ht : t.Normalised) :
    ((timespecDiff s t).1.Normalised ∧ -2 ^ 31 ≤ (timespecDiff s t).1.tvSec ∧
        (timespecDiff s t).1.tvSec < 2 ^ 31) ∧
      (0 ≤ (timespecDiff s t).2 ↔ 0 ≤ (timespecDiff s t).1.nanos) ∧
      ∃ q : ℤ, (timespecDiff s t).1.nanos = s.nanos - t.nanos - eraNanos * q := by
  obtain ⟨hslo, hshi⟩ := hs
  obtain ⟨htlo, hthi⟩ := ht
  unfold nsecsInSec at hshi hthi
  obtain ⟨q, hq, hqlo, hqhi⟩ := wrap32_spec (s.tvSec - t.tvSec)
  obtain ⟨q', hq', hqlo', hqhi'⟩ := wrap32_spec (wrap32 (s.tvSec - t.tvSec) - 1)
  unfold timespecDiff nanos eraNanos Normalised nsecsInSec
  rw [wrap32_of_fits (x := s.tvNsec - t.tvNsec) (by omega) (by omega)]
  dsimp only
  by_cases hborrow : s.tvNsec - t.tvNsec < 0
  · rw [if_pos hborrow,
      wrap32_of_fits (x := s.tvNsec - t.tvNsec + 1000000000) (by omega) (by omega)]
    refine ⟨⟨⟨by dsimp only; omega, by dsimp only; omega⟩, hqlo', hqhi'⟩, ?_, q + q',
      by dsimp only; omega⟩
    dsimp only
    split_ifs <;> omega
  · rw [if_neg hborrow]
    refine ⟨⟨⟨by dsimp only; omega, by dsimp only; omega⟩, hqlo, hqhi⟩, ?_, q, by dsimp only; omega⟩
    dsimp only
    split_ifs <;> omega

/-! ## Values whose seconds fit -/

/-- The seconds of a number of nanoseconds, rounded down, are 32-bit seconds. -/
def SecsFit (n : ℤ) : Prop := -2 ^ 31 ≤ n / 1000000000 ∧ n / 1000000000 < 2 ^ 31

/-- A value of the type, as the functions on it leave it. -/
structure Value (t : Timespec) : Prop where
  normalised : t.Normalised
  le_sec : -2 ^ 31 ≤ t.tvSec
  sec_lt : t.tvSec < 2 ^ 31

/-- The seconds of a time. -/
theorem Value.sec_eq {t : Timespec} (ht : t.Value) : t.nanos / 1000000000 = t.tvSec := by
  obtain ⟨⟨hlo, hhi⟩, -, -⟩ := ht
  unfold nsecsInSec at hhi
  unfold nanos
  omega

/-- They fit. -/
theorem Value.secsFit {t : Timespec} (ht : t.Value) : SecsFit t.nanos := by
  unfold SecsFit
  rw [ht.sec_eq]
  exact ⟨ht.le_sec, ht.sec_lt⟩

/-- A difference is a time. -/
theorem value_diff {s t : Timespec} (hs : s.Normalised) (ht : t.Normalised) :
    (timespecDiff s t).1.Value := by
  obtain ⟨⟨hnorm, hlo, hhi⟩, -⟩ := diff_nanos hs ht
  exact ⟨hnorm, hlo, hhi⟩

/-- A difference whose seconds fit is exact. -/
theorem diff_of_fits {s t : Timespec} (hs : s.Normalised) (ht : t.Normalised)
    (hfits : SecsFit (s.nanos - t.nanos)) :
    (timespecDiff s t).1.Value ∧ (timespecDiff s t).1.nanos = s.nanos - t.nanos := by
  obtain ⟨-, -, q, hq⟩ := diff_nanos hs ht
  have hval := value_diff hs ht
  have hsec := hval.sec_eq
  have hlo := hval.le_sec
  have hhi := hval.sec_lt
  refine ⟨hval, ?_⟩
  unfold SecsFit at hfits
  unfold eraNanos at hq
  omega

/-- A sum has 32-bit seconds. -/
theorem value_add {s t : Timespec} (hs : s.Normalised) (ht : t.Normalised) :
    (timespecAdd s t).Value := by
  refine ⟨(add_nanos hs ht).1, ?_, ?_⟩
  · unfold timespecAdd
    dsimp only
    split_ifs <;> exact (wrap32_spec _).choose_spec.2.1
  · unfold timespecAdd
    dsimp only
    split_ifs <;> exact (wrap32_spec _).choose_spec.2.2

/-- A sum whose seconds fit is exact, and no other one. -/
theorem add_eq_iff {s t : Timespec} (hs : s.Normalised) (ht : t.Normalised) :
    (timespecAdd s t).nanos = s.nanos + t.nanos ↔ SecsFit (s.nanos + t.nanos) := by
  obtain ⟨-, q, hq⟩ := add_nanos hs ht
  have hval := value_add hs ht
  have hsec := hval.sec_eq
  have hlo := hval.le_sec
  have hhi := hval.sec_lt
  unfold eraNanos at hq
  unfold SecsFit
  constructor
  · intro h
    rw [← h, hsec]
    exact ⟨hlo, hhi⟩
  · intro h
    omega

/-- The difference to zero is the time itself, and its sign is returned. -/
theorem diff_zero {t : Timespec} (ht : t.Value) :
    timespecDiff t timespecZero = (t, if t.tvSec = 0 then t.tvNsec else t.tvSec) := by
  obtain ⟨⟨hlo, hhi⟩, hslo, hshi⟩ := ht
  unfold nsecsInSec at hhi
  unfold timespecDiff timespecZero
  dsimp only
  rw [sub_zero, sub_zero, wrap32_of_fits (x := t.tvNsec) (by omega) (by omega),
    wrap32_of_fits (x := t.tvSec) (by omega) (by omega), if_neg (by omega)]

/-- **The sign of a time** is that of its difference from zero. -/
theorem diff_zero_nonpos_iff {t : Timespec} (ht : t.Value) :
    (timespecDiff t timespecZero).2 ≤ 0 ↔ t.nanos ≤ 0 := by
  obtain ⟨⟨hlo, hhi⟩, -⟩ := id ht
  unfold nsecsInSec at hhi
  rw [diff_zero ht]
  unfold nanos
  dsimp only
  split_ifs <;> omega

/-- Only zero is no time before zero. -/
theorem diff_zero_eq_zero {t : Timespec} (ht : t.Value)
    (h : (timespecDiff timespecZero t).2 = 0) : t = timespecZero := by
  obtain ⟨⟨hlo, hhi⟩, hslo, hshi⟩ := ht
  unfold nsecsInSec at hhi
  obtain ⟨q, hq, -⟩ := wrap32_spec (0 - t.tvSec)
  unfold timespecDiff timespecZero nsecsInSec at h
  rw [wrap32_of_fits (x := 0 - t.tvNsec) (by omega) (by omega)] at h
  dsimp only at h
  by_cases hneg : 0 - t.tvNsec < 0
  · -- a borrow leaves nanoseconds that are not zero
    rw [if_pos hneg, wrap32_of_fits (x := 0 - t.tvNsec + 1000000000) (by omega) (by omega)] at h
    dsimp only at h
    split_ifs at h with hsec
    · omega
    · exact absurd h hsec
  · rw [if_neg hneg] at h
    dsimp only at h
    have hsec : t.tvSec = 0 := by
      split_ifs at h with hsec
      · omega
      · omega
    have hnsec : t.tvNsec = 0 := by omega
    cases t
    cases hsec
    cases hnsec
    rfl

/-! ## Deadlines -/

/-- **A deadline is not reached early.**  The end of a wait that began at a reading may lie
behind the last second that fits; the difference to a later reading still has the sign of the
true one. -/
theorem nanos_le_of_reached {start timeout t : Timespec} (hstart : start.Normalised)
    (htimeout : timeout.Normalised) (hmax : timeout.tvSec ≤ intMax) (ht : t.Normalised)
    (hle : start.Le t) (h : 0 ≤ (timespecDiff t (timespecAdd start timeout)).2) :
    start.nanos + timeout.nanos ≤ t.nanos := by
  obtain ⟨hend, q, hq⟩ := add_nanos hstart htimeout
  obtain ⟨⟨⟨hdlo, hdhi⟩, -, hsec⟩, hsign, q', hq'⟩ := diff_nanos ht hend
  have hpos := hsign.1 h
  obtain ⟨hnlo, hnhi⟩ := hstart
  obtain ⟨-, hthi⟩ := htimeout
  obtain ⟨htlo, -⟩ := ht
  -- the true difference is above minus one half of an era, so no era lies between
  have hlower : -(2147483648 * 1000000000) < t.nanos - (start.nanos + timeout.nanos) := by
    unfold Timespec.Le at hle
    unfold nanos
    unfold intMax at hmax
    unfold nsecsInSec at hnhi hthi
    omega
  have hupper : (timespecDiff t (timespecAdd start timeout)).1.nanos < 2147483648 * 1000000000 := by
    unfold nanos
    unfold nsecsInSec at hdhi
    omega
  rw [hq] at hq'
  unfold eraNanos at hq hq'
  omega

/-- The difference is not positive exactly when what it stores is not. -/
theorem diff_nonpos_iff_nanos {s t : Timespec} (hs : s.Normalised) (ht : t.Normalised) :
    (timespecDiff s t).2 ≤ 0 ↔ (timespecDiff s t).1.nanos ≤ 0 := by
  obtain ⟨⟨hlo, hhi⟩, -⟩ := value_diff hs ht
  unfold nsecsInSec at hhi
  have hret : (timespecDiff s t).2 = if (timespecDiff s t).1.tvSec = 0
      then (timespecDiff s t).1.tvNsec else (timespecDiff s t).1.tvSec := rfl
  rw [hret]
  unfold nanos
  by_cases hsec : (timespecDiff s t).1.tvSec = 0
  · rw [if_pos hsec]
    omega
  · rw [if_neg hsec]
    omega

/-- **A deadline is met exactly**: the wrapped end of a wait that began at a reading is not
after a later reading exactly when the true end is not. -/
theorem met_iff {start timeout t : Timespec} (hstart : start.Reading)
    (htimeout : timeout.Normalised) (hpos : 0 ≤ timeout.tvSec) (hmax : timeout.tvSec ≤ intMax)
    (ht : t.Reading) (hle : start.Le t) :
    (timespecDiff (timespecAdd start timeout) t).2 ≤ 0
      ↔ start.nanos + timeout.nanos ≤ t.nanos := by
  obtain ⟨hend, q, hq⟩ := add_nanos hstart.normalised htimeout
  obtain ⟨-, -, q', hq'⟩ := diff_nanos hend ht.normalised
  obtain ⟨hlo, hhi⟩ := (value_diff hend ht.normalised).secsFit
  -- the true difference lies within half an era of zero, so the two wraps cancel
  have hbound : -(2147483648 * 1000000000) ≤ start.nanos + timeout.nanos - t.nanos ∧
      start.nanos + timeout.nanos - t.nanos < 2147483648 * 1000000000 := by
    obtain ⟨hslo, hshi, hnlo, hnhi⟩ := hstart
    obtain ⟨hslo', hshi', hnlo', hnhi'⟩ := ht
    obtain ⟨htlo, hthi⟩ := htimeout
    unfold Timespec.Le at hle
    unfold nanos
    unfold intMax at hmax hshi hshi'
    unfold nsecsInSec at hnhi hnhi' hthi
    omega
  rw [diff_nonpos_iff_nanos hend ht.normalised]
  unfold eraNanos at hq hq'
  omega

/-- **A deadline is reached exactly**: a later reading is not before the wrapped end of a wait
exactly when it is not before the true end. -/
theorem reached_iff {start timeout t : Timespec} (hstart : start.Reading)
    (htimeout : timeout.Normalised) (hpos : 0 ≤ timeout.tvSec) (hmax : timeout.tvSec ≤ intMax)
    (ht : t.Reading) (hle : start.Le t) :
    0 ≤ (timespecDiff t (timespecAdd start timeout)).2
      ↔ start.nanos + timeout.nanos ≤ t.nanos := by
  refine ⟨nanos_le_of_reached hstart.normalised htimeout hmax ht.normalised hle, fun h => ?_⟩
  obtain ⟨hend, q, hq⟩ := add_nanos hstart.normalised htimeout
  obtain ⟨-, hsign, q', hq'⟩ := diff_nanos ht.normalised hend
  obtain ⟨hlo, -⟩ := (value_diff ht.normalised hend).secsFit
  rw [hsign]
  -- the true difference is a time that a reading can show
  have hupper : t.nanos - (start.nanos + timeout.nanos) < 2147483648 * 1000000000 := by
    obtain ⟨hslo, -, hnlo, -⟩ := hstart
    obtain ⟨-, hshi', -, hnhi'⟩ := ht
    obtain ⟨htlo, -⟩ := htimeout
    unfold nanos
    unfold intMax at hshi'
    unfold nsecsInSec at hnhi'
    omega
  unfold eraNanos at hq hq'
  omega

/-! ## Whole seconds -/

section Seconds

variable {t : Timespec} (ht : t.Reading) {k : ℤ}

include ht

/-- Adding whole seconds to a reading carries nothing. -/
theorem add_seconds : timespecAdd t ⟨k, 0⟩ = ⟨wrap32 (t.tvSec + k), t.tvNsec⟩ := by
  obtain ⟨-, -, hnlo, hnhi⟩ := ht
  unfold nsecsInSec at hnhi
  unfold timespecAdd nsecsInSec
  dsimp only
  rw [add_zero, wrap32_of_fits (x := t.tvNsec) (by omega) (by omega), if_neg (by omega)]

/-- Whole seconds are added where they fit. -/
theorem add_seconds_of_fits (hk : 0 ≤ k) (hfits : t.tvSec + k ≤ intMax) :
    timespecAdd t ⟨k, 0⟩ = ⟨t.tvSec + k, t.tvNsec⟩ := by
  have hslo := ht.sec_nonneg
  unfold intMax at hfits
  rw [add_seconds ht, wrap32_of_fits (by omega) (by omega)]

/-- A sum that does not fit is a time before the epoch. -/
theorem add_seconds_of_overflow (hk : k ≤ intMax) (hover : intMax < t.tvSec + k) :
    timespecAdd t ⟨k, 0⟩ = ⟨t.tvSec + k - 2 ^ 32, t.tvNsec⟩ := by
  have hshi := ht.sec_le
  unfold intMax at hk hover hshi
  rw [add_seconds ht, wrap32_of_large (by omega) (by omega)]

end Seconds

end Timespec

end Nucleo
