/-
# The estimate of the clock

`sntp_reply` computes the time from the three timestamps of a message and its own reading:
the reading moved by half of the sum of two differences.  The differences may be negative,
with nanoseconds that are not; each is halved for itself, rounded down, and the sums carry.
-/
import Nucleo.NtpTimes
import Nucleo.SyncSteps

namespace Nucleo

namespace Net

open Timespec

/-! ## The times of a message -/

/-- What a timestamp stands for: its seconds counted from 1970, its fraction to 64 µs. -/
structure Represents (t : Timespec) (nt : NtpTimestamp) : Prop where
  normalised : t.Normalised
  sec : t.tvSec = wrap32 ((htonl nt.ntpSec).toNat - 2208988800)
  nsec_le : t.tvNsec * 2 ^ 32 ≤ (htonl nt.ntpFract).toNat * 1000000000 + 64000 * 2 ^ 32
  le_nsec : (htonl nt.ntpFract).toNat * 1000000000 ≤ t.tvNsec * 2 ^ 32 + 64000 * 2 ^ 32

theorem represents_ntpToTimespec (nt : NtpTimestamp) : Represents (ntpToTimespec nt) nt := by
  have hnsec : (ntpToTimespec nt).tvNsec
      = (if (htonl nt.ntpFract).toNat + 131072 < 2 ^ 32 - 1 then (htonl nt.ntpFract).toNat + 131072
          else (htonl nt.ntpFract).toNat) / 262144 * 61035 := toInt_nsec _
  have hf := (htonl nt.ntpFract).isLt
  -- the factor is less than a part in 390000 too small, and the quotient rounded to 2 ^ 17,
  -- or to 2 ^ 18 where rounding would not fit
  refine ⟨⟨?_, ?_⟩, ?_, ?_, ?_⟩
  · rw [hnsec]
    split_ifs <;> omega
  · rw [hnsec]
    unfold nsecsInSec
    split_ifs <;> omega
  · show (htonl nt.ntpSec - secsToEpoch).toInt = _
    have hepoch : (secsToEpoch.toNat : ℤ) = 2208988800 := rfl
    obtain ⟨q, hq, hlo, hhi⟩ := wrap32_spec ((htonl nt.ntpSec).toNat - 2208988800)
    have hsec := (htonl nt.ntpSec).isLt
    rw [BitVec.toInt_eq_toNat_cond, BitVec.toNat_sub]
    split_ifs <;> omega
  · rw [hnsec]
    split_ifs <;> omega
  · rw [hnsec]
    split_ifs <;> omega

/-! ## Halves -/

/-- **`timespec_half` rounds down**, also where the seconds are negative and odd. -/
theorem timespecHalf_spec {d : Timespec} (hd : Value d) :
    (timespecHalf d).Normalised ∧ (timespecHalf d).nanos = d.nanos / 2 ∧
      -2 ^ 30 ≤ (timespecHalf d).tvSec ∧ (timespecHalf d).tvSec < 2 ^ 30 := by
  obtain ⟨⟨hlo, hhi⟩, hslo, hshi⟩ := hd
  unfold nsecsInSec at hhi
  unfold timespecHalf Normalised nanos nsecsInSec
  by_cases hodd : d.tvSec % 2 = 1
  · -- the odd second becomes nanoseconds, which are not negative
    rw [if_pos hodd, wrap32_of_fits (x := d.tvSec - 1) (by omega) (by omega),
      wrap32_of_fits (x := d.tvNsec + 1000000000) (by omega) (by omega),
      Int.tdiv_eq_ediv_of_dvd (by omega), Int.tdiv_eq_ediv_of_nonneg (by omega)]
    dsimp only
    omega
  · rw [if_neg hodd, Int.tdiv_eq_ediv_of_dvd (by omega), Int.tdiv_eq_ediv_of_nonneg hlo]
    dsimp only
    omega

/-! ## The estimate -/

section Estimate

variable {t1 t2 t3 t4 : Timespec} (h1 : t1.Normalised) (h2 : t2.Normalised)
  (h3 : t3.Normalised) (h4 : t4.Normalised) (h21 : SecsFit (t2.nanos - t1.nanos))
  (h34 : SecsFit (t3.nanos - t4.nanos))

include h1 h2 h3 h4 h21 h34

/-- The sum of the halves always fits. -/
theorem sum_of_halves :
    Value (timespecAdd (timespecHalf (timespecDiff t2 t1).1)
      (timespecHalf (timespecDiff t3 t4).1)) ∧
    (timespecAdd (timespecHalf (timespecDiff t2 t1).1) (timespecHalf (timespecDiff t3 t4).1)).nanos
      = (t2.nanos - t1.nanos) / 2 + (t3.nanos - t4.nanos) / 2 := by
  obtain ⟨hval, hnanos⟩ := diff_of_fits h2 h1 h21
  obtain ⟨hval', hnanos'⟩ := diff_of_fits h3 h4 h34
  obtain ⟨hnorm, hhalf, -, -⟩ := timespecHalf_spec hval
  obtain ⟨hnorm', hhalf', -, -⟩ := timespecHalf_spec hval'
  refine ⟨value_add hnorm hnorm', ?_⟩
  rw [(add_eq_iff hnorm hnorm').2, hhalf, hhalf', hnanos, hnanos']
  rw [hhalf, hhalf', hnanos, hnanos']
  unfold SecsFit at h21 h34 ⊢
  omega

/-- **The estimate is the exact time, rounded down** by less than a nanosecond for each of the
two halves, exactly when its seconds fit; and otherwise off by whole eras. -/
theorem systemClockEstimate_spec :
    Value (systemClockEstimate t1 t2 t3 t4) ∧
    (2 * t4.nanos + (t2.nanos - t1.nanos) + (t3.nanos - t4.nanos) - 2
        ≤ 2 * (systemClockEstimate t1 t2 t3 t4).nanos ∧
      2 * (systemClockEstimate t1 t2 t3 t4).nanos
        ≤ 2 * t4.nanos + (t2.nanos - t1.nanos) + (t3.nanos - t4.nanos)
      ↔ SecsFit (t4.nanos + ((t2.nanos - t1.nanos) / 2 + (t3.nanos - t4.nanos) / 2))) ∧
    ∃ q : ℤ, (systemClockEstimate t1 t2 t3 t4).nanos
      = t4.nanos + ((t2.nanos - t1.nanos) / 2 + (t3.nanos - t4.nanos) / 2)
        - eraNanos * q := by
  obtain ⟨hsum, hnanos⟩ := sum_of_halves h1 h2 h3 h4 h21 h34
  have hval := value_add h4 hsum.normalised
  have hiff := add_eq_iff h4 hsum.normalised
  obtain ⟨-, q, hq⟩ := add_nanos h4 hsum.normalised
  -- the bounds leave room for no era, so they hold exactly where the last sum does not run over
  rw [hnanos] at hiff hq
  refine ⟨hval, ?_, q, hq⟩
  rw [← hiff]
  unfold systemClockEstimate
  dsimp only
  unfold eraNanos at hq
  constructor
  · intro h
    omega
  · intro h
    omega

end Estimate

/-! ## The reply -/

/-- A message with the given words. -/
def messageOf (words : List (BitVec 32)) (i : ℕ) : Byte := (words.flatMap bytes32).getD i 0

/-- The reply of a server at the last second of the epoch to a request with the transmit time
zero. -/
def lateReply : ℕ → Byte :=
  messageOf (List.replicate 6 0 ++
    [htonl secsToEpoch, 0, htonl 61505151, 0, htonl 61505151, 0])

end Net

end Nucleo
