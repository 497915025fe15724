/-
# Times and NTP timestamps

`sntp.c` converts between nanoseconds and the fractions of 2 ^ 32 that NTP has with one
rounding shift and one 32-bit product each way.  Both products keep within their bounds
except that `timespec_to_ntp` multiplies 15259, the rounded quotient of the last
microseconds of a second, to just over 2 ^ 32.
-/
import Nucleo.Sntp
import Nucleo.TimespecOrder

namespace Nucleo

namespace Net

/-! ## The rounding shift -/

/-- The order of bytes is turned back. -/
theorem htonl_htonl (v : BitVec 32) : htonl (htonl v) = v := by
  have hbytes : bytes32 (htonl v)
      = [v.extractLsb' 24 8, v.extractLsb' 16 8, v.extractLsb' 8 8, v.extractLsb' 0 8] :=
    bytes32_append _ _ _ _
  unfold bytes32 at hbytes
  simp only [List.cons.injEq, and_true] at hbytes
  obtain ⟨h0, h1, h2, h3⟩ := hbytes
  show (htonl v).extractLsb' 0 8 ++ (htonl v).extractLsb' 8 8 ++ (htonl v).extractLsb' 16 8
    ++ (htonl v).extractLsb' 24 8 = v
  rw [h0, h1, h2, h3]
  ext i hi
  simp only [BitVec.getElem_append, BitVec.getElem_extractLsb']
  rw [← BitVec.getLsbD_eq_getElem hi]
  split_ifs <;> congr 1 <;> omega

/-- A shift that rounds, as a division. -/
theorem toNat_lsrr {v : BitVec 32} {k : ℕ} (hk : k < 31) :
    (lsrr v (k + 1)).toNat
      = (if v.toNat + 2 ^ k < 2 ^ 32 - 1 then v.toNat + 2 ^ k else v.toNat) / 2 ^ (k + 1) := by
  have hpow : 2 ^ k < 2 ^ 31 := Nat.pow_lt_pow_right (by norm_num) hk
  have hround : ((1 <<< k : ℕ) : BitVec 32).toNat = 2 ^ k := by
    rw [BitVec.natCast_eq_ofNat, BitVec.toNat_ofNat, Nat.one_shiftLeft]
    exact Nat.mod_eq_of_lt (by omega)
  have hmax : ((0xFFFFFFFF : BitVec 32) - ((1 <<< k : ℕ) : BitVec 32)).toNat
      = 2 ^ 32 - 1 - 2 ^ k := by
    rw [BitVec.toNat_sub_of_le (by rw [BitVec.le_def, hround]; simp; omega), hround]
    rfl
  have hv := v.isLt
  unfold lsrr
  rw [if_pos (Nat.succ_pos k), Nat.add_sub_cancel]
  dsimp only
  -- the guard of the source is the one under which adding the half does not run over
  by_cases hlt : v.toNat + 2 ^ k < 2 ^ 32 - 1
  · rw [if_pos hlt, if_pos (by rw [BitVec.lt_def, hmax]; omega), BitVec.toNat_ushiftRight,
      BitVec.toNat_add, hround, Nat.mod_eq_of_lt (by omega), Nat.shiftRight_eq_div_pow]
  · rw [if_neg hlt, if_neg (by rw [BitVec.lt_def, hmax]; omega), BitVec.toNat_ushiftRight,
      Nat.shiftRight_eq_div_pow]

/-! ## From a time to a timestamp and back -/

/-- A time that both conversions are for: after the epoch, with 32-bit seconds. -/
structure NtpTime (t : Timespec) : Prop where
  normalised : t.Normalised
  sec_nonneg : 0 ≤ t.tvSec
  sec_lt : t.tvSec < 2 ^ 31

/-- The first number of nanoseconds whose quotient by 2 ^ 16 is rounded to 15259. -/
def fractWraps : ℤ := 999981056

/-- What `timespec_to_ntp` makes of `n` nanoseconds: 15259 times the factor is past 2 ^ 32. -/
def fractOf (n : ℕ) : ℕ := if n < 999981056 then (n + 32768) / 65536 * 281475 else 59729

/-- A fraction stays below one. -/
theorem fractOf_le {n : ℕ} : fractOf n ≤ 4294745550 := by
  unfold fractOf
  split_ifs with h
  · have hq : (n + 32768) / 65536 ≤ 15258 := by omega
    omega
  · norm_num

/-- The nanoseconds as a word. -/
theorem toNat_ofInt_nsec {n : ℕ} (hn : n < 1000000000) : (BitVec.ofInt 32 (n : ℤ)).toNat = n := by
  rw [BitVec.ofInt_natCast, BitVec.toNat_ofNat]
  exact Nat.mod_eq_of_lt (by omega)

/-- **The fraction that is computed**. -/
theorem toNat_fract {n : ℕ} (hn : n < 1000000000) :
    (lsrr (BitVec.ofInt 32 (n : ℤ)) 16 * invNsecsInSec).toNat = fractOf n := by
  have hq : (lsrr (BitVec.ofInt 32 (n : ℤ)) 16).toNat = (n + 32768) / 65536 := by
    rw [toNat_lsrr (k := 15) (by norm_num), toNat_ofInt_nsec hn, if_pos (by omega)]
    norm_num
  have hfactor : invNsecsInSec.toNat = 281475 := rfl
  rw [BitVec.toNat_mul, hq, hfactor]
  unfold fractOf
  split_ifs with h
  · exact Nat.mod_eq_of_lt (by omega)
  · -- the one quotient whose product does not fit
    have hlast : (n + 32768) / 65536 = 15259 := by omega
    rw [hlast]

/-- What `ntp_to_timespec` makes of a fraction. -/
theorem toInt_nsec (f : BitVec 32) :
    (lsrr f 18 * lsrr 1000000000 (32 - 18)).toInt
        = (if f.toNat + 131072 < 2 ^ 32 - 1 then f.toNat + 131072 else f.toNat) / 262144
          * 61035 := by
  have hq : (lsrr f 18).toNat
      = (if f.toNat + 131072 < 2 ^ 32 - 1 then f.toNat + 131072 else f.toNat) / 262144 :=
    toNat_lsrr (k := 17) (by norm_num)
  have hfactor : (lsrr 1000000000 (32 - 18)).toNat = 61035 := by decide
  have hf := f.isLt
  have hle : (if f.toNat + 131072 < 2 ^ 32 - 1 then f.toNat + 131072 else f.toNat) / 262144
      ≤ 16383 := by
    split_ifs <;> omega
  have hmul : (lsrr f 18 * lsrr 1000000000 (32 - 18)).toNat
      = (if f.toNat + 131072 < 2 ^ 32 - 1 then f.toNat + 131072 else f.toNat) / 262144 * 61035 := by
    rw [BitVec.toNat_mul, hq, hfactor]
    exact Nat.mod_eq_of_lt (by omega)
  rw [BitVec.toInt_eq_toNat_of_lt (by rw [hmul]; omega), hmul]
  split_ifs <;> push_cast <;> rfl

/-! ### There and back -/

/-- The time that comes back. -/
theorem ntpToTimespec_timespecToNtp {s : ℤ} {n : ℕ} (h0 : 0 ≤ s) (h1 : s < 2 ^ 31)
    (hn : n < 1000000000) :
    ntpToTimespec (timespecToNtp ⟨s, n⟩)
      = ⟨s, (((fractOf n + 131072) / 262144 * 61035 : ℕ) : ℤ)⟩ := by
  have hsec : (BitVec.ofInt 32 s + secsToEpoch - secsToEpoch).toInt = s := by
    rw [BitVec.add_sub_cancel, BitVec.toInt_ofInt]
    exact wrap32_of_fits (by omega) h1
  have hfract := toNat_fract hn
  have hle : fractOf n ≤ 4294745550 := fractOf_le
  unfold ntpToTimespec timespecToNtp
  rw [htonl_htonl, htonl_htonl]
  dsimp only
  rw [hsec, toInt_nsec, hfract, if_pos (by omega)]
  push_cast
  rfl

/-- How far the time that comes back is off, below a second. -/
theorem fractOf_error {n : ℕ} (hn : n < 999981056) :
    (n : ℤ) - 100000 ≤ ((fractOf n + 131072) / 262144 * 61035 : ℕ) ∧
      (((fractOf n + 131072) / 262144 * 61035 : ℕ) : ℤ) ≤ n + 100000 := by
  unfold fractOf
  rw [if_pos hn]
  -- the two quotients, each with the bounds of its rounding
  obtain ⟨r, hr⟩ : ∃ r, (n + 32768) / 65536 = r := ⟨_, rfl⟩
  obtain ⟨q, hq⟩ : ∃ q, (r * 281475 + 131072) / 262144 = q := ⟨_, rfl⟩
  rw [hr, hq]
  have hrle : r ≤ 15258 := by omega
  have hlo : 65536 * r ≤ n + 32768 := by omega
  have hhi : n + 32768 < 65536 * r + 65536 := by omega
  have hqlo : 262144 * q ≤ r * 281475 + 131072 := by omega
  have hqhi : r * 281475 + 131072 < 262144 * q + 262144 := by omega
  omega

/-- A time has seconds and nanoseconds. -/
theorem NtpTime.exists_nsec {t : Timespec} (ht : NtpTime t) :
    ∃ n : ℕ, t = ⟨t.tvSec, n⟩ ∧ n < 1000000000 := by
  obtain ⟨⟨hlo, hhi⟩, -, -⟩ := ht
  obtain ⟨n, hn⟩ := Int.eq_ofNat_of_zero_le hlo
  unfold nsecsInSec at hhi
  refine ⟨n, ?_, by omega⟩
  rw [← hn]

/-- `ntp_to_timespec(timespec_to_ntp(t))` is within 100 µs of `t`. -/
def RoundTrips (t : Timespec) : Prop :=
  |(ntpToTimespec (timespecToNtp t)).nanos - t.nanos| ≤ 100000

/-- **The round trip**: exact to 100 µs up to the last microseconds of a second, and then off
by a second. -/
theorem roundTrips_iff {t : Timespec} (ht : NtpTime t) :
    RoundTrips t ↔ t.tvNsec < fractWraps := by
  obtain ⟨n, heq, hn⟩ := ht.exists_nsec
  unfold RoundTrips fractWraps
  rw [heq, ntpToTimespec_timespecToNtp ht.sec_nonneg ht.sec_lt hn]
  unfold Timespec.nanos
  dsimp only
  rw [abs_le]
  by_cases hwrap : n < 999981056
  · obtain ⟨hlo, hhi⟩ := fractOf_error hwrap
    constructor
    · intro _
      omega
    · intro _
      omega
  · have hlast : fractOf n = 59729 := by
      unfold fractOf
      rw [if_neg hwrap]
    rw [hlast]
    constructor
    · intro h
      omega
    · intro h
      omega

/-! ## The order of timestamps -/

/-- A timestamp as the number of 64 bits that it is. -/
def NtpTimestamp.value (nt : NtpTimestamp) : BitVec 64 := htonl nt.ntpSec ++ htonl nt.ntpFract

/-- The seconds of NTP begin again every 2 ^ 32: one timestamp is not before another if it is
less than half of that behind it. -/
def NtpTimestamp.NotBefore (nt' nt : NtpTimestamp) : Prop := 0 ≤ (nt'.value - nt.value).toInt

/-- A timestamp as a number. -/
theorem toNat_value (s : ℤ) {n : ℕ} (hn : n < 1000000000) :
    ((timespecToNtp ⟨s, n⟩).value.toNat : ℤ)
      = (s + 2208988800) % 2 ^ 32 * 2 ^ 32 + fractOf n := by
  have hsec : ((BitVec.ofInt 32 s + secsToEpoch).toNat : ℤ) = (s + 2208988800) % 2 ^ 32 := by
    have hepoch : secsToEpoch.toNat = 2208988800 := rfl
    rw [BitVec.toNat_add, BitVec.toNat_ofInt, hepoch]
    push_cast
    omega
  have hfract := toNat_fract hn
  have hlt : fractOf n < 2 ^ 32 := lt_of_le_of_lt fractOf_le (by norm_num)
  unfold NtpTimestamp.value timespecToNtp
  dsimp only
  rw [htonl_htonl, htonl_htonl, BitVec.toNat_append, hfract, ← Nat.shiftLeft_add_eq_or_of_lt hlt,
    Nat.shiftLeft_eq]
  push_cast
  rw [hsec]
  norm_num

/-- A difference of 64 bits that fits is the difference of the timestamps. -/
theorem toInt_sub_of_fits {v v' : BitVec 64} {d q : ℤ}
    (h : (v'.toNat : ℤ) - v.toNat = d + 2 ^ 64 * q) (hlo : -2 ^ 63 ≤ d) (hhi : d < 2 ^ 63) :
    (v' - v).toInt = d := by
  have hv := v.isLt
  have hv' := v'.isLt
  rw [BitVec.toInt_eq_toNat_cond, BitVec.toNat_sub]
  split_ifs <;> omega

/-! ### The fractions -/

/-- Where the fractions keep the order. -/
theorem fractOf_le_iff {n n' : ℕ} (hle : n ≤ n') :
    fractOf n ≤ fractOf n' ↔ n' < 999981056 ∨ 999981056 ≤ n ∨ n < 32768 := by
  have hmono : (n + 32768) / 65536 ≤ (n' + 32768) / 65536 := Nat.div_le_div_right (by omega)
  unfold fractOf
  by_cases h' : n' < 999981056
  · rw [if_pos h', if_pos (by omega)]
    exact ⟨fun _ => Or.inl h', fun _ => Nat.mul_le_mul_right _ hmono⟩
  · rw [if_neg h']
    by_cases h : n < 999981056
    · -- only the fraction zero is not above the wrapped one
      rw [if_pos h]
      omega
    · rw [if_neg h]
      exact ⟨fun _ => Or.inr (Or.inl (by omega)), fun _ => le_rfl⟩

/-- Of two times of one second the wrapped fraction belongs to neither, to both, or comes after
a fraction that is zero. -/
def KeepsOrder (t t' : Timespec) : Prop :=
  t.tvSec = t'.tvSec → t'.tvNsec < fractWraps ∨ fractWraps ≤ t.tvNsec ∨ t.tvNsec < 32768

/-- The second at which the 32 bits of NTP seconds begin again. -/
def ntpRollOver : ℤ := 2085978496

theorem fractOf_le_iff_keepsOrder {t t' : Timespec} {n n' : ℕ} (hn : t.tvNsec = n)
    (hn' : t'.tvNsec = n') (hle : t.Le t') (hsec : t.tvSec = t'.tvSec) :
    fractOf n ≤ fractOf n' ↔ KeepsOrder t t' := by
  have hnle : n ≤ n' := by
    unfold Timespec.Le at hle
    omega
  rw [fractOf_le_iff hnle]
  unfold KeepsOrder fractWraps
  constructor
  · intro h _
    omega
  · intro h
    have := h hsec
    omega

section Order

variable {t t' : Timespec} (ht : NtpTime t) (ht' : NtpTime t') (hle : t.Le t')

include ht ht' hle

/-- The two timestamps as numbers: seconds that may have begun again, and fractions. -/
theorem exists_values :
    ∃ f f' : ℕ, (f ≤ 4294745550 ∧ f' ≤ 4294745550) ∧
      ((timespecToNtp t).value.toNat : ℤ) = (t.tvSec + 2208988800) % 2 ^ 32 * 2 ^ 32 + f ∧
      ((timespecToNtp t').value.toNat : ℤ) = (t'.tvSec + 2208988800) % 2 ^ 32 * 2 ^ 32 + f' ∧
      t.tvSec ≤ t'.tvSec ∧ (t.tvSec = t'.tvSec → (f ≤ f' ↔ KeepsOrder t t')) := by
  obtain ⟨n, heq, hn⟩ := ht.exists_nsec
  obtain ⟨n', heq', hn'⟩ := ht'.exists_nsec
  have hv := toNat_value t.tvSec hn
  have hv' := toNat_value t'.tvSec hn'
  rw [← heq] at hv
  rw [← heq'] at hv'
  have hsecs : t.tvSec ≤ t'.tvSec := by
    unfold Timespec.Le at hle
    omega
  exact ⟨fractOf n, fractOf n', ⟨fractOf_le, fractOf_le⟩, hv, hv', hsecs,
    fractOf_le_iff_keepsOrder (by rw [heq]) (by rw [heq']) hle⟩

/-- **Where the timestamps do**. -/
theorem notBefore_iff : (timespecToNtp t').NotBefore (timespecToNtp t) ↔ KeepsOrder t t' := by
  obtain ⟨f, f', hfs, hv, hv', hsecs, hkeeps⟩ := exists_values ht ht' hle
  have hlo := ht.sec_nonneg
  have hhi' := ht'.sec_lt
  -- the seconds of the two may have begun again a different number of times
  have hdiff : ((timespecToNtp t').value.toNat : ℤ) - (timespecToNtp t).value.toNat
      = ((t'.tvSec - t.tvSec) * 2 ^ 32 + (f' - f))
        + 2 ^ 64 * ((t.tvSec + 2208988800) / 2 ^ 32 - (t'.tvSec + 2208988800) / 2 ^ 32) := by
    omega
  unfold NtpTimestamp.NotBefore
  rw [toInt_sub_of_fits hdiff (by omega) (by omega)]
  by_cases hsec : t.tvSec = t'.tvSec
  · rw [← hkeeps hsec]
    omega
  · constructor
    · intro _ h
      exact absurd h hsec
    · intro _
      omega

/-- Where their numbers do. -/
theorem value_le_iff : (timespecToNtp t).value ≤ (timespecToNtp t').value
    ↔ KeepsOrder t t' ∧ (t'.tvSec < ntpRollOver ∨ ntpRollOver ≤ t.tvSec) := by
  obtain ⟨f, f', hfs, hv, hv', hsecs, hkeeps⟩ := exists_values ht ht' hle
  have hlo := ht.sec_nonneg
  have hhi' := ht'.sec_lt
  rw [BitVec.le_def]
  unfold ntpRollOver
  by_cases hsec : t.tvSec = t'.tvSec
  · rw [← hkeeps hsec]
    omega
  · have horder : KeepsOrder t t' := fun h => absurd h hsec
    constructor
    · intro h
      exact ⟨horder, by omega⟩
    · intro h
      omega

/-- **`timespec_to_ntp`**: where the time that comes back is within 100 µs, and where the later
of two times gets no earlier timestamp; as plain numbers the timestamps are in order if also
no roll-over of the NTP seconds lies between them. -/
theorem timespecToNtp_iff :
    (RoundTrips t ↔ t.tvNsec < fractWraps) ∧
    ((timespecToNtp t').NotBefore (timespecToNtp t) ↔ KeepsOrder t t') ∧
    ((timespecToNtp t).value ≤ (timespecToNtp t').value
      ↔ KeepsOrder t t' ∧ (t'.tvSec < ntpRollOver ∨ ntpRollOver ≤ t.tvSec)) :=
  ⟨roundTrips_iff ht, notBefore_iff ht ht' hle, value_le_iff ht ht' hle⟩

end Order

theorem ntpTime_of_second {n : ℤ} (h0 : 0 ≤ n) (h1 : n < 1000000000) : NtpTime ⟨0, n⟩ :=
  ⟨⟨h0, h1⟩, le_rfl, by norm_num⟩

/-! ### Two times -/

/-- In the middle of the first second. -/
theorem timespecToNtp_half_second :
    RoundTrips ⟨0, 500000000⟩ ∧
      (timespecToNtp ⟨0, 600000000⟩).NotBefore (timespecToNtp ⟨0, 500000000⟩) :=
  have hle : Timespec.Le ⟨0, 500000000⟩ ⟨0, 600000000⟩ := Or.inr ⟨rfl, by norm_num⟩
  have h := timespecToNtp_iff (ntpTime_of_second (by norm_num) (by norm_num))
    (ntpTime_of_second (by norm_num) (by norm_num)) hle
  ⟨h.1.2 (by decide), h.2.1.2 fun _ => Or.inl (by decide)⟩

/-- 19 µs before the end of a second the timestamp is that of its beginning. -/
theorem last_microseconds_wrap :
    (¬ ∀ t, NtpTime t → RoundTrips t) ∧
    ¬ ∀ t t', NtpTime t → NtpTime t' → t.Le t' →
      (timespecToNtp t').NotBefore (timespecToNtp t) := by
  have hlast : NtpTime ⟨0, 999981056⟩ := ntpTime_of_second (by norm_num) (by norm_num)
  constructor
  · intro h
    have hback : ¬ RoundTrips ⟨0, 999981056⟩ := by
      unfold RoundTrips
      decide
    exact hback (h _ hlast)
  · intro h
    have hbefore : ¬ (timespecToNtp ⟨0, 999981056⟩).NotBefore (timespecToNtp ⟨0, 999981055⟩) := by
      unfold NtpTimestamp.NotBefore
      decide
    exact hbefore (h ⟨0, 999981055⟩ _ (ntpTime_of_second (by norm_num) (by norm_num)) hlast
      (Or.inr ⟨rfl, by norm_num⟩))

end Net

end Nucleo
