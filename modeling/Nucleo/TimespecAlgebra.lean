/-
# Timespecs as an ordered additive structure

`timespec_add` and `timespec_diff` are read here on the objects that their pointers point
to, where `dst` may be one of the operands, and with an arithmetic that stops at the first
overflow.  On normalised values both are exact whenever the seconds of the result fit their
32 bits, the difference has the sign of the true one, and adding it back gives the time it was
taken from.  The seconds of the operands alone do not say that the result fits: the
carried or the borrowed second can be the one that does not.
-/
import Nucleo.TimespecOrder

namespace Nucleo

/-! ## Operations on objects -/

section Objects

variable {Loc : Type*} [DecidableEq Loc]

/-- `p->tv_sec = x`. -/
def storeSec (m : Loc → Timespec) (p : Loc) (x : ℤ) : Loc → Timespec :=
  Function.update m p { m p with tvSec := x }

/-- `p->tv_nsec = x`. -/
def storeNsec (m : Loc → Timespec) (p : Loc) (x : ℤ) : Loc → Timespec :=
  Function.update m p { m p with tvNsec := x }

/-- `timespec_add`, store by store. -/
def timespecAddAt (m : Loc → Timespec) (t1 t2 dst : Loc) : Loc → Timespec :=
  let m := storeSec m dst (wrap32 ((m t1).tvSec + (m t2).tvSec))
  let m := storeNsec m dst (wrap32 ((m t1).tvNsec + (m t2).tvNsec))
  if (m dst).tvNsec ≥ nsecsInSec then
    let m := storeNsec m dst (wrap32 ((m dst).tvNsec - nsecsInSec))
    storeSec m dst (wrap32 ((m dst).tvSec + 1))
  else m

/-- The objects of a function that has one more, its local variable. -/
def withLocal (m : Loc → Timespec) (tmp : Timespec) : Option Loc → Timespec
  | none => tmp
  | some p => m p

/-- `timespec_incr`: `tmp` is a copy of `*x`, and the sum goes back to `x`. -/
def timespecIncrAt (m : Loc → Timespec) (x step : Loc) : Loc → Timespec :=
  fun p => timespecAddAt (withLocal m (m x)) none (some step) (some x) (some p)

/-- `timespec_diff`: what it stores, unless `diff` is `NULL`, and what it returns. -/
def timespecDiffAt (m : Loc → Timespec) (toT fromT : Loc) (diff : Option Loc) :
    (Loc → Timespec) × ℤ :=
  let d := timespecDiff (m toT) (m fromT)
  match diff with
  | none => (m, d.2)
  | some p => (storeSec (storeNsec m p d.1.tvNsec) p d.1.tvSec, d.2)

theorem storeSec_tvNsec (m : Loc → Timespec) (p q : Loc) (x : ℤ) :
    (storeSec m p x q).tvNsec = (m q).tvNsec := by
  unfold storeSec
  by_cases hq : q = p
  · rw [hq, Function.update_self]
  · rw [Function.update_of_ne hq]

theorem storeSec_storeNsec (m : Loc → Timespec) (p : Loc) (x y : ℤ) :
    storeSec (storeNsec m p y) p x = Function.update m p ⟨x, y⟩ := by
  unfold storeSec storeNsec
  rw [Function.update_self, Function.update_idem]

theorem storeNsec_storeSec (m : Loc → Timespec) (p : Loc) (x y : ℤ) :
    storeNsec (storeSec m p x) p y = Function.update m p ⟨x, y⟩ := by
  unfold storeSec storeNsec
  rw [Function.update_self, Function.update_idem]

/-- The sum is that of the values before the call, whichever of the three objects are one:
the seconds are all read before they are written, and so are the nanoseconds. -/
theorem timespecAddAt_eq (m : Loc → Timespec) (t1 t2 dst : Loc) :
    timespecAddAt m t1 t2 dst = Function.update m dst (timespecAdd (m t1) (m t2)) := by
  unfold timespecAddAt timespecAdd
  dsimp only
  rw [storeSec_tvNsec, storeSec_tvNsec, storeNsec_storeSec, Function.update_self]
  dsimp only
  split_ifs with hcarry
  · unfold storeNsec
    rw [Function.update_self, Function.update_idem]
    unfold storeSec
    rw [Function.update_self, Function.update_idem]
  · rfl

theorem timespecIncrAt_eq (m : Loc → Timespec) (x step : Loc) :
    timespecIncrAt m x step = Function.update m x (timespecAdd (m x) (m step)) := by
  funext p
  unfold timespecIncrAt
  rw [timespecAddAt_eq]
  by_cases hp : p = x
  · rw [hp, Function.update_self, Function.update_self]
    rfl
  · rw [Function.update_of_ne hp, Function.update_of_ne (fun h => hp (Option.some.inj h))]
    rfl

/-- Nothing is stored before both times have been read. -/
theorem timespecDiffAt_some (m : Loc → Timespec) (toT fromT p : Loc) :
    timespecDiffAt m toT fromT (some p)
      = (Function.update m p (timespecDiff (m toT) (m fromT)).1,
        (timespecDiff (m toT) (m fromT)).2) := by
  show (storeSec (storeNsec m p _) p _, _) = _
  rw [storeSec_storeNsec]

end Objects

/-! ## Operations that stop at an overflow -/

/-- A result that a `long` can hold. -/
def checked32 (x : ℤ) : Option ℤ := if -2 ^ 31 ≤ x ∧ x < 2 ^ 31 then some x else none

theorem checked32_of_fits {x : ℤ} (hlo : -2 ^ 31 ≤ x) (hhi : x < 2 ^ 31) :
    checked32 x = some (wrap32 x) := by
  unfold checked32
  rw [if_pos ⟨hlo, hhi⟩, wrap32_of_fits hlo hhi]

/-- `timespec_add` with every operation checked. -/
def checkedAdd (t1 t2 : Timespec) : Option Timespec := do
  let sec ← checked32 (t1.tvSec + t2.tvSec)
  let nsec ← checked32 (t1.tvNsec + t2.tvNsec)
  if nsec ≥ nsecsInSec then
    let nsec ← checked32 (nsec - nsecsInSec)
    let sec ← checked32 (sec + 1)
    return ⟨sec, nsec⟩
  else
    return ⟨sec, nsec⟩

/-- What `timespec_diff` returns, given what it stores. -/
def diffReturn (d : Timespec) : ℤ := if d.tvSec = 0 then d.tvNsec else d.tvSec

/-- `timespec_diff` with every operation checked. -/
def checkedDiff (toT fromT : Timespec) : Option (Timespec × ℤ) := do
  let nsec ← checked32 (toT.tvNsec - fromT.tvNsec)
  let sec ← checked32 (toT.tvSec - fromT.tvSec)
  if nsec < 0 then
    let nsec ← checked32 (nsec + nsecsInSec)
    let sec ← checked32 (sec - 1)
    return (⟨sec, nsec⟩, diffReturn ⟨sec, nsec⟩)
  else
    return (⟨sec, nsec⟩, diffReturn ⟨sec, nsec⟩)

/-- The operation of the sources is the checked one where that has a result. -/
theorem checkedAdd_of_fits {s t : Timespec} (hs : s.Normalised) (ht : t.Normalised)
    (hlo : -2 ^ 31 ≤ s.tvSec + t.tvSec) (hhi : s.tvSec + t.tvSec < 2 ^ 31)
    (hfits : Timespec.SecsFit (s.nanos + t.nanos)) : checkedAdd s t = some (timespecAdd s t) := by
  obtain ⟨hslo, hshi⟩ := hs
  obtain ⟨htlo, hthi⟩ := ht
  unfold nsecsInSec at hshi hthi
  unfold Timespec.SecsFit Timespec.nanos at hfits
  unfold checkedAdd timespecAdd nsecsInSec
  rw [checked32_of_fits hlo hhi, checked32_of_fits (x := s.tvNsec + t.tvNsec) (by omega) (by omega),
    wrap32_of_fits hlo hhi, wrap32_of_fits (x := s.tvNsec + t.tvNsec) (by omega) (by omega)]
  dsimp only [Option.bind_eq_bind, Option.bind_some]
  split_ifs with hcarry
  · rw [checked32_of_fits (by omega) (by omega), Option.bind_some,
      checked32_of_fits (by omega) (by omega), Option.bind_some]
    rfl
  · rfl

theorem checkedDiff_of_fits {s t : Timespec} (hs : s.Normalised) (ht : t.Normalised)
    (hlo : -2 ^ 31 ≤ s.tvSec - t.tvSec) (hhi : s.tvSec - t.tvSec < 2 ^ 31)
    (hfits : Timespec.SecsFit (s.nanos - t.nanos)) : checkedDiff s t = some (timespecDiff s t) := by
  obtain ⟨hslo, hshi⟩ := hs
  obtain ⟨htlo, hthi⟩ := ht
  unfold nsecsInSec at hshi hthi
  unfold Timespec.SecsFit Timespec.nanos at hfits
  unfold checkedDiff timespecDiff nsecsInSec
  rw [checked32_of_fits hlo hhi, checked32_of_fits (x := s.tvNsec - t.tvNsec) (by omega) (by omega),
    wrap32_of_fits hlo hhi, wrap32_of_fits (x := s.tvNsec - t.tvNsec) (by omega) (by omega)]
  dsimp only [Option.bind_eq_bind, Option.bind_some]
  by_cases hborrow : s.tvNsec - t.tvNsec < 0
  · rw [if_pos hborrow, if_pos hborrow, checked32_of_fits (by omega) (by omega), Option.bind_some,
      checked32_of_fits (by omega) (by omega), Option.bind_some]
    rfl
  · rw [if_neg hborrow, if_neg hborrow]
    rfl

namespace Timespec

/-! ## The infinite time

Its nanoseconds are more than two seconds, so the borrow that brings the nanoseconds of a
difference up leaves them below zero. -/

/-- The difference of a reading to the infinite time: at most a second is borrowed, and
neither field leaves its range. -/
theorem checkedDiff_infinity {t : Timespec} (ht : t.Reading) :
    checkedDiff t timespecInfinity = some (timespecDiff t timespecInfinity) := by
  obtain ⟨hlo, hhi, hnlo, hnhi⟩ := ht
  unfold nsecsInSec at hnhi
  unfold intMax at hhi
  unfold checkedDiff timespecDiff timespecInfinity intMax nsecsInSec
  dsimp only
  rw [checked32_of_fits (x := t.tvNsec - 2147483647) (by omega) (by omega),
    checked32_of_fits (x := t.tvSec - 2147483647) (by omega) (by omega),
    wrap32_of_fits (x := t.tvNsec - 2147483647) (by omega) (by omega),
    wrap32_of_fits (x := t.tvSec - 2147483647) (by omega) (by omega)]
  dsimp only [Option.bind_eq_bind, Option.bind_some]
  rw [if_pos (by omega), if_pos (by omega), checked32_of_fits (by omega) (by omega),
    Option.bind_some, checked32_of_fits (by omega) (by omega), Option.bind_some]
  rfl

/-- The other way nothing is borrowed. -/
theorem checkedDiff_of_infinity {t : Timespec} (ht : t.Reading) :
    checkedDiff timespecInfinity t = some (timespecDiff timespecInfinity t) := by
  obtain ⟨hlo, hhi, hnlo, hnhi⟩ := ht
  unfold nsecsInSec at hnhi
  unfold intMax at hhi
  unfold checkedDiff timespecDiff timespecInfinity intMax nsecsInSec
  dsimp only
  rw [checked32_of_fits (x := 2147483647 - t.tvNsec) (by omega) (by omega),
    checked32_of_fits (x := 2147483647 - t.tvSec) (by omega) (by omega),
    wrap32_of_fits (x := 2147483647 - t.tvNsec) (by omega) (by omega),
    wrap32_of_fits (x := 2147483647 - t.tvSec) (by omega) (by omega)]
  dsimp only [Option.bind_eq_bind, Option.bind_some]
  rw [if_neg (by omega), if_neg (by omega)]
  rfl

/-- The infinite time is after every reading. -/
theorem diff_of_infinity_pos {t : Timespec} (ht : t.Reading) :
    0 < (timespecDiff timespecInfinity t).2 := by
  have hle : ¬ (timespecDiff timespecInfinity t).2 ≤ 0 := by
    rw [diff_nonpos_iff stamp_infinity ht]
    obtain ⟨-, hhi, -, hnhi⟩ := ht
    unfold nsecsInSec at hnhi
    unfold intMax at hhi
    unfold Timespec.Le timespecInfinity intMax
    dsimp only
    omega
  omega

/-! ## The algebra of normalised values -/

/-- A value is known by its nanoseconds, and those only have to be known up to eras. -/
theorem Value.eq_of_nanos {s t : Timespec} (hs : s.Value) (ht : t.Value) {q : ℤ}
    (h : s.nanos = t.nanos - eraNanos * q) : s = t := by
  obtain ⟨⟨hslo, hshi⟩, hsl, hsh⟩ := hs
  obtain ⟨⟨htlo, hthi⟩, htl, hth⟩ := ht
  unfold nsecsInSec at hshi hthi
  unfold nanos eraNanos at h
  have hsec : s.tvSec = t.tvSec := by omega
  have hnsec : s.tvNsec = t.tvNsec := by omega
  cases s
  cases t
  cases hsec
  cases hnsec
  rfl

theorem add_comm (s t : Timespec) : timespecAdd s t = timespecAdd t s := by
  unfold timespecAdd
  rw [Int.add_comm s.tvSec, Int.add_comm s.tvNsec]

/-- **Adding the difference back.**  Whatever eras the two operations lose cancel, or could
not be told from the time itself. -/
theorem add_diff_cancel {s t : Timespec} (hs : s.Value) (ht : t.Normalised) :
    timespecAdd t (timespecDiff s t).1 = s := by
  obtain ⟨⟨hnorm, -⟩, -, q, hq⟩ := diff_nanos hs.normalised ht
  obtain ⟨-, q', hq'⟩ := add_nanos ht hnorm
  refine (value_add ht hnorm).eq_of_nanos hs (q := q + q') ?_
  rw [hq', hq]
  ring

/-- A difference is exact when its seconds fit, and only then. -/
theorem diff_eq_iff {s t : Timespec} (hs : s.Normalised) (ht : t.Normalised) :
    (timespecDiff s t).1.nanos = s.nanos - t.nanos ↔ SecsFit (s.nanos - t.nanos) := by
  constructor
  · intro h
    rw [← h]
    exact (value_diff hs ht).secsFit
  · intro hfits
    exact (diff_of_fits hs ht hfits).2

/-- What is returned has the sign of what is stored. -/
theorem diff_snd_sign {s t : Timespec} (hs : s.Normalised) (ht : t.Normalised) :
    ((timespecDiff s t).2 < 0 ↔ (timespecDiff s t).1.nanos < 0) ∧
      ((timespecDiff s t).2 = 0 ↔ (timespecDiff s t).1.nanos = 0) ∧
      (0 < (timespecDiff s t).2 ↔ 0 < (timespecDiff s t).1.nanos) := by
  have hnonpos := diff_nonpos_iff_nanos hs ht
  have hnonneg := (diff_nanos hs ht).2.1
  refine ⟨?_, ?_, ?_⟩
  · rw [← not_le, ← not_le, hnonneg]
  · rw [le_antisymm_iff, le_antisymm_iff, hnonpos, hnonneg]
  · rw [← not_le, ← not_le, hnonpos]

/-- **The sign of a difference** is the order of the two times. -/
theorem diff_sign {s t : Timespec} (hs : s.Normalised) (ht : t.Normalised)
    (hfits : SecsFit (s.nanos - t.nanos)) :
    ((timespecDiff s t).2 < 0 ↔ s.nanos < t.nanos) ∧
      ((timespecDiff s t).2 = 0 ↔ s.nanos = t.nanos) ∧
      (0 < (timespecDiff s t).2 ↔ t.nanos < s.nanos) := by
  obtain ⟨hneg, hzero, hpos⟩ := diff_snd_sign hs ht
  rw [hneg, hzero, hpos, (diff_of_fits hs ht hfits).2]
  exact ⟨sub_neg, sub_eq_zero, sub_pos⟩

/-! ### Where the seconds fit -/

/-- The seconds of two times have a sum and a difference of 32 bits; nothing is said of the
second that is carried or borrowed. -/
structure SecondsFit (s t : Timespec) : Prop where
  le_add : -2 ^ 31 ≤ s.tvSec + t.tvSec
  add_lt : s.tvSec + t.tvSec < 2 ^ 31
  le_sub : -2 ^ 31 ≤ s.tvSec - t.tvSec
  sub_lt : s.tvSec - t.tvSec < 2 ^ 31

/-- **Timespecs are an ordered additive structure.**  On normalised values of either sign, a
sum and a difference are normalised, and they are exact when, and only when, their seconds,
with the second that is carried or borrowed, fit 32 bits; where those of the operands fit as
well, no operation overflows.  A difference added back gives the time; the sum does not depend on
the order of its operands, nor on which objects they are; the sign of the difference is the
order; and the infinite time compares as later than every reading, without an overflow. -/
theorem timespec_algebra :
    (∀ s t : Timespec, s.Value → t.Value →
      (timespecAdd s t).Normalised ∧ (timespecDiff s t).1.Normalised ∧
      ((timespecAdd s t).nanos = s.nanos + t.nanos ↔ SecsFit (s.nanos + t.nanos)) ∧
      ((timespecDiff s t).1.nanos = s.nanos - t.nanos ↔ SecsFit (s.nanos - t.nanos)) ∧
      timespecAdd t (timespecDiff s t).1 = s ∧
      timespecAdd s t = timespecAdd t s ∧
      (SecsFit (s.nanos - t.nanos) →
        ((timespecDiff s t).2 < 0 ↔ s.nanos < t.nanos) ∧
        ((timespecDiff s t).2 = 0 ↔ s.nanos = t.nanos) ∧
        (0 < (timespecDiff s t).2 ↔ t.nanos < s.nanos)) ∧
      (s.SecondsFit t → SecsFit (s.nanos + t.nanos) → checkedAdd s t = some (timespecAdd s t)) ∧
      (s.SecondsFit t → SecsFit (s.nanos - t.nanos) →
        checkedDiff s t = some (timespecDiff s t))) ∧
    (∀ (Loc : Type) [DecidableEq Loc] (m : Loc → Timespec) (t1 t2 dst : Loc),
      timespecAddAt m t1 t2 dst = Function.update m dst (timespecAdd (m t1) (m t2)) ∧
      timespecIncrAt m t1 t2 = Function.update m t1 (timespecAdd (m t1) (m t2)) ∧
      timespecDiffAt m t1 t2 (some dst) = (Function.update m dst (timespecDiff (m t1) (m t2)).1,
        (timespecDiff (m t1) (m t2)).2)) ∧
    ∀ t : Timespec, t.Reading →
      (timespecDiff t timespecInfinity).2 < 0 ∧ 0 < (timespecDiff timespecInfinity t).2 ∧
      checkedDiff t timespecInfinity = some (timespecDiff t timespecInfinity) ∧
      checkedDiff timespecInfinity t = some (timespecDiff timespecInfinity t) := by
  refine ⟨fun s t hs ht => ⟨?_, ?_, ?_, ?_, ?_, ?_, ?_, ?_, ?_⟩, fun Loc _ m t1 t2 dst => ?_,
    fun t ht => ?_⟩
  · exact (value_add hs.normalised ht.normalised).normalised
  · exact (value_diff hs.normalised ht.normalised).normalised
  · exact add_eq_iff hs.normalised ht.normalised
  · exact diff_eq_iff hs.normalised ht.normalised
  · exact add_diff_cancel hs ht.normalised
  · exact add_comm s t
  · exact diff_sign hs.normalised ht.normalised
  · intro hsecs hsum
    exact checkedAdd_of_fits hs.normalised ht.normalised hsecs.le_add hsecs.add_lt hsum
  · intro hsecs hdiff
    exact checkedDiff_of_fits hs.normalised ht.normalised hsecs.le_sub hsecs.sub_lt hdiff
  · exact ⟨timespecAddAt_eq m t1 t2 dst, timespecIncrAt_eq m t1 t2,
      timespecDiffAt_some m t1 t2 dst⟩
  · exact ⟨diff_infinity_neg ht, diff_of_infinity_pos ht, checkedDiff_infinity ht,
      checkedDiff_of_infinity ht⟩

/-- Half a second before the epoch, its distance from the epoch, and the last reading there
is. -/
theorem timespec_algebra_before_epoch :
    timespecAdd ⟨-1, 500000000⟩ (timespecDiff ⟨0, 0⟩ ⟨-1, 500000000⟩).1 = ⟨0, 0⟩ ∧
      0 < (timespecDiff ⟨0, 0⟩ ⟨-1, 500000000⟩).2 ∧
      (timespecDiff ⟨2147483647, 999999999⟩ timespecInfinity).2 < 0 := by
  have hzero : (⟨0, 0⟩ : Timespec).Value := ⟨⟨by decide, by decide⟩, by decide, by decide⟩
  have hhalf : (⟨-1, 500000000⟩ : Timespec).Value :=
    ⟨⟨by decide, by decide⟩, by decide, by decide⟩
  obtain ⟨-, -, -, -, hcancel, -, hsign, -⟩ := timespec_algebra.1 ⟨0, 0⟩ ⟨-1, 500000000⟩ hzero hhalf
  refine ⟨hcancel, (hsign ⟨by decide, by decide⟩).2.2.2 (by decide), ?_⟩
  exact (timespec_algebra.2.2 ⟨2147483647, 999999999⟩
    ⟨by decide, by decide, by decide, by decide⟩).1

/-- Seconds that fit with a carry or a borrow that does not: the sum of the first two times
is before the epoch, and the first second there is counts as after the one that follows the
epoch. -/
theorem timespec_algebra_overflows :
    ((⟨2147483647, 999999999⟩ : Timespec).Value ∧ (⟨0, 1⟩ : Timespec).Value ∧
      (⟨2147483647, 999999999⟩ : Timespec).SecondsFit ⟨0, 1⟩ ∧
      timespecAdd ⟨2147483647, 999999999⟩ ⟨0, 1⟩ = ⟨-2147483648, 0⟩ ∧
      (timespecAdd ⟨2147483647, 999999999⟩ ⟨0, 1⟩).nanos
        ≠ (⟨2147483647, 999999999⟩ : Timespec).nanos + (⟨0, 1⟩ : Timespec).nanos ∧
      checkedAdd ⟨2147483647, 999999999⟩ ⟨0, 1⟩ = none) ∧
    (⟨-2147483648, 0⟩ : Timespec).Value ∧ (⟨-2147483648, 0⟩ : Timespec).SecondsFit ⟨0, 1⟩ ∧
      (⟨-2147483648, 0⟩ : Timespec).nanos < (⟨0, 1⟩ : Timespec).nanos ∧
      0 < (timespecDiff ⟨-2147483648, 0⟩ ⟨0, 1⟩).2 := by
  refine ⟨⟨⟨⟨by decide, by decide⟩, by decide, by decide⟩,
      ⟨⟨by decide, by decide⟩, by decide, by decide⟩,
      ⟨by decide, by decide, by decide, by decide⟩, by decide, by decide, by decide⟩,
    ⟨⟨by decide, by decide⟩, by decide, by decide⟩,
    ⟨by decide, by decide, by decide, by decide⟩, by decide, by decide⟩

end Timespec

end Nucleo
