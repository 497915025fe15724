/-
# Expired timers

`sys_timers_manage` looks for the armed timer that expires next, and serves it if its time
has come, until there is none.  It reads the clocks anew each time: `clock n` is what
`clock_gettime` reads the time number `n`, on whichever clock.

While the clocks stand still (`still`), a timer that is served is disarmed or moved an interval
ahead of its clock, so it does not come up again: what is left to serve becomes less with every
round.
-/
import Nucleo.Timers
import Nucleo.TimespecOrder

namespace Nucleo

namespace Timer

open Signal Timespec

/-! ## The code -/

/-- The readings of the clocks, in the order in which they are taken. -/
abbrev Readings := ℕ → ClockId → Timespec

/-- The clocks stand still. -/
def still (now : ClockId → Timespec) : Readings := fun _ => now

section Code

variable (now : ClockId → Timespec) (clock : Readings) (t : SysTimers)

/-- `sys_timer_time_to_expiration`, for a reading of the clocks. -/
def sysTimerTimeToExpiration (td : Fin timerMax) : Timespec :=
  (timespecDiff (t td).value.itValue (now (t td).clockid)).1

/-- `sys_timer_isarmed`. -/
def sysTimerIsarmed (td : Fin timerMax) : Bool :=
  if !sysTimerIsallocated t td then false
  else if (timespecDiff timespecZero (t td).value.itValue).2 = 0 then false
  else true

/-- `sys_timer_iter`: the first armed entry behind `td`, or of all for −1. -/
def sysTimerIter (td : Option (Fin timerMax)) : Option (Fin timerMax) :=
  ((List.finRange timerMax).drop (td.elim 0 fun td => td.val + 1)).find? (sysTimerIsarmed t)

/-- `sys_timer_expires_before`, which reads the clock of each of the two. -/
def sysTimerExpiresBefore (n : ℕ) (t1 t2 : Fin timerMax) : Bool :=
  if (timespecDiff (sysTimerTimeToExpiration (clock n) t t1)
      (sysTimerTimeToExpiration (clock (n + 1)) t t2)).2 ≥ 0
  then false
  else true

/-- The body of the loop of `sys_timer_next_expiring`: the new `td_expiring`, and the number of
the next reading. -/
def sysTimerNextExpiringBody (n : ℕ) (titer : Fin timerMax) :
    Option (Fin timerMax) → Fin timerMax × ℕ
  | none => (titer, n)
  | some tdExpiring =>
      (if sysTimerExpiresBefore clock t n titer tdExpiring then titer else tdExpiring, n + 2)

/-- The loop of `sys_timer_next_expiring` at `titer`, from the reading number `n` on; the first
argument bounds the rounds. -/
def sysTimerNextExpiringLoop :
    ℕ → ℕ → Option (Fin timerMax) → Option (Fin timerMax) → Option (Option (Fin timerMax) × ℕ)
  | 0, _, _, _ => none
  | _ + 1, n, none, tdExpiring => some (tdExpiring, n)
  | fuel + 1, n, some titer, tdExpiring =>
      let r := sysTimerNextExpiringBody clock t n titer tdExpiring
      sysTimerNextExpiringLoop fuel r.2 (sysTimerIter t (some titer)) (some r.1)

/-- `sys_timer_next_expiring`, whose loop makes a round for each entry at most. -/
def sysTimerNextExpiring (n : ℕ) : Option (Option (Fin timerMax) × ℕ) :=
  sysTimerNextExpiringLoop clock t (timerMax + 1) n (sysTimerIter t none) none

end Code

/-- `sys_timers_manage` from the reading number `n` on: the entries for which it called
`timer_expired`, in order, and what it leaves; the first number bounds the rounds.  A reading that
`timer_expired` does not take, for it has no interval to add, is passed over. -/
def sysTimersManage {Q : Type} (I : QueueImpl Q) (clock : Readings) :
    ℕ → ℕ → SysTimers → SigState Q → Option (List (Fin timerMax) × SysTimers × SigState Q)
  | 0, _, _, _ => none
  | fuel + 1, n, t, s =>
      match sysTimerNextExpiring clock t n with
      | none => none
      | some (none, _) => some ([], t, s)
      | some (some td, n) =>
          if (timespecDiff (sysTimerTimeToExpiration (clock n) t td) timespecZero).2 ≤ 0 then
            let r := timerExpired I td (clock (n + 1) (t td).clockid) t s
            (sysTimersManage I clock fuel (n + 2) r.2.1 r.2.2).map fun rest =>
              (td :: rest.1, rest.2)
          else some ([], t, s)

/-! ## What is armed, and how long it has left -/

/-- The timer is allocated, and its next expiration is set. -/
structure Armed (t : SysTimers) (td : Fin timerMax) : Prop where
  allocated : (t td).timerid ≠ 0
  set : (t td).value.itValue ≠ timespecZero

/-- The nanoseconds that a timer has left on its clock. -/
def timeLeft (now : ClockId → Timespec) (t : SysTimers) (td : Fin timerMax) : ℤ :=
  (t td).value.itValue.nanos - (now (t td).clockid).nanos

/-- The expiry of an armed timer is at or before now. -/
structure Expired (now : ClockId → Timespec) (t : SysTimers) (td : Fin timerMax) : Prop where
  armed : Armed t td
  due : timeLeft now t td ≤ 0

/-- The timer is moved an interval ahead when it is served. -/
structure Periodic (now : ClockId → Timespec) (t : SysTimers) (td : Fin timerMax) : Prop where
  expired : Expired now t td
  interval : 0 < (t td).value.itInterval.nanos

/-- What a timer can have left during the call. -/
def CanHaveLeft (now : ClockId → Timespec) (t : SysTimers) (td : Fin timerMax) (n : ℤ) : Prop :=
  Armed t td ∧ n = timeLeft now t td ∨
    Periodic now t td ∧ n = (t td).value.itInterval.nanos

/-- Times are normalised, and no sum or difference of two of them runs over. -/
structure NoOverflow (now : ClockId → Timespec) (t : SysTimers) : Prop where
  clock : ∀ c, (now c).Value
  value : ∀ td, Armed t td → (t td).value.itValue.Value
  interval : ∀ td, Armed t td → (t td).value.itInterval.Value
  left : ∀ td, Armed t td → SecsFit (timeLeft now t td)
  between : ∀ td td' n n', CanHaveLeft now t td n → CanHaveLeft now t td' n' → SecsFit (n - n')
  rearmed : ∀ td, Periodic now t td →
    SecsFit ((now (t td).clockid).nanos + (t td).value.itInterval.nanos)

/-- The test of the code is the true one. -/
theorem isarmed_iff {t : SysTimers} {td : Fin timerMax}
    (hval : Armed t td → (t td).value.itValue.Value) :
    sysTimerIsarmed t td = true ↔ Armed t td := by
  unfold sysTimerIsarmed sysTimerIsallocated
  constructor
  · intro h
    split_ifs at h with hfree hzero
    refine ⟨?_, fun heq => hzero ?_⟩
    · rw [Bool.not_eq_true', decide_eq_false_iff_not, not_not] at hfree
      exact hfree
    · rw [heq]
      decide
  · intro h
    have hfree : ¬ (!decide ((t td).timerid ≠ 0)) = true := by
      rw [decide_eq_true h.allocated]
      decide
    rw [if_neg hfree, if_neg fun heq => h.set (diff_zero_eq_zero (hval h) heq)]

section Fits

variable {now : ClockId → Timespec} {t : SysTimers} (h : NoOverflow now t)

include h

/-- It is for every timer of the table. -/
theorem NoOverflow.armed_iff (td : Fin timerMax) : sysTimerIsarmed t td = true ↔ Armed t td :=
  isarmed_iff (h.value td)

/-- The time that is left is computed exactly. -/
theorem NoOverflow.timeToExpiration {td : Fin timerMax} (htd : Armed t td) :
    (sysTimerTimeToExpiration now t td).Value ∧
      (sysTimerTimeToExpiration now t td).nanos = timeLeft now t td :=
  diff_of_fits (h.value td htd).normalised (h.clock _).normalised (h.left td htd)

/-- Comparing two timers compares what they have left. -/
theorem NoOverflow.expiresBefore_iff (n : ℕ) {a b : Fin timerMax} (ha : Armed t a) (hb : Armed t b) :
    sysTimerExpiresBefore (still now) t n a b = true ↔ timeLeft now t a < timeLeft now t b := by
  obtain ⟨hval, hleft⟩ := h.timeToExpiration ha
  obtain ⟨hval', hleft'⟩ := h.timeToExpiration hb
  have hfits : SecsFit ((sysTimerTimeToExpiration now t a).nanos
      - (sysTimerTimeToExpiration now t b).nanos) := by
    rw [hleft, hleft']
    exact h.between a b _ _ (Or.inl ⟨ha, rfl⟩) (Or.inl ⟨hb, rfl⟩)
  have hsign := (diff_nanos hval.normalised hval'.normalised).2.1
  rw [(diff_of_fits hval.normalised hval'.normalised hfits).2, hleft, hleft'] at hsign
  unfold sysTimerExpiresBefore still
  split_ifs with hge
  · refine iff_of_false (by decide) ?_
    have := hsign.1 hge
    omega
  · refine iff_of_true rfl ?_
    have := hsign.not.1 hge
    omega

/-- Comparing with zero tells whether the time has come. -/
theorem NoOverflow.due_iff {td : Fin timerMax} (htd : Armed t td) :
    (timespecDiff (sysTimerTimeToExpiration now t td) timespecZero).2 ≤ 0
      ↔ timeLeft now t td ≤ 0 := by
  obtain ⟨hval, hleft⟩ := h.timeToExpiration htd
  rw [diff_zero_nonpos_iff hval, hleft]

end Fits

/-! ## The timer that expires next -/

theorem mem_drop_finRange {m n : ℕ} {d : Fin m} : d ∈ (List.finRange m).drop n ↔ n ≤ d.val := by
  rw [List.mem_drop_iff_getElem]
  constructor
  · rintro ⟨i, hi, heq⟩
    rw [List.getElem_finRange] at heq
    rw [← heq]
    exact Nat.le_add_right n i
  · intro h
    refine ⟨d.val - n, ?_, ?_⟩
    · rw [List.length_finRange]
      omega
    · rw [List.getElem_finRange, Fin.ext_iff]
      exact Nat.add_sub_cancel' h

/-- The first entry from `n` on with a property. -/
theorem find_drop_finRange {m n : ℕ} {p : Fin m → Bool} {d : Fin m}
    (h : ((List.finRange m).drop n).find? p = some d) :
    p d = true ∧ n ≤ d.val ∧ ∀ c : Fin m, n ≤ c.val → c.val < d.val → p c = false := by
  obtain ⟨hd, before, after, heq, hbefore⟩ := List.find?_eq_some_iff_append.1 h
  have hmem : d ∈ (List.finRange m).drop n := by
    rw [heq]
    exact List.mem_append_right _ List.mem_cons_self
  have hsorted : ((List.finRange m).drop n).Pairwise (· < ·) :=
    (List.pairwise_lt_finRange m).sublist (List.drop_sublist n _)
  refine ⟨hd, mem_drop_finRange.1 hmem, fun c hlo hhi => ?_⟩
  have hc : c ∈ before ++ d :: after := by
    rw [← heq]
    exact mem_drop_finRange.2 hlo
  rw [heq] at hsorted
  rcases List.mem_append.1 hc with hc | hc
  · exact Bool.eq_false_iff.2 fun hp => by
      have hno := hbefore c hc
      rw [hp] at hno
      cases hno
  · -- what stands at or behind `d` is not before it
    rcases List.mem_cons.1 hc with rfl | hc
    · omega
    · have hlt := (List.pairwise_cons.1 (List.pairwise_append.1 hsorted).2.1).1 c hc
      rw [Fin.lt_def] at hlt
      omega

/-- **The search** keeps what skipping entries that are not armed and the body of its loop
keep, and it ends. -/
theorem nextExpiringLoop_rule {clock : Readings} {t : SysTimers}
    {P : ℕ → Option (Fin timerMax) → ℕ → Prop}
    (hskip : ∀ m k e n, P k e n → k ≤ m →
      (∀ td : Fin timerMax, k ≤ td.val → td.val < m → sysTimerIsarmed t td = false) → P m e n)
    (hround : ∀ e (d : Fin timerMax) n, P d.val e n → sysTimerIsarmed t d = true →
      P (d.val + 1) (some (sysTimerNextExpiringBody clock t n d e).1)
        (sysTimerNextExpiringBody clock t n d e).2)
    (fuel : ℕ) {k n : ℕ} {e : Option (Fin timerMax)} (he : P k e n) (hk : k ≤ timerMax)
    (hfuel : timerMax < k + fuel) :
    ∃ e' n', sysTimerNextExpiringLoop clock t fuel n
        (((List.finRange timerMax).drop k).find? (sysTimerIsarmed t)) e = some (e', n') ∧
      P timerMax e' n' := by
  induction fuel generalizing k n e with
  | zero => omega
  | succ fuel ih =>
      cases hiter : ((List.finRange timerMax).drop k).find? (sysTimerIsarmed t) with
      | none =>
          refine ⟨e, n, rfl, hskip _ _ _ _ he hk fun td htd _ => ?_⟩
          have hno := List.find?_eq_none.1 hiter td (mem_drop_finRange.2 htd)
          exact Bool.eq_false_iff.2 hno
      | some d =>
          obtain ⟨harmed, hle, hbefore⟩ := find_drop_finRange hiter
          have hlt := d.isLt
          exact ih (k := d.val + 1) (hround _ _ _ (hskip _ _ _ _ he hle hbefore) harmed) (by omega)
            (by omega)

/-- **The rule for the loop** over the timers. -/
theorem nextExpiring_rule {clock : Readings} {t : SysTimers} {n : ℕ}
    {P : ℕ → Option (Fin timerMax) → ℕ → Prop} (hstart : P 0 none n)
    (hskip : ∀ m k e n, P k e n → k ≤ m →
      (∀ td : Fin timerMax, k ≤ td.val → td.val < m → sysTimerIsarmed t td = false) → P m e n)
    (hround : ∀ e (d : Fin timerMax) n, P d.val e n → sysTimerIsarmed t d = true →
      P (d.val + 1) (some (sysTimerNextExpiringBody clock t n d e).1)
        (sysTimerNextExpiringBody clock t n d e).2) :
    ∃ e n', sysTimerNextExpiring clock t n = some (e, n') ∧ P timerMax e n' :=
  nextExpiringLoop_rule hskip hround (timerMax + 1) hstart (Nat.zero_le _) (by omega)

/-! ### The least so far -/

/-- The armed timer among the first `n` entries that has least left, if one is armed. -/
def LeastBelow (now : ClockId → Timespec) (t : SysTimers) (n : ℕ) :
    Option (Fin timerMax) → Prop
  | none => ∀ td : Fin timerMax, td.val < n → ¬ Armed t td
  | some e => Armed t e ∧
      ∀ td : Fin timerMax, td.val < n → Armed t td → timeLeft now t e ≤ timeLeft now t td

/-- Timers that are not armed may be passed over. -/
theorem LeastBelow.mono {now : ClockId → Timespec} {t : SysTimers} {m n : ℕ}
    {e : Option (Fin timerMax)} (he : LeastBelow now t n e)
    (hno : ∀ td : Fin timerMax, n ≤ td.val → td.val < m → ¬ Armed t td) :
    LeastBelow now t m e := by
  cases e with
  | none =>
      intro td htd
      rcases Nat.lt_or_ge td.val n with hlt | hge
      · exact he td hlt
      · exact hno td hge htd
  | some e =>
      refine ⟨he.1, fun td htd harmed => ?_⟩
      rcases Nat.lt_or_ge td.val n with hlt | hge
      · exact he.2 td hlt harmed
      · exact absurd harmed (hno td hge htd)

section Next

variable {now : ClockId → Timespec} {t : SysTimers} (h : NoOverflow now t)

include h

/-- One round: the armed timer is the first one, or is compared with the least so far. -/
theorem LeastBelow.round (n : ℕ) {e : Option (Fin timerMax)} {d : Fin timerMax}
    (he : LeastBelow now t d.val e) (hd : Armed t d) :
    LeastBelow now t (d.val + 1) (some (sysTimerNextExpiringBody (still now) t n d e).1) := by
  cases e with
  | none =>
      refine ⟨hd, fun td htd harmed => ?_⟩
      rcases Nat.lt_succ_iff_lt_or_eq.1 htd with hlt | heq
      · exact absurd harmed (he td hlt)
      · rw [Fin.ext heq]
        exact le_rfl
  | some e =>
      have hbefore := h.expiresBefore_iff n hd he.1
      unfold sysTimerNextExpiringBody
      dsimp only
      split_ifs with hlt
      · have hless := hbefore.1 hlt
        refine ⟨hd, fun td htd harmed => ?_⟩
        rcases Nat.lt_succ_iff_lt_or_eq.1 htd with hlt | heq
        · exact hless.le.trans (he.2 td hlt harmed)
        · rw [Fin.ext heq]
      · have hge := hbefore.not.1 hlt
        refine ⟨he.1, fun td htd harmed => ?_⟩
        rcases Nat.lt_succ_iff_lt_or_eq.1 htd with hlt | heq
        · exact he.2 td hlt harmed
        · rw [Fin.ext heq]
          omega

/-- **The next timer** is the armed one that has least left. -/
theorem nextExpiring_spec (n : ℕ) :
    ∃ e n', sysTimerNextExpiring (still now) t n = some (e, n') ∧ LeastBelow now t timerMax e := by
  refine nextExpiring_rule (P := fun k e _ => LeastBelow now t k e)
    (fun td htd => absurd htd (Nat.not_lt_zero td.val)) ?_ ?_
  · intro m k e _ he _ hno
    refine he.mono fun td hlo hhi harmed => ?_
    have hfalse := hno td hlo hhi
    rw [(h.armed_iff td).2 harmed] at hfalse
    cases hfalse
  · intro e d n he hd
    exact he.round h n ((h.armed_iff d).1 hd)

end Next

/-! ## Serving a timer -/

/-- The table after `timer_expired`. -/
def served (now : ClockId → Timespec) (t : SysTimers) (td : Fin timerMax) : SysTimers :=
  Function.update t td ((t td).rearm (now (t td).clockid))

section Serve

variable (now : ClockId → Timespec) (t : SysTimers)

/-- Only one timer is served. -/
theorem served_of_ne {td d : Fin timerMax} (hd : d ≠ td) : served now t td d = t d :=
  Function.update_of_ne hd _ t

/-- That one is armed again. -/
theorem served_self (td : Fin timerMax) :
    served now t td td = (t td).rearm (now (t td).clockid) := Function.update_self td _ t

/-! ### The entry that is armed again -/

/-- It keeps its clock. -/
theorem rearm_clockid (n : Timespec) (e : SysTimer) : (e.rearm n).clockid = e.clockid := by
  unfold SysTimer.rearm
  split_ifs <;> rfl

/-- It keeps its interval. -/
theorem rearm_interval (n : Timespec) (e : SysTimer) :
    (e.rearm n).value.itInterval = e.value.itInterval := by
  unfold SysTimer.rearm
  split_ifs <;> rfl

/-- An interval moves the timer, and no interval disarms it. -/
theorem rearm_eq (n : Timespec) {e : SysTimer} (he : e.value.itInterval.Value) :
    e.rearm n = { e with value := { e.value with
      itValue := if 0 < e.value.itInterval.nanos then timespecAdd n e.value.itInterval
        else timespecZero } } := by
  have hsign := diff_zero_nonpos_iff he
  unfold SysTimer.rearm
  by_cases hpos : 0 < e.value.itInterval.nanos
  · rw [if_pos (show (timespecDiff e.value.itInterval timespecZero).2 > 0 by omega), if_pos hpos]
  · rw [if_neg (show ¬ (timespecDiff e.value.itInterval timespecZero).2 > 0 by omega),
      if_neg hpos]

/-- It expires an interval from now, or not at all. -/
theorem rearm_value (n : Timespec) {e : SysTimer} (he : e.value.itInterval.Value) :
    (e.rearm n).value.itValue
      = if 0 < e.value.itInterval.nanos then timespecAdd n e.value.itInterval
        else timespecZero := by
  rw [rearm_eq n he]

variable {now t}

/-- Whether a timer is armed depends on its entry. -/
theorem armed_congr {t' : SysTimers} {d : Fin timerMax} (heq : t' d = t d) :
    Armed t' d ↔ Armed t d := by
  constructor
  · rintro ⟨halloc, hset⟩
    rw [heq] at halloc hset
    exact ⟨halloc, hset⟩
  · rintro ⟨halloc, hset⟩
    rw [← heq] at halloc hset
    exact ⟨halloc, hset⟩

theorem timeLeft_congr {t' : SysTimers} {d : Fin timerMax} (heq : t' d = t d) :
    timeLeft now t' d = timeLeft now t d := by
  unfold timeLeft
  rw [heq]

theorem expired_congr {t' : SysTimers} {d : Fin timerMax} (heq : t' d = t d) :
    Expired now t' d ↔ Expired now t d := by
  have harmed := armed_congr heq
  have hleft : timeLeft now t' d = timeLeft now t d := timeLeft_congr heq
  constructor
  · rintro ⟨h, hdue⟩
    exact ⟨harmed.1 h, hleft ▸ hdue⟩
  · rintro ⟨h, hdue⟩
    exact ⟨harmed.2 h, hleft.symm ▸ hdue⟩

theorem canHaveLeft_congr {t' : SysTimers} {d : Fin timerMax} {n : ℤ} (heq : t' d = t d)
    (h : CanHaveLeft now t' d n) : CanHaveLeft now t d n := by
  rcases h with ⟨harmed, hn⟩ | ⟨⟨hexp, hint⟩, hn⟩
  · exact Or.inl ⟨(armed_congr heq).1 harmed, hn.trans (timeLeft_congr heq)⟩
  · rw [heq] at hint hn
    exact Or.inr ⟨⟨(expired_congr heq).1 hexp, hint⟩, hn⟩

variable (h : NoOverflow now t) {td : Fin timerMax} (htd : Expired now t td)

include h htd

/-- **A timer that was served** is disarmed, or has its interval left. -/
theorem served_left (harmed : Armed (served now t td) td) :
    Periodic now t td ∧ timeLeft now (served now t td) td = (t td).value.itInterval.nanos ∧
      (served now t td td).value.itValue.Value := by
  have hint := h.interval td htd.armed
  have hvalue := rearm_value (now (t td).clockid) hint
  rw [← served_self] at hvalue
  by_cases hpos : 0 < (t td).value.itInterval.nanos
  · rw [if_pos hpos] at hvalue
    have hperiodic : Periodic now t td := ⟨htd, hpos⟩
    have hclock := (h.clock (t td).clockid).normalised
    refine ⟨hperiodic, ?_, ?_⟩
    · unfold timeLeft
      rw [hvalue, served_self, rearm_clockid,
        (add_eq_iff hclock hint.normalised).2 (h.rearmed td hperiodic)]
      omega
    · rw [hvalue]
      exact value_add hclock hint.normalised
  · rw [if_neg hpos] at hvalue
    exact absurd hvalue harmed.set

/-- What was served does not come up again, and the others stay. -/
theorem expired_served_iff (d : Fin timerMax) :
    Expired now (served now t td) d ↔ Expired now t d ∧ d ≠ td := by
  by_cases hd : d = td
  · subst hd
    refine iff_of_false ?_ fun hcontra => hcontra.2 rfl
    rintro ⟨harmed, hdue⟩
    obtain ⟨hperiodic, hleft, -⟩ := served_left h htd harmed
    have hpos := hperiodic.interval
    omega
  · exact (expired_congr (served_of_ne now t hd)).trans (and_iff_left hd).symm

/-- A served timer can still have left what it could before. -/
theorem canHaveLeft_served {d : Fin timerMax} {n : ℤ}
    (hn : CanHaveLeft now (served now t td) d n) : CanHaveLeft now t d n := by
  by_cases hd : d = td
  · subst hd
    rcases hn with ⟨harmed, hn⟩ | ⟨hperiodic, -⟩
    · obtain ⟨hperiodic, hleft, -⟩ := served_left h htd harmed
      exact Or.inr ⟨hperiodic, hn.trans hleft⟩
    · exact absurd rfl ((expired_served_iff h htd d).1 hperiodic.expired).2
  · exact canHaveLeft_congr (served_of_ne now t hd) hn

/-- Serving a timer brings no overflow. -/
theorem NoOverflow.served : NoOverflow now (served now t td) := by
  have hint := h.interval td htd.armed
  -- the timer served has got new times; all others are as they were
  refine ⟨h.clock, fun d hd => ?_, fun d hd => ?_, fun d hd => ?_, fun d d' n n' hn hn' => ?_,
    fun d hd => ?_⟩
  · by_cases heq : d = td
    · subst heq
      exact (served_left h htd hd).2.2
    · have hsame := served_of_ne now t heq
      rw [hsame]
      exact h.value d ((armed_congr hsame).1 hd)
  · by_cases heq : d = td
    · subst heq
      rw [served_self, rearm_interval]
      exact hint
    · have hsame := served_of_ne now t heq
      rw [hsame]
      exact h.interval d ((armed_congr hsame).1 hd)
  · by_cases heq : d = td
    · subst heq
      rw [(served_left h htd hd).2.1]
      exact hint.secsFit
    · have hsame := served_of_ne now t heq
      rw [timeLeft_congr hsame]
      exact h.left d ((armed_congr hsame).1 hd)
  · exact h.between d d' n n' (canHaveLeft_served h htd hn) (canHaveLeft_served h htd hn')
  · obtain ⟨hexp, hne⟩ := (expired_served_iff h htd d).1 hd.expired
    have hsame := served_of_ne now t hne
    have hpos := hd.interval
    rw [hsame] at hpos ⊢
    exact h.rearmed d ⟨hexp, hpos⟩

end Serve

/-! ## The loop -/

/-- What a call serves and leaves: `l` are the timers that it called `timer_expired` for. -/
structure Managed (now : ClockId → Timespec) (t : SysTimers) (l : List (Fin timerMax))
    (t' : SysTimers) : Prop where
  nodup : l.Nodup
  mem_iff : ∀ td, td ∈ l ↔ Expired now t td
  sorted : l.Pairwise fun a b => timeLeft now t a ≤ timeLeft now t b
  expired : ∀ td, Expired now t td → t' td = (t td).rearm (now (t td).clockid)
  unexpired : ∀ td, ¬ Expired now t td → t' td = t td

/-- Nothing is served where nothing has expired. -/
theorem Managed.nil {now : ClockId → Timespec} {t : SysTimers} (h : ∀ td, ¬ Expired now t td) :
    Managed now t [] t :=
  ⟨List.nodup_nil, fun td => iff_of_false List.not_mem_nil (h td), List.Pairwise.nil,
    fun td htd => absurd htd (h td), fun _ _ => rfl⟩

/-- One timer more, which had least left. -/
theorem Managed.cons {now : ClockId → Timespec} {t t' : SysTimers} {td : Fin timerMax}
    {l : List (Fin timerMax)} (h : NoOverflow now t) (htd : Expired now t td)
    (hleast : ∀ d, Armed t d → timeLeft now t td ≤ timeLeft now t d)
    (hrest : Managed now (served now t td) l t') : Managed now t (td :: l) t' := by
  have hmem : ∀ d, d ∈ l ↔ Expired now t d ∧ d ≠ td := fun d =>
    (hrest.mem_iff d).trans (expired_served_iff h htd d)
  -- a timer is served once: behind it, it is not due
  have hself : ¬ Expired now (served now t td) td := fun hcontra =>
    ((expired_served_iff h htd td).1 hcontra).2 rfl
  refine ⟨?_, fun d => ?_, ?_, fun d hd => ?_, fun d hd => ?_⟩
  · exact List.nodup_cons.2 ⟨fun hin => ((hmem td).1 hin).2 rfl, hrest.nodup⟩
  · rw [List.mem_cons, hmem]
    constructor
    · rintro (rfl | ⟨hd, -⟩)
      · exact htd
      · exact hd
    · intro hd
      by_cases heq : d = td
      · exact Or.inl heq
      · exact Or.inr ⟨hd, heq⟩
  · refine List.pairwise_cons.2 ⟨fun d hd => hleast d ((hmem d).1 hd).1.armed, ?_⟩
    refine hrest.sorted.imp_of_mem fun {a b} ha hb hab => ?_
    rw [timeLeft_congr (served_of_ne now t ((hmem a).1 ha).2),
      timeLeft_congr (served_of_ne now t ((hmem b).1 hb).2)] at hab
    exact hab
  · by_cases heq : d = td
    · rw [heq, hrest.unexpired td hself, served_self]
    · have hsame := served_of_ne now t heq
      rw [hrest.expired d ((expired_congr hsame).2 hd), hsame]
  · have heq : d ≠ td := fun heq => hd (heq ▸ htd)
    have hsame := served_of_ne now t heq
    rw [hrest.unexpired d fun hcontra => hd ((expired_congr hsame).1 hcontra), hsame]

/-- The loop ends when no more timers have expired than it may make rounds. -/
theorem sysTimersManage_managed {Q : Type} (I : QueueImpl Q) {now : ClockId → Timespec}
    (fuel n : ℕ) {t : SysTimers} (s : SigState Q) (h : NoOverflow now t)
    {F : Finset (Fin timerMax)} (hF : ∀ td, td ∈ F ↔ Expired now t td)
    (hfuel : F.card < fuel) :
    ∃ l t' s', sysTimersManage I (still now) fuel n t s = some (l, t', s') ∧
      Managed now t l t' := by
  -- each round takes one timer off what is left
  induction fuel generalizing n t s F with
  | zero => omega
  | succ fuel ih =>
      obtain ⟨e, n', hnext, hleast⟩ := nextExpiring_spec h n
      unfold sysTimersManage
      rw [hnext]
      dsimp only
      cases e with
      | none =>
          exact ⟨[], t, s, rfl, Managed.nil fun td htd => hleast td td.isLt htd.armed⟩
      | some td =>
          obtain ⟨harmed, hmin⟩ := hleast
          have hdue : (timespecDiff (sysTimerTimeToExpiration (still now n') t td)
              timespecZero).2 ≤ 0 ↔ timeLeft now t td ≤ 0 := h.due_iff harmed
          dsimp only
          by_cases hexp : timeLeft now t td ≤ 0
          · have htd : Expired now t td := ⟨harmed, hexp⟩
            have hin : td ∈ F := (hF td).2 htd
            have hcard := Finset.card_erase_of_mem hin
            have hpos := Finset.card_pos.2 ⟨td, hin⟩
            rw [if_pos (hdue.2 hexp)]
            obtain ⟨l, t', s', hrest, hmanaged⟩ := ih (n' + 2) (t := served now t td)
              ((t td).notify I s).2 (h.served htd) (F := F.erase td)
              (fun d => by
                rw [Finset.mem_erase, hF, expired_served_iff h htd]
                exact and_comm) (by omega)
            refine ⟨td :: l, t', s', ?_, hmanaged.cons h htd fun d hd => hmin d d.isLt hd⟩
            exact congrArg (Option.map _) hrest
          · rw [if_neg (hdue.not.2 hexp)]
            refine ⟨[], t, s, rfl, Managed.nil fun d hd => hexp ?_⟩
            exact (hmin d d.isLt hd.armed).trans hd.due

/-- The number of rounds that always do. -/
theorem card_lt_of_timerMax_lt {fuel : ℕ} (hfuel : timerMax < fuel)
    (F : Finset (Fin timerMax)) : F.card < fuel :=
  (card_finset_fin_le F).trans_lt hfuel

/-- **`sys_timers_manage`** returns while the clocks stand still.  It serves each timer whose expiry is at or before now
once, those with least left first, and no other one; a periodic timer then expires an interval
from now and another one is disarmed, so that every armed timer expires after now. -/
theorem sysTimersManage_spec {Q : Type} (I : QueueImpl Q) {now : ClockId → Timespec}
    {t : SysTimers} (s : SigState Q) (h : NoOverflow now t) {fuel : ℕ} (hfuel : timerMax < fuel)
    (n : ℕ) : ∃ l t' s', sysTimersManage I (still now) fuel n t s = some (l, t', s') ∧
      l.Nodup ∧ (∀ td, td ∈ l ↔ Expired now t td) ∧
      (l.Pairwise fun a b => timeLeft now t a ≤ timeLeft now t b) ∧
      (∀ td, Armed t' td → 0 < timeLeft now t' td) ∧
      (∀ td, Expired now t td → t' td = { t td with value := { (t td).value with
        itValue := if 0 < (t td).value.itInterval.nanos
          then timespecAdd (now (t td).clockid) (t td).value.itInterval else timespecZero } }) ∧
      (∀ td, Periodic now t td → (t' td).value.itValue.nanos
        = (now (t td).clockid).nanos + (t td).value.itInterval.nanos) ∧
      ∀ td, ¬ Expired now t td → t' td = t td := by
  have hfinite : {td | Expired now t td}.Finite := Set.toFinite _
  obtain ⟨l, t', s', hcall, hmanaged⟩ := sysTimersManage_managed I fuel n s h
    (F := hfinite.toFinset) (fun td => hfinite.mem_toFinset) (card_lt_of_timerMax_lt hfuel _)
  refine ⟨l, t', s', hcall, hmanaged.nodup, hmanaged.mem_iff, hmanaged.sorted, ?_, ?_, ?_,
    hmanaged.unexpired⟩
  · intro td harmed
    by_cases htd : Expired now t td
    · have hsame : t' td = served now t td td := by
        rw [hmanaged.expired td htd, served_self]
      obtain ⟨hperiodic, hleft, -⟩ := served_left h htd ((armed_congr hsame.symm).2 harmed)
      have hpos := hperiodic.interval
      rw [timeLeft_congr hsame, hleft]
      exact hpos
    · have hsame := hmanaged.unexpired td htd
      rw [timeLeft_congr hsame]
      by_contra hdue
      exact htd ⟨(armed_congr hsame).1 harmed, not_lt.1 hdue⟩
  · intro td htd
    rw [hmanaged.expired td htd]
    exact rearm_eq _ (h.interval td htd.armed)
  · intro td htd
    have hint := h.interval td htd.expired.armed
    rw [hmanaged.expired td htd.expired, rearm_value _ hint, if_pos htd.interval]
    exact (add_eq_iff (h.clock _).normalised hint.normalised).2 (h.rearmed td htd)

instance : NeZero timerMax := ⟨by decide⟩

/-! ## Two timers that are late -/

/-- Two timers, when both clocks show five seconds: one of `CLOCK_MONOTONIC` with an interval of two
seconds should have expired four seconds ago, one of `CLOCK_REALTIME` three seconds ago. -/
def lateTimers : SysTimers :=
  Function.update (Function.update (fun _ => zeroTimer)
    0 ⟨1, .monotonic, ⟨.none, 0, 0⟩, ⟨⟨2, 0⟩, ⟨1, 0⟩⟩, 0⟩)
    1 ⟨2, .realtime, ⟨.signal, sigalrm, 7⟩, ⟨timespecZero, ⟨2, 0⟩⟩, 0⟩

/-- Two timers are armed. -/
theorem armed_lateTimers {td : Fin timerMax} (h : Armed lateTimers td) : td = 0 ∨ td = 1 := by
  by_contra hne
  obtain ⟨hne0, hne1⟩ := not_or.1 hne
  have hzero : lateTimers td = zeroTimer :=
    (Function.update_of_ne hne1 _ _).trans (Function.update_of_ne hne0 _ _)
  have halloc := h.allocated
  rw [hzero] at halloc
  exact halloc rfl

/-- No sum runs over. -/
theorem noOverflow_lateTimers : NoOverflow (fun _ => ⟨5, 0⟩) lateTimers := by
  have hleft0 : timeLeft (fun _ => ⟨5, 0⟩) lateTimers 0 = -4000000000 := by decide
  have hleft1 : timeLeft (fun _ => ⟨5, 0⟩) lateTimers 1 = -3000000000 := by decide
  have hcan : ∀ td n, CanHaveLeft (fun _ => ⟨5, 0⟩) lateTimers td n →
      -4000000000 ≤ n ∧ n ≤ 2000000000 := by
    rintro td n (⟨harmed, rfl⟩ | ⟨hperiodic, rfl⟩)
    · rcases armed_lateTimers harmed with rfl | rfl
      · omega
      · omega
    · rcases armed_lateTimers hperiodic.expired.armed with rfl | rfl
      · exact ⟨by decide, by decide⟩
      · exact ⟨by decide, by decide⟩
  refine ⟨fun _ => ⟨⟨by decide, by decide⟩, by decide, by decide⟩, fun td htd => ?_,
    fun td htd => ?_, fun td htd => ?_, fun td td' n n' hn hn' => ?_, fun td htd => ?_⟩
  · rcases armed_lateTimers htd with rfl | rfl
    · exact ⟨⟨by decide, by decide⟩, by decide, by decide⟩
    · exact ⟨⟨by decide, by decide⟩, by decide, by decide⟩
  · rcases armed_lateTimers htd with rfl | rfl
    · exact ⟨⟨by decide, by decide⟩, by decide, by decide⟩
    · exact ⟨⟨by decide, by decide⟩, by decide, by decide⟩
  · have hlt := hcan td _ (Or.inl ⟨htd, rfl⟩)
    unfold SecsFit
    omega
  · have hlt := hcan td n hn
    have hlt' := hcan td' n' hn'
    unfold SecsFit
    omega
  · rcases armed_lateTimers htd.expired.armed with rfl | rfl
    · exact ⟨by decide, by decide⟩
    · exact ⟨by decide, by decide⟩

/-- Both late timers are served; the periodic one then expires at seven seconds. -/
theorem sysTimersManage_late :
    ∃ l t' s', sysTimersManage listQueue (still fun _ => ⟨5, 0⟩) 33 0 lateTimers
        (SigState.zero listQueue) = some (l, t', s') ∧ 0 ∈ l ∧ 1 ∈ l ∧
      (t' 0).value.itValue.nanos = 7000000000 := by
  have hexp0 : Expired (fun _ => ⟨5, 0⟩) lateTimers 0 := ⟨⟨by decide, by decide⟩, by decide⟩
  have hexp1 : Expired (fun _ => ⟨5, 0⟩) lateTimers 1 := ⟨⟨by decide, by decide⟩, by decide⟩
  obtain ⟨l, t', s', hcall, -, hmem, -, -, -, hperiodic, -⟩ := sysTimersManage_spec listQueue
    (SigState.zero listQueue) noOverflow_lateTimers (show timerMax < 33 by decide) 0
  exact ⟨l, t', s', hcall, (hmem 0).2 hexp0, (hmem 1).2 hexp1, hperiodic 0 ⟨hexp0, by decide⟩⟩

end Timer

end Nucleo
