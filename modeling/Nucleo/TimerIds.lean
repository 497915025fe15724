/-
# Timer identifiers

An identifier is the number of a table entry plus one.  The functions that take one check
whether the entry it stands for is allocated, and not whether it stands for an entry: they
read the table at any index that fits an `int`.  Within the table the check is enough, for
the entries in use are those whose identifiers have been given out and not yet deleted.

`timer_settime` ends with `sys_timers_manage`, which reads the clock anew each time it looks at
a timer.  A timer whose interval is over before that is served again, and so the call returns
if some time the timer is found waiting (`ComesToWait`).
-/
import Nucleo.TimersManage

namespace Nucleo

namespace Timer

open Signal Timespec

/-! ## The code -/

/-- `sys_timerid2td`: an unsigned difference, as an `int`. -/
def sysTimerid2td (timerid : BitVec 32) : ℤ := (timerid - 1).toInt

/-- The entry at an index, if there is one. -/
def inTable (td : ℤ) : Option (Fin timerMax) :=
  if h : 0 ≤ td ∧ td < timerMax then some ⟨td.toNat, by omega⟩ else none

/-- How a call with an identifier ends; a call that returns has left the table as given. -/
inductive IdOutcome (α : Type)
  /-- It reads outside of the table. -/
  | outside
  /-- It is still in a loop. -/
  | running
  | returned (ret : Except Errno α) (table : SysTimers)

/-- What the functions begin with: the check of the entry, and `EINVAL`. -/
def onTimer {α : Type} (t : SysTimers) (timerid : BitVec 32) (f : Fin timerMax → IdOutcome α) :
    IdOutcome α :=
  match inTable (sysTimerid2td timerid) with
  | none => .outside
  | some td => if sysTimerIsallocated t td then f td else .returned (.error .EINVAL) t

/-- `sys_timer_free`. -/
def sysTimerFree (t : SysTimers) (td : ℤ) : SysTimers :=
  match inTable td with
  | some td => Function.update t td { t td with timerid := 0 }
  | none => t

/-- `timer_delete`. -/
def timerDelete (t : SysTimers) (timerid : BitVec 32) : IdOutcome PUnit :=
  onTimer t timerid fun td => .returned (.ok ⟨⟩) (sysTimerFree t td.val)

/-- `timer_getoverrun`. -/
def timerGetoverrun (t : SysTimers) (timerid : BitVec 32) : IdOutcome ℤ :=
  onTimer t timerid fun td => .returned (.ok (t td).overrun) t

/-- The value that `timer_gettime` stores, and `timer_settime` as the old one. -/
def currentValue (now : ClockId → Timespec) (t : SysTimers) (td : Fin timerMax) : Itimerspec :=
  if sysTimerIsarmed t td then ⟨(t td).value.itInterval, sysTimerTimeToExpiration now t td⟩
  else (t td).value

/-- `timer_gettime`. -/
def timerGettime (now : ClockId → Timespec) (t : SysTimers) (timerid : BitVec 32) :
    IdOutcome Itimerspec :=
  onTimer t timerid fun td => .returned (.ok (currentValue now t td)) t

/-- `TIMER_ABSTIME`. -/
def timerAbstime : BitVec 32 := 4

/-- The entry that `timer_settime` stores. -/
def SysTimer.settime (now : Timespec) (flags : BitVec 32) (newValue : Itimerspec)
    (e : SysTimer) : SysTimer :=
  if (timespecDiff newValue.itValue timespecZero).2 ≠ 0 ∧ flags &&& timerAbstime = 0 then
    { e with value := ⟨newValue.itInterval, timespecAdd now newValue.itValue⟩ }
  else { e with value := newValue }

/-- `timer_settime`: the old value, and the signals that `sys_timers_manage` queued.  The first
reading of the clock is for the old value and the second for the new one; one that is not taken
is passed over. -/
def timerSettime {Q : Type} (I : QueueImpl Q) (clock : Readings) (fuel : ℕ)
    (t : SysTimers) (s : SigState Q) (timerid flags : BitVec 32) (newValue : Itimerspec) :
    IdOutcome (Itimerspec × SigState Q) :=
  onTimer t timerid fun td =>
    let t' := Function.update t td ((t td).settime (clock 1 (t td).clockid) flags newValue)
    match sysTimersManage I clock fuel 2 t' s with
    | none => .running
    | some r => .returned (.ok (currentValue (clock 0) t td, r.2.2)) r.2.1

/-! ## Identifiers and entries -/

/-- The identifier of an entry. -/
def idOf (td : Fin timerMax) : BitVec 32 := BitVec.ofInt 32 (sysTd2timerid td)

/-- The number that `timer_create` returns leads to the timer. -/
theorem inTable_idOf : ∀ td : Fin timerMax, inTable (sysTimerid2td (idOf td)) = some td := by
  decide

/-- It is one more than the index. -/
theorem toNat_idOf : ∀ td : Fin timerMax, (idOf td).toNat = td.val + 1 := by decide

theorem inTable_val : ∀ td : Fin timerMax, inTable td.val = some td := by decide

/-- Two timers have two numbers. -/
theorem idOf_injective {a b : Fin timerMax} (h : idOf a = idOf b) : a = b := by
  have hval := congrArg BitVec.toNat h
  rw [toNat_idOf, toNat_idOf] at hval
  exact Fin.ext (by omega)

/-- The other identifiers stand for no entry. -/
theorem inTable_eq_none_iff (timerid : BitVec 32) :
    inTable (sysTimerid2td timerid) = none
      ↔ ¬ (1 ≤ timerid.toNat ∧ timerid.toNat ≤ timerMax) := by
  have hone : (1 : BitVec 32).toNat = 1 := rfl
  have hlt := timerid.isLt
  have hcond := BitVec.toInt_eq_toNat_cond (timerid - 1)
  rw [BitVec.toNat_sub, hone] at hcond
  unfold inTable sysTimerid2td timerMax
  rw [dite_eq_right_iff]
  split_ifs at hcond
  · constructor
    · intro h hid
      exact Option.some_ne_none _ (h (by omega))
    · intro h hid
      omega
  · constructor
    · intro h hid
      omega
    · intro h hid
      omega

/-- Every number in the range is that of a timer. -/
theorem exists_idOf {timerid : BitVec 32} (h : 1 ≤ timerid.toNat ∧ timerid.toNat ≤ timerMax) :
    ∃ td, timerid = idOf td := by
  refine ⟨⟨timerid.toNat - 1, by omega⟩, BitVec.eq_of_toNat_eq ?_⟩
  rw [toNat_idOf]
  dsimp only
  omega

/-- A number of a timer is honoured when the timer is allocated. -/
theorem onTimer_idOf {α : Type} (t : SysTimers) (td : Fin timerMax)
    (f : Fin timerMax → IdOutcome α) :
    onTimer t (idOf td) f
      = if (t td).timerid ≠ 0 then f td else .returned (.error .EINVAL) t := by
  unfold onTimer sysTimerIsallocated
  rw [inTable_idOf]
  dsimp only
  simp only [decide_eq_true_iff]

/-- Another number is not. -/
theorem onTimer_outside {α : Type} (t : SysTimers) {timerid : BitVec 32}
    (h : ¬ (1 ≤ timerid.toNat ∧ timerid.toNat ≤ timerMax)) (f : Fin timerMax → IdOutcome α) :
    onTimer t timerid f = .outside := by
  unfold onTimer
  rw [(inTable_eq_none_iff timerid).2 h]

/-- A call that returns found an entry. -/
theorem onTimer_returned {α : Type} {t t' : SysTimers} {timerid : BitVec 32}
    {f : Fin timerMax → IdOutcome α} {r : Except Errno α}
    (h : onTimer t timerid f = .returned r t') :
    ∃ td, timerid = idOf td ∧ ((t td).timerid ≠ 0 ∧ f td = .returned r t' ∨
      (t td).timerid = 0 ∧ r = .error .EINVAL ∧ t' = t) := by
  by_cases hid : 1 ≤ timerid.toNat ∧ timerid.toNat ≤ timerMax
  · obtain ⟨td, rfl⟩ := exists_idOf hid
    rw [onTimer_idOf] at h
    refine ⟨td, rfl, ?_⟩
    by_cases hfree : (t td).timerid = 0
    · rw [if_neg (not_not.2 hfree)] at h
      cases h
      exact Or.inr ⟨hfree, rfl, rfl⟩
    · rw [if_pos hfree] at h
      exact Or.inl ⟨hfree, h⟩
  · rw [onTimer_outside t hid] at h
    cases h

/-! ## Runs -/

/-- Calls made one after the other from the start of the program, none of them outside of the
table: the table, and the identifiers given out by `timer_create` and not deleted since. -/
inductive Reachable : SysTimers → List (BitVec 32) → Prop
  | boot : Reachable (fun _ => zeroTimer) []
  | create {t ids clockid sevp id t'} (h : Reachable t ids)
      (hcall : timerCreate clockid sevp t = .ok (id, t')) :
      Reachable t' (BitVec.ofInt 32 id :: ids)
  | createFails {t ids clockid sevp e} (h : Reachable t ids)
      (hcall : timerCreate clockid sevp t = .error e) : Reachable t ids
  | delete {t ids id t'} (h : Reachable t ids)
      (hcall : timerDelete t id = .returned (.ok ⟨⟩) t') : Reachable t' (ids.erase id)
  | deleteFails {t ids id e t'} (h : Reachable t ids)
      (hcall : timerDelete t id = .returned (.error e) t') : Reachable t' ids

/-- The entries in use are those whose identifiers have been given out. -/
structure Given (t : SysTimers) (ids : List (BitVec 32)) : Prop where
  nodup : ids.Nodup
  exists_entry : ∀ id ∈ ids, ∃ td, id = idOf td
  mem_iff : ∀ td, idOf td ∈ ids ↔ (t td).timerid ≠ 0
  /-- No timer is set, as from the start. -/
  unset : ∀ td, (t td).value = zeroTimer.value

/-- At the start no number is given. -/
theorem given_boot : Given (fun _ => zeroTimer) [] :=
  ⟨List.nodup_nil, fun _ h => absurd h List.not_mem_nil,
    fun _ => iff_of_false List.not_mem_nil (by decide), fun _ => rfl⟩

/-- `timer_create` takes a free entry and gives out its identifier. -/
theorem timerCreate_ok {clockid : ClockId} {sevp : Option Sigevent} {t t' : SysTimers} {id : ℤ}
    (h : timerCreate clockid sevp t = .ok (id, t')) :
    ∃ td e, (t td).timerid = 0 ∧ t' = Function.update t td e ∧ id = sysTd2timerid td ∧
      e.timerid = sysTd2timerid td ∧ e.value = zeroTimer.value := by
  unfold timerCreate sysTimerAlloc at h
  split_ifs at h with hclock
  cases hfind : (List.finRange timerMax).find? fun td => !sysTimerIsallocated t td with
  | none =>
      rw [hfind] at h
      cases h
  | some td =>
      rw [hfind] at h
      have hfree := List.find?_some hfind
      unfold sysTimerIsallocated at hfree
      rw [Bool.not_eq_true', decide_eq_false_iff_not, not_not] at hfree
      cases h
      refine ⟨td, _, hfree, Function.update_idem _ _ _, ?_, ?_, ?_⟩
      · rw [Function.update_self]
      · rw [Function.update_self]
      · rw [Function.update_self]

/-! ### Numbers given and taken back -/

/-- **`timer_create` gives a number** that is not given yet. -/
theorem Given.create {t : SysTimers} {ids : List (BitVec 32)} (h : Given t ids)
    {td : Fin timerMax} {e : SysTimer} (hfree : (t td).timerid = 0)
    (hid : e.timerid = sysTd2timerid td) (hvalue : e.value = zeroTimer.value) :
    Given (Function.update t td e) (idOf td :: ids) := by
  have hnew : idOf td ∉ ids := fun hmem => (h.mem_iff td).1 hmem hfree
  refine ⟨List.nodup_cons.2 ⟨hnew, h.nodup⟩, fun id hmem => ?_, fun d => ?_, fun d => ?_⟩
  · rcases List.mem_cons.1 hmem with rfl | hmem
    · exact ⟨td, rfl⟩
    · exact h.exists_entry id hmem
  · by_cases hd : d = td
    · rw [hd, Function.update_self, hid]
      refine iff_of_true List.mem_cons_self ?_
      unfold sysTd2timerid
      omega
    · have hne : idOf d ≠ idOf td := fun heq => hd (idOf_injective heq)
      rw [Function.update_of_ne hd, List.mem_cons, or_iff_right hne]
      exact h.mem_iff d
  · by_cases hd : d = td
    · rw [hd, Function.update_self, hvalue]
    · rw [Function.update_of_ne hd]
      exact h.unset d

/-- `timer_delete` takes it back. -/
theorem Given.delete {t : SysTimers} {ids : List (BitVec 32)} (h : Given t ids)
    (td : Fin timerMax) : Given (sysTimerFree t td.val) (ids.erase (idOf td)) := by
  unfold sysTimerFree
  rw [inTable_val]
  dsimp only
  refine ⟨h.nodup.erase _, fun id hmem => h.exists_entry id (List.mem_of_mem_erase hmem),
    fun d => ?_, fun d => ?_⟩
  · by_cases hd : d = td
    · rw [hd, Function.update_self]
      exact iff_of_false (fun hmem => (List.Nodup.mem_erase_iff h.nodup).1 hmem |>.1 rfl)
        fun hne => hne rfl
    · have hne : idOf d ≠ idOf td := fun heq => hd (idOf_injective heq)
      rw [Function.update_of_ne hd, List.mem_erase_of_ne hne]
      exact h.mem_iff d
  · by_cases hd : d = td
    · rw [hd, Function.update_self]
      exact h.unset td
    · rw [Function.update_of_ne hd]
      exact h.unset d

/-- **The entries in use are known** in every run. -/
theorem Reachable.given {t : SysTimers} {ids : List (BitVec 32)} (h : Reachable t ids) :
    Given t ids := by
  induction h with
  | boot => exact given_boot
  | create _ hcall ih =>
      obtain ⟨td, e, hfree, rfl, rfl, hid, hvalue⟩ := timerCreate_ok hcall
      exact ih.create hfree hid hvalue
  | createFails _ _ ih => exact ih
  | delete _ hcall ih =>
      -- a call that returned had an identifier that stands for an entry
      obtain ⟨td, rfl, ⟨-, hret⟩ | ⟨-, hret, -⟩⟩ := onTimer_returned hcall
      · cases hret
        exact ih.delete td
      · cases hret
  | deleteFails _ hcall ih =>
      obtain ⟨td, rfl, ⟨-, hret⟩ | ⟨-, -, rfl⟩⟩ := onTimer_returned hcall
      · cases hret
      · exact ih

/-! ## When `timer_settime` returns -/

/-- A timer with this expiration is not served: it is not set, or its time is still to come. -/
def Waits (expiry now : Timespec) : Prop :=
  (timespecDiff timespecZero expiry).2 = 0 ∨
    0 < (timespecDiff (timespecDiff expiry now).1 timespecZero).2

instance (expiry now : Timespec) : Decidable (Waits expiry now) :=
  inferInstanceAs (Decidable (_ ∨ _))

/-- A timer that is disarmed waits. -/
theorem waits_zero (now : Timespec) : Waits timespecZero now := Or.inl (by decide)

/-! ### A timer that comes to wait -/

/-- When a timer is to expire after it has been served so many times: an interval after the
reading with which it was re-armed.  Each time the clock is read twice, to look and to re-arm. -/
def expiryAt (c : ℕ → Timespec) (interval first : Timespec) : ℕ → Timespec
  | 0 => first
  | j + 1 => timespecAdd (c (2 * j + 1)) interval

/-- The timer has no interval, or is found waiting some time. -/
def ComesToWait (c : ℕ → Timespec) (interval first : Timespec) : Prop :=
  ¬ (timespecDiff interval timespecZero).2 > 0 ∨
    ∃ j, Waits (expiryAt c interval first j) (c (2 * j))

/-- Later times are those from the first one on. -/
theorem expiryAt_succ (c : ℕ → Timespec) (interval first : Timespec) (j : ℕ) :
    expiryAt c interval first (j + 1) =
      expiryAt (fun k => c (k + 2)) interval (timespecAdd (c 1) interval) j := by
  cases j with
  | zero => rfl
  | succ j => rfl

/-- **On a clock that stands still** the second look finds a timer waiting. -/
theorem comesToWait_still {now interval : Timespec} (hnow : now.Normalised)
    (hint : interval.Value) (first : Timespec) :
    ComesToWait (fun _ => now) interval first := by
  by_cases hpos : (timespecDiff interval timespecZero).2 > 0
  · refine Or.inr ⟨1, Or.inr ?_⟩
    show 0 < (timespecDiff (timespecDiff (timespecAdd now interval) now).1 timespecZero).2
    have hiff := diff_zero_nonpos_iff hint
    -- the difference to the clock is the interval again, up to an era and so exactly
    have hsum := value_add hnow hint.normalised
    obtain ⟨-, q, hq⟩ := add_nanos hnow hint.normalised
    have hval := value_diff hsum.normalised hnow
    have hdue := diff_zero_nonpos_iff hval
    obtain ⟨-, -, q', hq'⟩ := diff_nanos hsum.normalised hnow
    obtain ⟨hlo, hhi⟩ := hval.secsFit
    obtain ⟨hlo', hhi'⟩ := hint.secsFit
    unfold eraNanos at hq hq'
    omega
  · exact Or.inl hpos

section OneTimer

variable {t : SysTimers} {td : Fin timerMax}
  (honly : ∀ d, d ≠ td → sysTimerIsarmed t d = false)

include honly

/-! ### The only timer that is armed -/

/-- The search finds the only timer that can be armed, and compares it with none. -/
theorem nextExpiring_only (clock : Readings) (n : ℕ) : sysTimerNextExpiring clock t n =
    some (if sysTimerIsarmed t td = true then some td else none, n) := by
  -- cells that are not armed change nothing; only `td` can be
  have hskip : ∀ m k (e : Option (Fin timerMax)), (e = none ∧ (sysTimerIsarmed t td = true →
        k ≤ td.val) ∨ e = some td ∧ td.val < k ∧ sysTimerIsarmed t td = true) → k ≤ m →
      (∀ d : Fin timerMax, k ≤ d.val → d.val < m → sysTimerIsarmed t d = false) →
      e = none ∧ (sysTimerIsarmed t td = true → m ≤ td.val) ∨
        e = some td ∧ td.val < m ∧ sysTimerIsarmed t td = true := by
    rintro m k e (⟨rfl, hnot⟩ | ⟨rfl, hlt, harmed⟩) hle hno
    · refine Or.inl ⟨rfl, fun harmed => ?_⟩
      by_contra hlt
      rw [hno td (hnot harmed) (not_le.1 hlt)] at harmed
      cases harmed
    · exact Or.inr ⟨rfl, hlt.trans_le hle, harmed⟩
  obtain ⟨e, n', hnext, rfl, hfound⟩ := @nextExpiring_rule clock t n
    (fun k e n' => n' = n ∧ (e = none ∧ (sysTimerIsarmed t td = true → k ≤ td.val) ∨
      e = some td ∧ td.val < k ∧ sysTimerIsarmed t td = true))
    ⟨rfl, Or.inl ⟨rfl, fun _ => Nat.zero_le _⟩⟩
    (fun m k e n' h hle hno => ⟨h.1, hskip m k e h.2 hle hno⟩)
    (by
      rintro e d n' ⟨rfl, hfound⟩ hd
      obtain rfl : d = td := by
        by_contra hne
        rw [honly d hne] at hd
        cases hd
      rcases hfound with ⟨rfl, -⟩ | ⟨-, hlt, -⟩
      · exact ⟨rfl, Or.inr ⟨rfl, Nat.lt_succ_self _, hd⟩⟩
      · exact absurd hlt (lt_irrefl _))
  rw [hnext]
  rcases hfound with ⟨rfl, hnot⟩ | ⟨rfl, -, harmed⟩
  · rw [if_neg fun harmed => absurd td.isLt (Nat.not_lt.2 (hnot harmed))]
  · rw [if_pos harmed]

/-- A round serves the only timer, unless it waits. -/
theorem manage_only {Q : Type} (I : QueueImpl Q) (clock : Readings) (fuel n : ℕ) (s : SigState Q)
    (halloc : (t td).timerid ≠ 0) : sysTimersManage I clock (fuel + 1) n t s =
      if Waits (t td).value.itValue (clock n (t td).clockid) then some ([], t, s)
      else (sysTimersManage I clock fuel (n + 2) (served (clock (n + 1)) t td)
        ((t td).notify I s).2).map fun rest => (td :: rest.1, rest.2) := by
  have harmed : sysTimerIsarmed t td = true ↔
      (timespecDiff timespecZero (t td).value.itValue).2 ≠ 0 := by
    unfold sysTimerIsarmed sysTimerIsallocated
    simp [halloc]
  conv_lhs => unfold sysTimersManage
  rw [nextExpiring_only honly]
  by_cases hset : sysTimerIsarmed t td = true
  · rw [if_pos hset]
    dsimp only
    by_cases hdue : (timespecDiff (sysTimerTimeToExpiration (clock n) t td) timespecZero).2 ≤ 0
    · have hnot : ¬ Waits (t td).value.itValue (clock n (t td).clockid) := by
        rintro (hzero | hlater)
        · exact harmed.1 hset hzero
        · exact absurd hdue (not_le.2 hlater)
      rw [if_pos hdue, if_neg hnot]
      rfl
    · have hwaits : Waits (t td).value.itValue (clock n (t td).clockid) := Or.inr (not_le.1 hdue)
      rw [if_neg hdue, if_pos hwaits]
  · have hwaits : Waits (t td).value.itValue (clock n (t td).clockid) :=
      Or.inl (not_not.1 (harmed.not.1 hset))
    rw [if_neg hset, if_pos hwaits]

end OneTimer

/-- Serving a timer arms no other one. -/
theorem isarmed_served {now : ClockId → Timespec} {t : SysTimers} {td : Fin timerMax}
    (honly : ∀ d, d ≠ td → sysTimerIsarmed t d = false) (d : Fin timerMax) (hd : d ≠ td) :
    sysTimerIsarmed (served now t td) d = false := by
  have hsame := served_of_ne now t hd
  have harmed := honly d hd
  unfold sysTimerIsarmed sysTimerIsallocated at harmed ⊢
  rw [hsame]
  exact harmed

/-- A timer that has an interval, after it has been served. -/
theorem served_periodic (now : ClockId → Timespec) {t : SysTimers} {td : Fin timerMax}
    (hpos : (timespecDiff (t td).value.itInterval timespecZero).2 > 0) :
    served now t td td = { t td with value := { (t td).value with
      itValue := timespecAdd (now (t td).clockid) (t td).value.itInterval } } := by
  rw [served_self]
  unfold SysTimer.rearm
  rw [if_pos hpos]

section Periodic

variable {Q : Type} (I : QueueImpl Q) (clock : Readings)

/-! ### The loop waits or returns -/

/-- What the loop may still do says when the timer waits. -/
theorem waits_of_manage (fuel : ℕ) {n : ℕ} {t : SysTimers} {td : Fin timerMax} {s : SigState Q}
    (honly : ∀ d, d ≠ td → sysTimerIsarmed t d = false) (halloc : (t td).timerid ≠ 0)
    (hpos : (timespecDiff (t td).value.itInterval timespecZero).2 > 0)
    {r : List (Fin timerMax) × SysTimers × SigState Q}
    (h : sysTimersManage I clock fuel n t s = some r) :
    ∃ j, Waits (expiryAt (fun k => clock (k + n) (t td).clockid) (t td).value.itInterval
      (t td).value.itValue j) (clock (2 * j + n) (t td).clockid) := by
  induction fuel generalizing n t s r with
  | zero => cases h
  | succ fuel ih =>
      rw [manage_only honly I clock fuel n s halloc] at h
      by_cases hwaits : Waits (t td).value.itValue (clock n (t td).clockid)
      · refine ⟨0, ?_⟩
        rw [Nat.mul_zero, Nat.zero_add]
        exact hwaits
      · rw [if_neg hwaits] at h
        obtain ⟨rest, hrest, -⟩ := Option.map_eq_some_iff.1 h
        have hserved := served_periodic (clock (n + 1)) hpos
        obtain ⟨j, hj⟩ := ih (isarmed_served honly) (by rw [hserved]; exact halloc)
          (by rw [hserved]; exact hpos) hrest
        rw [hserved] at hj
        refine ⟨j + 1, ?_⟩
        rw [expiryAt_succ, show 2 * (j + 1) + n = 2 * j + (n + 2) by omega]
        dsimp only at hj ⊢
        rw [show 1 + n = n + 1 by omega]
        have hshift : (fun k => clock (k + 2 + n) (t td).clockid) =
            fun k => clock (k + (n + 2)) (t td).clockid := by
          funext k
          rw [show k + 2 + n = k + (n + 2) by omega]
        rw [hshift]
        exact hj

/-- A timer that is due again at every reading keeps the loop going. -/
theorem manage_of_waits (j : ℕ) {n : ℕ} {t : SysTimers} {td : Fin timerMax} (s : SigState Q)
    (honly : ∀ d, d ≠ td → sysTimerIsarmed t d = false) (halloc : (t td).timerid ≠ 0)
    (hpos : (timespecDiff (t td).value.itInterval timespecZero).2 > 0)
    (h : Waits (expiryAt (fun k => clock (k + n) (t td).clockid) (t td).value.itInterval
      (t td).value.itValue j) (clock (2 * j + n) (t td).clockid)) :
    ∃ fuel r, sysTimersManage I clock fuel n t s = some r := by
  induction j generalizing n t s with
  | zero =>
      rw [Nat.mul_zero, Nat.zero_add] at h
      have hwaits : Waits (t td).value.itValue (clock n (t td).clockid) := h
      refine ⟨1, ([], t, s), ?_⟩
      rw [manage_only honly I clock 0 n s halloc, if_pos hwaits]
  | succ j ih =>
      by_cases hwaits : Waits (t td).value.itValue (clock n (t td).clockid)
      · refine ⟨1, ([], t, s), ?_⟩
        rw [manage_only honly I clock 0 n s halloc, if_pos hwaits]
      · have hserved := served_periodic (clock (n + 1)) hpos
        have hshift : (fun k => clock (k + 2 + n) (t td).clockid) =
            fun k => clock (k + (n + 2)) (t td).clockid := by
          funext k
          rw [show k + 2 + n = k + (n + 2) by omega]
        rw [expiryAt_succ, show 2 * (j + 1) + n = 2 * j + (n + 2) by omega,
          hshift, show 1 + n = n + 1 by omega] at h
        obtain ⟨fuel, r, hrest⟩ := ih (n := n + 2) (t := served (clock (n + 1)) t td)
          ((t td).notify I s).2 (isarmed_served honly) (by rw [hserved]; exact halloc)
          (by rw [hserved]; exact hpos) (by rw [hserved]; exact h)
        refine ⟨fuel + 1, (td :: r.1, r.2), ?_⟩
        rw [manage_only honly I clock fuel n s halloc, if_neg hwaits, hrest]
        rfl

/-- **The loop ends** exactly when the only timer comes to wait. -/
theorem manage_returns_iff {n : ℕ} {t : SysTimers} {td : Fin timerMax} (s : SigState Q)
    (honly : ∀ d, d ≠ td → sysTimerIsarmed t d = false) (halloc : (t td).timerid ≠ 0) :
    (∃ fuel r, sysTimersManage I clock fuel n t s = some r) ↔
      ComesToWait (fun k => clock (k + n) (t td).clockid) (t td).value.itInterval
        (t td).value.itValue := by
  unfold ComesToWait
  by_cases hpos : (timespecDiff (t td).value.itInterval timespecZero).2 > 0
  · rw [or_iff_right (not_not.2 hpos)]
    constructor
    · rintro ⟨fuel, r, h⟩
      exact waits_of_manage I clock fuel honly halloc hpos h
    · rintro ⟨j, h⟩
      exact manage_of_waits I clock j s honly halloc hpos h
  · refine iff_of_true ?_ (Or.inl hpos)
    -- served once, the timer is disarmed
    have hserved : (served (clock (n + 1)) t td td).value.itValue = timespecZero := by
      rw [served_self]
      unfold SysTimer.rearm
      rw [if_neg hpos]
    have halloc' : (served (clock (n + 1)) t td td).timerid ≠ 0 := by
      rw [served_self]
      unfold SysTimer.rearm
      rw [if_neg hpos]
      exact halloc
    by_cases hwaits : Waits (t td).value.itValue (clock n (t td).clockid)
    · refine ⟨1, ([], t, s), ?_⟩
      rw [manage_only honly I clock 0 n s halloc, if_pos hwaits]
    · refine ⟨2, ([td], served (clock (n + 1)) t td, ((t td).notify I s).2), ?_⟩
      rw [manage_only honly I clock 1 n s halloc, if_neg hwaits,
        manage_only (isarmed_served honly) I clock 0 (n + 2) _ halloc', hserved,
        if_pos (waits_zero _)]
      rfl

end Periodic

/-! ## What a call with an identifier owes -/

/-- The call succeeds for a timer that is alive, and otherwise fails with `EINVAL` and leaves
the table. -/
def Honoured {α : Type} (alive : Prop) (t : SysTimers) (o : IdOutcome α) : Prop :=
  alive ∧ (∃ a t', o = .returned (.ok a) t') ∨ ¬ alive ∧ o = .returned (.error .EINVAL) t

/-- A call with an identifier. -/
inductive IdCall
  | delete | getoverrun | gettime
  | settime (flags : BitVec 32) (newValue : Itimerspec)
  deriving DecidableEq, Repr

/-- The call does so, whatever the clocks read; it returns. -/
def IdCall.Honoured {Q : Type} (I : QueueImpl Q) (clock : Readings) (s : SigState Q)
    (t : SysTimers) (ids : List (BitVec 32)) (id : BitVec 32) : IdCall → Prop
  | .delete => Timer.Honoured (id ∈ ids) t (timerDelete t id)
  | .getoverrun => Timer.Honoured (id ∈ ids) t (timerGetoverrun t id)
  | .gettime => Timer.Honoured (id ∈ ids) t (timerGettime (clock 0) t id)
  | .settime flags newValue =>
      ∃ fuel, Timer.Honoured (id ∈ ids) t (timerSettime I clock fuel t s id flags newValue)

/-- The first expiration that `timer_settime` stores, at a time. -/
def firstExpiry (now : Timespec) (flags : BitVec 32) (newValue : Itimerspec) : Timespec :=
  if (timespecDiff newValue.itValue timespecZero).2 ≠ 0 ∧ flags &&& timerAbstime = 0 then
    timespecAdd now newValue.itValue
  else newValue.itValue

/-- The call is not `timer_settime`, or the timer is found waiting some time.  `c` are the readings
of its clock: one for the old value, one for the new one, and then those of the loop. -/
def IdCall.Ends (c : ℕ → Timespec) : IdCall → Prop
  | .settime flags newValue =>
      ComesToWait (fun k => c (k + 2)) newValue.itInterval (firstExpiry (c 1) flags newValue)
  | .delete | .getoverrun | .gettime => True

section Owed

variable {t : SysTimers} {ids : List (BitVec 32)} (h : Given t ids) (td : Fin timerMax)

include h

/-! ### The calls of the numbers given -/

/-- A call does what it owes if it succeeds on an entry in use. -/
theorem Given.honoured {α : Type} {f : Fin timerMax → IdOutcome α}
    (hf : ∃ a t', f td = .returned (.ok a) t') :
    Honoured (idOf td ∈ ids) t (onTimer t (idOf td) f) := by
  rw [onTimer_idOf]
  by_cases halive : idOf td ∈ ids
  · rw [if_pos ((h.mem_iff td).1 halive)]
    exact Or.inl ⟨halive, hf⟩
  · rw [if_neg ((h.mem_iff td).not.1 halive)]
    exact Or.inr ⟨halive, rfl⟩

/-- No timer is armed but the one that is set. -/
theorem Given.isarmed_settime (e : SysTimer) (d : Fin timerMax) (hd : d ≠ td) :
    sysTimerIsarmed (Function.update t td e) d = false := by
  unfold sysTimerIsarmed
  rw [Function.update_of_ne hd, h.unset d]
  split_ifs with hfree hzero
  · rfl
  · rfl
  · exact absurd (show (timespecDiff timespecZero zeroTimer.value.itValue).2 = 0 by decide) hzero

/-- **`timer_settime`** does what it owes exactly when its loop ends. -/
theorem Given.settime_iff {Q : Type} (I : QueueImpl Q) (clock : Readings) (s : SigState Q)
    (flags : BitVec 32) (newValue : Itimerspec) :
    (∃ fuel, Honoured (idOf td ∈ ids) t
      (timerSettime I clock fuel t s (idOf td) flags newValue)) ↔
    (idOf td ∈ ids →
      (IdCall.settime flags newValue).Ends fun k => clock k (t td).clockid) := by
  unfold timerSettime
  simp only [onTimer_idOf]
  by_cases halive : idOf td ∈ ids
  · have hid := (h.mem_iff td).1 halive
    rw [forall_prop_of_true halive]
    -- the request changes the value, not the id or the clock
    have hkept : ∀ now, ((t td).settime now flags newValue).timerid = (t td).timerid ∧
        ((t td).settime now flags newValue).clockid = (t td).clockid ∧
        ((t td).settime now flags newValue).value =
          ⟨newValue.itInterval, firstExpiry now flags newValue⟩ := by
      intro now
      unfold SysTimer.settime firstExpiry
      split_ifs
      · exact ⟨rfl, rfl, rfl⟩
      · exact ⟨rfl, rfl, rfl⟩
    obtain ⟨hkeptId, hkeptClock, hvalue⟩ := hkept (clock 1 (t td).clockid)
    have hiff := manage_returns_iff I clock (n := 2) s
      (h.isarmed_settime td ((t td).settime (clock 1 (t td).clockid) flags newValue))
      (by rw [Function.update_self, hkeptId]; exact hid)
    rw [Function.update_self, hkeptClock, hvalue] at hiff
    refine Iff.trans ?_ hiff
    constructor
    · rintro ⟨fuel, hcall⟩
      refine ⟨fuel, ?_⟩
      rw [if_pos hid] at hcall
      cases hmanage : sysTimersManage I clock fuel 2 (Function.update t td
          ((t td).settime (clock 1 (t td).clockid) flags newValue)) s with
      | some r => exact ⟨r, rfl⟩
      | none =>
          rw [hmanage] at hcall
          rcases hcall with ⟨-, a, t', hcall⟩ | ⟨-, hcall⟩
          · cases hcall
          · cases hcall
    · rintro ⟨fuel, r, hmanage⟩
      refine ⟨fuel, Or.inl ⟨halive, ?_⟩⟩
      rw [if_pos hid]
      rw [hmanage]
      exact ⟨_, _, rfl⟩
  · refine iff_of_true ⟨0, Or.inr ⟨halive, ?_⟩⟩ fun hc => absurd hc halive
    rw [if_neg ((h.mem_iff td).not.1 halive)]

end Owed

/-- **Timer identifiers.**  After any calls of `timer_create` and `timer_delete` the timers
alive have different identifiers; and a function that takes an identifier honours it, alive or
not, exactly when it stands for an entry of the table and, for `timer_settime` of a timer alive,
its loop ends. -/
theorem idHonoured_iff {t : SysTimers} {ids : List (BitVec 32)} (h : Reachable t ids)
    {Q : Type} (I : QueueImpl Q) (clock : Readings) (s : SigState Q) (id : BitVec 32)
    (call : IdCall) :
    ids.Nodup ∧ (call.Honoured I clock s t ids id ↔
      (1 ≤ id.toNat ∧ id.toNat ≤ timerMax) ∧
        ∀ td, id = idOf td → id ∈ ids → call.Ends fun k => clock k (t td).clockid) := by
  have hgiven := h.given
  refine ⟨hgiven.nodup, ?_⟩
  by_cases hid : 1 ≤ id.toNat ∧ id.toNat ≤ timerMax
  · obtain ⟨td, rfl⟩ := exists_idOf hid
    rw [and_iff_right hid]
    have hends : (∀ d, idOf td = idOf d → idOf td ∈ ids → call.Ends fun k =>
        clock k (t d).clockid) ↔ (idOf td ∈ ids → call.Ends fun k => clock k (t td).clockid) := by
      constructor
      · intro hall
        exact hall td rfl
      · intro hone d heq
        rw [← idOf_injective heq]
        exact hone
    rw [hends]
    cases call with
    | delete => exact iff_of_true (hgiven.honoured td ⟨_, _, rfl⟩) fun _ => trivial
    | getoverrun => exact iff_of_true (hgiven.honoured td ⟨_, _, rfl⟩) fun _ => trivial
    | gettime => exact iff_of_true (hgiven.honoured td ⟨_, _, rfl⟩) fun _ => trivial
    | settime flags newValue => exact hgiven.settime_iff td I clock s flags newValue
  · refine iff_of_false (fun hcall => ?_) fun hc => hid hc.1
    -- an identifier for no entry is read outside of the table
    have hno : ∀ {α : Type} (f : Fin timerMax → IdOutcome α),
        ¬ Honoured (id ∈ ids) t (onTimer t id f) := by
      intro α f
      rw [onTimer_outside t hid]
      rintro (⟨-, a, t', hcall⟩ | ⟨-, hcall⟩)
      · cases hcall
      · cases hcall
    cases call with
    | delete => exact hno _ hcall
    | getoverrun => exact hno _ hcall
    | gettime => exact hno _ hcall
    | settime flags newValue =>
        obtain ⟨fuel, hcall⟩ := hcall
        exact hno _ hcall

/-! ### A timer of a microsecond -/

/-- One microsecond for each reading, from zero. -/
def microseconds : Readings := fun k _ => ⟨wrap32 (k / 1000000), (k % 1000000) * 1000⟩

/-- A nanosecond after a reading is over with the next one. -/
theorem not_waits_microseconds (k : ℕ) (c : ClockId) :
    ¬ Waits (timespecAdd (microseconds k c) ⟨0, 1⟩) (microseconds (k + 1) c) := by
  have hnorm : ∀ k, (microseconds k c).Normalised := by
    intro k
    unfold microseconds
    constructor
    · dsimp only
      omega
    · unfold nsecsInSec
      dsimp only
      omega
  -- seconds run over, so all times are up to a multiple of the era
  have hnanos : ∀ k : ℕ, ∃ q : ℤ, (microseconds k c).nanos = k * 1000 - eraNanos * q := by
    intro k
    obtain ⟨q, hq, -⟩ := wrap32_spec ((k : ℤ) / 1000000)
    refine ⟨q, ?_⟩
    unfold microseconds nanos eraNanos
    dsimp only
    omega
  have hone : (⟨0, 1⟩ : Timespec).Normalised := ⟨by decide, by decide⟩
  have honeNanos : (⟨0, 1⟩ : Timespec).nanos = 1 := rfl
  obtain ⟨q₁, hq₁⟩ := hnanos k
  obtain ⟨q₂, hq₂⟩ := hnanos (k + 1)
  have hsum := value_add (hnorm k) hone
  obtain ⟨-, q₃, hq₃⟩ := add_nanos (hnorm k) hone
  have hdiff := value_diff hsum.normalised (hnorm (k + 1))
  obtain ⟨-, -, q₄, hq₄⟩ := diff_nanos hsum.normalised (hnorm (k + 1))
  obtain ⟨hlo, hhi⟩ := hdiff.secsFit
  unfold eraNanos at hq₁ hq₂ hq₃ hq₄
  rintro (hzero | hlater)
  · have heq := diff_zero_eq_zero hsum hzero
    have hnone : timespecZero.nanos = 0 := rfl
    rw [heq] at hq₃
    omega
  · rw [← not_le, diff_zero_nonpos_iff hdiff] at hlater
    push_cast at hq₂
    omega

/-- On a clock that stands still a second timer is set, with an interval of a nanosecond; the
identifier of a third one has not been given out. -/
theorem idHonoured_two : ∃ t, Reachable t [2, 1] ∧
    (IdCall.settime 0 ⟨⟨0, 1⟩, ⟨0, 1⟩⟩).Honoured listQueue (still fun _ => ⟨5, 0⟩)
      (SigState.zero listQueue) t [2, 1] 2 ∧
    IdCall.delete.Honoured listQueue microseconds (SigState.zero listQueue) t [2, 1] 3 := by
  obtain ⟨t₁, hcall₁⟩ : ∃ t, timerCreate .monotonic none (fun _ => zeroTimer) = .ok (1, t) :=
    ⟨_, rfl⟩
  obtain ⟨t₂, hcall₂⟩ : ∃ t, timerCreate .realtime none t₁ = .ok (2, t) := by
    cases hcall₁
    exact ⟨_, rfl⟩
  have hreach : Reachable t₂ [2, 1] := .create (.create .boot hcall₁) hcall₂
  refine ⟨t₂, hreach, (idHonoured_iff hreach listQueue _ _ 2 _).2.2 ⟨by decide, fun td _ _ => ?_⟩,
    (idHonoured_iff hreach listQueue _ _ 3 _).2.2 ⟨by decide, fun _ _ _ => trivial⟩⟩
  exact comesToWait_still ⟨by decide, by decide⟩ ⟨⟨by decide, by decide⟩, by decide, by decide⟩ _

/-- **An identifier of zero** makes `timer_delete` read in front of the table; and a timer with an
interval of a nanosecond, on a clock that gains a microsecond from one reading to the next, keeps
`timer_settime` for ever. -/
theorem timerDelete_outside :
    timerDelete (fun _ => zeroTimer) 0 = .outside ∧
      (∃ t, Reachable t [1] ∧ ∀ fuel, timerSettime listQueue microseconds fuel t
        (SigState.zero listQueue) 1 0 ⟨⟨0, 1⟩, ⟨0, 1⟩⟩ = .running) ∧
      ¬ ∀ (t : SysTimers) (ids : List (BitVec 32)) (id : BitVec 32), Reachable t ids →
        IdCall.delete.Honoured listQueue microseconds (SigState.zero listQueue) t ids id := by
  have hcall : timerDelete (fun _ => zeroTimer) 0 = .outside := rfl
  refine ⟨hcall, ?_, fun h => ?_⟩
  · obtain ⟨t, hcreate⟩ : ∃ t, timerCreate .monotonic none (fun _ => zeroTimer) = .ok (1, t) :=
      ⟨_, rfl⟩
    have hreach : Reachable t [1] := .create .boot hcreate
    refine ⟨t, hreach, fun fuel => ?_⟩
    have hmem : idOf (0 : Fin timerMax) ∈ [(1 : BitVec 32)] := List.mem_cons_self
    -- some call with this patience would mean that the timer comes to wait
    have hiff := hreach.given.settime_iff 0 listQueue microseconds (SigState.zero listQueue) 0
      ⟨⟨0, 1⟩, ⟨0, 1⟩⟩
    have hnever : ¬ (IdCall.settime 0 ⟨⟨0, 1⟩, ⟨0, 1⟩⟩).Ends
        fun k => microseconds k (t 0).clockid := by
      rintro (hpos | ⟨j, hwaits⟩)
      · exact hpos (by decide)
      · cases j with
        | zero => exact not_waits_microseconds 1 _ hwaits
        | succ j =>
            have hlook : 2 * (j + 1) + 2 = 2 * j + 1 + 2 + 1 := by omega
            refine not_waits_microseconds (2 * j + 1 + 2) (t 0).clockid ?_
            rw [← hlook]
            exact hwaits
    have hnone : ¬ Honoured (idOf 0 ∈ [1]) t (timerSettime listQueue microseconds fuel t
        (SigState.zero listQueue) (idOf 0) 0 ⟨⟨0, 1⟩, ⟨0, 1⟩⟩) := fun hhon =>
      hnever (hiff.1 ⟨fuel, hhon⟩ hmem)
    show timerSettime listQueue microseconds fuel t (SigState.zero listQueue) (idOf 0) 0
      ⟨⟨0, 1⟩, ⟨0, 1⟩⟩ = .running
    unfold timerSettime at hnone ⊢
    rw [onTimer_idOf, if_pos ((hreach.given.mem_iff 0).1 hmem)] at hnone ⊢
    dsimp only at hnone ⊢
    generalize sysTimersManage _ _ _ _ _ _ = r at hnone ⊢
    cases r with
    | none => rfl
    | some r => exact absurd (Or.inl ⟨hmem, _, _, rfl⟩) hnone
  · rcases (h _ _ 0 .boot) with ⟨-, a, t', hret⟩ | ⟨-, hret⟩
    · rw [hcall] at hret
      cases hret
    · rw [hcall] at hret
      cases hret

end Timer

end Nucleo
