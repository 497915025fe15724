/-
# Timers over whole runs

Calls of `timer_create`, `timer_settime` and `timer_delete` in any order, while the clocks move
in between and stand still within each call.  Beside the table stand the lives of the timers, which say nothing of the table: for
each identifier given out, what the timer was set to, in exact nanoseconds, and when
`timer_expired` was called for it since.  The hardware timer is a stub, so timers expire in calls
of `timer_settime` alone.

`Tracks` ties the table to the lives.  It rests on the clocks staying in a window in which no
seconds run over, and on requests that end in it.
-/
import Nucleo.Lib.Alarms
import Nucleo.TimerIds

namespace Nucleo

namespace Timer

open Signal Timespec Alarms

/-! ## The lives of the timers -/

/-- A timer as the program knows it. -/
structure Tracked where
  clockid : ClockId
  sevp : Sigevent
  life : Life ℤ

/-- The timers alive, by their identifiers. -/
abbrev Lives := BitVec 32 → Option Tracked

/-- What `timer_settime` asks for at a time. -/
def requested (now : Timespec) (flags : BitVec 32) (newValue : Itimerspec) : Alarm ℤ where
  due :=
    if newValue.itValue.nanos = 0 then none
    else if flags &&& timerAbstime = 0 then some (now.nanos + newValue.itValue.nanos)
    else some newValue.itValue.nanos
  interval := newValue.itInterval.nanos

/-- A timer is set again; that it expired before is the past. -/
def Lives.settime (L : Lives) (now : ClockId → Timespec) (timerid flags : BitVec 32)
    (newValue : Itimerspec) : Lives :=
  Function.update L timerid ((L timerid).map fun tr =>
    { tr with life := ⟨requested (now tr.clockid) flags newValue, []⟩ })

/-- The timers of a list expire. -/
def Lives.expire (L : Lives) (now : ClockId → Timespec) (l : List (BitVec 32)) : Lives := fun id =>
  (L id).map fun tr =>
    if id ∈ l then { tr with life := tr.life.ring (now tr.clockid).nanos } else tr

/-- The time of a timer has come. -/
def Lives.Due (L : Lives) (now : ClockId → Timespec) (id : BitVec 32) : Prop :=
  ∃ tr, L id = some tr ∧ tr.life.alarm.Due (now tr.clockid).nanos

/-- The notifications of the timers of a list, one after the other. -/
def Lives.notify {Q : Type} (L : Lives) (I : QueueImpl Q) (l : List (BitVec 32))
    (s : SigState Q) : SigState Q :=
  l.foldl (fun s id =>
    match L id with
    | some tr => (({ zeroTimer with sevp := tr.sevp } : SysTimer).notify I s).2
    | none => s) s

/-- The identifiers of the timers for which `timer_settime` calls `timer_expired`, in order, while
the clocks stand still. -/
def expiredBy {Q : Type} (I : QueueImpl Q) (now : ClockId → Timespec) (fuel : ℕ)
    (t : SysTimers) (s : SigState Q) (timerid flags : BitVec 32) (newValue : Itimerspec) :
    List (BitVec 32) :=
  match inTable (sysTimerid2td timerid) with
  | none => []
  | some td =>
      let t' := Function.update t td ((t td).settime (now (t td).clockid) flags newValue)
      match sysTimersManage I (still now) fuel 2 t' s with
      | none => []
      | some r => r.1.map idOf

/-! ## The window -/

/-- 2 ^ 29 seconds, which are 17 years. -/
def span : ℤ := 2 ^ 29 * 1000000000

/-- Where the readings of each clock begin, so that twice the span still fits. -/
structure Window where
  base : ClockId → ℤ
  base_nonneg : ∀ c, 0 ≤ base c
  base_le : ∀ c, base c + 2 * span ≤ 2 ^ 31 * 1000000000

/-- The readings are in the window. -/
structure Window.Holds (W : Window) (now : ClockId → Timespec) : Prop where
  normalised : ∀ c, (now c).Normalised
  le : ∀ c, W.base c ≤ (now c).nanos
  lt : ∀ c, (now c).nanos < W.base c + span

/-- The alarm ends in the window. -/
structure Window.Fits (W : Window) (c : ClockId) (a : Alarm ℤ) : Prop where
  due : ∀ d, a.due = some d → W.base c ≤ d ∧ 0 < d ∧ d < W.base c + 2 * span
  interval : a.interval < span

/-- A request for a timer that is made in the window. -/
structure Window.Admits (W : Window) (now : ClockId → Timespec) (flags : BitVec 32)
    (newValue : Itimerspec) (tr : Tracked) : Prop where
  holds : W.Holds now
  value : newValue.itValue.Value
  interval : newValue.itInterval.Value
  fits : W.Fits tr.clockid (requested (now tr.clockid) flags newValue)

/-! ## Runs -/

/-- Calls made one after the other from the start of the program: the table, and the lives of
the timers.  The signals may be in any state at each call. -/
inductive Run {Q : Type} (W : Window) (I : QueueImpl Q) : SysTimers → Lives → Prop
  | boot : Run W I (fun _ => zeroTimer) (fun _ => none)
  | create {t L clockid sevp id t'} (h : Run W I t L)
      (hcall : timerCreate clockid sevp t = .ok (id, t')) :
      Run W I t' (Function.update L (BitVec.ofInt 32 id) (some
        ⟨clockid, sevp.getD ⟨.signal, sigalrm, BitVec.ofInt 32 id⟩, ⟨⟨none, 0⟩, []⟩⟩))
  | delete {t L id t'} (h : Run W I t L) (hcall : timerDelete t id = .returned (.ok ⟨⟩) t') :
      Run W I t' (Function.update L id none)
  | deleteFails {t L id e t'} (h : Run W I t L)
      (hcall : timerDelete t id = .returned (.error e) t') : Run W I t' L
  | settime {t L now fuel s id flags newValue tr r t'} (h : Run W I t L)
      (hid : L id = some tr) (hadmits : W.Admits now flags newValue tr) (hfuel : timerMax < fuel)
      (hcall : timerSettime I (still now) fuel t s id flags newValue = .returned (.ok r) t') :
      Run W I t' ((L.settime now id flags newValue).expire now
        (expiredBy I now fuel t s id flags newValue))
  | settimeFails {t L now fuel s id flags newValue e t'} (h : Run W I t L)
      (hcall : timerSettime I (still now) fuel t s id flags newValue = .returned (.error e) t') :
      Run W I t' L

/-! ## An entry and its life -/

/-- The alarm that an entry shows. -/
def shown (e : SysTimer) : Alarm ℤ where
  due := if e.value.itValue = timespecZero then none else some e.value.itValue.nanos
  interval := e.value.itInterval.nanos

/-- An entry in use is the timer that the program knows. -/
structure Entry (W : Window) (e : SysTimer) (tr : Tracked) : Prop where
  clockid : e.clockid = tr.clockid
  sevp : e.sevp = tr.sevp
  alarm : shown e = tr.life.alarm
  kept : Kept tr.life.set tr.life.rang
  value : e.value.itValue.Value
  interval : e.value.itInterval.Value
  fits : W.Fits tr.clockid (shown e)

/-- Only zero has no nanoseconds. -/
theorem eq_zero_of_nanos {t : Timespec} (ht : t.Value) (h : t.nanos = 0) : t = timespecZero := by
  obtain ⟨⟨hlo, hhi⟩, -, -⟩ := ht
  unfold nsecsInSec at hhi
  unfold nanos at h
  have hsec : t.tvSec = 0 := by omega
  have hnsec : t.tvNsec = 0 := by omega
  cases t
  cases hsec
  cases hnsec
  rfl

/-- Zero is a time. -/
theorem value_zero : timespecZero.Value := ⟨⟨by decide, by decide⟩, by decide, by decide⟩

/-- Nanoseconds that two spans after the base have seconds that fit. -/
theorem Window.secsFit {W : Window} {c : ClockId} {n : ℤ} (hlo : W.base c ≤ n)
    (hhi : n < W.base c + 2 * span) : SecsFit n := by
  have hbase := W.base_nonneg c
  have hle := W.base_le c
  unfold SecsFit
  omega

/-! ### What is stored -/

/-- What is due is the expiration stored. -/
theorem Entry.stored {W : Window} {e : SysTimer} {tr : Tracked} (h : Entry W e tr) {d : ℤ}
    (hdue : tr.life.alarm.due = some d) :
    e.value.itValue ≠ timespecZero ∧ e.value.itValue.nanos = d := by
  rw [← h.alarm] at hdue
  unfold shown at hdue
  dsimp only at hdue
  split_ifs at hdue with hzero
  cases hdue
  exact ⟨hzero, rfl⟩

section OneEntry

variable {W : Window} {now : ClockId → Timespec} (hnow : W.Holds now)

include hnow

/-- A reading is one. -/
theorem Window.Holds.value (c : ClockId) : (now c).Value := by
  have hnorm := hnow.normalised c
  have hlo := hnow.le c
  have hhi := hnow.lt c
  have hfits : SecsFit (now c).nanos := Window.secsFit hlo (by unfold span at hhi ⊢; omega)
  have hnorm' := hnorm
  obtain ⟨hnlo, hnhi⟩ := hnorm'
  unfold nsecsInSec at hnhi
  unfold SecsFit nanos at hfits
  exact ⟨hnorm, by omega, by omega⟩

/-- A sum that ends in the window is exact, and is not zero. -/
theorem Window.Holds.add {c : ClockId} {v : Timespec} (hv : v.Value)
    (hlo : W.base c ≤ (now c).nanos + v.nanos) (hpos : 0 < (now c).nanos + v.nanos)
    (hhi : (now c).nanos + v.nanos < W.base c + 2 * span) :
    (timespecAdd (now c) v).nanos = (now c).nanos + v.nanos ∧
      (timespecAdd (now c) v).Value ∧ timespecAdd (now c) v ≠ timespecZero := by
  have hnorm := hnow.normalised c
  have hsum := (add_eq_iff hnorm hv.normalised).2 (Window.secsFit hlo hhi)
  refine ⟨hsum, value_add hnorm hv.normalised, fun hzero => ?_⟩
  rw [hzero] at hsum
  have hnone : timespecZero.nanos = 0 := rfl
  omega

variable {e : SysTimer} {tr : Tracked}

/-- The entry that `timer_settime` stores is the timer as it was requested. -/
theorem Entry.settime (h : Entry W e tr) {flags : BitVec 32} {newValue : Itimerspec}
    (hadmits : W.Admits now flags newValue tr) :
    Entry W (e.settime (now e.clockid) flags newValue)
      { tr with life := ⟨requested (now tr.clockid) flags newValue, []⟩ } := by
  obtain ⟨-, hvalue, hinterval, hfits⟩ := hadmits
  have hzero : (timespecDiff newValue.itValue timespecZero).2 = 0 ↔ newValue.itValue.nanos = 0 := by
    rw [diff_zero hvalue]
    unfold nanos
    obtain ⟨⟨hlo, hhi⟩, -, -⟩ := hvalue
    unfold nsecsInSec at hhi
    dsimp only
    split_ifs <;> omega
  unfold SysTimer.settime
  by_cases hrel : (timespecDiff newValue.itValue timespecZero).2 ≠ 0 ∧ flags &&& timerAbstime = 0
  · -- a time from now
    have hdue : (requested (now tr.clockid) flags newValue).due
        = some ((now tr.clockid).nanos + newValue.itValue.nanos) := by
      unfold requested
      dsimp only
      rw [if_neg (hzero.not.1 hrel.1), if_pos hrel.2]
    obtain ⟨hlo, hpos, hhi⟩ := hfits.due _ hdue
    obtain ⟨hsum, hval, hne⟩ := hnow.add hvalue hlo hpos hhi
    rw [if_pos hrel, h.clockid]
    have halarm : shown { e with value := ⟨newValue.itInterval,
        timespecAdd (now tr.clockid) newValue.itValue⟩ }
          = requested (now tr.clockid) flags newValue := by
      apply Alarm.ext
      · rw [hdue]
        unfold shown
        dsimp only
        rw [if_neg hne, hsum]
      · rfl
    exact ⟨rfl, h.sevp, halarm, .nil, hval, hinterval, halarm ▸ hfits⟩
  · -- a time on the clock, or none
    have halarm : shown { e with value := newValue }
        = requested (now tr.clockid) flags newValue := by
      apply Alarm.ext
      · unfold shown requested
        dsimp only
        by_cases hnone : newValue.itValue.nanos = 0
        · rw [if_pos (eq_zero_of_nanos hvalue hnone), if_pos hnone]
        · have hne : newValue.itValue ≠ timespecZero := fun heq => hnone (by rw [heq]; rfl)
          have habs : ¬ flags &&& timerAbstime = 0 := fun hflag => hrel ⟨hzero.not.2 hnone, hflag⟩
          rw [if_neg hne, if_neg hnone, if_neg habs]
      · rfl
    rw [if_neg hrel]
    exact ⟨h.clockid, h.sevp, halarm, .nil, hvalue, hinterval, halarm ▸ hfits⟩

/-- The entry that `timer_expired` leaves is the timer after it has rung. -/
theorem Entry.rearm (h : Entry W e tr) (hdue : tr.life.alarm.Due (now tr.clockid).nanos) :
    Entry W (e.rearm (now e.clockid))
      { tr with life := tr.life.ring (now tr.clockid).nanos } := by
  have hclock := h.clockid
  have hlo := hnow.le tr.clockid
  have hhi := hnow.lt tr.clockid
  have hbase := W.base_nonneg tr.clockid
  have hshort := h.fits.interval
  have hinterval : (shown e).interval = e.value.itInterval.nanos := rfl
  rw [rearm_eq _ h.interval, hclock]
  -- with an interval the timer is armed again from the reading; without one it is disarmed
  by_cases hpos : 0 < e.value.itInterval.nanos
  · obtain ⟨hsum, hval, hne⟩ := hnow.add (c := tr.clockid) h.interval (by omega) (by omega)
      (by omega)
    rw [if_pos hpos]
    have halarm : shown { e with value := { e.value with
        itValue := timespecAdd (now tr.clockid) e.value.itInterval } }
          = (tr.life.ring (now tr.clockid).nanos).alarm := by
      rw [Life.alarm_ring, ← h.alarm]
      unfold shown Alarm.rearm
      dsimp only
      rw [if_neg hne, hsum, if_pos hpos]
    refine ⟨rfl, h.sevp, halarm, h.kept.ring hdue, hval, h.interval, ⟨fun d hd => ?_, hshort⟩⟩
    unfold shown at hd
    dsimp only at hd
    rw [if_neg hne, hsum] at hd
    cases hd
    dsimp only
    omega
  · rw [if_neg hpos]
    have halarm : shown { e with value := { e.value with itValue := timespecZero } }
        = (tr.life.ring (now tr.clockid).nanos).alarm := by
      rw [Life.alarm_ring, ← h.alarm]
      unfold shown Alarm.rearm
      dsimp only
      rw [if_pos rfl, if_neg hpos]
    refine ⟨rfl, h.sevp, halarm, h.kept.ring hdue, value_zero, h.interval,
      ⟨fun d hd => ?_, hshort⟩⟩
    unfold shown at hd
    dsimp only at hd
    rw [if_pos rfl] at hd
    cases hd

end OneEntry

/-! ## The table and the lives -/

/-- Every entry in use is a timer alive, and the other way round. -/
structure Tracks (W : Window) (t : SysTimers) (L : Lives) : Prop where
  none_iff : ∀ td, L (idOf td) = none ↔ (t td).timerid = 0
  outside : ∀ id, (∀ td, id ≠ idOf td) → L id = none
  entry : ∀ td tr, L (idOf td) = some tr → Entry W (t td) tr

/-- `timer_create` takes a free entry, which is cleared. -/
theorem timerCreate_entry {clockid : ClockId} {sevp : Option Sigevent} {t t' : SysTimers} {id : ℤ}
    (h : timerCreate clockid sevp t = .ok (id, t')) :
    ∃ td, id = sysTd2timerid td ∧ t' = Function.update t td
      { zeroTimer with
        timerid := id
        clockid := clockid
        sevp := sevp.getD ⟨.signal, sigalrm, BitVec.ofInt 32 id⟩ } := by
  unfold timerCreate sysTimerAlloc at h
  split_ifs at h
  cases hfind : (List.finRange timerMax).find? fun td => !sysTimerIsallocated t td with
  | none =>
      rw [hfind] at h
      cases h
  | some td =>
      rw [hfind] at h
      cases h
      refine ⟨td, ?_, ?_⟩
      · rw [Function.update_self]
      · rw [Function.update_idem, Function.update_self]

section Tracked

variable {W : Window} {t : SysTimers} {L : Lives} (h : Tracks W t L)

/-- At the start there is no timer to track. -/
theorem tracks_boot : Tracks W (fun _ => zeroTimer) (fun _ => none) :=
  ⟨fun _ => iff_of_true rfl rfl, fun _ _ => rfl, fun _ _ hid => by cases hid⟩

include h

/-- A timer that is tracked is in the table. -/
theorem Tracks.exists_idOf {id : BitVec 32} {tr : Tracked} (hid : L id = some tr) :
    ∃ td, id = idOf td := by
  by_contra hnone
  rw [h.outside id fun td heq => hnone ⟨td, heq⟩] at hid
  cases hid

/-- One entry and one life change. -/
theorem Tracks.update {td : Fin timerMax} {e : SysTimer} {o : Option Tracked}
    (hnone : o = none ↔ e.timerid = 0) (hentry : ∀ tr, o = some tr → Entry W e tr) :
    Tracks W (Function.update t td e) (Function.update L (idOf td) o) := by
  have hother : ∀ d, d ≠ td → idOf d ≠ idOf td := fun d hd heq => hd (idOf_injective heq)
  refine ⟨fun d => ?_, fun id hid => ?_, fun d tr hd => ?_⟩
  · by_cases heq : d = td
    · rw [heq, Function.update_self, Function.update_self]
      exact hnone
    · rw [Function.update_of_ne heq, Function.update_of_ne (hother d heq)]
      exact h.none_iff d
  · rw [Function.update_of_ne (hid td)]
    exact h.outside id hid
  · by_cases heq : d = td
    · rw [heq, Function.update_self] at hd
      rw [heq, Function.update_self]
      exact hentry tr hd
    · rw [Function.update_of_ne (hother d heq)] at hd
      rw [Function.update_of_ne heq]
      exact h.entry d tr hd

/-! ### The calls -/

/-- **`timer_create` starts a life**. -/
theorem Tracks.create {clockid : ClockId} {sevp : Option Sigevent} {t' : SysTimers} {id : ℤ}
    (hcall : timerCreate clockid sevp t = .ok (id, t')) :
    Tracks W t' (Function.update L (BitVec.ofInt 32 id) (some
      ⟨clockid, sevp.getD ⟨.signal, sigalrm, BitVec.ofInt 32 id⟩, ⟨⟨none, 0⟩, []⟩⟩)) := by
  obtain ⟨td, rfl, rfl⟩ := timerCreate_entry hcall
  refine h.update ?_ fun tr htr => ?_
  · refine iff_of_false (Option.some_ne_none _) ?_
    unfold sysTd2timerid
    dsimp only
    omega
  · cases htr
    refine ⟨rfl, rfl, rfl, .nil, value_zero, value_zero, fun d hd => ?_, ?_⟩
    · cases hd
    · show (0 : ℤ) < span
      decide

/-- `timer_delete` ends it. -/
theorem Tracks.delete {id : BitVec 32} {t' : SysTimers}
    (hcall : timerDelete t id = .returned (.ok ⟨⟩) t') :
    Tracks W t' (Function.update L id none) := by
  obtain ⟨td, rfl, ⟨-, hret⟩ | ⟨-, hret, -⟩⟩ := onTimer_returned hcall
  · cases hret
    unfold sysTimerFree
    rw [inTable_val]
    exact h.update (iff_of_true rfl rfl) fun tr htr => by cases htr
  · cases hret

/-- The entry and the life after the first half of `timer_settime`. -/
theorem Tracks.settime {now : ClockId → Timespec} {td : Fin timerMax} {tr : Tracked}
    {flags : BitVec 32} {newValue : Itimerspec} (hid : L (idOf td) = some tr)
    (hadmits : W.Admits now flags newValue tr) :
    Tracks W (Function.update t td ((t td).settime (now (t td).clockid) flags newValue))
      (L.settime now (idOf td) flags newValue) := by
  unfold Lives.settime
  rw [hid]
  refine h.update ?_ fun tr' htr' => ?_
  · have halloc := (h.none_iff td).not.1 (by rw [hid]; exact Option.some_ne_none tr)
    have hkept : ((t td).settime (now (t td).clockid) flags newValue).timerid = (t td).timerid := by
      unfold SysTimer.settime
      split_ifs <;> rfl
    rw [hkept]
    exact iff_of_false (Option.some_ne_none _) halloc
  · cases htr'
    exact (h.entry td tr hid).settime hadmits.holds hadmits

/-! ## Serving -/

/-- A timer is armed when the program has set it. -/
theorem Tracks.armed_iff (td : Fin timerMax) :
    Armed t td ↔ ∃ tr d, L (idOf td) = some tr ∧ tr.life.alarm.due = some d := by
  constructor
  · rintro ⟨halloc, hset⟩
    obtain ⟨tr, htr⟩ := Option.ne_none_iff_exists'.1 ((h.none_iff td).not.2 halloc)
    refine ⟨tr, (t td).value.itValue.nanos, htr, ?_⟩
    rw [← (h.entry td tr htr).alarm]
    exact if_neg hset
  · rintro ⟨tr, d, htr, hdue⟩
    exact ⟨(h.none_iff td).not.1 (by rw [htr]; exact Option.some_ne_none tr),
      ((h.entry td tr htr).stored hdue).1⟩

variable {now : ClockId → Timespec}

/-- What is left of a timer is what is left of its life. -/
theorem Tracks.timeLeft_eq {td : Fin timerMax} {tr : Tracked} {d : ℤ} (htr : L (idOf td) = some tr)
    (hdue : tr.life.alarm.due = some d) : timeLeft now t td = d - (now tr.clockid).nanos := by
  have hentry := h.entry td tr htr
  unfold timeLeft
  rw [(hentry.stored hdue).2, hentry.clockid]

/-- A timer has expired when its time has come. -/
theorem Tracks.expired_iff (td : Fin timerMax) : Expired now t td ↔ L.Due now (idOf td) := by
  constructor
  · rintro ⟨harmed, hleft⟩
    obtain ⟨tr, d, htr, hdue⟩ := (h.armed_iff td).1 harmed
    rw [h.timeLeft_eq htr hdue] at hleft
    exact ⟨tr, htr, d, hdue, by omega⟩
  · rintro ⟨tr, htr, d, hdue, hle⟩
    refine ⟨(h.armed_iff td).2 ⟨tr, d, htr, hdue⟩, ?_⟩
    rw [h.timeLeft_eq htr hdue]
    omega

/-- Nothing runs over in the window. -/
theorem Tracks.noOverflow (hnow : W.Holds now) : NoOverflow now t := by
  -- what is left of an armed timer is at most the window, either way
  have hleft : ∀ td, Armed t td → -span < timeLeft now t td ∧ timeLeft now t td < 2 * span := by
    intro td harmed
    obtain ⟨tr, d, htr, hdue⟩ := (h.armed_iff td).1 harmed
    have hentry := h.entry td tr htr
    obtain ⟨hlo, -, hhi⟩ := hentry.fits.due d (by rw [hentry.alarm]; exact hdue)
    have hnlo := hnow.le tr.clockid
    have hnhi := hnow.lt tr.clockid
    rw [h.timeLeft_eq htr hdue]
    omega
  have hentry : ∀ td, Armed t td → ∃ tr, Entry W (t td) tr := by
    intro td harmed
    obtain ⟨tr, -, htr, -⟩ := (h.armed_iff td).1 harmed
    exact ⟨tr, h.entry td tr htr⟩
  have hcan : ∀ td n, CanHaveLeft now t td n → -span < n ∧ n < 2 * span := by
    rintro td n (⟨harmed, rfl⟩ | ⟨hperiodic, rfl⟩)
    · exact hleft td harmed
    · obtain ⟨tr, hent⟩ := hentry td hperiodic.expired.armed
      have hpos := hperiodic.interval
      have hshort : (t td).value.itInterval.nanos < span := hent.fits.interval
      have hspan : 0 < span := by decide
      omega
  refine ⟨hnow.value, fun td harmed => ?_, fun td harmed => ?_, fun td harmed => ?_,
    fun td td' n n' hn hn' => ?_, fun td hperiodic => ?_⟩
  · obtain ⟨tr, hent⟩ := hentry td harmed
    exact hent.value
  · obtain ⟨tr, hent⟩ := hentry td harmed
    exact hent.interval
  · have hlt := hleft td harmed
    unfold SecsFit
    unfold span at hlt
    omega
  · have hlt := hcan td n hn
    have hlt' := hcan td' n' hn'
    unfold SecsFit
    unfold span at hlt hlt'
    omega
  · obtain ⟨tr, hent⟩ := hentry td hperiodic.expired.armed
    have hpos := hperiodic.interval
    have hshort : (t td).value.itInterval.nanos < span := hent.fits.interval
    have hnlo := hnow.le (t td).clockid
    have hnhi := hnow.lt (t td).clockid
    exact Window.secsFit (W := W) (c := (t td).clockid) (by omega) (by omega)

/-! ### The timers served -/

/-- The table that a call leaves is tracked by the lives in which the timers served expired. -/
theorem Tracks.managed (hnow : W.Holds now) {l : List (Fin timerMax)} {t' : SysTimers}
    (hm : Managed now t l t') : Tracks W t' (L.expire now (l.map idOf)) := by
  -- the ids served are those of the timers that were due
  have hmem : ∀ td, idOf td ∈ l.map idOf ↔ Expired now t td := by
    intro td
    rw [← hm.mem_iff td]
    constructor
    · intro hin
      obtain ⟨d, hd, heq⟩ := List.mem_map.1 hin
      rwa [← idOf_injective heq]
    · exact fun hin => List.mem_map_of_mem hin
  have hid : ∀ td, (t' td).timerid = (t td).timerid := by
    intro td
    by_cases hexp : Expired now t td
    · rw [hm.expired td hexp]
      unfold SysTimer.rearm
      split_ifs <;> rfl
    · rw [hm.unexpired td hexp]
  refine ⟨fun td => ?_, fun id hout => ?_, fun td tr htr => ?_⟩
  · unfold Lives.expire
    rw [Option.map_eq_none_iff, hid]
    exact h.none_iff td
  · unfold Lives.expire
    rw [h.outside id hout]
    rfl
  · unfold Lives.expire at htr
    obtain ⟨tr₀, htr₀, rfl⟩ := Option.map_eq_some_iff.1 htr
    have hentry := h.entry td tr₀ htr₀
    by_cases hexp : Expired now t td
    · obtain ⟨tr₁, htr₁, hdue⟩ := (h.expired_iff td).1 hexp
      rw [htr₀] at htr₁
      cases htr₁
      rw [if_pos ((hmem td).2 hexp), hm.expired td hexp]
      exact hentry.rearm hnow hdue
    · rw [if_neg ((hmem td).not.2 hexp), hm.unexpired td hexp]
      exact hentry

/-- **A call of `timer_settime`** for a timer alive: what it serves and leaves. -/
theorem Tracks.settime_call {Q : Type} (I : QueueImpl Q) {fuel : ℕ} (s : SigState Q)
    {td : Fin timerMax} {tr : Tracked} {flags : BitVec 32} {newValue : Itimerspec}
    (hid : L (idOf td) = some tr) (hadmits : W.Admits now flags newValue tr)
    (hfuel : timerMax < fuel) :
    ∃ l t' s', timerSettime I (still now) fuel t s (idOf td) flags newValue
          = .returned (.ok (currentValue now t td, s')) t' ∧
      expiredBy I now fuel t s (idOf td) flags newValue = l.map idOf ∧
      sysTimersManage I (still now) fuel 2
          (Function.update t td ((t td).settime (now (t td).clockid) flags newValue)) s
        = some (l, t', s') ∧
      Managed now (Function.update t td ((t td).settime (now (t td).clockid) flags newValue)) l
        t' := by
  have hfinite : {d | Expired now (Function.update t td
    ((t td).settime (now (t td).clockid) flags newValue)) d}.Finite := Set.toFinite _
  obtain ⟨l, t', s', hcall, hm⟩ := sysTimersManage_managed I fuel 2 s
    ((h.settime hid hadmits).noOverflow hadmits.holds) (F := hfinite.toFinset)
    (fun _ => hfinite.mem_toFinset) (card_lt_of_timerMax_lt hfuel _)
  refine ⟨l, t', s', ?_, ?_, hcall, hm⟩
  · unfold timerSettime
    rw [onTimer_idOf, if_pos ((h.none_iff td).not.1 (by rw [hid]; exact Option.some_ne_none tr))]
    unfold still at hcall ⊢
    dsimp only
    rw [hcall]
  · unfold expiredBy
    rw [inTable_idOf]
    dsimp only
    rw [hcall]

end Tracked

/-- **The table is tracked in every run.** -/
theorem Run.tracks {Q : Type} {W : Window} {I : QueueImpl Q} {t : SysTimers} {L : Lives}
    (h : Run W I t L) : Tracks W t L := by
  induction h with
  | boot => exact tracks_boot
  | create _ hcall ih => exact ih.create hcall
  | delete _ hcall ih => exact ih.delete hcall
  | deleteFails _ hcall ih =>
      obtain ⟨td, rfl, ⟨-, hret⟩ | ⟨-, -, rfl⟩⟩ := onTimer_returned hcall
      · cases hret
      · exact ih
  | @settime t L now fuel s id flags newValue tr r t' _ hid hadmits hfuel hcall ih =>
      obtain ⟨td, rfl⟩ := ih.exists_idOf hid
      obtain ⟨l, t'', s', hret, hexp, -, hm⟩ := ih.settime_call I s hid hadmits hfuel
      rw [hret] at hcall
      cases hcall
      rw [hexp]
      exact (ih.settime hid hadmits).managed hadmits.holds hm
  | settimeFails _ hcall ih =>
      obtain ⟨td, rfl, ⟨-, hret⟩ | ⟨-, -, rfl⟩⟩ := onTimer_returned hcall
      · dsimp only at hret
        split at hret
        · cases hret
        · cases hret
      · exact ih

/-! ## What a call serves -/

/-- What a timer has left, in nanoseconds. -/
def Lives.left (L : Lives) (now : ClockId → Timespec) (id : BitVec 32) : ℤ :=
  match L id with
  | some tr => tr.life.alarm.due.getD 0 - (now tr.clockid).nanos
  | none => 0

/-- The timers of `l` are those whose time has come, those with least left first; after they
have expired there is none. -/
structure Served (now : ClockId → Timespec) (L : Lives) (l : List (BitVec 32)) : Prop where
  nodup : l.Nodup
  mem_iff : ∀ id, id ∈ l ↔ L.Due now id
  sorted : l.Pairwise fun a b => L.left now a ≤ L.left now b
  none_due : ∀ id, ¬ (L.expire now l).Due now id

/-- A timer that has expired is not due at the same time. -/
theorem not_due_expire {L : Lives} {now : ClockId → Timespec} {l : List (BitVec 32)}
    (hmem : ∀ id, L.Due now id → id ∈ l) (id : BitVec 32) : ¬ (L.expire now l).Due now id := by
  rintro ⟨tr, htr, hdue⟩
  unfold Lives.expire at htr
  obtain ⟨tr₀, htr₀, rfl⟩ := Option.map_eq_some_iff.1 htr
  by_cases hin : id ∈ l
  · rw [if_pos hin] at hdue
    obtain ⟨d, hset, hle⟩ := hdue
    dsimp only at hset hle
    rw [Life.alarm_ring] at hset
    unfold Alarm.rearm at hset
    dsimp only at hset
    split_ifs at hset with hpos
    cases hset
    omega
  · rw [if_neg hin] at hdue
    exact hin (hmem id ⟨tr₀, htr₀, hdue⟩)

/-- The timers served are those that expire. -/
theorem Tracks.served {W : Window} {t t' : SysTimers} {L : Lives} {now : ClockId → Timespec}
    {l : List (Fin timerMax)} (h : Tracks W t L) (hm : Managed now t l t') :
    Served now L (l.map idOf) := by
  have hmem : ∀ id, id ∈ l.map idOf ↔ L.Due now id := by
    intro id
    rw [List.mem_map]
    constructor
    · rintro ⟨td, hin, rfl⟩
      exact (h.expired_iff td).1 ((hm.mem_iff td).1 hin)
    · intro hdue
      obtain ⟨td, rfl⟩ := h.exists_idOf hdue.choose_spec.1
      exact ⟨td, (hm.mem_iff td).2 ((h.expired_iff td).2 hdue), rfl⟩
  have hleft : ∀ td ∈ l, L.left now (idOf td) = timeLeft now t td := by
    intro td hin
    obtain ⟨tr, htr, d, hdue, -⟩ := (h.expired_iff td).1 ((hm.mem_iff td).1 hin)
    unfold Lives.left
    rw [h.timeLeft_eq htr hdue, htr]
    dsimp only
    rw [hdue, Option.getD_some]
  refine ⟨hm.nodup.map fun a b => idOf_injective, hmem, ?_,
    not_due_expire fun id hdue => (hmem id).2 hdue⟩
  rw [List.pairwise_map]
  refine hm.sorted.imp_of_mem fun {a b} ha hb hab => ?_
  rw [hleft a ha, hleft b hb]
  exact hab

/-! ## The notifications -/

/-- What an entry notifies of depends on its `struct sigevent`. -/
theorem notify_congr {Q : Type} (I : QueueImpl Q) {e e' : SysTimer} (h : e.sevp = e'.sevp)
    (s : SigState Q) : e.notify I s = e'.notify I s := by
  unfold SysTimer.notify
  rw [h]

/-- Arming a timer again keeps its event. -/
theorem sevp_rearm (now : Timespec) (e : SysTimer) : (e.rearm now).sevp = e.sevp := by
  unfold SysTimer.rearm
  split_ifs <;> rfl

/-- The signals that a call leaves are those of the notifications, in order. -/
theorem sysTimersManage_notify {Q : Type} (I : QueueImpl Q) {clock : Readings} {fuel n : ℕ}
    {t t' : SysTimers} {s s' : SigState Q} {l : List (Fin timerMax)}
    (h : sysTimersManage I clock fuel n t s = some (l, t', s')) :
    s' = l.foldl (fun s td => ((t td).notify I s).2) s := by
  -- induction on the rounds; serving a timer leaves the `sigevent` of every timer
  induction fuel generalizing n t s l with
  | zero => cases h
  | succ fuel ih =>
      unfold sysTimersManage at h
      cases hnext : sysTimerNextExpiring clock t n with
      | none =>
          rw [hnext] at h
          cases h
      | some e =>
          rw [hnext] at h
          obtain ⟨e, n'⟩ := e
          cases e with
          | none =>
              cases h
              rfl
          | some td =>
              dsimp only at h
              split_ifs at h
              · obtain ⟨⟨rest, r⟩, hrest, heq⟩ := Option.map_eq_some_iff.1 h
                cases heq
                have hfold := ih hrest
                rw [List.foldl_cons, hfold]
                refine List.foldl_ext _ _ _ fun s d _ => congrArg Prod.snd (notify_congr I ?_ s)
                by_cases hd : d = td
                · rw [hd]
                  exact (congrArg SysTimer.sevp (served_self (clock (n' + 1)) t td)).trans (sevp_rearm _ _)
                · exact congrArg SysTimer.sevp (served_of_ne (clock (n' + 1)) t hd)
              · cases h
                rfl

/-- Each of them notifies as its event says. -/
theorem Tracks.notify {Q : Type} (I : QueueImpl Q) {W : Window} {t t' : SysTimers} {L : Lives}
    {now : ClockId → Timespec} {l : List (Fin timerMax)} (h : Tracks W t L)
    (hm : Managed now t l t') (s : SigState Q) :
    l.foldl (fun s td => ((t td).notify I s).2) s = L.notify I (l.map idOf) s := by
  unfold Lives.notify
  rw [List.foldl_map]
  refine List.foldl_ext _ _ _ fun s td hin => ?_
  obtain ⟨tr, htr, -⟩ := (h.expired_iff td).1 ((hm.mem_iff td).1 hin)
  rw [htr]
  exact congrArg Prod.snd (notify_congr I (h.entry td tr htr).sevp s)

/-! ## What a timer reports -/

/-- A value that says when a timer is due, from now, and its interval; a time that is over is
negative. -/
structure Tracked.Reported (now : ClockId → Timespec) (tr : Tracked) (v : Itimerspec) : Prop where
  interval : v.itInterval.nanos = tr.life.set.interval
  value : v.itValue.nanos = tr.life.alarm.due.elim 0 fun d => d - (now tr.clockid).nanos

/-- What is reported is what is left. -/
theorem Tracks.reported {W : Window} {t : SysTimers} {L : Lives} {now : ClockId → Timespec}
    (h : Tracks W t L) (hnow : W.Holds now) {td : Fin timerMax} {tr : Tracked}
    (htr : L (idOf td) = some tr) : tr.Reported now (currentValue now t td) := by
  have hfits := h.noOverflow hnow
  have hentry := h.entry td tr htr
  have hinterval : (t td).value.itInterval.nanos = tr.life.set.interval := by
    rw [← Life.interval_alarm, ← hentry.alarm]
    rfl
  unfold currentValue
  -- a timer that is not due at any time is disarmed, and zero is left
  cases hdue : tr.life.alarm.due with
  | none =>
      have hnot : ¬ Armed t td := by
        rw [h.armed_iff]
        rintro ⟨tr', d, htr', hd⟩
        rw [htr] at htr'
        cases htr'
        rw [hdue] at hd
        cases hd
      have hzero : (t td).value.itValue = timespecZero := by
        by_contra hset
        exact hnot ⟨(h.none_iff td).not.1 (by rw [htr]; exact Option.some_ne_none tr), hset⟩
      rw [if_neg ((hfits.armed_iff td).not.2 hnot)]
      refine ⟨hinterval, ?_⟩
      rw [hzero, hdue]
      rfl
  | some d =>
      have harmed : Armed t td := (h.armed_iff td).2 ⟨tr, d, htr, hdue⟩
      rw [if_pos ((hfits.armed_iff td).2 harmed)]
      refine ⟨hinterval, ?_⟩
      rw [hdue]
      exact (hfits.timeToExpiration harmed).2.trans (h.timeLeft_eq htr hdue)

/-- **Timers keep to their schedules.**  In every run, no timer expires before the time that was
asked for plus an interval for each time it has expired since, and one without an interval
expires once.  `timer_gettime` reports what is left exactly.  A call of `timer_settime`, with
clocks that stand still in it, makes all timers expire whose time has come, in order, each notifies
as it was created to, and none is due afterwards. -/
theorem timers_on_schedule {Q : Type} {W : Window} {I : QueueImpl Q} {t : SysTimers} {L : Lives}
    (h : Run W I t L) :
    (∀ id tr, L id = some tr → tr.life.OnSchedule) ∧
    (∀ id tr now, L id = some tr → W.Holds now →
      ∃ v, timerGettime now t id = .returned (.ok v) t ∧ tr.Reported now v) ∧
    ∀ id tr now fuel s flags newValue, L id = some tr → W.Admits now flags newValue tr →
      timerMax < fuel →
        ∃ old t', timerSettime I (still now) fuel t s id flags newValue
            = .returned (.ok (old, (L.settime now id flags newValue).notify I
                (expiredBy I now fuel t s id flags newValue) s)) t' ∧
          tr.Reported now old ∧
          Served now (L.settime now id flags newValue)
            (expiredBy I now fuel t s id flags newValue) := by
  have htracks := h.tracks
  refine ⟨fun id tr hid => ?_, fun id tr now hid hnow => ?_,
    fun id tr now fuel s flags newValue hid hadmits hfuel => ?_⟩
  · obtain ⟨td, rfl⟩ := htracks.exists_idOf hid
    exact (htracks.entry td tr hid).kept.onSchedule
  · obtain ⟨td, rfl⟩ := htracks.exists_idOf hid
    refine ⟨currentValue now t td, ?_, htracks.reported hnow hid⟩
    unfold timerGettime
    rw [onTimer_idOf,
      if_pos ((htracks.none_iff td).not.1 (by rw [hid]; exact Option.some_ne_none tr))]
  · obtain ⟨td, rfl⟩ := htracks.exists_idOf hid
    have hset := htracks.settime hid hadmits
    obtain ⟨l, t', s', hret, hexp, hmanage, hm⟩ := htracks.settime_call I s hid hadmits hfuel
    refine ⟨currentValue now t td, t', ?_, htracks.reported hadmits.holds hid, ?_⟩
    · rw [hret, hexp, sysTimersManage_notify I hmanage, hset.notify I hm]
    · rw [hexp]
      exact hset.served hm

/-- The first 34 years of all clocks. -/
def firstYears : Window := ⟨fun _ => 0, fun _ => le_rfl, fun _ => by decide⟩

/-- A timer that is set five seconds after the start to a time two seconds before. -/
theorem timers_on_schedule_late :
    ∃ t L tr, Run firstYears listQueue t L ∧ L 1 = some tr ∧ tr.life.rang = [5000000000] ∧
      tr.life.OnSchedule := by
  obtain ⟨t, hcreate⟩ : ∃ t, timerCreate .monotonic none (fun _ => zeroTimer) = .ok (1, t) :=
    ⟨_, rfl⟩
  have hrun := Run.create (W := firstYears) (I := listQueue) .boot hcreate
  have hone := Function.update_self (1 : BitVec 32) (some (⟨.monotonic, ⟨.signal, sigalrm, 1⟩,
    ⟨⟨none, 0⟩, []⟩⟩ : Tracked)) (fun _ => none)
  have hlo : (0 : ℤ) ≤ (⟨5, 0⟩ : Timespec).nanos := by decide
  have hhi : (⟨5, 0⟩ : Timespec).nanos < 0 + span := by decide
  have hadmits : firstYears.Admits (fun _ => ⟨5, 0⟩) timerAbstime ⟨⟨2, 0⟩, ⟨3, 0⟩⟩
      ⟨.monotonic, ⟨.signal, sigalrm, 1⟩, ⟨⟨none, 0⟩, []⟩⟩ := by
    refine ⟨⟨fun _ => ⟨by decide, by decide⟩, fun _ => hlo, fun _ => hhi⟩,
      ⟨⟨by decide, by decide⟩, by decide, by decide⟩,
      ⟨⟨by decide, by decide⟩, by decide, by decide⟩, fun d hd => ?_, by decide⟩
    cases hd
    decide
  obtain ⟨old, t', hcall, -, hserved⟩ := (timers_on_schedule hrun).2.2 1 _ (fun _ => ⟨5, 0⟩) 33
    (SigState.zero listQueue) timerAbstime ⟨⟨2, 0⟩, ⟨3, 0⟩⟩ hone hadmits (by decide)
  have hrun' := hrun.settime hone hadmits (by decide) hcall
  have hin := (hserved.mem_iff 1).2
    ⟨_, Function.update_self _ _ _, 3000000000, rfl, by decide⟩
  -- the life after the call: the ring is at five seconds
  have hafter : ((Lives.settime (Function.update (fun _ => none) 1 (some ⟨.monotonic,
      ⟨.signal, sigalrm, 1⟩, ⟨⟨none, 0⟩, []⟩⟩)) (fun _ => ⟨5, 0⟩) 1 timerAbstime
        ⟨⟨2, 0⟩, ⟨3, 0⟩⟩).expire (fun _ => ⟨5, 0⟩) (expiredBy listQueue (fun _ => ⟨5, 0⟩) 33 t
          (SigState.zero listQueue) 1 timerAbstime ⟨⟨2, 0⟩, ⟨3, 0⟩⟩)) 1
      = some ⟨.monotonic, ⟨.signal, sigalrm, 1⟩,
          ⟨⟨some 3000000000, 2000000000⟩, [5000000000]⟩⟩ := by
    unfold Lives.expire Lives.settime
    rw [Function.update_self, hone, Option.map_some, Option.map_some, if_pos hin]
    rfl
  exact ⟨t', _, _, hrun', hafter, rfl, (timers_on_schedule hrun').1 1 _ hafter⟩

end Timer

end Nucleo
