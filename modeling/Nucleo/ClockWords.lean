/-
# Reading and setting a clock word by word

`clock_gettime` and `clock_settime` copy a clock one word at a time, and a SysTick interrupt may
come between any two of their accesses.  Each of them makes passes until the flag is the same
before and after one.  A call is given here with the interrupts that come in each of its passes.

`Shows` says what the clocks stand for: so many interrupts since the start, and a time by which
`CLOCK_REALTIME` is ahead of `CLOCK_MONOTONIC`.  An interrupt in the middle of a copy leaves the
realtime clock with a word of each time, which is only `Loose`; the next pass writes both again.
-/
import Nucleo.TimespecOrder

namespace Nucleo

namespace ClockWords

open Timespec

/-! ## Passes -/

/-- So many interrupts, one after the other. -/
def ticks : ℕ → Clocks → Clocks
  | 0, s => s
  | n + 1, s => ticks n (sysTickHandler s)

/-- The interrupts before each access of a pass, the last one being the second of the flag. -/
structure SetPass where
  toFlag : ℕ
  toSec : ℕ
  toNsec : ℕ
  toFlagAfter : ℕ

/-- The same for a pass of `clock_gettime`, and what `systick_get_value` returns in it. -/
structure GetPass where
  toFlag : ℕ
  toSec : ℕ
  toNsec : ℕ
  toFraction : ℕ
  fractionTicks : BitVec 32
  toFlagAfter : ℕ

/-- A pass of the loop of `clock_settime`: whether it is the last one, and what it leaves. -/
def setPass (tp : Timespec) (p : SetPass) (s : Clocks) : Bool × Clocks :=
  let s := ticks p.toFlag s
  let flagBefore := s.timerUpdateFlag
  let s := ticks p.toSec s
  let s := { s with realtime := { s.realtime with tvSec := tp.tvSec } }
  let s := ticks p.toNsec s
  let s := { s with realtime := { s.realtime with tvNsec := tp.tvNsec } }
  let s := ticks p.toFlagAfter s
  (decide (flagBefore = s.timerUpdateFlag), s)

/-- A pass of the loop of `clock_gettime`: whether it is the last one, what it stores in `*tp`
and what it leaves. -/
def getPass (clk : Clocks → Timespec) (p : GetPass) (s : Clocks) : Bool × Timespec × Clocks :=
  let s := ticks p.toFlag s
  let flagBefore := s.timerUpdateFlag
  let s := ticks p.toSec s
  let tvSec := (clk s).tvSec
  let s := ticks p.toNsec s
  let tvNsec := (clk s).tvNsec
  let s := ticks p.toFraction s
  let s := ticks p.toFlagAfter s
  (decide (flagBefore = s.timerUpdateFlag), ⟨tvSec, tvNsec⟩, s)

/-- The loop of `clock_settime`; `none` while it goes on. -/
def setLoop (tp : Timespec) : List SetPass → Clocks → Option Clocks
  | [], _ => none
  | p :: ps, s =>
      let r := setPass tp p s
      if r.1 then some r.2 else setLoop tp ps r.2

/-- The loop of `clock_gettime`, and the addition behind it, for the AHB frequency `f`. -/
def getLoop (f : BitVec 32) (clk : Clocks → Timespec) :
    List GetPass → Clocks → Option (Timespec × Clocks)
  | [], _ => none
  | p :: ps, s =>
      let r := getPass clk p s
      if r.1 then some (timespecAdd r.2.1 (systickFractionToTimespec f p.fractionTicks), r.2.2)
      else getLoop f clk ps r.2.2

/-! ## Calls -/

/-- A call, with the passes that it makes, or time that goes by. -/
inductive Call
  | settime (clockId : ClockId) (tp : Option Timespec) (passes : List SetPass)
  | gettime (clockId : ClockId) (passes : List GetPass)
  | idle (n : ℕ)

/-- What a call returns: the error, or the value that `clock_gettime` stores. -/
abbrev Answer := Except Errno (Option Timespec)

/-- A call of the program; the checks of `clock_settime` are those of `clockSettime`.  The
synchronisation that may follow a reading of `CLOCK_REALTIME` is its default, which does
nothing. -/
def Call.exec (f : BitVec 32) (s : Clocks) : Call → Option (Answer × Clocks)
  | .settime clockId tp passes =>
      match clockSettime s clockId tp with
      | .error e => some (.error e, s)
      | .ok _ => (tp.bind fun tp => setLoop tp passes s).map fun s => (.ok none, s)
  | .gettime .other _ => some (.error .EINVAL, s)
  | .gettime .monotonic passes =>
      (getLoop f Clocks.monotonic passes s).map fun r => (.ok (some r.1), r.2)
  | .gettime .realtime passes =>
      (getLoop f Clocks.realtime passes s).map fun r => (.ok (some r.1), r.2)
  | .idle n => some (.ok none, ticks n s)

/-- Calls one after the other. -/
def execAll (f : BitVec 32) : List Call → Clocks → Option (List Answer × Clocks)
  | [], s => some ([], s)
  | c :: cs, s =>
      match c.exec f s with
      | none => none
      | some (a, s) => (execAll f cs s).map fun r => (a :: r.1, r.2)

/-! ## What the clocks stand for -/

instance (t : Timespec) : Decidable t.Normalised :=
  inferInstanceAs (Decidable (0 ≤ t.tvNsec ∧ t.tvNsec < nsecsInSec))

/-- The interrupts since the start, and the nanoseconds by which `CLOCK_REALTIME` is ahead. -/
structure Time where
  count : ℕ
  ahead : ℤ

/-- The nanoseconds of the interrupts. -/
def Time.nanos (m : Time) : ℤ := m.count * 1000000

/-- Interrupts that come. -/
def Time.idle (n : ℕ) (m : Time) : Time := { m with count := m.count + n }

/-- `CLOCK_REALTIME` is set. -/
def Time.set (tp : Timespec) (m : Time) : Time := { m with ahead := tp.nanos - m.nanos }

/-- The interrupts of the passes of a call. -/
def SetPass.all (p : SetPass) : ℕ := p.toFlag + p.toSec + p.toNsec + p.toFlagAfter

/-- The interrupts of a pass. -/
def GetPass.all (p : GetPass) : ℕ :=
  p.toFlag + p.toSec + p.toNsec + p.toFraction + p.toFlagAfter

/-- The interrupts until a loop ends; those in a pass show in the flag unless they are 2 ^ 32. -/
def setCount : List SetPass → ℕ
  | [] => 0
  | p :: ps => if p.toSec + p.toNsec + p.toFlagAfter = 0 then p.toFlag else p.all + setCount ps

/-- The interrupts of a call of `clock_gettime`. -/
def getCount : List GetPass → ℕ
  | [] => 0
  | p :: ps =>
      if p.toSec + p.toNsec + p.toFraction + p.toFlagAfter = 0 then p.toFlag
      else p.all + getCount ps

/-- The counter in the pass that ends the loop. -/
def lastFraction : List GetPass → BitVec 32
  | [] => 0
  | p :: ps =>
      if p.toSec + p.toNsec + p.toFraction + p.toFlagAfter = 0 then p.fractionTicks
      else lastFraction ps

/-- What a call does to the time. -/
def Time.after (m : Time) : Call → Time
  | .settime .realtime (some tp) passes =>
      if tp.Normalised then (m.idle (setCount passes)).set tp else m
  | .settime _ _ _ => m
  | .gettime .other _ => m
  | .gettime _ passes => m.idle (getCount passes)
  | .idle n => m.idle n

/-- The answer of a call made at a time. -/
def AnswerRight (f : BitVec 32) (m : Time) : Call → Answer → Prop
  | .settime .realtime (some tp) _, a => tp.Normalised ∧ a = .ok none ∨
      ¬ tp.Normalised ∧ a = .error .EINVAL
  | .settime _ _ _, a => a = .error .EINVAL
  | .gettime .other _, a => a = .error .EINVAL
  | .gettime .monotonic passes, a => ∃ r, a = .ok (some r) ∧ r.Normalised ∧
      r.nanos = (m.idle (getCount passes)).nanos + subTick f (lastFraction passes)
  | .gettime .realtime passes, a => ∃ r, a = .ok (some r) ∧ r.Normalised ∧
      r.nanos = m.ahead + (m.idle (getCount passes)).nanos + subTick f (lastFraction passes)
  | .idle _, a => a = .ok none

/-- The answers of a run that begins at a time. -/
inductive RunRight (f : BitVec 32) : Time → List Call → List Answer → Prop
  | nil (m : Time) : RunRight f m [] []
  | cons {m : Time} {c : Call} {cs : List Call} {a : Answer} {as : List Answer}
      (h : AnswerRight f m c a) (hrest : RunRight f (m.after c) cs as) :
      RunRight f m (c :: cs) (a :: as)

/-- The time after a run. -/
def Time.run (m : Time) (cs : List Call) : Time := cs.foldl Time.after m

/-- No pass takes so many interrupts that the flag is the same again, the counter is in its
period, and a time that is set fits as long as there are no more than `K` interrupts. -/
def Call.Fits (f : BitVec 32) (K : ℕ) : Call → Prop
  | .settime _ tp passes =>
      (∀ p ∈ passes, p.toSec + p.toNsec + p.toFlagAfter < 2 ^ 32) ∧
        ∀ t, tp = some t → 0 ≤ t.tvSec ∧ t.nanos + K * 1000000 + 1000000 < 2 ^ 31 * 1000000000
  | .gettime _ passes => ∀ p ∈ passes,
      p.toSec + p.toNsec + p.toFraction + p.toFlagAfter < 2 ^ 32 ∧ InPeriod f p.fractionTicks
  | .idle _ => True

/-! ## Interrupts -/

/-- Interrupts add up. -/
theorem ticks_add (m n : ℕ) (s : Clocks) : ticks (m + n) s = ticks n (ticks m s) := by
  induction m generalizing s with
  | zero => rw [Nat.zero_add]; rfl
  | succ m ih =>
      rw [Nat.succ_add]
      exact ih (sysTickHandler s)

/-- The flag counts. -/
theorem flag_ticks (n : ℕ) (s : Clocks) :
    Int.ModEq (2 ^ 32) (ticks n s).timerUpdateFlag (s.timerUpdateFlag + n) := by
  induction n generalizing s with
  | zero =>
      rw [Nat.cast_zero, add_zero]
      exact Int.ModEq.rfl
  | succ n ih =>
      have hwrap : Int.ModEq (2 ^ 32) (wrap32 (s.timerUpdateFlag + 1)) (s.timerUpdateFlag + 1) :=
        Int.bmod_emod
      refine (ih (sysTickHandler s)).trans ?_
      rw [Nat.cast_add, Nat.cast_one, add_comm (n : ℤ), ← add_assoc]
      exact hwrap.add_right _

/-- The flag shows any interrupts that are not 2 ^ 32. -/
theorem flag_ticks_eq_iff {n : ℕ} (s : Clocks) (hfew : n < 2 ^ 32) :
    s.timerUpdateFlag = (ticks n s).timerUpdateFlag ↔ n = 0 := by
  constructor
  · intro h
    have hmod := flag_ticks n s
    rw [← h] at hmod
    have hzero : Int.ModEq (2 ^ 32) 0 n := by
      refine Int.ModEq.add_left_cancel' s.timerUpdateFlag ?_
      rw [add_zero]
      exact hmod
    unfold Int.ModEq at hzero
    omega
  · rintro rfl
    rfl

/-! ### What stays true meanwhile -/

/-- The interrupts are counted by `CLOCK_MONOTONIC` and move `CLOCK_REALTIME` by whole words. -/
structure Loose (k : ℕ) (s : Clocks) : Prop where
  monotonic : s.monotonic = Timespec.ofNanos (k * 1000000)
  realtime : s.realtime.Normalised

/-- The clocks show a time. -/
structure Shows (m : Time) (s : Clocks) : Prop where
  loose : Loose m.count s
  realtime : s.realtime.nanos = m.ahead + m.nanos

/-- A time that fits as long as there are no more than `K` interrupts. -/
structure Time.Fits (K : ℕ) (m : Time) : Prop where
  nonneg : 0 ≤ m.ahead + m.nanos
  lt : m.ahead + K * 1000000 + 1000000 < 2 ^ 31 * 1000000000

section Ticks

variable {K : ℕ} (hK : K * 1000000 + 1000000 < 2 ^ 31 * 1000000000)

/-- A millisecond is a timespec. -/
theorem normalised_systickStep : systickStep.Normalised :=
  ⟨by show (0 : ℤ) ≤ 1000000; norm_num, by show (1000000 : ℤ) < 1000000000; norm_num⟩

/-- It is a million nanoseconds. -/
theorem nanos_systickStep : systickStep.nanos = 1000000 := rfl

include hK

/-- Interrupts leave a torn setting torn, within the room. -/
theorem Loose.ticks {k n : ℕ} {s : Clocks} (h : Loose k s) (hle : k + n ≤ K) :
    Loose (k + n) (ticks n s) := by
  induction n generalizing k s with
  | zero => exact h
  | succ n ih =>
      have hone : Loose (k + 1) (sysTickHandler s) := by
        refine ⟨?_, (add_nanos h.realtime normalised_systickStep).1⟩
        show timespecAdd s.monotonic systickStep = _
        rw [h.monotonic, systickStep_eq, Nat.add_mul, Nat.one_mul]
        have hmul : k * 1000000 ≤ K * 1000000 := Nat.mul_le_mul_right _ (by omega)
        exact timespecAdd_ofNanos (m := k * 1000000) (n := 1000000) (by norm_num)
          (lt_of_le_of_lt (Nat.add_le_add_right hmul _) hK)
      have hrest := ih hone (by omega)
      rwa [Nat.add_assoc, Nat.add_comm 1] at hrest

/-- **Interrupts advance what the clocks show**. -/
theorem Shows.ticks {m : Time} {n : ℕ} {s : Clocks} (h : Shows m s) (hfits : m.Fits K)
    (hle : m.count + n ≤ K) : Shows (m.idle n) (ticks n s) := by
  refine ⟨h.loose.ticks hK hle, ?_⟩
  induction n generalizing m s with
  | zero => rw [show m.idle 0 = m from rfl]; exact h.realtime
  | succ n ih =>
      obtain ⟨hnonneg, hlt⟩ := hfits
      unfold Time.nanos at hnonneg
      have hreal := h.realtime
      unfold Time.nanos at hreal
      have hone : Shows (m.idle 1) (sysTickHandler s) := by
        refine ⟨(h.loose.ticks hK (n := 1) (by omega)), ?_⟩
        have hsum := (add_eq_iff h.loose.realtime normalised_systickStep).2 (by
          rw [hreal, nanos_systickStep]
          unfold SecsFit
          omega)
        show (timespecAdd s.realtime systickStep).nanos = m.ahead + (m.idle 1).nanos
        rw [hsum, hreal, nanos_systickStep]
        unfold Time.nanos Time.idle
        push_cast
        ring
      have hrest := ih hone ⟨by unfold Time.nanos Time.idle; push_cast; omega, hlt⟩
        (by unfold Time.idle; dsimp only; omega)
      have hidle : (m.idle 1).idle n = m.idle (n + 1) := by
        unfold Time.idle
        dsimp only
        rw [Nat.add_assoc, Nat.add_comm 1]
      rwa [hidle] at hrest

end Ticks

/-! ## Setting a clock -/

/-- What the flag becomes does not depend on the clocks. -/
theorem flag_ticks_congr {n : ℕ} {s t : Clocks} (h : s.timerUpdateFlag = t.timerUpdateFlag) :
    (ticks n s).timerUpdateFlag = (ticks n t).timerUpdateFlag := by
  induction n generalizing s t with
  | zero => exact h
  | succ n ih =>
      apply ih
      show wrap32 (s.timerUpdateFlag + 1) = wrap32 (t.timerUpdateFlag + 1)
      rw [h]

/-- A pass without an interrupt between its accesses. -/
def SetPass.Quiet (p : SetPass) : Prop := p.toSec + p.toNsec + p.toFlagAfter = 0

/-- No interrupt splits the pass. -/
def GetPass.Quiet (p : GetPass) : Prop :=
  p.toSec + p.toNsec + p.toFraction + p.toFlagAfter = 0

/-- Writing the clock does not move the flag. -/
theorem setPass_flag (tp : Timespec) (p : SetPass) (s : Clocks) :
    (setPass tp p s).2.timerUpdateFlag
      = (ticks (p.toSec + p.toNsec + p.toFlagAfter) (ticks p.toFlag s)).timerUpdateFlag := by
  rw [ticks_add, ticks_add]
  exact flag_ticks_congr (flag_ticks_congr rfl)

/-- The last pass is the quiet one. -/
theorem setPass_last_iff (tp : Timespec) {p : SetPass} (s : Clocks)
    (hfew : p.toSec + p.toNsec + p.toFlagAfter < 2 ^ 32) :
    (setPass tp p s).1 = true ↔ p.Quiet := by
  show decide ((ticks p.toFlag s).timerUpdateFlag = (setPass tp p s).2.timerUpdateFlag) = true ↔ _
  rw [decide_eq_true_iff, setPass_flag]
  exact flag_ticks_eq_iff _ hfew

/-- A pass that is not split writes both words. -/
theorem setPass_quiet (tp : Timespec) {p : SetPass} (s : Clocks) (h : p.Quiet) :
    (setPass tp p s).2 = { ticks p.toFlag s with realtime := tp } := by
  obtain ⟨toFlag, toSec, toNsec, toFlagAfter⟩ := p
  unfold SetPass.Quiet at h
  obtain rfl : toSec = 0 := by dsimp only at h; omega
  obtain rfl : toNsec = 0 := by dsimp only at h; omega
  obtain rfl : toFlagAfter = 0 := by dsimp only at h; omega
  rfl

/-- The seconds may be written at any time. -/
theorem Loose.writeSec {k : ℕ} {s : Clocks} (h : Loose k s) (sec : ℤ) :
    Loose k { s with realtime := { s.realtime with tvSec := sec } } :=
  ⟨h.monotonic, h.realtime⟩

theorem Loose.writeNsec {k : ℕ} {s : Clocks} (h : Loose k s) {tp : Timespec}
    (htp : tp.Normalised) : Loose k { s with realtime := { s.realtime with tvNsec := tp.tvNsec } } :=
  ⟨h.monotonic, htp⟩

section Set

variable {K : ℕ} (hK : K * 1000000 + 1000000 < 2 ^ 31 * 1000000000)

include hK

/-- The words of a pass may come from two times; each leaves a fraction of a second. -/
theorem setPass_loose {k : ℕ} {tp : Timespec} {p : SetPass} {s : Clocks} (htp : tp.Normalised)
    (h : Loose k s) (hle : k + p.all ≤ K) : Loose (k + p.all) (setPass tp p s).2 := by
  unfold SetPass.all at hle ⊢
  have hflag := h.ticks hK (n := p.toFlag) (by omega)
  have hsec := (hflag.ticks hK (n := p.toSec) (by omega)).writeSec tp.tvSec
  have hnsec := (hsec.ticks hK (n := p.toNsec) (by omega)).writeNsec htp
  have hall := hnsec.ticks hK (n := p.toFlagAfter) (by omega)
  rw [Nat.add_assoc, Nat.add_assoc, Nat.add_assoc] at hall
  rw [Nat.add_assoc, Nat.add_assoc]
  exact hall

/-- **A clock that is set shows the whole time that was given**, however many passes it took. -/
theorem setLoop_spec {k : ℕ} {tp : Timespec} {ps : List SetPass} {s : Clocks}
    (htp : tp.Normalised) (hfew : ∀ p ∈ ps, p.toSec + p.toNsec + p.toFlagAfter < 2 ^ 32)
    (hquiet : ∃ p ∈ ps, p.Quiet) (h : Loose k s) (hle : k + setCount ps ≤ K) :
    ∃ s', setLoop tp ps s = some s' ∧ Loose (k + setCount ps) s' ∧ s'.realtime = tp := by
  induction ps generalizing k s with
  | nil =>
      obtain ⟨p, hmem, -⟩ := hquiet
      cases hmem
  | cons p ps ih =>
      have hlast := setPass_last_iff tp s (hfew p List.mem_cons_self)
      unfold setLoop
      unfold setCount at hle ⊢
      by_cases hp : p.Quiet
      · have hcount : p.toSec + p.toNsec + p.toFlagAfter = 0 := hp
        rw [if_pos hcount] at hle ⊢
        have hticks := h.ticks hK hle
        refine ⟨{ ticks p.toFlag s with realtime := tp }, ?_, ⟨hticks.monotonic, htp⟩, rfl⟩
        dsimp only
        rw [if_pos (hlast.2 hp), setPass_quiet tp s hp]
      · have hcount : ¬ p.toSec + p.toNsec + p.toFlagAfter = 0 := hp
        rw [if_neg hcount, ← Nat.add_assoc] at hle ⊢
        have hrest : ∃ q ∈ ps, q.Quiet := by
          obtain ⟨q, hmem, hq⟩ := hquiet
          rcases List.mem_cons.1 hmem with rfl | hmem
          · exact absurd hq hp
          · exact ⟨q, hmem, hq⟩
        dsimp only
        rw [if_neg (fun h => hp (hlast.1 h))]
        exact ih (fun q hmem => hfew q (List.mem_cons_of_mem _ hmem)) hrest
          (setPass_loose hK htp h (by omega)) hle

end Set

/-! ## Reading a clock -/

/-- A pass leaves what its interrupts leave. -/
theorem getPass_state (clk : Clocks → Timespec) (p : GetPass) (s : Clocks) :
    (getPass clk p s).2.2 = ticks p.all s := by
  unfold GetPass.all
  rw [ticks_add, ticks_add, ticks_add, ticks_add]
  rfl

/-- The last pass is the first one that is not split. -/
theorem getPass_last_iff (clk : Clocks → Timespec) {p : GetPass} (s : Clocks)
    (hfew : p.toSec + p.toNsec + p.toFraction + p.toFlagAfter < 2 ^ 32) :
    (getPass clk p s).1 = true ↔ p.Quiet := by
  show decide ((ticks p.toFlag s).timerUpdateFlag = (getPass clk p s).2.2.timerUpdateFlag) = true
    ↔ _
  have hall : p.all = p.toFlag + (p.toSec + p.toNsec + p.toFraction + p.toFlagAfter) := by
    unfold GetPass.all
    omega
  rw [decide_eq_true_iff, getPass_state, hall, ticks_add]
  exact flag_ticks_eq_iff _ hfew

/-- It reads one value of the clock. -/
theorem getPass_quiet (clk : Clocks → Timespec) {p : GetPass} (s : Clocks) (h : p.Quiet) :
    (getPass clk p s).2 = (clk (ticks p.toFlag s), ticks p.toFlag s) := by
  obtain ⟨toFlag, toSec, toNsec, toFraction, fractionTicks, toFlagAfter⟩ := p
  unfold GetPass.Quiet at h
  obtain rfl : toSec = 0 := by dsimp only at h; omega
  obtain rfl : toNsec = 0 := by dsimp only at h; omega
  obtain rfl : toFraction = 0 := by dsimp only at h; omega
  obtain rfl : toFlagAfter = 0 := by dsimp only at h; omega
  rfl

/-- **A reading is of one tick**: the words of the clock and the counter of the quiet pass. -/
theorem getLoop_spec {f : BitVec 32} (clk : Clocks → Timespec) {ps : List GetPass} (s : Clocks)
    (hfew : ∀ p ∈ ps, p.toSec + p.toNsec + p.toFraction + p.toFlagAfter < 2 ^ 32 ∧
      InPeriod f p.fractionTicks) (hquiet : ∃ p ∈ ps, p.Quiet) :
    getLoop f clk ps s = some (timespecAdd (clk (ticks (getCount ps) s))
        (systickFractionToTimespec f (lastFraction ps)), ticks (getCount ps) s) ∧
      InPeriod f (lastFraction ps) := by
  induction ps generalizing s with
  | nil =>
      obtain ⟨p, hmem, -⟩ := hquiet
      cases hmem
  | cons p ps ih =>
      obtain ⟨hfewp, hperiod⟩ := hfew p List.mem_cons_self
      have hlast := getPass_last_iff clk s hfewp
      unfold getLoop getCount lastFraction
      by_cases hp : p.Quiet
      · have hcount : p.toSec + p.toNsec + p.toFraction + p.toFlagAfter = 0 := hp
        dsimp only
        rw [if_pos hcount, if_pos hcount, if_pos (hlast.2 hp), getPass_quiet clk s hp]
        exact ⟨rfl, hperiod⟩
      · have hcount : ¬ p.toSec + p.toNsec + p.toFraction + p.toFlagAfter = 0 := hp
        have hrest : ∃ q ∈ ps, q.Quiet := by
          obtain ⟨q, hmem, hq⟩ := hquiet
          rcases List.mem_cons.1 hmem with rfl | hmem
          · exact absurd hq hp
          · exact ⟨q, hmem, hq⟩
        dsimp only
        rw [if_neg hcount, if_neg hcount, if_neg (fun h => hp (hlast.1 h)), getPass_state,
          ticks_add]
        exact ih _ (fun q hmem => hfew q (List.mem_cons_of_mem _ hmem)) hrest

/-- The fraction of a tick is added exactly. -/
theorem read_spec {f : BitVec 32} {c : BitVec 32} {t : Timespec} (hf : 1000 ≤ f.toNat)
    (hc : InPeriod f c) (ht : t.Normalised) (hnonneg : 0 ≤ t.nanos)
    (hlt : t.nanos + 1000000 < 2 ^ 31 * 1000000000) :
    (timespecAdd t (systickFractionToTimespec f c)).Normalised ∧
      (timespecAdd t (systickFractionToTimespec f c)).nanos = t.nanos + subTick f c := by
  have hle := subTick_le f c
  have hnanos : (⟨0, (subTick f c : ℤ)⟩ : Timespec).nanos = subTick f c := by
    unfold Timespec.nanos
    ring
  have hnorm : (⟨0, (subTick f c : ℤ)⟩ : Timespec).Normalised := by
    unfold Timespec.Normalised nsecsInSec
    dsimp only
    omega
  rw [systickFractionToTimespec_eq hf hc]
  refine ⟨(add_nanos ht hnorm).1, ?_⟩
  rw [(add_eq_iff ht hnorm).2, hnanos]
  unfold SecsFit
  rw [hnanos]
  omega

/-! ## Calls -/

/-- `CLOCK_REALTIME` takes what is normalised. -/
theorem clockSettime_realtime (s : Clocks) (tp : Timespec) :
    clockSettime s .realtime (some tp)
      = if tp.Normalised then .ok { s with realtime := tp } else .error .EINVAL := by
  unfold clockSettime
  simp only [Clocks.get, reduceCtorEq, if_false]
  by_cases hneg : tp.tvNsec < 0
  · rw [if_pos hneg, if_neg (fun h : tp.Normalised => not_lt.2 h.1 hneg)]
  · rw [if_neg hneg]
    by_cases hbig : tp.tvNsec ≥ nsecsInSec
    · rw [if_pos hbig, if_neg (fun h : tp.Normalised => not_lt.2 hbig h.2)]
    · rw [if_neg hbig, if_pos (show tp.Normalised from ⟨not_lt.1 hneg, not_le.1 hbig⟩)]

/-- An accepted setting goes through the passes. -/
theorem exec_settime {f : BitVec 32} {s s' : Clocks} {clockId : ClockId} {tp : Option Timespec}
    {passes : List SetPass} (h : clockSettime s clockId tp = .ok s') :
    Call.exec f s (.settime clockId tp passes)
      = (tp.bind fun tp => setLoop tp passes s).map fun s => (.ok none, s) := by
  simp only [Call.exec, h]

/-- A rejected one changes nothing. -/
theorem exec_settime_error {f : BitVec 32} {s : Clocks} {clockId : ClockId}
    {tp : Option Timespec} {passes : List SetPass} {e : Errno}
    (h : clockSettime s clockId tp = .error e) :
    Call.exec f s (.settime clockId tp passes) = some (.error e, s) := by
  simp only [Call.exec, h]

/-- What a setting means for the time. -/
theorem Time.after_settime (m : Time) (tp : Timespec) (passes : List SetPass) :
    m.after (.settime .realtime (some tp) passes)
      = if tp.Normalised then (m.idle (setCount passes)).set tp else m := rfl

/-- The loops of a call come to an end: one of its passes is quiet. -/
def Call.Ends : Call → Prop
  | .settime _ _ passes => ∃ p ∈ passes, p.Quiet
  | .gettime _ passes => ∃ p ∈ passes, p.Quiet
  | .idle _ => True

/-! ## The room for the seconds -/

/-- Time is not negative. -/
theorem Time.nanos_nonneg (m : Time) : 0 ≤ m.nanos := by
  unfold Time.nanos
  positivity

/-- It is a millisecond for each interrupt. -/
theorem Time.nanos_le {K : ℕ} {m : Time} (h : m.count ≤ K) : m.nanos ≤ K * 1000000 := by
  unfold Time.nanos
  exact_mod_cast Nat.mul_le_mul_right _ h

/-- It does not go back. -/
theorem Time.nanos_le_idle (m : Time) (n : ℕ) : m.nanos ≤ (m.idle n).nanos := by
  unfold Time.nanos Time.idle
  exact_mod_cast Nat.mul_le_mul_right _ (Nat.le_add_right m.count n)

/-- The difference of the clocks stays within the room. -/
theorem Time.Fits.idle {K : ℕ} {m : Time} (h : m.Fits K) (n : ℕ) : (m.idle n).Fits K := by
  refine ⟨?_, h.lt⟩
  have hnonneg := h.nonneg
  have hgrow := m.nanos_le_idle n
  show 0 ≤ m.ahead + (m.idle n).nanos
  omega

/-- A setting within the room leaves it so. -/
theorem Time.fits_set {K : ℕ} {m : Time} {tp : Timespec} (htp : tp.Normalised)
    (hsec : 0 ≤ tp.tvSec) (hlt : tp.nanos + K * 1000000 + 1000000 < 2 ^ 31 * 1000000000) :
    (m.set tp).Fits K := by
  have hpos := m.nanos_nonneg
  constructor
  · show 0 ≤ tp.nanos - m.nanos + m.nanos
    obtain ⟨hnlo, -⟩ := htp
    unfold Timespec.nanos
    omega
  · show tp.nanos - m.nanos + K * 1000000 + 1000000 < 2 ^ 31 * 1000000000
    omega

/-- A call takes no interrupts back. -/
theorem Time.count_le_after (m : Time) (c : Call) : m.count ≤ (m.after c).count := by
  rcases c with ⟨clockId, tp, passes⟩ | ⟨clockId, passes⟩ | n
  · rcases clockId with _ | _ | _
    · exact le_rfl
    · rcases tp with _ | tp
      · exact le_rfl
      · rw [Time.after_settime]
        split_ifs
        · exact Nat.le_add_right _ _
        · exact le_rfl
    · exact le_rfl
  · rcases clockId with _ | _ | _
    · exact Nat.le_add_right _ _
    · exact Nat.le_add_right _ _
    · exact le_rfl
  · exact Nat.le_add_right _ _

theorem Time.count_le_run (m : Time) (cs : List Call) : m.count ≤ (m.run cs).count := by
  induction cs generalizing m with
  | nil => exact le_rfl
  | cons c cs ih => exact (m.count_le_after c).trans (ih (m.after c))

section Calls

variable {f : BitVec 32} (hf : 1000 ≤ f.toNat) {K : ℕ}
  (hK : K * 1000000 + 1000000 < 2 ^ 31 * 1000000000)

include hf hK

/-! ## Every call is right -/

/-- What a call that reads a clock stores is what the clock shows when the quiet pass reads it. -/
theorem getLoop_right {m : Time} {s : Clocks} {ps : List GetPass} (h : Shows m s)
    (hfits : m.Fits K) (hfew : ∀ p ∈ ps, p.toSec + p.toNsec + p.toFraction + p.toFlagAfter < 2 ^ 32 ∧
      InPeriod f p.fractionTicks) (hquiet : ∃ p ∈ ps, p.Quiet) (hle : m.count + getCount ps ≤ K) :
    Shows (m.idle (getCount ps)) (ticks (getCount ps) s) ∧
      (∃ r, getLoop f Clocks.monotonic ps s = some (r, ticks (getCount ps) s) ∧ r.Normalised ∧
        r.nanos = (m.idle (getCount ps)).nanos + subTick f (lastFraction ps)) ∧
      ∃ r, getLoop f Clocks.realtime ps s = some (r, ticks (getCount ps) s) ∧ r.Normalised ∧
        r.nanos = m.ahead + (m.idle (getCount ps)).nanos + subTick f (lastFraction ps) := by
  have hshows := h.ticks hK hfits hle
  obtain ⟨hmono, hperiod⟩ := getLoop_spec Clocks.monotonic s hfew hquiet
  obtain ⟨hreal, -⟩ := getLoop_spec Clocks.realtime s hfew hquiet
  obtain ⟨hnonneg, hlt⟩ := hfits
  have hmul : (m.idle (getCount ps)).nanos ≤ K * 1000000 := Time.nanos_le hle
  have hpos := (m.idle (getCount ps)).nanos_nonneg
  have hgrow := m.nanos_le_idle (getCount ps)
  refine ⟨hshows, ⟨_, hmono, ?_⟩, ⟨_, hreal, ?_⟩⟩
  · have hclk : (ticks (getCount ps) s).monotonic.nanos = (m.idle (getCount ps)).nanos := by
      rw [hshows.loose.monotonic]
      unfold Timespec.ofNanos Timespec.nanos Time.nanos
      push_cast
      omega
    rw [← hclk] at hmul hpos ⊢
    refine read_spec hf hperiod ?_ hpos (by omega)
    rw [hshows.loose.monotonic]
    exact normalised_ofNanos _
  · have hclk : (ticks (getCount ps) s).realtime.nanos = m.ahead + (m.idle (getCount ps)).nanos :=
      hshows.realtime
    rw [← hclk]
    exact read_spec hf hperiod hshows.loose.realtime (by omega) (by omega)

/-- **One call**: it returns, its answer is right, and the clocks show the time behind it. -/
theorem exec_spec {m : Time} {s : Clocks} {c : Call} (h : Shows m s) (hfits : m.Fits K)
    (hc : c.Fits f K) (hends : c.Ends) (hle : (m.after c).count ≤ K) :
    ∃ a s', c.exec f s = some (a, s') ∧ AnswerRight f m c a ∧ Shows (m.after c) s' ∧
      (m.after c).Fits K := by
  -- settings, readings and idle time; of the three clocks two can be read and one set
  rcases c with ⟨clockId, tp, passes⟩ | ⟨clockId, passes⟩ | n
  · rcases clockId with _ | _ | _
    · exact ⟨_, s, rfl, rfl, h, hfits⟩
    · rcases tp with _ | tp
      · exact ⟨_, s, rfl, rfl, h, hfits⟩
      · have hset := clockSettime_realtime s tp
        obtain ⟨hfew, hbound⟩ := hc
        obtain ⟨hsec, hlt⟩ := hbound tp rfl
        rw [Time.after_settime] at hle ⊢
        by_cases htp : tp.Normalised
        · rw [if_pos htp] at hset hle ⊢
          obtain ⟨s', hloop, hloose, hreal⟩ := setLoop_spec hK htp hfew hends h.loose hle
          refine ⟨.ok none, s', ?_, Or.inl ⟨htp, rfl⟩, ⟨hloose, ?_⟩, ?_⟩
          · rw [exec_settime hset]
            show (setLoop tp passes s).map _ = _
            rw [hloop]
            rfl
          · rw [hreal]
            exact (sub_add_cancel _ _).symm
          · exact Time.fits_set htp hsec hlt
        · rw [if_neg htp] at hset ⊢
          refine ⟨.error .EINVAL, s, ?_, Or.inr ⟨htp, rfl⟩, h, hfits⟩
          exact exec_settime_error hset
    · exact ⟨_, s, rfl, rfl, h, hfits⟩
  · rcases clockId with _ | _ | _
    · obtain ⟨hshows, ⟨r, hloop, hright⟩, -⟩ := getLoop_right hf hK h hfits hc hends hle
      refine ⟨.ok (some r), _, ?_, ⟨r, rfl, hright⟩, hshows, hfits.idle _⟩
      show (getLoop f Clocks.monotonic passes s).map _ = _
      rw [hloop]
      rfl
    · obtain ⟨hshows, -, r, hloop, hright⟩ := getLoop_right hf hK h hfits hc hends hle
      refine ⟨.ok (some r), _, ?_, ⟨r, rfl, hright⟩, hshows, hfits.idle _⟩
      show (getLoop f Clocks.realtime passes s).map _ = _
      rw [hloop]
      rfl
    · exact ⟨_, s, rfl, rfl, h, hfits⟩
  · exact ⟨_, _, rfl, rfl, h.ticks hK hfits hle, hfits.idle n⟩

/-- Calls one after the other, from a time that the clocks show. -/
theorem execAll_spec {m : Time} {s : Clocks} {cs : List Call} (h : Shows m s) (hfits : m.Fits K)
    (hcs : ∀ c ∈ cs, c.Fits f K ∧ c.Ends) (hle : (m.run cs).count ≤ K) :
    ∃ as s', execAll f cs s = some (as, s') ∧ RunRight f m cs as ∧ Shows (m.run cs) s' := by
  induction cs generalizing m s with
  | nil => exact ⟨[], s, rfl, RunRight.nil m, h⟩
  | cons c cs ih =>
      obtain ⟨hc, hends⟩ := hcs c List.mem_cons_self
      obtain ⟨a, s', hexec, hright, hshows, hfits'⟩ :=
        exec_spec hf hK h hfits hc hends ((Time.count_le_run _ cs).trans hle)
      obtain ⟨as, s'', hrest, hrights, hshows'⟩ :=
        ih hshows hfits' (fun d hmem => hcs d (List.mem_cons_of_mem _ hmem)) hle
      refine ⟨a :: as, s'', ?_, RunRight.cons hright hrights, hshows'⟩
      unfold execAll
      rw [hexec]
      dsimp only
      rw [hrest]
      rfl

end Calls

/-- At the start both clocks show zero. -/
theorem shows_bootClocks : Shows ⟨0, 0⟩ bootClocks :=
  ⟨⟨rfl, by decide⟩, rfl⟩

/-- **The two clocks run together, whatever interrupts come between the words.**  From the start,
however many interrupts come before any access of any pass, every reading is normalised and is of
one tick: the interrupts up to its last pass and the fraction of the counter it read, and for
`CLOCK_REALTIME` the difference that the last accepted `clock_settime` made. -/
theorem clock_words_consistent {f : BitVec 32} (hf : 1000 ≤ f.toNat) {K : ℕ}
    (hK : K * 1000000 + 1000000 < 2 ^ 31 * 1000000000) {cs : List Call}
    (hcs : ∀ c ∈ cs, c.Fits f K ∧ c.Ends) (hle : (Time.run ⟨0, 0⟩ cs).count ≤ K) :
    ∃ as s', execAll f cs bootClocks = some (as, s') ∧ RunRight f ⟨0, 0⟩ cs as ∧
      Shows (Time.run ⟨0, 0⟩ cs) s' := by
  refine execAll_spec hf hK shows_bootClocks ⟨le_rfl, ?_⟩ hcs hle
  dsimp only
  omega

/-! ## A torn setting -/

/-- An interrupt between the two words that are set carries into the seconds already written. -/
def tornSetting : List Call :=
  [.idle 3, .settime .realtime (some ⟨100, 999999999⟩) [⟨0, 0, 1, 0⟩, ⟨0, 0, 0, 0⟩],
    .gettime .realtime [⟨0, 0, 1, 0, 5, 0⟩, ⟨0, 0, 0, 0, 5, 0⟩],
    .gettime .monotonic [⟨1, 0, 0, 0, 5, 0⟩]]

/-- The calls of the example stay within the room. -/
theorem tornSetting_fits : ∀ c ∈ tornSetting, c.Fits 84000000 10 ∧ c.Ends := by
  have hperiod : InPeriod 84000000 5 := by
    unfold InPeriod
    decide
  intro c hc
  simp only [tornSetting, List.mem_cons, List.not_mem_nil, or_false] at hc
  rcases hc with rfl | rfl | rfl | rfl
  · exact ⟨trivial, trivial⟩
  · refine ⟨⟨by decide, ?_⟩, ⟨0, 0, 0, 0⟩, by simp, rfl⟩
    intro t ht
    cases ht
    exact ⟨by norm_num, by unfold Timespec.nanos; norm_num⟩
  · refine ⟨?_, ⟨0, 0, 0, 0, 5, 0⟩, by simp, rfl⟩
    intro p hp
    simp only [List.mem_cons, List.not_mem_nil, or_false] at hp
    rcases hp with rfl | rfl
    · exact ⟨by decide, hperiod⟩
    · exact ⟨by decide, hperiod⟩
  · refine ⟨?_, ⟨1, 0, 0, 0, 5, 0⟩, by simp, rfl⟩
    intro p hp
    cases List.mem_singleton.1 hp
    exact ⟨by decide, hperiod⟩

/-- A setting that a carry tears is repaired before it counts. -/
theorem clock_words_consistent_tornSetting :
    (∃ as s', execAll 84000000 tornSetting bootClocks = some (as, s') ∧
      RunRight 84000000 ⟨0, 0⟩ tornSetting as ∧ Shows (Time.run ⟨0, 0⟩ tornSetting) s') ∧
      (execAll 84000000 tornSetting bootClocks).map Prod.fst
        = some [.ok none, .ok none, .ok (some ⟨101, 1923944⟩), .ok (some ⟨0, 6923945⟩)] :=
  ⟨clock_words_consistent (f := 84000000) (by decide) (K := 10) (by norm_num) tornSetting_fits
    (by decide), by decide⟩

end ClockWords

end Nucleo
