/-
# The circle of calls between the clock and the SNTP client ends

`Calm b k x` says of a computation started while `clock_gettime_mutex` is `b` that it
returns, puts the flag back, and has at most `k` more calls of `sntp_gettime` active at
once than it started with.  It composes along the text of the clients.  A reading made
while the flag is set starts nothing, an exchange adds one to what its readings need, and
`clock_gettime` sets the flag around the exchange it starts: two levels are enough for
every entry point.
-/
import Nucleo.Sntp

namespace Nucleo

namespace Net

open Comp W5100

variable {η α β : Type} {E : Environment η}

/-! ## Computations that come back -/

/-- Started with the flag at `b`, the computation returns with the flag at `b`, and at
most `k` calls of `sntp_gettime` more than before have been active at once. -/
def Calm (b : Bool) (k : ℕ) (x : Client η α) : Prop :=
  ∀ s : NetState η, s.clockGettimeMutex = b → ∃ a s', x s = .ok (a, s') ∧
    s'.clockGettimeMutex = b ∧ s'.active = s.active ∧ s'.peak ≤ max s.peak (s.active + k)

section Rules

variable {b : Bool} {k l : ℕ}

/-- A deeper bound is a bound. -/
theorem Calm.mono {x : Client η α} (hx : Calm b k x) (hkl : k ≤ l) : Calm b l x := by
  intro s hs
  obtain ⟨a, s', heq, hm, hact, hpeak⟩ := hx s hs
  exact ⟨a, s', heq, hm, hact, by omega⟩

theorem calm_pure (a : α) : Calm b k (pure a : Client η α) :=
  fun s hs => ⟨a, s, rfl, hs, rfl, le_max_left _ _⟩

/-- Looking at the state makes no call. -/
theorem calm_get : Calm b k (get : Client η (NetState η)) :=
  fun s hs => ⟨s, s, rfl, hs, rfl, le_max_left _ _⟩

/-- What leaves the flag and the two counts alone. -/
theorem calm_modify {f : NetState η → NetState η}
    (hm : ∀ s, (f s).clockGettimeMutex = s.clockGettimeMutex)
    (hact : ∀ s, (f s).active = s.active) (hpeak : ∀ s, (f s).peak = s.peak) :
    Calm b k (modify f : Client η PUnit) :=
  fun s hs => ⟨⟨⟩, f s, rfl, (hm s).trans hs, hact s, (hpeak s).trans_le (le_max_left _ _)⟩

/-- A function of the machine that leaves the flag makes no call. -/
theorem calm_onMachine {g : Machine η → α × Machine η}
    (hg : ∀ m, (g m).2.clockGettimeMutex = m.clockGettimeMutex) : Calm b k (onMachine g) :=
  fun s hs => ⟨_, _, rfl, (hg s.toMachine).trans hs, rfl, le_max_left _ _⟩

/-- A sequence is calm when both of its parts are. -/
theorem Calm.bind {x : Client η α} {f : α → Client η β} (hx : Calm b k x)
    (hf : ∀ a, Calm b k (f a)) : Calm b k (x >>= f) := by
  intro s hs
  obtain ⟨a, s₁, heq, hm, hact, hpeak⟩ := hx s hs
  obtain ⟨c, s₂, heq', hm', hact', hpeak'⟩ := hf a s₁ hm
  refine ⟨c, s₂, (bind_of_ok heq).trans heq', hm', hact'.trans hact, ?_⟩
  rw [hact] at hpeak'
  exact hpeak'.trans (max_le hpeak (le_max_right _ _))

/-- A branch is calm when both sides are. -/
theorem Calm.ite {c : Prop} [Decidable c] {x y : Client η α} (hx : Calm b k x)
    (hy : Calm b k y) : Calm b k (if c then x else y) := by
  by_cases hc : c
  · rw [if_pos hc]
    exact hx
  · rw [if_neg hc]
    exact hy

/-- A call of `sntp_gettime` is one more than what it makes. -/
theorem Calm.whileActive {x : Client η α} (hx : Calm b k x) : Calm b (k + 1) (whileActive x) := by
  intro s hs
  obtain ⟨a, s₁, heq, hm, hact, hpeak⟩ := hx s.enter hs
  refine ⟨a, s₁.leave, ?_, hm, ?_, ?_⟩
  · unfold Net.whileActive
    rw [modify_bind, bind_of_ok heq]
    rfl
  · show s₁.active - 1 = s.active
    rw [hact]
    rfl
  · have henter : s.enter.peak = max s.peak (s.active + 1) := rfl
    have hactive : s.enter.active = s.active + 1 := rfl
    show s₁.peak ≤ _
    omega

end Rules

/-! ## The clients -/

section Clients

variable {b : Bool} {k : ℕ} {clock : Client η Timespec}

/-- The environment makes no call into the module. -/
theorem calm_call (r : Request) : Calm b k (call E r) := calm_onMachine fun _ => rfl

/-- Taking the time of the request makes no call. -/
theorem calm_recordT1 : Calm b k (recordT1 : Client η PUnit) :=
  calm_modify (fun _ => rfl) (fun _ => rfl) fun _ => rfl

/-- Taking the time of the reply makes no call. -/
theorem calm_recordT4 (before : NetState η) : Calm b k (recordT4 before) :=
  calm_modify (fun _ => rfl) (fun _ => rfl) fun _ => rfl

theorem calm_sntpTimeserverSet (server : InAddr) :
    Calm b k (sntpTimeserverSet server : Client η PUnit) :=
  calm_modify (fun _ => rfl) (fun _ => rfl) fun _ => rfl

/-- The request reads the clock. -/
theorem calm_sntpRequest (hclock : Calm b k clock) (sock : ℤ) (server : InAddr) :
    Calm b k (sntpRequest E clock sock server) := by
  refine hclock.bind fun transmit => calm_recordT1.bind fun _ => ?_
  exact (calm_call _).bind fun sent => (calm_pure _).ite (calm_pure _)

theorem calm_sntpReply (hclock : Calm b k clock) (sock : ℤ) :
    Calm b k (sntpReply E clock sock) := by
  refine (calm_call _).bind fun got => Calm.ite (Calm.ite ?_ (calm_pure _)) (calm_pure _)
  refine calm_get.bind fun before => hclock.bind fun t4 => ?_
  exact (calm_recordT4 before).bind fun _ => calm_pure _

theorem calm_sntpSocket : Calm b k (sntpSocket E) := by
  have hclose : ∀ sock, Calm b k (closeAndFail E sock) :=
    fun sock => (calm_call _).bind fun _ => calm_pure _
  refine (calm_call _).bind fun sock => Calm.ite ?_ (calm_pure _)
  refine (calm_call _).bind fun rcv => Calm.ite (hclose _) ?_
  exact (calm_call _).bind fun snd => Calm.ite (hclose _) (calm_pure _)

/-- SNTP is one level deeper than the clock that it reads. -/
theorem calm_sntpGettime (hclock : Calm b k clock) : Calm b (k + 1) (sntpGettime E clock) := by
  refine Calm.whileActive (calm_sntpSocket.bind fun sock => Calm.ite ?_ (calm_pure _))
  refine Calm.bind ?_ fun out => (calm_call _).bind fun _ => calm_pure _
  refine calm_get.bind fun s => (calm_sntpRequest hclock sock _).bind fun res => ?_
  exact (calm_sntpReply hclock sock).ite (calm_pure _)

/-- What `setRealtime` does, whether `clock_settime` succeeds or not. -/
theorem calm_setRealtime (now : Timespec) : Calm b k (setRealtime E now) := by
  intro s hs
  unfold setRealtime
  rw [get_bind]
  dsimp only
  cases clockSettime (s.toMachine.elapse E).clocks .realtime (some now) with
  | error e => exact ⟨false, _, rfl, hs, rfl, le_max_left _ _⟩
  | ok clocks => exact ⟨true, _, rfl, hs, rfl, le_max_left _ _⟩

theorem calm_timesyncNowTimespec (hclock : Calm b k clock) :
    Calm b (k + 1) (timesyncNowTimespec E clock) := by
  refine (calm_sntpGettime hclock).bind fun out => ?_
  cases out with
  | none => exact calm_pure _
  | some now => exact (calm_setRealtime now).bind fun _ => (calm_pure _).ite (calm_pure _)

theorem calm_timesyncTimespec (hclock : Calm b k clock) (now : Option Timespec) :
    Calm b (k + 1) (timesyncTimespec E clock now) :=
  calm_get.bind fun _ => (calm_timesyncNowTimespec hclock).ite (calm_pure _)

end Clients

/-! ## The knot -/

/-- While the flag is set a reading starts nothing. -/
theorem clockGettime_held (depth : ℕ) {s : NetState η} (hs : s.clockGettimeMutex = true) :
    clockGettime E (depth + 1) s =
      .ok ((s.toMachine.reading E).1, { s with toMachine := (s.toMachine.reading E).2 }) := by
  show (if s.clockGettimeMutex then pure _ else _ : Client η Timespec) _ = _
  rw [if_pos hs]
  rfl

/-- While the flag is up the clock is only read. -/
theorem calm_clockGettime_held (depth : ℕ) : Calm true 0 (clockGettime E (depth + 1)) :=
  fun _ hs => ⟨_, _, clockGettime_held depth hs, hs, rfl, le_max_left _ _⟩

/-- A reading made while the flag is clear sets it around the exchange it starts. -/
theorem clockGettime_free (depth : ℕ) {s : NetState η} (hs : s.clockGettimeMutex = false) :
    clockGettime E (depth + 1) s = (do
      setMutex true
      let synced ← timesyncTimespec E (clockGettime E depth) (some (s.toMachine.reading E).1)
      setMutex false
      pure (synced.2.getD (s.toMachine.reading E).1) : Client η Timespec)
        { s with toMachine := (s.toMachine.reading E).2 } := by
  show (if s.clockGettimeMutex then pure _ else _ : Client η Timespec) _ = _
  rw [if_neg (by rw [hs]; exact Bool.false_ne_true)]

/-- When it is down the clock is synchronised first, one level deep. -/
theorem calm_clockGettime_free (depth : ℕ) : Calm false 1 (clockGettime E (depth + 2)) := by
  intro s hs
  rw [clockGettime_free (depth + 1) hs]
  -- the nested exchange runs with the flag set, where its own readings are calm
  obtain ⟨synced, s₁, heq, -, hact, hpeak⟩ :=
    calm_timesyncTimespec (E := E) (calm_clockGettime_held depth) (some (s.toMachine.reading E).1)
      { s with toMachine := { (s.toMachine.reading E).2 with clockGettimeMutex := true } } rfl
  refine ⟨synced.2.getD (s.toMachine.reading E).1,
    { s₁ with toMachine := { s₁.toMachine with clockGettimeMutex := false } }, ?_, rfl, hact, hpeak⟩
  unfold setMutex
  rw [modify_bind, bind_of_ok heq]
  rfl

/-- From outside, every call is calm with two exchanges. -/
theorem calm_exec (depth : ℕ) (c : Entry) : Calm false 2 (c.exec E (depth + 2)) := by
  have hclock : Calm false 1 (clockGettime E (depth + 2)) := calm_clockGettime_free depth
  cases c with
  | clockGettime => exact (hclock.mono (by omega)).bind fun _ => calm_pure _
  | timesync =>
      refine (hclock.mono (by omega)).bind fun now => ?_
      exact (calm_timesyncTimespec hclock _).bind fun _ => calm_pure _
  | timesyncNow => exact (calm_timesyncNowTimespec hclock).bind fun _ => calm_pure _
  | sntpGettime => exact (calm_sntpGettime hclock).bind fun _ => calm_pure _
  | sntpTimeserverSet server => exact (calm_sntpTimeserverSet server).bind fun _ => calm_pure _

/-! ## More depth changes nothing -/

section Depth

variable {clock clock' : Client η Timespec} (hclock : Below clock clock')

include hclock

/-- SNTP on a clock that returns more often returns more often. -/
theorem below_sntpGettime : Below (sntpGettime E clock) (sntpGettime E clock') := by
  have hrequest : ∀ sock server,
      Below (sntpRequest E clock sock server) (sntpRequest E clock' sock server) :=
    fun _ _ => hclock.bind fun _ => Below.refl _
  have hreply : ∀ sock, Below (sntpReply E clock sock) (sntpReply E clock' sock) :=
    fun _ => (Below.refl _).bind fun _ => Below.ite (Below.ite
      ((Below.refl _).bind fun _ => hclock.bind fun _ => Below.refl _) (Below.refl _)) (Below.refl _)
  have hexchange : ∀ sock, Below (sntpExchange E clock sock) (sntpExchange E clock' sock) :=
    fun sock => (Below.refl _).bind fun _ => (hrequest sock _).bind fun _ =>
      Below.ite (hreply sock) (Below.refl _)
  refine (Below.refl _).bind fun _ => Below.bind ?_ fun _ => Below.refl _
  refine (Below.refl _).bind fun sock => Below.ite ?_ (Below.refl _)
  exact (hexchange sock).bind fun _ => Below.refl _

theorem below_timesyncNowTimespec :
    Below (timesyncNowTimespec E clock) (timesyncNowTimespec E clock') :=
  (below_sntpGettime hclock).bind fun _ => Below.refl _

theorem below_timesyncTimespec (now : Option Timespec) :
    Below (timesyncTimespec E clock now) (timesyncTimespec E clock' now) :=
  (Below.refl _).bind fun _ => (below_timesyncNowTimespec hclock).ite (Below.refl _)

end Depth

/-- One level more lets the clock return more often. -/
theorem below_clockGettime_succ (depth : ℕ) :
    Below (clockGettime E depth) (clockGettime E (depth + 1)) := by
  induction depth with
  | zero => exact below_throw _ _
  | succ depth ih =>
      refine (Below.refl _).bind fun tp => (Below.refl _).bind fun s => ?_
      refine (Below.refl _).ite ((Below.refl _).bind fun _ => ?_)
      exact (below_timesyncTimespec ih _).bind fun _ => Below.refl _

/-- More levels let every entry return more often. -/
theorem below_exec {m n : ℕ} (hmn : m ≤ n) (c : Entry) : Below (c.exec E m) (c.exec E n) := by
  have hclock : Below (clockGettime E m) (clockGettime E n) := by
    induction n, hmn using Nat.le_induction with
    | base => exact Below.refl _
    | succ n _ ih => exact ih.trans (below_clockGettime_succ n)
  cases c with
  | clockGettime => exact hclock.bind fun _ => Below.refl _
  | timesync => exact hclock.bind fun _ => (below_timesyncTimespec hclock _).bind fun _ => Below.refl _
  | timesyncNow => exact (below_timesyncNowTimespec hclock).bind fun _ => Below.refl _
  | sntpGettime => exact (below_sntpGettime hclock).bind fun _ => Below.refl _
  | sntpTimeserverSet server => exact Below.refl _

/-! ## Whole runs -/

/-- Between calls the flag is clear, and no call of `sntp_gettime` is active. -/
structure Idle (s : NetState η) : Prop where
  mutex : s.clockGettimeMutex = false
  active : s.active = 0
  peak : s.peak ≤ 2

/-- **Two levels are enough** for every call from outside. -/
theorem exec_idle (c : Entry) {s : NetState η} (hs : Idle s) :
    ∃ r s', (∀ depth, 2 ≤ depth → c.exec E depth s = .ok (r, s')) ∧ Idle s' := by
  obtain ⟨r, s', heq, hm, hact, hpeak⟩ := calm_exec (E := E) 0 c s hs.mutex
  have hs' : Idle s' := ⟨hm, hact.trans hs.active, by have := hs.active; have := hs.peak; omega⟩
  exact ⟨r, s', fun depth hdepth => below_exec hdepth c s r s' heq, hs'⟩

/-- They are for every list of calls. -/
theorem run_idle (calls : List Entry) {s : NetState η} (hs : Idle s) :
    ∃ s', (∀ depth, 2 ≤ depth →
      runList (Entry.exec E depth) (fun _ _ => true) calls s = some s') ∧ Idle s' := by
  induction calls generalizing s with
  | nil => exact ⟨s, fun _ _ => rfl, hs⟩
  | cons c calls ih =>
      obtain ⟨r, s₁, heq, hs₁⟩ := exec_idle (E := E) c hs
      obtain ⟨s', hrest, hs'⟩ := ih hs₁
      refine ⟨s', fun depth hdepth => ?_, hs'⟩
      unfold runList
      rw [if_pos rfl, heq depth hdepth]
      exact hrest depth hdepth

/-- **The recursion is well founded.**  Whatever the network answers, a list of calls made
from the start of the program runs to its end with readings nested at most two deep; at no
time were more than two calls of `sntp_gettime` active, and after the last call
`clock_gettime_mutex` is 0. -/
theorem recursion_bounded (E : Environment η) (e : η) (calls : List Entry) :
    ∃ s', (∀ depth, 2 ≤ depth → runCalls E depth calls e = some s') ∧
      s'.clockGettimeMutex = false ∧ s'.active = 0 ∧ s'.peak ≤ 2 := by
  have hboot : Idle (NetState.boot e) := ⟨rfl, rfl, Nat.zero_le _⟩
  obtain ⟨s', hrun, hs'⟩ := run_idle (E := E) calls hboot
  exact ⟨s', hrun, hs'.mutex, hs'.active, hs'.peak⟩

end Net

end Nucleo
