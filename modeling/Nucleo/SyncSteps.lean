/-
# When the clock is set inside an exchange

The record of an exchange holds how often `CLOCK_REALTIME` had been set at the reading
that was sent and at the reading made for the reply.  The two agree unless the second
reading sets the clock itself: it is made while `clock_gettime_mutex` is 0, a
synchronisation is due by then, and the exchange it starts is answered.

`StepsOnRead` says this of the machine before the reading, in terms of what the
environment answers.  Every recorded exchange is split by a setting of the clock exactly
when it holds; `clock_gettime` keeps the flag set during the exchange it starts, and that
one is never split.
-/
import Nucleo.Timesync

namespace Nucleo

namespace Net

open Comp W5100

variable {η : Type} (E : Environment η)

/-! ## What the environment has to answer -/

/-- The socket of an exchange can be made. -/
def SocketMade (m : Machine η) : Prop :=
  let sock := m.call E (.socket .dgram)
  let rcv := sock.2.call E (.setsockopt sock.1.ret (.soRcvtimeo sntpTimeout))
  let snd := rcv.2.call E (.setsockopt sock.1.ret (.soSndtimeo sntpTimeout))
  0 ≤ sock.1.ret ∧ rcv.1.ret ≠ -1 ∧ snd.1.ret ≠ -1

/-- That socket, and the machine after its calls. -/
def madeSocket (m : Machine η) : ℤ × Machine η :=
  let sock := m.call E (.socket .dgram)
  let rcv := sock.2.call E (.setsockopt sock.1.ret (.soRcvtimeo sntpTimeout))
  let snd := rcv.2.call E (.setsockopt sock.1.ret (.soSndtimeo sntpTimeout))
  (sock.1.ret, snd.2)

/-- The request is sent whole, and a whole message of a server comes back, with a time
that `clock_settime` accepts. -/
def ReplyUsable (sock : ℤ) (m : Machine η) : Prop :=
  let t1 := m.reading E
  let sent := t1.2.call E (.sendto sock (requestMessage t1.1) (sntpAddr m.sntpServer))
  let got := sent.2.call E (.recv sock ntpMessageSize)
  let t4 := got.2.reading E
  sent.1.ret = ntpMessageSize ∧ got.1.ret = ntpMessageSize ∧ isServerReply got.1.buf = true ∧
    (replyTime got.1.buf t4.1).Normalised

/-- An exchange started in this machine with `clock_gettime_mutex` set is answered. -/
def Answered (m : Machine η) : Prop :=
  SocketMade E m ∧ ReplyUsable E (madeSocket E m).1 (madeSocket E m).2

/-- The machine with `clock_gettime_mutex` set. -/
def Machine.held (m : Machine η) : Machine η := { m with clockGettimeMutex := true }

/-- A reading of the clock in this machine sets it: the flag is clear, a synchronisation is
due, and its exchange is answered. -/
def StepsOnRead (m : Machine η) : Prop :=
  m.clockGettimeMutex = false ∧ timeToSync m.nextSync (some (m.reading E).1) = true ∧
    Answered E (m.reading E).2.held

/-! ## The exchange of a reading -/

section Held

variable {E} {s : NetState η}

/-- The socket is made. -/
theorem sntpSocket_of_made (h : SocketMade E s.toMachine) :
    sntpSocket E s = .ok ((madeSocket E s.toMachine).1,
      { s with toMachine := (madeSocket E s.toMachine).2 }) := by
  obtain ⟨hsock, hrcv, hsnd⟩ := h
  unfold sntpSocket call
  rw [onMachine_bind, if_pos hsock, onMachine_bind, if_neg hrcv, onMachine_bind, if_neg hsnd]
  rfl

/-- Otherwise there is none. -/
theorem sntpSocket_of_not_made (h : ¬ SocketMade E s.toMachine) :
    Post (sntpSocket E) (fun sock _ => sock < 0) s := by
  unfold sntpSocket closeAndFail call
  simp only [post_bind, post_onMachine, post_ite, post_pure]
  -- each early exit returns −1, and the last one contradicts `h`
  refine ⟨fun hsock => ⟨fun _ => by decide, fun hrcv => ⟨fun _ => by decide, fun hsnd => ?_⟩⟩,
    fun hsock => not_le.1 hsock⟩
  exact absurd ⟨hsock, hrcv, hsnd⟩ h

/-- The request of an exchange, with a reading that starts nothing. -/
theorem sntpRequest_held (depth : ℕ) (sock : ℤ) (server : InAddr)
    (hs : s.clockGettimeMutex = true) :
    let t1 := s.toMachine.reading E
    let sent := t1.2.call E (.sendto sock (requestMessage t1.1) (sntpAddr server))
    sntpRequest E (clockGettime E (depth + 1)) sock server s
      = .ok (if sent.1.ret = ntpMessageSize then 0 else -1,
          { s with toMachine := sent.2, stepsAtT1 := s.steps }) := by
  intro t1 sent
  unfold sntpRequest recordT1 call
  rw [bind_of_ok (clockGettime_held depth hs), modify_bind, onMachine_bind]
  by_cases hsent : sent.1.ret = ntpMessageSize
  · rw [if_pos hsent, if_pos hsent]
    rfl
  · rw [if_neg hsent, if_neg hsent]
    rfl

/-- What a reply is worth while the flag is up. -/
theorem post_sntpReply_held (depth : ℕ) (sock : ℤ) (hs : s.clockGettimeMutex = true) :
    let got := s.toMachine.call E (.recv sock ntpMessageSize)
    let t4 := got.2.reading E
    Post (sntpReply E (clockGettime E (depth + 1)) sock)
      (fun out _ => (∃ now, out = some now ∧ now.Normalised) ↔
        got.1.ret = ntpMessageSize ∧ isServerReply got.1.buf = true ∧
          (replyTime got.1.buf t4.1).Normalised) s := by
  intro got t4
  have hnone : ¬ ∃ now : Timespec, none = some now ∧ now.Normalised := by
    rintro ⟨_, hc, -⟩
    cases hc
  unfold sntpReply call
  simp only [post_bind, post_onMachine, post_ite, post_pure]
  refine ⟨fun hlen => ⟨fun hreply => ?_, fun hreply => ?_⟩, fun hlen => ?_⟩
  · rw [post_get]
    refine post_of_ok (clockGettime_held depth hs) ?_
    unfold recordT4
    rw [post_modify]
    constructor
    · rintro ⟨now, heq, hnow⟩
      cases heq
      exact ⟨hlen, hreply, hnow⟩
    · rintro ⟨-, -, hnow⟩
      exact ⟨_, rfl, hnow⟩
  · exact iff_of_false hnone fun h => hreply h.2.1
  · exact iff_of_false hnone fun h => hlen h.1

/-- What an exchange is worth. -/
theorem post_sntpExchange_held (depth : ℕ) (sock : ℤ) (hs : s.clockGettimeMutex = true) :
    Post (sntpExchange E (clockGettime E (depth + 1)) sock)
      (fun out _ => (∃ now, out = some now ∧ now.Normalised) ↔ ReplyUsable E sock s.toMachine)
      s := by
  unfold sntpExchange
  rw [post_bind, post_get, post_bind_of_ok (sntpRequest_held depth sock s.sntpServer hs)]
  by_cases hsent : ((s.toMachine.reading E).2.call E (.sendto sock
      (requestMessage (s.toMachine.reading E).1) (sntpAddr s.sntpServer))).1.ret = ntpMessageSize
  · rw [if_pos hsent, if_pos rfl]
    refine (post_sntpReply_held depth sock (by exact hs)).mono fun out s' hout => hout.trans ?_
    exact ⟨fun h => ⟨hsent, h⟩, fun h => h.2⟩
  · rw [if_neg hsent, if_neg (by decide), post_pure]
    constructor
    · rintro ⟨_, hc, -⟩
      cases hc
    · exact fun h => absurd h.1 hsent

/-- **An exchange with the flag set gives a usable time exactly when it is answered.** -/
theorem post_sntpGettime_held (depth : ℕ) (hs : s.clockGettimeMutex = true) :
    Post (sntpGettime E (clockGettime E (depth + 1)))
      (fun out _ => (∃ now, out = some now ∧ now.Normalised) ↔ Answered E s.toMachine) s := by
  have hnone : ¬ ∃ now : Timespec, none = some now ∧ now.Normalised := by
    rintro ⟨_, hc, -⟩
    cases hc
  unfold sntpGettime whileActive
  rw [post_bind, post_modify, post_bind]
  by_cases hmade : SocketMade E s.toMachine
  · have hsock : 0 ≤ (madeSocket E s.enter.toMachine).1 := hmade.1
    rw [post_bind_of_ok (sntpSocket_of_made (s := s.enter) hmade), if_pos hsock, post_bind]
    refine (post_sntpExchange_held depth _ (by exact hs)).mono fun out s' hout => ?_
    unfold call
    rw [post_bind, post_onMachine, post_pure, post_bind, post_modify, post_pure]
    exact hout.trans ⟨fun h => ⟨hmade, h⟩, fun h => h.2⟩
  · rw [post_bind]
    refine (sntpSocket_of_not_made (s := s.enter) hmade).mono fun sock s' hneg => ?_
    rw [if_neg (by omega), post_pure, post_bind, post_modify, post_pure]
    exact iff_of_false hnone fun h => hmade h.1

end Held

/-! ## What the clients keep -/

/-- The flag is `b`, every recorded exchange is split exactly when its second reading set
the clock, and while the flag is set the clock is set `n` times. -/
structure Sound (b : Bool) (n : ℕ) (s : NetState η) : Prop where
  mutex : s.clockGettimeMutex = b
  log : ∀ x ∈ s.exchanges, x.stepsAtT1 = x.stepsAtT4 ↔ ¬ StepsOnRead E x.beforeT4
  steps : b = true → s.steps = n

/-- A reading of the clock that sets it exactly when `StepsOnRead` says so. -/
def ReadsSoundly (b : Bool) (clock : Client η Timespec) : Prop :=
  ∀ n s, Sound E b n s → Post clock (fun _ s' =>
    Sound E b n s' ∧ (s'.steps = s.steps ↔ ¬ StepsOnRead E s.toMachine)) s

section Sound

variable {E} {b : Bool} {n : ℕ} {clock : Client η Timespec}

/-- The environment keeps the clock sound. -/
theorem sound_call (r : Request) : Maintains (Sound E b n) (call E r) := by
  intro s hs
  unfold call
  rw [post_onMachine]
  exact ⟨hs.mutex, hs.log, hs.steps⟩

theorem ReadsSoundly.maintains (hclock : ReadsSoundly E b clock) :
    Maintains (Sound E b n) clock :=
  fun s hs => (hclock n s hs).mono fun _ _ h => h.1

/-- Making the socket keeps it sound. -/
theorem sound_sntpSocket : Maintains (Sound E b n) (sntpSocket E) := by
  have hclose : ∀ sock, Maintains (Sound E b n) (closeAndFail E sock) :=
    fun sock => (sound_call _).bind fun _ => maintains_pure _
  refine (sound_call _).bind fun sock => Maintains.ite ?_ (maintains_pure _)
  refine (sound_call _).bind fun rcv => Maintains.ite (hclose _) ?_
  exact (sound_call _).bind fun snd => Maintains.ite (hclose _) (maintains_pure _)

/-- After the request the record tells how often the clock has been set until now. -/
theorem post_sntpRequest (hclock : ReadsSoundly E b clock) (sock : ℤ) (server : InAddr)
    {s : NetState η} (hs : Sound E b n s) :
    Post (sntpRequest E clock sock server)
      (fun _ s' => Sound E b n s' ∧ s'.stepsAtT1 = s'.steps) s := by
  unfold sntpRequest recordT1 call
  rw [post_bind]
  refine (hclock n s hs).mono fun transmit s₁ h₁ => ?_
  simp only [post_bind, post_modify, post_onMachine, post_ite, post_pure]
  have h : Sound E b n s₁ := h₁.1
  exact ⟨fun _ => ⟨⟨h.mutex, h.log, h.steps⟩, trivial⟩, fun _ => ⟨⟨h.mutex, h.log, h.steps⟩, trivial⟩⟩

/-- The exchange that a reply completes is recorded as the reading for it says. -/
theorem post_sntpReply (hclock : ReadsSoundly E b clock) (sock : ℤ) {s : NetState η}
    (hs : Sound E b n s) (hT1 : s.stepsAtT1 = s.steps) :
    Post (sntpReply E clock sock) (fun _ s' => Sound E b n s') s := by
  unfold sntpReply call
  simp only [post_bind, post_onMachine, post_ite, post_pure]
  have hs' : Sound E b n
      { s with toMachine := (s.toMachine.call E (.recv sock ntpMessageSize)).2 } :=
    ⟨hs.mutex, hs.log, hs.steps⟩
  refine ⟨fun _ => ⟨fun _ => ?_, fun _ => hs'⟩, fun _ => hs'⟩
  rw [post_get]
  refine (hclock n _ hs').mono fun t4 s₁ h₁ => ?_
  unfold recordT4
  rw [post_modify]
  obtain ⟨h, hstep⟩ := h₁
  refine ⟨h.mutex, ?_, h.steps⟩
  intro x hx
  rcases List.mem_append.1 hx with hx | hx
  · exact h.log x hx
  · -- between the request and this reading the clock was not set
    rw [List.mem_singleton.1 hx, ← hstep]
    show s.stepsAtT1 = s₁.steps ↔ s₁.steps = s.steps
    rw [hT1]
    exact eq_comm

theorem sound_sntpGettime (hclock : ReadsSoundly E b clock) :
    Maintains (Sound E b n) (sntpGettime E clock) := by
  intro s hs
  unfold sntpGettime whileActive
  rw [post_bind, post_modify, post_bind]
  -- leaving gives back the depth only
  have hleave : ∀ (a : Option Timespec) (s' : NetState η), Sound E b n s' →
      Post (modify NetState.leave >>= fun _ => pure a : Client η (Option Timespec))
        (fun _ s' => Sound E b n s') s' := by
    intro a s' h
    rw [post_bind, post_modify, post_pure]
    exact ⟨h.mutex, h.log, h.steps⟩
  refine Post.mono ?_ hleave
  rw [post_bind]
  refine (sound_sntpSocket (E := E) s.enter ⟨hs.mutex, hs.log, hs.steps⟩).mono fun sock s₁ h₁ => ?_
  rw [post_ite, post_pure]
  refine ⟨fun _ => ?_, fun _ => h₁⟩
  unfold sntpExchange
  simp only [post_bind]
  rw [post_get]
  refine (post_sntpRequest hclock sock s₁.sntpServer h₁).mono fun res s₂ h₂ => ?_
  have hclose : ∀ (a : Option Timespec) (s' : NetState η), Sound E b n s' →
      Post (call E (.close sock)) (fun _ s' => Post (pure a : Client η (Option Timespec))
        (fun _ s' => Sound E b n s') s') s' := by
    intro a s' h
    refine (sound_call _ s' h).mono fun _ s'' h' => ?_
    rw [post_pure]
    exact h'
  rw [post_ite, post_pure]
  exact ⟨fun _ => (post_sntpReply hclock sock h₂.1 h₂.2).mono hclose, fun _ => hclose _ _ h₂.1⟩

/-- `clock_settime` on `CLOCK_REALTIME` checks the nanoseconds. -/
theorem clockSettime_realtime (c : Clocks) (now : Timespec) :
    (now.Normalised ∧ clockSettime c .realtime (some now) = .ok { c with realtime := now }) ∨
      (¬ now.Normalised ∧ clockSettime c .realtime (some now) = .error .EINVAL) := by
  unfold clockSettime Timespec.Normalised
  dsimp only [Clocks.get]
  rw [if_neg ClockId.noConfusion]
  by_cases hneg : now.tvNsec < 0
  · rw [if_pos hneg]
    exact Or.inr ⟨fun h => by omega, rfl⟩
  · by_cases hbig : now.tvNsec ≥ nsecsInSec
    · rw [if_neg hneg, if_pos hbig]
      exact Or.inr ⟨fun h => by omega, rfl⟩
    · rw [if_neg hneg, if_neg hbig]
      exact Or.inl ⟨⟨by omega, by omega⟩, rfl⟩

/-- `setRealtime` sets the clock exactly when the nanoseconds are in range. -/
theorem post_setRealtime (now : Timespec) (s : NetState η) :
    Post (setRealtime E now) (fun _ s' => s'.clockGettimeMutex = s.clockGettimeMutex ∧
      s'.exchanges = s.exchanges ∧ (s'.steps = s.steps ↔ ¬ now.Normalised)) s := by
  unfold setRealtime
  rw [post_bind, post_get]
  dsimp only
  rcases clockSettime_realtime (s.toMachine.elapse E).clocks now with ⟨hnorm, heq⟩ | ⟨hnorm, heq⟩
  · rw [heq]
    refine post_of_ok rfl ⟨rfl, rfl, ?_⟩
    exact iff_of_false (Nat.succ_ne_self s.steps) fun h => h hnorm
  · rw [heq]
    exact post_of_ok rfl ⟨rfl, rfl, iff_of_true rfl hnorm⟩

/-! ### The synchronisation -/

theorem sound_timesyncNowTimespec (hclock : ReadsSoundly E false clock) :
    Maintains (Sound E false n) (timesyncNowTimespec E clock) := by
  refine (sound_sntpGettime hclock).bind fun out => ?_
  cases out with
  | none => exact maintains_pure _
  | some now =>
      refine Maintains.bind ?_ fun _ => (maintains_pure _).ite (maintains_pure _)
      intro s hs
      refine (post_setRealtime now s).mono ?_
      rintro - s' ⟨hmutex, hlog, -⟩
      exact ⟨hmutex.trans hs.mutex, hlog ▸ hs.log, fun h => by cases h⟩

/-- **So does the synchronisation**. -/
theorem sound_timesyncTimespec (hclock : ReadsSoundly E false clock) (now : Option Timespec) :
    Maintains (Sound E false n) (timesyncTimespec E clock now) :=
  maintains_get.bind fun _ => (sound_timesyncNowTimespec hclock).ite (maintains_pure _)

end Sound

/-! ## The readings of the clock -/

section Readings

variable {E}

/-- While the flag is up the clock is only read. -/
theorem readsSoundly_held (depth : ℕ) : ReadsSoundly E true (clockGettime E (depth + 1)) := by
  intro n s hs
  refine post_of_ok (clockGettime_held depth hs.mutex) ⟨⟨hs.mutex, hs.log, hs.steps⟩, ?_⟩
  exact iff_of_true rfl fun h => Bool.noConfusion (hs.mutex.symm.trans h.1)

/-- A synchronisation made with the flag set moves the clock exactly when it is due and
its exchange is answered. -/
theorem post_timesyncTimespec_held (depth : ℕ) (now : Timespec) {n : ℕ} {s : NetState η}
    (hs : Sound E true n s) :
    Post (timesyncTimespec E (clockGettime E (depth + 1)) (some now)) (fun _ s' =>
      (∀ x ∈ s'.exchanges, x.stepsAtT1 = x.stepsAtT4 ↔ ¬ StepsOnRead E x.beforeT4) ∧
      (s'.steps = s.steps ↔ ¬ (timeToSync s.nextSync (some now) = true ∧
        Answered E s.toMachine))) s := by
  unfold timesyncTimespec timesyncNowTimespec
  rw [post_bind, post_get, post_ite, post_pure]
  refine ⟨fun hdue => ?_, fun hdue => ⟨hs.log, iff_of_true rfl fun h => hdue h.1⟩⟩
  rw [post_bind]
  refine ((sound_sntpGettime (readsSoundly_held depth) s hs).and
    (post_sntpGettime_held depth hs.mutex)).mono ?_
  rintro out s₁ ⟨h₁, hout⟩
  have hsteps : s₁.steps = s.steps := (h₁.steps rfl).trans (hs.steps rfl).symm
  cases out with
  | none =>
      refine post_pure.2 ⟨h₁.log, iff_of_true hsteps fun h => ?_⟩
      obtain ⟨_, hc, -⟩ := hout.2 h.2
      cases hc
  | some now' =>
      -- an answer sets the clock if `clock_settime` takes it
      have hanswered : Answered E s.toMachine ↔ now'.Normalised := by
        rw [← hout]
        constructor
        · rintro ⟨_, heq, hnorm⟩
          cases heq
          exact hnorm
        · exact fun hnorm => ⟨now', rfl, hnorm⟩
      rw [post_bind]
      refine (post_setRealtime now' s₁).mono ?_
      rintro ok s₂ ⟨-, hlog, hset⟩
      rw [hanswered, ← hsteps, post_ite, post_pure, post_pure, hset, hlog]
      have hdone : (∀ x ∈ s₁.exchanges, x.stepsAtT1 = x.stepsAtT4 ↔ ¬ StepsOnRead E x.beforeT4) ∧
          (¬ now'.Normalised ↔ ¬ (timeToSync s.nextSync (some now) = true ∧ now'.Normalised)) :=
        ⟨h₁.log, not_congr ⟨fun h => ⟨hdue, h⟩, fun h => h.2⟩⟩
      exact ⟨fun _ => hdone, fun _ => hdone⟩

/-- When it is down it is synchronised first. -/
theorem readsSoundly_free (depth : ℕ) : ReadsSoundly E false (clockGettime E (depth + 2)) := by
  intro n s hs
  have hheld : Sound E true s.steps { s with toMachine := (s.toMachine.reading E).2.held } :=
    ⟨rfl, hs.log, fun _ => rfl⟩
  unfold Post
  rw [clockGettime_free (depth + 1) hs.mutex]
  show Post _ _ _
  unfold setMutex
  rw [post_bind, post_modify, post_bind]
  refine (post_timesyncTimespec_held depth (s.toMachine.reading E).1 hheld).mono ?_
  rintro synced s₁ ⟨hlog, hsteps⟩
  rw [post_bind, post_modify, post_pure]
  refine ⟨⟨rfl, hlog, fun h => Bool.noConfusion h⟩, hsteps.trans (not_congr ?_)⟩
  exact ⟨fun h => ⟨hs.mutex, h⟩, fun h => h.2⟩

/-- Every entry keeps it sound. -/
theorem sound_exec (depth n : ℕ) (c : Entry) :
    Maintains (Sound E false n) (c.exec E (depth + 2)) := by
  have hclock : ReadsSoundly E false (clockGettime E (depth + 2)) := readsSoundly_free depth
  cases c with
  | clockGettime => exact hclock.maintains.bind fun _ => maintains_pure _
  | timesync =>
      refine hclock.maintains.bind fun now => ?_
      exact (sound_timesyncTimespec hclock _).bind fun _ => maintains_pure _
  | timesyncNow => exact (sound_timesyncNowTimespec hclock).bind fun _ => maintains_pure _
  | sntpGettime => exact (sound_sntpGettime hclock).bind fun _ => maintains_pure _
  | sntpTimeserverSet server =>
      refine Maintains.bind (maintains_modify ?_) fun _ => maintains_pure _
      exact fun s hs => ⟨hs.mutex, hs.log, hs.steps⟩

end Readings

/-! ## Whole runs -/

/-- **When an exchange is split by a setting of the clock.**  In every run, the recorded
exchanges have as many settings of the clock before their first reading as before their
second exactly when none of the second readings was made with `clock_gettime_mutex` 0,
a synchronisation due and its exchange answered. -/
theorem unsplit_iff (E : Environment η) (e : η) (calls : List Entry) :
    ∃ s', (∀ depth, 2 ≤ depth → runCalls E depth calls e = some s') ∧
      ((∀ x ∈ s'.exchanges, x.stepsAtT1 = x.stepsAtT4) ↔
        ∀ x ∈ s'.exchanges, ¬ StepsOnRead E x.beforeT4) := by
  obtain ⟨s', hrun, -⟩ := run_idle (E := E) calls (s := NetState.boot e) ⟨rfl, rfl, Nat.zero_le _⟩
  refine ⟨s', hrun, ?_⟩
  have hreach : Run (Entry.exec E 2) (fun _ _ => True) (NetState.boot e) s' :=
    Run.of_runList (fun _ _ _ => trivial) .start (hrun 2 (le_refl 2))
  have hsound : Sound E false 0 s' :=
    hreach.invariant ⟨rfl, fun _ hx => absurd hx List.not_mem_nil, fun h => Bool.noConfusion h⟩
      fun s c hs _ => sound_exec 0 0 c s hs
  exact forall₂_congr hsound.log

/-! ## A split exchange -/

/-- An environment that answers from a list, with an interrupt before every access to the
clocks; when the list is used up every call fails. -/
def scripted : Environment (List Answer) where
  answer r answers :=
    match r, answers.headD ⟨-1, fun _ => 0⟩ with
    | .socket _, a => (⟨max (-1) a.ret, a.buf⟩, answers.tail)
    | _, a => (a, answers.tail)
  ticks answers := (1, answers)
  systickGetValue answers := (8999, answers)
  rand answers := (0, answers)
  rccAhbFrequency := 72000000
  neg_one_le_socket := fun _ _ => le_max_left _ _

/-- A call that returns a number. -/
def returns (ret : ℤ) : Answer := ⟨ret, fun _ => 0⟩

/-- The message of a server that received the request, sent as the clock started, at noon
on the 12th of August 2016. -/
def serverReply : Answer :=
  ⟨48, fun k => ([0x24] ++ List.replicate 23 0 ++ [0x83, 0xAA, 0x7E, 0x80, 0, 0, 0, 0] ++
    [0xDB, 0x58, 0x38, 0xC0, 0, 0, 0, 0] ++ [0xDB, 0x58, 0x38, 0xC0, 0, 0, 0, 0]).getD k 0⟩

/-- The socket of `timesync_now` is made; the reading for its request starts an exchange
whose socket cannot be made; the reply comes; the reading for it starts an exchange that is
answered. -/
def failedThenAnswered : List Answer :=
  [returns 0, returns 0, returns 0, returns (-1), returns 48, serverReply,
    returns 1, returns 0, returns 0, returns 48, serverReply, returns 0, returns 0]

/-- **The clock is set between the readings of one exchange**: `timesync_now` from the
start of the program, with the answers above. -/
theorem timesyncNow_split : ∃ s', runCalls scripted 2 [.timesyncNow] failedThenAnswered = some s' ∧
    ¬ ∀ x ∈ s'.exchanges, x.stepsAtT1 = x.stepsAtT4 := by
  have hlog : (runCalls scripted 2 [.timesyncNow] failedThenAnswered).map
      (fun s => s.exchanges.map fun x => (x.stepsAtT1, x.stepsAtT4)) = some [(0, 0), (0, 1)] := by
    decide +kernel
  obtain ⟨s', hrun, hmap⟩ := Option.map_eq_some_iff.1 hlog
  refine ⟨s', hrun, fun h => ?_⟩
  have hmem : (0, 1) ∈ s'.exchanges.map fun x => (x.stepsAtT1, x.stepsAtT4) := by
    rw [hmap]
    decide
  obtain ⟨x, hx, heq⟩ := List.mem_map.1 hmem
  have hsame := h x hx
  rw [Prod.mk.injEq] at heq
  omega

end Net

end Nucleo
