/-
# Does `poll` announce what the calls do?

`w5100_sock_poll` looks at the state of a slot and at the chip, and says which call would not
wait: `accept` on a descriptor that was made listening, `recv` on every other one, `send` on a
connected stream.  The chip stands still from there to the call.

`ReadinessAgrees` says that the calls do as announced, `PollMatches` when they do.  The slot is
shared by the listening descriptor and the connection, and `poll` does not tell them apart:
while a connection is accepted the listening descriptor is announced as the connection is, and
while the slot listens again the connection is announced as the listening descriptor.  Also the
mode is that of the slot's first descriptor, and a datagram is announced from its first byte.
-/
import Nucleo.W5100Still
import Nucleo.W5100SlotTypes

namespace Nucleo

namespace W5100

open Comp

section Readiness

variable {χ φ : Type} (B : Board χ) (w : World χ φ) (d : Fin openMax) (i : Fin nSockets)

/-! ## What is announced -/

/-- The descriptor has been made listening. -/
def IsListener : Prop :=
  (w.sockets i).fdData = some d ∧
    ((w.sockets i).state = .listening ∨ (w.sockets i).state = .accepted)

/-- The descriptor is in non-blocking mode. -/
def Nonblocking : Prop := nonblockFlag (w.files d).statusFlags = true

/-- `accept` returns a new descriptor, in its first round. -/
def AcceptSucceeds : Prop :=
  ∀ fuel wantAddr, ∃ r w', accept B (fuel + 1) (d.val : ℤ) wantAddr w = .ok (r, w') ∧
    Fresh w w' r.1

/-- `recv` returns what it stores, in its first round; of a stream that is a byte at least. -/
def RecvSucceeds : Prop :=
  ∀ fuel len, 0 < len → ∃ r w', recv B (fuel + 1) (d.val : ℤ) len w = .ok (r, w') ∧
    r.ret = (r.buf.length : ℤ) ∧ ((w.sockets i).type = .stream → 0 < r.ret)

/-- `accept` fails with `EAGAIN`, in its first round. -/
def AcceptAgain : Prop :=
  ∀ fuel wantAddr, ∃ w', accept B (fuel + 1) (d.val : ℤ) wantAddr w = .ok ((-1, none), w') ∧
    w'.errno = some .EAGAIN

/-- `recv` fails with `EAGAIN`, in its first round. -/
def RecvAgain : Prop :=
  ∀ fuel len, 0 < len → ∃ w', recv B (fuel + 1) (d.val : ℤ) len w = .ok (.empty (-1), w') ∧
    w'.errno = some .EAGAIN

/-- The call that the descriptor is for succeeds: `accept` on a listening descriptor, `recv` on
every other one. -/
def CallSucceeds : Prop :=
  (IsListener w d i → AcceptSucceeds B w d) ∧ (¬ IsListener w d i → RecvSucceeds B w d i)

/-- It fails with `EAGAIN`. -/
def CallAgain : Prop :=
  (IsListener w d i → AcceptAgain B w d) ∧ (¬ IsListener w d i → RecvAgain B w d)

/-- `send` of a buffer that is not empty moves a byte at least: the chip takes some at once,
what `send` returns is a number of bytes moved, and it returns if it does not wait for more
room. -/
structure SendMoves : Prop where
  taken : ∀ c, SameRegs B w.chip c → ∀ fuel buf, buf ≠ [] →
    ∃ n c', writeBuf B (fuel + 1) (w.sockets i).isocket buf c = .ok (n, c') ∧ 0 < n
  counted : ∀ fuel buf, buf ≠ [] → Post (send B fuel (d.val : ℤ) buf)
    (fun r _ => ∃ k : ℕ, 0 < k ∧ k ≤ buf.length ∧ r = wrap32 k) w
  returns : ∀ fuel buf, buf ≠ [] →
    (isNonblock i w = .ok (true, w) ∨ buf.length ≤ B.txFsr w.chip i) →
    Returns (send B (fuel + 2) (d.val : ℤ) buf) w

/-- The calls do what `poll` announces with `r`. -/
structure ReadinessAgrees (r : BitVec 16) : Prop where
  readable : r &&& pollIn ≠ 0 → CallSucceeds B w d i
  idle : r &&& (pollIn ||| pollHup ||| pollNval) = 0 → Nonblocking w d → CallAgain B w d i
  writable : r &&& pollOut ≠ 0 → (w.sockets i).type = .stream → SendMoves B w d i

/-! ## When it is right -/

/-- The registers that a round of `recvfrom` without a result reads. -/
def recvReads (s : Slot) : List ℕ :=
  [sockRegGet regRXRSR s.isocket, sockRegGet regRXRSR s.isocket + 1] ++
    if s.type = .stream then [sockRegGet regSR s.isocket] else []

/-- The receive timeout of the slot is over when the clock is read again after a round. -/
def RecvTimesOut (s : Slot) (c : χ) : Prop :=
  (timespecDiff timespecZero s.recvTimeout).2 ≠ 0 ∧
    (timespecDiff (timespecAdd (B.clockGettime c).1 s.recvTimeout)
      (B.clockGettime (B.afterReads (recvReads s) (B.clockGettime c).2)).1).2 < 0

/-- The slot has a first descriptor, in non-blocking mode or with a timeout that is over. -/
def GivesUp : Prop :=
  ∃ l, (w.sockets i).fdData = some l ∧
    (Nonblocking w l ∨ RecvTimesOut B (w.sockets i) w.chip)

/-- An established connection: with data or room the slot still has its first descriptor, and
without data that one gives up if `d` would. -/
def StreamMatches : Prop :=
  (0 < B.rxRsr w.chip i ∨ 0 < B.txFsr w.chip i → (w.sockets i).fdData ≠ none) ∧
    (B.rxRsr w.chip i = 0 → Nonblocking w d → GivesUp B w i)

/-- A bound datagram socket: data begin with a whole header, and without data the slot's first
descriptor gives up if `d` would. -/
def DatagramMatches : Prop :=
  (0 < B.rxRsr w.chip i → (w.sockets i).fdData ≠ none ∧ 8 ≤ B.rxRsr w.chip i) ∧
    (B.rxRsr w.chip i = 0 → Nonblocking w d → GivesUp B w i)

/-- When the calls do as announced, by the state of the slot. -/
def PollMatches : Prop :=
  match (w.sockets i).state with
  | .listening =>
      ((w.sockets i).fdData = some d → B.sr w.chip i = sockEstablished →
        firstFree w.files ≠ none) ∧
      ((w.sockets i).fdData ≠ some d → B.sr w.chip i ≠ sockEstablished ∧ ¬ Nonblocking w d)
  | .accepted => B.sr w.chip i = sockEstablished →
      ((w.sockets i).fdData = some d → B.rxRsr w.chip i = 0 ∧ ¬ Nonblocking w d) ∧
      ((w.sockets i).fdData ≠ some d → StreamMatches B w d i)
  | .connected => B.sr w.chip i = sockEstablished → StreamMatches B w d i
  | .bound => (w.sockets i).type = .dgram → DatagramMatches B w d i
  | .none | .created | .disconnected => True

end Readiness

/-! ## The answer of `poll` -/

/-- The answer for so many bytes received and so much room. -/
def readWrite (toread towrite : ℕ) : BitVec 16 :=
  (if toread > 0 then pollRdnorm ||| pollIn else 0) |||
    (if towrite > 0 then pollWrnorm ||| pollOut else 0)

/-- `POLLIN` says that there is something to read. -/
theorem readWrite_in (toread towrite : ℕ) :
    readWrite toread towrite &&& pollIn ≠ 0 ↔ 0 < toread := by
  unfold readWrite
  by_cases hr : toread > 0 <;> by_cases ht : towrite > 0 <;> simp only [hr, ht] <;> decide

/-- Without it nothing says that there is. -/
theorem readWrite_idle (toread towrite : ℕ) :
    readWrite toread towrite &&& (pollIn ||| pollHup ||| pollNval) = 0 ↔ toread = 0 := by
  rw [show toread = 0 ↔ ¬ toread > 0 by omega]
  unfold readWrite
  by_cases hr : toread > 0 <;> by_cases ht : towrite > 0 <;> simp only [hr, ht] <;> decide

/-- `POLLOUT` says that there is room. -/
theorem readWrite_out (toread towrite : ℕ) :
    readWrite toread towrite &&& pollOut ≠ 0 ↔ 0 < towrite := by
  unfold readWrite
  by_cases hr : toread > 0 <;> by_cases ht : towrite > 0 <;> simp only [hr, ht] <;> decide

section Poll

variable {χ φ : Type} {B : Board χ} {w : World χ φ} {d : Fin openMax} {i : Fin nSockets}

/-- What `poll` answers for a slot.  A pending connection is announced like a byte. -/
def Board.pollAnswer (B : Board χ) (s : Slot) (c : χ) : BitVec 16 :=
  if s.state = .listening then
    readWrite (if B.sr c s.isocket = sockEstablished then 1 else 0) 0
  else if s.type = .stream ∧ (s.state = .connected ∨ s.state = .accepted) then
    if B.sr c s.isocket ≠ sockEstablished then pollHup
    else readWrite (B.rxRsr c s.isocket) (B.txFsr c s.isocket)
  else if s.type = .dgram ∧ (s.state = .connected ∨ s.state = .bound) then
    readWrite (B.rxRsr c s.isocket) (B.txFsr c s.isocket)
  else pollNval

/-- The answer depends on the registers only. -/
theorem SameRegs.pollAnswer {c c' : χ} (h : SameRegs B c c') (s : Slot) :
    B.pollAnswer s c' = B.pollAnswer s c := by
  unfold Board.pollAnswer
  rw [h.sr, h.rxRsr, h.txFsr]

/-- A result on the chip is one in the world. -/
theorem onChip_of_ok {α : Type} {x : Comp χ Stop α} {a : α} {c : χ}
    (hx : x w.chip = .ok (a, c)) : onChip x w = .ok (a, w.setChip c) := focus_of_ok hx

/-- A look at the chip leaves the registers. -/
theorem Looks.onChip {α : Type} {x : Comp χ Stop α} {a : α} (h : Looks B x w.chip a) :
    ∃ c, SameRegs B w.chip c ∧ onChip x w = .ok (a, w.setChip c) := by
  obtain ⟨c, hret, hregs⟩ := h
  exact ⟨c, hregs, focus_of_ok hret⟩

/-- **A poll of a board that stands still** sees what its registers say. -/
theorem Board.StandsStill.looks_sockPollRw (h : B.StandsStill) {c : χ} :
    Looks B (sockPollRw B i) c (readWrite (B.rxRsr c i) (B.txFsr c i)) := by
  refine (h.looks_readBufLen i).bind fun c₁ h₁ => (h.looks_writeBufLen i).bind fun c₂ _ => ?_
  rw [h₁.reg16]
  exact looks_pure _

/-- `poll` only looks at the chip. -/
theorem Board.StandsStill.sockPoll_eq (h : B.StandsStill) (hd : SlotOf w (d.val : ℤ) i) :
    ∃ c, SameRegs B w.chip c ∧
      sockPoll B (d.val : ℤ) w = .ok (B.pollAnswer (w.sockets i) w.chip, w.setChip c) := by
  obtain ⟨d', heq, hsock, hptr⟩ := hd
  obtain rfl : d = d' := Fin.ext (Int.natCast_inj.1 heq)
  unfold sockPoll Board.pollAnswer
  rw [bind_of_ok (getSocketFromFd_of_sock hsock hptr)]
  dsimp only
  rw [bind_of_ok (show getSlot i w = .ok (w.sockets i, w) from rfl)]
  -- the reads leave the registers as they are, so later reads see what this one saw
  have hsr := h.looks_readSr (w.sockets i).isocket (c := w.chip)
  by_cases hlisten : (w.sockets i).state = .listening
  · obtain ⟨c, hregs, hret⟩ := hsr.onChip (φ := φ)
    rw [if_pos hlisten, if_pos hlisten, bind_of_ok hret]
    refine ⟨c, hregs, ?_⟩
    by_cases hest : B.sr w.chip (w.sockets i).isocket = sockEstablished
    · rw [if_pos hest, if_pos hest]
      rfl
    · rw [if_neg hest, if_neg hest]
      rfl
  rw [if_neg hlisten, if_neg hlisten]
  by_cases hconn : (w.sockets i).type = .stream ∧
      ((w.sockets i).state = .connected ∨ (w.sockets i).state = .accepted)
  · obtain ⟨c, hregs, hret⟩ := hsr.onChip (φ := φ)
    rw [if_pos hconn, if_pos hconn, bind_of_ok hret]
    by_cases hest : B.sr w.chip (w.sockets i).isocket ≠ sockEstablished
    · rw [if_pos hest, if_pos hest]
      exact ⟨c, hregs, rfl⟩
    · obtain ⟨c', hregs', hret'⟩ := (h.looks_sockPollRw (i := (w.sockets i).isocket)
        (c := (w.setChip c).chip)).onChip
      rw [if_neg hest, if_neg hest]
      refine ⟨c', hregs.trans hregs', ?_⟩
      rw [hret', World.setChip_chip, hregs.rxRsr, hregs.txFsr]
      rfl
  rw [if_neg hconn, if_neg hconn]
  by_cases hdgram : (w.sockets i).type = .dgram ∧
      ((w.sockets i).state = .connected ∨ (w.sockets i).state = .bound)
  · rw [if_pos hdgram, if_pos hdgram]
    exact h.looks_sockPollRw.onChip
  · rw [if_neg hdgram, if_neg hdgram]
    exact ⟨w.chip, .refl, rfl⟩

/-! ## What an answer announces -/

/-- A refusal announces nothing. -/
theorem agrees_of_refused {r : BitVec 16} (hin : r &&& pollIn = 0)
    (hrefused : r &&& (pollIn ||| pollHup ||| pollNval) ≠ 0) (hout : r &&& pollOut = 0) :
    ReadinessAgrees B w d i r :=
  ⟨fun h => absurd hin h, fun h => absurd h hrefused, fun h => absurd hout h⟩

/-- `POLLNVAL` says nothing that could be wrong. -/
theorem agrees_pollNval : ReadinessAgrees B w d i pollNval :=
  agrees_of_refused (by decide) (by decide) (by decide)

theorem agrees_pollHup : ReadinessAgrees B w d i pollHup :=
  agrees_of_refused (by decide) (by decide) (by decide)

/-- The three things that an answer has to mean. -/
theorem agrees_readWrite_iff {toread towrite : ℕ} :
    ReadinessAgrees B w d i (readWrite toread towrite) ↔
      (0 < toread → CallSucceeds B w d i) ∧
      (toread = 0 → Nonblocking w d → CallAgain B w d i) ∧
      (0 < towrite → (w.sockets i).type = .stream → SendMoves B w d i) := by
  constructor
  · rintro ⟨hreadable, hidle, hwritable⟩
    refine ⟨fun h => ?_, fun h => ?_, fun h => ?_⟩
    · exact hreadable ((readWrite_in _ _).2 h)
    · exact hidle ((readWrite_idle _ _).2 h)
    · exact hwritable ((readWrite_out _ _).2 h)
  · rintro ⟨hreadable, hidle, hwritable⟩
    refine ⟨fun h => ?_, fun h => ?_, fun h => ?_⟩
    · exact hreadable ((readWrite_in _ _).1 h)
    · exact hidle ((readWrite_idle _ _).1 h)
    · exact hwritable ((readWrite_out _ _).1 h)

/-- A listener accepts. -/
theorem callSucceeds_listener (hl : IsListener w d i) :
    CallSucceeds B w d i ↔ AcceptSucceeds B w d :=
  ⟨fun h => h.1 hl, fun h => ⟨fun _ => h, absurd hl⟩⟩

/-- It has to wait in `accept`. -/
theorem callAgain_listener (hl : IsListener w d i) :
    CallAgain B w d i ↔ AcceptAgain B w d :=
  ⟨fun h => h.1 hl, fun h => ⟨fun _ => h, absurd hl⟩⟩

/-- Any other socket receives. -/
theorem callSucceeds_receiver (hl : ¬ IsListener w d i) :
    CallSucceeds B w d i ↔ RecvSucceeds B w d i :=
  ⟨fun h => h.2 hl, fun h => ⟨fun hc => absurd hc hl, fun _ => h⟩⟩

/-- It has to wait in `recv`. -/
theorem callAgain_receiver (hl : ¬ IsListener w d i) :
    CallAgain B w d i ↔ RecvAgain B w d :=
  ⟨fun h => h.2 hl, fun h => ⟨fun hc => absurd hc hl, fun _ => h⟩⟩

/-! ## `accept` -/

/-- `accept` on a descriptor of the slot. -/
theorem accept_eq (hd : SlotOf w (d.val : ℤ) i) (fuel : ℕ) (wantAddr : Bool) :
    accept B fuel (d.val : ℤ) wantAddr w =
      (if (w.sockets i).state ≠ .listening then fail .EINVAL (1, none)
      else if (w.sockets i).type ≠ .stream then fail .EOPNOTSUPP (-1, none)
      else isNonblock i >>= acceptLoop B fuel i wantAddr) w := by
  obtain ⟨d', heq, hsock, hptr⟩ := hd
  obtain rfl : d = d' := Fin.ext (Int.natCast_inj.1 heq)
  unfold accept
  rw [bind_of_ok (getSocketFromFd_of_sock hsock hptr)]
  rfl

/-- `accept` refuses a socket that does not listen. -/
theorem accept_of_not_listening (hd : SlotOf w (d.val : ℤ) i)
    (hst : (w.sockets i).state ≠ .listening) (fuel : ℕ) (wantAddr : Bool) :
    accept B fuel (d.val : ℤ) wantAddr w = .ok ((1, none), w.setErrno .EINVAL) := by
  rw [accept_eq hd, if_pos hst]
  rfl

/-- Outside `LISTENING`, `accept` neither succeeds nor asks to be called again. -/
theorem not_acceptSucceeds (hd : SlotOf w (d.val : ℤ) i)
    (hst : (w.sockets i).state ≠ .listening) : ¬ AcceptSucceeds B w d := by
  intro h
  obtain ⟨r, w', hret, d', hr, hfree, halloc⟩ := h 0 false
  rw [accept_of_not_listening hd hst] at hret
  cases hret
  rw [World.setErrno_files, hfree] at halloc
  exact Bool.false_ne_true halloc

/-- That is no reason to wait. -/
theorem not_acceptAgain (hd : SlotOf w (d.val : ℤ) i)
    (hst : (w.sockets i).state ≠ .listening) : ¬ AcceptAgain B w d := by
  intro h
  obtain ⟨w', hret, -⟩ := h 0 false
  rw [accept_of_not_listening hd hst] at hret
  cases hret

/-! ### The mode and the table -/

/-- The mode is that of the descriptor of the slot. -/
theorem isNonblock_of_nonblocking {l : Fin openMax} (hl : (w.sockets i).fdData = some l)
    (hnb : Nonblocking w l) : isNonblock i w = .ok (true, w) := by
  rw [isNonblock_of_fdData hl, show ((w.files l).statusFlags &&& oNonblock != 0) = true from hnb]

theorem isNonblock_of_blocking {l : Fin openMax} (hl : (w.sockets i).fdData = some l)
    (hnb : ¬ Nonblocking w l) : isNonblock i w = .ok (false, w) := by
  rw [isNonblock_of_fdData hl,
    show ((w.files l).statusFlags &&& oNonblock != 0) = false from Bool.eq_false_of_not_eq_true hnb]

/-- The table may be full. -/
theorem fileAlloc_eq_none (hfree : firstFree w.files = none) :
    (fileAlloc : Sys χ φ (Option (Fin openMax))) w = .ok (none, w) := by
  unfold fileAlloc
  rw [get_bind, hfree]
  rfl

/-- Otherwise the first free entry is taken. -/
theorem fileAlloc_eq_some {d' : Fin openMax} (hfree : firstFree w.files = some d') :
    (fileAlloc : Sys χ φ (Option (Fin openMax))) w =
      .ok (some d', w.setFile d' { Fd.zero with isallocated := true, fd := (d'.val : ℤ) }) := by
  unfold fileAlloc
  rw [get_bind, hfree]
  rfl

/-- With a free descriptor, an established connection is accepted. -/
theorem acceptEstablished_of_free {d' : Fin openMax} (hfree : firstFree w.files = some d')
    (fuel : ℕ) (wantAddr : Bool) :
    ∃ r w', acceptEstablished B fuel i wantAddr w = .ok (r, w') ∧ Fresh w w' r.1 := by
  obtain ⟨-, hd'⟩ := firstFree_eq_some hfree
  unfold acceptEstablished
  rw [bind_of_ok (show getSlot i w = .ok (w.sockets i, w) from rfl),
    bind_of_ok (fileAlloc_eq_some hfree)]
  cases wantAddr with
  | true =>
      refine ⟨_, _, rfl, d', rfl, hd', ?_⟩
      simp
  | false =>
      refine ⟨_, _, rfl, d', rfl, hd', ?_⟩
      simp

variable (h : B.StandsStill)

include h

/-- A command is taken at once. -/
theorem command_eq (fuel : ℕ) (cmd : Byte) (w : World χ φ) :
    ∃ c, onChip (command B (fuel + 1) i cmd) w = .ok ((), w.setChip c) := by
  obtain ⟨_, c, hret⟩ := h.returns_command fuel i cmd w.chip
  exact ⟨c, focus_of_ok hret⟩

/-- Without one it is given up. -/
theorem acceptEstablished_of_full (hfree : firstFree w.files = none) (fuel : ℕ)
    (wantAddr : Bool) :
    ∃ w', acceptEstablished B (fuel + 1) i wantAddr w = .ok ((-1, none), w') := by
  unfold acceptEstablished
  rw [bind_of_ok (show getSlot i w = .ok (w.sockets i, w) from rfl),
    bind_of_ok (fileAlloc_eq_none hfree)]
  dsimp only
  obtain ⟨c₁, h₁⟩ := command_eq h (i := (w.sockets i).isocket) fuel cmdClose (w.setErrno .ENFILE)
  obtain ⟨c₂, h₂⟩ := command_eq h (i := (w.sockets i).isocket) fuel cmdOpen
    ((w.setErrno .ENFILE).setChip c₁)
  obtain ⟨c₃, h₃⟩ := command_eq h (i := (w.sockets i).isocket) fuel cmdListen
    (((w.setErrno .ENFILE).setChip c₁).setChip c₂)
  rw [bind_of_ok (show setErrno .ENFILE w = .ok ((), w.setErrno .ENFILE) from rfl),
    bind_of_ok h₁, bind_of_ok h₂, bind_of_ok h₃]
  exact ⟨_, rfl⟩

/-- A round of `accept` sees the status register. -/
theorem acceptLoop_eq (hk : (w.sockets i).isocket = i) (wantAddr nonblock : Bool) :
    ∃ c, SameRegs B w.chip c ∧
      (B.sr w.chip i = sockEstablished → ∀ fuel r w',
        acceptEstablished B (fuel + 1) i wantAddr (w.setChip c) = .ok (r, w') →
        acceptLoop B (fuel + 1) i wantAddr nonblock w = .ok (r, w')) ∧
      (B.sr w.chip i ≠ sockEstablished → nonblock = true → ∀ fuel,
        acceptLoop B (fuel + 1) i wantAddr nonblock w =
          .ok ((-1, none), (w.setChip c).setErrno .EAGAIN)) := by
  obtain ⟨c, hregs, hread⟩ := (h.looks_readSr i (c := w.chip)).onChip
  refine ⟨c, hregs, fun hsr fuel r w' hest => ?_, fun hsr hnb fuel => ?_⟩
  · unfold acceptLoop
    apply iter_succ_of_inr
    rw [bind_of_ok (show getSlot i w = .ok (w.sockets i, w) from rfl), hk, bind_of_ok hread,
      if_pos hsr, bind_of_ok hest]
    rfl
  · unfold acceptLoop
    apply iter_succ_of_inr
    rw [bind_of_ok (show getSlot i w = .ok (w.sockets i, w) from rfl), hk, bind_of_ok hread,
      if_neg hsr, if_pos hnb]
    rfl

/-! ### The two outcomes -/

/-- A listening descriptor of an established connection accepts it, if there is a free
descriptor. -/
theorem acceptSucceeds_iff (hd : SlotOf w (d.val : ℤ) i) (hfd : (w.sockets i).fdData = some d)
    (hst : (w.sockets i).state = .listening) (htype : (w.sockets i).type = .stream)
    (hk : (w.sockets i).isocket = i) (hsr : B.sr w.chip i = sockEstablished) :
    AcceptSucceeds B w d ↔ firstFree w.files ≠ none := by
  obtain ⟨nb, hmode⟩ : ∃ nb, isNonblock i w = .ok (nb, w) := ⟨_, isNonblock_of_fdData hfd⟩
  have haccept : ∀ fuel wantAddr, accept B fuel (d.val : ℤ) wantAddr w =
      acceptLoop B fuel i wantAddr nb w := by
    intro fuel wantAddr
    rw [accept_eq hd, if_neg (not_not.2 hst), if_neg (not_not.2 htype), bind_of_ok hmode]
  constructor
  · intro hsucc hfree
    obtain ⟨r, w', hret, d', hr, -⟩ := hsucc 0 false
    obtain ⟨c, -, haccepted, -⟩ := acceptLoop_eq h hk false nb
    obtain ⟨w'', hfull⟩ := acceptEstablished_of_full h (w := w.setChip c) (i := i) hfree 0 false
    rw [haccept, haccepted hsr 0 _ _ hfull] at hret
    cases hret
    omega
  · intro hfree fuel wantAddr
    obtain ⟨d', hd'⟩ := Option.ne_none_iff_exists'.1 hfree
    obtain ⟨c, -, haccepted, -⟩ := acceptLoop_eq h hk wantAddr nb
    obtain ⟨r, w', hret, hfresh⟩ := acceptEstablished_of_free (B := B) (w := w.setChip c) (i := i)
      hd' (fuel + 1) wantAddr
    refine ⟨r, w', ?_, hfresh⟩
    rw [haccept]
    exact haccepted hsr fuel r w' hret

/-- A listener without a connection has to wait. -/
theorem acceptAgain_of_idle (hd : SlotOf w (d.val : ℤ) i) (hfd : (w.sockets i).fdData = some d)
    (hst : (w.sockets i).state = .listening) (htype : (w.sockets i).type = .stream)
    (hk : (w.sockets i).isocket = i) (hsr : B.sr w.chip i ≠ sockEstablished)
    (hnb : Nonblocking w d) : AcceptAgain B w d := by
  intro fuel wantAddr
  obtain ⟨c, -, -, hagain⟩ := acceptLoop_eq h hk wantAddr true
  refine ⟨(w.setChip c).setErrno .EAGAIN, ?_, rfl⟩
  rw [accept_eq hd, if_neg (not_not.2 hst), if_neg (not_not.2 htype),
    bind_of_ok (isNonblock_of_nonblocking hfd hnb)]
  exact hagain hsr rfl fuel

/-! ## `recv` -/

omit h in
/-- `recv` of some bytes from a connected slot. -/
theorem recv_eq (hd : SlotOf w (d.val : ℤ) i) (hconn : ¬ (w.sockets i).Unconnected) {len : ℕ}
    (hlen : 0 < len) (fuel : ℕ) :
    recv B fuel (d.val : ℤ) len w = (isNonblock i >>= recvStream B fuel i len) w := by
  obtain ⟨d', heq, hsock, hptr⟩ := hd
  obtain rfl : d = d' := Fin.ext (Int.natCast_inj.1 heq)
  unfold recv recvfrom
  rw [bind_of_ok (getSocketFromFd_of_sock hsock hptr)]
  dsimp only
  rw [bind_of_ok (show getSlot i w = .ok (w.sockets i, w) from rfl),
    if_neg (fun hc => hconn (.inl hc)), if_neg (fun hc => hconn (.inr hc)), if_neg (by omega),
    bind_eq, bind_eq]
  cases hnb : isNonblock i w with
  | error e => rfl
  | ok r =>
      obtain ⟨nb, w'⟩ := r
      obtain rfl := isNonblock_state hnb
      rfl

omit h in
/-- A slot without a descriptor is a null pointer. -/
theorem isNonblock_of_orphan (hfd : (w.sockets i).fdData = none) :
    isNonblock i w = .error .nullDeref := by
  unfold isNonblock
  rw [bind_of_ok (show getSlot i w = .ok (w.sockets i, w) from rfl), hfd]
  rfl

/-- A round that takes what is received: some bytes of a stream, or a whole datagram. -/
theorem recvRound_of_received (hk : (w.sockets i).isocket = i)
    (hrx : (w.sockets i).type = .stream ∧ 0 < B.rxRsr w.chip i ∨
      (w.sockets i).type = .dgram ∧ 8 ≤ B.rxRsr w.chip i) (fuel : ℕ) {len : ℕ} (hlen : 0 < len) :
    ∃ r w', recvRound B (fuel + 1) i len false w = .ok (some r, w') ∧
      r.ret = (r.buf.length : ℤ) ∧ ((w.sockets i).type = .stream → 0 < r.ret) := by
  unfold recvRound
  rw [bind_of_ok (show getSlot i w = .ok (w.sockets i, w) from rfl)]
  rcases hrx with ⟨htype, hpos⟩ | ⟨htype, hheader⟩
  · obtain ⟨bytes, n, c, hread, hn, hlength⟩ := h.readBuf_of_received fuel hlen hpos
    rw [htype]
    dsimp only
    rw [hk, bind_of_ok (onChip_of_ok hread)]
    dsimp only
    rw [if_pos (by omega)]
    refine ⟨_, _, rfl, ?_, fun _ => ?_⟩
    · show (n : ℤ) = bytes.length
      rw [hlength]
    · show (0 : ℤ) < n
      omega
  · obtain ⟨r, c, hret⟩ := h.returns_recvDatagram fuel i false
      (B.afterReads [sockRegGet regRXRSR i, sockRegGet regRXRSR i + 1] w.chip)
    have hstored := post_recvDatagram_stored B (fuel + 1) i false _ r c hret
    rw [htype]
    dsimp only
    rw [hk, bind_of_ok (onChip_of_ok (h.readBufLen_eq i w.chip)),
      if_pos (show (B.reg16 w.chip regRXRSR i).toNat ≥ 8 from hheader),
      bind_of_ok (onChip_of_ok hret)]
    exact ⟨r, _, rfl, hstored, fun hc => SockType.noConfusion hc⟩

omit h in
/-- An established connection stays. -/
theorem manageDisconnect_of_established (hk : (w.sockets i).isocket = i)
    (hsr : B.sr w.chip i = sockEstablished) (fuel : ℕ) :
    manageDisconnect B fuel i w =
      .ok (false, w.setChip (B.afterReads [sockRegGet regSR i] w.chip)) := by
  have hread : readSockReg B regSR i w.chip =
      .ok (B.sr w.chip i, B.afterReads [sockRegGet regSR i] w.chip) := rfl
  unfold manageDisconnect
  rw [bind_of_ok (show getSlot i w = .ok (w.sockets i, w) from rfl)]
  dsimp only
  rw [hk, bind_of_ok (onChip_of_ok hread), if_neg (not_not.2 hsr)]
  rfl

/-! ### A socket without data -/

/-- There is nothing to take: no byte of a stream, or no whole header. -/
def Idle (B : Board χ) (w : World χ φ) (i : Fin nSockets) : Prop :=
  (w.sockets i).type = .stream ∧ B.sr w.chip i = sockEstablished ∧ B.rxRsr w.chip i = 0 ∨
    (w.sockets i).type = .dgram ∧ B.rxRsr w.chip i < 8

omit h in
/-- The chip may move on without changing its registers. -/
theorem Idle.setChip (hidle : Idle B w i) {c : χ} (hregs : SameRegs B w.chip c) :
    Idle B (w.setChip c) i := by
  unfold Idle
  rw [World.setChip_chip, hregs.sr, hregs.rxRsr]
  exact hidle

/-- A round then only reads. -/
theorem recvRound_of_idle (hk : (w.sockets i).isocket = i) (hidle : Idle B w i) (fuel len : ℕ) :
    recvRound B fuel i len false w =
      .ok (none, w.setChip (B.afterReads (recvReads (w.sockets i)) w.chip)) := by
  unfold recvRound recvReads
  rw [bind_of_ok (show getSlot i w = .ok (w.sockets i, w) from rfl)]
  rcases hidle with ⟨htype, hsr, hrx⟩ | ⟨htype, hrx⟩
  · have hregs := h.sameRegs_afterReads
      [sockRegGet regRXRSR i, sockRegGet regRXRSR i + 1] w.chip
    rw [htype, hk, if_pos rfl]
    dsimp only
    rw [bind_of_ok (onChip_of_ok (h.readBuf_of_empty hrx fuel len))]
    dsimp only
    rw [if_neg (not_not.2 rfl), bind_of_ok (manageDisconnect_of_established
      (w := w.setChip (B.afterReads [sockRegGet regRXRSR i, sockRegGet regRXRSR i + 1] w.chip))
      hk ((hregs.sr i).trans hsr) fuel)]
    rfl
  · rw [htype, hk, if_neg (fun hc => SockType.noConfusion hc)]
    dsimp only
    rw [bind_of_ok (onChip_of_ok (h.readBufLen_eq i w.chip)),
      if_neg (show ¬ (B.reg16 w.chip regRXRSR i).toNat ≥ 8 from Nat.not_le.2 hrx)]
    rfl

/-- The wait is prepared without a change of the registers. -/
theorem timeoutUnless_eq (nonblock : Bool) (timeout : Timespec) :
    ∃ tom c, SameRegs B w.chip c ∧ timeoutUnless B nonblock timeout w = .ok (tom, w.setChip c) := by
  unfold timeoutUnless timeoutInit
  split_ifs
  · exact ⟨none, w.chip, .refl, rfl⟩
  · exact ⟨_, _, h.clock w.chip, rfl⟩
  · exact ⟨none, w.chip, .refl, rfl⟩

/-! ### The whole call -/

/-- `recv` returns with what is received. -/
theorem recvStream_of_received (hk : (w.sockets i).isocket = i)
    (hrx : (w.sockets i).type = .stream ∧ 0 < B.rxRsr w.chip i ∨
      (w.sockets i).type = .dgram ∧ 8 ≤ B.rxRsr w.chip i) (fuel : ℕ) {len : ℕ} (hlen : 0 < len)
    (nonblock : Bool) :
    ∃ r w', recvStream B (fuel + 1) i len nonblock w = .ok (r, w') ∧
      r.ret = (r.buf.length : ℤ) ∧ ((w.sockets i).type = .stream → 0 < r.ret) := by
  obtain ⟨tom, c, hregs, htom⟩ := timeoutUnless_eq h (w := w) nonblock (w.sockets i).recvTimeout
  rw [← hregs.rxRsr] at hrx
  obtain ⟨r, w', hround, hr⟩ := recvRound_of_received h (w := w.setChip c) hk hrx fuel hlen
  refine ⟨r, w', ?_, hr⟩
  unfold recvStream
  rw [bind_of_ok (show getSlot i w = .ok (w.sockets i, w) from rfl), bind_of_ok htom]
  unfold recvLoop
  apply iter_succ_of_inr
  rw [bind_of_ok hround]
  rfl

/-- Without waiting, an idle `recv` gives up. -/
theorem recvStream_of_nonblock (hk : (w.sockets i).isocket = i) (hidle : Idle B w i)
    (fuel len : ℕ) :
    ∃ w', recvStream B (fuel + 1) i len true w = .ok (.empty (-1), w') ∧
      w'.errno = some .EAGAIN := by
  refine ⟨World.setErrno (w.setChip (B.afterReads (recvReads (w.sockets i)) w.chip)) .EAGAIN,
    ?_, rfl⟩
  unfold recvStream
  rw [bind_of_ok (show getSlot i w = .ok (w.sockets i, w) from rfl),
    bind_of_ok (show timeoutUnless B true (w.sockets i).recvTimeout w = .ok (none, w) from rfl)]
  unfold recvLoop
  apply iter_succ_of_inr
  rw [bind_of_ok (recvRound_of_idle h hk hidle _ len)]
  rfl

omit h in
/-- With waiting, the clock is read before the round and after it. -/
theorem timeoutEnded_eq (s : Slot) :
    ∃ tom c ended w', timeoutUnless B false s.recvTimeout w = .ok (tom, w.setChip c) ∧
      (c = w.chip ∨ c = (B.clockGettime w.chip).2) ∧
      timeoutEnded B tom (w.setChip (B.afterReads (recvReads s) c)) = .ok (ended, w') ∧
      (ended = true ↔ RecvTimesOut B s w.chip) ∧ (ended = true → w'.errno = some .EAGAIN) := by
  unfold timeoutUnless timeoutInit
  rw [if_neg Bool.false_ne_true]
  -- without a time-out the clock is not read at all
  by_cases hset : (timespecDiff timespecZero s.recvTimeout).2 ≠ 0
  · generalize hend : timespecAdd (B.clockGettime w.chip).1 s.recvTimeout = tend
    generalize hc : B.afterReads (recvReads s) (B.clockGettime w.chip).2 = c'
    have htimes : RecvTimesOut B s w.chip ↔ (timespecDiff tend (B.clockGettime c').1).2 < 0 := by
      unfold RecvTimesOut
      rw [hend, hc]
      exact and_iff_right hset
    have htom : timeoutInit B s.recvTimeout w =
        .ok (some tend, w.setChip (B.clockGettime w.chip).2) := by
      unfold timeoutInit
      rw [if_pos hset, ← hend]
      rfl
    have hclock : onChip (clockGettime B) (w.setChip c') =
        .ok ((B.clockGettime c').1, w.setChip (B.clockGettime c').2) := rfl
    unfold timeoutInit at htom
    by_cases hover : (timespecDiff tend (B.clockGettime c').1).2 < 0
    · refine ⟨some tend, _, true, (w.setChip (B.clockGettime c').2).setErrno .EAGAIN, htom,
        .inr rfl, ?_, iff_of_true rfl (htimes.2 hover), fun _ => rfl⟩
      rw [hc]
      unfold timeoutEnded
      dsimp only
      rw [bind_of_ok hclock, if_pos hover]
      rfl
    · refine ⟨some tend, _, false, w.setChip (B.clockGettime c').2, htom, .inr rfl, ?_,
        iff_of_false Bool.false_ne_true fun h => hover (htimes.1 h), fun h => Bool.noConfusion h⟩
      rw [hc]
      unfold timeoutEnded
      dsimp only
      rw [bind_of_ok hclock, if_neg hover]
      rfl
  · rw [if_neg hset]
    refine ⟨none, w.chip, false, _, rfl, .inl rfl, rfl, ?_, fun hc => Bool.noConfusion hc⟩
    exact iff_of_false Bool.false_ne_true fun htimes => hset htimes.1

/-- With waiting, an idle `recv` gives up if the timeout is over after the round, and waits
otherwise. -/
theorem recvStream_of_blocking (hk : (w.sockets i).isocket = i) (hidle : Idle B w i) :
    (RecvTimesOut B (w.sockets i) w.chip → ∀ fuel len, ∃ w',
      recvStream B (fuel + 1) i len false w = .ok (.empty (-1), w') ∧ w'.errno = some .EAGAIN) ∧
    (¬ RecvTimesOut B (w.sockets i) w.chip → ∀ len,
      recvStream B 1 i len false w = .error .waiting) := by
  obtain ⟨tom, c, ended, w', htom, hc, hended, hiff, herrno⟩ :=
    timeoutEnded_eq (B := B) (w := w) (w.sockets i)
  have hregs : SameRegs B w.chip c := by
    rcases hc with rfl | rfl
    · exact .refl
    · exact h.clock w.chip
  -- a round of an idle slot reads, and finds nothing
  have hround : ∀ fuel len, recvRound B fuel i len false (w.setChip c) =
      .ok (none, w.setChip (B.afterReads (recvReads (w.sockets i)) c)) :=
    fun fuel len => recvRound_of_idle h (w := w.setChip c) hk (hidle.setChip hregs) fuel len
  constructor
  · intro htimes fuel len
    have hyes := hiff.2 htimes
    refine ⟨w', ?_, herrno hyes⟩
    unfold recvStream
    rw [bind_of_ok (show getSlot i w = .ok (w.sockets i, w) from rfl), bind_of_ok htom]
    unfold recvLoop
    apply iter_succ_of_inr
    rw [bind_of_ok (hround _ len)]
    dsimp only
    rw [if_neg Bool.false_ne_true, bind_of_ok hended, if_pos hyes]
    rfl
  · intro htimes len
    have hno : ended ≠ true := fun hyes => htimes (hiff.1 hyes)
    unfold recvStream
    rw [bind_of_ok (show getSlot i w = .ok (w.sockets i, w) from rfl), bind_of_ok htom]
    unfold recvLoop iter
    rw [bind_eq, bind_of_ok (hround _ len)]
    dsimp only
    rw [if_neg Bool.false_ne_true, bind_of_ok hended, if_neg hno]
    rfl

/-! ### What `recv` does -/

omit h in
/-- A socket that is not connected does not receive. -/
theorem not_recvSucceeds_of_unconnected (hd : SlotOf w (d.val : ℤ) i)
    (hun : (w.sockets i).Unconnected) : ¬ RecvSucceeds B w d i := by
  intro hsucc
  obtain ⟨d', heq, hsock, hptr⟩ := hd
  obtain rfl : d = d' := Fin.ext (Int.natCast_inj.1 heq)
  obtain ⟨r, w', hret, hcount, -⟩ := hsucc 0 1 one_pos
  unfold recv at hret
  rw [recvfrom_of_unconnected B 1 1 false hsock hptr hun] at hret
  cases hret
  cases hcount

omit h in
/-- It does not wait either. -/
theorem not_recvAgain_of_unconnected (hd : SlotOf w (d.val : ℤ) i)
    (hun : (w.sockets i).Unconnected) : ¬ RecvAgain B w d := by
  intro hagain
  obtain ⟨d', heq, hsock, hptr⟩ := hd
  obtain rfl : d = d' := Fin.ext (Int.natCast_inj.1 heq)
  obtain ⟨w', hret, -⟩ := hagain 0 1 one_pos
  unfold recv at hret
  rw [recvfrom_of_unconnected B 1 1 false hsock hptr hun] at hret
  cases hret

/-- What is received is returned, as long as the slot has its first descriptor. -/
theorem recvSucceeds_iff_of_received (hd : SlotOf w (d.val : ℤ) i)
    (hconn : ¬ (w.sockets i).Unconnected) (hk : (w.sockets i).isocket = i)
    (hrx : (w.sockets i).type = .stream ∧ 0 < B.rxRsr w.chip i ∨
      (w.sockets i).type = .dgram ∧ 8 ≤ B.rxRsr w.chip i) :
    RecvSucceeds B w d i ↔ (w.sockets i).fdData ≠ none := by
  constructor
  · intro hsucc hnone
    obtain ⟨r, w', hret, -⟩ := hsucc 0 1 one_pos
    rw [recv_eq hd hconn one_pos, bind_of_error (isNonblock_of_orphan hnone)] at hret
    cases hret
  · intro hfd fuel len hlen
    obtain ⟨l, hl⟩ := Option.ne_none_iff_exists'.1 hfd
    obtain ⟨r, w', hret, hr⟩ := recvStream_of_received h hk hrx fuel hlen
      (nonblockFlag (w.files l).statusFlags)
    refine ⟨r, w', ?_, hr⟩
    rw [recv_eq hd hconn hlen, bind_of_ok (isNonblock_of_fdData hl)]
    exact hret

/-- An idle `recv` gives up exactly if the slot's first descriptor does. -/
theorem recvAgain_iff_of_idle (hd : SlotOf w (d.val : ℤ) i)
    (hconn : ¬ (w.sockets i).Unconnected) (hk : (w.sockets i).isocket = i)
    (hidle : Idle B w i) : RecvAgain B w d ↔ GivesUp B w i := by
  obtain ⟨hover, hwaits⟩ := recvStream_of_blocking h hk hidle
  constructor
  · intro hagain
    obtain ⟨w', hret, -⟩ := hagain 0 1 one_pos
    rw [recv_eq hd hconn one_pos] at hret
    cases hfd : (w.sockets i).fdData with
    | none =>
        rw [bind_of_error (isNonblock_of_orphan hfd)] at hret
        cases hret
    | some l =>
        refine ⟨l, hfd, ?_⟩
        by_contra hno
        rw [not_or] at hno
        rw [bind_of_ok (isNonblock_of_blocking hfd hno.1), hwaits hno.2] at hret
        cases hret
  · rintro ⟨l, hl, hgives⟩ fuel len hlen
    rw [recv_eq hd hconn hlen]
    by_cases hnb : Nonblocking w l
    · rw [bind_of_ok (isNonblock_of_nonblocking hl hnb)]
      exact recvStream_of_nonblock h hk hidle fuel len
    · rw [bind_of_ok (isNonblock_of_blocking hl hnb)]
      exact hover (hgives.resolve_left hnb) fuel len

/-- An idle `recv` does not succeed. -/
theorem not_recvSucceeds_of_idle (hd : SlotOf w (d.val : ℤ) i)
    (hconn : ¬ (w.sockets i).Unconnected) (hk : (w.sockets i).isocket = i)
    (hidle : Idle B w i) : ¬ RecvSucceeds B w d i := by
  intro hsucc
  obtain ⟨r, w', hret, hcount, -⟩ := hsucc 0 1 one_pos
  have hfail : ¬ ∃ w', recv B 1 (d.val : ℤ) 1 w = .ok (.empty (-1), w') := by
    rintro ⟨w'', hret'⟩
    rw [hret'] at hret
    cases hret
    cases hcount
  obtain ⟨hover, hwaits⟩ := recvStream_of_blocking h hk hidle
  rw [recv_eq hd hconn one_pos] at hret hfail
  cases hfd : (w.sockets i).fdData with
  | none =>
      rw [bind_of_error (isNonblock_of_orphan hfd)] at hret
      cases hret
  | some l =>
      by_cases hnb : Nonblocking w l
      · rw [bind_of_ok (isNonblock_of_nonblocking hfd hnb)] at hfail
        obtain ⟨w'', hret', -⟩ := recvStream_of_nonblock h hk hidle 0 1
        exact hfail ⟨w'', hret'⟩
      · rw [bind_of_ok (isNonblock_of_blocking hfd hnb)] at hfail hret
        by_cases htimes : RecvTimesOut B (w.sockets i) w.chip
        · obtain ⟨w'', hret', -⟩ := hover htimes 0 1
          exact hfail ⟨w'', hret'⟩
        · rw [hwaits htimes] at hret
          cases hret

/-! ## `send` -/

omit h in
/-- `send` on a connected stream. -/
theorem send_eq (hd : SlotOf w (d.val : ℤ) i) (htype : (w.sockets i).type = .stream)
    (hst : (w.sockets i).Connected) (fuel : ℕ) (buf : List Byte) :
    send B fuel (d.val : ℤ) buf w = (isNonblock i >>= sendStream B fuel i buf) w := by
  obtain ⟨d', heq, hsock, hptr⟩ := hd
  obtain rfl : d = d' := Fin.ext (Int.natCast_inj.1 heq)
  rw [send_of_stream B fuel hsock hptr htype, if_neg (fun hc => not_connected.2 hc hst)]

omit h in
/-- No round of `send` leaves more than there was. -/
theorem post_sendLoop_length (fuel n : ℕ) (nonblock : Bool) (tom : TimeoutManager) {m : ℕ}
    {buf : List Byte} (hbuf : buf.length ≤ m) :
    Post (iter Stop.waiting (sendRound n B i nonblock tom) fuel buf)
      (fun rest _ => rest.length ≤ m) w := by
  refine Post.iter (fun bytes _ => bytes.length ≤ m) (fun bytes w₁ hbytes => ?_) fuel hbuf
  have hdrop : ∀ k, (bytes.drop k).length ≤ m := fun k => by
    rw [List.length_drop]
    omega
  unfold sendRound
  rw [post_ite]
  refine ⟨fun _ => post_pure.2 hbytes, fun _ => ?_⟩
  rw [post_bind, post_getSlot, post_bind]
  intro written w₂ _
  rw [post_ite]
  constructor
  · intro _
    rw [post_ite]
    exact ⟨fun _ => post_pure.2 (hdrop _), fun _ => post_pure.2 (hdrop _)⟩
  · intro _
    rw [post_bind]
    intro ends w₃ _
    rw [post_ite]
    exact ⟨fun _ => post_pure.2 hbytes, fun _ => post_pure.2 hbytes⟩

/-- The first round of `send` hands bytes to the chip. -/
theorem sendRound_of_room (hk : (w.sockets i).isocket = i) (htx : 0 < B.txFsr w.chip i)
    (fuel : ℕ) (nonblock : Bool) (tom : TimeoutManager) {buf : List Byte} (hbuf : buf ≠ []) :
    ∃ w', sendRound (fuel + 1) B i nonblock tom buf w =
      .ok (if nonblock then .inr (buf.drop (min buf.length (B.txFsr w.chip i)))
        else .inl (buf.drop (min buf.length (B.txFsr w.chip i))), w') := by
  have hpos : 0 < buf.length := List.length_pos_iff.2 hbuf
  obtain ⟨c, hwrite⟩ := h.writeBuf_of_room fuel buf htx
  refine ⟨w.setChip c, ?_⟩
  unfold sendRound
  rw [if_neg (by omega), bind_of_ok (show getSlot i w = .ok (w.sockets i, w) from rfl), hk,
    bind_of_ok (onChip_of_ok hwrite), if_pos (by omega)]
  cases nonblock <;> rfl

/-- `send` hands bytes to the chip at once, as long as the slot has its first descriptor. -/
theorem sendMoves_iff (hd : SlotOf w (d.val : ℤ) i) (htype : (w.sockets i).type = .stream)
    (hst : (w.sockets i).Connected) (hk : (w.sockets i).isocket = i)
    (htx : 0 < B.txFsr w.chip i) : SendMoves B w d i ↔ (w.sockets i).fdData ≠ none := by
  constructor
  · intro hmoves hnone
    obtain ⟨n, w', hret⟩ := hmoves.returns 0 [0] (List.cons_ne_nil _ _) (.inr htx)
    rw [send_eq hd htype hst, bind_of_error (isNonblock_of_orphan hnone)] at hret
    cases hret
  · intro hfd
    obtain ⟨l, hl⟩ := Option.ne_none_iff_exists'.1 hfd
    have hsend : ∀ fuel buf, send B fuel (d.val : ℤ) buf w =
        sendStream B fuel i buf (nonblockFlag (w.files l).statusFlags) w := by
      intro fuel buf
      rw [send_eq hd htype hst, bind_of_ok (isNonblock_of_fdData hl)]
      rfl
    generalize hnb : nonblockFlag (w.files l).statusFlags = nonblock at hsend
    -- the time-out is set up by looks at the clock, which change no register
    obtain ⟨tom, c, hregs, htom⟩ := timeoutUnless_eq h (w := w) nonblock (w.sockets i).sendTimeout
    have htx' : 0 < B.txFsr (w.setChip c).chip i := by
      rw [World.setChip_chip, hregs.txFsr]
      exact htx
    constructor
    · intro c' hregs' fuel buf hbuf
      have hpos : 0 < buf.length := List.length_pos_iff.2 hbuf
      rw [← hregs'.txFsr] at htx
      obtain ⟨c'', hwrite⟩ := h.writeBuf_of_room fuel buf htx
      rw [hk]
      exact ⟨_, c'', hwrite, by omega⟩
    · intro fuel buf hbuf
      have hpos : 0 < buf.length := List.length_pos_iff.2 hbuf
      -- one round has written: the rounds behind it can only leave less
      have hless : Post (sendLoop B fuel i nonblock tom buf)
          (fun rest _ => rest.length < buf.length) (w.setChip c) := by
        rw [sendLoop_eq]
        cases fuel with
        | zero => exact post_throw.2 trivial
        | succ fuel =>
            obtain ⟨w₁, hround⟩ := sendRound_of_room h (w := w.setChip c) hk htx' fuel nonblock tom
              hbuf
            have hn : 0 < min buf.length (B.txFsr (w.setChip c).chip i) := by omega
            generalize min buf.length (B.txFsr (w.setChip c).chip i) = n at hround hn
            have hdrop : (buf.drop n).length < buf.length := by
              rw [List.length_drop]
              omega
            cases nonblock with
            | true => exact post_of_ok (iter_succ_of_inr hround _) hdrop
            | false =>
                unfold Post
                rw [iter_succ_of_inl hround]
                exact (post_sendLoop_length fuel (fuel + 1) false tom le_rfl).mono
                  fun rest _ hrest => lt_of_le_of_lt hrest hdrop
      have hcount : Post (sendStream B fuel i buf nonblock)
          (fun r _ => ∃ k : ℕ, 0 < k ∧ k ≤ buf.length ∧ r = wrap32 k) w := by
        unfold sendStream
        rw [post_bind, post_getSlot, post_bind_of_ok htom, post_bind]
        refine hless.mono fun rest w₁ hrest => post_pure.2 ?_
        refine ⟨buf.length - rest.length, by omega, by omega, ?_⟩
        rw [Nat.cast_sub hrest.le]
      exact fun r w' hret => hcount r w' ((hsend fuel buf).symm.trans hret)
    · intro fuel buf hbuf hroom
      obtain ⟨w₁, hround⟩ := sendRound_of_room h (w := w.setChip c) hk htx' (fuel + 1) nonblock tom
        hbuf
      have hloop : Returns (sendLoop B (fuel + 2) i nonblock tom buf) (w.setChip c) := by
        rw [sendLoop_eq]
        cases nonblock with
        | true => exact ⟨_, _, iter_succ_of_inr hround _⟩
        | false =>
            -- in blocking mode the loop ends because the room is enough for the whole buffer
            have hle : buf.length ≤ B.txFsr w.chip i := by
              refine hroom.resolve_left fun hmode => ?_
              rw [isNonblock_of_fdData hl] at hmode
              cases (Prod.mk.inj (Except.ok.inj hmode)).1.symm.trans hnb
            rw [World.setChip_chip, hregs.txFsr, min_eq_left hle, List.drop_length] at hround
            unfold Returns
            rw [iter_succ_of_inl hround]
            exact ⟨_, _, iter_succ_of_inr rfl _⟩
      have hret : Returns (sendStream B (fuel + 2) i buf nonblock) w := by
        unfold Returns sendStream
        rw [bind_of_ok (show getSlot i w = .ok (w.sockets i, w) from rfl), bind_of_ok htom]
        exact hloop.bind fun _ _ _ => returns_pure
      unfold Returns
      rw [hsend]
      exact hret

/-! ## `poll` and the state of the slot -/

/-- Data and room of a connected stream or a bound datagram socket, for a descriptor that
receives. -/
theorem agrees_iff_of_stream (hd : SlotOf w (d.val : ℤ) i) (hl : ¬ IsListener w d i)
    (htype : (w.sockets i).type = .stream) (hst : (w.sockets i).Connected)
    (hk : (w.sockets i).isocket = i) (hsr : B.sr w.chip i = sockEstablished) :
    ReadinessAgrees B w d i (readWrite (B.rxRsr w.chip i) (B.txFsr w.chip i)) ↔
      StreamMatches B w d i := by
  have hconn : ¬ (w.sockets i).Unconnected := by
    rintro (⟨-, hacc, hcon⟩ | ⟨hdgram, -⟩)
    · exact hst.elim hacc hcon
    · exact SockType.noConfusion (htype.symm.trans hdgram)
  rw [agrees_readWrite_iff, callSucceeds_receiver hl, callAgain_receiver hl]
  unfold StreamMatches
  constructor
  · rintro ⟨hreadable, hidle, hwritable⟩
    refine ⟨fun hready => ?_, fun hrx hnb => ?_⟩
    · rcases hready with hrx | htx
      · exact (recvSucceeds_iff_of_received h hd hconn hk (.inl ⟨htype, hrx⟩)).1 (hreadable hrx)
      · exact (sendMoves_iff h hd htype hst hk htx).1 (hwritable htx htype)
    · exact (recvAgain_iff_of_idle h hd hconn hk (.inl ⟨htype, hsr, hrx⟩)).1 (hidle hrx hnb)
  · rintro ⟨hready, hgives⟩
    refine ⟨fun hrx => ?_, fun hrx hnb => ?_, fun htx _ => ?_⟩
    · exact (recvSucceeds_iff_of_received h hd hconn hk (.inl ⟨htype, hrx⟩)).2 (hready (.inl hrx))
    · exact (recvAgain_iff_of_idle h hd hconn hk (.inl ⟨htype, hsr, hrx⟩)).2 (hgives hrx hnb)
    · exact (sendMoves_iff h hd htype hst hk htx).2 (hready (.inr htx))

/-- For a datagram socket the answer is right when its receive buffer is. -/
theorem agrees_iff_of_dgram (hd : SlotOf w (d.val : ℤ) i) (hl : ¬ IsListener w d i)
    (htype : (w.sockets i).type = .dgram) (hst : (w.sockets i).state = .bound)
    (hk : (w.sockets i).isocket = i) :
    ReadinessAgrees B w d i (readWrite (B.rxRsr w.chip i) (B.txFsr w.chip i)) ↔
      DatagramMatches B w d i := by
  have hconn : ¬ (w.sockets i).Unconnected := by
    rintro (⟨hstream, -⟩ | ⟨-, hbound, -⟩)
    · exact SockType.noConfusion (htype.symm.trans hstream)
    · exact hbound hst
  rw [agrees_readWrite_iff, callSucceeds_receiver hl, callAgain_receiver hl]
  unfold DatagramMatches
  constructor
  · rintro ⟨hreadable, hidle, -⟩
    refine ⟨fun hrx => ?_, fun hrx hnb => ?_⟩
    · by_cases hheader : 8 ≤ B.rxRsr w.chip i
      · exact ⟨(recvSucceeds_iff_of_received h hd hconn hk (.inr ⟨htype, hheader⟩)).1
          (hreadable hrx), hheader⟩
      · exact absurd (hreadable hrx)
          (not_recvSucceeds_of_idle h hd hconn hk (.inr ⟨htype, by omega⟩))
    · exact (recvAgain_iff_of_idle h hd hconn hk (.inr ⟨htype, by omega⟩)).1 (hidle hrx hnb)
  · rintro ⟨hready, hgives⟩
    refine ⟨fun hrx => ?_, fun hrx hnb => ?_, fun _ hstream => ?_⟩
    · obtain ⟨hfd, hheader⟩ := hready hrx
      exact (recvSucceeds_iff_of_received h hd hconn hk (.inr ⟨htype, hheader⟩)).2 hfd
    · exact (recvAgain_iff_of_idle h hd hconn hk (.inr ⟨htype, by omega⟩)).2 (hgives hrx hnb)
    · exact SockType.noConfusion (htype.symm.trans hstream)

/-- The listening descriptor while the slot listens. -/
theorem agrees_iff_of_listener (hd : SlotOf w (d.val : ℤ) i) (hfd : (w.sockets i).fdData = some d)
    (htype : (w.sockets i).type = .stream) (hst : (w.sockets i).state = .listening)
    (hk : (w.sockets i).isocket = i) :
    ReadinessAgrees B w d i (readWrite (if B.sr w.chip i = sockEstablished then 1 else 0) 0) ↔
      (B.sr w.chip i = sockEstablished → firstFree w.files ≠ none) := by
  have hl : IsListener w d i := ⟨hfd, .inl hst⟩
  rw [agrees_readWrite_iff, callSucceeds_listener hl, callAgain_listener hl]
  by_cases hsr : B.sr w.chip i = sockEstablished
  · rw [if_pos hsr]
    constructor
    · rintro ⟨hreadable, -, -⟩ _
      exact (acceptSucceeds_iff h hd hfd hst htype hk hsr).1 (hreadable one_pos)
    · intro hfree
      refine ⟨fun _ => ?_, fun hone => absurd hone one_ne_zero, fun hc => absurd hc (lt_irrefl 0)⟩
      exact (acceptSucceeds_iff h hd hfd hst htype hk hsr).2 (hfree hsr)
  · rw [if_neg hsr]
    refine iff_of_true ⟨fun hc => absurd hc (lt_irrefl 0), fun _ hnb => ?_,
      fun hc => absurd hc (lt_irrefl 0)⟩ fun hc => absurd hc hsr
    exact acceptAgain_of_idle h hd hfd hst htype hk hsr hnb

omit h in
/-- Every other descriptor of a slot that listens. -/
theorem agrees_iff_of_relistened (hd : SlotOf w (d.val : ℤ) i)
    (hfd : (w.sockets i).fdData ≠ some d) (htype : (w.sockets i).type = .stream)
    (hst : (w.sockets i).state = .listening) :
    ReadinessAgrees B w d i (readWrite (if B.sr w.chip i = sockEstablished then 1 else 0) 0) ↔
      B.sr w.chip i ≠ sockEstablished ∧ ¬ Nonblocking w d := by
  have hl : ¬ IsListener w d i := fun hl => hfd hl.1
  have hun : (w.sockets i).Unconnected := by
    refine .inl ⟨htype, ?_, ?_⟩
    · rw [hst]
      exact fun hc => SocketState.noConfusion hc
    · rw [hst]
      exact fun hc => SocketState.noConfusion hc
  rw [agrees_readWrite_iff, callSucceeds_receiver hl, callAgain_receiver hl]
  have hsucc := not_recvSucceeds_of_unconnected (B := B) hd hun
  have hagain := not_recvAgain_of_unconnected (B := B) hd hun
  by_cases hsr : B.sr w.chip i = sockEstablished
  · rw [if_pos hsr]
    exact iff_of_false (fun hc => hsucc (hc.1 one_pos)) fun hc => hc.1 hsr
  · rw [if_neg hsr]
    constructor
    · rintro ⟨-, hidle, -⟩
      exact ⟨hsr, fun hnb => hagain (hidle rfl hnb)⟩
    · rintro ⟨-, hnb⟩
      exact ⟨fun hc => absurd hc (lt_irrefl 0), fun _ hnb' => absurd hnb' hnb,
        fun hc => absurd hc (lt_irrefl 0)⟩

/-! ### Connections -/

/-- The listening descriptor while a connection is accepted. -/
theorem agrees_iff_of_accepted (hd : SlotOf w (d.val : ℤ) i) (hfd : (w.sockets i).fdData = some d)
    (htype : (w.sockets i).type = .stream) (hst : (w.sockets i).state = .accepted)
    (hk : (w.sockets i).isocket = i) :
    ReadinessAgrees B w d i (readWrite (B.rxRsr w.chip i) (B.txFsr w.chip i)) ↔
      B.rxRsr w.chip i = 0 ∧ ¬ Nonblocking w d := by
  have hl : IsListener w d i := ⟨hfd, .inr hst⟩
  have hne : (w.sockets i).state ≠ .listening := by
    rw [hst]
    exact fun hc => SocketState.noConfusion hc
  have hsucc := not_acceptSucceeds (B := B) hd hne
  have hagain := not_acceptAgain (B := B) hd hne
  rw [agrees_readWrite_iff, callSucceeds_listener hl, callAgain_listener hl]
  constructor
  · rintro ⟨hreadable, hidle, -⟩
    have hrx : B.rxRsr w.chip i = 0 := by
      by_contra hrx
      exact hsucc (hreadable (Nat.pos_of_ne_zero hrx))
    exact ⟨hrx, fun hnb => hagain (hidle hrx hnb)⟩
  · rintro ⟨hrx, hnb⟩
    refine ⟨fun hc => absurd hrx hc.ne', fun _ hnb' => absurd hnb' hnb, fun htx _ => ?_⟩
    refine (sendMoves_iff h hd htype (.inl hst) hk htx).2 ?_
    rw [hfd]
    exact Option.some_ne_none d

/-- Whether `poll` is right about a slot. -/
theorem agrees_pollAnswer_iff (hd : SlotOf w (d.val : ℤ) i) (htyped : (w.sockets i).Typed)
    (hisocket : (w.sockets i).state ≠ .none → (w.sockets i).isocket = i) :
    ReadinessAgrees B w d i (B.pollAnswer (w.sockets i) w.chip) ↔ PollMatches B w d i := by
  unfold Board.pollAnswer PollMatches
  cases hst : (w.sockets i).state with
  -- one case per state, as in `w5100_sock_poll`; the descriptor is the listening one or another
  | listening =>
      have hk := hisocket (by rw [hst]; exact fun hc => SocketState.noConfusion hc)
      have htype := htyped.state (.inl hst)
      rw [if_pos rfl, hk]
      by_cases hfd : (w.sockets i).fdData = some d
      · rw [agrees_iff_of_listener h hd hfd htype hst hk]
        exact ⟨fun hfree => ⟨fun _ => hfree, fun hne => absurd hfd hne⟩, fun hm => hm.1 hfd⟩
      · rw [agrees_iff_of_relistened hd hfd htype hst]
        exact ⟨fun hm => ⟨fun hc => absurd hc hfd, fun _ => hm⟩, fun hm => hm.2 hfd⟩
  | accepted =>
      have hk := hisocket (by rw [hst]; exact fun hc => SocketState.noConfusion hc)
      have htype := htyped.state (.inr (.inl hst))
      rw [if_neg (fun hc => SocketState.noConfusion hc), if_pos ⟨htype, .inr rfl⟩, hk]
      by_cases hsr : B.sr w.chip i = sockEstablished
      · rw [if_neg (not_not.2 hsr)]
        by_cases hfd : (w.sockets i).fdData = some d
        · rw [agrees_iff_of_accepted h hd hfd htype hst hk]
          exact ⟨fun hm _ => ⟨fun _ => hm, fun hne => absurd hfd hne⟩, fun hm => (hm hsr).1 hfd⟩
        · rw [agrees_iff_of_stream h hd (fun hl => hfd hl.1) htype (.inl hst) hk hsr]
          exact ⟨fun hm _ => ⟨fun hc => absurd hc hfd, fun _ => hm⟩, fun hm => (hm hsr).2 hfd⟩
      · rw [if_pos hsr]
        exact iff_of_true agrees_pollHup fun hc => absurd hc hsr
  | connected =>
      have hk := hisocket (by rw [hst]; exact fun hc => SocketState.noConfusion hc)
      have htype := htyped.state (.inr (.inr hst))
      have hl : ¬ IsListener w d i := by
        rintro ⟨-, hlisten | hacc⟩
        · exact SocketState.noConfusion (hst.symm.trans hlisten)
        · exact SocketState.noConfusion (hst.symm.trans hacc)
      rw [if_neg (fun hc => SocketState.noConfusion hc), if_pos ⟨htype, .inl rfl⟩, hk]
      by_cases hsr : B.sr w.chip i = sockEstablished
      · rw [if_neg (not_not.2 hsr), agrees_iff_of_stream h hd hl htype (.inr hst) hk hsr]
        exact ⟨fun hm _ => hm, fun hm => hm hsr⟩
      · rw [if_pos hsr]
        exact iff_of_true agrees_pollHup fun hc => absurd hc hsr
  | bound =>
      have hk := hisocket (by rw [hst]; exact fun hc => SocketState.noConfusion hc)
      have hl : ¬ IsListener w d i := by
        rintro ⟨-, hlisten | hacc⟩
        · exact SocketState.noConfusion (hst.symm.trans hlisten)
        · exact SocketState.noConfusion (hst.symm.trans hacc)
      rw [if_neg (fun hc => SocketState.noConfusion hc),
        if_neg (fun hc => hc.2.elim SocketState.noConfusion SocketState.noConfusion)]
      by_cases htype : (w.sockets i).type = .dgram
      · rw [if_pos ⟨htype, .inr rfl⟩, hk, agrees_iff_of_dgram h hd hl htype hst hk]
        exact ⟨fun hm _ => hm, fun hm => hm htype⟩
      · rw [if_neg (fun hc => htype hc.1)]
        exact iff_of_true agrees_pollNval fun hc => absurd hc htype
  -- `POLLNVAL` promises nothing
  | none | created | disconnected =>
      rw [if_neg (fun hc => SocketState.noConfusion hc),
        if_neg (fun hc => hc.2.elim SocketState.noConfusion SocketState.noConfusion),
        if_neg (fun hc => hc.2.elim SocketState.noConfusion SocketState.noConfusion)]
      exact iff_of_true agrees_pollNval trivial

end Poll

/-! ## Every state reached -/

section Runs

variable {χ κ δ ψ : Type} {B₀ B : Board χ} (L : Fat.FatLib κ δ ψ) {fuel : ℕ}
  {w w₀ : World χ (Fat.FatFs κ δ ψ)}

/-- **When readiness agrees with the calls it announces.**  In every state reached from
`w5100_socket_init` on any board, if the chip stands still from there on, `poll` returns, and
the call that the descriptor is for does as announced exactly if `PollMatches`. -/
theorem readiness_iff (hstill : B.StandsStill)
    {ok : World χ (Fat.FatFs κ δ ψ) → ℕ × NetCall χ → Prop}
    {static : Option StaticIp} {chip : χ} {fat : Fat.FatFs κ δ ψ}
    (hinit : socketInit B₀ fuel static (bootWorld chip fat) = .ok ((), w₀))
    (hrun : Run (NetCall.exec B₀ L) ok w₀ w) {d : Fin openMax} {i : Fin nSockets}
    (hd : SlotOf w (d.val : ℤ) i) :
    ∃ r w', sockPoll B (d.val : ℤ) w = .ok (r, w') ∧
      (ReadinessAgrees B w' d i r ↔ PollMatches B w' d i) := by
  have hsound := (tables_of_run B₀ L fuel hinit hrun (I := fun _ => True)
    (fun _ _ _ => trivial) fun _ _ _ _ _ _ _ => trivial).1
  have htyped := typed_of_run B₀ L fuel hinit hrun i
  obtain ⟨c, hregs, hpoll⟩ := hstill.sockPoll_eq hd
  refine ⟨_, _, hpoll, ?_⟩
  rw [← hregs.pollAnswer]
  exact agrees_pollAnswer_iff (w := w.setChip c) hstill hd htyped
    fun hst => hsound.isocket i (.inl hst)

end Runs

/-! ## A server with an accepted connection -/

/-- A chip that stands still: its bytes are the status, the number of received bytes and the
room of its sockets. -/
def stillBoard : Board (List Byte) where
  read a c :=
    (if a % 0x100 = regSR then c.getD 0 0
      else if a % 0x100 = regRXRSR + 1 then c.getD 1 0
      else if a % 0x100 = regTXFSR + 1 then c.getD 2 0
      else 0, c)
  write _ _ c := c
  clockGettime c := (timespecZero, c)
  usartReady c := (true, c)
  usartRecv c := (0, c)
  usartSend _ c := c

/-- The board of the examples stands still. -/
theorem standsStill_stillBoard : stillBoard.StandsStill := by
  refine ⟨fun _ _ => .refl, fun _ => .refl, fun i cmd c => ?_⟩
  have hreg : sockRegGet regCR i % 2 ^ 16 % 0x100 = regCR := by
    revert i
    decide
  show (if _ then _ else if _ then _ else if _ then _ else (0 : Byte)) = 0
  rw [hreg, if_neg (by decide), if_neg (by decide), if_neg (by decide)]

/-- The server of `acceptCalls`; then five bytes are received. -/
def receivedCalls : List (ℕ × NetCall (List Byte)) :=
  acceptCalls ++ [(1, .event [sockEstablished, 5, 1])]

/-- What the run leads to: the listening descriptor 3 and the connection 4 share a slot. -/
theorem received_server : ∃ w₀ w,
    socketInit scriptBoard 1 none (bootWorld acceptScript noFiles) = .ok ((), w₀) ∧
    Run (NetCall.exec scriptBoard noDisk) (fun _ _ => True) w₀ w ∧
    IsSocket (w.files 3) ∧ (w.files 3).opaquePtr = .slot 0 ∧
    IsSocket (w.files 4) ∧ (w.files 4).opaquePtr = .slot 0 ∧
    (w.sockets 0).fdData = some 3 ∧ (w.sockets 0).state = .accepted ∧
    stillBoard.pollAnswer (w.sockets 0) w.chip = readWrite 5 1 ∧
    stillBoard.rxRsr w.chip 0 = 5 := by
  have hrun : (netRun scriptBoard acceptScript (fun _ _ => true) receivedCalls).any (fun w =>
      IsSocket (w.files 3) ∧ (w.files 3).opaquePtr = .slot 0 ∧
      IsSocket (w.files 4) ∧ (w.files 4).opaquePtr = .slot 0 ∧
      (w.sockets 0).fdData = some 3 ∧ (w.sockets 0).state = .accepted ∧
      stillBoard.pollAnswer (w.sockets 0) w.chip = readWrite 5 1 ∧
      stillBoard.rxRsr w.chip 0 = 5) = true := by decide +kernel
  obtain ⟨w, hw, hd⟩ := (Option.any_eq_true _ _).1 hrun
  obtain ⟨w₀, hinit, hrun⟩ := run_of_netRun_all hw
  exact ⟨w₀, w, hinit, hrun, of_decide_eq_true hd⟩

/-- The connection is announced as it is. -/
theorem readiness_connection : ∃ w₀ w r w',
    socketInit scriptBoard 1 none (bootWorld acceptScript noFiles) = .ok ((), w₀) ∧
    Run (NetCall.exec scriptBoard noDisk) (fun _ _ => True) w₀ w ∧ IsSocket (w.files 4) ∧
    sockPoll stillBoard 4 w = .ok (r, w') ∧ ReadinessAgrees stillBoard w' 4 0 r := by
  obtain ⟨w₀, w, hinit, hrun, -, -, h4, hptr, hfd, hst, -, hrx⟩ := received_server
  have hd : SlotOf w ((4 : Fin openMax).val : ℤ) 0 := ⟨4, rfl, h4.2, hptr⟩
  obtain ⟨r, w', hpoll, hiff⟩ := readiness_iff noDisk standsStill_stillBoard hinit hrun hd
  obtain ⟨c, hregs, hpoll'⟩ := standsStill_stillBoard.sockPoll_eq hd
  refine ⟨w₀, w, r, w', hinit, hrun, h4, hpoll, hiff.2 ?_⟩
  rw [hpoll] at hpoll'
  cases hpoll'
  unfold PollMatches
  rw [World.setChip_sockets, hst]
  intro hsr
  refine ⟨fun hc => ?_, fun _ => ⟨fun _ => ?_, fun hzero => ?_⟩⟩
  · rw [hfd] at hc
    exact absurd hc (by decide)
  · rw [World.setChip_sockets, hfd]
    exact Option.some_ne_none _
  · rw [World.setChip_chip, hregs.rxRsr, hrx] at hzero
    exact absurd hzero (by decide)

/-- The listening descriptor is announced as readable too, and `accept` fails. -/
theorem listener_announced_readable : ∃ w₀ w r w',
    socketInit scriptBoard 1 none (bootWorld acceptScript noFiles) = .ok ((), w₀) ∧
    Run (NetCall.exec scriptBoard noDisk) (fun _ _ => True) w₀ w ∧
    stillBoard.StandsStill ∧ IsSocket (w.files 3) ∧ SlotOf w 3 0 ∧
    sockPoll stillBoard 3 w = .ok (r, w') ∧ r &&& pollIn ≠ 0 ∧ IsListener w' 3 0 ∧
    (accept stillBoard 1 3 false w').map Prod.fst = .ok (1, none) ∧
    ¬ ReadinessAgrees stillBoard w' 3 0 r := by
  obtain ⟨w₀, w, hinit, hrun, h3, hptr, -, -, hfd, hst, hanswer, -⟩ := received_server
  have hd : SlotOf w ((3 : Fin openMax).val : ℤ) 0 := ⟨3, rfl, h3.2, hptr⟩
  obtain ⟨c, hregs, hpoll⟩ := standsStill_stillBoard.sockPoll_eq hd
  have hne : ((w.setChip c).sockets 0).state ≠ .listening := by
    rw [World.setChip_sockets, hst]
    exact fun hc => SocketState.noConfusion hc
  have hin : stillBoard.pollAnswer (w.sockets 0) w.chip &&& pollIn ≠ 0 := by
    rw [hanswer]
    decide
  refine ⟨w₀, w, _, _, hinit, hrun, standsStill_stillBoard, h3, hd, hpoll, hin,
    ⟨hfd, .inr hst⟩, ?_, fun hagree => ?_⟩
  · have haccept := accept_of_not_listening (B := stillBoard) (w := w.setChip c)
      (d := 3) (i := 0) hd hne 1 false
    show (accept stillBoard 1 ((3 : Fin openMax).val : ℤ) false (w.setChip c)).map Prod.fst = _
    rw [haccept]
    rfl
  · exact not_acceptSucceeds (B := stillBoard) (w := w.setChip c) (d := 3) hd hne
      ((hagree.readable hin).1 ⟨hfd, .inr hst⟩)

end W5100

end Nucleo
