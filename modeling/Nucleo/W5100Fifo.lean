/-
# The rings of the W5100 are byte FIFOs

`send` over the transmitting chip: every round of its loop hands over a part of the
buffer or nothing, and the calls that deal with a broken connection hand over nothing.
`rings_are_fifos` puts this together with the copies and with the runs of `write_buf`.
-/
import Nucleo.W5100Ring
import Nucleo.W5100Socket

namespace Nucleo

namespace W5100

section Send

open Comp TxChip

variable {c : TxChip} {φ : Type} {w : World TxChip φ}

/-! ## Calls that hand nothing over -/

/-- Nothing is handed over, and the rings stay in order. -/
def Calm (c c' : TxChip) : Prop := c'.handed = c.handed ∧ (c.InOrder → c'.InOrder)

theorem Calm.refl (c : TxChip) : Calm c c := ⟨rfl, fun h => h⟩

theorem Calm.trans {c c' c'' : TxChip} (h : Calm c c') (h' : Calm c' c'') : Calm c c'' :=
  ⟨h'.1.trans h.1, fun hord => h'.2 (h.2 hord)⟩

/-- A chip that moves on sends nothing new. -/
theorem calm_of_kept {c' : TxChip} (hk : Kept c c') (hm : c'.mem = c.mem) : Calm c c' :=
  ⟨hk.handed, fun hord => hord.kept hk hm⟩

/-- One step of the chip does not either. -/
theorem calm_advance (c : TxChip) : Calm c c.advance := calm_of_kept c.kept_advance rfl

/-- `OPEN` empties the ring of its socket. -/
theorem calm_open (i : Fin nSockets) : Calm c (c.exec i cmdOpen) := by
  have hexec : c.exec i cmdOpen =
      { c with
        mem := Memory.write c.mem (sockRegGet regTXWR i) [0, 0]
        rd := Function.update c.rd i 0
        latched := Function.update c.latched i 0 } := by
    unfold TxChip.exec
    rw [if_neg (by decide), if_pos rfl]
  rw [hexec]
  refine ⟨rfl, fun hord j => ?_⟩
  -- both pointers of its own socket become zero, the others are not touched
  by_cases hj : j = i
  · subst hj
    constructor
    · show TxChip.txWr _ j = Function.update c.latched j 0 j
      rw [Function.update_self]
      exact TxChip.txWr_write (c := c) (p := 0) rfl
    · show (Function.update c.latched j 0 j - Function.update c.rd j 0 j).toNat ≤ 0x800
      rw [Function.update_self, Function.update_self]
      decide
  · have hne0 : sockRegGet regTXWR j ≠ sockRegGet regTXWR i :=
      sockRegGet_ne (by decide) (by decide) (.inl hj)
    have hne1 : sockRegGet regTXWR j ≠ sockRegGet (regTXWR + 1) i :=
      sockRegGet_ne (by decide) (by decide) (.inl hj)
    have hne2 : sockRegGet (regTXWR + 1) j ≠ sockRegGet regTXWR i :=
      sockRegGet_ne (by decide) (by decide) (.inl hj)
    rw [← sockRegGet_succ] at hne1 hne2
    have hkeep : ∀ a, a ≠ sockRegGet regTXWR i → a ≠ sockRegGet regTXWR i + 1 →
        Memory.write c.mem (sockRegGet regTXWR i) [0, 0] a = c.mem a := by
      intro a h0 h1
      rcases Nat.lt_or_ge a (sockRegGet regTXWR i) with hlt | hge
      · exact Memory.write_of_lt _ hlt
      · apply Memory.write_of_le
        show sockRegGet regTXWR i + 2 ≤ a
        omega
    constructor
    · show TxChip.txWr _ j = Function.update c.latched i 0 j
      rw [Function.update_of_ne hj, ← (hord j).1]
      apply TxChip.txWr_congr
      · exact hkeep _ hne0 hne1
      · exact hkeep _ hne2 (by omega)
    · show (Function.update c.latched i 0 j - Function.update c.rd i 0 j).toNat ≤ 0x800
      rw [Function.update_of_ne hj, Function.update_of_ne hj]
      exact (hord j).2

/-- Only one command sends. -/
theorem calm_exec {cmd : Byte} (hcmd : cmd ≠ cmdSend) (i : Fin nSockets) :
    Calm c (c.exec i cmd) := by
  by_cases hopen : cmd = cmdOpen
  · subst hopen
    exact calm_open i
  · unfold TxChip.exec
    rw [if_neg hcmd, if_neg hopen]
    exact .refl c

/-- Storing in the command register alone disturbs nothing. -/
theorem calm_update_cr (i : Fin nSockets) (cmd : Byte) :
    Calm c { c with mem := Function.update c.mem (sockRegGet regCR i) cmd } := by
  refine ⟨rfl, fun hord j => ⟨?_, (hord j).2⟩⟩
  show TxChip.txWr _ j = c.latched j
  rw [← (hord j).1]
  apply TxChip.txWr_congr
  · exact Function.update_of_ne (sockRegGet_ne (by decide) (by decide) (.inr (by decide))) _ _
  · show Function.update c.mem _ _ (sockRegGet regTXWR j + 1) = _
    rw [Function.update_of_ne]
    rw [sockRegGet_succ]
    exact sockRegGet_ne (by decide) (by decide) (.inr (by decide))

/-- Other commands send nothing. -/
theorem calm_command {cmd : Byte} (hcmd : cmd ≠ cmdSend) (fuel : ℕ) (i : Fin nSockets) :
    Post (command txBoard fuel i cmd) (fun _ c' => Calm c c') c := by
  refine (post_command_exec fuel i cmd).mono ?_
  rintro _ c' ⟨hk, hm⟩
  have hstored := (calm_advance c).trans (calm_update_cr i cmd)
  exact (hstored.trans (calm_exec hcmd i)).trans (calm_of_kept hk hm)

/-- Waiting sends nothing. -/
theorem calm_readUntil (fuel r : ℕ) (i : Fin nSockets) (stop : Byte → Bool) :
    Post (readUntil txBoard fuel r i stop) (fun _ c' => Calm c c') c :=
  (quiet_readUntil fuel r i stop).mono fun _ _ h => calm_of_kept h.1 h.2

/-! ## `send` -/

/-- A connected stream. -/
def Slot.Connected (s : Slot) : Prop := s.state = .accepted ∨ s.state = .connected

/-- Listening again sends nothing. -/
theorem calm_relisten (fuel : ℕ) (i k : Fin nSockets) :
    Post (relisten txBoard fuel i k)
      (fun _ w' => Calm w.chip w'.chip ∧ ¬ (w'.sockets i).Connected) w := by
  unfold relisten
  rw [post_bind, post_onChip]
  refine (calm_command (by decide) fuel k).mono ?_
  intro _ c1 h1
  rw [post_bind, post_onChip]
  refine (calm_command (by decide) fuel k).mono ?_
  intro _ c2 h2
  rw [post_bind, post_onChip]
  refine (calm_readUntil fuel regSR k _).mono ?_
  intro _ c3 h3
  rw [post_modifySlot]
  refine ⟨(h1.trans h2).trans h3, ?_⟩
  rw [World.setSlot_sockets, Function.update_self]
  rintro (h | h) <;> exact SocketState.noConfusion h

/-- `manage_disconnect` hands nothing over.  It leaves the slot of a connection that has
not ended alone, and the one of a connection that has ended is no longer connected. -/
theorem calm_manageDisconnect (fuel : ℕ) (i : Fin nSockets) :
    Post (manageDisconnect txBoard fuel i)
      (fun gone w' => Calm w.chip w'.chip ∧
        if gone then ¬ (w'.sockets i).Connected
        else w'.sockets = w.sockets ∧ Kept w.chip w'.chip ∧ w'.chip.mem = w.chip.mem) w := by
  unfold manageDisconnect
  rw [post_bind, post_getSlot, post_bind, post_onChip]
  unfold readSockReg
  rw [post_readByte, post_ite]
  constructor
  swap
  · intro _
    exact post_pure.2 ⟨calm_advance _, rfl, w.chip.kept_advance, rfl⟩
  · intro _
    rw [post_bind, post_setErrno, post_bind, post_onChip]
    refine (calm_command (by decide) fuel _).mono ?_
    intro _ c1 h1
    rw [post_bind, post_onChip]
    refine (calm_readUntil fuel regSR _ _).mono ?_
    intro _ c2 h2
    have h := ((calm_advance w.chip).trans h1).trans h2
    rw [post_bind, post_getSlot, post_ite]
    constructor
    · intro _
      rw [post_bind]
      refine (calm_relisten fuel i _).mono ?_
      rintro _ w' ⟨hcalm, hsock⟩
      exact post_pure.2 ⟨h.trans hcalm, hsock⟩
    · intro _
      rw [post_bind, post_modifySlot, post_pure]
      refine ⟨h, ?_⟩
      rw [if_pos rfl, World.setSlot_sockets, Function.update_self]
      rintro (h | h) <;> exact SocketState.noConfusion h

/-- The end of a wait leaves the rings. -/
theorem kept_timeoutEnded (tom : TimeoutManager) :
    Post (timeoutEnded txBoard tom)
      (fun _ w' => w'.sockets = w.sockets ∧ Kept w.chip w'.chip ∧ w'.chip.mem = w.chip.mem) w := by
  cases tom with
  | none => exact post_pure.2 ⟨rfl, .refl _, rfl⟩
  | some tend =>
      show Post (onChip (clockGettime txBoard) >>= _) _ w
      rw [post_bind, post_onChip, post_clockGettime, post_ite]
      constructor
      · intro _
        exact post_fail.2 ⟨rfl, w.chip.kept_advance, rfl⟩
      · intro _
        exact post_pure.2 ⟨rfl, w.chip.kept_advance, rfl⟩

theorem kept_timeoutUnless (nonblock : Bool) (timeout : Timespec) :
    Post (timeoutUnless txBoard nonblock timeout)
      (fun _ w' => w'.sockets = w.sockets ∧ Kept w.chip w'.chip ∧ w'.chip.mem = w.chip.mem) w := by
  unfold timeoutUnless timeoutInit
  rw [post_ite, post_ite]
  refine ⟨fun _ => post_pure.2 ⟨rfl, .refl _, rfl⟩, fun _ => ⟨fun _ => ?_, fun _ => ?_⟩⟩
  · rw [post_bind, post_onChip, post_clockGettime, post_pure]
    exact ⟨rfl, w.chip.kept_advance, rfl⟩
  · exact post_pure.2 ⟨rfl, .refl _, rfl⟩

/-! ### Bytes that are handed over -/

/-- The bytes `l` have been handed over for the socket of the slot `i`, and lie behind
those of before unless the connection has ended. -/
structure Handed (w : World TxChip φ) (i : Fin nSockets) (l : List Byte) (w' : World TxChip φ) :
    Prop where
  inOrder : w'.chip.InOrder
  handed : ∀ j, w'.chip.handed j =
    w.chip.handed j ++ if j = (w.sockets i).isocket then l else []
  queue : (∀ j, w'.chip.queue j =
    w.chip.queue j ++ if j = (w.sockets i).isocket then l else []) ∨ ¬ (w'.sockets i).Connected

/-- As long as the connection lasts, the slot is as before. -/
structure Sending (w : World TxChip φ) (i : Fin nSockets) (l : List Byte) (w' : World TxChip φ) :
    Prop where
  sockets : w'.sockets = w.sockets
  sent : Sent w.chip (w.sockets i).isocket l w'.chip

/-- What is being sent is handed over. -/
theorem Sending.handed {i : Fin nSockets} {l : List Byte} {w' : World TxChip φ}
    (h : Sending w i l w') : Handed w i l w' :=
  ⟨h.sent.inOrder, h.sent.handed, .inl h.sent.queue⟩

theorem Sending.kept {i : Fin nSockets} {l : List Byte} {w' w'' : World TxChip φ}
    (h : Sending w i l w') (hs : w''.sockets = w'.sockets) (hk : Kept w'.chip w''.chip)
    (hm : w''.chip.mem = w'.chip.mem) : Sending w i l w'' :=
  ⟨hs.trans h.sockets, h.sent.kept hk hm⟩

/-- Two pieces are sent one behind the other. -/
theorem Sent.append {c' c'' : TxChip} {i : Fin nSockets} {l l' : List Byte} (h : Sent c i l c')
    (h' : Sent c' i l' c'') : Sent c i (l ++ l') c'' where
  inOrder := h'.inOrder
  ticks := h'.ticks.trans h.ticks
  handed j := by
    rw [h'.handed, h.handed, List.append_assoc]
    split_ifs <;> rfl
  queue j := by
    rw [h'.queue, h.queue, List.append_assoc]
    split_ifs <;> rfl

/-- The loop of `send` hands over what it takes off the front of the buffer. -/
theorem post_sendLoop (hord : w.chip.InOrder) (fuel : ℕ) (i : Fin nSockets) (nonblock : Bool)
    (tom : TimeoutManager) (buf : List Byte) :
    Post (sendLoop txBoard fuel i nonblock tom buf)
      (fun rest w' => ∃ l, buf = l ++ rest ∧ Handed w i l w') w := by
  unfold sendLoop
  -- invariant: the bytes taken off so far are in the ring or transmitted
  refine Post.iter (fun bytes w' => ∃ l, buf = l ++ bytes ∧ Sending w i l w') ?_ fuel ?_
  swap
  · exact ⟨[], rfl, rfl, sent_nil hord _ (.refl _) rfl⟩
  · rintro bytes w1 ⟨l, hbuf, h1⟩
    rw [post_ite]
    constructor
    · intro _
      exact post_pure.2 ⟨l, hbuf, h1.handed⟩
    · intro _
      rw [post_bind, post_getSlot, post_bind, post_onChip]
      refine (post_writeBuf h1.sent.inOrder fuel _ bytes).mono ?_
      rintro n c2 ⟨-, hsent⟩
      rw [h1.sockets] at hsent
      have h2 : Sending w i (l ++ bytes.take n) (w1.setChip c2) :=
        ⟨h1.sockets, h1.sent.append hsent⟩
      have hbuf2 : buf = l ++ bytes.take n ++ bytes.drop n := by
        rw [List.append_assoc, List.take_append_drop]
        exact hbuf
      rw [post_ite]
      constructor
      · intro _
        rw [post_ite]
        exact ⟨fun _ => post_pure.2 ⟨_, hbuf2, h2.handed⟩, fun _ => post_pure.2 ⟨_, hbuf2, h2⟩⟩
      -- nothing was written: the connection is looked at, then the mode and the time
      · intro hn
        have hn0 : n = 0 := by omega
        subst hn0
        rw [List.take_zero, List.append_nil] at h2
        rw [post_bind]
        refine (calm_manageDisconnect fuel i).mono ?_
        rintro gone w3 ⟨hcalm, hgone⟩
        cases gone with
        | true =>
            refine post_pure.2 ⟨l, hbuf, hcalm.2 h2.sent.inOrder, fun j => ?_, .inr hgone⟩
            rw [hcalm.1]
            exact h2.sent.handed j
        | false =>
            obtain ⟨hs3, hk3, hm3⟩ := hgone
            have h3 := h2.kept hs3 hk3 hm3
            rw [if_neg Bool.false_ne_true, post_ite]
            constructor
            · intro _
              have h4 : Sending w i l (w3.setErrno .EAGAIN) := h3.kept rfl (.refl _) rfl
              exact post_fail.2 ⟨l, hbuf, h4.handed⟩
            · intro _
              rw [post_bind]
              refine (kept_timeoutEnded tom).mono ?_
              rintro ended w4 ⟨hs4, hk4, hm4⟩
              have h4 := h3.kept hs4 hk4 hm4
              rw [post_ite]
              exact ⟨fun _ => post_pure.2 ⟨l, hbuf, h4.handed⟩, fun _ => post_pure.2 ⟨l, hbuf, h4⟩⟩

/-- `send` on a connected stream: what it returns, and what it has handed over. -/
theorem post_send (hord : w.chip.InOrder) (fuel : ℕ) {d : Fin openMax} {i : Fin nSockets}
    (hsock : (w.files d).stat.fileType = .sock) (hptr : (w.files d).opaquePtr = .slot i)
    (htype : (w.sockets i).type = .stream) (hconn : (w.sockets i).Connected) (buf : List Byte) :
    Post (send txBoard fuel (d.val : ℤ) buf)
      (fun r w' => ∃ n ≤ buf.length, r = wrap32 n ∧ Handed w i (buf.take n) w') w := by
  unfold send
  rw [post_bind]
  rw [post_getSocketFromFd_of_sock hsock hptr]
  dsimp only
  rw [post_bind, post_getSlot, htype]
  dsimp only
  unfold sendTcp
  rw [post_bind, post_getSlot, if_neg (fun h => hconn.elim h.1 h.2), post_bind]
  apply post_isNonblock
  intro dfd _
  rw [post_bind]
  refine (kept_timeoutUnless _ _).mono ?_
  rintro tom w1 ⟨hs1, hk1, hm1⟩
  rw [post_bind]
  refine (post_sendLoop (hord.kept hk1 hm1) fuel i _ tom buf).mono ?_
  rintro rest w2 ⟨l, rfl, hh⟩
  refine post_pure.2 ⟨l.length, by rw [List.length_append]; omega, ?_, ?_⟩
  · rw [List.length_append]
    congr 1
    omega
  · rw [List.take_left]
    refine ⟨hh.inOrder, fun j => ?_, ?_⟩
    · rw [hh.handed, hs1, hk1.handed]
    · rcases hh.queue with hq | hgone
      · left
        intro j
        rw [hq, hs1, hk1.queue]
      · exact .inr hgone

/-! ### The ring is a queue -/

/-- **The rings are byte FIFOs.**  The two copies use the cells of the positions from the
pointer on, and no others.  Hence, over any run of `write_buf` calls in which the chip
transmits at any time, the bytes transmitted and the bytes still in the ring are together
the bytes reported written, in order.  A `send` on a connected stream that returns `r`
has handed over the first `r` bytes of its buffer; they are in the ring behind those of
before, unless the connection ended meanwhile. -/
theorem rings_are_fifos {φ : Type} :
    (∀ (c : TxChip) (i : Fin nSockets) (p : BitVec 16) (buf : List Byte), buf.length ≤ 2048 →
      ∃ p' c', writeBufSure txBoard i buf p c = .ok (p', c') ∧
        p'.toNat = (p.toNat + buf.length) % 2 ^ 16 ∧
        (∀ k (hk : k < buf.length),
          c'.mem (txMemBase + 2048 * i + (p.toNat + k) % 2048) = buf[k]) ∧
        ∀ a, (∀ k < buf.length, a ≠ txMemBase + 2048 * i + (p.toNat + k) % 2048) →
          c'.mem a = c.mem a) ∧
    (∀ (c : TxChip) (i : Fin nSockets) (p : BitVec 16) (n : ℕ), n ≤ 2048 →
      ∃ p' c', readBufSure txBoard i n p c = .ok
          (((List.range n).map fun k => c.mem (rxMemBase + 2048 * i + (p.toNat + k) % 2048), p'), c') ∧
        p'.toNat = (p.toNat + n) % 2 ^ 16 ∧ c'.mem = c.mem) ∧
    (∀ (fuel : ℕ) (es : List RingEvent) (c c' : TxChip) (l : List (Fin nSockets × List Byte)),
      c.InOrder → ringRun fuel es c = .ok (l, c') → c'.InOrder ∧ ∀ i,
        c'.consumed i ++ c'.pending i = c.consumed i ++ c.pending i ++ bytesOf i l ∧
        (c'.rd i = c'.txWr i → c'.pending i = [])) ∧
    (∀ (fuel : ℕ) (i : Fin nSockets) (buf : List Byte) (c : TxChip), c.Prompt →
      Returns (writeBuf txBoard (fuel + 1) i buf) c) ∧
    (∀ (w w' : World TxChip φ) (fuel : ℕ) (d : Fin openMax) (i : Fin nSockets) (buf : List Byte)
      (r : ℤ), w.chip.InOrder → (w.files d).stat.fileType = .sock →
      (w.files d).opaquePtr = .slot i → (w.sockets i).type = .stream → (w.sockets i).Connected →
      send txBoard fuel (d.val : ℤ) buf w = .ok (r, w') →
      ∃ n ≤ buf.length, r = wrap32 n ∧ (buf.length < 2 ^ 31 → r = n) ∧ Handed w i (buf.take n) w') := by
  refine ⟨?_, ?_, ?_, ?_, ?_⟩
  · intro c i p buf hlen
    have hret : Returns (writeBufSure txBoard i buf p) c := by
      rw [writeBufSure_eq]
      apply Returns.bind (returns_writeMem _ _ _ _)
      intro _ _ _
      apply Returns.bind (returns_writeMem _ _ _ _)
      intro _ _ _
      exact returns_pure
    obtain ⟨p', c', heq⟩ := hret
    obtain ⟨rfl, hm⟩ := post_writeBufSure hlen p' c' heq
    refine ⟨_, c', heq, ?_, ?_, ?_⟩
    · rw [BitVec.toNat_add, BitVec.toNat_ofNat, Nat.add_mod_mod]
    · intro k hk
      rw [hm]
      exact Ring.store_apply hlen hk
    · intro a ha
      rw [hm]
      exact Ring.store_of_ne (by omega) hlen ha
  · intro c i p n hlen
    have hret : Returns (readBufSure txBoard i n p) c := by
      rw [readBufSure_eq]
      apply Returns.bind (returns_readMem _ _ _ _)
      intro _ _ _
      apply Returns.bind (returns_readMem _ _ _ _)
      intro _ _ _
      exact returns_pure
    obtain ⟨⟨bytes, p'⟩, c', heq⟩ := hret
    obtain ⟨hp, hm, hbytes⟩ := post_readBufSure hlen _ c' heq
    dsimp only at hp hbytes
    subst hp hbytes
    refine ⟨_, c', heq, ?_, hm⟩
    rw [BitVec.toNat_add, BitVec.toNat_ofNat, Nat.add_mod_mod]
  · intro fuel es c c' l hord heq
    obtain ⟨hord', hq⟩ := post_ringRun fuel es hord l c' heq
    refine ⟨hord', fun i => ⟨hq i, fun hempty => ?_⟩⟩
    unfold TxChip.pending
    rw [← (hord' i).1, hempty, BitVec.sub_self]
    rfl
  · intro fuel i buf c hp
    exact returns_writeBuf hp fuel i buf
  · intro w w' fuel d i buf r hord hsock hptr htype hconn heq
    obtain ⟨n, hn, hr, hh⟩ := post_send hord fuel hsock hptr htype hconn buf r w' heq
    refine ⟨n, hn, hr, fun hlt => ?_, hh⟩
    rw [hr, wrap32_of_fits (by omega) (by omega)]

/-! ### Three bytes -/

/-- A chip that transmits one byte at every transaction; the ring of socket 0 stands two
bytes before its end. -/
def exampleTxChip : TxChip where
  mem a := if a = sockRegGet regTXWR 0 then 0x07 else if a = sockRegGet regTXWR 0 + 1 then 0xFE else 0
  rd i := if i = 0 then 0x07FE else 0
  latched i := if i = 0 then 0x07FE else 0
  handed _ := []
  consumed _ := []
  ticks _ := ⟨fun _ => 1, 0, sockEstablished, timespecZero⟩
  now := 0

/-- The world with the descriptor 3 for a connection on socket 0 of that chip. -/
def exampleTxWorld : World TxChip Unit where
  files d := if d = 3 then
      { Fd.zero with
        fd := 3, isallocated := true, isopen := true, opaquePtr := .slot 0,
        stat := ⟨.sock, 0o777, 0, 1024⟩, statusFlags := oRdwr }
    else .zero
  sockets i :=
    { fd := if i = 0 then 3 else socketFreeFd, isocket := i, domain := .inet, type := .stream,
      protocol := 0, state := if i = 0 then .connected else .none,
      sockname := ⟨.unspec, 0, 0⟩, destAddress := ⟨.unspec, 0, 0⟩, canBroadcast := false,
      recvTimeout := timespecZero, sendTimeout := timespecZero,
      fdData := if i = 0 then some 3 else none, connectionData := none }
  errno := none
  chip := exampleTxChip
  fat := ()

/-- Three bytes are handed over. -/
theorem rings_are_fifos_send : ∃ w', send txBoard 2 3 [1, 2, 3] exampleTxWorld = .ok (3, w') ∧
    w'.chip.handed 0 = [1, 2, 3] := by
  have hret : (send txBoard 2 3 [1, 2, 3] exampleTxWorld).toOption.map Prod.fst = some 3 := by
    decide +kernel
  cases heq : send txBoard 2 3 [1, 2, 3] exampleTxWorld with
  | error e =>
      rw [heq] at hret
      cases hret
  | ok r =>
      obtain ⟨r, w'⟩ := r
      rw [heq] at hret
      have hr : r = 3 := Option.some.inj hret
      subst hr
      have hord : exampleTxChip.InOrder := by
        unfold TxChip.InOrder
        decide +kernel
      obtain ⟨n, hn, -, hn3, hh⟩ := rings_are_fifos.2.2.2.2 exampleTxWorld w' 2 3 0 [1, 2, 3] 3
        hord rfl rfl rfl (.inr rfl) heq
      have h3 : n = 3 := by
        have := hn3 (by decide)
        omega
      subst h3
      exact ⟨w', rfl, hh.handed 0⟩

end Send

end W5100

end Nucleo
