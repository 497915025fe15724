/-
# What `recvfrom` stores

On a stream `read_buf` stores no more than the caller asks for.  On a datagram socket the
header in the ring says how much is stored and returned, and the caller's length is not
looked at.  An unconnected socket returns 1, also to a caller that asks for nothing.

`recvfrom_fits_iff` says for which calls what is stored and returned fits, over every
order in which the bytes of the datagram may arrive; `longDatagram_overflows` is a run in
which it does not.
-/
import Nucleo.W5100Datagrams
import Nucleo.W5100OwnershipRuns

namespace Nucleo

namespace W5100

open Comp RxChip

/-- The length in the header of the datagram that is the next to be taken. -/
def RxChip.frontLength (c : RxChip) (i : Fin nSockets) : ℕ :=
  (c.incoming i (c.rd i + 6)).toNat * 256 + (c.incoming i (c.rd i + 7)).toNat

/-- What is stored and returned is no more than `len`. -/
def Received.Fits (r : Received) (len : ℕ) : Prop := r.buf.length ≤ len ∧ r.ret ≤ (len : ℤ)

/-- `recvfrom` fails with `ENOTCONN`. -/
def Slot.Unconnected (s : Slot) : Prop :=
  (s.type = .stream ∧ s.state ≠ .accepted ∧ s.state ≠ .connected) ∨
    (s.type = .dgram ∧ s.state ≠ .bound ∧ s.state ≠ .created)

/-- When the result of `recvfrom` fits: an unconnected socket is asked for a byte at least, and
the next datagram of a datagram socket is no longer than what it is asked for. -/
def RecvFits {φ : Type} (w : World RxChip φ) (sockfd : ℤ) (len : ℕ) : Prop :=
  ∀ (d : Fin openMax) (j : Fin nSockets), sockfd = (d.val : ℤ) →
    (w.files d).stat.fileType = .sock → (w.files d).opaquePtr = .slot j →
    ((w.sockets j).Unconnected → 0 < len) ∧
    ((w.sockets j).type = .dgram → ¬ (w.sockets j).Unconnected → 0 < len →
      (w.sockets j).fdData ≠ none → w.chip.frontLength (w.sockets j).isocket ≤ len)

section Bounds

variable {φ : Type} {w : World RxChip φ} {c : RxChip} {i j : Fin nSockets}

/-- A call that stores nothing fits. -/
theorem fits_failed {ret : ℤ} {len : ℕ} (h : ret ≤ (len : ℤ)) : (Received.empty ret).Fits len :=
  ⟨Nat.zero_le _, h⟩

/-! ## A stream -/

/-- `read_buf` stores no more than it is asked for. -/
theorem post_readBuf_length (fuel len : ℕ) :
    Post (readBuf rxBoard fuel i len) (fun r _ => r.1.length ≤ len ∧ r.2 ≤ len) c := by
  unfold readBuf
  rw [post_bind]
  intro toread c1 _
  rw [post_ite]
  constructor
  · intro _
    generalize hn : (if len > toread.toNat then toread.toNat else len) = n
    have hle : n ≤ len ∧ n < 2 ^ 16 := by
      have hlt := toread.isLt
      rw [← hn]
      split_ifs <;> omega
    rw [post_bind]
    intro pread c2 _
    rw [post_bind]
    refine (later_readBufSure pread hle.2).mono ?_
    rintro ⟨bytes, pread'⟩ c3 ⟨-, hlen, -⟩
    dsimp only at hlen ⊢
    rw [post_bind]
    intro _ c4 _
    refine post_pure.2 ⟨?_, ?_⟩
    · show bytes.length ≤ len
      omega
    · show n % 2 ^ 16 ≤ len
      omega
  · intro _
    exact post_pure.2 ⟨Nat.zero_le _, Nat.zero_le _⟩

/-! ## A datagram socket -/

/-- A datagram is stored as long as its header says. -/
theorem post_recvDatagram_length (hin : c.rd i + 8 ≤ c.arrived i) (fuel : ℕ) (wantAddr : Bool) :
    Post (recvDatagram rxBoard fuel i wantAddr)
      (fun r _ => r.buf.length = c.frontLength i ∧ r.ret = (c.frontLength i : ℤ)) c := by
  unfold recvDatagram
  rw [post_bind]
  refine (post_readBufPstart_rx i).mono ?_
  rintro _ c1 ⟨h1, rfl⟩
  have hrd1 : c1.rd i = c.rd i := congrFun h1.rd i
  have hmore1 := h1.arrived i
  have hpointer : (c.rxRd i).toNat % 0x800 = (c1.rd i + 0) % 0x800 := by
    unfold RxChip.rxRd
    rw [BitVec.toNat_ofNat, hrd1]
    omega
  rw [post_bind]
  refine (post_readBufSure_rx hpointer (by omega)).mono ?_
  rintro ⟨header, _⟩ c2 ⟨h2, hheader, rfl⟩
  dsimp only at hheader ⊢
  have hbyte : ∀ k < 8, header.getD k 0 = c.incoming i (c.rd i + k) := by
    intro k hk
    rw [hheader, List.getD_eq_getElem?_getD, Memory.getElem?_read _ hk, hrd1, h1.incoming]
    rfl
  have hlen : (htons (word16 (header.getD 6 0) (header.getD 7 0))).toNat = c.frontLength i := by
    rw [toNat_htons_word16, hbyte 6 (by omega), hbyte 7 (by omega)]
    rfl
  rw [post_bind]
  refine (later_readBufSure _ (BitVec.isLt _)).mono ?_
  rintro ⟨bytes, pread⟩ c3 ⟨-, hbytes, -⟩
  dsimp only at hbytes ⊢
  rw [post_bind]
  intro _ c4 _
  refine post_pure.2 ⟨hbytes.trans hlen, ?_⟩
  show ((htons (word16 (header.getD 6 0) (header.getD 7 0))).toNat : ℤ) = _
  rw [hlen]

/-- The length in front stays as it is. -/
theorem RxChip.Later.frontLength {c' : RxChip} (hl : Later c c') :
    c'.frontLength i = c.frontLength i := by
  unfold RxChip.frontLength
  rw [hl.incoming, hl.rd]

/-- One round on a datagram socket. -/
theorem post_round_length (hslot : (w.sockets j).isocket = i)
    (htype : (w.sockets j).type = .dgram) (fuel len : ℕ) (wantAddr : Bool) :
    Post (recvRound rxBoard fuel j len wantAddr)
      (fun r w' =>
        match r with
        | some r => r.buf.length = w.chip.frontLength i ∧ r.ret = (w.chip.frontLength i : ℤ)
        | none => World.Same w w' ∧ Later w.chip w'.chip) w := by
  unfold recvRound
  rw [post_bind, post_getSlot, htype, hslot]
  dsimp only
  rw [post_bind, post_onChip]
  refine (post_readBufLen_rx i).mono ?_
  rintro n c1 ⟨h0, hle, -⟩
  have h1 := w.chip.later_advance.trans h0
  have hrd1 : c1.rd i = w.chip.rd i := congrFun h1.rd i
  rw [post_ite]
  constructor
  · intro hn
    have hin : c1.rd i + 8 ≤ c1.arrived i := by omega
    rw [post_bind, post_onChip]
    refine (post_recvDatagram_length hin fuel wantAddr).mono ?_
    intro r c2 hr
    have hfront : c1.frontLength i = w.chip.frontLength i := h1.frontLength
    refine post_pure.2 ⟨hr.1.trans hfront, hr.2.trans ?_⟩
    exact congrArg Nat.cast hfront
  · intro _
    exact post_pure.2 ⟨⟨rfl, rfl, rfl⟩, h1⟩

/-! ## The loop -/

/-- What is known of the state as long as nothing was received. -/
structure Waiting (w : World RxChip φ) (j : Fin nSockets) (w' : World RxChip φ) : Prop where
  same : World.Same w w'
  later : (w.sockets j).type = .dgram → Later w.chip w'.chip

/-- **One look fits** when the datagram in front does. -/
theorem post_round_fits {len : ℕ}
    (hfront : (w.sockets j).type = .dgram → w.chip.frontLength (w.sockets j).isocket ≤ len)
    (fuel : ℕ) (wantAddr : Bool) :
    Post (recvRound rxBoard fuel j len wantAddr)
      (fun r w' =>
        match r with
        | some r => r.Fits len
        | none => Waiting w j w') w := by
  by_cases hdgram : (w.sockets j).type = .dgram
  · refine (post_round_length rfl hdgram fuel len wantAddr).mono ?_
    intro r w' hr
    cases r with
    | some r =>
        obtain ⟨hbuf, hret⟩ := hr
        have hle := hfront hdgram
        exact ⟨by rw [hbuf]; exact hle, by rw [hret]; exact_mod_cast hle⟩
    | none => exact ⟨hr.1, fun _ => hr.2⟩
  · unfold recvRound
    rw [post_bind, post_getSlot]
    cases htype : (w.sockets j).type with
    | dgram => exact absurd htype hdgram
    -- a stream reads at most what was asked for
    | stream =>
        dsimp only
        rw [post_bind, post_onChip]
        refine (post_readBuf_length fuel len).mono ?_
        rintro ⟨bytes, nread⟩ c1 ⟨hbytes, hread⟩
        dsimp only at hbytes hread ⊢
        rw [post_ite]
        constructor
        · intro _
          exact post_pure.2 ⟨hbytes, Int.ofNat_le.2 hread⟩
        · intro _
          rw [post_bind]
          refine (same_manageDisconnect rxBoard fuel j).mono ?_
          intro gone w2 hsame
          cases gone with
          | true => exact post_pure.2 (fits_failed (by omega))
          | false =>
              have hs := hsame rfl
              refine post_pure.2 ⟨⟨hs.files, hs.sockets, hs.fat⟩, ?_⟩
              intro h
              exact absurd h hdgram
    | raw => exact post_pure.2 ⟨.refl, fun _ => .refl _⟩
    | other => exact post_pure.2 ⟨.refl, fun _ => .refl _⟩

theorem post_recvLoop_fits {len : ℕ}
    (hfront : (w.sockets j).type = .dgram → w.chip.frontLength (w.sockets j).isocket ≤ len)
    (fuel : ℕ) (wantAddr nonblock : Bool) (tom : TimeoutManager) :
    Post (recvLoop rxBoard fuel j len wantAddr nonblock tom) (fun r _ => r.Fits len) w := by
  unfold recvLoop
  refine Post.iter (fun _ w' => Waiting w j w') ?_ fuel ⟨.refl, fun _ => .refl _⟩
  intro _ w1 h1
  rw [post_bind]
  have hfront1 : (w1.sockets j).type = .dgram →
      w1.chip.frontLength (w1.sockets j).isocket ≤ len := by
    rw [h1.same.sockets]
    intro hdgram
    rw [(h1.later hdgram).frontLength]
    exact hfront hdgram
  refine (post_round_fits hfront1 fuel wantAddr).mono ?_
  intro r w2 hr
  cases r with
  | some r => exact post_pure.2 hr
  | none =>
      obtain ⟨hs2, hl2⟩ := hr
      rw [h1.same.sockets] at hl2
      dsimp only
      rw [post_ite]
      constructor
      · intro _
        exact post_fail.2 (fits_failed (by omega))
      · intro _
        rw [post_bind]
        refine (later_timeoutEnded tom).mono ?_
        rintro ended w3 ⟨hs3, hl3⟩
        rw [post_ite]
        constructor
        · intro _
          exact post_pure.2 (fits_failed (by omega))
        · intro _
          exact post_pure.2 ⟨(h1.same.trans hs2).trans hs3,
            fun hdgram => ((h1.later hdgram).trans (hl2 hdgram)).trans hl3⟩

/-! ## `recvfrom` -/

/-- A socket that is not connected receives nothing. -/
theorem recvfrom_of_unconnected {χ : Type} {w : World χ φ} (B : Board χ) (fuel len : ℕ)
    (wantAddr : Bool) {d : Fin openMax} (hsock : (w.files d).stat.fileType = .sock)
    (hptr : (w.files d).opaquePtr = .slot j) (hun : (w.sockets j).Unconnected) :
    recvfrom B fuel (d.val : ℤ) len wantAddr w = .ok (.empty 1, w.setErrno .ENOTCONN) := by
  unfold recvfrom
  rw [bind_eq, getSocketFromFd_of_sock hsock hptr]
  dsimp only
  rw [bind_eq, show getSlot j w = .ok (w.sockets j, w) from rfl]
  dsimp only
  rcases hun with hstream | hdgram
  · rw [if_pos hstream]
    rfl
  · by_cases hstream : (w.sockets j).type = .stream ∧ (w.sockets j).state ≠ .accepted ∧
        (w.sockets j).state ≠ .connected
    · rw [if_pos hstream]
      rfl
    · rw [if_neg hstream, if_pos hdgram]
      rfl

theorem post_recvfrom_fits {sockfd : ℤ} {len : ℕ} (hfits : RecvFits w sockfd len) (fuel : ℕ)
    (wantAddr : Bool) :
    Post (recvfrom rxBoard fuel sockfd len wantAddr) (fun r _ => r.Fits len) w := by
  unfold recvfrom
  rw [post_bind]
  apply post_getSocketFromFd
  · intro e
    exact post_pure.2 (fits_failed (by omega))
  · intro d j hfd hsock hptr
    obtain ⟨hrefused, hfront⟩ := hfits d j hfd hsock hptr
    dsimp only
    rw [post_bind, post_getSlot, post_ite]
    constructor
    · intro hstream
      have hpos := hrefused (.inl hstream)
      exact post_fail.2 (fits_failed (by omega))
    intro hstream
    rw [post_ite]
    constructor
    · intro hdgram
      have hpos := hrefused (.inr hdgram)
      exact post_fail.2 (fits_failed (by omega))
    intro hdgram
    rw [post_ite]
    constructor
    · intro _
      exact post_pure.2 (fits_failed (by omega))
    intro hlen
    rw [post_bind]
    apply post_isNonblock
    intro d' hd'
    rw [post_bind]
    refine (later_timeoutUnless _ _).mono ?_
    rintro tom w1 ⟨hs1, hl1⟩
    -- the length of the datagram in front has not changed so far
    apply post_recvLoop_fits
    rw [hs1.sockets, hl1.frontLength]
    intro htype
    refine hfront htype ?_ (by omega) ?_
    · rintro (h | h)
      · exact hstream h
      · exact hdgram h
    · rw [hd']
      exact Option.some_ne_none d'

/-- A call that sees a datagram returns the length in its header. -/
theorem post_recvfrom_length {d : Fin openMax} (hd : DgramSocket w d j i)
    (hseen : ∀ c, Later w.chip c → c.Seen i) (fuel : ℕ) {len : ℕ} (hlen : 0 < len)
    (wantAddr : Bool) :
    Post (recvfrom rxBoard fuel (d.val : ℤ) len wantAddr)
      (fun r _ => r.ret = (w.chip.frontLength i : ℤ)) w := by
  have hconn : ¬ (w.sockets j).Unconnected := by
    rintro (⟨htype, -⟩ | ⟨-, hb, hc⟩)
    · rw [hd.type] at htype
      cases htype
    · rcases hd.state with h | h
      · exact hb h
      · exact hc h
  unfold recvfrom
  rw [post_bind, post_getSocketFromFd_of_sock hd.fileType hd.opaquePtr]
  dsimp only
  rw [post_bind, post_getSlot, if_neg (fun h => hconn (.inl h)), if_neg (fun h => hconn (.inr h)),
    if_neg (by omega), post_bind]
  apply post_isNonblock
  intro d' _
  rw [post_bind]
  refine (later_timeoutUnless _ _).mono ?_
  rintro tom w1 ⟨hs1, hl1⟩
  unfold recvLoop
  refine Post.iter (fun _ w' => World.Same w w' ∧ Later w.chip w'.chip) ?_ fuel ⟨hs1, hl1⟩
  rintro _ w2 ⟨hs2, hl2⟩
  have hslot2 : (w2.sockets j).isocket = i := by
    rw [hs2.sockets]
    exact hd.isocket
  have htype2 : (w2.sockets j).type = .dgram := by
    rw [hs2.sockets]
    exact hd.type
  rw [post_bind]
  refine ((post_round_length hslot2 htype2 fuel len wantAddr).and
    (some_of_seen (hseen _ hl2) hslot2 htype2 fuel len wantAddr)).mono ?_
  rintro r w3 ⟨hr, hsome⟩
  obtain ⟨r, rfl⟩ := Option.isSome_iff_exists.1 hsome
  rw [hl2.frontLength] at hr
  exact post_pure.2 hr.2

/-- The ring fills up at once. -/
def RxChip.fullTicks (c : RxChip) (_ : ℕ) : RxTick :=
  ⟨fun i => c.rd i + 0x800, 0, 0, timespecZero⟩

/-! ### A full ring -/

theorem seen_of_full (hfull : ∀ t, (c.ticks t).upto i = c.rd i + 0x800) : c.Seen i := by
  have hfirst : c.advance.arrived i = c.rd i + 0x800 := by
    show c.arriving (c.ticks c.now) i = _
    have hroom := c.room i
    unfold RxChip.arriving
    rw [hfull, if_pos ⟨hroom, le_rfl⟩]
  refine (post_readBufLen_rx i).mono ?_
  rintro n c' ⟨hl, -, hexact⟩
  have hmore := hl.arrived i
  have hroom := c'.room i
  have hrd : c'.rd i = c.rd i := congrFun hl.rd i
  have hsize := hexact (by omega)
  omega

/-- **What `recvfrom` stores and returns fits** what it is asked for, whenever the bytes arrive,
just when the next datagram of a datagram socket does, and an unconnected socket is asked
for a byte at least. -/
theorem recvfrom_fits_iff (w : World RxChip φ) (sockfd : ℤ) (len : ℕ) (wantAddr : Bool) :
    (∀ (ticks : ℕ → RxTick) (fuel : ℕ),
      Post (recvfrom rxBoard fuel sockfd len wantAddr) (fun r _ => r.Fits len)
        (w.setChip { w.chip with ticks := ticks })) ↔ RecvFits w sockfd len := by
  constructor
  · intro h d j hfd hsock hptr
    subst hfd
    constructor
    · intro hun
      have hfits := h w.chip.ticks 0 _ _
        (recvfrom_of_unconnected rxBoard 0 len wantAddr hsock hptr hun)
      have hle : (1 : ℤ) ≤ (len : ℤ) := hfits.2
      omega
    · intro htype hconn hlen hdata
      -- let every byte of the ring be there at once: then the call returns the length in the header
      have hd : DgramSocket (w.setChip { w.chip with ticks := w.chip.fullTicks }) d j
          (w.sockets j).isocket := by
        refine ⟨hsock, hptr, rfl, htype, ?_, hdata⟩
        by_contra hstate
        refine hconn (.inr ⟨htype, ?_, ?_⟩)
        · exact fun hb => hstate (.inl hb)
        · exact fun hc => hstate (.inr hc)
      have hseen : ∀ c, Later { w.chip with ticks := w.chip.fullTicks } c →
          c.Seen (w.sockets j).isocket := by
        intro c hl
        apply seen_of_full
        intro t
        rw [hl.ticks, hl.rd]
        rfl
      obtain ⟨r, w', heq⟩ := returns_recvfrom_dgram hd (fun _ => rfl) hseen 0 len wantAddr
      have hret : r.ret = (w.chip.frontLength (w.sockets j).isocket : ℤ) :=
        post_recvfrom_length hd hseen 1 hlen wantAddr r w' heq
      have hfits := (h w.chip.fullTicks 1 r w' heq).2
      rw [hret] at hfits
      exact_mod_cast hfits
  · intro hfits ticks fuel
    exact post_recvfrom_fits (w := w.setChip { w.chip with ticks := ticks }) hfits fuel wantAddr

end Bounds

/-! ### A datagram that is longer than the buffer -/

/-- A chip on which ten bytes arrive at every transaction: a header with the length 2 and its
payload, again and again. -/
def longDatagramChip : RxChip where
  incoming _ p := if p % 2 ^ 16 = 7 then 2 else 0
  rd _ := 0
  arrived _ := 0
  written _ := 0
  ticks _ := ⟨fun _ => 2 ^ 16 + 10, 0, sockUdp, timespecZero⟩
  now := 0
  rd_le _ := le_rfl
  room _ := Nat.zero_le _

/-- A datagram socket. -/
def dgramCalls : List (ℕ × SocketCall) :=
  [(1, .socket .inet .dgram 0), (1, .bind 3 ⟨.inet, 0x3500, inaddrAny⟩)]

/-- What a call of `recv` on a board of that chip returns after the calls. -/
def longDatagramRun (len : ℕ) : Option Received :=
  match bootRun rxBoard longDatagramChip (fun _ _ => true) dgramCalls with
  | some w => (recv rxBoard 1 3 len w).toOption.map Prod.fst
  | none => none

/-- A datagram of two bytes is stored in a buffer of one byte. -/
theorem longDatagram_overflows : ∃ w₀ w r w',
    socketInit rxBoard 1 none (bootWorld longDatagramChip noFiles) = .ok ((), w₀) ∧
      Run (SocketCall.exec rxBoard noDisk) (fun _ _ => True) w₀ w ∧
      recv rxBoard 1 3 1 w = .ok (r, w') ∧ r.buf.length = 2 ∧ r.ret = 2 ∧ ¬ r.Fits 1 := by
  have hret : (longDatagramRun 1).any (fun r => r.buf.length == 2 && r.ret == 2) = true := by
    decide +kernel
  unfold longDatagramRun at hret
  cases hrun : bootRun rxBoard longDatagramChip (fun _ _ => true) dgramCalls with
  | none =>
      rw [hrun] at hret
      cases hret
  | some w =>
      rw [hrun] at hret
      dsimp only at hret
      have hreach : ∃ w₀, socketInit rxBoard 1 none (bootWorld longDatagramChip noFiles)
          = .ok ((), w₀) ∧ Run (SocketCall.exec rxBoard noDisk) (fun _ _ => True) w₀ w :=
        run_of_bootRun (fun _ _ _ => trivial) hrun
      obtain ⟨w₀, hinit, hr⟩ := hreach
      cases hcall : recv rxBoard 1 3 1 w with
      | error e =>
          rw [hcall] at hret
          cases hret
      | ok res =>
          obtain ⟨r, w'⟩ := res
          rw [hcall] at hret
          obtain ⟨hbuf, hone⟩ := Bool.and_eq_true_iff.1 hret
          have hbuf' : r.buf.length = 2 := beq_iff_eq.1 hbuf
          have hone' : r.ret = 2 := beq_iff_eq.1 hone
          refine ⟨w₀, w, r, w', hinit, hr, hcall, hbuf', hone', fun hfits => ?_⟩
          have hle := hfits.1
          rw [hbuf'] at hle
          omega

end W5100

end Nucleo
