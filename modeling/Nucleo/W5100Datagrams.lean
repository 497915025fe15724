/-
# Datagrams keep their boundaries

`recvfrom` on a datagram socket over the receiving chip.  The bytes of the socket are those
of a sequence of datagrams, each behind a header with its source, port and length, and only
whole datagrams arrive.  `AtDatagram` says that the read position stands before the `k`-th
one; a call returns that one and moves to the next, or fails and takes nothing
(`post_recvfrom_dgram`).  `datagrams_in_order` follows for runs of calls.
-/
import Nucleo.W5100RxRing
import Nucleo.W5100Socket

namespace Nucleo

namespace W5100

open Comp RxChip

/-! ## Datagrams in the ring -/

/-- A datagram. -/
structure UdpDatagram where
  source : InAddr
  port : InPort
  payload : List Byte
  short : payload.length < 2 ^ 16

namespace UdpDatagram

/-- What the chip lays in the ring: the header and the payload. -/
def bytes (d : UdpDatagram) : List Byte :=
  bytes32 d.source ++ (bytes16 d.port ++ (bytes16 (htons (BitVec.ofNat 16 d.payload.length)) ++
    d.payload))

/-- What `recvfrom` returns for it. -/
def received (d : UdpDatagram) (wantAddr : Bool) : Received :=
  ⟨(d.payload.length : ℤ), d.payload, if wantAddr then some (d.source, d.port) else none⟩

/-- The header has eight bytes. -/
theorem length_bytes (d : UdpDatagram) : d.bytes.length = 8 + d.payload.length := by
  unfold bytes bytes16
  simp only [List.length_append, length_bytes32, List.length_cons, List.length_nil]
  omega

end UdpDatagram

/-- The position of the `k`-th datagram, from the position `p` on. -/
def startOf (ds : ℕ → UdpDatagram) (p : ℕ) : ℕ → ℕ
  | 0 => p
  | k + 1 => startOf ds p k + (8 + (ds k).payload.length)

/-- Later datagrams start later. -/
theorem startOf_le {ds : ℕ → UdpDatagram} {p j k : ℕ} (h : j ≤ k) :
    startOf ds p j ≤ startOf ds p k := by
  induction k, h using Nat.le_induction with
  | base => exact le_rfl
  | succ k _ ih => exact ih.trans (Nat.le_add_right _ _)

/-! ### The read pointer at a datagram -/

/-- The read position of a socket stands before the `k`-th datagram, and the bytes that have
arrived, or will, are whole datagrams. -/
structure AtDatagram (ds : ℕ → UdpDatagram) (p : ℕ) (i : Fin nSockets) (k : ℕ) (c : RxChip) :
    Prop where
  laid : ∀ k, Memory.read (c.incoming i) (startOf ds p k) (8 + (ds k).payload.length) = (ds k).bytes
  arrived : ∃ n, c.arrived i = startOf ds p n
  upto : ∀ t, ∃ n, (c.ticks t).upto i = startOf ds p n
  rd : c.rd i = startOf ds p k

/-- No further datagram arrives. -/
def RxChip.Still (c : RxChip) (i : Fin nSockets) : Prop := ∀ t, (c.ticks t).upto i ≤ c.arrived i

section Datagrams

variable {ds : ℕ → UdpDatagram} {p k : ℕ} {i : Fin nSockets} {c c' : RxChip}

/-- More data does not move the read pointer. -/
theorem AtDatagram.later (h : AtDatagram ds p i k c) (hl : Later c c') :
    AtDatagram ds p i k c' where
  laid := by
    rw [hl.incoming]
    exact h.laid
  arrived := by
    rcases hl.upto i with heq | ⟨t, heq⟩
    · rw [heq]
      exact h.arrived
    · rw [heq]
      exact h.upto t
  upto := by
    rw [hl.ticks]
    exact h.upto
  rd := by
    rw [hl.rd]
    exact h.rd

/-- Taking one datagram moves to the next one. -/
theorem AtDatagram.taken (h : AtDatagram ds p i k c)
    (ht : Taken c i (8 + (ds k).payload.length) c') : AtDatagram ds p i (k + 1) c' where
  laid := by
    rw [ht.incoming]
    exact h.laid
  arrived := by
    rcases ht.upto i with heq | ⟨t, heq⟩
    · rw [heq]
      exact h.arrived
    · rw [heq]
      exact h.upto t
  upto := by
    rw [ht.ticks]
    exact h.upto
  rd := by
    rw [ht.rd, Function.update_self, h.rd]
    rfl

/-- A datagram of which anything has arrived has arrived as a whole. -/
theorem AtDatagram.whole (h : AtDatagram ds p i k c) (hlt : c.rd i < c.arrived i) :
    c.rd i + (8 + (ds k).payload.length) ≤ c.arrived i := by
  obtain ⟨n, hn⟩ := h.arrived
  rw [h.rd, hn] at hlt ⊢
  have hkn : k < n := by
    by_contra hle
    have hstart : startOf ds p n ≤ startOf ds p k := startOf_le (not_lt.1 hle)
    omega
  exact startOf_le hkn

/-- Nothing has arrived on a socket that stands still. -/
theorem RxChip.Later.arrived_of_still (hl : Later c c') (hs : c.Still i) : c'.arrived i = c.arrived i := by
  rcases hl.upto i with heq | ⟨t, heq⟩
  · exact heq
  · have hle := hl.arrived i
    have := hs t
    omega

/-- It goes on standing still. -/
theorem RxChip.Later.still (hl : Later c c') (hs : c.Still i) : c'.Still i := by
  intro t
  rw [hl.ticks, hl.arrived_of_still hs]
  exact hs t

/-! ### The header -/

/-- A word in front of a list of bytes. -/
theorem load32_bytes32_append (v : BitVec 32) (l : List Byte) :
    load32 (fun k => (bytes32 v ++ l).getD k 0) 0 = v := by
  have hread : Memory.read (fun k => (bytes32 v ++ l).getD k 0) 0 4
      = Memory.read (Memory.write (fun _ => 0) 0 (bytes32 v)) 0 4 := by
    rw [Memory.read_getD _ _ (by simp), List.drop_zero,
      List.take_left' (length_bytes32 v)]
    exact (Memory.read_write (fun _ => 0) 0 (bytes32 v)).symm
  rw [load32_congr hread, load32_write]

/-- The header and the payload of the datagram at the read position. -/
theorem AtDatagram.split (h : AtDatagram ds p i k c) :
    Memory.read (c.incoming i) (c.rd i) 8
        = bytes32 (ds k).source ++ (bytes16 (ds k).port ++
            bytes16 (htons (BitVec.ofNat 16 (ds k).payload.length))) ∧
      Memory.read (c.incoming i) (c.rd i + 8) (ds k).payload.length = (ds k).payload := by
  have hlaid := h.laid k
  rw [Memory.read_add, ← h.rd] at hlaid
  unfold UdpDatagram.bytes at hlaid
  rw [← List.append_assoc, ← List.append_assoc, List.append_assoc (bytes32 _)] at hlaid
  exact List.append_inj hlaid rfl

/-- What the program makes of the header. -/
theorem header_fields (d : UdpDatagram) {header : List Byte}
    (hh : header = bytes32 d.source ++ (bytes16 d.port ++
      bytes16 (htons (BitVec.ofNat 16 d.payload.length)))) :
    load32 (fun k => header.getD k 0) 0 = d.source ∧
      word16 (header.getD 4 0) (header.getD 5 0) = d.port ∧
      (htons (word16 (header.getD 6 0) (header.getD 7 0))).toNat = d.payload.length := by
  subst hh
  have hlen := d.short
  refine ⟨load32_bytes32_append _ _, word16_bytes d.port, ?_⟩
  rw [bytes16_htons]
  show (htons (word16 (_ : Byte) (_ : Byte))).toNat = _
  rw [toNat_htons_word16]
  show ((BitVec.ofNat 16 d.payload.length).extractLsb' 8 8).toNat * 256
    + ((BitVec.ofNat 16 d.payload.length).extractLsb' 0 8).toNat = _
  rw [BitVec.extractLsb'_toNat, BitVec.extractLsb'_toNat, BitVec.toNat_ofNat,
    Nat.mod_eq_of_lt hlen, Nat.shiftRight_zero, Nat.shiftRight_eq_div_pow]
  omega

/-! ### Taking a datagram -/

/-- **One datagram is taken**, header and payload. -/
theorem post_recvDatagram (h : AtDatagram ds p i k c) (hlt : c.rd i < c.arrived i) (fuel : ℕ)
    (wantAddr : Bool) :
    Post (recvDatagram rxBoard fuel i wantAddr)
      (fun r c' => r = (ds k).received wantAddr ∧ AtDatagram ds p i (k + 1) c' ∧ Onward c c')
      c := by
  have hwhole := h.whole hlt
  have hroom := c.room i
  unfold recvDatagram
  rw [post_bind]
  refine (post_readBufPstart_rx i).mono ?_
  rintro _ c1 ⟨h1, rfl⟩
  have hrd1 : c1.rd i = c.rd i := congrFun h1.rd i
  have hmore1 := h1.arrived i
  have hpointer : (c.rxRd i).toNat % 0x800 = (c1.rd i + 0) % 0x800 := by
    unfold RxChip.rxRd
    rw [BitVec.toNat_ofNat, hrd1]
    omega
  rw [post_bind]
  refine (post_readBufSure_rx hpointer (by omega)).mono ?_
  rintro ⟨header, _⟩ c2 ⟨h2, hheader, rfl⟩
  dsimp only at hheader ⊢
  have hat2 := h.later (h1.trans h2)
  have hmore2 := h2.arrived i
  have hrd2 : c2.rd i = c.rd i := congrFun (h2.rd.trans h1.rd) i
  obtain ⟨hsplit, -⟩ := h.split
  rw [Nat.add_zero, hrd1, h1.incoming, hsplit] at hheader
  obtain ⟨hsource, hport, hlen⟩ := header_fields (ds k) hheader
  obtain ⟨-, hpayload⟩ := hat2.split
  have hpointer2 : (c.rxRd i + BitVec.ofNat 16 8).toNat % 0x800 = (c2.rd i + 8) % 0x800 := by
    unfold RxChip.rxRd
    rw [BitVec.toNat_add, BitVec.toNat_ofNat, BitVec.toNat_ofNat, hrd2]
    omega
  rw [hlen, hsource, hport, post_bind]
  refine (post_readBufSure_rx hpointer2 (by omega)).mono ?_
  rintro ⟨bytes, _⟩ c3 ⟨h3, hbytes, rfl⟩
  dsimp only at hbytes ⊢
  rw [hpayload] at hbytes
  have hmore3 := h3.arrived i
  have hrd3 : c3.rd i = c.rd i := (congrFun h3.rd i).trans hrd2
  -- the pointer has moved over the header and the payload
  have hmoved : c.rxRd i + BitVec.ofNat 16 8 + BitVec.ofNat 16 (ds k).payload.length
      = c3.rxRd i + BitVec.ofNat 16 (8 + (ds k).payload.length) := by
    unfold RxChip.rxRd
    rw [hrd3]
    apply BitVec.eq_of_toNat_eq
    simp only [BitVec.toNat_add, BitVec.toNat_ofNat]
    omega
  rw [hmoved, post_bind]
  refine (post_readBufRecv (by omega) fuel).mono ?_
  intro _ c4 h4
  refine post_pure.2 ⟨?_, (hat2.later h3).taken h4, ?_⟩
  · rw [hbytes]
    rfl
  · exact ((h1.trans h2).trans h3).onward.trans h4.onward

/-- The waiting datagram is seen, unless something arrives while the size is read. -/
theorem post_round_dgram {φ : Type} {w : World RxChip φ} {j : Fin nSockets}
    (hat : AtDatagram ds p i k w.chip) (hslot : (w.sockets j).isocket = i)
    (htype : (w.sockets j).type = .dgram) (fuel len : ℕ) (wantAddr : Bool) :
    Post (recvRound rxBoard fuel j len wantAddr)
      (fun r w' => World.Same w w' ∧
        match r with
        | some r => r = (ds k).received wantAddr ∧ AtDatagram ds p i (k + 1) w'.chip ∧
            Onward w.chip w'.chip
        | none => Later w.chip w'.chip ∧ ¬ (w.chip.Still i ∧ w.chip.rd i < w.chip.arrived i)) w := by
  unfold recvRound
  rw [post_bind, post_getSlot, htype, hslot]
  dsimp only
  rw [post_bind, post_onChip]
  refine (post_readBufLen_rx i).mono ?_
  rintro n c1 ⟨h0, hle, hexact⟩
  have h1 := w.chip.later_advance.trans h0
  have hrd1 : c1.rd i = w.chip.rd i := congrFun h1.rd i
  rw [post_ite]
  constructor
  · intro hn
    rw [post_bind, post_onChip]
    refine (post_recvDatagram (hat.later h1) (by omega) fuel wantAddr).mono ?_
    rintro r c2 ⟨rfl, hat2, hon⟩
    exact post_pure.2 ⟨⟨rfl, rfl, rfl⟩, rfl, hat2, h1.onward.trans hon⟩
  · intro hn
    refine post_pure.2 ⟨⟨rfl, rfl, rfl⟩, h1, ?_⟩
    rintro ⟨hstill, hlt⟩
    have hstill1 := w.chip.later_advance.still hstill
    have hsize := hexact (h0.arrived_of_still hstill1)
    have hmore := h1.arrived i
    have hwhole := hat.whole hlt
    omega

/-! ## Calls of `recvfrom` -/

/-- A datagram is waiting, and no other one arrives. -/
def RxChip.Ready (c : RxChip) (i : Fin nSockets) : Prop := c.Still i ∧ c.rd i < c.arrived i

/-- What is ready stays ready. -/
theorem RxChip.Later.ready (hl : Later c c') (h : c.Ready i) : c'.Ready i := by
  refine ⟨hl.still h.1, ?_⟩
  have hmore := hl.arrived i
  have hlt := h.2
  rw [hl.rd]
  omega

/-- A descriptor of a datagram socket that can receive, its slot and its socket of the chip. -/
structure DgramSocket {φ : Type} (w : World RxChip φ) (d : Fin openMax) (j i : Fin nSockets) :
    Prop where
  fileType : (w.files d).stat.fileType = .sock
  opaquePtr : (w.files d).opaquePtr = .slot j
  isocket : (w.sockets j).isocket = i
  type : (w.sockets j).type = .dgram
  state : (w.sockets j).state = .bound ∨ (w.sockets j).state = .created
  fdData : (w.sockets j).fdData ≠ none

/-- The socket is the same in worlds that are. -/
theorem DgramSocket.same {φ : Type} {w w' : World RxChip φ} {d : Fin openMax} {j : Fin nSockets}
    (h : DgramSocket w d j i) (hs : World.Same w w') : DgramSocket w' d j i where
  fileType := by
    rw [hs.files]
    exact h.fileType
  opaquePtr := by
    rw [hs.files]
    exact h.opaquePtr
  isocket := by
    rw [hs.sockets]
    exact h.isocket
  type := by
    rw [hs.sockets]
    exact h.type
  state := by
    rw [hs.sockets]
    exact h.state
  fdData := by
    rw [hs.sockets]
    exact h.fdData

section Calls

variable {φ : Type} {w : World RxChip φ} {j : Fin nSockets}

/-- The end of a wait reads the clock. -/
theorem later_timeoutEnded (tom : TimeoutManager) :
    Post (timeoutEnded rxBoard tom)
      (fun _ w' => World.Same w w' ∧ Later w.chip w'.chip) w := by
  cases tom with
  | none => exact post_pure.2 ⟨.refl, .refl _⟩
  | some tend =>
      show Post (onChip (clockGettime rxBoard) >>= _) _ w
      rw [post_bind, post_onChip]
      intro now c heq
      cases heq
      rw [post_ite]
      constructor
      · intro _
        exact post_fail.2 ⟨⟨rfl, rfl, rfl⟩, w.chip.later_advance⟩
      · intro _
        exact post_pure.2 ⟨⟨rfl, rfl, rfl⟩, w.chip.later_advance⟩

theorem later_timeoutUnless (nonblock : Bool) (timeout : Timespec) :
    Post (timeoutUnless rxBoard nonblock timeout)
      (fun _ w' => World.Same w w' ∧ Later w.chip w'.chip) w := by
  unfold timeoutUnless timeoutInit
  rw [post_ite, post_ite]
  refine ⟨fun _ => post_pure.2 ⟨.refl, .refl _⟩,
    fun _ => ⟨fun _ => ?_, fun _ => post_pure.2 ⟨.refl, .refl _⟩⟩⟩
  rw [post_bind, post_onChip]
  intro now c heq
  cases heq
  exact post_pure.2 ⟨⟨rfl, rfl, rfl⟩, w.chip.later_advance⟩

/-! ### What a call answers -/

/-- What a call does: it returns the `k`-th datagram, or fails and takes nothing.  It does
not fail when a datagram is waiting. -/
def Outcome (ds : ℕ → UdpDatagram) (p : ℕ) (i : Fin nSockets) (k : ℕ) (wantAddr : Bool)
    (w : World RxChip φ) (r : Received) (w' : World RxChip φ) : Prop :=
  World.Same w w' ∧
    (r = (ds k).received wantAddr ∧ AtDatagram ds p i (k + 1) w'.chip ∧
        Onward w.chip w'.chip ∨
      r = .empty (-1) ∧ AtDatagram ds p i k w'.chip ∧ ¬ w.chip.Ready i)

/-- The chip may have moved on before. -/
theorem Outcome.of_later {wantAddr : Bool} {w' w'' : World RxChip φ} {r : Received}
    (hs : World.Same w w') (hl : Later w.chip w'.chip) (h : Outcome ds p i k wantAddr w' r w'') :
    Outcome ds p i k wantAddr w r w'' := by
  obtain ⟨hs', ⟨hr, hat, hon⟩ | ⟨hr, hat, hnot⟩⟩ := h
  · exact ⟨hs.trans hs', .inl ⟨hr, hat, hl.onward.trans hon⟩⟩
  · exact ⟨hs.trans hs', .inr ⟨hr, hat, fun hready => hnot (hl.ready hready)⟩⟩

/-- **The wait for a datagram** ends with the next one, or without any. -/
theorem post_recvLoop_dgram (hat : AtDatagram ds p i k w.chip)
    (hslot : (w.sockets j).isocket = i) (htype : (w.sockets j).type = .dgram) (fuel len : ℕ)
    (wantAddr nonblock : Bool) (tom : TimeoutManager) :
    Post (recvLoop rxBoard fuel j len wantAddr nonblock tom)
      (fun r w' => Outcome ds p i k wantAddr w r w') w := by
  unfold recvLoop
  refine Post.iter (fun _ w' => World.Same w w' ∧ Later w.chip w'.chip) ?_ fuel ⟨.refl, .refl _⟩
  rintro _ w1 ⟨hs1, hl1⟩
  rw [post_bind]
  refine (post_round_dgram (hat.later hl1) (by rw [hs1.sockets]; exact hslot)
    (by rw [hs1.sockets]; exact htype) fuel len wantAddr).mono ?_
  rintro r w2 ⟨hs2, hr⟩
  cases r with
  | some r =>
      obtain ⟨hr, hat2, hon⟩ := hr
      exact post_pure.2 ⟨hs1.trans hs2, .inl ⟨hr, hat2, hl1.onward.trans hon⟩⟩
  | none =>
      obtain ⟨hl2, hnot⟩ := hr
      -- nothing was ready in this round, so nothing was ready at the begin
      have hnot' : ¬ w.chip.Ready i := fun hready => hnot (hl1.ready hready)
      have hl := hl1.trans hl2
      dsimp only
      rw [post_ite]
      constructor
      · intro _
        refine post_fail.2 ⟨⟨?_, ?_, ?_⟩, .inr ⟨rfl, hat.later hl, hnot'⟩⟩
        · exact (hs1.trans hs2).files
        · exact (hs1.trans hs2).sockets
        · exact (hs1.trans hs2).fat
      · intro _
        rw [post_bind]
        refine (later_timeoutEnded tom).mono ?_
        rintro ended w3 ⟨hs3, hl3⟩
        rw [post_ite]
        constructor
        · intro _
          exact post_pure.2 ⟨(hs1.trans hs2).trans hs3,
            .inr ⟨rfl, hat.later (hl.trans hl3), hnot'⟩⟩
        · intro _
          exact post_pure.2 ⟨(hs1.trans hs2).trans hs3, hl.trans hl3⟩

/-- **One call.** -/
theorem post_recvfrom_dgram {d : Fin openMax} (hd : DgramSocket w d j i)
    (hat : AtDatagram ds p i k w.chip) (fuel : ℕ) {len : ℕ} (hlen : 0 < len) (wantAddr : Bool) :
    Post (recvfrom rxBoard fuel (d.val : ℤ) len wantAddr)
      (fun r w' => Outcome ds p i k wantAddr w r w') w := by
  have hnotStream : ¬ ((w.sockets j).type = .stream ∧ (w.sockets j).state ≠ .accepted ∧
      (w.sockets j).state ≠ .connected) := by
    rintro ⟨h, -⟩
    rw [hd.type] at h
    cases h
  have hopen : ¬ ((w.sockets j).type = .dgram ∧ (w.sockets j).state ≠ .bound ∧
      (w.sockets j).state ≠ .created) := by
    rintro ⟨-, hb, hc⟩
    rcases hd.state with h | h
    · exact hb h
    · exact hc h
  unfold recvfrom
  rw [post_bind, post_getSocketFromFd_of_sock hd.fileType hd.opaquePtr]
  dsimp only
  rw [post_bind, post_getSlot, if_neg hnotStream, if_neg hopen, if_neg (by omega), post_bind]
  apply post_isNonblock
  intro d' _
  rw [post_bind]
  refine (later_timeoutUnless _ _).mono ?_
  rintro tom w1 ⟨hs1, hl1⟩
  have hd1 := hd.same hs1
  exact (post_recvLoop_dgram (hat.later hl1) hd1.isocket hd1.type fuel len wantAddr _ tom).mono
    fun r w' h => h.of_later hs1 hl1

end Calls

/-! ### Calls return -/

/-- Taking a datagram returns. -/
theorem returns_recvDatagram (hp : c.Prompt) (fuel : ℕ) (wantAddr : Bool) :
    Returns (recvDatagram rxBoard (fuel + 1) i wantAddr) c := by
  unfold recvDatagram
  apply Returns.bind (returns_readReg16 rxBoard regRXRD i c)
  refine (post_readBufPstart_rx i).mono ?_
  rintro pread c1 ⟨h1, -⟩
  apply Returns.bind (returns_readBufSure _ _ _ _ _)
  refine (later_readBufSure _ (by omega)).mono ?_
  rintro ⟨header, pread⟩ c2 ⟨h2, -, -⟩
  apply Returns.bind (returns_readBufSure _ _ _ _ _)
  refine (later_readBufSure _ (BitVec.isLt _)).mono ?_
  rintro ⟨bytes, pread⟩ c3 ⟨h3, -, -⟩
  apply Returns.bind (returns_readBufRecv (((h1.trans h2).trans h3).onward.prompt hp) fuel i _)
  intro _ _ _
  exact returns_pure

/-! ### A datagram that is seen -/

/-- The size of what waits is read as that of a header at least. -/
def RxChip.Seen (c : RxChip) (i : Fin nSockets) : Prop :=
  Post (readBufLen rxBoard i) (fun n _ => 8 ≤ n.toNat) c

/-- A datagram that is ready is seen. -/
theorem RxChip.Ready.seen (h : c.Ready i) (hat : AtDatagram ds p i k c) : c.Seen i := by
  refine (post_readBufLen_rx i).mono ?_
  rintro n c1 ⟨h1, -, hexact⟩
  have hsize := hexact (h1.arrived_of_still (c.later_advance.still h.1))
  have hmore := (c.later_advance.trans h1).arrived i
  have hwhole := hat.whole h.2
  omega

section Calls

variable {φ : Type} {w : World RxChip φ} {j : Fin nSockets}

/-- A round on a datagram socket. -/
theorem recvRound_dgram (hslot : (w.sockets j).isocket = i) (htype : (w.sockets j).type = .dgram)
    (fuel len : ℕ) (wantAddr : Bool) :
    recvRound rxBoard fuel j len wantAddr w = (do
      let toread ← onChip (readBufLen rxBoard i)
      if toread.toNat ≥ 8 then
        let r ← onChip (recvDatagram rxBoard fuel i wantAddr)
        pure (some r)
      else pure none : Sys RxChip φ (Option Received)) w := by
  unfold recvRound
  rw [bind_eq, show getSlot j w = .ok (w.sockets j, w) from rfl]
  dsimp only
  rw [htype, hslot]

/-- A round that sees a datagram takes it. -/
theorem some_of_seen (hseen : w.chip.Seen i) (hslot : (w.sockets j).isocket = i)
    (htype : (w.sockets j).type = .dgram) (fuel len : ℕ) (wantAddr : Bool) :
    Post (recvRound rxBoard fuel j len wantAddr) (fun r _ => r.isSome) w := by
  intro r w' heq
  rw [recvRound_dgram hslot htype] at heq
  revert r w'
  show Post _ (fun (r : Option Received) _ => r.isSome = true) w
  rw [post_bind, post_onChip]
  refine hseen.mono ?_
  intro n c1 hn
  rw [post_ite]
  refine ⟨fun _ => ?_, fun hlt => absurd hn hlt⟩
  rw [post_bind]
  intro r w' _
  exact post_pure.2 rfl

theorem returns_round_dgram (hp : w.chip.Prompt) (hslot : (w.sockets j).isocket = i)
    (htype : (w.sockets j).type = .dgram) (fuel len : ℕ) (wantAddr : Bool) :
    Returns (recvRound rxBoard (fuel + 1) j len wantAddr) w := by
  have hsize : Returns (onChip (φ := φ) (readBufLen rxBoard i)) w :=
    Returns.focus (returns_readReg16 rxBoard regRXRSR i w.chip)
  unfold Returns
  rw [recvRound_dgram hslot htype]
  apply Returns.bind hsize
  rw [post_onChip]
  refine (post_readBufLen_rx i).mono ?_
  rintro n c1 ⟨h0, -, -⟩
  have h1 := w.chip.later_advance.trans h0
  apply Returns.ite
  · intro _
    apply Returns.bind (Returns.focus (returns_recvDatagram (h1.onward.prompt hp) fuel wantAddr))
    intro _ _ _
    exact returns_pure
  · intro _
    exact returns_pure

/-- A round that sees a datagram ends the loop. -/
theorem returns_recvLoop_dgram (hp : w.chip.Prompt) (hseen : w.chip.Seen i)
    (hslot : (w.sockets j).isocket = i) (htype : (w.sockets j).type = .dgram) (fuel len : ℕ)
    (wantAddr nonblock : Bool) (tom : TimeoutManager) :
    Returns (recvLoop rxBoard (fuel + 1) j len wantAddr nonblock tom) w := by
  have hsome := some_of_seen hseen hslot htype (fuel + 1) len wantAddr
  unfold recvLoop
  apply Returns.iter_of_inr
  · apply Returns.bind (returns_round_dgram hp hslot htype fuel len wantAddr)
    refine hsome.mono ?_
    intro r w1 hr
    obtain ⟨r, rfl⟩ := Option.isSome_iff_exists.1 hr
    exact returns_pure
  · rw [post_bind]
    refine hsome.mono ?_
    intro r w1 hr
    obtain ⟨r, rfl⟩ := Option.isSome_iff_exists.1 hr
    exact post_pure.2 ⟨r, rfl⟩

/-- Reading the clock returns. -/
theorem returns_timeoutUnless (nonblock : Bool) (timeout : Timespec) :
    Returns (timeoutUnless rxBoard nonblock timeout) w := by
  unfold timeoutUnless timeoutInit
  apply Returns.ite
  · intro _
    exact returns_pure
  · intro _
    apply Returns.ite
    · intro _
      exact Returns.bind (Returns.focus ⟨_, _, rfl⟩) fun _ _ _ => returns_pure
    · intro _
      exact returns_pure

/-- A call returns if it sees a datagram in its first round. -/
theorem returns_recvfrom_dgram {d : Fin openMax} (hd : DgramSocket w d j i) (hp : w.chip.Prompt)
    (hseen : ∀ c, Later w.chip c → c.Seen i) (fuel len : ℕ) (wantAddr : Bool) :
    Returns (recvfrom rxBoard (fuel + 1) (d.val : ℤ) len wantAddr) w := by
  obtain ⟨d', hd'⟩ := Option.ne_none_iff_exists'.1 hd.fdData
  unfold recvfrom
  apply Returns.bind ⟨_, _, getSocketFromFd_of_sock hd.fileType hd.opaquePtr⟩
  rw [post_getSocketFromFd_of_sock hd.fileType hd.opaquePtr]
  dsimp only
  apply Returns.bind ⟨_, _, rfl⟩
  rw [post_getSlot]
  apply Returns.ite
  · intro _
    exact ⟨_, _, rfl⟩
  intro _
  apply Returns.ite
  · intro _
    exact ⟨_, _, rfl⟩
  intro _
  apply Returns.ite
  · intro _
    exact returns_pure
  intro _
  apply Returns.bind ⟨_, _, isNonblock_of_fdData hd'⟩
  apply post_isNonblock
  intro d'' _
  apply Returns.bind (returns_timeoutUnless _ _)
  refine (later_timeoutUnless _ _).mono ?_
  rintro tom w1 ⟨hs1, hl1⟩
  have hd1 := hd.same hs1
  exact returns_recvLoop_dgram (hl1.onward.prompt hp) (hseen _ hl1) hd1.isocket hd1.type fuel len
    wantAddr _ tom

end Calls

/-! ## Runs -/

section Runs

variable {χ φ : Type}

/-- Calls of `recvfrom` on one descriptor, each with its length and with `wantAddr`. -/
def recvfromRun (B : Board χ) (fuel : ℕ) (sockfd : ℤ) :
    List (ℕ × Bool) → Sys χ φ (List Received)
  | [] => pure []
  | call :: calls => do
      let r ← recvfrom B fuel sockfd call.1 call.2
      let rs ← recvfromRun B fuel sockfd calls
      pure (r :: rs)

/-! ### What a run delivers -/

/-- The results of calls are failures and, from the `k`-th one on, the datagrams in order; `k'`
is the next datagram after them. -/
inductive Delivered (ds : ℕ → UdpDatagram) :
    ℕ → List (ℕ × Bool) → List Received → ℕ → Prop
  | nil (k : ℕ) : Delivered ds k [] [] k
  | failed {k k' : ℕ} {calls : List (ℕ × Bool)} {rs : List Received} (call : ℕ × Bool) :
      Delivered ds k calls rs k' → Delivered ds k (call :: calls) (.empty (-1) :: rs) k'
  | got {k k' : ℕ} {calls : List (ℕ × Bool)} {rs : List Received} (call : ℕ × Bool) :
      Delivered ds (k + 1) calls rs k' →
        Delivered ds k (call :: calls) ((ds k).received call.2 :: rs) k'

/-- The datagrams from the `k`-th one on, one for each call. -/
def receivedFrom (ds : ℕ → UdpDatagram) : ℕ → List (ℕ × Bool) → List Received
  | _, [] => []
  | k, call :: calls => (ds k).received call.2 :: receivedFrom ds (k + 1) calls

variable {w : World RxChip φ} {d : Fin openMax} {j : Fin nSockets}

/-- Every call of a run takes the next datagram or none. -/
theorem post_recvfromRun (hd : DgramSocket w d j i) (hat : AtDatagram ds p i k w.chip) (fuel : ℕ)
    {calls : List (ℕ × Bool)} (hcalls : ∀ call ∈ calls, 0 < call.1) :
    Post (recvfromRun rxBoard fuel (d.val : ℤ) calls)
      (fun rs w' => ∃ k', Delivered ds k calls rs k' ∧ AtDatagram ds p i k' w'.chip) w := by
  induction calls generalizing k w with
  | nil => exact post_pure.2 ⟨k, .nil k, hat⟩
  | cons call calls ih =>
      unfold recvfromRun
      rw [post_bind]
      refine (post_recvfrom_dgram hd hat fuel (hcalls call List.mem_cons_self) call.2).mono ?_
      rintro r w1 ⟨hs, h⟩
      have hrest : ∀ call ∈ calls, 0 < call.1 := fun c hc => hcalls c (List.mem_cons_of_mem _ hc)
      rw [post_bind]
      rcases h with ⟨rfl, hat1, -⟩ | ⟨rfl, hat1, -⟩
      · refine (ih (hd.same hs) hat1 hrest).mono ?_
        rintro rs w2 ⟨k', hdel, hat2⟩
        exact post_pure.2 ⟨k', .got call hdel, hat2⟩
      · refine (ih (hd.same hs) hat1 hrest).mono ?_
        rintro rs w2 ⟨k', hdel, hat2⟩
        exact post_pure.2 ⟨k', .failed call hdel, hat2⟩

/-- As long as datagrams wait, every call returns the next one. -/
theorem recvfromRun_of_waiting (hd : DgramSocket w d j i) (hat : AtDatagram ds p i k w.chip)
    (fuel : ℕ) {calls : List (ℕ × Bool)} (hcalls : ∀ call ∈ calls, 0 < call.1)
    (hstill : w.chip.Still i) (hp : w.chip.Prompt)
    (hwait : startOf ds p (k + calls.length) ≤ w.chip.arrived i) :
    ∃ w', recvfromRun rxBoard (fuel + 1) (d.val : ℤ) calls w
        = .ok (receivedFrom ds k calls, w') ∧
      AtDatagram ds p i (k + calls.length) w'.chip := by
  -- induction on the calls; the ring is at the next datagram behind each
  induction calls generalizing k w with
  | nil => exact ⟨w, rfl, hat⟩
  | cons call calls ih =>
      have hlt : w.chip.rd i < w.chip.arrived i := by
        have hnext : startOf ds p (k + 1) ≤ startOf ds p (k + (call :: calls).length) :=
          startOf_le (by rw [List.length_cons]; omega)
        have hstep : startOf ds p (k + 1) = startOf ds p k + (8 + (ds k).payload.length) := rfl
        rw [hat.rd]
        omega
      have hready : w.chip.Ready i := ⟨hstill, hlt⟩
      have hret := returns_recvfrom_dgram hd hp
        (fun c hl => (hl.ready hready).seen (hat.later hl)) fuel call.1 call.2
      obtain ⟨r, w1, heq⟩ := hret
      have hpost := post_recvfrom_dgram hd hat (fuel + 1) (hcalls call List.mem_cons_self) call.2
      obtain ⟨hs, ⟨rfl, hat1, hon⟩ | ⟨-, -, hnot⟩⟩ := hpost r w1 heq
      swap
      · exact absurd hready hnot
      have hstill1 : w1.chip.Still i := by
        intro t
        rw [hon.ticks]
        exact (hstill t).trans (hon.arrived i)
      have hshift : k + 1 + calls.length = k + (call :: calls).length := by
        rw [List.length_cons]
        omega
      have hwait1 : startOf ds p (k + 1 + calls.length) ≤ w1.chip.arrived i := by
        rw [hshift]
        exact hwait.trans (hon.arrived i)
      obtain ⟨w2, heq2, hat2⟩ := ih (hd.same hs) hat1
        (fun c hc => hcalls c (List.mem_cons_of_mem _ hc)) hstill1 (hon.prompt hp) hwait1
      refine ⟨w2, ?_, hshift ▸ hat2⟩
      unfold recvfromRun
      rw [bind_eq, heq]
      dsimp only
      rw [bind_eq, heq2]
      rfl

/-- **Datagrams keep their boundaries.**  Calls of `recvfrom` with room for a byte at least
return the datagrams in the order in which they lie in the ring, each with its own source,
and the read pointer moves by just their sizes; a call that fails takes nothing.  When as
many datagrams wait as there are calls, and no other arrives, every call returns one. -/
theorem datagrams_in_order (hd : DgramSocket w d j i) (hat : AtDatagram ds p i 0 w.chip)
    (fuel : ℕ) (calls : List (ℕ × Bool)) (hcalls : ∀ call ∈ calls, 0 < call.1) :
    Post (recvfromRun rxBoard (fuel + 1) (d.val : ℤ) calls)
      (fun rs w' => ∃ k, Delivered ds 0 calls rs k ∧ w'.chip.rd i = startOf ds p k ∧
        w'.chip.rxRd i = BitVec.ofNat 16 (startOf ds p k)) w ∧
    (w.chip.Still i → w.chip.Prompt → startOf ds p calls.length ≤ w.chip.arrived i →
      ∃ w', recvfromRun rxBoard (fuel + 1) (d.val : ℤ) calls w
          = .ok (receivedFrom ds 0 calls, w') ∧
        w'.chip.rd i = startOf ds p calls.length ∧
        w'.chip.rxRd i = BitVec.ofNat 16 (startOf ds p calls.length)) := by
  constructor
  · refine (post_recvfromRun hd hat (fuel + 1) hcalls).mono ?_
    rintro rs w' ⟨k, hdel, hat'⟩
    exact ⟨k, hdel, hat'.rd, congrArg (BitVec.ofNat 16) hat'.rd⟩
  · intro hstill hp hwait
    obtain ⟨w', heq, hat'⟩ := recvfromRun_of_waiting hd hat fuel hcalls hstill hp
      (by rw [Nat.zero_add]; exact hwait)
    rw [Nat.zero_add] at hat'
    exact ⟨w', heq, hat'.rd, congrArg (BitVec.ofNat 16) hat'.rd⟩

end Runs

/-! ### Two datagrams around the end of the ring, and an empty one -/

/-- The same datagram again and again, from the position `p` on. -/
def repeated (d : UdpDatagram) (p q : ℕ) : Byte := d.bytes.getD ((q - p) % d.bytes.length) 0

/-- Equal datagrams start at equal distances. -/
theorem startOf_const (d : UdpDatagram) (p k : ℕ) :
    startOf (fun _ => d) p k = p + k * d.bytes.length := by
  induction k with
  | zero =>
      show p = p + 0 * _
      omega
  | succ k ih =>
      show startOf (fun _ => d) p k + (8 + d.payload.length) = _
      rw [ih, ← d.length_bytes, Nat.add_mul]
      omega

/-- They lie in the memory one behind the other. -/
theorem laid_repeated (d : UdpDatagram) (p k : ℕ) :
    Memory.read (repeated d p) (startOf (fun _ => d) p k) (8 + d.payload.length) = d.bytes := by
  have hread : Memory.read (fun j => d.bytes.getD j 0) 0 (8 + d.payload.length) = d.bytes := by
    rw [Memory.read_getD _ _ (by rw [d.length_bytes]; omega), List.drop_zero,
      ← d.length_bytes, List.take_length]
  conv_rhs => rw [← hread]
  unfold Memory.read
  apply List.map_congr_left
  intro j hj
  have hlt := List.mem_range.1 hj
  rw [← d.length_bytes] at hlt
  unfold repeated
  rw [startOf_const, show p + k * d.bytes.length + j - p = j + k * d.bytes.length by omega,
    Nat.add_mul_mod_self_right, Nat.mod_eq_of_lt hlt, Nat.zero_add]

/-- Two bytes from 192.168.1.1, and no byte at all. -/
def pairDatagram : UdpDatagram := ⟨0x0101A8C0, 0x3500, [1, 2], by decide⟩
/-- A datagram without data. -/
def emptyDatagram : UdpDatagram := ⟨0x0101A8C0, 0x3500, [], by decide⟩

/-! ### The chip of the examples -/

/-- Three bytes before the end of the ring and of the 16-bit pointer. -/
def exampleStart : ℕ := 0xFFFD

/-- A chip with two copies of the datagram in the ring of socket 0. -/
def exampleRxChip (d : UdpDatagram) (h : d.bytes.length ≤ 1024) : RxChip where
  incoming _ := repeated d exampleStart
  rd _ := exampleStart
  arrived _ := exampleStart + 2 * d.bytes.length
  written _ := 0
  ticks _ := ⟨fun _ => exampleStart, 0, sockUdp, timespecZero⟩
  now := 0
  rd_le _ := Nat.le_add_right _ _
  room _ := by omega

/-- The world with the descriptor 3 for a datagram socket on socket 0 of that chip. -/
def exampleRxWorld (d : UdpDatagram) (h : d.bytes.length ≤ 1024) : World RxChip Unit where
  files n := if n = 3 then
      { Fd.zero with
        fd := 3, isallocated := true, isopen := true, opaquePtr := .slot 0,
        stat := ⟨.sock, 0o777, 0, 1024⟩, statusFlags := oRdwr }
    else .zero
  sockets i :=
    { fd := if i = 0 then 3 else socketFreeFd, isocket := i, domain := .inet, type := .dgram,
      protocol := 0, state := if i = 0 then .bound else .none,
      sockname := ⟨.inet, 0, 0⟩, destAddress := ⟨.unspec, 0, 0⟩, canBroadcast := false,
      recvTimeout := timespecZero, sendTimeout := timespecZero,
      fdData := if i = 0 then some 3 else none, connectionData := none }
  errno := none
  chip := exampleRxChip d h
  fat := ()

/-- The socket of the examples. -/
theorem dgramSocket_exampleRxWorld (d : UdpDatagram) (h : d.bytes.length ≤ 1024) :
    DgramSocket (exampleRxWorld d h) 3 0 0 where
  fileType := rfl
  opaquePtr := rfl
  isocket := rfl
  type := rfl
  state := .inl rfl
  fdData := by
    intro h
    cases h

/-- It starts at the first datagram. -/
theorem atDatagram_exampleRxChip (d : UdpDatagram) (h : d.bytes.length ≤ 1024) (i : Fin nSockets) :
    AtDatagram (fun _ => d) exampleStart i 0 (exampleRxChip d h) where
  laid := by
    intro k
    have hincoming : (exampleRxChip d h).incoming i = repeated d exampleStart := by
      unfold exampleRxChip
      dsimp only
    rw [hincoming]
    exact laid_repeated d exampleStart k
  arrived := by
    refine ⟨2, ?_⟩
    rw [startOf_const]
    rfl
  upto := by
    intro t
    refine ⟨0, ?_⟩
    rw [startOf_const, Nat.zero_mul]
    rfl
  rd := by
    rw [startOf_const, Nat.zero_mul]
    rfl

theorem still_exampleRxChip (d : UdpDatagram) (h : d.bytes.length ≤ 1024) (i : Fin nSockets) :
    (exampleRxChip d h).Still i := fun _ => Nat.le_add_right _ _

/-- Two calls return the two datagrams. -/
theorem datagrams_in_order_pair : ∃ w',
    recvfromRun rxBoard 1 3 [(2, true), (100, false)] (exampleRxWorld pairDatagram (by decide))
      = .ok ([pairDatagram.received true, pairDatagram.received false], w') ∧
    w'.chip.rd 0 = exampleStart + 20 := by
  have hlen : pairDatagram.bytes.length ≤ 1024 := by decide
  have h := (datagrams_in_order (dgramSocket_exampleRxWorld pairDatagram hlen)
    (atDatagram_exampleRxChip pairDatagram hlen 0) 0 [(2, true), (100, false)]
    (by decide)).2 (still_exampleRxChip _ hlen 0) (fun _ => rfl) (startOf_const pairDatagram _ 2).le
  obtain ⟨w', heq, hrd, -⟩ := h
  exact ⟨w', heq, hrd.trans (startOf_const pairDatagram _ 2)⟩

/-- A call with a buffer of no bytes returns 0 and leaves an empty datagram in the ring, although
the buffer holds its payload. -/
theorem empty_datagram_stays :
    ∃ (h : emptyDatagram.bytes.length ≤ 1024) (w' : World RxChip Unit),
      DgramSocket (exampleRxWorld emptyDatagram h) 3 0 0 ∧
      AtDatagram (fun _ => emptyDatagram) exampleStart 0 0 (exampleRxWorld emptyDatagram h).chip ∧
      (exampleRxWorld emptyDatagram h).chip.Ready 0 ∧ emptyDatagram.payload.length ≤ 0 ∧
      recvfrom rxBoard 1 3 0 true (exampleRxWorld emptyDatagram h) = .ok (.empty 0, w') ∧
      Received.empty 0 ≠ emptyDatagram.received true ∧
      w'.chip.rd 0 ≠ startOf (fun _ => emptyDatagram) exampleStart 1 := by
  have h : emptyDatagram.bytes.length ≤ 1024 := by decide
  refine ⟨h, exampleRxWorld emptyDatagram h, dgramSocket_exampleRxWorld _ h,
    atDatagram_exampleRxChip _ h 0, ⟨still_exampleRxChip _ h 0, ?_⟩, le_rfl, rfl, ?_, ?_⟩
  · show exampleStart < exampleStart + 2 * emptyDatagram.bytes.length
    rw [emptyDatagram.length_bytes]
    omega
  · decide
  · rw [startOf_const, emptyDatagram.length_bytes]
    show exampleStart ≠ exampleStart + 1 * (8 + 0)
    omega

end Datagrams

end W5100

end Nucleo
