/-
# Access to the W5100

The chip is reached one byte at a time over SPI (`w5100_spi.c`).  Nothing is assumed
about what it answers: a `Board` gives the answer to a read transaction, the effect of
a write transaction, a reading of `CLOCK_MONOTONIC` and the state of the serial line of
the console, each as a function of a state of its own, so that registers may change
between any two transactions.

Above the transactions stand the functions of `w5100_socket.c` that use nothing but
the chip: `w5100_command`, `read_buf`, `write_buf` and the functions they are made of.
The loops that wait for a register are bounded by `fuel`; a computation that is still
waiting then has not returned (`Stop.waiting`).
-/
import Nucleo.Lib.Comp
import Nucleo.Inet

namespace Nucleo

namespace W5100

/-- Why a computation has not returned. -/
inductive Stop
  /-- It is still in a loop that waits for the chip. -/
  | waiting
  /-- It dereferenced a null pointer. -/
  | nullDeref
  /-- It used an index outside the descriptor table. -/
  | outOfBounds
  /-- It read an object through a pointer of another kind. -/
  | wrongObject
  /-- It stored behind the end of an object. -/
  | overrun
  deriving DecidableEq, Repr

/-- What the program sees of the chip, of the clock and of the serial line. -/
structure Board (χ : Type) where
  read : ℕ → χ → Byte × χ
  write : ℕ → Byte → χ → χ
  clockGettime : χ → Timespec × χ
  usartReady : χ → Bool × χ
  usartRecv : χ → Byte × χ
  usartSend : Byte → χ → χ

/-! ## Constants of `w5100.h` -/

/-- The number of sockets. -/
def nSockets : ℕ := 4

instance : NeZero nSockets := ⟨by decide⟩

/-- The room for the registers of a socket. -/
def socketRegsSize : ℕ := 0x0100
/-- Where the registers of socket 0 are. -/
def s0RegsOffset : ℕ := 0x0400
/-- Where the transmit memory is. -/
def txMemBase : ℕ := 0x4000
/-- Where the receive memory is. -/
def rxMemBase : ℕ := 0x6000

/-- `Sn_MR`, the mode. -/
def regMR : ℕ := 0x0000
/-- `Sn_CR`, the command. -/
def regCR : ℕ := 0x0001
/-- `Sn_SR`, the status. -/
def regSR : ℕ := 0x0003
/-- `Sn_PORT`, the port. -/
def regPORT : ℕ := 0x0004
/-- `Sn_DIPR`, the address of the peer. -/
def regDIPR : ℕ := 0x000C
/-- `Sn_DPORT`, the port of the peer. -/
def regDPORT : ℕ := 0x0010
/-- `Sn_TX_FSR`, the free size. -/
def regTXFSR : ℕ := 0x0020
/-- `Sn_TX_WR`, the write pointer. -/
def regTXWR : ℕ := 0x0024
/-- `Sn_RX_RSR`, the received size. -/
def regRXRSR : ℕ := 0x0026
/-- `Sn_RX_RD`, the read pointer. -/
def regRXRD : ℕ := 0x0028

/-- The command `OPEN`. -/
def cmdOpen : Byte := 0x01
/-- The command `LISTEN`. -/
def cmdListen : Byte := 0x02
/-- The command `CONNECT`. -/
def cmdConnect : Byte := 0x04
/-- The command `DISCON`. -/
def cmdDiscon : Byte := 0x08
/-- The command `CLOSE`. -/
def cmdClose : Byte := 0x10
/-- The command `SEND`. -/
def cmdSend : Byte := 0x20
/-- The command `RECV`. -/
def cmdRecv : Byte := 0x40

/-- The status of a closed socket. -/
def sockClosed : Byte := 0x00
/-- The status of an open stream socket. -/
def sockInit : Byte := 0x13
/-- The status of a listening socket. -/
def sockListen : Byte := 0x14
/-- The status of a connection. -/
def sockEstablished : Byte := 0x17
/-- The status of a connection that the peer has closed. -/
def sockCloseWait : Byte := 0x1C
/-- The status of an open datagram socket. -/
def sockUdp : Byte := 0x22

/-- The mode of a stream socket. -/
def sockModeTcp : Byte := 0x01
/-- The mode of a datagram socket. -/
def sockModeUdp : Byte := 0x02
/-- The mode of a raw socket. -/
def sockModeIpraw : Byte := 0x03

/-- `w5100_sock_reg_get`. -/
def sockRegGet (snReg : ℕ) (socket : Fin nSockets) : ℕ :=
  s0RegsOffset + snReg + socket * socketRegsSize

/-- The registers of the sockets are below the memory. -/
theorem sockRegGet_lt (i : Fin nSockets) {r : ℕ} (hr : r < socketRegsSize) :
    sockRegGet r i < 2048 := by
  have hi : i.val < 4 := i.isLt
  have hr' : r < 256 := hr
  show 1024 + r + i.val * 256 < 2048
  omega

/-- The registers of the sockets are below the end of the address space. -/
theorem sockRegGet_mod {r : ℕ} (k : Fin nSockets) (hr : r < socketRegsSize) :
    sockRegGet r k % 2 ^ 16 = sockRegGet r k := by
  have hlt := sockRegGet_lt k hr
  exact Nat.mod_eq_of_lt (by omega)

section Access

variable {χ : Type} (B : Board χ) (fuel : ℕ)

/-! ## Transactions -/

/-- `w5100_read_byte`, which is also `w5100_read_reg`; addresses are 16 bits wide. -/
def readByte (reg : ℕ) : Comp χ Stop Byte := fun c => .ok (B.read (reg % 2 ^ 16) c)

/-- `w5100_write_byte`, which is also `w5100_write_reg`. -/
def writeByte (reg : ℕ) (val : Byte) : Comp χ Stop Unit :=
  fun c => .ok ((), B.write (reg % 2 ^ 16) val c)

/-- `w5100_read_mem`. -/
def readMem (addr : ℕ) : ℕ → Comp χ Stop (List Byte)
  | 0 => pure []
  | n + 1 => do
      let b ← readByte B addr
      let bs ← readMem (addr + 1) n
      pure (b :: bs)

/-- `w5100_write_mem`. -/
def writeMem (addr : ℕ) : List Byte → Comp χ Stop Unit
  | [] => pure ()
  | b :: bs => do
      writeByte B addr b
      writeMem (addr + 1) bs

/-- `w5100_read_sock_reg`. -/
def readSockReg (snReg : ℕ) (socket : Fin nSockets) : Comp χ Stop Byte :=
  readByte B (sockRegGet snReg socket)

/-- `w5100_write_sock_reg`. -/
def writeSockReg (snReg : ℕ) (socket : Fin nSockets) (val : Byte) : Comp χ Stop Unit :=
  writeByte B (sockRegGet snReg socket) val

/-- `w5100_read_sock_regx` of a two-byte register into a half word. -/
def readSockReg16 (snReg : ℕ) (socket : Fin nSockets) : Comp χ Stop (BitVec 16) := do
  let bs ← readMem B (sockRegGet snReg socket) 2
  pure (word16 (bs.getD 0 0) (bs.getD 1 0))

/-- `w5100_read_sock_regx` of a four-byte register into a word. -/
def readSockReg32 (snReg : ℕ) (socket : Fin nSockets) : Comp χ Stop (BitVec 32) := do
  let bs ← readMem B (sockRegGet snReg socket) 4
  pure (load32 (fun k => bs.getD k 0) 0)

/-- `w5100_write_sock_regx` of a two-byte register. -/
def writeSockReg16 (snReg : ℕ) (socket : Fin nSockets) (val : BitVec 16) : Comp χ Stop Unit :=
  writeMem B (sockRegGet snReg socket) (bytes16 val)

/-- `w5100_write_sock_regx` of a four-byte register. -/
def writeSockReg32 (snReg : ℕ) (socket : Fin nSockets) (val : BitVec 32) : Comp χ Stop Unit :=
  writeMem B (sockRegGet snReg socket) (bytes32 val)

/-- `clock_gettime(CLOCK_MONOTONIC, ...)`. -/
def clockGettime : Comp χ Stop Timespec := fun c => .ok (B.clockGettime c)

/-! ## Waiting -/

/-- `do { v = w5100_read_sock_reg(...); } while (...)`: read a register until its value
satisfies `stop`. -/
def readUntil (snReg : ℕ) (socket : Fin nSockets) (stop : Byte → Bool) : Comp χ Stop Byte :=
  Comp.iter Stop.waiting (fun _ : Unit => do
    let v ← readSockReg B snReg socket
    pure (if stop v then .inr v else .inl ())) fuel ()

/-- `w5100_command`. -/
def command (isocket : Fin nSockets) (cmd : Byte) : Comp χ Stop Unit := do
  writeSockReg B regCR isocket cmd
  let _ ← readUntil B fuel regCR isocket (fun v => v = 0)
  pure ()

/-- The two states in which a wait for `LISTEN` ends. -/
def isListenOrEstablished (sr : Byte) : Bool := sr = sockListen ∨ sr = sockEstablished

/-! ## The receive ring -/

/-- `get_rx_size`. -/
def getRxSize (_isocket : Fin nSockets) : ℕ := 0x800

/-- `get_rx_mask`. -/
def getRxMask (isocket : Fin nSockets) : BitVec 16 := BitVec.ofNat 16 (getRxSize isocket - 1)

/-- `get_rx_base`. -/
def getRxBase (isocket : Fin nSockets) : ℕ := rxMemBase + getRxSize isocket * isocket

/-- `read_buf_len`. -/
def readBufLen (isocket : Fin nSockets) : Comp χ Stop (BitVec 16) := do
  let toread ← readSockReg16 B regRXRSR isocket
  pure (htons toread)

/-- `read_buf_pstart`. -/
def readBufPstart (isocket : Fin nSockets) : Comp χ Stop (BitVec 16) := do
  let pread ← readSockReg16 B regRXRD isocket
  pure (htons pread)

/-- `read_buf_recv`. -/
def readBufRecv (isocket : Fin nSockets) (pstop : BitVec 16) : Comp χ Stop Unit := do
  writeSockReg16 B regRXRD isocket (htons pstop)
  command B fuel isocket cmdRecv

/-- The sizes of the two pieces in which `len` bytes from `offset` on lie in a ring of
`size` bytes: `toread1` and `toread2`, also `towrite1` and `towrite2`.  The sum is taken
in `size_t`, the pieces are `uint16_t`. -/
def pieces (offset size len : ℕ) : ℕ × ℕ :=
  if (offset + len) % 2 ^ 32 > size then (size - offset, (len - (size - offset)) % 2 ^ 16)
  else (len % 2 ^ 16, 0)

/-- `read_buf_sure`: the bytes stored in the buffer and the pointer after them. -/
def readBufSure (isocket : Fin nSockets) (len : ℕ) (pread : BitVec 16) :
    Comp χ Stop (List Byte × BitVec 16) := do
  let offset := (pread &&& getRxMask isocket).toNat
  let phys := getRxBase isocket + offset
  let (toread1, toread2) := pieces offset (getRxSize isocket) len
  let bytes1 ← if toread1 > 0 then readMem B phys toread1 else pure []
  let bytes2 ← if toread2 > 0 then readMem B (getRxBase isocket) toread2 else pure []
  pure (bytes1 ++ bytes2, pread + BitVec.ofNat 16 len)

/-- `read_buf`: the bytes stored in the buffer; the source returns their number. -/
def readBuf (isocket : Fin nSockets) (len : ℕ) : Comp χ Stop (List Byte × ℕ) := do
  let toread ← readBufLen B isocket
  if toread ≠ 0 then
    let len := if len > toread.toNat then toread.toNat else len
    let pread ← readBufPstart B isocket
    let (bytes, pread) ← readBufSure B isocket len pread
    readBufRecv B fuel isocket pread
    pure (bytes, len % 2 ^ 16)
  else
    pure ([], 0)

/-! ## The transmit ring -/

/-- `get_tx_size`. -/
def getTxSize (_isocket : Fin nSockets) : ℕ := 0x800

/-- `get_tx_mask`. -/
def getTxMask (isocket : Fin nSockets) : BitVec 16 := BitVec.ofNat 16 (getTxSize isocket - 1)

/-- `get_tx_base`. -/
def getTxBase (isocket : Fin nSockets) : ℕ := txMemBase + getTxSize isocket * isocket

/-- `write_buf_len`. -/
def writeBufLen (isocket : Fin nSockets) : Comp χ Stop (BitVec 16) := do
  let nfree ← readSockReg16 B regTXFSR isocket
  pure (htons nfree)

/-- `write_buf_pstart`. -/
def writeBufPstart (isocket : Fin nSockets) : Comp χ Stop (BitVec 16) := do
  let pwrite ← readSockReg16 B regTXWR isocket
  pure (htons pwrite)

/-- `write_buf_send`. -/
def writeBufSend (isocket : Fin nSockets) (pstop : BitVec 16) : Comp χ Stop Unit := do
  writeSockReg16 B regTXWR isocket (htons pstop)
  command B fuel isocket cmdSend

/-- `write_buf_sure` of all the bytes of `buf`: the pointer after them. -/
def writeBufSure (isocket : Fin nSockets) (buf : List Byte) (pwrite : BitVec 16) :
    Comp χ Stop (BitVec 16) := do
  let offset := (pwrite &&& getTxMask isocket).toNat
  let phys := offset + getTxBase isocket
  let (towrite1, towrite2) := pieces offset (getTxSize isocket) buf.length
  if towrite1 > 0 then writeMem B phys (buf.take towrite1)
  if towrite2 > 0 then writeMem B (getTxBase isocket) ((buf.drop towrite1).take towrite2)
  pure (pwrite + BitVec.ofNat 16 buf.length)

/-- `write_buf` of as many bytes of `buf` as there is room for: their number. -/
def writeBuf (isocket : Fin nSockets) (buf : List Byte) : Comp χ Stop ℕ := do
  let nfree ← writeBufLen B isocket
  if nfree.toNat > 0 then
    let len := if buf.length > nfree.toNat then nfree.toNat else buf.length
    let pwrite ← writeBufPstart B isocket
    let pwrite ← writeBufSure B isocket (buf.take len) pwrite
    writeBufSend B fuel isocket pwrite
    pure (len % 2 ^ 16)
  else
    pure 0

/-! ## The copies

An empty piece is no transaction at all, so the tests for empty pieces change nothing.
-/

/-- Reading memory returns. -/
theorem returns_readMem (addr n : ℕ) (c : χ) : Comp.Returns (readMem B addr n) c := by
  induction n generalizing addr c with
  | zero => exact Comp.returns_pure
  | succ n ih =>
      apply Comp.Returns.bind ⟨_, _, rfl⟩
      intro b c' _
      apply Comp.Returns.bind (ih _ _)
      intro bs c'' _
      exact Comp.returns_pure

/-- Writing memory returns. -/
theorem returns_writeMem (addr : ℕ) (l : List Byte) (c : χ) :
    Comp.Returns (writeMem B addr l) c := by
  induction l generalizing addr c with
  | nil => exact Comp.returns_pure
  | cons b l ih =>
      apply Comp.Returns.bind ⟨_, _, rfl⟩
      intro _ c' _
      exact ih _ _

theorem readBufSure_eq (i : Fin nSockets) (len : ℕ) (p : BitVec 16) :
    readBufSure B i len p = (do
      let t := pieces (p &&& getRxMask i).toNat (getRxSize i) len
      let bytes1 ← readMem B (getRxBase i + (p &&& getRxMask i).toNat) t.1
      let bytes2 ← readMem B (getRxBase i) t.2
      pure (bytes1 ++ bytes2, p + BitVec.ofNat 16 len)) := by
  unfold readBufSure
  dsimp only
  generalize pieces (p &&& getRxMask i).toNat (getRxSize i) len = t
  obtain ⟨t1, t2⟩ := t
  cases t1 <;> cases t2 <;> rfl

theorem writeBufSure_eq (i : Fin nSockets) (buf : List Byte) (p : BitVec 16) :
    writeBufSure B i buf p = (do
      let t := pieces (p &&& getTxMask i).toNat (getTxSize i) buf.length
      writeMem B ((p &&& getTxMask i).toNat + getTxBase i) (buf.take t.1)
      writeMem B (getTxBase i) ((buf.drop t.1).take t.2)
      pure (p + BitVec.ofNat 16 buf.length)) := by
  unfold writeBufSure
  dsimp only
  generalize pieces (p &&& getTxMask i).toNat (getTxSize i) buf.length = t
  obtain ⟨t1, t2⟩ := t
  cases t1 <;> cases t2 <;> rfl

theorem toNat_and_mask (p : BitVec 16) : (p &&& BitVec.ofNat 16 (0x800 - 1)).toNat = p.toNat % 0x800 := by
  rw [BitVec.toNat_and, BitVec.toNat_ofNat]
  exact Nat.and_two_pow_sub_one_eq_mod p.toNat 11

/-! ### The two pieces -/

/-- The pieces of a copy that fits the ring, from an offset inside it. -/
theorem pieces_of_le {offset len : ℕ} (hlen : len ≤ 0x800) (hoff : offset < 0x800) :
    pieces offset 0x800 len =
      if offset + len ≤ 0x800 then (len, 0) else (0x800 - offset, len - (0x800 - offset)) := by
  unfold pieces
  rw [Nat.mod_eq_of_lt (show offset + len < 2 ^ 32 by omega),
    Nat.mod_eq_of_lt (show len < 2 ^ 16 by omega),
    Nat.mod_eq_of_lt (show len - (0x800 - offset) < 2 ^ 16 by omega)]
  by_cases h : offset + len ≤ 0x800
  · rw [if_pos h, if_neg (by omega)]
  · rw [if_neg h, if_pos (by omega)]

/-- A write that does not reach the end of the ring is one copy. -/
theorem writeBufSure_of_fits (i : Fin nSockets) {buf : List Byte} {p : BitVec 16}
    (hfit : p.toNat % 0x800 + buf.length ≤ 0x800) :
    writeBufSure B i buf p = (do
      writeMem B (getTxBase i + p.toNat % 0x800) buf
      pure (p + BitVec.ofNat 16 buf.length)) := by
  have hmask : (p &&& getTxMask i).toNat = p.toNat % 0x800 := toNat_and_mask p
  have hpieces : pieces (p.toNat % 0x800) (getTxSize i) buf.length = (buf.length, 0) := by
    rw [show getTxSize i = 0x800 from rfl, pieces_of_le (by omega) (Nat.mod_lt _ (by omega)),
      if_pos hfit]
  rw [writeBufSure_eq, hmask, hpieces, Nat.add_comm]
  dsimp only
  rw [List.take_length, List.take_zero]
  rfl

/-- A write beyond the end of the ring is two copies. -/
theorem writeBufSure_of_wraps (i : Fin nSockets) {buf : List Byte} {p : BitVec 16}
    (hlen : buf.length ≤ 0x800) (hwrap : ¬ p.toNat % 0x800 + buf.length ≤ 0x800) :
    writeBufSure B i buf p = (do
      writeMem B (getTxBase i + p.toNat % 0x800) (buf.take (0x800 - p.toNat % 0x800))
      writeMem B (getTxBase i) (buf.drop (0x800 - p.toNat % 0x800))
      pure (p + BitVec.ofNat 16 buf.length)) := by
  have hmask : (p &&& getTxMask i).toNat = p.toNat % 0x800 := toNat_and_mask p
  have hpieces : pieces (p.toNat % 0x800) (getTxSize i) buf.length =
      (0x800 - p.toNat % 0x800, buf.length - (0x800 - p.toNat % 0x800)) := by
    rw [show getTxSize i = 0x800 from rfl, pieces_of_le hlen (Nat.mod_lt _ (by omega)),
      if_neg hwrap]
  rw [writeBufSure_eq, hmask, hpieces, Nat.add_comm]
  dsimp only
  rw [List.take_of_length_le (l := buf.drop _) (by rw [List.length_drop])]

/-- A read that does not reach the end of the ring is one copy. -/
theorem readBufSure_of_fits (i : Fin nSockets) {len : ℕ} {p : BitVec 16}
    (hfit : p.toNat % 0x800 + len ≤ 0x800) :
    readBufSure B i len p = (do
      let bytes ← readMem B (getRxBase i + p.toNat % 0x800) len
      pure (bytes ++ [], p + BitVec.ofNat 16 len)) := by
  have hmask : (p &&& getRxMask i).toNat = p.toNat % 0x800 := toNat_and_mask p
  have hpieces : pieces (p.toNat % 0x800) (getRxSize i) len = (len, 0) := by
    rw [show getRxSize i = 0x800 from rfl, pieces_of_le (by omega) (Nat.mod_lt _ (by omega)),
      if_pos hfit]
  rw [readBufSure_eq, hmask, hpieces]
  rfl

/-- A read beyond the end of the ring is two copies. -/
theorem readBufSure_of_wraps (i : Fin nSockets) {len : ℕ} {p : BitVec 16}
    (hlen : len ≤ 0x800) (hwrap : ¬ p.toNat % 0x800 + len ≤ 0x800) :
    readBufSure B i len p = (do
      let bytes1 ← readMem B (getRxBase i + p.toNat % 0x800) (0x800 - p.toNat % 0x800)
      let bytes2 ← readMem B (getRxBase i) (len - (0x800 - p.toNat % 0x800))
      pure (bytes1 ++ bytes2, p + BitVec.ofNat 16 len)) := by
  have hmask : (p &&& getRxMask i).toNat = p.toNat % 0x800 := toNat_and_mask p
  have hpieces : pieces (p.toNat % 0x800) (getRxSize i) len =
      (0x800 - p.toNat % 0x800, len - (0x800 - p.toNat % 0x800)) := by
    rw [show getRxSize i = 0x800 from rfl, pieces_of_le hlen (Nat.mod_lt _ (by omega)),
      if_neg hwrap]
  rw [readBufSure_eq, hmask, hpieces]

end Access

end W5100

end Nucleo
