/-
# What the socket code may do

Every function of the driver is made of few kinds of steps: transactions with the chip, readings
of the clock, and changes of slots, descriptors and `errno`.  `Rights` says which writes, changes
and reasons to stop are allowed, and each function is shown once to get along with the rights that
its text asks for (`Rights.Receives`, `Rights.Binds`, ...).  What all steps within some rights
keep, every function that gets along with them keeps.
-/
import Nucleo.Syscalls

namespace Nucleo

namespace W5100

open Comp

/-! ## Rights -/

/-- What a computation may do: the bytes it may write to an address of the chip, the ways in which
it may change a slot, whether it may change descriptors and set `errno`, and for what it may
stop. -/
structure Rights where
  writes : ℕ → Byte → Prop
  changes : Fin nSockets → (Slot → Slot) → Prop
  files : Prop
  errno : Prop
  stops : Stop → Prop

namespace Rights

variable (P : Rights)

/-- It may write to the first `n` bytes from a register of a socket. -/
def Register (k : Fin nSockets) (r n : ℕ) : Prop :=
  ∀ m v, m < n → P.writes (sockRegGet r k + m) v

/-- It may give a command to any socket. -/
def Commands (cmd : Byte) : Prop := ∀ k, P.writes (sockRegGet regCR k) cmd

/-- It may take bytes from the receive ring of a socket. -/
structure Receives (k : Fin nSockets) : Prop where
  waiting : P.stops .waiting
  pointer : P.Register k regRXRD 2
  recv : P.writes (sockRegGet regCR k) cmdRecv

/-- It may put bytes into the transmit ring of a socket. -/
structure Transmits (k : Fin nSockets) : Prop where
  waiting : P.stops .waiting
  memory : ∀ a v, txMemBase ≤ a → a < rxMemBase → P.writes a v
  pointer : P.Register k regTXWR 2
  send : P.writes (sockRegGet regCR k) cmdSend

/-- It may put an address into the registers of a socket. -/
structure Names (k : Fin nSockets) : Prop where
  peer : P.Register k regDIPR 4
  peerPort : P.Register k regDPORT 2

/-- It may open a socket on a port. -/
structure Binds : Prop where
  waiting : P.stops .waiting
  port : ∀ k, P.Register k regPORT 2
  opens : P.Commands cmdOpen
  bound : ∀ i a, P.changes i fun s => { s with sockname := a, state := .bound }

/-- It may make a slot listen. -/
structure Listens : Prop where
  waiting : P.stops .waiting
  listens : P.Commands cmdListen
  listening : ∀ i, P.changes i fun s => { s with state := .listening }

/-- It may make a slot listen again. -/
structure Relistens : Prop extends P.Listens where
  opens : P.Commands cmdOpen

/-- It may end a connection, and make its slot listen again. -/
structure Disconnects : Prop extends P.Relistens where
  errno : P.errno
  discon : P.Commands cmdDiscon
  disconnected : ∀ i, P.changes i fun s => { s with state := .disconnected }

/-- It may give a descriptor to a connection. -/
structure Accepts : Prop extends P.Relistens where
  errno : P.errno
  closes : P.Commands cmdClose
  files : P.files
  accepted : ∀ i, P.changes i fun s => { s with state := .accepted }
  connection : ∀ i d, P.changes i fun s => { s with connectionData := some d }

/-- It may take the descriptor of a slot back. -/
structure Closes : Prop where
  waiting : P.stops .waiting
  discon : P.Commands cmdDiscon
  closes : P.Commands cmdClose
  files : P.files
  noData : ∀ i, P.changes i fun s => { s with fdData := none }
  freed : ∀ i, P.changes i fun s =>
    { s with fd := socketFreeFd, fdData := none, connectionData := none, state := .none }

/-- It may take both descriptors of a slot back. -/
structure Hangs : Prop where
  closes : P.Closes
  relistens : P.Relistens
  noConnection : ∀ i, P.changes i fun s => { s with connectionData := none }

/-- It may ask for a connection. -/
structure Connects : Prop extends P.Binds where
  errno : P.errno
  names : ∀ k, P.Names k
  connect : P.Commands cmdConnect
  connected : ∀ i a, P.changes i fun s => { s with state := .connected, destAddress := a }

/-- It may set the peer of a slot. -/
def SetsPeer : Prop :=
  ∀ i (a : Slot → SockaddrIn), P.changes i fun s => { s with destAddress := a s }

/-- It may set the options of a slot. -/
structure SetsOptions : Prop where
  broadcast : ∀ i b, P.changes i fun s => { s with canBroadcast := b }
  recvTimeout : ∀ i t, P.changes i fun s => { s with recvTimeout := t }
  sendTimeout : ∀ i t, P.changes i fun s => { s with sendTimeout := t }

/-- It may take a slot and a descriptor for a new socket. -/
structure Creates (type : SockType) : Prop where
  errno : P.errno
  files : P.files
  mode : ∀ k, P.Register k regMR 1
  taken : ∀ i, P.changes i fun s => { s with fd := (i.val : ℤ) }
  created : ∀ i d, P.changes i fun s => s.created i type d
  freed : ∀ i, P.changes i fun s =>
    { s with fd := socketFreeFd, fdData := none, connectionData := none, state := .none }

/-- It may look up a descriptor: none that is in front of the table, or it may stop there. -/
structure LooksUp (fd : ℤ) : Prop where
  errno : P.errno
  inTable : 0 ≤ fd ∨ P.stops .outOfBounds

end Rights

/-! ## Steps -/

section Chip

variable {χ : Type} (B : Board χ) (P : Rights)

/-- A transaction with the chip or a reading of the clock, within the rights. -/
inductive ChipStep : (α : Type) → Comp χ Stop α → Prop
  | read (reg : ℕ) : ChipStep Byte (readByte B reg)
  | write {reg : ℕ} {val : Byte} : P.writes (reg % 2 ^ 16) val → ChipStep Unit (writeByte B reg val)
  | clock : ChipStep Timespec (clockGettime B)
  | stop {α : Type} {e : Stop} : P.stops e → ChipStep α (throw e)

/-- A computation of the chip that gets along with the rights. -/
abbrev ChipCode {α : Type} (x : Comp χ Stop α) : Prop := Made (ChipStep B P) x

/-- The bytes fit the ring, or the chip has room for no more, or anything may be written. -/
def Fits (k : Fin nSockets) (buf : List Byte) : Prop :=
  buf.length ≤ 0x800 ∨
    (∀ c n c', writeBufLen B k c = .ok (n, c') → n.toNat ≤ 0x800) ∨ ∀ a v, P.writes a v

variable {B P} {k : Fin nSockets} (fuel : ℕ)

/-! ### Registers and memory -/

/-- Reading memory takes no rights. -/
theorem made_readMem (addr n : ℕ) : ChipCode B P (readMem B addr n) := by
  induction n generalizing addr with
  | zero => exact .pure _
  | succ n ih =>
      exact Made.bind (.step (.read addr)) fun _ => (ih _).bind fun _ => .pure _

/-- Writing memory takes the right to write each byte. -/
theorem made_writeMem {addr : ℕ} {l : List Byte}
    (h : ∀ m v, m < l.length → P.writes ((addr + m) % 2 ^ 16) v) :
    ChipCode B P (writeMem B addr l) := by
  induction l generalizing addr with
  | nil => exact .pure _
  | cons b l ih =>
      refine Made.bind (.step (.write (h 0 b (Nat.succ_pos _)))) fun _ => ih fun m v hm => ?_
      have hnext := h (m + 1) v (Nat.succ_lt_succ hm)
      rw [Nat.add_assoc, Nat.add_comm 1 m]
      exact hnext

/-- Two bytes of a register are read. -/
theorem made_readSockReg16 (r : ℕ) (k : Fin nSockets) : ChipCode B P (readSockReg16 B r k) :=
  (made_readMem _ _).bind fun _ => .pure _

/-- Four bytes of a register are read. -/
theorem made_readSockReg32 (r : ℕ) (k : Fin nSockets) : ChipCode B P (readSockReg32 B r k) :=
  (made_readMem _ _).bind fun _ => .pure _

/-- The bytes of a register lie behind each other. -/
theorem writes_register {r n : ℕ} (hr : r + n ≤ socketRegsSize) (h : P.Register k r n) (m : ℕ)
    (v : Byte) (hm : m < n) : P.writes ((sockRegGet r k + m) % 2 ^ 16) v := by
  have hk : k.val < 4 := k.isLt
  have hmod : (sockRegGet r k + m) % 2 ^ 16 = sockRegGet r k + m := by
    unfold sockRegGet s0RegsOffset
    unfold socketRegsSize at *
    exact Nat.mod_eq_of_lt (by omega)
  rw [hmod]
  exact h m v hm

/-- One byte of a register is written. -/
theorem made_writeSockReg {r : ℕ} (hr : r < socketRegsSize) {v : Byte}
    (h : P.writes (sockRegGet r k) v) : ChipCode B P (writeSockReg B r k v) := by
  refine .step (.write ?_)
  rw [sockRegGet_mod k hr]
  exact h

/-- Two bytes of a register are written. -/
theorem made_writeSockReg16 {r : ℕ} (hr : r + 2 ≤ socketRegsSize) (h : P.Register k r 2)
    (v : BitVec 16) : ChipCode B P (writeSockReg16 B r k v) :=
  made_writeMem fun m v hm => writes_register hr h m v hm

/-- Four bytes of a register are written. -/
theorem made_writeSockReg32 {r : ℕ} (hr : r + 4 ≤ socketRegsSize) (h : P.Register k r 4)
    (v : BitVec 32) : ChipCode B P (writeSockReg32 B r k v) :=
  made_writeMem fun m v hm => writes_register hr h m v hm

/-- A register is read until it has a value. -/
theorem made_readUntil (hwait : P.stops .waiting) (r : ℕ) (k : Fin nSockets)
    (stop : Byte → Bool) : ChipCode B P (readUntil B fuel r k stop) :=
  Made.iter (.stop hwait) (fun _ => Made.bind (.step (.read _)) fun _ => .pure _) fuel ()

/-- A command is written and taken. -/
theorem made_command (hwait : P.stops .waiting) {cmd : Byte}
    (h : P.writes (sockRegGet regCR k) cmd) : ChipCode B P (command B fuel k cmd) :=
  (made_writeSockReg (by decide) h).bind fun _ =>
    (made_readUntil fuel hwait _ _ _).bind fun _ => .pure _

/-! ### The rings -/

/-- The length of the buffer is only read. -/
theorem made_readBufLen (k : Fin nSockets) : ChipCode B P (readBufLen B k) :=
  (made_readSockReg16 _ _).bind fun _ => .pure _

/-- The start of the buffer is only read. -/
theorem made_readBufPstart (k : Fin nSockets) : ChipCode B P (readBufPstart B k) :=
  (made_readSockReg16 _ _).bind fun _ => .pure _

/-- The size of the free room is only read. -/
theorem made_writeBufLen (k : Fin nSockets) : ChipCode B P (writeBufLen B k) :=
  (made_readSockReg16 _ _).bind fun _ => .pure _

/-- The start of the free room is only read. -/
theorem made_writeBufPstart (k : Fin nSockets) : ChipCode B P (writeBufPstart B k) :=
  (made_readSockReg16 _ _).bind fun _ => .pure _

/-- A copy from the receive ring takes no rights. -/
theorem made_readBufSure (k : Fin nSockets) (len : ℕ) (p : BitVec 16) :
    ChipCode B P (readBufSure B k len p) := by
  rw [readBufSure_eq]
  exact (made_readMem _ _).bind fun _ => (made_readMem _ _).bind fun _ => .pure _

/-- The pointer behind the bytes read, and `RECV`. -/
theorem made_readBufRecv (h : P.Receives k) (p : BitVec 16) :
    ChipCode B P (readBufRecv B fuel k p) :=
  (made_writeSockReg16 (by decide) h.pointer _).bind fun _ => made_command fuel h.waiting h.recv

/-- `read_buf`. -/
theorem made_readBuf (h : P.Receives k) (len : ℕ) : ChipCode B P (readBuf B fuel k len) := by
  refine (made_readBufLen k).bind fun toread => Made.ite ?_ (.pure _)
  refine (made_readBufPstart k).bind fun p => (made_readBufSure k _ p).bind fun r => ?_
  exact (made_readBufRecv fuel h _).bind fun _ => .pure _

/-- A datagram is taken with its header. -/
theorem made_recvDatagram (h : P.Receives k) (wantAddr : Bool) :
    ChipCode B P (recvDatagram B fuel k wantAddr) := by
  refine (made_readBufPstart k).bind fun p => (made_readBufSure k 8 p).bind fun r => ?_
  refine (made_readBufSure k _ _).bind fun r' => ?_
  exact (made_readBufRecv fuel h _).bind fun _ => .pure _

/-- Bytes are copied to the transmit memory. -/
theorem made_writeTx (h : P.Transmits k) {addr : ℕ} {l : List Byte} (hlo : txMemBase ≤ addr)
    (hhi : addr + l.length ≤ rxMemBase) : ChipCode B P (writeMem B addr l) := by
  refine made_writeMem fun m v hm => ?_
  have hmod : (addr + m) % 2 ^ 16 = addr + m := Nat.mod_eq_of_lt (by unfold rxMemBase at hhi; omega)
  rw [hmod]
  exact h.memory _ v (by omega) (by omega)

/-- A copy to the transmit ring stays in it, if it is no longer than the ring. -/
theorem made_writeBufSure (h : P.Transmits k) {buf : List Byte}
    (hfit : buf.length ≤ 0x800 ∨ ∀ a v, P.writes a v) (p : BitVec 16) :
    ChipCode B P (writeBufSure B k buf p) := by
  rcases hfit with hlen | hall
  · have hk : k.val < 4 := k.isLt
    have hoff : p.toNat % 0x800 < 0x800 := Nat.mod_lt _ (by decide)
    have hbase : getTxBase k = 0x4000 + 0x800 * k.val := rfl
    have htx : txMemBase = 0x4000 := rfl
    have hrx : rxMemBase = 0x6000 := rfl
    by_cases hfit : p.toNat % 0x800 + buf.length ≤ 0x800
    · rw [writeBufSure_of_fits B k hfit]
      exact (made_writeTx h (by omega) (by omega)).bind fun _ => .pure _
    · -- the two pieces end at the end of the ring and start at its start
      rw [writeBufSure_of_wraps B k hlen hfit]
      refine (made_writeTx h (by omega) ?_).bind fun _ => ?_
      · rw [List.length_take]
        omega
      refine (made_writeTx h (by omega) ?_).bind fun _ => .pure _
      rw [List.length_drop]
      omega
  · rw [writeBufSure_eq]
    exact (made_writeMem fun _ _ _ => hall _ _).bind fun _ =>
      (made_writeMem fun _ _ _ => hall _ _).bind fun _ => .pure _

/-- The pointer behind the bytes written, and `SEND`. -/
theorem made_writeBufSend (h : P.Transmits k) (p : BitVec 16) :
    ChipCode B P (writeBufSend B fuel k p) :=
  (made_writeSockReg16 (by decide) h.pointer _).bind fun _ => made_command fuel h.waiting h.send

/-- `write_buf` writes no more than there is room for. -/
theorem made_writeBuf (h : P.Transmits k) {buf : List Byte} (hfit : Fits B P k buf) :
    ChipCode B P (writeBuf B fuel k buf) := by
  refine .bindOf (fun n => buf.length ≤ 0x800 ∨ n.toNat ≤ 0x800 ∨ ∀ a v, P.writes a v)
    (made_writeBufLen k) (fun c n c' heq => ?_) fun n hn => Made.ite ?_ (.pure _)
  · exact hfit.imp_right fun hroom => hroom.imp_left fun hle => hle c n c' heq
  · refine (made_writeBufPstart k).bind fun p => ?_
    refine (made_writeBufSure h ?_ p).bind fun p' => Made.bind ?_ fun _ => .pure _
    · rw [List.length_take]
      rcases hn with hlen | hle | hall
      · exact .inl (by omega)
      · refine .inl ?_
        split_ifs <;> omega
      · exact .inr hall
    · exact made_writeBufSend fuel h _

/-- A poll only reads. -/
theorem made_sockPollRw (k : Fin nSockets) : ChipCode B P (sockPollRw B k) :=
  (made_readBufLen k).bind fun _ => (made_writeBufLen k).bind fun _ => .pure _

end Chip

/-! ## The driver -/

section Sys

variable {χ : Type} (φ : Type) (B : Board χ) (P : Rights)

/-- A step of the driver, within the rights. -/
inductive SysStep : (α : Type) → Sys χ φ α → Prop
  | chip {α : Type} {x : Comp χ Stop α} : ChipCode B P x → SysStep α (onChip x)
  | get : SysStep (World χ φ) get
  | setErrno (e : Errno) : P.errno → SysStep Unit (setErrno e)
  | modifySlot {i : Fin nSockets} {f : Slot → Slot} : P.changes i f → SysStep Unit (modifySlot i f)
  | modifyFile (d : Fin openMax) (f : Fd → Fd) : P.files → SysStep Unit (modifyFile d f)
  | stop {α : Type} {e : Stop} : P.stops e → SysStep α (throw e)

variable {φ}

/-- A function of the driver that gets along with the rights. -/
abbrev SysCode {α : Type} (x : Sys χ φ α) : Prop := Made (SysStep φ B P) x

variable {B P} {α : Type} {i : Fin nSockets} {fd : ℤ} (fuel : ℕ)

/-! ### Slots and descriptors -/

/-- What a function may do on the chip it may do in the system. -/
theorem made_onChip {x : Comp χ Stop α} (h : ChipCode B P x) :
    SysCode B P (onChip x : Sys χ φ α) := .step (.chip h)

/-- Everything may be looked at. -/
theorem made_get : SysCode B P (get : Sys χ φ (World χ φ)) := .step .get

/-- A slot is changed as the rights allow. -/
theorem made_modifySlot {f : Slot → Slot} (h : P.changes i f) :
    SysCode B P (modifySlot i f : Sys χ φ Unit) := .step (.modifySlot h)

/-- The file table is changed where the rights allow it. -/
theorem made_modifyFile (h : P.files) (d : Fin openMax) (f : Fd → Fd) :
    SysCode B P (modifyFile d f : Sys χ φ Unit) := .step (.modifyFile d f h)

/-- Failing sets `errno`. -/
theorem made_fail (h : P.errno) (e : Errno) (a : α) : SysCode B P (fail e a : Sys χ φ α) :=
  Made.bind (.step (.setErrno e h)) fun _ => .pure _

/-- Every slot may be looked at. -/
theorem made_getSlot (i : Fin nSockets) : SysCode B P (getSlot i : Sys χ φ Slot) :=
  made_get.bind fun _ => .pure _

/-- Where a slot changes and something is returned. -/
theorem made_setSlot {f : Slot → Slot} (h : P.changes i f) (a : α) :
    SysCode B P (do
      modifySlot i f
      pure a : Sys χ φ α) := (made_modifySlot h).bind fun _ => .pure _

/-- A descriptor from zero on is looked up in the table. -/
theorem made_fileStructGet (h : P.LooksUp fd) :
    SysCode B P (fileStructGet fd : Sys χ φ (Option (Fin openMax))) := by
  unfold fileStructGet
  split_ifs with hge hin
  · exact .pure _
  · exact .pure _
  · refine .step (.stop (h.inTable.resolve_left fun hpos => hin ⟨hpos, ?_⟩))
    omega

/-- A descriptor is looked up, with an error where it is none of a socket. -/
theorem made_getSocketFromFd (h : P.LooksUp fd) :
    SysCode B P (getSocketFromFd fd : Sys χ φ (Option (Fin nSockets))) := by
  refine (made_fileStructGet h).bind fun r => ?_
  cases r with
  | none => exact made_fail h.errno _ _
  | some d =>
      refine made_get.bind fun w => (made_fail h.errno _ _).ite ?_
      cases (w.files d).opaquePtr with
      | slot i => exact .pure _
      | null => exact made_fail h.errno _ _
      | fil k => exact made_fail h.errno _ _
      | dir k => exact made_fail h.errno _ _

/-- A call that looks the slot of its descriptor up first. -/
theorem made_withSlot (h : P.LooksUp fd) {f : Option (Fin nSockets) → Sys χ φ α}
    (hnone : SysCode B P (f none)) (hsome : ∀ i, SysCode B P (f (some i))) :
    SysCode B P (getSocketFromFd fd >>= f) := by
  refine (made_getSocketFromFd h).bind fun r => ?_
  cases r with
  | none => exact hnone
  | some i => exact hsome i

/-- The flags of a slot without a descriptor are behind a null pointer. -/
theorem made_isNonblock (h : P.stops .nullDeref) (i : Fin nSockets) :
    SysCode B P (isNonblock i : Sys χ φ Bool) := by
  refine (made_getSlot i).bind fun s => ?_
  cases s.fdData with
  | none => exact .step (.stop h)
  | some d => exact made_get.bind fun _ => .pure _

/-- An entry of the file table is taken. -/
theorem made_fileAlloc (h : P.files) :
    SysCode B P (fileAlloc : Sys χ φ (Option (Fin openMax))) := by
  refine made_get.bind fun w => ?_
  cases firstFree w.files with
  | none => exact .pure _
  | some d => exact (made_modifyFile h _ _).bind fun _ => .pure _

/-- An entry of the file table is given back. -/
theorem made_fileFree (h : P.files) (fd : ℤ) : SysCode B P (fileFree fd : Sys χ φ Unit) := by
  unfold fileFree
  split_ifs
  · exact made_modifyFile h _ _
  · exact .pure _

/-- An entry of the file table is cleared. -/
theorem made_releaseFile (h : P.files) (d : Fin openMax) :
    SysCode B P (releaseFile d : Sys χ φ Unit) :=
  (made_modifyFile h _ _).bind fun _ => made_get.bind fun _ => made_fileFree h _

/-! ### Waiting -/

/-- The clock is read for the end of a wait. -/
theorem made_timeoutUnless (nonblock : Bool) (timeout : Timespec) :
    SysCode B P (timeoutUnless B nonblock timeout : Sys χ φ TimeoutManager) :=
  Made.ite (.pure _) (Made.ite ((made_onChip (.step .clock)).bind fun _ => .pure _) (.pure _))

/-- The end of a wait may set `errno`. -/
theorem made_timeoutEnded (h : P.errno) (tom : TimeoutManager) :
    SysCode B P (timeoutEnded B tom : Sys χ φ Bool) := by
  cases tom with
  | none => exact .pure _
  | some tend =>
      refine (made_onChip (.step .clock)).bind fun _ => ?_
      exact (made_fail h _ _).ite (.pure _)

/-! ### `bind`, `connect` and `listen` -/

/-- Looking for a port takes readings only. -/
theorem made_portUsed (port : InPort) (l : List (Fin nSockets)) :
    SysCode B P (portUsed B port l : Sys χ φ Bool) := by
  induction l with
  | nil => exact .pure _
  | cons i l ih =>
      refine (made_getSlot i).bind fun s => Made.ite ?_ ih
      exact (made_onChip (made_readSockReg16 _ _)).bind fun _ => Made.ite (.pure _) ih

/-- The ports in use are read, for as long as none is free. -/
theorem made_getAvailPort (hwait : P.stops .waiting) :
    SysCode B P (getAvailPort B fuel : Sys χ φ InPort) :=
  Made.iter (.stop hwait)
    (fun port => (made_portUsed port _).bind fun _ => Made.ite (.pure _) (.pure _)) fuel _

/-- A socket is opened on a port, and its slot changes. -/
theorem made_openOn (h : P.Binds) {f : Slot → Slot} (hf : P.changes i f) (port : InPort)
    (stop : Byte → Bool) : SysCode B P (do
      let isocket := (← getSlot i).isocket
      onChip (writeSockReg16 B regPORT isocket port)
      onChip (command B fuel isocket cmdOpen)
      let _ ← onChip (readUntil B fuel regSR isocket stop)
      modifySlot i f : Sys χ φ Unit) := by
  refine (made_getSlot i).bind fun s => ?_
  refine (made_onChip (made_writeSockReg16 (by decide) (h.port _) _)).bind fun _ => ?_
  refine (made_onChip (made_command fuel h.waiting (h.opens _))).bind fun _ => ?_
  exact (made_onChip (made_readUntil fuel h.waiting _ _ _)).bind fun _ => made_modifySlot hf

/-- What `bind_udp` does is within the rights of a bind. -/
theorem made_bindUdp (h : P.Binds) (i : Fin nSockets) (port : InPort) :
    SysCode B P (bindUdp B fuel i port : Sys χ φ Unit) :=
  made_openOn fuel h (h.bound i _) _ _

/-- What `bind_tcp` does is within the rights of a bind. -/
theorem made_bindTcp (h : P.Binds) (i : Fin nSockets) (addr : SockaddrIn) :
    SysCode B P (bindTcp B fuel i addr : Sys χ φ Unit) :=
  made_openOn fuel h (h.bound i _) _ _

/-- A socket that has no port yet is bound. -/
theorem made_checkBindUdp (h : P.Binds) (i : Fin nSockets) :
    SysCode B P (checkBindUdp B fuel i : Sys χ φ Unit) := by
  refine (made_getSlot i).bind fun s => Made.ite ?_ (.pure _)
  exact (made_getAvailPort fuel h.waiting).bind fun port => made_bindUdp fuel h i port

/-- `bind`. -/
theorem made_bind (h : P.Binds) (hfd : P.LooksUp fd) (addr : SockaddrIn) :
    SysCode B P (bind B fuel fd addr : Sys χ φ ℤ) := by
  refine made_withSlot hfd (.pure _) fun i => (made_getSlot i).bind fun s => ?_
  refine (made_fail hfd.errno _ _).ite ((made_fail hfd.errno _ _).ite ?_)
  cases s.type with
  | stream => exact (made_bindTcp fuel h i addr).bind fun _ => .pure _
  | dgram => exact (made_bindUdp fuel h i _).bind fun _ => .pure _
  | raw => exact made_fail hfd.errno _ _
  | other => exact made_fail hfd.errno _ _

/-- What `connect_tcp` does is within the rights of a connect. -/
theorem made_connectTcp (h : P.Connects) (i : Fin nSockets) (addr : SockaddrIn) :
    SysCode B P (connectTcp B fuel i addr : Sys χ φ ℤ) := by
  refine (made_getSlot i).bind fun s => ?_
  refine (made_fail h.errno _ _).ite ((made_fail h.errno _ _).ite ((made_fail h.errno _ _).ite ?_))
  refine (made_onChip (made_writeSockReg16 (by decide) (h.port _) _)).bind fun _ => ?_
  refine (made_onChip (made_command fuel h.waiting (h.opens _))).bind fun _ => ?_
  refine (made_onChip (made_readUntil fuel h.waiting _ _ _)).bind fun _ => ?_
  refine (made_onChip (made_writeSockReg32 (by decide) (h.names _).peer _)).bind fun _ => ?_
  refine (made_onChip (made_writeSockReg16 (by decide) (h.names _).peerPort _)).bind fun _ => ?_
  refine (made_onChip (made_command fuel h.waiting (h.connect _))).bind fun _ => ?_
  refine (made_onChip (made_readUntil fuel h.waiting _ _ _)).bind fun _ => ?_
  exact (made_setSlot (h.connected i addr) _).ite (made_fail h.errno _ _)

/-- A datagram socket is bound and gets a peer. -/
theorem made_connectUdp (h : P.Binds) (herr : P.errno) (hpeer : P.SetsPeer) (i : Fin nSockets) (addr : SockaddrIn) :
    SysCode B P (connectUdp B fuel i addr : Sys χ φ ℤ) := by
  unfold connectUdp
  cases addr.sinFamily with
  | unspec =>
      refine (made_modifySlot (hpeer i _)).bind fun _ => ?_
      exact (made_checkBindUdp fuel h i).bind fun _ => .pure _
  | inet =>
      refine (made_modifySlot (hpeer i _)).bind fun _ => ?_
      exact (made_checkBindUdp fuel h i).bind fun _ => .pure _
  | other => exact made_fail herr _ _

/-- `connect`. -/
theorem made_connect (h : P.Connects) (hpeer : P.SetsPeer) (hfd : P.LooksUp fd)
    (addr : SockaddrIn) : SysCode B P (connect B fuel fd addr : Sys χ φ ℤ) := by
  refine made_withSlot hfd (.pure _) fun i => (made_getSlot i).bind fun s => ?_
  cases s.type with
  | stream => exact made_connectTcp fuel h i addr
  | dgram => exact made_connectUdp fuel h.toBinds hfd.errno hpeer i addr
  | raw => exact made_fail hfd.errno _ _
  | other => exact made_fail hfd.errno _ _

/-- `listen`. -/
theorem made_listen (h : P.Listens) (hfd : P.LooksUp fd) :
    SysCode B P (listen B fuel fd : Sys χ φ ℤ) := by
  refine made_withSlot hfd (.pure _) fun i => (made_getSlot i).bind fun s => ?_
  refine (made_fail hfd.errno _ _).ite ((made_fail hfd.errno _ _).ite ?_)
  refine (made_onChip (made_command fuel h.waiting (h.listens _))).bind fun _ => ?_
  refine (made_onChip (made_readUntil fuel h.waiting _ _ _)).bind fun _ => ?_
  exact made_setSlot (h.listening i) _

/-! ### `accept` -/

/-- A connection is handed out. -/
theorem made_acceptEstablished (h : P.Accepts) (i : Fin nSockets) (wantAddr : Bool) :
    SysCode B P (acceptEstablished B fuel i wantAddr : Sys χ φ (ℤ × Option SockaddrIn)) := by
  refine (made_getSlot i).bind fun s => (made_fileAlloc h.files).bind fun r => ?_
  cases r with
  | none =>
      refine Made.bind (.step (.setErrno _ h.errno)) fun _ => ?_
      refine (made_onChip (made_command fuel h.waiting (h.closes _))).bind fun _ => ?_
      refine (made_onChip (made_command fuel h.waiting (h.opens _))).bind fun _ => ?_
      exact (made_onChip (made_command fuel h.waiting (h.listens _))).bind fun _ => .pure _
  | some d =>
      refine (made_modifySlot (h.accepted i)).bind fun _ => ?_
      refine (made_modifyFile h.files d _).bind fun _ => ?_
      refine (made_modifySlot (h.connection i d)).bind fun _ => Made.ite ?_ (.pure _)
      refine (made_onChip (made_readSockReg32 _ _)).bind fun _ => ?_
      exact (made_onChip (made_readSockReg16 _ _)).bind fun _ => .pure _

/-- Waiting for a connection does no more than handing it out. -/
theorem made_acceptLoop (h : P.Accepts) (i : Fin nSockets) (wantAddr nonblock : Bool) :
    SysCode B P (acceptLoop B fuel i wantAddr nonblock : Sys χ φ (ℤ × Option SockaddrIn)) := by
  refine Made.iter (.stop h.waiting) (fun _ => (made_getSlot i).bind fun s => ?_) fuel ()
  refine (made_onChip (.step (.read _))).bind fun sr => Made.ite ?_ ?_
  · exact (made_acceptEstablished fuel h i wantAddr).bind fun _ => .pure _
  · exact (made_fail h.errno _ _).ite (.pure _)

/-- `accept`. -/
theorem made_accept (h : P.Accepts) (hnull : P.stops .nullDeref) (hfd : P.LooksUp fd)
    (wantAddr : Bool) :
    SysCode B P (accept B fuel fd wantAddr : Sys χ φ (ℤ × Option SockaddrIn)) := by
  refine made_withSlot hfd (.pure _) fun i => (made_getSlot i).bind fun s => ?_
  refine (made_fail hfd.errno _ _).ite ((made_fail hfd.errno _ _).ite ((made_isNonblock hnull i).bind fun nb => ?_))
  exact made_acceptLoop fuel h i wantAddr nb

/-! ### `recv` -/

/-- A socket goes back to listening. -/
theorem made_relisten (h : P.Relistens) (i k : Fin nSockets) :
    SysCode B P (relisten B fuel i k : Sys χ φ Unit) := by
  refine (made_onChip (made_command fuel h.waiting (h.opens _))).bind fun _ => ?_
  refine (made_onChip (made_command fuel h.waiting (h.listens _))).bind fun _ => ?_
  refine (made_onChip (made_readUntil fuel h.waiting _ _ _)).bind fun _ => ?_
  exact made_modifySlot (h.listening i)

/-- A connection that the peer has closed is taken down. -/
theorem made_manageDisconnect (h : P.Disconnects) (i : Fin nSockets) :
    SysCode B P (manageDisconnect B fuel i : Sys χ φ Bool) := by
  refine (made_getSlot i).bind fun s => (made_onChip (.step (.read _))).bind fun sr => ?_
  refine Made.ite (Made.bind (.step (.setErrno _ h.errno)) fun _ => ?_) (.pure _)
  refine (made_onChip (made_command fuel h.waiting (h.discon _))).bind fun _ => ?_
  refine (made_onChip (made_readUntil fuel h.waiting _ _ _)).bind fun _ => ?_
  refine (made_getSlot i).bind fun s => Made.ite ?_ ?_
  · exact (made_relisten fuel h.toRelistens i _).bind fun _ => .pure _
  · exact made_setSlot (h.disconnected i) _

/-- One look for data takes what is there, or a connection down. -/
theorem made_recvRound (h : P.Disconnects) (hrecv : ∀ k, P.Receives k) (i : Fin nSockets)
    (len : ℕ) (wantAddr : Bool) :
    SysCode B P (recvRound B fuel i len wantAddr : Sys χ φ (Option Received)) := by
  refine (made_getSlot i).bind fun s => ?_
  cases s.type with
  | stream =>
      refine (made_onChip (made_readBuf fuel (hrecv _) _)).bind fun r => Made.ite (.pure _) ?_
      exact (made_manageDisconnect fuel h i).bind fun _ => Made.ite (.pure _) (.pure _)
  | dgram =>
      refine (made_onChip (made_readBufLen _)).bind fun _ => Made.ite ?_ (.pure _)
      exact (made_onChip (made_recvDatagram fuel (hrecv _) wantAddr)).bind fun _ => .pure _
  | raw => exact .pure _
  | other => exact .pure _

/-- Waiting for data does no more than one look does. -/
theorem made_recvLoop (h : P.Disconnects) (hrecv : ∀ k, P.Receives k) (i : Fin nSockets)
    (len : ℕ) (wantAddr nonblock : Bool) (tom : TimeoutManager) :
    SysCode B P (recvLoop B fuel i len wantAddr nonblock tom : Sys χ φ Received) := by
  refine Made.iter (.stop h.waiting) (fun _ => ?_) fuel ()
  refine (made_recvRound fuel h hrecv i len wantAddr).bind fun r => ?_
  cases r with
  | some r => exact .pure _
  | none =>
      refine (made_fail h.errno _ _).ite ((made_timeoutEnded h.errno tom).bind fun _ => ?_)
      exact Made.ite (.pure _) (.pure _)

/-- `recvfrom`, which is also `recv`. -/
theorem made_recvfrom (h : P.Disconnects) (hrecv : ∀ k, P.Receives k)
    (hnull : P.stops .nullDeref) (hfd : P.LooksUp fd) (len : ℕ) (wantAddr : Bool) :
    SysCode B P (recvfrom B fuel fd len wantAddr : Sys χ φ Received) := by
  refine made_withSlot hfd (.pure _) fun i => (made_getSlot i).bind fun s => ?_
  refine (made_fail hfd.errno _ _).ite ((made_fail hfd.errno _ _).ite (Made.ite (.pure _) ?_))
  refine (made_isNonblock hnull i).bind fun nb => (made_timeoutUnless nb _).bind fun tom => ?_
  exact made_recvLoop fuel h hrecv i len wantAddr nb tom

/-! ### `send` -/

/-- Sending writes the buffers as far as they fit. -/
theorem made_sendLoop (h : P.Disconnects) (hsend : ∀ k, P.Transmits k)
    (hfit : ∀ k buf, Fits B P k buf) (i : Fin nSockets) (nonblock : Bool) (tom : TimeoutManager)
    (buf : List Byte) :
    SysCode B P (sendLoop B fuel i nonblock tom buf : Sys χ φ (List Byte)) := by
  refine Made.iter (.stop h.waiting) (fun bytes => ?_) fuel buf
  refine Made.ite (.pure _) ((made_getSlot i).bind fun s => ?_)
  refine (made_onChip (made_writeBuf fuel (hsend _) (hfit _ _))).bind fun n => ?_
  refine Made.ite (Made.ite (.pure _) (.pure _)) ?_
  refine (made_manageDisconnect fuel h i).bind fun _ => Made.ite (.pure _) ?_
  refine (made_fail h.errno _ _).ite ((made_timeoutEnded h.errno tom).bind fun _ => ?_)
  exact Made.ite (.pure _) (.pure _)

/-- What `send` does on a stream socket is sending, with the null pointer of an orphan. -/
theorem made_sendTcp (h : P.Disconnects) (hsend : ∀ k, P.Transmits k)
    (hfit : ∀ k buf, Fits B P k buf) (hnull : P.stops .nullDeref) (i : Fin nSockets)
    (buf : List Byte) : SysCode B P (sendTcp B fuel i buf : Sys χ φ ℤ) := by
  refine (made_getSlot i).bind fun s => (made_fail h.errno _ _).ite ?_
  refine (made_isNonblock hnull i).bind fun nb => (made_timeoutUnless nb _).bind fun tom => ?_
  exact (made_sendLoop fuel h hsend hfit i nb tom buf).bind fun _ => .pure _

/-- Sending a datagram names the peer and writes one buffer. -/
theorem made_sendtoLoop (herr : P.errno) (hsend : ∀ k, P.Transmits k) (hpeer : ∀ k, P.Names k) {buf : List Byte}
    (hfit : ∀ k, Fits B P k buf) (i : Fin nSockets) (peer : SockaddrIn) (nonblock : Bool)
    (tom : TimeoutManager) :
    SysCode B P (sendtoLoop B fuel i buf peer nonblock tom : Sys χ φ ℤ) := by
  refine Made.iter (.stop (hsend i).waiting) (fun _ => (made_getSlot i).bind fun s => ?_) fuel ()
  refine (made_onChip (made_writeBufLen _)).bind fun n => Made.ite ?_ ?_
  · refine (made_onChip (made_writeSockReg32 (by decide) (hpeer _).peer _)).bind fun _ => ?_
    refine (made_onChip (made_writeSockReg16 (by decide) (hpeer _).peerPort _)).bind fun _ => ?_
    exact (made_onChip (made_writeBuf fuel (hsend _) (hfit _))).bind fun _ => .pure _
  · refine (made_fail herr _ _).ite ((made_timeoutEnded herr tom).bind fun _ => ?_)
    exact Made.ite (.pure _) (.pure _)

/-- A datagram that is sent fits the ring. -/
theorem made_sendtoUdp (h : P.Binds) (herr : P.errno) (hsend : ∀ k, P.Transmits k) (hpeer : ∀ k, P.Names k)
    (hnull : P.stops .nullDeref) (i : Fin nSockets) (buf : List Byte) (dest : Option SockaddrIn) :
    SysCode B P (sendtoUdp B fuel i buf dest : Sys χ φ ℤ) := by
  refine (made_checkBindUdp fuel h i).bind fun _ => (made_getSlot i).bind fun s => ?_
  split_ifs with hlen
  · exact made_fail herr _ _
  · have hlen' : buf.length ≤ 0x800 := not_lt.1 hlen
    cases dest with
    | none => exact made_fail herr _ _
    | some peer =>
        refine (made_fail herr _ _).ite ((made_isNonblock hnull i).bind fun nb => ?_)
        refine (made_timeoutUnless nb _).bind fun tom => ?_
        exact made_sendtoLoop fuel herr hsend hpeer (fun _ => .inl hlen') i peer nb tom

section Sends

variable (h : P.Binds) (hend : P.Disconnects) (hsend : ∀ k, P.Transmits k)
  (hpeer : ∀ k, P.Names k) (hfit : ∀ k buf, Fits B P k buf) (hnull : P.stops .nullDeref)
  (hfd : P.LooksUp fd)

include h hend hsend hpeer hfit hnull hfd

/-- `send`. -/
theorem made_send (buf : List Byte) : SysCode B P (send B fuel fd buf : Sys χ φ ℤ) := by
  refine made_withSlot hfd (.pure _) fun i => (made_getSlot i).bind fun s => ?_
  cases s.type with
  | dgram => exact (made_fail hfd.errno _ _).ite (made_sendtoUdp fuel h hfd.errno hsend hpeer hnull i buf _)
  | stream => exact made_sendTcp fuel hend hsend hfit hnull i buf
  | raw => exact made_fail hfd.errno _ _
  | other => exact made_fail hfd.errno _ _

/-- `sendto`. -/
theorem made_sendto (buf : List Byte) (dest : Option SockaddrIn) :
    SysCode B P (sendto B fuel fd buf dest : Sys χ φ ℤ) := by
  refine made_withSlot hfd (.pure _) fun i => (made_getSlot i).bind fun s => ?_
  cases s.type with
  | stream => exact made_sendTcp fuel hend hsend hfit hnull i buf
  | dgram => exact made_sendtoUdp fuel h hfd.errno hsend hpeer hnull i buf dest
  | raw => exact made_fail hfd.errno _ _
  | other => exact made_fail hfd.errno _ _

end Sends

/-! ### `close` -/

/-- The descriptor of a socket is closed. -/
theorem made_closeFdData (h : P.Closes) (i : Fin nSockets) (d : Fin openMax) :
    SysCode B P (closeFdData B fuel i d : Sys χ φ ℤ) := by
  refine (made_getSlot i).bind fun _ => (made_releaseFile h.files d).bind fun _ => ?_
  refine (made_modifySlot (h.noData i)).bind fun _ => (made_getSlot i).bind fun s => ?_
  refine Made.ite ?_ (.pure _)
  refine (made_onChip (made_command fuel h.waiting ?_)).bind fun _ => ?_
  · split_ifs
    · exact h.discon _
    · exact h.closes _
  · refine (made_onChip (made_readUntil fuel h.waiting _ _ _)).bind fun _ => ?_
    exact (made_modifySlot (h.freed _)).bind fun _ => .pure _

/-- The descriptor of a connection is closed. -/
theorem made_closeConnectionData (h : P.Hangs) (i : Fin nSockets) (d : Fin openMax) :
    SysCode B P (closeConnectionData B fuel i d : Sys χ φ ℤ) := by
  refine (made_getSlot i).bind fun _ => (made_releaseFile h.closes.files d).bind fun _ => ?_
  refine (made_modifySlot (h.noConnection i)).bind fun _ => ?_
  refine (made_onChip (made_command fuel h.closes.waiting (h.closes.discon _))).bind fun _ => ?_
  refine (made_onChip (made_readUntil fuel h.closes.waiting _ _ _)).bind fun _ => ?_
  refine (made_getSlot i).bind fun s => Made.ite ?_ ?_
  · exact (made_modifySlot (h.closes.freed _)).bind fun _ => .pure _
  · exact (made_relisten fuel h.relistens i _).bind fun _ => .pure _

/-- `w5100_sock_close`. -/
theorem made_sockClose (h : P.Hangs) (hfd : P.LooksUp fd) :
    SysCode B P (sockClose B fuel fd : Sys χ φ ℤ) := by
  refine made_withSlot hfd (.pure _) fun i => made_get.bind fun w => ?_
  cases (w.sockets i).fdData.filter (fun d => (w.files d).fd = fd) with
  | some d => exact made_closeFdData fuel h.closes i d
  | none =>
      cases (w.sockets i).connectionData.filter (fun d => (w.files d).fd = fd) with
      | some d => exact made_closeConnectionData fuel h i d
      | none => exact made_fail hfd.errno _ _

/-! ### Options, `poll` and `socket` -/

/-- `setsockopt`. -/
theorem made_setsockopt (h : P.SetsOptions) (hfd : P.LooksUp fd) (solSocket : Bool)
    (option : SocketOption) : SysCode B P (setsockopt fd solSocket option : Sys χ φ ℤ) := by
  refine made_withSlot hfd (.pure _) fun i => (made_fail hfd.errno _ _).ite ?_
  cases option with
  | broadcast value => exact made_setSlot (h.broadcast i _) _
  | rcvtimeo value => exact made_setSlot (h.recvTimeout i _) _
  | sndtimeo value => exact made_setSlot (h.sendTimeout i _) _
  | other => exact made_fail hfd.errno _ _

/-- `getsockopt`. -/
theorem made_getsockopt (hfd : P.LooksUp fd) (solSocket : Bool) (name : OptionName) :
    SysCode B P (getsockopt fd solSocket name : Sys χ φ (ℤ × Option OptionValue)) := by
  refine made_withSlot hfd (.pure _) fun i => (made_getSlot i).bind fun s => (made_fail hfd.errno _ _).ite ?_
  cases name with
  | other => exact made_fail hfd.errno _ _
  | acceptconn | broadcast | rcvtimeo | sndtimeo | type => exact .pure _

/-- `getsockname` and `getpeername`. -/
theorem made_getName (hfd : P.LooksUp fd) (address : Slot → SockaddrIn) (unknown : Errno)
    (wantAddr : Bool) (addressLen : Option ℕ) :
    SysCode B P (getName address unknown fd wantAddr addressLen :
      Sys χ φ (ℤ × Option (SockaddrIn × ℕ))) := by
  refine made_withSlot hfd (.pure _) fun i => (made_getSlot i).bind fun s => (made_fail hfd.errno _ _).ite ?_
  exact (made_fail hfd.errno _ _).ite (.pure _)

/-- `w5100_sock_poll`. -/
theorem made_sockPoll (hfd : P.LooksUp fd) :
    SysCode B P (sockPoll B fd : Sys χ φ (BitVec 16)) := by
  refine made_withSlot hfd (.pure _) fun i => (made_getSlot i).bind fun s => ?_
  refine Made.ite ?_ (Made.ite ?_ (Made.ite ?_ (.pure _)))
  · exact (made_onChip (.step (.read _))).bind fun _ => .pure _
  · refine (made_onChip (.step (.read _))).bind fun _ => Made.ite (.pure _) ?_
    exact made_onChip (made_sockPollRw _)
  · exact made_onChip (made_sockPollRw _)

/-- `socket`. -/
theorem made_socket {type : SockType} (h : P.Creates type) (domain : Family) (protocol : ℤ) :
    SysCode B P (socket B domain type protocol : Sys χ φ ℤ) := by
  refine (made_fail h.errno _ _).ite ((made_fail h.errno _ _).ite ((made_fail h.errno _ _).ite ?_))
  have halloc : SysCode B P (socketAlloc : Sys χ φ (Option (Fin nSockets))) := by
    refine made_get.bind fun w => ?_
    cases firstFreeSlot w.sockets with
    | none => exact made_fail h.errno _ _
    | some i => exact made_setSlot (h.taken i) _
  refine halloc.bind fun r => ?_
  cases r with
  | none => exact made_fail h.errno _ _
  | some i =>
      refine (made_fileAlloc h.files).bind fun r => ?_
      cases r with
      | none => exact (made_modifySlot (h.freed i)).bind fun _ => made_fail h.errno _ _
      | some d =>
          refine (made_modifyFile h.files d _).bind fun _ => ?_
          refine (made_modifySlot (h.created i d)).bind fun _ => ?_
          refine (made_onChip (made_writeSockReg (by decide) ?_)).bind fun _ => .pure _
          exact h.mode i 0 _ Nat.one_pos

/-! ### `fcntl` and `poll` -/

/-- `fcntl`. -/
theorem made_fcntl {κ δ ψ : Type} (h : P.files) (hfd : P.LooksUp fd) (cmd : FcntlCmd) :
    SysCode B P (Nucleo.fcntl fd cmd : Fat.FatSys χ κ δ ψ ℤ) := by
  refine (made_fileStructGet hfd).bind fun r => ?_
  cases r with
  | none => exact made_fail hfd.errno _ _
  | some d =>
      cases cmd with
      | getfd => exact made_get.bind fun _ => .pure _
      | setfd flags => exact (made_modifyFile h d _).bind fun _ => .pure _
      | setfl flags => exact (made_modifyFile h d _).bind fun _ => .pure _
      | getfl => exact made_get.bind fun _ => .pure _
      | other => exact made_fail hfd.errno _ _

/-- `poll_one` looks up no negative descriptor. -/
theorem made_pollOne {κ δ ψ : Type} (herr : P.errno) (fd : ℤ) (events : BitVec 16) :
    SysCode B P (pollOne B fd events : Fat.FatSys χ κ δ ψ (BitVec 16)) := by
  unfold pollOne
  split_ifs with hneg
  · exact Made.bind (.pure _) fun _ => .pure _
  · have hfd : P.LooksUp fd := ⟨herr, .inl (not_lt.1 hneg)⟩
    refine (made_fileStructGet hfd).bind fun r => ?_
    cases r with
    | none => exact Made.bind (.pure _) fun _ => .pure _
    | some d =>
        refine made_get.bind fun w => ?_
        cases (w.files d).poll with
        | none => exact Made.bind (.pure _) fun _ => .pure _
        | some driver =>
            cases driver with
            | w5100 => exact (made_sockPoll hfd).bind fun _ => .pure _
            | usart => exact Made.bind (.pure _) fun _ => .pure _
            | fatfs => exact Made.bind (.pure _) fun _ => .pure _

end Sys

/-! ## Computations that leave the tables alone -/

section Same

variable {χ φ α : Type} {B : Board χ} {w : World χ φ} (fuel : ℕ)

/-- Anything may be done to the chip and to `errno`, and nothing to the tables. -/
def chipRights : Rights := ⟨fun _ _ => True, fun _ _ => False, False, True, fun _ => True⟩

/-- The tables stay as they are. -/
theorem same_of_sysCode {x : Sys χ φ α} (h : SysCode B chipRights x) :
    Post x (fun _ w' => w.Same w') w := by
  have : Std.Refl (World.Same (χ := χ) (φ := φ)) := ⟨fun _ => .refl⟩
  have : IsTrans (World χ φ) World.Same := ⟨fun _ _ _ => .trans⟩
  refine h.along (fun _ _ hstep w => ?_) w
  cases hstep with
  | chip _ => exact post_onChip_of_forall fun _ c => World.same_setChip c
  | get => exact post_get.2 .refl
  | setErrno e _ => exact post_modify.2 (World.same_setErrno e)
  | modifySlot hf => exact hf.elim
  | modifyFile _ _ hf => exact hf.elim
  | stop _ => exact post_throw.2 trivial

/-- Who may do everything to the chip may send. -/
theorem chipRights_transmits (k : Fin nSockets) : chipRights.Transmits k :=
  ⟨trivial, fun _ _ _ _ => trivial, fun _ _ _ => trivial, trivial⟩

/-- Who may do everything to the chip may name the peer. -/
theorem chipRights_names (k : Fin nSockets) : chipRights.Names k :=
  ⟨fun _ _ _ => trivial, fun _ _ _ => trivial⟩

variable (B) in
/-- Looking for a port leaves everything but the chip. -/
theorem same_getAvailPort : Post (getAvailPort B fuel) (fun _ w' => w.Same w') w :=
  same_of_sysCode (made_getAvailPort fuel trivial)

variable (B) in
/-- Reading the clock leaves everything but the chip. -/
theorem same_timeoutUnless (nonblock : Bool) (timeout : Timespec) :
    Post (timeoutUnless B nonblock timeout) (fun _ w' => w.Same w') w :=
  same_of_sysCode (made_timeoutUnless nonblock timeout)

variable (B) in
/-- The end of a wait leaves everything but the chip and `errno`. -/
theorem same_timeoutEnded (tom : TimeoutManager) :
    Post (timeoutEnded B tom) (fun _ w' => w.Same w') w :=
  same_of_sysCode (made_timeoutEnded trivial tom)

variable (B) in
/-- Sending a datagram leaves everything but the chip and `errno`. -/
theorem same_sendtoLoop (i : Fin nSockets) (buf : List Byte) (peer : SockaddrIn) (nonblock : Bool)
    (tom : TimeoutManager) :
    Post (sendtoLoop B fuel i buf peer nonblock tom) (fun _ w' => w.Same w') w :=
  same_of_sysCode (made_sendtoLoop fuel trivial chipRights_transmits chipRights_names
    (fun _ => .inr (.inr fun _ _ => trivial)) i peer nonblock tom)

variable (B) in
/-- Polling a descriptor leaves everything but the chip and `errno`. -/
theorem same_pollOne {κ δ ψ : Type} {w : World χ (Fat.FatFs κ δ ψ)} (fd : ℤ)
    (events : BitVec 16) : Post (pollOne B fd events) (fun _ w' => w.Same w') w :=
  same_of_sysCode (made_pollOne trivial fd events)

end Same

/-! ## Reasons to stop

Where everything is allowed but to stop for one reason, a function does not stop for it.
-/

section Stops

variable {χ φ α : Type} {B : Board χ} {e : Stop} {k : Fin nSockets}

/-- Everything is allowed but to stop for `e`. -/
def Rights.but (e : Stop) : Rights :=
  ⟨fun _ _ => True, fun _ _ => True, True, True, (· ≠ e)⟩

/-- A computation of the chip that need not stop for `e`. -/
theorem never_of_chipCode {x : Comp χ Stop α} (h : ChipCode B (.but e) x) : Never e x := by
  refine h.never fun _ _ hstep => ?_
  cases hstep with
  | read reg => exact never_of_ok (B.read (reg % 2 ^ 16)) fun _ => rfl
  | @write reg val hw => exact never_of_ok (fun c => ((), B.write (reg % 2 ^ 16) val c)) fun _ => rfl
  | clock => exact never_of_ok B.clockGettime fun _ => rfl
  | stop hne => exact never_throw hne

/-- A function of the driver that need not stop for `e`. -/
theorem never_of_sysCode {x : Sys χ φ α} (h : SysCode B (.but e) x) : Never e x := by
  refine h.never fun _ _ hstep => ?_
  cases hstep with
  | chip hx => exact (never_of_chipCode hx).focus
  | get => exact never_get
  | setErrno _ _ => exact never_modify _
  | modifySlot _ => exact never_modify _
  | modifyFile _ _ _ => exact never_modify _
  | stop hne => exact never_throw hne

section Waiting

variable (hwait : Stop.waiting ≠ e)

include hwait

/-- Who may do all but stop with `e` may receive, `e` not being the wait. -/
theorem Rights.Receives.but (k : Fin nSockets) : (Rights.but e).Receives k :=
  ⟨hwait, fun _ _ _ => trivial, trivial⟩

/-- Who may do all but stop with `e` may send, `e` not being the wait. -/
theorem Rights.Transmits.but (k : Fin nSockets) : (Rights.but e).Transmits k :=
  ⟨hwait, fun _ _ _ _ => trivial, fun _ _ _ => trivial, trivial⟩

/-- Who may do all but stop with `e` may bind, `e` not being the wait. -/
theorem Rights.Binds.but : (Rights.but e).Binds :=
  ⟨hwait, fun _ _ _ _ => trivial, fun _ => trivial, fun _ _ => trivial⟩

/-- Who may do all but stop with `e` may listen, `e` not being the wait. -/
theorem Rights.Listens.but : (Rights.but e).Listens :=
  ⟨hwait, fun _ => trivial, fun _ => trivial⟩

/-- Who may do all but stop with `e` may listen again, `e` not being the wait. -/
theorem Rights.Relistens.but : (Rights.but e).Relistens :=
  ⟨Rights.Listens.but hwait, fun _ => trivial⟩

/-- Who may do all but stop with `e` may take a connection down, `e` not being the wait. -/
theorem Rights.Disconnects.but : (Rights.but e).Disconnects :=
  ⟨Rights.Relistens.but hwait, trivial, fun _ => trivial, fun _ => trivial⟩

/-- Who may do all but stop with `e` may accept, `e` not being the wait. -/
theorem Rights.Accepts.but : (Rights.but e).Accepts :=
  ⟨Rights.Relistens.but hwait, trivial, fun _ => trivial, trivial, fun _ => trivial,
    fun _ _ => trivial⟩

/-- Who may do all but stop with `e` may close a socket, `e` not being the wait. -/
theorem Rights.Closes.but : (Rights.but e).Closes :=
  ⟨hwait, fun _ => trivial, fun _ => trivial, trivial, fun _ => trivial, fun _ => trivial⟩

/-- Who may do all but stop with `e` may close a connection, `e` not being the wait. -/
theorem Rights.Hangs.but : (Rights.but e).Hangs :=
  ⟨Rights.Closes.but hwait, Rights.Relistens.but hwait, fun _ => trivial⟩

end Waiting

/-- Who may do all but stop with `e` may name the peer. -/
theorem Rights.Names.but (k : Fin nSockets) : (Rights.but e).Names k :=
  ⟨fun _ _ _ => trivial, fun _ _ _ => trivial⟩

/-- Who may do all but stop with `e` may connect, `e` not being the wait. -/
theorem Rights.Connects.but (hwait : Stop.waiting ≠ e) : (Rights.but e).Connects :=
  ⟨Rights.Binds.but hwait, trivial, Rights.Names.but, fun _ => trivial, fun _ _ => trivial⟩

/-- Any list of bytes may be written. -/
theorem Rights.fits_but (k : Fin nSockets) (buf : List Byte) : Fits B (.but e) k buf :=
  .inr (.inr fun _ _ => trivial)

end Stops

end W5100

end Nucleo
