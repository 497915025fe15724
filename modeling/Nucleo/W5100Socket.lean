/-
# The socket calls

`w5100_socket.c` over the two tables and the chip.  Chip computations are run on the
chip's part of the world (`onChip`), so they leave the tables alone by construction.

Results follow the source also where it returns 1 after setting `errno`, and where
`send` replaces the -1 of a broken connection by the number of bytes written.
Dereferencing the null `fd_data` of a slot stops the computation.
-/
import Nucleo.FileTable

namespace Nucleo

namespace W5100

section Socket

variable {χ φ : Type} (B : Board χ) (fuel : ℕ)

/-- Run a computation of the chip. -/
def onChip {α : Type} (x : Comp χ Stop α) : Sys χ φ α :=
  Comp.focus World.chip (fun c w => w.setChip c) x

/-- The socket with a number. -/
def getSlot (i : Fin nSockets) : Sys χ φ Slot := do pure ((← get).sockets i)

/-- Change a socket. -/
def modifySlot (i : Fin nSockets) (f : Slot → Slot) : Sys χ φ Unit :=
  modify fun w => w.setSlot i (f (w.sockets i))

/-! ## Descriptors and slots -/

/-- `get_socket_from_fd`. -/
def getSocketFromFd (fd : ℤ) : Sys χ φ (Option (Fin nSockets)) := do
  match ← fileStructGet fd with
  | none => fail .EBADF none
  | some d =>
      let f := (← get).files d
      if f.stat.fileType ≠ .sock then fail .ENOTSOCK none
      else match f.opaquePtr with
        | .slot i => pure (some i)
        | _ => fail .EBADF none

/-- `fill_fd_struct`. -/
def fillFdStruct (d : Fin openMax) (isocket : Fin nSockets) : Sys χ φ Unit :=
  modifyFile d fun f =>
    { f with
      isatty := false, isopen := true,
      write := some .w5100, read := some .w5100, close := some .w5100, poll := some .w5100,
      stat := { f.stat with fileType := .sock, permissions := 0o777, stBlksize := 1024 },
      statusFlags := oRdwr, opaquePtr := .slot isocket }

/-- The first free slot. -/
def firstFreeSlot (sockets : Fin nSockets → Slot) : Option (Fin nSockets) :=
  (List.finRange nSockets).find? fun i => (sockets i).fd = socketFreeFd

/-- `socket_alloc`; the source returns -1 for `none`. -/
def socketAlloc : Sys χ φ (Option (Fin nSockets)) := do
  match firstFreeSlot (← get).sockets with
  | none => fail .ENFILE none
  | some i =>
      modifySlot i fun s => { s with fd := (i.val : ℤ) }
      pure (some i)

/-- `socket_free`. -/
def socketFree (isocket : Fin nSockets) : Sys χ φ Unit :=
  modifySlot isocket fun s =>
    { s with fd := socketFreeFd, fdData := none, connectionData := none, state := .none }

/-- `s->fd_data->status_flags & O_NONBLOCK`. -/
def isNonblock (i : Fin nSockets) : Sys χ φ Bool := do
  match (← getSlot i).fdData with
  | none => throw .nullDeref
  | some d => pure (((← get).files d).statusFlags &&& oNonblock != 0)

/-! ## `socket` -/

/-- The mode of the chip for a socket type. -/
def sockMode : SockType → Byte
  | .stream => sockModeTcp
  | .dgram => sockModeUdp
  | .raw => sockModeIpraw
  | .other => sockModeTcp

/-- What `socket_create` stores in the slot. -/
def Slot.created (s : Slot) (isocket : Fin nSockets) (type : SockType) (d : Fin openMax) : Slot :=
  { s with
    fd := (d.val : ℤ), isocket := isocket, domain := .inet, type := type, protocol := 0,
    state := .created,
    destAddress := { s.destAddress with sinFamily := .unspec },
    sockname := { s.sockname with sinFamily := .unspec },
    fdData := some d, connectionData := none,
    recvTimeout := timespecZero, sendTimeout := timespecZero, canBroadcast := false }

/-- `socket_create`. -/
def socketCreate (type : SockType) : Sys χ φ ℤ := do
  match ← socketAlloc with
  | none => fail .ENOMEM (-1)
  | some isocket =>
      match ← fileAlloc with
      | none =>
          socketFree isocket
          fail .ENFILE (-1)
      | some d =>
          fillFdStruct d isocket
          modifySlot isocket fun s => s.created isocket type d
          onChip (writeSockReg B regMR isocket (sockMode type))
          pure (d.val : ℤ)

/-- `socket`. -/
def socket (domain : Family) (type : SockType) (protocol : ℤ) : Sys χ φ ℤ :=
  if domain ≠ .inet then fail .EAFNOSUPPORT (-1)
  else if type = .other then fail .EPROTOTYPE (-1)
  else if protocol ≠ 0 then fail .EPROTONOSUPPORT (-1)
  else socketCreate B type

/-! ## `close` -/

/-- The wait for `LISTEN` and the return to `LISTENING`, which `w5100_sock_close` and
`manage_disconnect` have in common. -/
def relisten (i isocket : Fin nSockets) : Sys χ φ Unit := do
  onChip (command B fuel isocket cmdOpen)
  onChip (command B fuel isocket cmdListen)
  let _ ← onChip (readUntil B fuel regSR isocket isListenOrEstablished)
  modifySlot i fun s => { s with state := .listening }

/-- Mark the descriptor closed and free it: `p->isopen = 0; file_free(p->fd)`. -/
def releaseFile (d : Fin openMax) : Sys χ φ Unit := do
  modifyFile d fun f => { f with isopen := false }
  fileFree ((← get).files d).fd

/-- The branch of `w5100_sock_close` for the descriptor in `fd_data`. -/
def closeFdData (i : Fin nSockets) (d : Fin openMax) : Sys χ φ ℤ := do
  let isocket := (← getSlot i).isocket
  releaseFile d
  modifySlot i fun s => { s with fdData := none }
  let s ← getSlot i
  if s.state ≠ .accepted then
    onChip (command B fuel isocket (if s.state = .connected then cmdDiscon else cmdClose))
    let _ ← onChip (readUntil B fuel regSR isocket (fun sr => sr = sockClosed))
    socketFree isocket
  pure 0

/-- The branch of `w5100_sock_close` for the descriptor in `connection_data`. -/
def closeConnectionData (i : Fin nSockets) (d : Fin openMax) : Sys χ φ ℤ := do
  let isocket := (← getSlot i).isocket
  releaseFile d
  modifySlot i fun s => { s with connectionData := none }
  onChip (command B fuel isocket cmdDiscon)
  let _ ← onChip (readUntil B fuel regSR isocket (fun sr => sr = sockClosed))
  let s ← getSlot i
  if s.fdData = none then socketFree isocket
  else relisten B fuel i isocket
  pure 0

/-- `w5100_sock_close`. -/
def sockClose (fd : ℤ) : Sys χ φ ℤ := do
  match ← getSocketFromFd fd with
  | none => pure (-1)
  | some i =>
      let w ← get
      match (w.sockets i).fdData.filter (fun d => (w.files d).fd = fd) with
      | some d => closeFdData B fuel i d
      | none =>
          match (w.sockets i).connectionData.filter (fun d => (w.files d).fd = fd) with
          | some d => closeConnectionData B fuel i d
          | none => fail .EBADF (-1)

/-! ## `bind`, `connect` and `listen` -/

/-- One pass of `get_avail_port` over the sockets: is the port used by one of them? -/
def portUsed (port : InPort) : List (Fin nSockets) → Sys χ φ Bool
  | [] => pure false
  | i :: rest => do
      if (← getSlot i).state ≠ .none then
        let p ← onChip (readSockReg16 B regPORT i)
        if p = port then pure true else portUsed port rest
      else portUsed port rest

/-- `get_avail_port`. -/
def getAvailPort : Sys χ φ InPort :=
  Comp.iter Stop.waiting (fun port => do
    if ← portUsed B port (List.finRange nSockets) then pure (.inl (port - 1))
    else pure (.inr port)) fuel (htons 0x7FF0)

/-- `bind_udp`. -/
def bindUdp (i : Fin nSockets) (port : InPort) : Sys χ φ Unit := do
  let isocket := (← getSlot i).isocket
  onChip (writeSockReg16 B regPORT isocket port)
  onChip (command B fuel isocket cmdOpen)
  let _ ← onChip (readUntil B fuel regSR isocket (fun sr => sr = sockUdp))
  modifySlot i fun s => { s with sockname := ⟨.inet, port, inaddrAny⟩, state := .bound }

/-- `check_bind_udp`. -/
def checkBindUdp (i : Fin nSockets) : Sys χ φ Unit := do
  if (← getSlot i).state = .created then
    let port ← getAvailPort B fuel
    bindUdp B fuel i port

/-! ### `connect` -/

/-- `connect_tcp`. -/
def connectTcp (i : Fin nSockets) (addr : SockaddrIn) : Sys χ φ ℤ := do
  let s ← getSlot i
  if addr.sinFamily ≠ .inet then fail .EAFNOSUPPORT (-1)
  else if s.state = .connected ∨ s.state = .accepted then fail .EISCONN (-1)
  else if s.state ≠ .created then fail .EOPNOTSUPP (-1)
  else
    onChip (writeSockReg16 B regPORT s.isocket addr.sinPort)
    onChip (command B fuel s.isocket cmdOpen)
    let _ ← onChip (readUntil B fuel regSR s.isocket (fun sr => sr = sockInit))
    onChip (writeSockReg32 B regDIPR s.isocket addr.sinAddr)
    onChip (writeSockReg16 B regDPORT s.isocket addr.sinPort)
    onChip (command B fuel s.isocket cmdConnect)
    let sr ← onChip (readUntil B fuel regSR s.isocket
      (fun sr => sr = sockClosed ∨ sr = sockEstablished))
    if sr = sockEstablished then
      modifySlot i fun s => { s with state := .connected, destAddress := addr }
      pure 0
    else fail .ECONNREFUSED (-1)

/-- `connect_udp`. -/
def connectUdp (i : Fin nSockets) (addr : SockaddrIn) : Sys χ φ ℤ :=
  match addr.sinFamily with
  | .unspec => do
      modifySlot i fun s => { s with destAddress := { s.destAddress with sinFamily := .unspec } }
      checkBindUdp B fuel i
      pure 0
  | .inet => do
      modifySlot i fun s => { s with destAddress := addr }
      checkBindUdp B fuel i
      pure 0
  | .other => fail .EAFNOSUPPORT (-1)

/-- `connect`. -/
def connect (sockfd : ℤ) (addr : SockaddrIn) : Sys χ φ ℤ := do
  match ← getSocketFromFd sockfd with
  | none => pure (-1)
  | some i =>
      match (← getSlot i).type with
      | .stream => connectTcp B fuel i addr
      | .dgram => connectUdp B fuel i addr
      | _ => fail .EAFNOSUPPORT (-1)

/-! ### `bind` and `listen` -/

/-- The branch of `bind` for a stream socket. -/
def bindTcp (i : Fin nSockets) (addr : SockaddrIn) : Sys χ φ Unit := do
  let isocket := (← getSlot i).isocket
  onChip (writeSockReg16 B regPORT isocket addr.sinPort)
  onChip (command B fuel isocket cmdOpen)
  let _ ← onChip (readUntil B fuel regSR isocket (fun sr => sr = sockInit))
  modifySlot i fun s => { s with sockname := addr, state := .bound }

/-- `bind`. -/
def bind (sockfd : ℤ) (addr : SockaddrIn) : Sys χ φ ℤ := do
  match ← getSocketFromFd sockfd with
  | none => pure (-1)
  | some i =>
      let s ← getSlot i
      if addr.sinFamily ≠ .inet then fail .EAFNOSUPPORT (-1)
      else if s.state ≠ .created then fail .EINVAL 1
      else match s.type with
        | .stream => do
            bindTcp B fuel i addr
            pure 0
        | .dgram => do
            bindUdp B fuel i addr.sinPort
            pure 0
        | _ => fail .EBADF (-1)

/-- `listen`; the backlog is ignored. -/
def listen (sockfd : ℤ) : Sys χ φ ℤ := do
  match ← getSocketFromFd sockfd with
  | none => pure (-1)
  | some i =>
      let s ← getSlot i
      if s.state ≠ .bound then fail .EDESTADDRREQ 1
      else if s.type ≠ .stream then fail .EOPNOTSUPP (-1)
      else
        onChip (command B fuel s.isocket cmdListen)
        let _ ← onChip (readUntil B fuel regSR s.isocket isListenOrEstablished)
        modifySlot i fun s => { s with state := .listening }
        pure 0

/-! ## `accept` -/

/-- The branch of `accept` for an established connection: the descriptor and, when the
caller wants it, the address of the peer. -/
def acceptEstablished (i : Fin nSockets) (wantAddr : Bool) :
    Sys χ φ (ℤ × Option SockaddrIn) := do
  let isocket := (← getSlot i).isocket
  match ← fileAlloc with
  | none =>
      setErrno .ENFILE
      onChip (command B fuel isocket cmdClose)
      onChip (command B fuel isocket cmdOpen)
      onChip (command B fuel isocket cmdListen)
      pure (-1, none)
  | some d =>
      modifySlot i fun s => { s with state := .accepted }
      fillFdStruct d isocket
      modifySlot i fun s => { s with connectionData := some d }
      if wantAddr then
        let sinAddr ← onChip (readSockReg32 B regDIPR isocket)
        let sinPort ← onChip (readSockReg16 B regDPORT isocket)
        pure ((d.val : ℤ), some ⟨.inet, sinPort, sinAddr⟩)
      else pure ((d.val : ℤ), none)

/-- The loop of `accept`. -/
def acceptLoop (i : Fin nSockets) (wantAddr nonblock : Bool) : Sys χ φ (ℤ × Option SockaddrIn) :=
  Comp.iter Stop.waiting (fun _ : Unit => do
    let isocket := (← getSlot i).isocket
    let sr ← onChip (readSockReg B regSR isocket)
    if sr = sockEstablished then
      let r ← acceptEstablished B fuel i wantAddr
      pure (.inr r)
    else if nonblock then fail .EAGAIN (.inr (-1, none))
    else pure (.inl ())) fuel ()

/-- `accept`. -/
def accept (sockfd : ℤ) (wantAddr : Bool) : Sys χ φ (ℤ × Option SockaddrIn) := do
  match ← getSocketFromFd sockfd with
  | none => pure (-1, none)
  | some i =>
      let s ← getSlot i
      if s.state ≠ .listening then fail .EINVAL (1, none)
      else if s.type ≠ .stream then fail .EOPNOTSUPP (-1, none)
      else
        let nonblock ← isNonblock i
        acceptLoop B fuel i wantAddr nonblock

/-! ## Timeouts and broken connections -/

/-- `struct timeout_manager`: the end of the wait, if there is one. -/
abbrev TimeoutManager := Option Timespec

/-- `timeout_init`; `clock_gettime` is called only if there is a timeout. -/
def timeoutInit (timeout : Timespec) : Sys χ φ TimeoutManager :=
  if (timespecDiff timespecZero timeout).2 ≠ 0 then do
    let now ← onChip (clockGettime B)
    pure (some (timespecAdd now timeout))
  else pure none

/-- `if (!nonblock) { timeout_init(...); }`. -/
def timeoutUnless (nonblock : Bool) (timeout : Timespec) : Sys χ φ TimeoutManager :=
  if nonblock then pure none else timeoutInit B timeout

/-- `timeout_ended`. -/
def timeoutEnded (tom : TimeoutManager) : Sys χ φ Bool :=
  match tom with
  | none => pure false
  | some tend => do
      let cur ← onChip (clockGettime B)
      if (timespecDiff tend cur).2 < 0 then fail .EAGAIN true
      else pure false

/-- `manage_disconnect`: has the connection ended? -/
def manageDisconnect (i : Fin nSockets) : Sys χ φ Bool := do
  let isocket := (← getSlot i).isocket
  let sr ← onChip (readSockReg B regSR isocket)
  if sr ≠ sockEstablished then
    setErrno (if sr = sockCloseWait then .ECONNRESET else .ETIMEDOUT)
    onChip (command B fuel isocket cmdDiscon)
    let _ ← onChip (readUntil B fuel regSR isocket (fun sr => sr = sockClosed))
    let s ← getSlot i
    if s.state = .accepted ∧ s.fdData ≠ none then relisten B fuel i isocket
    else modifySlot i fun s => { s with state := .disconnected }
    pure true
  else pure false

/-! ## `recv` -/

/-- What `recvfrom` returns and stores: the bytes put into the buffer, and the address
and port put into `address`. -/
structure Received where
  ret : ℤ
  buf : List Byte
  address : Option (InAddr × InPort)
  deriving DecidableEq, Repr

/-- A return without data. -/
def Received.empty (ret : ℤ) : Received := ⟨ret, [], none⟩

/-- A datagram of at least its header in the receive ring. -/
def recvDatagram (isocket : Fin nSockets) (wantAddr : Bool) : Comp χ Stop Received := do
  let pread ← readBufPstart B isocket
  let (header, pread) ← readBufSure B isocket 8 pread
  let msgLen := htons (word16 (header.getD 6 0) (header.getD 7 0))
  let (bytes, pread) ← readBufSure B isocket msgLen.toNat pread
  readBufRecv B fuel isocket pread
  let peer := (load32 (fun k => header.getD k 0) 0, word16 (header.getD 4 0) (header.getD 5 0))
  pure ⟨(msgLen.toNat : ℤ), bytes, if wantAddr then some peer else none⟩

/-- The part of a round of `recvfrom` that depends on the socket type: a result ends the
loop. -/
def recvRound (i : Fin nSockets) (len : ℕ) (wantAddr : Bool) : Sys χ φ (Option Received) := do
  let s ← getSlot i
  match s.type with
  | .stream =>
      let (bytes, nread) ← onChip (readBuf B fuel s.isocket len)
      if nread ≠ 0 then pure (some ⟨(nread : ℤ), bytes, none⟩)
      else if ← manageDisconnect B fuel i then pure (some (.empty (-1)))
      else pure none
  | .dgram =>
      let toread ← onChip (readBufLen B s.isocket)
      if toread.toNat ≥ 8 then
        let r ← onChip (recvDatagram B fuel s.isocket wantAddr)
        pure (some r)
      else pure none
  | _ => pure none

/-- The loop of `recvfrom`. -/
def recvLoop (i : Fin nSockets) (len : ℕ) (wantAddr nonblock : Bool) (tom : TimeoutManager) :
    Sys χ φ Received :=
  Comp.iter Stop.waiting (fun _ : Unit => do
    match ← recvRound B fuel i len wantAddr with
    | some r => pure (.inr r)
    | none =>
        if nonblock then fail .EAGAIN (.inr (.empty (-1)))
        else if ← timeoutEnded B tom then pure (.inr (.empty (-1)))
        else pure (.inl ())) fuel ()

/-- `recvfrom`; `wantAddr` says that neither `address` nor `address_len` is null. -/
def recvfrom (sockfd : ℤ) (len : ℕ) (wantAddr : Bool) : Sys χ φ Received := do
  match ← getSocketFromFd sockfd with
  | none => pure (.empty (-1))
  | some i =>
      let s ← getSlot i
      if s.type = .stream ∧ s.state ≠ .accepted ∧ s.state ≠ .connected then
        fail .ENOTCONN (.empty 1)
      else if s.type = .dgram ∧ s.state ≠ .bound ∧ s.state ≠ .created then
        fail .ENOTCONN (.empty 1)
      else if len = 0 then pure (.empty 0)
      else
        let nonblock ← isNonblock i
        let tom ← timeoutUnless B nonblock s.recvTimeout
        recvLoop B fuel i len wantAddr nonblock tom

/-- `recv`. -/
def recv (sockfd : ℤ) (len : ℕ) : Sys χ φ Received := recvfrom B fuel sockfd len false

/-! ## `send` -/

/-- The loop of `send` on the bytes still to write; it ends with those left over. -/
def sendLoop (i : Fin nSockets) (nonblock : Bool) (tom : TimeoutManager) (buf : List Byte) :
    Sys χ φ (List Byte) :=
  Comp.iter Stop.waiting (fun bytes => do
    if bytes.length = 0 then pure (.inr bytes)
    else
      let isocket := (← getSlot i).isocket
      let written ← onChip (writeBuf B fuel isocket bytes)
      if written > 0 then
        if nonblock then pure (.inr (bytes.drop written))
        else pure (.inl (bytes.drop written))
      else if ← manageDisconnect B fuel i then pure (.inr bytes)
      else if nonblock then fail .EAGAIN (.inr bytes)
      else if ← timeoutEnded B tom then pure (.inr bytes)
      else pure (.inl bytes)) fuel buf

/-- The branch of `send` for a stream socket. -/
def sendTcp (i : Fin nSockets) (buf : List Byte) : Sys χ φ ℤ := do
  let s ← getSlot i
  if s.state ≠ .accepted ∧ s.state ≠ .connected then fail .ENOTCONN 1
  else
    let nonblock ← isNonblock i
    let tom ← timeoutUnless B nonblock s.sendTimeout
    let rest ← sendLoop B fuel i nonblock tom buf
    pure (wrap32 (buf.length - rest.length))

/-- The loop of `sendto`. -/
def sendtoLoop (i : Fin nSockets) (buf : List Byte) (peer : SockaddrIn) (nonblock : Bool)
    (tom : TimeoutManager) : Sys χ φ ℤ :=
  Comp.iter Stop.waiting (fun _ : Unit => do
    let isocket := (← getSlot i).isocket
    let nfree ← onChip (writeBufLen B isocket)
    if nfree.toNat ≥ buf.length then
      onChip (writeSockReg32 B regDIPR isocket peer.sinAddr)
      onChip (writeSockReg16 B regDPORT isocket peer.sinPort)
      let n ← onChip (writeBuf B fuel isocket buf)
      pure (.inr (n : ℤ))
    else if nonblock then fail .EAGAIN (.inr 1)
    else if ← timeoutEnded B tom then pure (.inr (-1))
    else pure (.inl ())) fuel ()

/-- The branch of `sendto` for a datagram socket. -/
def sendtoUdp (i : Fin nSockets) (buf : List Byte) (destAddress : Option SockaddrIn) :
    Sys χ φ ℤ := do
  checkBindUdp B fuel i
  let s ← getSlot i
  if buf.length > getTxSize s.isocket then fail .EMSGSIZE (-1)
  else match destAddress with
    | none => fail .EDESTADDRREQ (-1)
    | some peer =>
        if peer.sinAddr = inaddrBroadcast ∧ ¬ s.canBroadcast then fail .EINVAL (-1)
        else do
          let nonblock ← isNonblock i
          let tom ← timeoutUnless B nonblock s.sendTimeout
          sendtoLoop B fuel i buf peer nonblock tom

/-- `send`.  For a datagram socket the source goes on with `sendto`, which finds the
same slot again. -/
def send (sockfd : ℤ) (buf : List Byte) : Sys χ φ ℤ := do
  match ← getSocketFromFd sockfd with
  | none => pure (-1)
  | some i =>
      let s ← getSlot i
      match s.type with
      | .dgram =>
          if s.destAddress.sinFamily = .unspec then fail .EDESTADDRREQ (-1)
          else sendtoUdp B fuel i buf (some s.destAddress)
      | .stream => sendTcp B fuel i buf
      | _ => fail .EDESTADDRREQ (-1)

/-- `sendto`.  For a stream socket the source goes on with `send`. -/
def sendto (sockfd : ℤ) (buf : List Byte) (destAddress : Option SockaddrIn) : Sys χ φ ℤ := do
  match ← getSocketFromFd sockfd with
  | none => pure (-1)
  | some i =>
      match (← getSlot i).type with
      | .stream => sendTcp B fuel i buf
      | .dgram => sendtoUdp B fuel i buf destAddress
      | _ => fail .EBADF (-1)

/-! ## `setsockopt` -/

/-- `option_name` with what `option_value` points to. -/
inductive SocketOption
  | broadcast (value : ℤ)
  | rcvtimeo (value : Timeval)
  | sndtimeo (value : Timeval)
  | other
  deriving DecidableEq, Repr

/-- `setsockopt`; `solSocket` says that `level` is `SOL_SOCKET`. -/
def setsockopt (sockfd : ℤ) (solSocket : Bool) (option : SocketOption) : Sys χ φ ℤ := do
  match ← getSocketFromFd sockfd with
  | none => pure (-1)
  | some i =>
      if ¬ solSocket then fail .EINVAL (-1)
      else match option with
        | .broadcast value => do
            modifySlot i fun s => { s with canBroadcast := value ≠ 0 }
            pure 0
        | .rcvtimeo value => do
            modifySlot i fun s => { s with recvTimeout := timevalToTimespec value }
            pure 0
        | .sndtimeo value => do
            modifySlot i fun s => { s with sendTimeout := timevalToTimespec value }
            pure 0
        | .other => fail .EINVAL (-1)

/-! ## `getsockopt`, `getsockname` and `getpeername` -/

/-- The values of `option_name` that `getsockopt` tells apart. -/
inductive OptionName
  | acceptconn | broadcast | rcvtimeo | sndtimeo | type | other
  deriving DecidableEq, Repr

/-- What `getsockopt` stores through `option_value`. -/
inductive OptionValue
  | flag (value : Bool)
  | time (value : Timeval)
  | type (value : SockType)
  deriving DecidableEq, Repr

/-- `getsockopt`: the value returned and what is stored, which is nothing for
`SO_BROADCAST`. -/
def getsockopt (sockfd : ℤ) (solSocket : Bool) (name : OptionName) :
    Sys χ φ (ℤ × Option OptionValue) := do
  match ← getSocketFromFd sockfd with
  | none => pure (-1, none)
  | some i =>
      let s ← getSlot i
      if ¬ solSocket then fail .EINVAL (-1, none)
      else match name with
        | .acceptconn => pure (0, some (.flag (s.state = .listening)))
        | .broadcast => pure (0, none)
        | .rcvtimeo => pure (0, some (.time (timespecToTimeval s.recvTimeout)))
        | .sndtimeo => pure (0, some (.time (timespecToTimeval s.sendTimeout)))
        | .type => pure (0, some (.type s.type))
        | .other => fail .EINVAL (-1, none)

/-- `get_sockaddr_in`: the value returned, and the address with the number of its bytes that
are stored.  `wantAddr` says that `address` is not null; a null `address_len` is `none`. -/
def getSockaddrIn (sockAddr : SockaddrIn) (wantAddr : Bool) (addressLen : Option ℕ) :
    Sys χ φ (ℤ × Option (SockaddrIn × ℕ)) :=
  let len := match addressLen with
    | some len => if len > sockaddrInSize then sockaddrInSize else len
    | none => sockaddrInSize
  if ¬ wantAddr then fail .EINVAL (-1, none) else pure (0, some (sockAddr, len))

/-- What `getsockname` and `getpeername` have in common: an address of the slot, or the
error where it is not known. -/
def getName (address : Slot → SockaddrIn) (unknown : Errno) (sockfd : ℤ) (wantAddr : Bool)
    (addressLen : Option ℕ) : Sys χ φ (ℤ × Option (SockaddrIn × ℕ)) := do
  match ← getSocketFromFd sockfd with
  | none => pure (-1, none)
  | some i =>
      let s ← getSlot i
      if (address s).sinFamily = .unspec then fail unknown (-1, none)
      else getSockaddrIn (address s) wantAddr addressLen

/-- `getsockname`. -/
def getsockname (sockfd : ℤ) (wantAddr : Bool) (addressLen : Option ℕ) :
    Sys χ φ (ℤ × Option (SockaddrIn × ℕ)) :=
  getName Slot.sockname .EINVAL sockfd wantAddr addressLen

/-- `getpeername`. -/
def getpeername (sockfd : ℤ) (wantAddr : Bool) (addressLen : Option ℕ) :
    Sys χ φ (ℤ × Option (SockaddrIn × ℕ)) :=
  getName Slot.destAddress .ENOTCONN sockfd wantAddr addressLen

/-! ## `poll` -/

/-- `POLLIN`. -/
def pollIn : BitVec 16 := 0x0001
/-- `POLLRDNORM`. -/
def pollRdnorm : BitVec 16 := 0x0002
/-- `POLLOUT`. -/
def pollOut : BitVec 16 := 0x0010
/-- `POLLWRNORM`. -/
def pollWrnorm : BitVec 16 := pollOut
/-- `POLLERR`. -/
def pollErr : BitVec 16 := 0x0080
/-- `POLLHUP`. -/
def pollHup : BitVec 16 := 0x0100
/-- `POLLNVAL`. -/
def pollNval : BitVec 16 := 0x0200

/-- `w5100_sock_poll_rw`. -/
def sockPollRw (isocket : Fin nSockets) : Comp χ Stop (BitVec 16) := do
  let toread ← readBufLen B isocket
  let towrite ← writeBufLen B isocket
  pure ((if toread.toNat > 0 then pollRdnorm ||| pollIn else 0)
    ||| (if towrite.toNat > 0 then pollWrnorm ||| pollOut else 0))

/-- `w5100_sock_poll`. -/
def sockPoll (fd : ℤ) : Sys χ φ (BitVec 16) := do
  match ← getSocketFromFd fd with
  | none => pure pollNval
  | some i =>
      let s ← getSlot i
      if s.state = .listening then
        let sr ← onChip (readSockReg B regSR s.isocket)
        pure (if sr = sockEstablished then pollRdnorm ||| pollIn else 0)
      else if s.type = .stream ∧ (s.state = .connected ∨ s.state = .accepted) then
        let sr ← onChip (readSockReg B regSR s.isocket)
        if sr ≠ sockEstablished then pure pollHup
        else onChip (sockPollRw B s.isocket)
      else if s.type = .dgram ∧ (s.state = .connected ∨ s.state = .bound) then
        onChip (sockPollRw B s.isocket)
      else pure pollNval

/-! ## Initialisation -/

/-- An entry of `w5100_sockets` before the program starts. -/
def Slot.zero : Slot where
  fd := 0
  isocket := 0
  domain := .other
  type := .other
  protocol := 0
  state := .none
  sockname := ⟨.other, 0, 0⟩
  destAddress := ⟨.other, 0, 0⟩
  canBroadcast := false
  recvTimeout := timespecZero
  sendTimeout := timespecZero
  fdData := none
  connectionData := none

/-- `w5100_mac_addr`. -/
def macAddr : List Byte := [0x80, 0x81, 0x82, 0x83, 0x84, 0x85]

/-- The addresses that `w5100_socket_init` configures with `W5100_STATIC_IP`. -/
structure StaticIp where
  ip : InAddr
  gateway : InAddr
  subnet : InAddr
  deriving DecidableEq, Repr

/-- The default addresses: 192.168.1.99, 192.168.1.1 and 255.255.255.0. -/
def StaticIp.default : StaticIp := ⟨0x6301A8C0, 0x0101A8C0, 0x00FFFFFF⟩

/-- The chip's part of `w5100_socket_init` before the slots are freed. -/
def chipReset : Comp χ Stop Unit := do
  writeByte B 0x0000 0x80
  Comp.iter Stop.waiting (fun _ : Unit => do
    let v ← readByte B 0x0000
    pure (if v &&& 0x80 = 0 then .inr () else .inl ())) fuel ()

/-- The chip's part of `w5100_socket_init` after the slots are freed. -/
def chipConfigure (static : Option StaticIp) : Comp χ Stop Unit := do
  writeByte B 0x001A 0x55
  writeByte B 0x001B 0x55
  writeMem B 0x0009 macAddr
  match static with
  | none => pure ()
  | some a =>
      writeMem B 0x000F (bytes32 a.ip)
      writeMem B 0x0001 (bytes32 a.gateway)
      writeMem B 0x0005 (bytes32 a.subnet)

/-- `w5100_socket_init`; without `W5100_STATIC_IP` no address is configured. -/
def socketInit (static : Option StaticIp) : Sys χ φ Unit := do
  onChip (chipReset B fuel)
  (List.finRange nSockets).forM socketFree
  onChip (chipConfigure B static)

end Socket

/-! ## Rules -/

section Rules

open Comp

variable {χ φ : Type} {w : World χ φ}

/-- What holds after a computation on the chip. -/
@[simp] theorem post_onChip {α : Type} {x : Comp χ Stop α} {Q : α → World χ φ → Prop} :
    Post (onChip x) Q w ↔ Post x (fun a c => Q a (w.setChip c)) w.chip := post_focus

/-- What holds of a socket that is looked at. -/
@[simp] theorem post_getSlot {i : Fin nSockets} {Q : Slot → World χ φ → Prop} :
    Post (getSlot i) Q w ↔ Q (w.sockets i) w := by
  unfold getSlot
  rw [post_bind, post_get, post_pure]

/-- What holds after a socket is changed. -/
@[simp] theorem post_modifySlot {i : Fin nSockets} {f : Slot → Slot}
    {Q : Unit → World χ φ → Prop} :
    Post (modifySlot i f) Q w ↔ Q () (w.setSlot i (f (w.sockets i))) := post_modify

/-- `get_socket_from_fd` returns the slot of an entry of socket type, open or not. -/
theorem post_getSocketFromFd {fd : ℤ} {Q : Option (Fin nSockets) → World χ φ → Prop}
    (hnone : ∀ e, Q none (w.setErrno e))
    (hsome : ∀ (d : Fin openMax) (i : Fin nSockets), fd = (d.val : ℤ) →
      (w.files d).stat.fileType = .sock → (w.files d).opaquePtr = .slot i → Q (some i) w) :
    Post (getSocketFromFd fd) Q w := by
  unfold getSocketFromFd
  rw [post_bind]
  apply post_fileStructGet
  · intro _
    exact post_fail.2 (hnone _)
  · intro d hd
    dsimp only
    rw [post_bind, post_get, post_ite]
    constructor
    · intro _
      exact post_fail.2 (hnone _)
    · intro hsock
      cases hptr : (w.files d).opaquePtr with
      | slot i => exact post_pure.2 (hsome d i hd (not_not.1 hsock) hptr)
      | null => exact post_fail.2 (hnone _)
      | fil k => exact post_fail.2 (hnone _)
      | dir k => exact post_fail.2 (hnone _)

/-- The slot of a socket descriptor. -/
theorem post_getSocketFromFd_of_sock {d : Fin openMax} {i : Fin nSockets}
    {Q : Option (Fin nSockets) → World χ φ → Prop}
    (hsock : (w.files d).stat.fileType = .sock) (hptr : (w.files d).opaquePtr = .slot i) :
    Post (getSocketFromFd (d.val : ℤ)) Q w ↔ Q (some i) w := by
  unfold getSocketFromFd
  rw [fileStructGet_coe, post_bind, post_pure]
  dsimp only
  rw [post_bind, post_get, if_neg (not_not.2 hsock), hptr]
  exact post_pure

/-- A descriptor of a socket leads to its slot. -/
theorem getSocketFromFd_of_sock {d : Fin openMax} {i : Fin nSockets}
    (hsock : (w.files d).stat.fileType = .sock) (hptr : (w.files d).opaquePtr = .slot i) :
    getSocketFromFd (d.val : ℤ) w = .ok (some i, w) := by
  unfold getSocketFromFd
  rw [fileStructGet_coe]
  show (if (w.files d).stat.fileType ≠ .sock then fail .ENOTSOCK none
    else match (w.files d).opaquePtr with
      | .slot i => pure (some i)
      | _ => fail .EBADF none : Sys χ φ (Option (Fin nSockets))) w = _
  rw [if_neg (not_not.2 hsock), hptr]
  rfl

/-- **The mode is that of `fd_data`**. -/
theorem isNonblock_of_fdData {i : Fin nSockets} {d : Fin openMax}
    (hd : (w.sockets i).fdData = some d) :
    isNonblock i w = .ok ((w.files d).statusFlags &&& oNonblock != 0, w) := by
  unfold isNonblock
  rw [bind_eq, show getSlot i w = .ok (w.sockets i, w) from rfl]
  dsimp only
  rw [hd]
  rfl

/-- What holds of the mode. -/
theorem post_isNonblock {i : Fin nSockets} {Q : Bool → World χ φ → Prop}
    (h : ∀ d, (w.sockets i).fdData = some d →
      Q ((w.files d).statusFlags &&& oNonblock != 0) w) : Post (isNonblock i) Q w := by
  unfold isNonblock
  rw [post_bind, post_getSlot]
  cases hd : (w.sockets i).fdData with
  | none => exact post_throw.2 trivial
  | some d =>
      dsimp only
      rw [post_bind, post_get, post_pure]
      exact h d hd

/-! ## Computations that leave the tables alone -/

open World

/-- What holds whatever the chip answers. -/
theorem post_onChip_of_forall {α : Type} {x : Comp χ Stop α} {Q : α → World χ φ → Prop}
    (h : ∀ a c, Q a (w.setChip c)) : Post (onChip x) Q w :=
  post_onChip.2 fun a c _ => h a c

theorem post_onChip_bind {α β : Type} {x : Comp χ Stop α} {f : α → Sys χ φ β}
    {Q : β → World χ φ → Prop} (h : ∀ a c, Post (f a) Q (w.setChip c)) :
    Post (onChip x >>= f) Q w :=
  post_bind.2 (post_onChip_of_forall h)

variable (B : Board χ) (fuel : ℕ)

/-- A connection that has not ended is left alone. -/
theorem same_manageDisconnect (i : Fin nSockets) :
    Post (manageDisconnect B fuel i) (fun gone w' => gone = false → Same w w') w := by
  unfold manageDisconnect
  rw [post_bind, post_getSlot]
  apply post_onChip_bind
  intro sr c
  rw [post_ite]
  constructor
  · intro _
    -- the connection has ended, whatever is done about it
    rw [post_bind, post_setErrno]
    apply post_onChip_bind
    intro _ c1
    apply post_onChip_bind
    intro _ c2
    rw [post_bind, post_getSlot, post_ite]
    constructor
    · intro _
      rw [post_bind]
      intro _ w1 _
      exact post_pure.2 fun h => Bool.noConfusion h
    · intro _
      rw [post_bind]
      intro _ w1 _
      exact post_pure.2 fun h => Bool.noConfusion h
  · intro _
    exact post_pure.2 fun _ => same_setChip c

end Rules

end W5100

end Nucleo
