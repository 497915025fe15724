/-
# Descriptors out of range

Every call that takes a descriptor leaves the range check to `file_struct_get`, which
compares with the upper bound only.  A descriptor from `OPEN_MAX` on is refused with `EBADF`
by all of them; a negative one, such as the -1 of a failed `open` or `socket`, takes an
address in front of the table (`descriptor_range_iff`).
-/
import Nucleo.W5100OwnershipRuns
import Nucleo.W5100Rights
import Nucleo.FatDir

namespace Nucleo

open Comp W5100 Fat

/-! ## The calls -/

/-- A call that takes a descriptor, with its other arguments. -/
inductive FdCall
  | write (buf : List Byte)
  | read (len : ℕ)
  | close
  | fstat
  | isatty
  | lseek (offset : BitVec 32) (whence : Whence)
  | fsync
  | fcntl (cmd : FcntlCmd)
  | fdopendir
  | bind (addr : SockaddrIn)
  | connect (addr : SockaddrIn)
  | listen
  | accept (wantAddr : Bool)
  | send (buf : List Byte)
  | sendto (buf : List Byte) (destAddress : Option SockaddrIn)
  | recv (len : ℕ)
  | recvfrom (len : ℕ) (wantAddr : Bool)
  | setsockopt (solSocket : Bool) (option : SocketOption)
  | getsockopt (solSocket : Bool) (name : OptionName)
  | getsockname (wantAddr : Bool) (addressLen : Option ℕ)
  | getpeername (wantAddr : Bool) (addressLen : Option ℕ)

/-- What a call returns and stores for its caller. -/
def FdCall.Result : FdCall → Type
  | .read _ => ℤ × List Byte
  | .fstat => ℤ × Option Stat
  | .fdopendir => Opaque
  | .accept _ => ℤ × Option SockaddrIn
  | .recv _ | .recvfrom _ _ => Received
  | .getsockopt _ _ => ℤ × Option OptionValue
  | .getsockname _ _ | .getpeername _ _ => ℤ × Option (SockaddrIn × ℕ)
  | _ => ℤ

/-- The error return: -1, or the null pointer, with nothing stored. -/
def FdCall.refused : (call : FdCall) → call.Result
  | .write _ | .close | .isatty | .lseek _ _ | .fsync | .fcntl _ => (-1 : ℤ)
  | .bind _ | .connect _ | .listen | .send _ | .sendto _ _ | .setsockopt _ _ => (-1 : ℤ)
  | .read _ => ((-1 : ℤ), [])
  | .fstat => ((-1 : ℤ), none)
  | .fdopendir => Opaque.null
  | .accept _ => ((-1 : ℤ), none)
  | .recv _ | .recvfrom _ _ => Received.empty (-1)
  | .getsockopt _ _ => ((-1 : ℤ), none)
  | .getsockname _ _ | .getpeername _ _ => ((-1 : ℤ), none)

section Calls

variable {χ κ δ ψ : Type} (B : Board χ) (L : FatLib κ δ ψ)
  (fSync : PoolObject κ δ → ψ → FResult × PoolObject κ δ × ψ) (fuel : ℕ)

/-- The call with its descriptor. -/
def FdCall.exec (fd : ℤ) : (call : FdCall) → FatSys χ κ δ ψ call.Result
  | .write buf => sysWrite B L fuel fd buf
  | .read len => sysRead B L fuel fd len
  | .close => sysClose B L fuel fd
  | .fstat => sysFstat fd
  | .isatty => sysIsatty fd
  | .lseek offset whence => sysLseek L fd offset whence
  | .fsync => fatfsFsync fSync fd
  | .fcntl cmd => Nucleo.fcntl fd cmd
  | .fdopendir => fatfsFdopendir fd
  | .bind addr => W5100.bind B fuel fd addr
  | .connect addr => W5100.connect B fuel fd addr
  | .listen => W5100.listen B fuel fd
  | .accept wantAddr => W5100.accept B fuel fd wantAddr
  | .send buf => W5100.send B fuel fd buf
  | .sendto buf dest => W5100.sendto B fuel fd buf dest
  | .recv len => W5100.recv B fuel fd len
  | .recvfrom len wantAddr => W5100.recvfrom B fuel fd len wantAddr
  | .setsockopt solSocket option => W5100.setsockopt fd solSocket option
  | .getsockopt solSocket name => W5100.getsockopt fd solSocket name
  | .getsockname wantAddr len => W5100.getsockname fd wantAddr len
  | .getpeername wantAddr len => W5100.getpeername fd wantAddr len

end Calls

/-! ## Descriptors that are too large -/

section Range

variable {χ φ : Type} {fd : ℤ} {w : World χ φ}

/-- A descriptor behind the table has no entry. -/
theorem fileStructGet_of_large (h : (openMax : ℤ) ≤ fd) :
    (fileStructGet fd : Sys χ φ (Option (Fin openMax))) w = .ok (none, w) := by
  unfold fileStructGet
  rw [if_pos h]
  rfl

/-- It gives `EBADF`. -/
theorem getSocketFromFd_of_large (h : (openMax : ℤ) ≤ fd) :
    getSocketFromFd fd w = .ok (none, w.setErrno .EBADF) := by
  unfold getSocketFromFd
  rw [bind_of_ok (fileStructGet_of_large h)]
  rfl

/-! ## Negative descriptors -/

/-- A negative descriptor reads in front of the table. -/
theorem fileStructGet_of_neg (h : fd < 0) :
    (fileStructGet fd : Sys χ φ (Option (Fin openMax))) w = .error .outOfBounds := by
  unfold fileStructGet
  rw [if_neg (by unfold openMax; omega), dif_neg (by omega)]
  rfl

theorem getSocketFromFd_of_neg (h : fd < 0) :
    getSocketFromFd fd w = .error .outOfBounds :=
  bind_of_error (fileStructGet_of_neg h)

end Range

section Calls

variable {χ κ δ ψ : Type} (B : Board χ) (L : FatLib κ δ ψ)
  (fSync : PoolObject κ δ → ψ → FResult × PoolObject κ δ × ψ) (fuel : ℕ) {fd : ℤ}
  {w : World χ (FatFs κ δ ψ)}

/-- Every call refuses a descriptor from `OPEN_MAX` on. -/
theorem exec_of_large (h : (openMax : ℤ) ≤ fd) (call : FdCall) :
    call.exec B L fSync fuel fd w = .ok (call.refused, w.setErrno .EBADF) := by
  have hfile := fileStructGet_of_large (w := w) h
  have hsock := getSocketFromFd_of_large (w := w) h
  cases call with
  | write buf => exact bind_of_ok hfile
  | read len => exact bind_of_ok hfile
  | close => exact bind_of_ok hfile
  | fstat => exact bind_of_ok hfile
  | isatty => exact bind_of_ok hfile
  | lseek offset whence => exact bind_of_ok hfile
  | fsync => exact bind_of_ok hfile
  | fcntl cmd => exact bind_of_ok hfile
  | fdopendir => exact bind_of_ok hfile
  | bind addr => exact bind_of_ok hsock
  | connect addr => exact bind_of_ok hsock
  | listen => exact bind_of_ok hsock
  | accept wantAddr => exact bind_of_ok hsock
  | send buf => exact bind_of_ok hsock
  | sendto buf dest => exact bind_of_ok hsock
  | recv len => exact bind_of_ok hsock
  | recvfrom len wantAddr => exact bind_of_ok hsock
  | setsockopt solSocket option => exact bind_of_ok hsock
  | getsockopt solSocket name => exact bind_of_ok hsock
  | getsockname wantAddr len => exact bind_of_ok hsock
  | getpeername wantAddr len => exact bind_of_ok hsock

/-- Every call takes the address of an entry in front of the table for a negative one. -/
theorem exec_of_neg (h : fd < 0) (call : FdCall) :
    call.exec B L fSync fuel fd w = .error .outOfBounds := by
  have hfile := fileStructGet_of_neg (w := w) h
  have hsock := getSocketFromFd_of_neg (w := w) h
  cases call with
  | write buf => exact bind_of_error hfile
  | read len => exact bind_of_error hfile
  | close => exact bind_of_error hfile
  | fstat => exact bind_of_error hfile
  | isatty => exact bind_of_error hfile
  | lseek offset whence => exact bind_of_error hfile
  | fsync => exact bind_of_error hfile
  | fcntl cmd => exact bind_of_error hfile
  | fdopendir => exact bind_of_error hfile
  | bind addr => exact bind_of_error hsock
  | connect addr => exact bind_of_error hsock
  | listen => exact bind_of_error hsock
  | accept wantAddr => exact bind_of_error hsock
  | send buf => exact bind_of_error hsock
  | sendto buf dest => exact bind_of_error hsock
  | recv len => exact bind_of_error hsock
  | recvfrom len wantAddr => exact bind_of_error hsock
  | setsockopt solSocket option => exact bind_of_error hsock
  | getsockopt solSocket name => exact bind_of_error hsock
  | getsockname wantAddr len => exact bind_of_error hsock
  | getpeername wantAddr len => exact bind_of_error hsock

end Calls

/-! ## Descriptors in range

Nothing that a call does after the lookup leaves the table.
-/

section Sockets

variable {χ φ : Type} (B : Board χ) (fuel : ℕ) {fd : ℤ}

/-- A descriptor from zero on is looked up in the table. -/
theorem never_fileStructGet (h : 0 ≤ fd) :
    Never .outOfBounds (fileStructGet fd : Sys χ φ (Option (Fin openMax))) := by
  intro w
  unfold fileStructGet
  by_cases hge : fd ≥ openMax
  · rw [if_pos hge]
    exact never_pure _ w
  · have hlt : 0 ≤ fd ∧ fd.toNat < openMax := ⟨h, by omega⟩
    rw [if_neg hge, dif_pos hlt]
    exact never_pure _ w

/-- Failing leaves the table alone. -/
theorem never_fail {α : Type} (e : Errno) (a : α) :
    Never .outOfBounds (fail e a : Sys χ φ α) := (never_modify _).bind fun _ => never_pure _

/-- Nothing is freed where the number is not in the table. -/
theorem never_fileFree (fd : ℤ) : Never .outOfBounds (fileFree fd : Sys χ φ Unit) := by
  intro w
  unfold fileFree
  split_ifs
  · exact never_modify _ w
  · exact never_pure _ w

/-- A transaction with the chip does not look at the table. -/
theorem never_onChip {α : Type} {x : Comp χ Stop α} (hx : Never .outOfBounds x) :
    Never .outOfBounds (onChip x : Sys χ φ α) := hx.focus

/-- Waiting is not leaving the table. -/
theorem waiting_ne_outOfBounds : Stop.waiting ≠ .outOfBounds := Stop.noConfusion

/-- A null pointer is not in front of the table. -/
theorem but_nullDeref : (Rights.but .outOfBounds).stops .nullDeref := Stop.noConfusion

/-- `send`. -/
theorem never_send (h : 0 ≤ fd) (buf : List Byte) :
    Never .outOfBounds (W5100.send B fuel fd buf : Sys χ φ ℤ) :=
  never_of_sysCode (made_send fuel (.but waiting_ne_outOfBounds)
    (.but waiting_ne_outOfBounds) (Rights.Transmits.but waiting_ne_outOfBounds)
    Rights.Names.but Rights.fits_but but_nullDeref ⟨trivial, .inl h⟩ buf)

/-- `recvfrom`, which is also `recv` and `read`. -/
theorem never_recvfrom (h : 0 ≤ fd) (len : ℕ) (wantAddr : Bool) :
    Never .outOfBounds (W5100.recvfrom B fuel fd len wantAddr : Sys χ φ Received) :=
  never_of_sysCode (made_recvfrom fuel (.but waiting_ne_outOfBounds)
    (Rights.Receives.but waiting_ne_outOfBounds) but_nullDeref ⟨trivial, .inl h⟩ len wantAddr)

/-- `w5100_sock_close`. -/
theorem never_sockClose (h : 0 ≤ fd) :
    Never .outOfBounds (W5100.sockClose B fuel fd : Sys χ φ ℤ) :=
  never_of_sysCode (made_sockClose fuel (.but waiting_ne_outOfBounds) ⟨trivial, .inl h⟩)

end Sockets

section Files

variable {χ κ δ ψ : Type} (L : FatLib κ δ ψ) {fd : ℤ}

/-! ### The FatFs calls -/

/-- The FatFs library does not look at the table. -/
theorem never_callOn {α : Type} (i : Fin openMax)
    (call : PoolObject κ δ → ψ → α × PoolObject κ δ × ψ) :
    Never .outOfBounds (callOn i call : FatSys χ κ δ ψ α) := by
  refine never_get.bind fun w => ?_
  exact (never_modify _).bind fun _ => (never_modify _).bind fun _ => never_pure _

theorem never_failWith {α : Type} (result : FResult) (ret : α) :
    Never .outOfBounds (failWith result ret : FatSys χ κ δ ψ α) :=
  (never_modify _).bind fun _ => never_pure _

/-- An object is found by its pointer. -/
theorem never_poolIndex (p : Opaque) :
    Never .outOfBounds (poolIndex p : FatSys χ κ δ ψ (Option (Fin openMax))) := by
  cases p with
  | null => exact never_pure _
  | fil i => exact never_pure _
  | dir i => exact never_pure _
  | slot i => exact never_throw Stop.noConfusion

/-- A FatFs function with a descriptor that is not negative stays inside. -/
theorem never_withObject {α : Type} (h : 0 ≤ fd) (err : α)
    {reg dir : Fd → Fin openMax → FatSys χ κ δ ψ α} {rest : FatSys χ κ δ ψ α}
    (hreg : ∀ f i, Never .outOfBounds (reg f i)) (hdir : ∀ f i, Never .outOfBounds (dir f i))
    (hrest : Never .outOfBounds rest) : Never .outOfBounds (withObject fd err reg dir rest) := by
  refine (never_fileStructGet h).bind fun r => ?_
  cases r with
  | none => exact never_fail _ _
  | some d =>
      refine never_get.bind fun w => (never_poolIndex _).bind fun r => ?_
      cases r with
      | none => exact never_fail _ _
      | some i =>
          cases (w.files d).stat.fileType with
          | reg => exact hreg _ i
          | dir => exact hdir _ i
          | unset | chr | sock => exact hrest

theorem never_fatfsWrite (h : 0 ≤ fd) (buf : List Byte) :
    Never .outOfBounds (fatfsWrite L fd buf : FatSys χ κ δ ψ ℤ) := by
  refine never_withObject h _ (fun f i => ?_) (fun _ _ => never_fail _ _) (never_fail _ _)
  have hwrite : Never .outOfBounds (do
      let r ← callOn i (L.fWrite buf)
      if r.1 = .ok then pure (wrap32 r.2) else failWith r.1 (-1) : FatSys χ κ δ ψ ℤ) :=
    (never_callOn i _).bind fun _ => Never.ite (never_pure _) (never_failWith _ _)
  refine never_get.bind fun w => Never.ite ?_ ?_
  · exact (never_callOn i _).bind fun result => Never.ite (never_failWith _ _) hwrite
  · exact (never_pure _).bind fun result => Never.ite (never_failWith _ _) hwrite

theorem never_fatfsRead (h : 0 ≤ fd) (len : ℕ) :
    Never .outOfBounds (fatfsRead L fd len : FatSys χ κ δ ψ (ℤ × List Byte)) := by
  refine never_withObject h _ (fun f i => ?_) (fun _ _ => never_fail _ _) (never_fail _ _)
  exact (never_callOn i _).bind fun r => Never.ite (never_pure _) (never_failWith _ _)

theorem never_fatfsClose (h : 0 ≤ fd) :
    Never .outOfBounds (fatfsClose L fd : FatSys χ κ δ ψ ℤ) := by
  have hobject : ∀ (call : PoolObject κ δ → ψ → FResult × PoolObject κ δ × ψ) i,
      Never .outOfBounds (closeObject call fd i : FatSys χ κ δ ψ ℤ) := by
    intro call i
    refine (never_callOn i call).bind fun r => Never.ite ?_ (never_failWith _ _)
    exact Never.bind (never_modify _) fun _ => (never_fileFree fd).bind fun _ => never_pure _
  exact never_withObject h _ (fun _ i => hobject _ i) (fun _ i => hobject _ i) (never_fail _ _)

theorem never_fatfsLseek (h : 0 ≤ fd) (offset : BitVec 32) (whence : Whence) :
    Never .outOfBounds (fatfsLseek L fd offset whence : FatSys χ κ δ ψ ℤ) := by
  refine never_withObject h _ (fun f i => ?_) (fun _ _ => never_fail _ _) (never_fail _ _)
  refine never_get.bind fun w => (never_callOn i _).bind fun r => ?_
  exact Never.ite (never_pure _) (never_failWith _ _)

theorem never_fatfsFsync (h : 0 ≤ fd)
    (fSync : PoolObject κ δ → ψ → FResult × PoolObject κ δ × ψ) :
    Never .outOfBounds (fatfsFsync fSync fd : FatSys χ κ δ ψ ℤ) := by
  refine (never_fileStructGet h).bind fun r => ?_
  cases r with
  | none => exact never_fail _ _
  | some d =>
      refine never_get.bind fun w => Never.ite (never_fail _ _) (Never.ite ?_ (never_fail _ _))
      refine (never_poolIndex _).bind fun r => ?_
      cases r with
      | none => exact never_fail _ _
      | some i =>
          exact (never_callOn i _).bind fun r => Never.ite (never_pure _) (never_failWith _ _)

theorem never_fatfsFdopendir (h : 0 ≤ fd) :
    Never .outOfBounds (fatfsFdopendir fd : FatSys χ κ δ ψ Opaque) := by
  refine (never_fileStructGet h).bind fun r => ?_
  cases r with
  | none => exact never_fail _ _
  | some d => exact never_get.bind fun w => Never.ite (never_pure _) (never_fail _ _)

end Files

section Syscalls

variable {χ κ δ ψ : Type} (B : Board χ) (L : FatLib κ δ ψ)
  (fSync : PoolObject κ δ → ψ → FResult × PoolObject κ δ × ψ) (fuel : ℕ) {fd : ℤ}

/-! ### The system calls -/

/-- A system call looks the descriptor up once. -/
theorem never_withOpen {α : Type} (h : 0 ≤ fd) (err : α)
    {body : Fin openMax → Fd → FatSys χ κ δ ψ α} (hbody : ∀ d f, Never .outOfBounds (body d f)) :
    Never .outOfBounds (withOpen fd err body) := by
  refine (never_fileStructGet h).bind fun r => ?_
  cases r with
  | none => exact never_fail _ _
  | some d => exact never_get.bind fun w => Never.ite (never_fail _ _) (hbody d _)

/-- The USART is no part of the table. -/
theorem never_usartRecvMany (n : ℕ) : Never .outOfBounds (usartRecvMany B n) := by
  induction n with
  | zero => exact never_pure _
  | succ n ih =>
      refine (never_of_ok B.usartRecv fun _ => rfl).bind fun b => ?_
      refine (never_of_ok B.usartReady fun _ => rfl).bind fun more => ?_
      exact Never.ite (ih.bind fun bs => never_pure _) (never_pure _)

theorem never_stdioUsartRead (len : ℕ) :
    Never .outOfBounds (stdioUsartRead B fuel len : FatSys χ κ δ ψ (ℤ × List Byte)) := by
  refine Never.ite (never_pure _) ((never_onChip ?_).bind fun _ => ?_)
  · apply Never.iter Stop.noConfusion
    intro _
    exact (never_of_ok B.usartReady fun _ => rfl).bind fun _ => never_pure _
  · exact (never_onChip (never_usartRecvMany B len)).bind fun _ => never_pure _

/-- `_write` stays inside. -/
theorem never_sysWrite (h : 0 ≤ fd) (buf : List Byte) :
    Never .outOfBounds (sysWrite B L fuel fd buf) := by
  refine never_withOpen h _ fun d f => ?_
  cases f.write with
  | none => exact never_fail _ _
  | some driver =>
      cases driver with
      | usart => exact never_get.bind fun _ => (never_modify _).bind fun _ => never_pure _
      | fatfs => exact never_fatfsWrite L h buf
      | w5100 => exact never_send B fuel h buf

/-- `_read` stays inside. -/
theorem never_sysRead (h : 0 ≤ fd) (len : ℕ) :
    Never .outOfBounds (sysRead B L fuel fd len) := by
  refine never_withOpen h _ fun d f => ?_
  cases f.read with
  | none => exact never_fail _ _
  | some driver =>
      cases driver with
      | usart => exact never_stdioUsartRead B fuel len
      | fatfs => exact never_fatfsRead L h len
      | w5100 => exact (never_recvfrom B fuel h len false).bind fun _ => never_pure _

/-- `_close` stays inside. -/
theorem never_sysClose (h : 0 ≤ fd) : Never .outOfBounds (sysClose B L fuel fd) := by
  refine never_withOpen h _ fun d f => ?_
  cases f.close with
  | none => exact (never_modify _).bind fun _ => never_pure _
  | some driver =>
      cases driver with
      | usart => exact (never_modify _).bind fun _ => never_pure _
      | fatfs => exact never_fatfsClose L h
      | w5100 => exact never_sockClose B fuel h

theorem never_sysFstat (h : 0 ≤ fd) :
    Never .outOfBounds (sysFstat fd : FatSys χ κ δ ψ (ℤ × Option Stat)) :=
  never_withOpen h _ fun _ _ => never_pure _

theorem never_sysIsatty (h : 0 ≤ fd) :
    Never .outOfBounds (sysIsatty fd : FatSys χ κ δ ψ ℤ) :=
  never_withOpen h _ fun _ _ => Never.ite (never_pure _) (never_fail _ _)

/-- `_lseek` stays inside. -/
theorem never_sysLseek (h : 0 ≤ fd) (offset : BitVec 32) (whence : Whence) :
    Never .outOfBounds (sysLseek L fd offset whence : FatSys χ κ δ ψ ℤ) := by
  refine never_withOpen h _ fun d f => ?_
  cases f.stat.fileType with
  | sock => exact never_fail _ _
  | reg => exact never_fatfsLseek L h offset whence
  | unset | chr | dir => exact never_fail _ _

/-- `fcntl` stays inside. -/
theorem never_fcntl (h : 0 ≤ fd) (cmd : FcntlCmd) :
    Never .outOfBounds (Nucleo.fcntl fd cmd : FatSys χ κ δ ψ ℤ) := by
  refine (never_fileStructGet h).bind fun r => ?_
  cases r with
  | none => exact never_fail _ _
  | some d =>
      cases cmd with
      | getfd => exact never_get.bind fun _ => never_pure _
      | setfd flags => exact (never_modify _).bind fun _ => never_pure _
      | setfl flags => exact (never_modify _).bind fun _ => never_pure _
      | getfl => exact never_get.bind fun _ => never_pure _
      | other => exact never_fail _ _

/-! ### Every call -/

/-- No call leaves the table once the descriptor is not negative. -/
theorem never_exec (h : 0 ≤ fd) (call : FdCall) :
    Never .outOfBounds (call.exec B L fSync fuel fd : FatSys χ κ δ ψ call.Result) := by
  have hw := waiting_ne_outOfBounds
  have hfd : (Rights.but .outOfBounds).LooksUp fd := ⟨trivial, .inl h⟩
  cases call with
  | write buf => exact never_sysWrite B L fuel h buf
  | read len => exact never_sysRead B L fuel h len
  | close => exact never_sysClose B L fuel h
  | fstat => exact never_sysFstat h
  | isatty => exact never_sysIsatty h
  | lseek offset whence => exact never_sysLseek L h offset whence
  | fsync => exact never_fatfsFsync h fSync
  | fcntl cmd => exact never_fcntl h cmd
  | fdopendir => exact never_fatfsFdopendir h
  | bind addr => exact never_of_sysCode (made_bind fuel (.but hw) hfd addr)
  | connect addr =>
      exact never_of_sysCode (made_connect fuel (.but hw) (fun _ _ => trivial) hfd addr)
  | listen => exact never_of_sysCode (made_listen fuel (.but hw) hfd)
  | accept wantAddr =>
      exact never_of_sysCode (made_accept fuel (.but hw) but_nullDeref hfd wantAddr)
  | send buf => exact never_send B fuel h buf
  | sendto buf dest =>
      exact never_of_sysCode (made_sendto fuel (.but hw) (.but hw)
        (Rights.Transmits.but hw) Rights.Names.but Rights.fits_but but_nullDeref hfd buf dest)
  | recv len => exact never_recvfrom B fuel h len false
  | recvfrom len wantAddr => exact never_recvfrom B fuel h len wantAddr
  | setsockopt solSocket option =>
      refine never_of_sysCode (made_setsockopt (B := B) ?_ hfd solSocket option)
      exact ⟨fun _ _ => trivial, fun _ _ => trivial, fun _ _ => trivial⟩
  | getsockopt solSocket name =>
      exact never_of_sysCode (made_getsockopt (B := B) hfd solSocket name)
  | getsockname wantAddr len =>
      exact never_of_sysCode (made_getName (B := B) hfd _ _ wantAddr len)
  | getpeername wantAddr len =>
      exact never_of_sysCode (made_getName (B := B) hfd _ _ wantAddr len)

/-! ## The range check -/

/-- What is asked of a call: it stays in the table for a descriptor in range, and refuses
any other with `EBADF` and no other change. -/
def FdCall.ChecksRange (call : FdCall) (fd : ℤ) (w : World χ (FatFs κ δ ψ)) : Prop :=
  if 0 ≤ fd ∧ fd < openMax then Avoids .outOfBounds (call.exec B L fSync fuel fd) w
  else call.exec B L fSync fuel fd w = .ok (call.refused, w.setErrno .EBADF)

/-- **A call checks its descriptor exactly when this is not negative**, in every state and
whatever the devices do. -/
theorem descriptor_range_iff (call : FdCall) (fd : ℤ) (w : World χ (FatFs κ δ ψ)) :
    call.ChecksRange B L fSync fuel fd w ↔ 0 ≤ fd := by
  unfold FdCall.ChecksRange
  constructor
  · intro h
    by_contra hneg
    rw [if_neg (fun hin => hneg hin.1), exec_of_neg B L fSync fuel (not_le.1 hneg)] at h
    cases h
  · intro h
    by_cases hlt : fd < openMax
    · rw [if_pos ⟨h, hlt⟩]
      exact never_exec B L fSync fuel h call w
    · rw [if_neg (fun hin => hlt hin.2)]
      exact exec_of_large B L fSync fuel (not_lt.1 hlt) call

end Syscalls

/-- `close` of the -1 that a failed `socket` has returned takes the address of an entry in
front of the table. -/
theorem close_leaves_table :
    ¬ FdCall.close.ChecksRange scriptBoard noDisk (fun o lib => (.ok, o, lib)) 1 (-1)
      (bootWorld [] noFiles) := by
  unfold FdCall.ChecksRange
  rw [if_neg (by decide), exec_of_neg _ _ _ _ (by decide)]
  intro h
  cases h

end Nucleo
