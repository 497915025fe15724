/-
# The system calls

`syscalls.c`, `fcntl.c` and the polling of one descriptor of `poll.c`.  Every call of
`syscalls.c` looks the descriptor up and goes on with the function of its driver.  The drivers are the console
(`stdio_usart.c`), the files (`fatfs.c`) and the sockets.
-/
import Nucleo.FatFs
import Nucleo.W5100Socket

namespace Nucleo

open W5100 Fat

section Syscalls

variable {χ κ δ ψ : Type} (B : Board χ) (L : FatLib κ δ ψ) (fuel : ℕ)

/-! ## The console -/

/-- The bytes that `stdio_usart_write` sends: a line feed of a terminal is preceded by a
carriage return. -/
def usartBytes (isatty : Bool) (buf : List Byte) : List Byte :=
  buf.flatMap fun b => if isatty ∧ b = 0x0A then [0x0D, b] else [b]

/-- `stdio_usart_write`. -/
def stdioUsartWrite (d : Fin openMax) (buf : List Byte) : FatSys χ κ δ ψ ℤ := do
  let f := (← get).files d
  modify fun w => w.setChip ((usartBytes f.isatty buf).foldl (fun c b => B.usartSend b c) w.chip)
  pure (wrap32 buf.length)

/-- `usart_recv` until the line is empty or the buffer of `n` bytes full. -/
def usartRecvMany : ℕ → Comp χ Stop (List Byte)
  | 0 => pure []
  | n + 1 => do
      let b ← (fun c => .ok (B.usartRecv c) : Comp χ Stop Byte)
      let more ← (fun c => .ok (B.usartReady c) : Comp χ Stop Bool)
      if n ≠ 0 ∧ more then
        let bs ← usartRecvMany n
        pure (b :: bs)
      else pure [b]

/-- `stdio_usart_read`: the value returned and the bytes stored. -/
def stdioUsartRead (len : ℕ) : FatSys χ κ δ ψ (ℤ × List Byte) :=
  if len = 0 then pure (0, [])
  else do
    let _ ← onChip (Comp.iter Stop.waiting (fun _ : Unit => do
      let ready ← (fun c => .ok (B.usartReady c) : Comp χ Stop Bool)
      pure (if ready then .inr () else .inl ())) fuel ())
    let bytes ← onChip (usartRecvMany B len)
    pure (wrap32 bytes.length, bytes)

/-! ## `read`, `write`, `close`, `fstat` and `lseek` -/

/-- The checks that the calls have in common: `EBADF` for a descriptor that is out of
range or not open. -/
def withOpen {α : Type} (fd : ℤ) (err : α) (body : Fin openMax → Fd → FatSys χ κ δ ψ α) :
    FatSys χ κ δ ψ α := do
  match ← fileStructGet fd with
  | none => fail .EBADF err
  | some d =>
      let f := (← get).files d
      if ¬ f.isopen then fail .EBADF err else body d f

/-- A descriptor that is open passes the checks. -/
theorem withOpen_of_open {α : Type} {w : World χ (FatFs κ δ ψ)} {d : Fin openMax} (err : α)
    (body : Fin openMax → Fd → FatSys χ κ δ ψ α) (hopen : (w.files d).isopen = true) :
    withOpen (d.val : ℤ) err body w = body d (w.files d) w := by
  unfold withOpen
  rw [fileStructGet_coe, pure_bind]
  dsimp only
  rw [Comp.get_bind, if_neg (not_not.2 hopen)]

/-- `_open`. -/
def sysOpen (pathname : String) (flags : BitVec 32) : FatSys χ κ δ ψ ℤ :=
  fatfsOpen L pathname flags

/-- `_write`. -/
def sysWrite (fd : ℤ) (buf : List Byte) : FatSys χ κ δ ψ ℤ :=
  withOpen fd (-1) fun d f =>
    match f.write with
    | none => fail .EBADF (-1)
    | some .usart => stdioUsartWrite B d buf
    | some .fatfs => fatfsWrite L fd buf
    | some .w5100 => send B fuel fd buf

/-- `_read`: the value returned and the bytes stored. -/
def sysRead (fd : ℤ) (len : ℕ) : FatSys χ κ δ ψ (ℤ × List Byte) :=
  withOpen fd (-1, []) fun _ f =>
    match f.read with
    | none => fail .EBADF (-1, [])
    | some .usart => stdioUsartRead B fuel len
    | some .fatfs => fatfsRead L fd len
    | some .w5100 => do
        let r ← recv B fuel fd len
        pure (r.ret, r.buf)

/-- `_close`; the console has no function for it. -/
def sysClose (fd : ℤ) : FatSys χ κ δ ψ ℤ :=
  withOpen fd (-1) fun d f =>
    match f.close with
    | some .fatfs => fatfsClose L fd
    | some .w5100 => sockClose B fuel fd
    | _ => do
        modifyFile d fun f => { f with isopen := false }
        pure 0

/-- `_fstat`: the value returned and what is stored in `buf`. -/
def sysFstat (fd : ℤ) : FatSys χ κ δ ψ (ℤ × Option Stat) :=
  withOpen fd (-1, none) fun _ f => pure (0, some f.stat)

/-- `fstat` asks `isopen` only. -/
theorem fstat_of_open {w : World χ (FatFs κ δ ψ)} {d : Fin openMax}
    (hopen : (w.files d).isopen = true) :
    sysFstat (d.val : ℤ) w = .ok ((0, some (w.files d).stat), w) := by
  unfold sysFstat
  rw [withOpen_of_open _ _ hopen]
  rfl

/-- `_isatty`. -/
def sysIsatty (fd : ℤ) : FatSys χ κ δ ψ ℤ :=
  withOpen fd (-1) fun _ f => if f.isatty then pure 1 else fail .ENOTTY 0

/-- `_lseek`. -/
def sysLseek (fd : ℤ) (offset : BitVec 32) (whence : Whence) : FatSys χ κ δ ψ ℤ :=
  withOpen fd (-1) fun _ f =>
    match f.stat.fileType with
    | .sock => fail .EPIPE (-1)
    | .reg => fatfsLseek L fd offset whence
    | _ => fail .EINVAL (-1)

/-! ## `fcntl` -/

/-- `cmd` with the argument that it takes. -/
inductive FcntlCmd
  | getfd
  | setfd (flags : BitVec 32)
  | setfl (flags : BitVec 32)
  | getfl
  | other
  deriving DecidableEq, Repr

/-- `fcntl`; a descriptor that is not open has flags too. -/
def fcntl (fildes : ℤ) (cmd : FcntlCmd) : FatSys χ κ δ ψ ℤ := do
  match ← fileStructGet fildes with
  | none => fail .EBADF (-1)
  | some d =>
      match cmd with
      | .getfd => pure ((← get).files d).descriptorFlags.toInt
      | .setfd flags => do
          modifyFile d fun f => { f with descriptorFlags := flags }
          pure 0
      | .setfl flags => do
          modifyFile d fun f => { f with statusFlags := flags }
          pure 0
      | .getfl => pure ((← get).files d).statusFlags.toInt
      | .other => fail .ENOSYS (-1)

/-! ## `poll` -/

/-- `poll_one`: the events of one descriptor, cut to those asked for and to the three that
are always reported.  Only the sockets have a function for it, and its result is never
negative. -/
def pollOne (fd : ℤ) (events : BitVec 16) : FatSys χ κ δ ψ (BitVec 16) := do
  let revents ←
    if fd < 0 then pure 0
    else do
      match ← fileStructGet fd with
      | none => pure pollNval
      | some d =>
          match ((← get).files d).poll with
          | some .w5100 => sockPoll B fd
          | _ => pure pollNval
  pure (revents &&& (events ||| pollHup ||| pollErr ||| pollNval))

/-! ## The tables at the start -/

/-- `fileno_in_init` and `fileno_out_init`. -/
def stdioFd (d : ℕ) : Fd :=
  if d = 0 then
    { Fd.zero with
      fd := 0, stat := ⟨.chr, 0o444, 0, 0⟩, statusFlags := 0, read := some .usart,
      isatty := true, isopen := true }
  else
    { Fd.zero with
      fd := (d : ℤ), stat := ⟨.chr, 0o222, 0, 0⟩, statusFlags := 1, write := some .usart,
      isatty := true, isopen := true }

/-- The descriptor table after `stdio_init`. -/
def stdioInit : Fin openMax → Fd := fun d => if d.val < 3 then stdioFd d.val else .zero

end Syscalls

end Nucleo
