/-
# The descriptor table and the socket slots

`file.c` keeps a table of `struct fd`; `w5100_socket.c` keeps a table of
`struct w5100_socket`, one for each socket of the chip.  A descriptor points to the
slot or to the file it stands for (`opaquePtr`), and a slot points back to the
descriptors that use it (`fdData`, `connectionData`).

A `World` holds both tables, `errno`, the state of the chip and that of the file
system.  The socket calls use the file system's part nowhere, so its type is left
open.
-/
import Nucleo.W5100Chip

namespace Nucleo

/-! ## `struct fd` -/

/-- `OPEN_MAX`. -/
def openMax : ℕ := 20

instance : NeZero openMax := ⟨by decide⟩

/-- The part of `st_mode` that `S_ISREG`, `S_ISDIR`, `S_ISCHR` and `S_ISSOCK` look at. -/
inductive FileType
  | unset | chr | reg | dir | sock
  deriving DecidableEq, Repr

/-- `struct stat`: the fields that the source sets, with `st_mode` split into the type
and the permissions. -/
structure Stat where
  fileType : FileType
  permissions : ℕ
  stSize : ℕ
  stBlksize : ℕ
  deriving DecidableEq, Repr

/-- The driver whose function a pointer of `struct fd` points to. -/
inductive Driver
  | usart | fatfs | w5100
  deriving DecidableEq, Repr

/-- What `opaque` points to: a file or a directory of the pool of `fatfs.c`, or a slot. -/
inductive Opaque
  | null
  | fil (i : Fin openMax)
  | dir (i : Fin openMax)
  | slot (i : Fin W5100.nSockets)
  deriving DecidableEq, Repr

/-- `O_RDWR`, `O_APPEND` and `O_NONBLOCK` as the target's C library has them. -/
def oRdwr : BitVec 32 := 0x0002
/-- `O_APPEND`. -/
def oAppend : BitVec 32 := 0x0008
/-- `O_NONBLOCK`. -/
def oNonblock : BitVec 32 := 0x4000

/-- `struct fd`. -/
structure Fd where
  fd : ℤ
  stat : Stat
  isatty : Bool
  isopen : Bool
  write : Option Driver
  read : Option Driver
  close : Option Driver
  poll : Option Driver
  isallocated : Bool
  descriptorFlags : BitVec 32
  statusFlags : BitVec 32
  opaquePtr : Opaque
  deriving DecidableEq, Repr

/-- An entry of the table after `memset` to zero, which is also its initial value. -/
def Fd.zero : Fd where
  fd := 0
  stat := ⟨.unset, 0, 0, 0⟩
  isatty := false
  isopen := false
  write := none
  read := none
  close := none
  poll := none
  isallocated := false
  descriptorFlags := 0
  statusFlags := 0
  opaquePtr := .null

/-! ## `struct w5100_socket` -/

namespace W5100

/-- The socket types that the source tells apart. -/
inductive SockType
  | stream | dgram | raw | other
  deriving DecidableEq, Repr

/-- `enum w5100_socket_state`. -/
inductive SocketState
  | none | created | connected | bound | listening | accepted | disconnected
  deriving DecidableEq, Repr

/-- `W5100_SOCKET_FREE`. -/
def socketFreeFd : ℤ := -1

/-- `struct w5100_socket`. -/
structure Slot where
  fd : ℤ
  isocket : Fin nSockets
  domain : Family
  type : SockType
  protocol : ℤ
  state : SocketState
  sockname : SockaddrIn
  destAddress : SockaddrIn
  canBroadcast : Bool
  recvTimeout : Timespec
  sendTimeout : Timespec
  fdData : Option (Fin openMax)
  connectionData : Option (Fin openMax)
  deriving DecidableEq, Repr

end W5100

/-! ## The world -/

/-- The state of the program and of the devices. -/
structure World (χ φ : Type) where
  files : Fin openMax → Fd
  sockets : Fin W5100.nSockets → W5100.Slot
  errno : Option Errno
  chip : χ
  fat : φ

/-- A computation of the program. -/
abbrev Sys (χ φ α : Type) := Comp (World χ φ) W5100.Stop α

namespace World

variable {χ φ : Type} (w : World χ φ)

/-- The world with one file structure replaced. -/
def setFile (d : Fin openMax) (f : Fd) : World χ φ :=
  { w with files := Function.update w.files d f }

/-- The world with one socket replaced. -/
def setSlot (i : Fin W5100.nSockets) (s : W5100.Slot) : World χ φ :=
  { w with sockets := Function.update w.sockets i s }

/-- The world with `errno` set. -/
def setErrno (e : Errno) : World χ φ := { w with errno := some e }

/-- The world with another state of the chip. -/
def setChip (c : χ) : World χ φ := { w with chip := c }

variable (d d' : Fin openMax) (f : Fd) (i i' : Fin W5100.nSockets) (s : W5100.Slot) (e : Errno)
  (c : χ)

@[simp] theorem setFile_files : (w.setFile d f).files = Function.update w.files d f := rfl
@[simp] theorem setFile_sockets : (w.setFile d f).sockets = w.sockets := rfl
@[simp] theorem setFile_chip : (w.setFile d f).chip = w.chip := rfl
@[simp] theorem setFile_fat : (w.setFile d f).fat = w.fat := rfl
@[simp] theorem setSlot_files : (w.setSlot i s).files = w.files := rfl
@[simp] theorem setSlot_sockets : (w.setSlot i s).sockets = Function.update w.sockets i s := rfl
@[simp] theorem setSlot_chip : (w.setSlot i s).chip = w.chip := rfl
@[simp] theorem setSlot_fat : (w.setSlot i s).fat = w.fat := rfl
@[simp] theorem setErrno_files : (w.setErrno e).files = w.files := rfl
@[simp] theorem setErrno_sockets : (w.setErrno e).sockets = w.sockets := rfl
@[simp] theorem setErrno_chip : (w.setErrno e).chip = w.chip := rfl
@[simp] theorem setErrno_fat : (w.setErrno e).fat = w.fat := rfl
@[simp] theorem setErrno_errno : (w.setErrno e).errno = some e := rfl
@[simp] theorem setChip_files : (w.setChip c).files = w.files := rfl
@[simp] theorem setChip_sockets : (w.setChip c).sockets = w.sockets := rfl
@[simp] theorem setChip_chip : (w.setChip c).chip = c := rfl
@[simp] theorem setChip_fat : (w.setChip c).fat = w.fat := rfl
@[simp] theorem setChip_errno : (w.setChip c).errno = w.errno := rfl

/-- Of two states of the chip the second counts. -/
@[simp] theorem setChip_setChip (c' : χ) : (w.setChip c).setChip c' = w.setChip c' := rfl

/-- The two worlds have the same tables: only `errno` and the chip may differ. -/
structure Same {χ φ : Type} (w w' : World χ φ) : Prop where
  files : w'.files = w.files
  sockets : w'.sockets = w.sockets
  fat : w'.fat = w.fat

variable {w}

theorem Same.refl : Same w w := ⟨rfl, rfl, rfl⟩

theorem Same.trans {w' w'' : World χ φ} (h : Same w w') (h' : Same w' w'') : Same w w'' :=
  ⟨h'.files.trans h.files, h'.sockets.trans h.sockets, h'.fat.trans h.fat⟩

/-- `errno` makes no difference. -/
theorem same_setErrno : Same w (w.setErrno e) := ⟨rfl, rfl, rfl⟩

theorem same_setChip : Same w (w.setChip c) := ⟨rfl, rfl, rfl⟩

end World

/-! ## `file.c` -/

section Files

variable {χ φ : Type}

/-- Store in `errno`. -/
def setErrno (e : Errno) : Sys χ φ Unit := modify fun w => w.setErrno e

/-- Set `errno` and return `ret`. -/
def fail {α : Type} (e : Errno) (ret : α) : Sys χ φ α := do
  setErrno e
  pure ret

/-- Update an entry of the descriptor table. -/
def modifyFile (d : Fin openMax) (f : Fd → Fd) : Sys χ φ Unit :=
  modify fun w => w.setFile d (f (w.files d))

/-- `file_struct_get`: only the upper bound is checked. -/
def fileStructGet (fd : ℤ) : Sys χ φ (Option (Fin openMax)) :=
  if fd ≥ openMax then pure none
  else if h : 0 ≤ fd ∧ fd.toNat < openMax then pure (some ⟨fd.toNat, h.2⟩)
  else throw .outOfBounds

/-- The first entry from 3 on that is not allocated. -/
def firstFree (files : Fin openMax → Fd) : Option (Fin openMax) :=
  (List.finRange openMax).find? fun d => 3 ≤ d.val ∧ ¬ (files d).isallocated

/-- `file_alloc`; the source returns -1 for `none`. -/
def fileAlloc : Sys χ φ (Option (Fin openMax)) := do
  match firstFree (← get).files with
  | none => pure none
  | some d =>
      modifyFile d fun _ => { Fd.zero with isallocated := true, fd := (d.val : ℤ) }
      pure (some d)

/-- `file_free`. -/
def fileFree (fd : ℤ) : Sys χ φ Unit :=
  if h : 0 ≤ fd ∧ fd.toNat < openMax then
    modifyFile ⟨fd.toNat, h.2⟩ fun f => { f with isallocated := false }
  else pure ()

/-! ## Rules -/

open Comp

variable {w : World χ φ}

/-- What holds after `errno` is set. -/
@[simp] theorem post_setErrno {e : Errno} {Q : Unit → World χ φ → Prop} :
    Post (setErrno e) Q w ↔ Q () (w.setErrno e) := post_modify

/-- What holds after an error. -/
@[simp] theorem post_fail {α : Type} {e : Errno} {ret : α} {Q : α → World χ φ → Prop} :
    Post (fail e ret) Q w ↔ Q ret (w.setErrno e) := by
  unfold fail
  rw [post_bind, post_setErrno, post_pure]

/-- What holds after a file structure is changed. -/
@[simp] theorem post_modifyFile {d : Fin openMax} {f : Fd → Fd} {Q : Unit → World χ φ → Prop} :
    Post (modifyFile d f) Q w ↔ Q () (w.setFile d (f (w.files d))) := post_modify

/-- A descriptor within the table has an entry. -/
theorem fileStructGet_coe (d : Fin openMax) :
    (fileStructGet (d.val : ℤ) : Sys χ φ (Option (Fin openMax))) = pure (some d) := by
  have hd := d.isLt
  unfold fileStructGet
  rw [if_neg (by omega), dif_pos ⟨by omega, by rw [Int.toNat_natCast]; exact hd⟩]
  rfl

/-- `file_struct_get` returns the entry of a descriptor in range, and null for one that is
too large. -/
theorem post_fileStructGet {fd : ℤ} {Q : Option (Fin openMax) → World χ φ → Prop}
    (hnone : fd ≥ openMax → Q none w) (hsome : ∀ d : Fin openMax, fd = (d.val : ℤ) → Q (some d) w) :
    Post (fileStructGet fd) Q w := by
  unfold fileStructGet
  split_ifs with hge h
  · exact post_pure.2 (hnone hge)
  · refine post_pure.2 (hsome _ ?_)
    show fd = ((fd.toNat : ℕ) : ℤ)
    omega
  · exact post_throw.2 trivial

/-- The entry that is found is behind the standard streams, and free. -/
theorem firstFree_eq_some {files : Fin openMax → Fd} {d : Fin openMax}
    (h : firstFree files = some d) : 3 ≤ d.val ∧ (files d).isallocated = false := by
  have hd := List.find?_some h
  simpa using hd

/-- `file_alloc` hands out the first entry that is not allocated, cleared. -/
theorem post_fileAlloc_cases {Q : Option (Fin openMax) → World χ φ → Prop}
    (hnone : firstFree w.files = none → Q none w)
    (hsome : ∀ d : Fin openMax, firstFree w.files = some d →
      Q (some d) (w.setFile d { Fd.zero with isallocated := true, fd := (d.val : ℤ) })) :
    Post fileAlloc Q w := by
  unfold fileAlloc
  rw [post_bind, post_get]
  cases hfree : firstFree w.files with
  | none => exact post_pure.2 (hnone hfree)
  | some d =>
      dsimp only
      rw [post_bind, post_modifyFile, post_pure]
      exact hsome d hfree

/-- What `file_alloc` leaves: nothing when the table is full, and else a new entry. -/
theorem post_fileAlloc {Q : Option (Fin openMax) → World χ φ → Prop} (hnone : Q none w)
    (hsome : ∀ d : Fin openMax, 3 ≤ d.val → (w.files d).isallocated = false →
      Q (some d) (w.setFile d { Fd.zero with isallocated := true, fd := (d.val : ℤ) })) :
    Post fileAlloc Q w :=
  post_fileAlloc_cases (fun _ => hnone) fun d hfree =>
    hsome d (firstFree_eq_some hfree).1 (firstFree_eq_some hfree).2

/-- `file_free` of an entry's own number. -/
theorem post_fileFree {d : Fin openMax} {Q : Unit → World χ φ → Prop} :
    Post (fileFree (d.val : ℤ)) Q w ↔
      Q () (w.setFile d { w.files d with isallocated := false }) := by
  unfold fileFree
  rw [dif_pos ⟨by omega, by rw [Int.toNat_natCast]; exact d.isLt⟩, post_modifyFile]
  rfl

end Files

end Nucleo
