/-
# Descriptors of files and directories

The part of `fatfs.c` behind `open`, `read`, `write`, `lseek`, `fsync` and `close`: the pool of
file objects and the descriptors that point into it.

The FatFs library is not part of the program.  It is a parameter (`FatLib`) that gives
the result of every call as a function of the object passed to it and of a state of its
own, so that a call may return any `FRESULT`.
-/
import Nucleo.FileTable

namespace Nucleo

namespace Fat

/-- `FRESULT`. -/
inductive FResult
  | ok | diskErr | intErr | notReady | noFile | noPath | invalidName | denied | exist
  | invalidObject | writeProtected | invalidDrive | notEnabled | noFilesystem | mkfsAborted
  | timeout | locked | notEnoughCore | tooManyOpenFiles | invalidParameter
  deriving DecidableEq, Repr

/-- `FILINFO`: the fields that the source reads. -/
structure FilInfo where
  fsize : ℕ
  isDir : Bool
  isReadOnly : Bool
  fname : String
  deriving DecidableEq, Repr

/-- `struct dirstream`; `δ` stands for `FFDIR`. -/
structure Dirstream (δ : Type) where
  fd : ℤ
  loc : ℤ
  ffdir : δ

/-- The union in an entry of the pool; `κ` stands for `FIL`. -/
inductive PoolObject (κ δ : Type)
  | zero
  | fil (f : κ)
  | dir (d : Dirstream δ)

/-- An entry of the pool `files`. -/
structure PoolEntry (κ δ : Type) where
  allocated : Bool
  object : PoolObject κ δ

/-- The file system: the pool and the state of the library. -/
structure FatFs (κ δ ψ : Type) where
  pool : Fin openMax → PoolEntry κ δ
  lib : ψ

/-- The library.  The calls on an object receive the union that the pointer points to. -/
structure FatLib (κ δ ψ : Type) where
  fOpen : String → Byte → ψ → FResult × κ × ψ
  fOpendir : String → ψ → FResult × δ × ψ
  fStat : String → FilInfo → ψ → FResult × FilInfo × ψ
  fClose : PoolObject κ δ → ψ → FResult × PoolObject κ δ × ψ
  fClosedir : PoolObject κ δ → ψ → FResult × PoolObject κ δ × ψ
  fRead : ℕ → PoolObject κ δ → ψ → (FResult × List Byte) × PoolObject κ δ × ψ
  fWrite : List Byte → PoolObject κ δ → ψ → (FResult × ℕ) × PoolObject κ δ × ψ
  fLseek : BitVec 32 → PoolObject κ δ → ψ → FResult × PoolObject κ δ × ψ
  fSize : PoolObject κ δ → BitVec 32
  fTell : PoolObject κ δ → BitVec 32

/-- `fresult2errno`; `none` stands for 0. -/
def fresult2errno : FResult → Option Errno
  | .ok => none
  | .exist => some .EEXIST
  | .noFile => some .ENOENT
  | .noPath | .invalidName => some .ENOTDIR
  | .writeProtected => some .EROFS
  | .denied => some .EACCES
  | .tooManyOpenFiles => some .ENFILE
  | .notEnoughCore => some .ENOMEM
  | _ => some .EINVAL

/-- `O_ACCMODE`. -/
def oAccmode : BitVec 32 := 3
/-- `O_RDONLY`. -/
def oRdonly : BitVec 32 := 0
/-- `O_WRONLY`. -/
def oWronly : BitVec 32 := 1
/-- `O_CREAT`. -/
def oCreat : BitVec 32 := 0x0200
/-- `O_TRUNC`. -/
def oTrunc : BitVec 32 := 0x0400
/-- `O_EXCL`. -/
def oExcl : BitVec 32 := 0x0800

/-- `FA_READ`. -/
def faRead : Byte := 0x01
/-- `FA_WRITE`. -/
def faWrite : Byte := 0x02
/-- `FA_OPEN_EXISTING`. -/
def faOpenExisting : Byte := 0x00
/-- `FA_CREATE_NEW`. -/
def faCreateNew : Byte := 0x04
/-- `FA_CREATE_ALWAYS`. -/
def faCreateAlways : Byte := 0x08
/-- `FA_OPEN_ALWAYS`. -/
def faOpenAlways : Byte := 0x10

/-- `flags2mode`. -/
def flags2mode (flags : BitVec 32) : Byte :=
  let accmode := flags &&& oAccmode
  (if accmode = oRdonly ∨ accmode = oRdwr then faRead else 0) |||
    (if accmode = oWronly ∨ accmode = oRdwr then
      faWrite |||
        (if flags &&& oCreat = 0 then faOpenExisting
        else if flags &&& oExcl ≠ 0 then faCreateNew
        else if flags &&& oTrunc ≠ 0 then faCreateAlways
        else faOpenAlways)
    else 0)

section Driver

variable {χ κ δ ψ : Type} (L : FatLib κ δ ψ)

/-- A computation over the file system. -/
abbrev FatSys (χ κ δ ψ α : Type) := Sys χ (FatFs κ δ ψ) α

/-! ## The pool -/

/-- Update an entry of the pool. -/
def modifyPool (i : Fin openMax) (f : PoolEntry κ δ → PoolEntry κ δ) : FatSys χ κ δ ψ Unit :=
  modify fun w => { w with fat := { w.fat with pool := Function.update w.fat.pool i (f (w.fat.pool i)) } }

/-- Call the library on the object of an entry. -/
def callOn {α : Type} (i : Fin openMax) (call : PoolObject κ δ → ψ → α × PoolObject κ δ × ψ) :
    FatSys χ κ δ ψ α := do
  let w ← get
  let (a, object, lib) := call (w.fat.pool i).object w.fat.lib
  modify fun w => { w with fat := { w.fat with lib := lib } }
  modifyPool i fun e => { e with object := object }
  pure a

/-- Call the library on no object of the pool. -/
def callLib {α : Type} (call : ψ → α × ψ) : FatSys χ κ δ ψ α := do
  let w ← get
  let (a, lib) := call w.fat.lib
  modify fun w => { w with fat := { w.fat with lib := lib } }
  pure a

/-- The entry that a pointer of a descriptor points to. -/
def poolIndex : Opaque → FatSys χ κ δ ψ (Option (Fin openMax))
  | .null => pure none
  | .fil i | .dir i => pure (some i)
  | .slot _ => throw .wrongObject

/-- The first entry that is not allocated. -/
def firstFreePool (pool : Fin openMax → PoolEntry κ δ) : Option (Fin openMax) :=
  (List.finRange openMax).find? fun i => ¬ (pool i).allocated

/-- `fatfs_fildir_alloc`; the source returns -1 for `none`. -/
def fatfsFildirAlloc : FatSys χ κ δ ψ (Option (Fin openMax)) := do
  match firstFreePool (← get).fat.pool with
  | none => pure none
  | some i =>
      modifyPool i fun e => { e with allocated := true }
      pure (some i)

/-- `fatfs_fil_free` and `fatfs_dir_free`: an allocated entry is cleared. -/
def fatfsFildirFree (i : Fin openMax) : FatSys χ κ δ ψ Unit :=
  modifyPool i fun e => if e.allocated then ⟨false, .zero⟩ else e

/-- `errno = fresult2errno(result)`, and the value returned with it. -/
def failWith {α : Type} (result : FResult) (ret : α) : FatSys χ κ δ ψ α := do
  modify fun w => { w with errno := fresult2errno result }
  pure ret

/-! ## `read`, `write` and `close` -/

/-- What the driver's functions have in common: the null checks, and a branch each for
files, for directories and for the rest. -/
def withObject {α : Type} (fd : ℤ) (err : α) (reg dir : Fd → Fin openMax → FatSys χ κ δ ψ α)
    (rest : FatSys χ κ δ ψ α) : FatSys χ κ δ ψ α := do
  match ← fileStructGet fd with
  | none => fail .EBADF err
  | some d =>
      let pfd := (← get).files d
      match ← poolIndex pfd.opaquePtr with
      | none => fail .EBADF err
      | some i =>
          match pfd.stat.fileType with
          | .reg => reg pfd i
          | .dir => dir pfd i
          | _ => rest

/-- `fatfs_write`. -/
def fatfsWrite (fd : ℤ) (buf : List Byte) : FatSys χ κ δ ψ ℤ :=
  withObject fd (-1)
    (fun pfd i => do
      let size := L.fSize ((← get).fat.pool i).object
      let result ← if pfd.statusFlags &&& oAppend ≠ 0 then callOn i (L.fLseek size)
        else pure .ok
      if result ≠ .ok then failWith result (-1)
      else
        let (result, written) ← callOn i (L.fWrite buf)
        if result = .ok then pure (wrap32 written) else failWith result (-1))
    (fun _ _ => fail .EISDIR (-1))
    (fail .EBADF (-1))

/-- `fatfs_read`: the value returned and the bytes stored. -/
def fatfsRead (fd : ℤ) (len : ℕ) : FatSys χ κ δ ψ (ℤ × List Byte) :=
  withObject fd (-1, [])
    (fun _ i => do
      let (result, bytes) ← callOn i (L.fRead len)
      if result = .ok then pure (wrap32 bytes.length, bytes) else failWith result (-1, bytes))
    (fun _ _ => fail .EISDIR (-1, []))
    (fail .EBADF (-1, []))

/-- A branch of `fatfs_close`. -/
def closeObject (call : PoolObject κ δ → ψ → FResult × PoolObject κ δ × ψ) (fd : ℤ)
    (i : Fin openMax) : FatSys χ κ δ ψ ℤ := do
  let result ← callOn i call
  if result = .ok then
    fatfsFildirFree i
    fileFree fd
    pure 0
  else failWith result (-1)

/-- `fatfs_close`. -/
def fatfsClose (fd : ℤ) : FatSys χ κ δ ψ ℤ :=
  withObject fd (-1)
    (fun _ i => closeObject L.fClose fd i)
    (fun _ i => closeObject L.fClosedir fd i)
    (fail .EBADF (-1))

/-! ## `open` -/

/-- `fill_stat`. -/
def fillStat (fno : FilInfo) : Stat where
  fileType := if fno.isDir then .dir else .reg
  permissions := if fno.isReadOnly then 0o555 else 0o777
  stSize := fno.fsize
  stBlksize := 0

/-- `fill_fd`, and the pointer that `fill_fd_fil` and `fill_fd_dir` store after it. -/
def fillFd (d : Fin openMax) (p : Opaque) (flags : BitVec 32) (fno : FilInfo) :
    FatSys χ κ δ ψ Unit :=
  modifyFile d fun f =>
    { f with
      isatty := false, isopen := true, close := some .fatfs, statusFlags := flags,
      descriptorFlags := 0,
      write := if fno.isDir then f.write else some .fatfs,
      read := if fno.isDir then f.read else some .fatfs,
      stat := fillStat fno, opaquePtr := p }

/-- `fatfs_open_file`. -/
def fatfsOpenFile (pathname : String) (flags : BitVec 32) (d : Fin openMax) (fno : FilInfo) :
    FatSys χ κ δ ψ FResult := do
  match ← fatfsFildirAlloc with
  | none => pure .tooManyOpenFiles
  | some i =>
      let (result, f) ← callLib (fun lib =>
        let (r, f, lib') := L.fOpen pathname (flags2mode flags) lib
        ((r, f), lib'))
      modifyPool i fun e => { e with object := .fil f }
      let (result, fno) ←
        if result = .ok ∧ fno.fname = "" then
          callLib (fun lib =>
            let (r, fno', lib') := L.fStat pathname fno lib
            ((r, fno'), lib'))
        else pure (result, fno)
      if result = .ok then fillFd d (.fil i) flags fno
      else fatfsFildirFree i
      pure result

/-- `fatfs_open_dir`. -/
def fatfsOpenDir (pathname : String) (flags : BitVec 32) (d : Fin openMax) (fno : FilInfo) :
    FatSys χ κ δ ψ FResult := do
  match ← fatfsFildirAlloc with
  | none => pure .tooManyOpenFiles
  | some i =>
      let (result, ffdir) ← callLib (fun lib =>
        let (r, dir, lib') := L.fOpendir pathname lib
        ((r, dir), lib'))
      if result = .ok then
        modifyPool i fun e => { e with object := .dir ⟨(d.val : ℤ), 0, ffdir⟩ }
        fillFd d (.dir i) flags fno
      else fatfsFildirFree i
      pure result

/-- `fatfs_open_file_or_dir`; the name in `fno` starts out empty. -/
def fatfsOpenFileOrDir (pathname : String) (flags : BitVec 32) (d : Fin openMax) :
    FatSys χ κ δ ψ FResult := do
  let (result, fno) ← callLib (fun lib =>
    let (r, fno, lib') := L.fStat pathname ⟨0, false, false, ""⟩ lib
    ((r, fno), lib'))
  if result ≠ .ok ∧ result ≠ .noFile then pure result
  else if result = .ok ∧ fno.isDir then fatfsOpenDir L pathname flags d fno
  else fatfsOpenFile L pathname flags d fno

/-- `fatfs_open`. -/
def fatfsOpen (pathname : String) (flags : BitVec 32) : FatSys χ κ δ ψ ℤ := do
  match ← fileAlloc with
  | none => fail .ENFILE (-1)
  | some d =>
      let result ← fatfsOpenFileOrDir L pathname flags d
      if result = .ok then pure (d.val : ℤ)
      else
        fileFree (d.val : ℤ)
        failWith result (-1)

/-! ## `lseek` -/

/-- The values of `whence` that the source tells apart. -/
inductive Whence
  | seekSet | seekCur | seekEnd | other
  deriving DecidableEq, Repr

/-- `fatfs_lseek`. -/
def fatfsLseek (fd : ℤ) (offset : BitVec 32) (whence : Whence) : FatSys χ κ δ ψ ℤ :=
  withObject fd (-1)
    (fun _ i => do
      let object := ((← get).fat.pool i).object
      let base := match whence with
        | .seekCur => L.fTell object
        | .seekEnd => L.fSize object
        | _ => 0
      let pos := base + offset
      let result ← callOn i (L.fLseek pos)
      if result = .ok then pure pos.toInt else failWith result (-1))
    (fun _ _ => fail .EINVAL (-1))
    (fail .EINVAL (-1))

/-! ## `fsync` -/

/-- `fatfs_fsync`, with the library's `f_sync`.  The type is looked at before the pointer
is used. -/
def fatfsFsync (fSync : PoolObject κ δ → ψ → FResult × PoolObject κ δ × ψ) (fd : ℤ) :
    FatSys χ κ δ ψ ℤ := do
  match ← fileStructGet fd with
  | none => fail .EBADF (-1)
  | some d =>
      let pfd := (← get).files d
      if pfd.opaquePtr = .null then fail .EBADF (-1)
      else if pfd.stat.fileType = .reg then
        match ← poolIndex pfd.opaquePtr with
        | none => fail .EBADF (-1)
        | some i =>
            let result ← callOn i fSync
            if result = .ok then pure 0 else failWith result (-1)
      else fail .EINVAL (-1)

end Driver

end Fat

end Nucleo
