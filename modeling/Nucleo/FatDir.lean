/-
# Directory streams

The part of `fatfs.c` behind `opendir` and the calls on a `DIR`.  A `DIR *` is a pointer
into the pool of file objects; `fatfs_opendir` and `fatfs_fdopendir` take it from the
descriptor, so it may also be the pointer of a file, or null.

`f_readdir` is a parameter of its own (`DirLib`): with a `FILINFO` it gives the next entry,
with a null pointer it rewinds.
-/
import Nucleo.FatFs

namespace Nucleo

namespace Fat

/-- `f_readdir`, with a `FILINFO` to fill and with a null pointer. -/
structure DirLib (δ ψ : Type) where
  fReaddir : δ → ψ → (FResult × FilInfo) × δ × ψ
  fRewind : δ → ψ → FResult × δ × ψ

/-- `struct dirent`. -/
structure Dirent where
  dIno : ℤ
  dName : String
  deriving DecidableEq, Repr

/-- `NAME_MAX`. -/
def nameMax : ℕ := 12

/-- The name that `strncpy` leaves in `d_name`. -/
def storedName (fname : String) : String := String.ofList (fname.toList.take (nameMax + 1))

section Driver

variable {χ κ δ ψ : Type} (L : FatLib κ δ ψ) (D : DirLib δ ψ)

/-! ## The stream behind a pointer -/

/-- What a `DIR *` points to.  To read an object of another kind as a stream is undefined. -/
def dirOf (dirp : Opaque) : FatSys χ κ δ ψ (Fin openMax × Dirstream δ) := do
  match ← poolIndex dirp with
  | none => throw .nullDeref
  | some i =>
      match ((← get).fat.pool i).object with
      | .dir d => pure (i, d)
      | .fil _ | .zero => throw .wrongObject

theorem dirOf_of_object {w : World χ (FatFs κ δ ψ)} {i : Fin openMax} {d : Dirstream δ}
    (h : (w.fat.pool i).object = .dir d) : dirOf (.dir i) w = .ok ((i, d), w) := by
  unfold dirOf
  rw [Comp.bind_of_ok (show (poolIndex (.dir i) : FatSys χ κ δ ψ _) w = .ok (some i, w) from rfl)]
  dsimp only
  rw [Comp.bind_of_ok (show (get : FatSys χ κ δ ψ _) w = .ok (w, w) from rfl), h]
  rfl

/-- Replace the stream in an entry of the pool. -/
def setDir (i : Fin openMax) (d : Dirstream δ) : FatSys χ κ δ ψ Unit :=
  modifyPool i fun e => { e with object := .dir d }

/-- Call the library on `dirp->ffdir`. -/
def callDir {α : Type} (dirp : Opaque) (call : δ → ψ → α × δ × ψ) : FatSys χ κ δ ψ α := do
  let (i, d) ← dirOf dirp
  let (a, ffdir, lib) := call d.ffdir (← get).fat.lib
  modify fun w => { w with fat := { w.fat with lib := lib } }
  setDir i { d with ffdir := ffdir }
  pure a

/-- `is_dir`. -/
def isDir (dirp : Opaque) : FatSys χ κ δ ψ Bool := do
  let (_, d) ← dirOf dirp
  match ← fileStructGet d.fd with
  | none => fail .EBADF false
  | some fd =>
      if ((← get).files fd).stat.fileType = .dir then pure true else fail .ENOTDIR false

/-! ## Opening and closing -/

/-- `fatfs_opendir`. -/
def fatfsOpendir (path : String) : FatSys χ κ δ ψ Opaque := do
  let result ← fatfsOpen L path oRdonly
  if result = -1 then pure .null
  else
    match ← fileStructGet result with
    | none => fail .EBADF .null
    | some fd => pure ((← get).files fd).opaquePtr

/-- `fatfs_closedir`. -/
def fatfsClosedir (dirp : Opaque) : FatSys χ κ δ ψ ℤ := do
  let (_, d) ← dirOf dirp
  fatfsClose L d.fd

/-- `fatfs_dirfd`. -/
def fatfsDirfd (dirp : Opaque) : FatSys χ κ δ ψ ℤ := do
  if ← isDir dirp then
    let (_, d) ← dirOf dirp
    pure d.fd
  else fail .EINVAL (-1)

/-- `fatfs_fdopendir`. -/
def fatfsFdopendir (fd : ℤ) : FatSys χ κ δ ψ Opaque := do
  match ← fileStructGet fd with
  | none => fail .EBADF .null
  | some d =>
      let pfd := (← get).files d
      if pfd.stat.fileType = .dir then pure pfd.opaquePtr else fail .ENOTDIR .null

/-! ## Reading and positioning -/

/-- `fatfs_readdir_r`: the value returned and what `result` points to.  There are `room` bytes
for `entry->d_name`, an array without a size in `struct dirent`, and `strncpy` always writes
`NAME_MAX + 1`. -/
def fatfsReaddirR (dirp : Opaque) (room : ℕ) : FatSys χ κ δ ψ (ℤ × Option Dirent) := do
  if ← isDir dirp then
    let (fresult, fno) ← callDir dirp D.fReaddir
    if fresult ≠ .ok then failWith fresult (-1, none)
    else if fno.fname = "" then pure (0, none)
    else
      let (i, d) ← dirOf dirp
      setDir i { d with loc := d.loc + 1 }
      if room < nameMax + 1 then throw .overrun
      else pure (0, some ⟨d.loc + 1, storedName fno.fname⟩)
  else fail .EBADF (-1, none)

/-- `fatfs_readdir`, which reads into `dirp->cur_entry`. -/
def fatfsReaddir (dirp : Opaque) : FatSys χ κ δ ψ (Option Dirent) := do
  if ← isDir dirp then
    let (_, ret) ← fatfsReaddirR D dirp (nameMax + 1)
    pure ret
  else fail .EBADF none

/-- `fatfs_rewinddir`. -/
def fatfsRewinddir (dirp : Opaque) : FatSys χ κ δ ψ Unit := do
  if ← isDir dirp then
    let result ← callDir dirp D.fRewind
    if result = .ok then
      let (i, d) ← dirOf dirp
      setDir i { d with loc := 0 }
    else pure ()
  else pure ()

/-- `fatfs_telldir`. -/
def fatfsTelldir (dirp : Opaque) : FatSys χ κ δ ψ ℤ := do
  if ← isDir dirp then
    let (_, d) ← dirOf dirp
    pure d.loc
  else pure (-1)

/-- The bytes that a `struct dirent` of its own has for `d_name`. -/
def direntRoom : ℕ := 0

/-- The loop of `fatfs_seekdir`.  A round that goes on moves the position by one, so there
are never more rounds than `loc - cur_loc`, the first argument. -/
def seekLoop (dirp : Opaque) (loc : ℤ) : ℕ → ℤ → FatSys χ κ δ ψ Unit
  | 0, _ => pure ()
  | rounds + 1, curLoc =>
      if loc > curLoc then do
        let (ret, result) ← fatfsReaddirR D dirp direntRoom
        if result = none ∨ ret ≠ 0 then pure ()
        else
          let curLoc ← fatfsTelldir dirp
          seekLoop dirp loc rounds curLoc
      else pure ()

/-- `fatfs_seekdir`.  The loop starts from the position that was current before the
rewinding. -/
def fatfsSeekdir (dirp : Opaque) (loc : ℤ) : FatSys χ κ δ ψ Unit := do
  if ← isDir dirp then
    let curLoc ← fatfsTelldir dirp
    (if loc < curLoc then fatfsRewinddir D dirp else pure ())
    seekLoop D dirp loc (loc - curLoc).toNat curLoc
  else pure ()

end Driver

end Fat

end Nucleo
