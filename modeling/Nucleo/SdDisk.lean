/-
# The disk functions over the SD card

`sd_spi_diskio.c`: `disk_initialize`, `disk_status`, `disk_read`, `disk_write` and
`disk_ioctl`, which the FatFs library calls.  There is one drive; what the program knows of
it are four flags (`Pdrv`), which `disk_initialize` sets and the others look at.
-/
import Nucleo.SdSpi

namespace Nucleo

namespace Sd

/-- `DSTATUS`: no bit, or one of the bits that the source sets. -/
inductive DStatus
  | ok | noinit | nodisk | protect
  deriving DecidableEq, Repr

/-- `DRESULT`: the values that the source returns. -/
inductive DResult
  | ok | error | notrdy | parerr
  deriving DecidableEq, Repr

/-- `N_PDRV`. -/
def nPdrv : ℕ := 1

def sdStateIdle : Byte := 0x01
def sdSectorSize : ℕ := 512

/-- `struct pdrv`. -/
structure Pdrv where
  initialized : Bool
  present : Bool
  writeProtected : Bool
  byteAddressable : Bool
  deriving DecidableEq, Repr

/-- The flags before the program starts. -/
def Pdrv.zero : Pdrv := ⟨false, false, false, false⟩

/-- The only entry of `pdrv_data`, and the bus. -/
structure Disk (χ : Type) where
  drive : Pdrv
  bus : χ
  deriving DecidableEq

section Disk

variable {χ : Type} (B : SpiBoard χ) (fuel : ℕ)

/-- Run a computation of the bus. -/
def onBus {α : Type} (x : Comp χ Stop α) : Comp (Disk χ) Stop α :=
  Comp.focus Disk.bus (fun c d => { d with bus := c }) x

def modifyDrive (f : Pdrv → Pdrv) : Comp (Disk χ) Stop Unit :=
  modify fun d => { d with drive := f d.drive }

/-! ## `disk_initialize` -/

/-- `CMD0`, at most `tries` times, until the card is idle: its last answer. -/
def resetTries : ℕ → Comp χ Stop Byte
  | 0 => pure sdStateIdle
  | tries + 1 => do
      let r1 ← sdSendCommandR1 B fuel 0 0
      if r1 ≠ sdStateIdle ∧ tries > 0 then resetTries tries else pure r1

/-- The answer to `CMD8` that is expected: idle, the voltage and the check pattern. -/
def checkR7 (r7 : List Byte) : Bool :=
  ¬ (r7.getD 0 0 ≠ sdStateIdle ∨ r7.getD 3 0 &&& 0x0F ≠ 0x01 ∨ r7.getD 4 0 ≠ 0xAA)

/-- `CMD55` and `CMD41`, at most `tries` times, until the card is ready: its last answer. -/
def readyTries : ℕ → Comp χ Stop Byte
  | 0 => pure 0
  | tries + 1 => do
      let _ ← sdSendCommandR1 B fuel 55 0
      let r1 ← sdSendCommandR1 B fuel 41 0x40000000
      if r1 &&& sdStateIdle ≠ 0 ∧ tries > 0 then readyTries tries else pure r1

/-- The last stage of the handshake: the addressing mode is stored before `CMD16`. -/
def initCapacity : Comp (Disk χ) Stop Bool := do
  let r3 ← onBus (sdSendCommand B fuel 58 0 5)
  if r3.getD 1 0 &&& 0x40 ≠ 0 then
    modifyDrive fun p => { p with byteAddressable := false }
    pure true
  else
    modifyDrive fun p => { p with byteAddressable := true }
    let r1 ← onBus (sdSendCommandR1 B fuel 16 (BitVec.ofNat 32 sdSectorSize))
    pure (r1 = 0)

/-- The stages of `disk_initialize` up to where the drive is marked; `false` stands for
`STA_NODISK`. -/
def initCard : Comp (Disk χ) Stop Bool := do
  onBus (sdInit B)
  let r1 ← onBus (resetTries B fuel 4)
  if r1 ≠ sdStateIdle then pure false
  else
    let r7 ← onBus (sdSendCommand B fuel 8 0x1AA 5)
    if ¬ checkR7 r7 then pure false
    else
      let r1 ← onBus (readyTries B fuel 1000)
      if r1 &&& sdStateIdle ≠ 0 then pure false
      else initCapacity B fuel

/-- `disk_initialize`; `readonly` says that `SD_SPI_DISKIO_READONLY` is defined. -/
def diskInitialize (readonly : Bool) (pdrv : ℕ) : Comp (Disk χ) Stop DStatus :=
  if pdrv < nPdrv then do
    let ok ← initCard B fuel
    if ok then
      onBus (sdFullSpeed B)
      modifyDrive fun p =>
        { p with initialized := true, present := true, writeProtected := readonly }
      pure (if readonly then .protect else .ok)
    else pure .nodisk
  else pure .nodisk

/-! ## `disk_status` -/

/-- `disk_status`. -/
def diskStatus (pdrv : ℕ) (d : Disk χ) : DStatus :=
  if pdrv < nPdrv then
    if ¬ d.drive.initialized then .noinit
    else if ¬ d.drive.present then .nodisk
    else if d.drive.writeProtected then .protect
    else .ok
  else .nodisk

/-! ## `disk_read` and `disk_write` -/

/-- `get_addr`. -/
def getAddr (sector : BitVec 32) (byteAddressable : Bool) : BitVec 32 :=
  if byteAddressable then sector * BitVec.ofNat 32 sdSectorSize else sector

/-- The loop of `disk_read`: how many blocks were not read, and the bytes stored. -/
def readBlocks (byteAddressable : Bool) (sector : BitVec 32) : ℕ → Comp χ Stop (ℕ × List Byte)
  | 0 => pure (0, [])
  | count + 1 => do
      match ← sdReadSingleBlock B fuel (getAddr sector byteAddressable) with
      | none => pure (count + 1, [])
      | some bytes =>
          let (left, rest) ← readBlocks byteAddressable (sector + 1) count
          pure (left, bytes ++ rest)

/-- The loop of `disk_write`: how many blocks were not written. -/
def writeBlocks (byteAddressable : Bool) (buff : List Byte) (sector : BitVec 32) :
    ℕ → Comp χ Stop ℕ
  | 0 => pure 0
  | count + 1 => do
      if ← sdWriteSingleBlock B fuel (getAddr sector byteAddressable) buff then
        writeBlocks byteAddressable (buff.drop sdSectorSize) (sector + 1) count
      else pure (count + 1)

/-- What the functions for the drive have in common: the guards, and then `body`. -/
def whenReady {α : Type} (pdrv : ℕ) (refuse : DResult → α) (body : Pdrv → Comp (Disk χ) Stop α) :
    Comp (Disk χ) Stop α := do
  let p := (← get).drive
  if pdrv ≥ nPdrv then pure (refuse .error)
  else if ¬ p.initialized then pure (refuse .notrdy)
  else if ¬ p.present then pure (refuse .error)
  else body p

/-- The part of `disk_read` behind the guards. -/
def readBody (sector : BitVec 32) (count : ℕ) (p : Pdrv) :
    Comp (Disk χ) Stop (DResult × List Byte) := do
  let (left, bytes) ← onBus (readBlocks B fuel p.byteAddressable sector count)
  pure (if left > 0 then .error else .ok, bytes)

/-- `disk_read`: the value returned and the bytes stored. -/
def diskRead (pdrv : ℕ) (sector : BitVec 32) (count : ℕ) :
    Comp (Disk χ) Stop (DResult × List Byte) :=
  whenReady pdrv (fun r => (r, [])) (readBody B fuel sector count)

/-- The part of `disk_write` behind the guards that all functions have. -/
def writeBody (buff : List Byte) (sector : BitVec 32) (count : ℕ) (p : Pdrv) :
    Comp (Disk χ) Stop DResult := do
  if p.writeProtected then pure .error
  else
    let left ← onBus (writeBlocks B fuel p.byteAddressable buff sector count)
    pure (if left > 0 then .error else .ok)

/-- `disk_write`. -/
def diskWrite (pdrv : ℕ) (buff : List Byte) (sector : BitVec 32) (count : ℕ) :
    Comp (Disk χ) Stop DResult :=
  whenReady pdrv id (writeBody B fuel buff sector count)

/-! ## `disk_ioctl` -/

/-- The values of `cmd` that the source tells apart. -/
inductive IoctlCmd
  | ctrlSync | getSectorCount | getSectorSize | getBlockSize | ctrlTrim | other
  deriving DecidableEq, Repr

/-- The part of `disk_ioctl` behind the guards: the value returned, and the word stored in
`buff`. -/
def ioctlBody (cmd : IoctlCmd) : DResult × Option ℕ :=
  match cmd with
  | .ctrlSync => (.ok, none)
  | .getSectorCount => (.ok, some (2 * 1024 * (1024 / sdSectorSize)))
  | .getSectorSize => (.ok, some sdSectorSize)
  | .getBlockSize => (.ok, some sdSectorSize)
  | .ctrlTrim => (.ok, none)
  | .other => (.parerr, none)

/-- `disk_ioctl`. -/
def diskIoctl (pdrv : ℕ) (cmd : IoctlCmd) : Comp (Disk χ) Stop (DResult × Option ℕ) :=
  whenReady pdrv (fun r => (r, none)) fun _ => pure (ioctlBody cmd)

end Disk

end Sd

end Nucleo
