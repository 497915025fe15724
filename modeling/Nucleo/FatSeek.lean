/-
# Seeking in a file

`fatfs_lseek` adds the signed offset to an unsigned base and passes the sum, as an unsigned
number of 32 bits, to `f_lseek`, which clips it at the end of a file that is only read.  What
it returns is that number read as a signed one, and not the position the file is at.  The
result is right as long as the exact sum is a position, and within the file where it is
clipped (`lseek_iff`); a negative sum is never reported.
-/
import Nucleo.FatFsEffects
import Nucleo.Syscalls

namespace Nucleo

namespace Fat

open Comp

section Seek

variable {χ κ δ ψ : Type} {L : FatLib κ δ ψ} {writable : κ → Bool}
  {w w' : World χ (FatFs κ δ ψ)} {d i : Fin openMax} {f : κ}

/-! ## Positions -/

/-- The position of a file, `f_tell`. -/
def filePos (L : FatLib κ δ ψ) (f : κ) : BitVec 32 := L.fTell (.fil f)

/-- The size of a file, `f_size`. -/
def fileSize (L : FatLib κ δ ψ) (f : κ) : BitVec 32 := L.fSize (.fil f)

/-- Where `f_lseek` moves a file to: `pos`, or its end if that is nearer and the file is not
open for writing. -/
def clipped (L : FatLib κ δ ψ) (writable : κ → Bool) (f : κ) (pos : BitVec 32) : BitVec 32 :=
  if writable f = true ∨ pos.toNat ≤ (fileSize L f).toNat then pos else fileSize L f

/-- What `f_lseek` is taken to do: it succeeds, and the file is moved. -/
def MovesFile (L : FatLib κ δ ψ) (writable : κ → Bool) : Prop :=
  ∀ pos f lib, ∃ lib' f', L.fLseek pos (.fil f) lib = (.ok, .fil f', lib') ∧
    filePos L f' = clipped L writable f pos

/-- The descriptor `d` is open for the regular file `f`, which is the entry `i` of the pool. -/
structure OpenFile (w : World χ (FatFs κ δ ψ)) (d i : Fin openMax) (f : κ) : Prop where
  isopen : (w.files d).isopen = true
  regular : (w.files d).stat.fileType = .reg
  pointer : entryOf (w.files d).opaquePtr = some i
  object : (w.fat.pool i).object = .fil f

/-- What the offset is added to. -/
def seekBase (L : FatLib κ δ ψ) (f : κ) : Whence → BitVec 32
  | .seekCur => filePos L f
  | .seekEnd => fileSize L f
  | _ => 0

/-- The exact sum of the base and the offset. -/
def seekSum (L : FatLib κ δ ψ) (f : κ) (offset : BitVec 32) (whence : Whence) : ℤ :=
  (seekBase L f whence).toNat + offset.toInt

/-! ## The call -/

/-- The driver's functions find the entry of a descriptor that is open for a file. -/
theorem withObject_of_open {α : Type} (hopen : OpenFile w d i f) (err : α)
    (reg dir : Fd → Fin openMax → FatSys χ κ δ ψ α) (rest : FatSys χ κ δ ψ α) :
    withObject (d.val : ℤ) err reg dir rest w = reg (w.files d) i w := by
  unfold withObject
  rw [fileStructGet_coe, pure_bind]
  dsimp only
  rw [get_bind, poolIndex_of_entryOf hopen.pointer, pure_bind]
  dsimp only
  rw [hopen.regular]

/-- `fatfs_lseek` of a file, with the sum that it passes to `f_lseek`. -/
theorem fatfsLseek_eq (hopen : OpenFile w d i f) (offset : BitVec 32) (whence : Whence) :
    fatfsLseek L (d.val : ℤ) offset whence w =
      (do
        let result ← callOn i (L.fLseek (seekBase L f whence + offset))
        if result = FResult.ok then pure (seekBase L f whence + offset).toInt
        else failWith result (-1)) w := by
  unfold fatfsLseek
  rw [withObject_of_open hopen, get_bind, hopen.object]
  cases whence <;> rfl

/-- `_lseek` of a regular file returns what it passes to `f_lseek`. -/
theorem sysLseek_eq (hmoves : MovesFile L writable) (hopen : OpenFile w d i f) (offset : BitVec 32)
    (whence : Whence) :
    ∃ w' f', sysLseek L (d.val : ℤ) offset whence w
        = .ok ((seekBase L f whence + offset).toInt, w') ∧ OpenFile w' d i f' ∧
      filePos L f' = clipped L writable f (seekBase L f whence + offset) ∧
      w'.errno = w.errno := by
  obtain ⟨lib, f', hcall, hpos⟩ := hmoves (seekBase L f whence + offset) f w.fat.lib
  rw [← hopen.object] at hcall
  refine ⟨setPool (setLib w lib) i { w.fat.pool i with object := .fil f' }, f', ?_,
    ⟨hopen.isopen, hopen.regular, hopen.pointer, ?_⟩, hpos, rfl⟩
  · unfold sysLseek
    rw [withOpen_of_open _ _ hopen.isopen, hopen.regular]
    dsimp only
    rw [fatfsLseek_eq hopen, bind_of_ok (callOn_of_eq hcall), if_pos rfl]
    rfl
  · rw [setPool_pool, Function.update_self]

/-! ## The sum and what is returned -/

/-- The unsigned sum is exact where the exact sum is a position. -/
theorem toNat_add_offset (base offset : BitVec 32) (h0 : 0 ≤ (base.toNat : ℤ) + offset.toInt)
    (hlt : (base.toNat : ℤ) + offset.toInt < 2 ^ 32) :
    ((base + offset).toNat : ℤ) = base.toNat + offset.toInt := by
  have hbase := base.isLt
  rw [BitVec.toInt_eq_toNat_cond] at *
  rw [BitVec.toNat_add]
  split_ifs at * <;> omega

/-- The signed sum is exact up to `2 ^ 31`, and less by `2 ^ 32` from there on. -/
theorem toInt_add_offset (base offset : BitVec 32) :
    (base.toNat : ℤ) + offset.toInt < 2 ^ 31 ∧
        (base + offset).toInt = base.toNat + offset.toInt ∨
      2 ^ 31 ≤ (base.toNat : ℤ) + offset.toInt ∧
        (base + offset).toInt = base.toNat + offset.toInt - 2 ^ 32 := by
  have hbase := base.isLt
  have hoffset := offset.isLt
  rw [BitVec.toInt_eq_toNat_cond, BitVec.toInt_eq_toNat_cond, BitVec.toNat_add]
  split_ifs <;> omega

theorem add_offset_eq_allOnes {base offset : BitVec 32}
    (hlast : (base.toNat : ℤ) + offset.toInt = 2 ^ 32 - 1) :
    base + offset = BitVec.allOnes 32 := by
  have hnat := toNat_add_offset base offset (by omega) (by omega)
  apply BitVec.eq_of_toNat_eq
  rw [BitVec.toNat_allOnes]
  omega

/-! ### Positions within reach -/

/-- What `lseek` owes its caller where the exact sum is `sum`: it returned `r`, moved the file
`f` to `f'` and left `errno`. -/
structure Sought (L : FatLib κ δ ψ) (sum : ℤ) (f f' : κ) (errno : Option Errno) (r : ℤ) :
    Prop where
  returned : 0 ≤ r → r = sum ∧ ((filePos L f').toNat : ℤ) = r
  negative : sum < 0 → r = -1 ∧ errno = some .EINVAL
  failed : r = -1 → filePos L f' = filePos L f

/-- The sums that are dealt with: a position that is not clipped or that is returned as a
negative number; where that number is -1, the file is there already. -/
structure InReach (L : FatLib κ δ ψ) (writable : κ → Bool) (f : κ) (sum : ℤ) : Prop where
  nonneg : 0 ≤ sum
  lt : sum < 2 ^ 32
  unclipped : sum < 2 ^ 31 → writable f = true ∨ sum ≤ (fileSize L f).toNat
  last : sum = 2 ^ 32 - 1 → clipped L writable f (BitVec.allOnes 32) = filePos L f

/-- Clipping leaves a position alone exactly when it is not beyond the end of a file that is
only read. -/
theorem clipped_toNat_iff {pos : BitVec 32} :
    (clipped L writable f pos).toNat = pos.toNat ↔
      (writable f = true ∨ pos.toNat ≤ (fileSize L f).toNat) := by
  unfold clipped
  split_ifs with h
  · exact iff_of_true rfl h
  · refine iff_of_false (fun heq => h (Or.inr ?_)) h
    omega

section Returned

variable {base offset : BitVec 32} {f' : κ}

theorem Sought.inReach (hpos : filePos L f' = clipped L writable f (base + offset))
    (h : Sought L (base.toNat + offset.toInt) f f' none (base + offset).toInt) :
    InReach L writable f (base.toNat + offset.toInt) := by
  have h0 : 0 ≤ (base.toNat : ℤ) + offset.toInt := by
    by_contra hneg
    cases (h.negative (by omega)).2
  rcases toInt_add_offset base offset with ⟨hsmall, hr⟩ | ⟨hlarge, hr⟩
  · refine ⟨h0, by omega, fun _ => ?_, fun hlast => by omega⟩
    have hnat := toNat_add_offset base offset h0 (by omega)
    have htold := (h.returned (by omega)).2
    rw [hpos] at htold
    have hkept : (clipped L writable f (base + offset)).toNat = (base + offset).toNat := by omega
    exact (clipped_toNat_iff.1 hkept).imp_right fun hle => by omega
  · -- from `2 ^ 32` on a wrapped sum is returned, which is not negative
    have hlt : (base.toNat : ℤ) + offset.toInt < 2 ^ 32 := by
      by_contra hge
      have heq := (h.returned (by omega)).1
      omega
    refine ⟨h0, hlt, fun hsmall => by omega, fun hlast => ?_⟩
    rw [← add_offset_eq_allOnes hlast, ← hpos]
    exact h.failed (by omega)

theorem InReach.sought (hpos : filePos L f' = clipped L writable f (base + offset))
    (h : InReach L writable f (base.toNat + offset.toInt)) :
    Sought L (base.toNat + offset.toInt) f f' none (base + offset).toInt := by
  have h0 := h.nonneg
  have hlt := h.lt
  have hnat := toNat_add_offset base offset h0 hlt
  rcases toInt_add_offset base offset with ⟨hsmall, hr⟩ | ⟨hlarge, hr⟩
  · refine ⟨fun _ => ⟨hr, ?_⟩, fun hneg => by omega, fun hfailed => by omega⟩
    have hkept : (clipped L writable f (base + offset)).toNat = (base + offset).toNat :=
      clipped_toNat_iff.2 ((h.unclipped hsmall).imp_right fun hle => by omega)
    rw [hpos]
    omega
  · -- a negative number is returned, and -1 only for the last position
    refine ⟨fun hreturned => by omega, fun hneg => by omega, fun hfailed => ?_⟩
    have hlast : (base.toNat : ℤ) + offset.toInt = 2 ^ 32 - 1 := by omega
    rw [hpos, add_offset_eq_allOnes hlast]
    exact h.last hlast

end Returned

/-- **`lseek`** of an open regular file returns, and what it returns and where the file is then
are right exactly for the sums `InReach`.  `errno` is cleared before the call. -/
theorem lseek_iff (hmoves : MovesFile L writable) (hopen : OpenFile w d i f) (offset : BitVec 32)
    (whence : Whence) :
    ∃ r w' f', sysLseek L (d.val : ℤ) offset whence { w with errno := none } = .ok (r, w') ∧
      OpenFile w' d i f' ∧
      (Sought L (seekSum L f offset whence) f f' w'.errno r ↔
        InReach L writable f (seekSum L f offset whence)) := by
  have hcleared : OpenFile { w with errno := none } d i f :=
    ⟨hopen.isopen, hopen.regular, hopen.pointer, hopen.object⟩
  obtain ⟨w', f', hcall, hopen', hpos, herrno⟩ := sysLseek_eq hmoves hcleared offset whence
  refine ⟨_, w', f', hcall, hopen', ?_⟩
  rw [show w'.errno = none from herrno]
  exact ⟨Sought.inReach hpos, InReach.sought hpos⟩

end Seek

/-! ### A file of ten bytes -/

/-- A file: its position, its size, and whether it is open for writing. -/
structure SeekFile where
  pos : BitVec 32
  size : BitVec 32
  writable : Bool

/-- A library that only seeks. -/
def seekLib : FatLib SeekFile Unit Unit where
  fOpen := fun _ _ lib => (.notReady, ⟨0, 0, false⟩, lib)
  fOpendir := fun _ lib => (.notReady, (), lib)
  fStat := fun _ fno lib => (.notReady, fno, lib)
  fClose := fun o lib => (.ok, o, lib)
  fClosedir := fun o lib => (.ok, o, lib)
  fRead := fun _ o lib => ((.ok, []), o, lib)
  fWrite := fun _ o lib => ((.ok, 0), o, lib)
  fLseek := fun pos o lib =>
    match o with
    | .fil f =>
        (.ok, .fil { f with pos := if f.writable ∨ pos.toNat ≤ f.size.toNat then pos else f.size },
          lib)
    | o => (.ok, o, lib)
  fSize := fun o =>
    match o with
    | .fil f => f.size
    | _ => 0
  fTell := fun o =>
    match o with
    | .fil f => f.pos
    | _ => 0

theorem movesFile_seekLib : MovesFile seekLib SeekFile.writable :=
  fun _ _ lib => ⟨lib, _, rfl, rfl⟩

/-- The descriptor 3 is open for the file `f`. -/
def seekBoot (f : SeekFile) : World Unit (FatFs SeekFile Unit Unit) where
  files := fun d => if d = 3 then
      { Fd.zero with isallocated := true, isopen := true, stat := ⟨.reg, 0o666, 10, 0⟩,
                     opaquePtr := .fil 0 }
    else Fd.zero
  sockets := fun _ => .zero
  errno := none
  chip := ()
  fat := ⟨fun i => if i = 0 then ⟨true, .fil f⟩ else ⟨false, .zero⟩, ()⟩

theorem openFile_seekBoot (f : SeekFile) : OpenFile (seekBoot f) 3 0 f := ⟨rfl, rfl, rfl, rfl⟩

/-- Four bytes before the end of a file of ten. -/
theorem lseek_before_end :
    ∃ r w' f', sysLseek seekLib 3 (-4) .seekEnd (seekBoot ⟨0, 10, false⟩) = .ok (r, w') ∧
      OpenFile w' 3 0 f' ∧ Sought seekLib 6 ⟨0, 10, false⟩ f' w'.errno r := by
  obtain ⟨r, w', f', hcall, hopen, hiff⟩ :=
    lseek_iff movesFile_seekLib (openFile_seekBoot ⟨0, 10, false⟩) (-4) .seekEnd
  exact ⟨r, w', f', hcall, hopen, hiff.2 ⟨by decide, by decide, fun _ => Or.inr (by decide),
    fun h => absurd h (by decide)⟩⟩

/-- **A negative position is not refused**: -1 is returned without an error, and the file is at
its end. -/
theorem lseek_minus_one :
    ¬ ∀ (L : FatLib SeekFile Unit Unit) (writable : SeekFile → Bool)
      (w w' : World Unit (FatFs SeekFile Unit Unit)) (d i : Fin openMax) (f f' : SeekFile)
      (offset : BitVec 32) (whence : Whence) (r : ℤ), MovesFile L writable → OpenFile w d i f →
      sysLseek L (d.val : ℤ) offset whence { w with errno := none } = .ok (r, w') →
      OpenFile w' d i f' → Sought L (seekSum L f offset whence) f f' w'.errno r := by
  obtain ⟨w', hcall, hopen, herrno⟩ : ∃ w',
      sysLseek seekLib 3 (-1) .seekSet (seekBoot ⟨0, 10, false⟩) = .ok (-1, w') ∧
        OpenFile w' 3 0 ⟨10, 10, false⟩ ∧ w'.errno = none :=
    ⟨_, rfl, ⟨rfl, rfl, rfl, rfl⟩, rfl⟩
  intro h
  have hsought := h seekLib SeekFile.writable _ _ 3 0 _ _ (-1) .seekSet (-1) movesFile_seekLib
    (openFile_seekBoot ⟨0, 10, false⟩) hcall hopen
  have heinval := (hsought.negative (by decide)).2
  rw [herrno] at heinval
  cases heinval

end Fat

end Nucleo
