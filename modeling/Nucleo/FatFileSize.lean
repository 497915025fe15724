/-
# The size that `fstat` reports

`fill_fd` copies a `struct stat` into the descriptor when a file is opened, and `_fstat` copies
it out.  Nothing stores into it in between, so `fstat` reports the size that the copy was made
with for as long as the file is open (`stat_of_run`): that of an `f_stat` made before `f_open`,
or after it if there was no such file.  It is the size of the file as long as `f_open` does not
truncate the file and no `write` or `lseek` extends it (`fstat_right_of_run`).

What the library does to sizes is taken from its documentation (`Documented`).
-/
import Nucleo.DirHandles
import Nucleo.FatSeek

namespace Nucleo

namespace Fat

open Comp W5100

section Sizes

variable {χ κ δ ψ : Type} (B : Board χ) (L : FatLib κ δ ψ) (fuel : ℕ)
  (fSync : PoolObject κ δ → ψ → FResult × PoolObject κ δ × ψ) (writable : κ → Bool)
  (pathOf : κ → String)

/-! ## The library -/

/-- What a call does that may extend a file up to the position `last`. -/
structure Extends (f f' : κ) (last : ℕ) : Prop where
  le : (fileSize L f).toNat ≤ (fileSize L f').toNat
  le_max : (fileSize L f').toNat ≤ max (fileSize L f).toNat last
  readOnly : writable f = false → fileSize L f' = fileSize L f
  mode : writable f' = writable f
  path : pathOf f' = pathOf f

/-- What the library does to the size of a file.  `f_stat` reports it before the file is
opened and after; opening with FA_CREATE_ALWAYS makes it zero, and no other way of opening
changes it.  `f_write` and `f_lseek` keep it or extend the file up to where they get to, if it
is open for writing.  After `f_sync` it is what `f_stat` of the path reports. -/
structure Documented : Prop where
  stat_noFile : ∀ path fno lib, (L.fStat path fno lib).1 = .noFile →
    (L.fStat path fno lib).2.1 = fno
  open_found : ∀ path fno mode lib, (L.fStat path fno lib).1 = .ok →
    (L.fOpen path mode (L.fStat path fno lib).2.2).1 = .ok →
    (fileSize L (L.fOpen path mode (L.fStat path fno lib).2.2).2.1).toNat
      = if mode &&& faCreateAlways = 0 then (L.fStat path fno lib).2.1.fsize else 0
  open_stat : ∀ path fno mode lib, (L.fOpen path mode lib).1 = .ok →
    (L.fStat path fno (L.fOpen path mode lib).2.2).1 = .ok →
    (L.fStat path fno (L.fOpen path mode lib).2.2).2.1.fsize
      = (fileSize L (L.fOpen path mode lib).2.1).toNat
  open_path : ∀ path mode lib, (L.fOpen path mode lib).1 = .ok →
    pathOf (L.fOpen path mode lib).2.1 = path
  write : ∀ buf f lib, ∃ f', (L.fWrite buf (.fil f) lib).2.1 = .fil f' ∧
    Extends L writable pathOf f f' ((filePos L f).toNat + buf.length)
  lseek : ∀ pos f lib, ∃ f', (L.fLseek pos (.fil f) lib).2.1 = .fil f' ∧
    Extends L writable pathOf f f' pos.toNat ∧
    ((L.fLseek pos (.fil f) lib).1 = .ok → pos.toNat ≤ (fileSize L f).toNat → filePos L f' = pos)
  sync : ∀ f lib, (fSync (.fil f) lib).1 = .ok → ∀ fno,
    (L.fStat (pathOf f) fno (fSync (.fil f) lib).2.2).1 = .ok →
    (L.fStat (pathOf f) fno (fSync (.fil f) lib).2.2).2.1.fsize = (fileSize L f).toNat

variable {L fSync writable pathOf}

theorem Extends.refl (f : κ) (last : ℕ) : Extends L writable pathOf f f last :=
  ⟨le_rfl, le_max_left _ _, fun _ => rfl, rfl, rfl⟩

theorem Extends.trans {f f' f'' : κ} {last : ℕ} (h : Extends L writable pathOf f f' last)
    (h' : Extends L writable pathOf f' f'' last) : Extends L writable pathOf f f'' last := by
  have hle := h.le_max
  have hle' := h'.le_max
  refine ⟨h.le.trans h'.le, by omega, fun hro => ?_, h'.mode.trans h.mode, h'.path.trans h.path⟩
  rw [h'.readOnly (h.mode.trans hro), h.readOnly hro]

/-- A file that is only read, or that the call does not get beyond, keeps its size. -/
theorem Extends.size_eq {f f' : κ} {last : ℕ} (h : Extends L writable pathOf f f' last)
    (hin : writable f = false ∨ last ≤ (fileSize L f).toNat) : fileSize L f' = fileSize L f := by
  rcases hin with hro | hlast
  · exact h.readOnly hro
  · have hle := h.le
    have hmax := h.le_max
    apply BitVec.eq_of_toNat_eq
    omega

/-! ## The calls -/

variable (L)

/-- `fatfs_stat`: the value returned and what is stored in `buf`. -/
def fatfsStat (path : String) : FatSys χ κ δ ψ (ℤ × Option Stat) := do
  let (result, fno) ← callLib (fun lib =>
    let (r, fno, lib') := L.fStat path ⟨0, false, false, ""⟩ lib
    ((r, fno), lib'))
  if result = .ok then pure (0, some (fillStat fno)) else failWith result (-1, none)

/-- A call on an open file, or other code that runs in between. -/
inductive FileCall (χ κ δ ψ : Type)
  | write (buf : List Byte)
  | lseek (offset : BitVec 32) (whence : Whence)
  | other (code : FatSys χ κ δ ψ ℤ)

/-- The call on the descriptor `d`. -/
def FileCall.exec (d : Fin openMax) : FileCall χ κ δ ψ → FatSys χ κ δ ψ ℤ
  | .write buf => sysWrite B L fuel (d.val : ℤ) buf
  | .lseek offset whence => sysLseek L (d.val : ℤ) offset whence
  | .other code => code

/-- Where a `write` begins. -/
def writeStart (f : κ) (flags : BitVec 32) : ℕ :=
  if flags &&& oAppend ≠ 0 then (fileSize L f).toNat else (filePos L f).toNat

/-- The position that a call gets to. -/
def FileCall.reach (f : κ) (flags : BitVec 32) : FileCall χ κ δ ψ → ℕ
  | .write buf => writeStart L f flags + buf.length
  | .lseek offset whence => (seekBase L f whence + offset).toNat
  | .other _ => 0

/-- The descriptor `d` and its file are as they were, but for the flags of the descriptor. -/
structure Untouched (w w' : World χ (FatFs κ δ ψ)) (d : Fin openMax) : Prop where
  descriptor : ∃ flags dflags,
    w'.files d = { w.files d with statusFlags := flags, descriptorFlags := dflags }
  object : ∀ i, entryOf (w.files d).opaquePtr = some i → w'.fat.pool i = w.fat.pool i

/-- Other code leaves the descriptor `d` and its file alone. -/
def FileCall.Legal (d : Fin openMax) (w : World χ (FatFs κ δ ψ)) : FileCall χ κ δ ψ → Prop
  | .other code => Post code (fun _ w' => Untouched w w' d) w
  | _ => True

/-- The call does not get beyond the end of the file, unless that is only read. -/
def FileCall.Inside (writable : κ → Bool) (d : Fin openMax) (w : World χ (FatFs κ δ ψ))
    (c : FileCall χ κ δ ψ) : Prop :=
  c.Legal d w ∧ ∀ i f, OpenFile w d i f →
    writable f = false ∨ c.reach L f (w.files d).statusFlags ≤ (fileSize L f).toNat

/-- `f_open` truncates a file that is not empty. -/
def Truncates (path : String) (flags : BitVec 32) (lib : ψ) : Prop :=
  (L.fStat path ⟨0, false, false, ""⟩ lib).1 = .ok ∧
    (L.fStat path ⟨0, false, false, ""⟩ lib).2.1.fsize ≠ 0 ∧
    flags2mode flags &&& faCreateAlways ≠ 0

variable {L}

/-- A descriptor is open for one file. -/
theorem OpenFile.unique {w : World χ (FatFs κ δ ψ)} {d i j : Fin openMax} {f g : κ}
    (h : OpenFile w d i f) (h' : OpenFile w d j g) : i = j ∧ f = g := by
  have hij : i = j := Option.some.inj (h.pointer.symm.trans h'.pointer)
  subst hij
  have hobj := h.object
  rw [h'.object] at hobj
  cases hobj
  exact ⟨rfl, rfl⟩

/-- A call that stays inside leaves the room for the next one. -/
theorem OpenFile.inside {w : World χ (FatFs κ δ ψ)} {d i : Fin openMax} {f : κ}
    (h : OpenFile w d i f) {c : FileCall χ κ δ ψ} (hlegal : c.Legal d w)
    (hin : writable f = false ∨ c.reach L f (w.files d).statusFlags ≤ (fileSize L f).toNat) :
    c.Inside L writable d w := by
  refine ⟨hlegal, fun j g hopen => ?_⟩
  obtain ⟨-, rfl⟩ := h.unique hopen
  exact hin

/-! ## Opening -/

/-- The descriptor `d` is open for the regular file `f` of that path, and is written by
`fatfs_write`. -/
structure Carries (pathOf : κ → String) (w : World χ (FatFs κ δ ψ)) (d i : Fin openMax) (f : κ)
    (path : String) : Prop extends OpenFile w d i f where
  driver : (w.files d).write = some .fatfs
  path_eq : pathOf f = path

/-- `fill_fd_fil` has filled in the descriptor `d` for the file `f`. -/
structure FilledIn (w : World χ (FatFs κ δ ψ)) (d i : Fin openMax) (f : κ) (fno : FilInfo) :
    Prop where
  isopen : (w.files d).isopen = true
  stat : (w.files d).stat = fillStat fno
  pointer : (w.files d).opaquePtr = .fil i
  object : (w.fat.pool i).object = .fil f
  driver : fno.isDir = false → (w.files d).write = some .fatfs

variable {w w' : World χ (FatFs κ δ ψ)} {d i : Fin openMax} {f : κ} {fno : FilInfo}
  {path : String} {flags : BitVec 32}

/-- A descriptor that is filled in carries its path. -/
theorem FilledIn.carries (h : FilledIn w d i f fno) (hreg : (w.files d).stat.fileType = .reg)
    (hpath : pathOf f = path) : Carries pathOf w d i f path := by
  have hfile : fno.isDir = false := by
    rw [h.stat] at hreg
    cases hdir : fno.isDir with
    | false => rfl
    | true =>
        unfold fillStat at hreg
        rw [hdir] at hreg
        cases hreg
  refine ⟨⟨h.isopen, hreg, ?_, h.object⟩, h.driver hfile, hpath⟩
  rw [h.pointer]
  rfl

/-- The end of `fatfs_open_file`, where it has succeeded. -/
theorem post_fillOrFree_filledIn {result : FResult} (hobj : (w.fat.pool i).object = .fil f) :
    Post (if result = .ok then do fillFd d (.fil i) flags fno; pure result
      else do fatfsFildirFree i; pure result)
      (fun r w' => r = .ok → result = .ok ∧ FilledIn w' d i f fno) w := by
  rw [post_ite]
  constructor
  · intro hok
    unfold fillFd
    rw [post_bind, post_modifyFile, post_pure]
    refine fun _ => ⟨hok, ?_, ?_, ?_, hobj, fun hfile => ?_⟩
    · simp
    · simp
    · simp
    · simp [hfile]
  · intro hne
    rw [post_bind, post_fatfsFildirFree, post_pure]
    exact fun hok => absurd hok hne

/-- `fatfs_open_file`: the descriptor is filled in from an `f_stat` made after `f_open`, or from
`fno` if that names a file. -/
theorem post_fatfsOpenFile_filledIn :
    Post (fatfsOpenFile L path flags d fno)
      (fun r w' => r = .ok → (L.fOpen path (flags2mode flags) w.fat.lib).1 = .ok ∧
        ∃ i fno', FilledIn w' d i (L.fOpen path (flags2mode flags) w.fat.lib).2.1 fno' ∧
          ((L.fStat path fno (L.fOpen path (flags2mode flags) w.fat.lib).2.2).1 = .ok ∧
              fno' = (L.fStat path fno (L.fOpen path (flags2mode flags) w.fat.lib).2.2).2.1 ∨
            fno.fname ≠ "" ∧ fno' = fno)) w := by
  unfold fatfsOpenFile
  rw [post_bind]
  refine post_fatfsFildirAlloc (post_pure.2 fun hok => by cases hok) fun i _ => ?_
  dsimp only
  rw [post_bind, post_callLib]
  dsimp only
  rw [post_bind, post_modifyPool, post_ite]
  constructor
  · rintro ⟨hopen, -⟩
    rw [post_bind, post_callLib]
    refine (post_fillOrFree_filledIn (f := (L.fOpen path (flags2mode flags) w.fat.lib).2.1)
      (by simp)).mono ?_
    intro r w' hfilled hok
    obtain ⟨hstat, hfilled⟩ := hfilled hok
    exact ⟨hopen, i, _, hfilled, Or.inl ⟨hstat, rfl⟩⟩
  · intro hcond
    rw [post_bind, post_pure]
    refine (post_fillOrFree_filledIn (f := (L.fOpen path (flags2mode flags) w.fat.lib).2.1)
      (by simp)).mono ?_
    intro r w' hfilled hok
    obtain ⟨hopen, hfilled⟩ := hfilled hok
    exact ⟨hopen, i, _, hfilled, Or.inr ⟨fun hname => hcond ⟨hopen, hname⟩, rfl⟩⟩

/-- A directory is not filled in as a file. -/
theorem post_fatfsOpenDir_fileType (hdir : fno.isDir = true) :
    Post (fatfsOpenDir L path flags d fno)
      (fun r w' => r = .ok → (w'.files d).stat.fileType ≠ .reg) w := by
  refine (post_fatfsOpenDir hdir).mono ?_
  rintro r w' (⟨hunfilled, -⟩ | ⟨-, -, j, hfilled⟩) hok
  · exact absurd hok hunfilled.failed
  · rcases hfilled.kind with hfil | ⟨-, hkind, -⟩
    · cases hfil
    · rw [hkind]
      exact FileType.noConfusion

/-- What a successful `fatfs_open` of a regular file leaves: a descriptor for the file, with
its size unless it was truncated. -/
def SizedAtOpen (L : FatLib κ δ ψ) (pathOf : κ → String) (path : String) (flags : BitVec 32)
    (lib : ψ) (w : World χ (FatFs κ δ ψ)) (d : Fin openMax) : Prop :=
  (w.files d).stat.fileType = .reg → ∃ i f, Carries pathOf w d i f path ∧
    (¬ Truncates L path flags lib → (w.files d).stat.stSize = (fileSize L f).toNat)

/-- **What is stored at `open` is the size** that the library reports. -/
theorem post_fatfsOpenFileOrDir_sized (hL : Documented L fSync writable pathOf) :
    Post (fatfsOpenFileOrDir L path flags d)
      (fun r w' => r = .ok → SizedAtOpen L pathOf path flags w.fat.lib w' d) w := by
  unfold fatfsOpenFileOrDir
  rw [post_bind, post_callLib]
  dsimp only
  rw [post_ite]
  constructor
  · rintro ⟨hne, -⟩
    exact post_pure.2 fun hok => absurd hok hne
  · intro hfound
    rw [post_ite]
    constructor
    · rintro ⟨-, hdir⟩
      refine (post_fatfsOpenDir_fileType hdir).mono ?_
      intro r w' hreg hok hfile
      exact absurd hfile (hreg hok)
    · intro hfile
      refine post_fatfsOpenFile_filledIn.mono ?_
      intro r w' hfilled hok hreg
      obtain ⟨hopen, i, fno', hfilled, hsize⟩ := hfilled hok
      refine ⟨i, _, hfilled.carries hreg (hL.open_path _ _ _ hopen), fun htrunc => ?_⟩
      rw [hfilled.stat]
      show fno'.fsize = _
      rcases hsize with ⟨hstat, rfl⟩ | ⟨hname, rfl⟩
      · exact hL.open_stat _ _ _ _ hopen hstat
      · -- the file was there before, and its size is that of then
        have hstat : (L.fStat path ⟨0, false, false, ""⟩ w.fat.lib).1 = .ok := by
          by_contra hne
          have hnone : (L.fStat path ⟨0, false, false, ""⟩ w.fat.lib).1 = .noFile := by
            by_contra hno
            exact hfound ⟨hne, hno⟩
          rw [hL.stat_noFile _ _ _ hnone] at hname
          exact hname rfl
        have hopened := hL.open_found _ _ _ _ hstat hopen
        refine Eq.trans ?_ hopened.symm
        split_ifs with hmode
        · rfl
        · by_contra hsize
          exact htrunc ⟨hstat, hsize, hmode⟩

/-! ### The system call -/

/-- **`open`** of a regular file reports its size, unless it truncates it. -/
theorem post_sysOpen_sized (hL : Documented L fSync writable pathOf) :
    Post (sysOpen L path flags)
      (fun r w' => ∀ d : Fin openMax, r = (d.val : ℤ) →
        SizedAtOpen L pathOf path flags w.fat.lib w' d) w := by
  have hfail : ∀ (w' : World χ (FatFs κ δ ψ)) (d : Fin openMax), -1 = (d.val : ℤ) →
      SizedAtOpen L pathOf path flags w.fat.lib w' d := by
    intro w' d hd
    omega
  unfold sysOpen fatfsOpen
  rw [post_bind]
  refine post_fileAlloc (post_fail.2 (hfail _)) fun d _ _ => ?_
  dsimp only
  rw [post_bind]
  refine (post_fatfsOpenFileOrDir_sized hL).mono ?_
  intro result w₁ hsized
  rw [post_ite]
  constructor
  · intro hok
    refine post_pure.2 fun d' hd' => ?_
    have hdd : d = d' := Fin.ext (by omega)
    rw [← hdd]
    exact hsized hok
  · intro _
    unfold failWith
    rw [post_bind, post_fileFree, post_bind, post_modify, post_pure]
    exact hfail _

/-! ## One call -/

/-- The world in which the entry `i` holds the file `f`, after a call of the library. -/
def setFil (w : World χ (FatFs κ δ ψ)) (i : Fin openMax) (f : κ) (lib : ψ) :
    World χ (FatFs κ δ ψ) :=
  setPool (setLib w lib) i { w.fat.pool i with object := .fil f }

/-- It carries it as long as the file does. -/
theorem Carries.with_fil (h : Carries pathOf w d i f path) {f' : κ} (hpath : pathOf f' = pathOf f)
    (lib : ψ) : Carries pathOf (setFil w i f' lib) d i f' path := by
  refine ⟨⟨h.isopen, h.regular, h.pointer, ?_⟩, h.driver, hpath.trans h.path_eq⟩
  unfold setFil
  rw [setPool_pool, Function.update_self]

/-- A call of the library on a file. -/
theorem post_callOn_fil {α : Type} {call : PoolObject κ δ → ψ → α × PoolObject κ δ × ψ}
    {Q : α → World χ (FatFs κ δ ψ) → Prop} {f' : κ} (hobj : (w.fat.pool i).object = .fil f)
    (hcall : (call (.fil f) w.fat.lib).2.1 = .fil f')
    (hQ : Q (call (.fil f) w.fat.lib).1 (setFil w i f' (call (.fil f) w.fat.lib).2.2)) :
    Post (callOn i call) Q w := by
  have hcall' : call (w.fat.pool i).object w.fat.lib
      = ((call (.fil f) w.fat.lib).1, .fil f', (call (.fil f) w.fat.lib).2.2) := by
    rw [hobj, ← hcall]
  exact (post_callOn hcall').2 hQ

/-- What a call leaves of an open file that it may extend up to `last`. -/
def After (L : FatLib κ δ ψ) (writable : κ → Bool) (pathOf : κ → String)
    (w : World χ (FatFs κ δ ψ)) (d i : Fin openMax) (f : κ) (path : String) (last : ℕ)
    (w' : World χ (FatFs κ δ ψ)) : Prop :=
  ∃ f', Carries pathOf w' d i f' path ∧ (w'.files d).stat = (w.files d).stat ∧
    Extends L writable pathOf f f' last

/-- A call on the file may extend it. -/
theorem Carries.after (h : Carries pathOf w d i f path) {f' : κ} {last : ℕ}
    (hext : Extends L writable pathOf f f' last) (lib : ψ) :
    After L writable pathOf w d i f path last (setFil w i f' lib) :=
  ⟨f', h.with_fil hext.path lib, rfl, hext⟩

/-- A failure that is reported changes `errno` only. -/
theorem post_failWith_after {result : FResult} {ret : ℤ} {last : ℕ}
    (h : After L writable pathOf w d i f path last w') :
    Post (failWith result ret) (fun _ w'' => After L writable pathOf w d i f path last w'') w' := by
  obtain ⟨f', hcarries, hstat, hext⟩ := h
  unfold failWith
  rw [post_bind, post_modify, post_pure]
  exact ⟨f', ⟨⟨hcarries.isopen, hcarries.regular, hcarries.pointer, hcarries.object⟩,
    hcarries.driver, hcarries.path_eq⟩, hstat, hext⟩

variable (hL : Documented L fSync writable pathOf)

include hL

/-- `fatfs_lseek` extends the file up to the position that it passes on. -/
theorem post_fatfsLseek_after (h : Carries pathOf w d i f path) (offset : BitVec 32)
    (whence : Whence) :
    Post (fatfsLseek L (d.val : ℤ) offset whence)
      (fun _ w' => After L writable pathOf w d i f path
        (seekBase L f whence + offset).toNat w') w := by
  obtain ⟨f', hcall, hext, -⟩ := hL.lseek (seekBase L f whence + offset) f w.fat.lib
  rw [post_congr (fatfsLseek_eq h.toOpenFile offset whence), post_bind]
  refine post_callOn_fil h.object hcall ?_
  rw [post_ite]
  constructor
  · intro _
    exact post_pure.2 (h.after hext _)
  · intro _
    exact post_failWith_after (h.after hext _)

/-- `f_write` extends the file up to the end of what it is given. -/
theorem post_writeOn_after (h : Carries pathOf w d i f path) (buf : List Byte) :
    Post (do
        let (result, written) ← callOn i (L.fWrite buf)
        if result = .ok then pure (wrap32 written) else failWith result (-1))
      (fun _ w' => After L writable pathOf w d i f path
        ((filePos L f).toNat + buf.length) w') w := by
  obtain ⟨f', hcall, hext⟩ := hL.write buf f w.fat.lib
  rw [post_bind]
  refine post_callOn_fil h.object hcall ?_
  dsimp only
  rw [post_ite]
  constructor
  · intro _
    exact post_pure.2 (h.after hext _)
  · intro _
    exact post_failWith_after (h.after hext _)

/-- `fatfs_write` goes to the end of the file first if it is to append. -/
theorem post_fatfsWrite_after (h : Carries pathOf w d i f path) (buf : List Byte) :
    Post (fatfsWrite L (d.val : ℤ) buf)
      (fun _ w' => After L writable pathOf w d i f path
        (writeStart L f (w.files d).statusFlags + buf.length) w') w := by
  unfold fatfsWrite
  rw [post_congr (withObject_of_open h.toOpenFile _ _ _ _), post_bind, post_get, h.object]
  unfold writeStart
  by_cases happend : (w.files d).statusFlags &&& oAppend ≠ 0
  · rw [if_pos happend, if_pos happend, post_bind]
    obtain ⟨f₁, hcall, hext, hpos⟩ := hL.lseek (fileSize L f) f w.fat.lib
    have hsize : fileSize L f₁ = fileSize L f := hext.size_eq (Or.inr le_rfl)
    have hext : Extends L writable pathOf f f₁ ((fileSize L f).toNat + buf.length) :=
      ⟨hext.le, by rw [hsize]; exact le_max_left _ _, hext.readOnly, hext.mode, hext.path⟩
    refine post_callOn_fil h.object hcall ?_
    rw [post_ite]
    constructor
    · intro _
      exact post_failWith_after (h.after hext _)
    · intro hok
      have hend : filePos L f₁ = fileSize L f := hpos (not_not.1 hok) le_rfl
      refine (post_writeOn_after hL (h.with_fil hext.path _) buf).mono ?_
      rintro r w' ⟨f', hcarries, hstat, hext'⟩
      rw [hend] at hext'
      exact ⟨f', hcarries, hstat, hext.trans hext'⟩
  · rw [if_neg happend, if_neg happend, post_bind, post_pure]
    beta_reduce
    rw [if_neg (not_not.2 rfl)]
    exact post_writeOn_after hL h buf

/-- **One call** on an open file leaves it open, with the `struct stat` that it had, and
extended at most up to where the call gets to. -/
theorem post_fileCall_after (h : Carries pathOf w d i f path) {c : FileCall χ κ δ ψ}
    (hlegal : c.Legal d w) :
    Post (c.exec B L fuel d)
      (fun _ w' => After L writable pathOf w d i f path
        (c.reach L f (w.files d).statusFlags) w') w := by
  -- of the calls only `write` and `lseek` can make the file longer
  cases c with
  | write buf =>
      have heq : (FileCall.write buf).exec B L fuel d w = fatfsWrite L (d.val : ℤ) buf w := by
        show sysWrite B L fuel (d.val : ℤ) buf w = _
        unfold sysWrite
        rw [withOpen_of_open _ _ h.isopen, h.driver]
      exact (post_congr heq).2 (post_fatfsWrite_after hL h buf)
  | lseek offset whence =>
      have heq : (FileCall.lseek offset whence).exec B L fuel d w
          = fatfsLseek L (d.val : ℤ) offset whence w := by
        show sysLseek L (d.val : ℤ) offset whence w = _
        unfold sysLseek
        rw [withOpen_of_open _ _ h.isopen, h.regular]
      exact (post_congr heq).2 (post_fatfsLseek_after hL h offset whence)
  | other code =>
      refine hlegal.mono ?_
      rintro r w' ⟨⟨flags, dflags, hfd⟩, hobject⟩
      refine ⟨f, ⟨⟨?_, ?_, ?_, ?_⟩, ?_, h.path_eq⟩, ?_, .refl f _⟩
      · rw [hfd]
        exact h.isopen
      · rw [hfd]
        exact h.regular
      · rw [hfd]
        exact h.pointer
      · rw [hobject i h.pointer]
        exact h.object
      · rw [hfd]
        exact h.driver
      · rw [hfd]

/-! ## Runs -/

/-- **The `struct stat` of an open file is that of its opening**: no run of calls on it
changes it, and the file does not get smaller. -/
theorem stat_of_run (h : Carries pathOf w d i f path)
    (hrun : Run (FileCall.exec B L fuel d) (fun w c => FileCall.Legal d w c) w w') :
    ∃ f', Carries pathOf w' d i f' path ∧ (w'.files d).stat = (w.files d).stat ∧
      (fileSize L f).toNat ≤ (fileSize L f').toNat := by
  refine Run.invariant (I := fun v => ∃ f', Carries pathOf v d i f' path ∧
    (v.files d).stat = (w.files d).stat ∧ (fileSize L f).toNat ≤ (fileSize L f').toNat)
    hrun ⟨f, h, rfl, le_rfl⟩ ?_
  rintro v c ⟨f', hcarries, hstat, hle⟩ hlegal
  refine (post_fileCall_after B fuel hL hcarries hlegal).mono ?_
  rintro _ v' ⟨f'', hcarries', hstat', hext⟩
  exact ⟨f'', hcarries', hstat'.trans hstat, hle.trans hext.le⟩

/-- Calls that do not get beyond the end of the file keep its size. -/
theorem size_of_run (h : Carries pathOf w d i f path)
    (hrun : Run (FileCall.exec B L fuel d) (fun w c => FileCall.Inside L writable d w c) w w') :
    ∃ f', Carries pathOf w' d i f' path ∧ (w'.files d).stat = (w.files d).stat ∧
      fileSize L f' = fileSize L f := by
  refine Run.invariant (I := fun v => ∃ f', Carries pathOf v d i f' path ∧
    (v.files d).stat = (w.files d).stat ∧ fileSize L f' = fileSize L f) hrun ⟨f, h, rfl, rfl⟩ ?_
  rintro v c ⟨f', hcarries, hstat, hsize⟩ ⟨hlegal, hinside⟩
  refine (post_fileCall_after B fuel hL hcarries hlegal).mono ?_
  rintro _ v' ⟨f'', hcarries', hstat', hext⟩
  exact ⟨f'', hcarries', hstat'.trans hstat,
    (hext.size_eq (hinside i f' hcarries.toOpenFile)).trans hsize⟩

omit hL

/-! ## `fsync` and `stat` -/

/-- `fatfs_fsync` succeeds where `f_sync` does. -/
theorem post_fatfsFsync (h : OpenFile w d i f) :
    Post (fatfsFsync fSync (d.val : ℤ)) (fun r w' => r = 0 →
      (fSync (.fil f) w.fat.lib).1 = .ok ∧ w'.fat.lib = (fSync (.fil f) w.fat.lib).2.2) w := by
  have hptr : (w.files d).opaquePtr ≠ .null := by
    intro hnull
    have hentry := h.pointer
    rw [hnull] at hentry
    cases hentry
  unfold fatfsFsync
  rw [fileStructGet_coe, post_bind, post_pure]
  dsimp only
  rw [post_bind, post_get, if_neg hptr, if_pos h.regular, poolIndex_of_entryOf h.pointer, post_bind,
    post_pure]
  dsimp only
  rw [post_bind]
  refine (post_callOn (show fSync (w.fat.pool i).object w.fat.lib = (_, _, _) from rfl)).2 ?_
  rw [h.object, post_ite]
  constructor
  · intro hok
    exact post_pure.2 fun _ => ⟨hok, rfl⟩
  · intro _
    unfold failWith
    rw [post_bind, post_modify, post_pure]
    intro hzero
    cases hzero

/-- `fatfs_stat` stores what `f_stat` says. -/
theorem post_fatfsStat :
    Post (fatfsStat L path) (fun r _ => ∀ stat, r = (0, some stat) →
      (L.fStat path ⟨0, false, false, ""⟩ w.fat.lib).1 = .ok ∧
        stat.stSize = (L.fStat path ⟨0, false, false, ""⟩ w.fat.lib).2.1.fsize) w := by
  unfold fatfsStat
  rw [post_bind, post_callLib]
  dsimp only
  rw [post_ite]
  constructor
  · intro hok
    refine post_pure.2 fun stat hstat => ⟨hok, ?_⟩
    cases hstat
    rfl
  · intro _
    unfold failWith
    rw [post_bind, post_modify, post_pure]
    intro stat hstat
    cases hstat

/-- `stat` of the path reports the size of the file after `fsync`. -/
theorem stat_after_fsync (hL : Documented L fSync writable pathOf)
    (h : Carries pathOf w d i f path) {w'' : World χ (FatFs κ δ ψ)} {stat : Stat}
    (hsync : fatfsFsync fSync (d.val : ℤ) w = .ok (0, w'))
    (hstat : fatfsStat L path w' = .ok ((0, some stat), w'')) :
    stat.stSize = (fileSize L f).toNat := by
  obtain ⟨hok, hlib⟩ := post_fatfsFsync h.toOpenFile _ _ hsync rfl
  obtain ⟨hfound, hsize⟩ := post_fatfsStat _ _ hstat _ rfl
  rw [hlib, ← h.path_eq] at hfound hsize
  rw [hsize]
  exact hL.sync f w.fat.lib hok _ hfound

/-! ## What `fstat` reports -/

/-- `fstat` of the descriptor `d`, which is open for a regular file of that path, reports the
size of the file, and so does `stat` of the path after `fsync`; `st_size` is a 32-bit
`off_t`. -/
def FstatRight (L : FatLib κ δ ψ) (fSync : PoolObject κ δ → ψ → FResult × PoolObject κ δ × ψ)
    (path : String) (d : Fin openMax) (w : World χ (FatFs κ δ ψ)) : Prop :=
  ∃ i f stat, OpenFile w d i f ∧ sysFstat (d.val : ℤ) w = .ok ((0, some stat), w) ∧
    wrap32 stat.stSize = (fileSize L f).toNat ∧
    ∀ w' w'' stat', fatfsFsync fSync (d.val : ℤ) w = .ok (0, w') →
      fatfsStat L path w' = .ok ((0, some stat'), w'') → stat'.stSize = stat.stSize

/-- **A file that has another size than when it was opened is misreported**, whatever calls
have led to that. -/
theorem not_fstatRight_of_run (hL : Documented L fSync writable pathOf)
    (h : Carries pathOf w d i f path) (hsmall : (w.files d).stat.stSize < 2 ^ 31)
    (hrun : Run (FileCall.exec B L fuel d) (fun w c => FileCall.Legal d w c) w w') {f' : κ}
    (hopen : OpenFile w' d i f') (hne : (fileSize L f').toNat ≠ (w.files d).stat.stSize) :
    ¬ FstatRight L fSync path d w' := by
  rintro ⟨j, g, stat, hopen', hfstat, hsize, -⟩
  obtain ⟨f₁, hcarries, hstat, -⟩ := stat_of_run B fuel hL h hrun
  obtain ⟨-, rfl⟩ := hopen.unique hopen'
  rw [fstat_of_open hcarries.isopen] at hfstat
  cases hfstat
  rw [hstat, wrap32_of_fits (by omega) (by omega)] at hsize
  exact hne (by omega)

/-- **`fstat` is right as long as the file keeps the size that it had before it was opened.**
In every run from `open`, with any flags, of a regular file of less than `2 ^ 31` bytes that the
call does not truncate, where no `write` or `lseek` gets beyond the end of the file, unless it is
open for reading only, and other code leaves the descriptor and the file alone: in every state
reached `fstat` reports the size of the file, as `stat` of the path does after `fsync`. -/
theorem fstat_right_of_run (hL : Documented L fSync writable pathOf)
    {w₀ w₁ : World χ (FatFs κ δ ψ)} (hopen : sysOpen L path flags w₀ = .ok ((d.val : ℤ), w₁))
    (hreg : (w₁.files d).stat.fileType = .reg) (htrunc : ¬ Truncates L path flags w₀.fat.lib)
    (hsmall : ∀ i f, OpenFile w₁ d i f → (fileSize L f).toNat < 2 ^ 31)
    (hrun : Run (FileCall.exec B L fuel d) (fun w c => FileCall.Inside L writable d w c) w₁ w) :
    FstatRight L fSync path d w := by
  obtain ⟨i, f₁, hcarries₁, hsize₁⟩ := post_sysOpen_sized hL _ _ hopen d rfl hreg
  obtain ⟨f, hcarries, hstat, hsize⟩ := size_of_run B fuel hL hcarries₁ hrun
  have hst : (w.files d).stat.stSize = (fileSize L f).toNat := by
    rw [hstat, hsize₁ htrunc, hsize]
  have hlt : (fileSize L f).toNat < 2 ^ 31 := by
    rw [hsize]
    exact hsmall i f₁ hcarries₁.toOpenFile
  refine ⟨i, f, _, hcarries.toOpenFile, fstat_of_open hcarries.isopen, ?_,
    fun w' w'' stat' hsync hstat' => ?_⟩
  · rw [hst]
    exact wrap32_of_fits (by omega) (by omega)
  · rw [hst]
    exact stat_after_fsync hL hcarries hsync hstat'

end Sizes

/-! ## A library in memory -/

/-- A file: its name, its position, its size, and whether it is open for writing. -/
structure RamFile where
  name : String
  pos : BitVec 32
  size : BitVec 32
  writable : Bool

/-- The directory: the names of the files and their sizes. -/
abbrev RamDisk := String → Option (BitVec 32)

/-- `f_open`. -/
def ramOpen (path : String) (mode : Byte) (disk : RamDisk) : FResult × RamFile × RamDisk :=
  let opened : RamFile := ⟨path, 0, 0, mode &&& faWrite ≠ 0⟩
  match disk path with
  | some size =>
      if mode &&& faCreateNew ≠ 0 then (.exist, opened, disk)
      else if mode &&& faCreateAlways = 0 then (.ok, { opened with size }, disk)
      else (.ok, opened, Function.update disk path (some 0))
  | none =>
      if mode &&& (faCreateNew ||| faCreateAlways ||| faOpenAlways) = 0 then
        (.noFile, opened, disk)
      else (.ok, opened, Function.update disk path (some 0))

/-- `f_stat`. -/
def ramStat (path : String) (fno : FilInfo) (disk : RamDisk) : FResult × FilInfo × RamDisk :=
  match disk path with
  | some size => (.ok, ⟨size.toNat, false, false, path⟩, disk)
  | none => (.noFile, fno, disk)

/-- The file after it was written up to `last`. -/
def RamFile.extend (f : RamFile) (last : ℕ) : RamFile :=
  { f with
    pos := BitVec.ofNat 32 last
    size := if f.size.toNat < last then BitVec.ofNat 32 last else f.size }

/-- `f_write`, which ends at the last position that there is. -/
def ramWrite (buf : List Byte) (f : RamFile) : (FResult × ℕ) × RamFile :=
  if f.writable then
    let n := min buf.length (2 ^ 32 - 1 - f.pos.toNat)
    ((.ok, n), f.extend (f.pos.toNat + n))
  else ((.denied, 0), f)

/-- `f_lseek`. -/
def ramLseek (pos : BitVec 32) (f : RamFile) : RamFile :=
  if f.writable then f.extend pos.toNat
  else { f with pos := if pos.toNat ≤ f.size.toNat then pos else f.size }

/-- `f_sync`. -/
def ramSync (object : PoolObject RamFile Unit) (disk : RamDisk) :
    FResult × PoolObject RamFile Unit × RamDisk :=
  match object with
  | .fil f => (.ok, .fil f, Function.update disk f.name (some f.size))
  | object => (.invalidObject, object, disk)

/-- A library without directories. -/
def ramLib : FatLib RamFile Unit RamDisk where
  fOpen := ramOpen
  fOpendir := fun _ disk => (.noPath, (), disk)
  fStat := ramStat
  fClose := ramSync
  fClosedir := fun object disk => (.ok, object, disk)
  fRead := fun _ object disk => ((.ok, []), object, disk)
  fWrite := fun buf object disk =>
    match object with
    | .fil f => ((ramWrite buf f).1, .fil (ramWrite buf f).2, disk)
    | object => ((.invalidObject, 0), object, disk)
  fLseek := fun pos object disk =>
    match object with
    | .fil f => (.ok, .fil (ramLseek pos f), disk)
    | object => (.invalidObject, object, disk)
  fSize := fun object =>
    match object with
    | .fil f => f.size
    | _ => 0
  fTell := fun object =>
    match object with
    | .fil f => f.pos
    | _ => 0

/-! ### It extends its files -/

/-- The memory file grows up to where it is written. -/
theorem extends_extend {f : RamFile} (hwritable : f.writable = true) {last last' : ℕ}
    (hlast : last ≤ last') (hlt : last < 2 ^ 32) :
    Extends ramLib RamFile.writable RamFile.name f (f.extend last) last' := by
  have hsize : fileSize ramLib (f.extend last)
      = if f.size.toNat < last then BitVec.ofNat 32 last else f.size := rfl
  have hold : fileSize ramLib f = f.size := rfl
  refine ⟨?_, ?_, fun hro => ?_, rfl, rfl⟩
  · rw [hsize, hold]
    split_ifs with hbeyond
    · rw [BitVec.toNat_ofNat, Nat.mod_eq_of_lt hlt]
      omega
    · exact le_rfl
  · rw [hsize, hold]
    split_ifs with hbeyond
    · rw [BitVec.toNat_ofNat, Nat.mod_eq_of_lt hlt]
      exact le_max_of_le_right hlast
    · exact le_max_left _ _
  · rw [hwritable] at hro
    cases hro

/-- So it does by a write. -/
theorem extends_ramWrite (buf : List Byte) (f : RamFile) :
    Extends ramLib RamFile.writable RamFile.name f (ramWrite buf f).2
      (f.pos.toNat + buf.length) := by
  have hpos := f.pos.isLt
  unfold ramWrite
  split_ifs with hwritable
  · exact extends_extend hwritable (by omega) (by omega)
  · exact .refl f _

/-- So it does by a seek. -/
theorem extends_ramLseek (pos : BitVec 32) (f : RamFile) :
    Extends ramLib RamFile.writable RamFile.name f (ramLseek pos f) pos.toNat := by
  unfold ramLseek
  by_cases hwritable : f.writable = true
  · rw [if_pos hwritable]
    exact extends_extend hwritable le_rfl pos.isLt
  · rw [if_neg hwritable]
    exact ⟨le_rfl, le_max_left _ _, fun _ => rfl, rfl, rfl⟩

/-- A seek inside goes there. -/
theorem pos_ramLseek {pos : BitVec 32} {f : RamFile} (hle : pos.toNat ≤ f.size.toNat) :
    (ramLseek pos f).pos = pos := by
  unfold ramLseek
  by_cases hwritable : f.writable = true
  · rw [if_pos hwritable]
    exact BitVec.ofNat_toNat 32 pos
  · rw [if_neg hwritable, if_pos hle]

/-- The status of a file that exists. -/
theorem ramStat_of_some {path : String} {disk : RamDisk} {size : BitVec 32}
    (h : disk path = some size) (fno : FilInfo) :
    ramStat path fno disk = (.ok, ⟨size.toNat, false, false, path⟩, disk) := by
  unfold ramStat
  rw [h]

/-- A file that does not exist. -/
theorem ramStat_of_none {path : String} {disk : RamDisk} (h : disk path = none) (fno : FilInfo) :
    ramStat path fno disk = (.noFile, fno, disk) := by
  unfold ramStat
  rw [h]

/-! ### It is as documented -/

/-- A file that has been opened is in the directory with its size, which is the old one if
there was one and it was not truncated. -/
theorem ramOpen_spec {path : String} {mode : Byte} {disk : RamDisk}
    (h : (ramOpen path mode disk).1 = .ok) :
    (ramOpen path mode disk).2.1.name = path ∧
      (ramOpen path mode disk).2.2 path = some (ramOpen path mode disk).2.1.size ∧
      ∀ size, disk path = some size → (ramOpen path mode disk).2.1.size
        = if mode &&& faCreateAlways = 0 then size else 0 := by
  unfold ramOpen at h ⊢
  cases hdisk : disk path with
  | some size =>
      rw [hdisk] at h
      dsimp only at h ⊢
      split_ifs at h ⊢ with hnew halways
      · refine ⟨rfl, hdisk, fun size' hsize => ?_⟩
        cases hsize
        rfl
      · exact ⟨rfl, Function.update_self .., fun _ _ => rfl⟩
  | none =>
      rw [hdisk] at h
      dsimp only at h ⊢
      by_cases hmode : mode &&& (faCreateNew ||| faCreateAlways ||| faOpenAlways) = 0
      · rw [if_pos hmode] at h
        cases h
      · rw [if_neg hmode]
        refine ⟨rfl, Function.update_self .., fun size hsize => ?_⟩
        cases hsize

/-- The library in memory behaves as documented. -/
theorem documented_ramLib : Documented ramLib ramSync RamFile.writable RamFile.name where
  stat_noFile := by
    intro path fno disk h
    cases hdisk : disk path with
    | some size =>
        have hok : FResult.ok = .noFile := by
          rw [← h]
          exact (congrArg Prod.fst (ramStat_of_some hdisk fno)).symm
        cases hok
    | none => exact congrArg (fun r => r.2.1) (ramStat_of_none hdisk fno)
  open_found := by
    intro path fno mode disk hstat hopen
    cases hdisk : disk path with
    | some size =>
        have hfound := ramStat_of_some hdisk fno
        have hlib : (ramLib.fStat path fno disk).2.2 = disk := congrArg (fun r => r.2.2) hfound
        have hfsize : (ramLib.fStat path fno disk).2.1.fsize = size.toNat :=
          congrArg (fun r => r.2.1.fsize) hfound
        rw [hlib] at hopen ⊢
        rw [hfsize]
        have hsize := (ramOpen_spec hopen).2.2 size hdisk
        show (ramOpen path mode disk).2.1.size.toNat = _
        rw [hsize]
        split_ifs
        · rfl
        · rfl
    | none =>
        have hno : FResult.noFile = .ok := by
          rw [← hstat]
          exact (congrArg Prod.fst (ramStat_of_none hdisk fno)).symm
        cases hno
  open_stat := by
    intro path fno mode disk hopen hstat
    obtain ⟨-, hdisk, -⟩ := ramOpen_spec hopen
    exact congrArg (fun r => r.2.1.fsize) (ramStat_of_some hdisk fno)
  open_path := by
    intro path mode disk hopen
    exact (ramOpen_spec hopen).1
  write := by
    intro buf f disk
    exact ⟨_, rfl, extends_ramWrite buf f⟩
  lseek := by
    intro pos f disk
    exact ⟨_, rfl, extends_ramLseek pos f, fun _ => pos_ramLseek⟩
  sync := by
    intro f disk _ fno _
    have hdisk : Function.update disk f.name (some f.size) f.name = some f.size :=
      Function.update_self ..
    exact congrArg (fun r => r.2.1.fsize) (ramStat_of_some hdisk fno)

/-! ### A run with it -/

/-- A disk with a file of ten bytes, and no file open. -/
def ramBoot : World Unit (FatFs RamFile Unit RamDisk) where
  files := fun _ => Fd.zero
  sockets := fun _ => .zero
  errno := none
  chip := ()
  fat := ⟨fun _ => ⟨false, .zero⟩, fun path => if path = "A" then some 10 else none⟩

/-- A `write` or a `lseek` on the descriptor 3 that stays inside the file. -/
def ramInside (w : World Unit (FatFs RamFile Unit RamDisk)) : FileCall Unit RamFile Unit RamDisk →
    Bool
  | .other _ => false
  | c =>
      match entryOf (w.files 3).opaquePtr with
      | none => true
      | some i =>
          match (w.fat.pool i).object with
          | .fil f => decide (c.reach ramLib f (w.files 3).statusFlags ≤ (fileSize ramLib f).toNat)
          | _ => true

/-- The calls of the example stay inside. -/
theorem inside_of_ramInside (w : World Unit (FatFs RamFile Unit RamDisk))
    (c : FileCall Unit RamFile Unit RamDisk) (h : ramInside w c = true) :
    c.Inside ramLib RamFile.writable 3 w := by
  refine ⟨?_, fun i f hopen => Or.inr ?_⟩
  · cases c with
    | other code => cases h
    | write buf => trivial
    | lseek offset whence => trivial
  · cases c with
    | other code => exact Nat.zero_le _
    | write buf =>
        unfold ramInside at h
        rw [hopen.pointer] at h
        dsimp only at h
        rw [hopen.object] at h
        exact of_decide_eq_true h
    | lseek offset whence =>
        unfold ramInside at h
        rw [hopen.pointer] at h
        dsimp only at h
        rw [hopen.object] at h
        exact of_decide_eq_true h

/-- Four bytes written at the start of the file, and a `lseek` in it. -/
theorem fstat_right_of_run_inside :
    ∃ w₁ w, sysOpen ramLib "A" oRdwr ramBoot = .ok (3, w₁) ∧
      runList (FileCall.exec idleBoard ramLib 0 3) ramInside
        [.write [1, 2, 3, 4], .lseek 8 .seekSet] w₁ = some w ∧
      FstatRight ramLib ramSync "A" 3 w := by
  obtain ⟨w₁, hopen, hfile, hsome⟩ : ∃ w₁, sysOpen ramLib "A" oRdwr ramBoot = .ok (3, w₁) ∧
      OpenFile w₁ 3 0 ⟨"A", 0, 10, true⟩ ∧
      (runList (FileCall.exec idleBoard ramLib 0 3) ramInside
        [.write [1, 2, 3, 4], .lseek 8 .seekSet] w₁).isSome = true :=
    ⟨_, rfl, ⟨rfl, rfl, rfl, rfl⟩, by decide +kernel⟩
  obtain ⟨w, hrun⟩ := Option.isSome_iff_exists.1 hsome
  refine ⟨w₁, w, hopen, hrun, ?_⟩
  refine fstat_right_of_run idleBoard 0 documented_ramLib (d := 3) hopen hfile.regular ?_ ?_
    (Run.of_runList inside_of_ramInside .start hrun)
  · rintro ⟨-, -, hmode⟩
    exact hmode (by decide)
  · intro i f hopen'
    obtain ⟨-, rfl⟩ := hfile.unique hopen'
    decide

/-- What a call returns, and the size of the first file of the pool then. -/
def ramResult : Except Stop (ℤ × World Unit (FatFs RamFile Unit RamDisk)) → Option (ℤ × BitVec 32)
  | .error _ => none
  | .ok (r, w) =>
      match (w.fat.pool 0).object with
      | .fil f => some (r, f.size)
      | _ => none

theorem ramResult_eq_some {x : Except Stop (ℤ × World Unit (FatFs RamFile Unit RamDisk))} {r : ℤ}
    {size : BitVec 32} (h : ramResult x = some (r, size)) :
    ∃ w f, x = .ok (r, w) ∧ (w.fat.pool 0).object = .fil f ∧ f.size = size := by
  cases x with
  | error e => cases h
  | ok a =>
      obtain ⟨r', w⟩ := a
      unfold ramResult at h
      dsimp only at h
      cases hobj : (w.fat.pool 0).object with
      | zero =>
          rw [hobj] at h
          cases h
      | dir s =>
          rw [hobj] at h
          cases h
      | fil f =>
          rw [hobj] at h
          cases h
          exact ⟨w, f, rfl, hobj, rfl⟩

/-! ### The size that is not updated -/

/-- **Two files whose size `fstat` does not report**, with a library that behaves as
documented: the one of ten bytes when it is truncated, and a new one when a byte has been
written. -/
theorem fstat_stale :
    Documented ramLib ramSync RamFile.writable RamFile.name ∧
    (∃ w, sysOpen ramLib "A" (oWronly ||| oCreat ||| oTrunc) ramBoot = .ok (3, w) ∧
      (w.files 3).stat.fileType = .reg ∧ (w.files 3).stat.stSize = 10 ∧
      ¬ FstatRight ramLib ramSync "A" 3 w) ∧
    ∃ w₁ w, sysOpen ramLib "B" (oRdwr ||| oCreat) ramBoot = .ok (3, w₁) ∧
      FileCall.exec idleBoard ramLib 0 3 (.write [1]) w₁ = .ok (1, w) ∧
      ¬ FstatRight ramLib ramSync "B" 3 w := by
  refine ⟨documented_ramLib, ?_, ?_⟩
  · obtain ⟨w, hopen, hfile, hsize⟩ : ∃ w,
        sysOpen ramLib "A" (oWronly ||| oCreat ||| oTrunc) ramBoot = .ok (3, w) ∧
        Carries RamFile.name w 3 0 ⟨"A", 0, 0, true⟩ "A" ∧ (w.files 3).stat.stSize = 10 :=
      ⟨_, rfl, ⟨⟨rfl, rfl, rfl, rfl⟩, rfl, rfl⟩, rfl⟩
    refine ⟨w, hopen, hfile.regular, hsize, ?_⟩
    -- ten bytes were reported and none are left
    refine not_fstatRight_of_run idleBoard 0 documented_ramLib hfile ?_ .start hfile.toOpenFile ?_
    · rw [hsize]
      decide
    · rw [hsize]
      decide
  · obtain ⟨w₁, hopen, hfile, hsize⟩ : ∃ w₁,
        sysOpen ramLib "B" (oRdwr ||| oCreat) ramBoot = .ok (3, w₁) ∧
        Carries RamFile.name w₁ 3 0 ⟨"B", 0, 0, true⟩ "B" ∧ (w₁.files 3).stat.stSize = 0 :=
      ⟨_, rfl, ⟨⟨rfl, rfl, rfl, rfl⟩, rfl, rfl⟩, rfl⟩
    have hresult : ramResult (FileCall.exec idleBoard ramLib 0 3 (.write [1]) w₁)
        = some (1, 1) := by
      cases hopen
      decide +kernel
    obtain ⟨w, f, hwrite, hobj, hone⟩ := ramResult_eq_some hresult
    obtain ⟨f', hfile', -⟩ := post_fileCall_after idleBoard 0 documented_ramLib hfile
      (c := .write [1]) trivial _ _ hwrite
    have hsame : f' = f := by
      have hobj' := hfile'.object
      rw [hobj] at hobj'
      cases hobj'
      rfl
    refine ⟨w₁, w, hopen, hwrite, ?_⟩
    refine not_fstatRight_of_run idleBoard 0 documented_ramLib hfile ?_
      (.step .start (show FileCall.Legal 3 w₁ (.write [1]) from trivial) hwrite)
      hfile'.toOpenFile ?_
    · rw [hsize]
      decide
    · rw [hsize, hsame]
      show f.size.toNat ≠ 0
      rw [hone]
      decide

end Fat

end Nucleo
