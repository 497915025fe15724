/-
# What opening and closing do to the table and the pool

`Kept` relates two worlds in which the same descriptors and pool entries are allocated,
with the same contents.  `fatfs_open` takes one free descriptor and one free entry (`Opened`)
exactly when both are there and the library opens the path (`Opens`); otherwise it fails, and
all that is left of the attempt is the number in the free descriptor that was tried
(`Failed`).  `fatfs_close` gives both back, or keeps them, or lets the library change the
object (`Closing`).
-/
import Nucleo.FatDir

namespace Nucleo

namespace Fat

open Comp

section Effects

variable {χ κ δ ψ : Type} (L : FatLib κ δ ψ) {w w' w'' : World χ (FatFs κ δ ψ)}

/-! ## What is allocated -/

/-- The pool with the same entries allocated, and these unchanged. -/
def PoolKept (p p' : Fin openMax → PoolEntry κ δ) : Prop :=
  ∀ i, (p' i).allocated = (p i).allocated ∧ ((p i).allocated = true → p' i = p i)

/-- The same descriptors and entries are allocated, and these are unchanged. -/
structure Kept (w w' : World χ (FatFs κ δ ψ)) : Prop where
  files : ∀ d, (w'.files d).isallocated = (w.files d).isallocated ∧
    ((w.files d).isallocated = true → w'.files d = w.files d)
  pool : PoolKept w.fat.pool w'.fat.pool

/-- The entries that are free are empty, as they are at start-up. -/
def FreeEmpty (p : Fin openMax → PoolEntry κ δ) : Prop :=
  ∀ i, (p i).allocated = false → p i = ⟨false, .zero⟩

theorem PoolKept.refl (p : Fin openMax → PoolEntry κ δ) : PoolKept p p :=
  fun _ => ⟨rfl, fun _ => rfl⟩

/-- A change of an entry that was free and is free again. -/
theorem poolKept_update {p p' : Fin openMax → PoolEntry κ δ} {i : Fin openMax}
    (hfree : (p i).allocated = false) (hne : ∀ j, j ≠ i → p' j = p j)
    (hfree' : (p' i).allocated = false) : PoolKept p p' := by
  intro j
  by_cases hj : j = i
  · subst hj
    refine ⟨hfree'.trans hfree.symm, fun h => ?_⟩
    rw [hfree] at h
    cases h
  · rw [hne j hj]
    exact ⟨rfl, fun _ => rfl⟩

/-- An entry that was free and is emptied. -/
theorem FreeEmpty.update_eq {p p' : Fin openMax → PoolEntry κ δ} {i : Fin openMax}
    (h : FreeEmpty p) (hfree : (p i).allocated = false) (hne : ∀ j, j ≠ i → p' j = p j)
    (hempty : p' i = ⟨false, .zero⟩) : p' = p := by
  funext j
  by_cases hj : j = i
  · rw [hj, hempty, h i hfree]
  · exact hne j hj

theorem Kept.refl (w : World χ (FatFs κ δ ψ)) : Kept w w := ⟨fun _ => ⟨rfl, fun _ => rfl⟩, .refl _⟩

/-- A change of a descriptor that was free and is free again. -/
theorem kept_of_free {d : Fin openMax} (hfree : (w.files d).isallocated = false)
    (hne : ∀ d', d' ≠ d → w'.files d' = w.files d') (hfree' : (w'.files d).isallocated = false)
    (hpool : PoolKept w.fat.pool w'.fat.pool) : Kept w w' := by
  refine ⟨fun d' => ?_, hpool⟩
  by_cases hd : d' = d
  · subst hd
    refine ⟨hfree'.trans hfree.symm, fun h => ?_⟩
    rw [hfree] at h
    cases h
  · rw [hne d' hd]
    exact ⟨rfl, fun _ => rfl⟩

/-- The entry of the pool that a pointer points to. -/
def entryOf : Opaque → Option (Fin openMax)
  | .fil i | .dir i => some i
  | .null | .slot _ => none

/-- A pointer to an entry is resolved. -/
theorem poolIndex_of_entryOf {p : Opaque} {i : Fin openMax} (h : entryOf p = some i) :
    (poolIndex p : FatSys χ κ δ ψ (Option (Fin openMax))) = pure (some i) := by
  cases p with
  | null => cases h
  | slot k => cases h
  | fil j => rw [← h]; rfl
  | dir j => rw [← h]; rfl

/-! ## The calls of the library and the pool -/

/-- The world with another entry `i` of the pool. -/
def setPool (w : World χ (FatFs κ δ ψ)) (i : Fin openMax) (e : PoolEntry κ δ) :
    World χ (FatFs κ δ ψ) :=
  { w with fat := { w.fat with pool := Function.update w.fat.pool i e } }

/-- The world with another state of the library. -/
def setLib (w : World χ (FatFs κ δ ψ)) (lib : ψ) : World χ (FatFs κ δ ψ) :=
  { w with fat := { w.fat with lib := lib } }

section World

variable (i : Fin openMax) (e : PoolEntry κ δ) (lib : ψ)

@[simp] theorem setPool_files : (setPool w i e).files = w.files := rfl
@[simp] theorem setPool_pool :
    (setPool w i e).fat.pool = Function.update w.fat.pool i e := rfl
@[simp] theorem setPool_lib : (setPool w i e).fat.lib = w.fat.lib := rfl
@[simp] theorem setLib_files : (setLib w lib).files = w.files := rfl
@[simp] theorem setLib_pool : (setLib w lib).fat.pool = w.fat.pool := rfl
@[simp] theorem setLib_lib : (setLib w lib).fat.lib = lib := rfl

end World

/-- What holds after an object is changed. -/
@[simp] theorem post_modifyPool {i : Fin openMax} {f : PoolEntry κ δ → PoolEntry κ δ}
    {Q : Unit → World χ (FatFs κ δ ψ) → Prop} :
    Post (modifyPool i f) Q w ↔ Q () (setPool w i (f (w.fat.pool i))) := post_modify

/-- What holds after a call of the library. -/
theorem post_callLib {α : Type} {call : ψ → α × ψ} {Q : α → World χ (FatFs κ δ ψ) → Prop} :
    Post (callLib call) Q w ↔ Q (call w.fat.lib).1 (setLib w (call w.fat.lib).2) := by
  unfold callLib
  rw [post_bind, post_get, post_bind, post_modify, post_pure]
  rfl

/-- A call on an object is that of the library. -/
theorem callOn_of_eq {α : Type} {i : Fin openMax}
    {call : PoolObject κ δ → ψ → α × PoolObject κ δ × ψ} {a : α} {object : PoolObject κ δ} {lib : ψ}
    (hcall : call (w.fat.pool i).object w.fat.lib = (a, object, lib)) :
    callOn i call w
      = .ok (a, setPool (setLib w lib) i { w.fat.pool i with object := object }) := by
  unfold callOn
  rw [get_bind, hcall]
  rfl

/-- What holds after it. -/
theorem post_callOn {α : Type} {i : Fin openMax}
    {call : PoolObject κ δ → ψ → α × PoolObject κ δ × ψ} {a : α} {object : PoolObject κ δ} {lib : ψ}
    {Q : α → World χ (FatFs κ δ ψ) → Prop}
    (hcall : call (w.fat.pool i).object w.fat.lib = (a, object, lib)) :
    Post (callOn i call) Q w ↔
      Q a (setPool (setLib w lib) i { w.fat.pool i with object := object }) :=
  ⟨fun h => h _ _ (callOn_of_eq hcall), post_of_ok (callOn_of_eq hcall)⟩

/-- The entry that is found is free. -/
theorem firstFreePool_eq_some {p : Fin openMax → PoolEntry κ δ} {i : Fin openMax}
    (h : firstFreePool p = some i) : (p i).allocated = false := by
  have hfind := List.find?_some h
  simpa using hfind

/-- `fatfs_fildir_alloc` takes the first free entry, if there is one. -/
theorem post_fatfsFildirAlloc_cases {Q : Option (Fin openMax) → World χ (FatFs κ δ ψ) → Prop}
    (hnone : firstFreePool w.fat.pool = none → Q none w)
    (hsome : ∀ i, firstFreePool w.fat.pool = some i →
      Q (some i) (setPool w i { w.fat.pool i with allocated := true })) :
    Post fatfsFildirAlloc Q w := by
  unfold fatfsFildirAlloc
  rw [post_bind, post_get]
  cases hfree : firstFreePool w.fat.pool with
  | none => exact post_pure.2 (hnone hfree)
  | some i =>
    dsimp only
    rw [post_bind, post_modifyPool, post_pure]
    exact hsome i hfree

/-- What allocating an object leaves. -/
theorem post_fatfsFildirAlloc {Q : Option (Fin openMax) → World χ (FatFs κ δ ψ) → Prop}
    (hnone : Q none w)
    (hsome : ∀ i, (w.fat.pool i).allocated = false →
      Q (some i) (setPool w i { w.fat.pool i with allocated := true })) :
    Post fatfsFildirAlloc Q w :=
  post_fatfsFildirAlloc_cases (fun _ => hnone) fun i hfree => hsome i (firstFreePool_eq_some hfree)

/-- What giving an object back leaves. -/
@[simp] theorem post_fatfsFildirFree {i : Fin openMax}
    {Q : Unit → World χ (FatFs κ δ ψ) → Prop} :
    Post (fatfsFildirFree i) Q w ↔
      Q () (setPool w i (if (w.fat.pool i).allocated then ⟨false, .zero⟩ else w.fat.pool i)) :=
  post_modifyPool

/-! ## Opening -/

/-- The library lets `fatfs_open` take the path for a file: it is not reported as a
directory, `f_open` succeeds, and so does the `f_stat` after it where there is one. -/
def OpensFile (path : String) (flags : BitVec 32) (lib : ψ) : Prop :=
  let (result, fno, lib) := L.fStat path ⟨0, false, false, ""⟩ lib
  (result = .ok ∧ fno.isDir = false ∨ result = .noFile) ∧
    let (result, _, lib) := L.fOpen path (flags2mode flags) lib
    result = .ok ∧ (fno.fname = "" → (L.fStat path fno lib).1 = .ok)

/-- The library reports a directory, and `f_opendir` succeeds. -/
def OpensDir (path : String) (lib : ψ) : Prop :=
  let (result, fno, lib) := L.fStat path ⟨0, false, false, ""⟩ lib
  result = .ok ∧ fno.isDir = true ∧ (L.fOpendir path lib).1 = .ok

/-- There is a free descriptor, a free entry of the pool, and the library opens the path. -/
def Opens (path : String) (flags : BitVec 32) (w : World χ (FatFs κ δ ψ)) : Prop :=
  (firstFree w.files).isSome = true ∧ (firstFreePool w.fat.pool).isSome = true ∧
    (OpensFile L path flags w.fat.lib ∨ OpensDir L path w.fat.lib)

/-- The stream was opened by an `f_opendir` that succeeded, and no `f_closedir` since has. -/
inductive OpenStream : δ → Prop
  | opened (path : String) (lib : ψ) (hr : (L.fOpendir path lib).1 = .ok) :
      OpenStream (L.fOpendir path lib).2.1
  | refused {s : Dirstream δ} {ffdir : δ} (lib : ψ) (hs : OpenStream s.ffdir)
      (hr : (L.fClosedir (.dir s) lib).1 ≠ .ok)
      (hobject : (L.fClosedir (.dir s) lib).2.1 = .dir { s with ffdir }) : OpenStream ffdir

/-- The entry `i` is taken, and the descriptor `d` filled in for it: its pointer is `p`, of a
file, or of a directory whose open stream names `d`. -/
structure Filled (w w' : World χ (FatFs κ δ ψ)) (d i : Fin openMax) (p : Opaque) : Prop where
  wasFree : (w.fat.pool i).allocated = false
  files_ne : ∀ d', d' ≠ d → w'.files d' = w.files d'
  pool_ne : ∀ j, j ≠ i → w'.fat.pool j = w.fat.pool j
  allocated : (w'.files d).isallocated = (w.files d).isallocated
  close : (w'.files d).close = some .fatfs
  pointer : (w'.files d).opaquePtr = p
  taken : (w'.fat.pool i).allocated = true
  kind : p = .fil i ∨ p = .dir i ∧ (w'.files d).stat.fileType = .dir ∧
    ∃ ffdir, OpenStream L ffdir ∧ (w'.fat.pool i).object = .dir ⟨(d.val : ℤ), 0, ffdir⟩

/-- A failure that left the table alone and took nothing of the pool. -/
structure Unfilled (w w' : World χ (FatFs κ δ ψ)) (result : FResult) : Prop where
  failed : result ≠ .ok
  files : w'.files = w.files
  pool : PoolKept w.fat.pool w'.fat.pool
  pool_eq : FreeEmpty w.fat.pool → w'.fat.pool = w.fat.pool

variable {L} {path : String} {flags : BitVec 32} {d i : Fin openMax} {fno : FilInfo}

/-- The library may have been called before. -/
theorem Filled.of_setLib {lib : ψ} {p : Opaque} (h : Filled L (setLib w lib) w' d i p) :
    Filled L w w' d i p :=
  ⟨h.wasFree, h.files_ne, h.pool_ne, h.allocated, h.close, h.pointer, h.taken, h.kind⟩

/-- So it may before a failure. -/
theorem Unfilled.of_setLib {lib : ψ} {result : FResult} (h : Unfilled (setLib w lib) w' result) :
    Unfilled w w' result :=
  ⟨h.failed, h.files, h.pool, h.pool_eq⟩

/-! ### A file or a directory -/

/-- The pool had no free entry. -/
theorem unfilled_full {result : FResult} (hfailed : result ≠ .ok) : Unfilled w w result :=
  ⟨hfailed, rfl, .refl _, fun _ => rfl⟩

/-- The entry that was tried was free and is emptied. -/
theorem unfilled_of_free {result : FResult} (hfailed : result ≠ .ok)
    (hfiles : w'.files = w.files) (hfree : (w.fat.pool i).allocated = false)
    (hne : ∀ j, j ≠ i → w'.fat.pool j = w.fat.pool j)
    (hempty : w'.fat.pool i = ⟨false, .zero⟩) : Unfilled w w' result :=
  ⟨hfailed, hfiles, poolKept_update hfree hne (by rw [hempty]),
    fun h => h.update_eq hfree hne hempty⟩

/-- `fatfs_open_dir` of a path that is a directory. -/
theorem post_fatfsOpenDir (hdir : fno.isDir = true) :
    Post (fatfsOpenDir L path flags d fno)
      (fun result w' =>
        Unfilled w w' result ∧ ¬ ((firstFreePool w.fat.pool).isSome = true ∧
            (L.fOpendir path w.fat.lib).1 = .ok) ∨
          result = .ok ∧ ((firstFreePool w.fat.pool).isSome = true ∧
            (L.fOpendir path w.fat.lib).1 = .ok) ∧ ∃ i, Filled L w w' d i (.dir i)) w := by
  unfold fatfsOpenDir
  rw [post_bind]
  refine post_fatfsFildirAlloc_cases (fun hnone => post_pure.2 (Or.inl ⟨unfilled_full (by decide),
    fun h => ?_⟩)) fun i hsome => ?_
  · rw [hnone] at h
    exact Bool.false_ne_true h.1
  have hfree := firstFreePool_eq_some hsome
  dsimp only
  rw [post_bind, post_callLib]
  dsimp only
  rw [post_ite]
  constructor
  · intro hok
    unfold fillFd
    rw [post_bind, post_modifyPool, post_bind, post_modifyFile, post_pure]
    refine Or.inr ⟨hok, ⟨by rw [hsome]; rfl, hok⟩, i, hfree, fun d' hd => ?_, fun j hj => ?_,
      ?_, ?_, ?_, ?_, Or.inr ⟨rfl, ?_, (L.fOpendir path w.fat.lib).2.1, .opened path _ hok, ?_⟩⟩
    · simp [hd]
    · simp [hj]
    · simp
    · simp
    · simp
    · simp
    · simp [fillStat, hdir]
    · simp
  · intro hne
    rw [post_bind, post_fatfsFildirFree, post_pure]
    refine Or.inl ⟨unfilled_of_free hne rfl hfree (fun j hj => ?_) ?_, fun h => hne h.2⟩
    · simp [hj]
    · simp

variable (L) in
/-- The two ends of `fatfs_open_file`, from a world in which the entry `i` is taken. -/
theorem post_fillOrFree {w₁ : World χ (FatFs κ δ ψ)} {result : FResult}
    (hfree : (w.fat.pool i).allocated = false) (hfiles : w₁.files = w.files)
    (hne : ∀ j, j ≠ i → w₁.fat.pool j = w.fat.pool j) (htaken : (w₁.fat.pool i).allocated = true) :
    Post (if result = .ok then do fillFd d (.fil i) flags fno; pure result
      else do fatfsFildirFree i; pure result)
      (fun r w' => r = result ∧
        (Unfilled w w' result ∨ result = .ok ∧ Filled L w w' d i (.fil i))) w₁ := by
  rw [post_ite]
  constructor
  · intro hok
    unfold fillFd
    rw [post_bind, post_modifyFile, post_pure]
    refine ⟨rfl, Or.inr ⟨hok, hfree, fun d' hd => ?_, fun j hj => ?_, ?_, ?_, ?_, ?_, Or.inl rfl⟩⟩
    · simp [hd, hfiles]
    · simp [hne j hj]
    · simp [hfiles]
    · simp
    · simp
    · simp [htaken]
  · intro hfail
    rw [post_bind, post_fatfsFildirFree, post_pure]
    refine ⟨rfl, Or.inl (unfilled_of_free hfail hfiles hfree (fun j hj => ?_) ?_)⟩
    · simp [hj, hne j hj]
    · simp [htaken]

/-- The library opens the path as a file, for which there is an entry of the pool. -/
def OpensAsFile (L : FatLib κ δ ψ) (path : String) (flags : BitVec 32) (fno : FilInfo)
    (w : World χ (FatFs κ δ ψ)) : Prop :=
  (firstFreePool w.fat.pool).isSome = true ∧
    (L.fOpen path (flags2mode flags) w.fat.lib).1 = .ok ∧
    (fno.fname = "" →
      (L.fStat path fno (L.fOpen path (flags2mode flags) w.fat.lib).2.2).1 = .ok)

/-- `fatfs_open_file`; it succeeds exactly where `f_open` does, and the `f_stat` after it if the
path was not found before. -/
theorem post_fatfsOpenFile :
    Post (fatfsOpenFile L path flags d fno)
      (fun result w' => Unfilled w w' result ∧ ¬ OpensAsFile L path flags fno w ∨
        result = .ok ∧ OpensAsFile L path flags fno w ∧ ∃ i, Filled L w w' d i (.fil i)) w := by
  unfold fatfsOpenFile
  rw [post_bind]
  refine post_fatfsFildirAlloc_cases (fun hnone => post_pure.2 (Or.inl ⟨unfilled_full (by decide),
    fun h => ?_⟩)) fun i hsome => ?_
  · have hentry := h.1
    rw [hnone] at hentry
    exact Bool.false_ne_true hentry
  have hfree := firstFreePool_eq_some hsome
  have hentry : (firstFreePool w.fat.pool).isSome = true := by
    rw [hsome]
    rfl
  dsimp only
  rw [post_bind, post_callLib]
  dsimp only
  rw [post_bind, post_modifyPool, post_ite]
  constructor
  · rintro ⟨hopen, hname⟩
    rw [post_bind, post_callLib]
    refine (post_fillOrFree L hfree (by simp) (fun j hj => by simp [hj]) (by simp)).mono ?_
    rintro r w' ⟨rfl, hunfilled | ⟨hok, hfilled⟩⟩
    · exact Or.inl ⟨hunfilled, fun h => hunfilled.failed (h.2.2 hname)⟩
    · exact Or.inr ⟨hok, ⟨hentry, hopen, fun _ => hok⟩, i, hfilled⟩
  · intro hcond
    rw [post_bind, post_pure]
    refine (post_fillOrFree L hfree (by simp) (fun j hj => by simp [hj]) (by simp)).mono ?_
    rintro r w' ⟨rfl, hunfilled | ⟨hok, hfilled⟩⟩
    · exact Or.inl ⟨hunfilled, fun h => hunfilled.failed h.2.1⟩
    · exact Or.inr ⟨hok, ⟨hentry, hok, fun hname => absurd ⟨hok, hname⟩ hcond⟩, i, hfilled⟩

/-- **`fatfs_open_file_or_dir`** succeeds exactly when the library opens the path and there is
an entry of the pool, and takes the path for a directory unless `OpensFile`. -/
theorem post_fatfsOpenFileOrDir :
    Post (fatfsOpenFileOrDir L path flags d)
      (fun result w' =>
        Unfilled w w' result ∧ ¬ ((firstFreePool w.fat.pool).isSome = true ∧
            (OpensFile L path flags w.fat.lib ∨ OpensDir L path w.fat.lib)) ∨
          result = .ok ∧ ((firstFreePool w.fat.pool).isSome = true ∧
            (OpensFile L path flags w.fat.lib ∨ OpensDir L path w.fat.lib)) ∧
            ∃ i p, Filled L w w' d i p ∧ (¬ OpensFile L path flags w.fat.lib → p = .dir i)) w := by
  unfold fatfsOpenFileOrDir
  rw [post_bind, post_callLib]
  dsimp only
  rw [post_ite]
  constructor
  · rintro ⟨hok, hnoFile⟩
    refine post_pure.2 (Or.inl ⟨(unfilled_full hok).of_setLib, ?_⟩)
    rintro ⟨-, ⟨⟨h, -⟩ | h, -⟩ | ⟨h, -⟩⟩
    · exact hok h
    · exact hnoFile h
    · exact hok h
  · intro hfound
    rw [post_ite]
    constructor
    · rintro ⟨hok, hdir⟩
      have hnot : ¬ OpensFile L path flags w.fat.lib := by
        rintro ⟨⟨-, h⟩ | h, -⟩
        · exact Bool.false_ne_true (h.symm.trans hdir)
        · have hne : FResult.ok = .noFile := hok.symm.trans h
          cases hne
      refine (post_fatfsOpenDir hdir).mono ?_
      rintro r w' (⟨hunfilled, hno⟩ | ⟨hr, ⟨hentry, hopen⟩, i, hfilled⟩)
      · refine Or.inl ⟨hunfilled.of_setLib, ?_⟩
        rintro ⟨hentry, hfile | ⟨-, -, hopen⟩⟩
        · exact hnot hfile
        · exact hno ⟨hentry, hopen⟩
      · exact Or.inr ⟨hr, ⟨hentry, Or.inr ⟨hok, hdir, hopen⟩⟩, i, _, hfilled.of_setLib,
          fun _ => rfl⟩
    · intro hfile
      -- the path was not found, or it was and is no directory
      have hkind : (L.fStat path ⟨0, false, false, ""⟩ w.fat.lib).1 = .ok ∧
          (L.fStat path ⟨0, false, false, ""⟩ w.fat.lib).2.1.isDir = false ∨
          (L.fStat path ⟨0, false, false, ""⟩ w.fat.lib).1 = .noFile := by
        by_cases hok : (L.fStat path ⟨0, false, false, ""⟩ w.fat.lib).1 = .ok
        · exact Or.inl ⟨hok, Bool.eq_false_iff.mpr fun hdir => hfile ⟨hok, hdir⟩⟩
        · exact Or.inr (not_not.mp fun hno => hfound ⟨hok, hno⟩)
      refine post_fatfsOpenFile.mono ?_
      rintro r w' (⟨hunfilled, hno⟩ | ⟨hr, ⟨hentry, hopen⟩, i, hfilled⟩)
      · refine Or.inl ⟨hunfilled.of_setLib, ?_⟩
        rintro ⟨hentry, ⟨-, hopen⟩ | ⟨hok, hdir, -⟩⟩
        · exact hno ⟨hentry, hopen⟩
        · exact hfile ⟨hok, hdir⟩
      · exact Or.inr ⟨hr, ⟨hentry, Or.inl ⟨hkind, hopen⟩⟩, i, _, hfilled.of_setLib,
          fun hnot => absurd ⟨hkind, hopen⟩ hnot⟩

/-! ### The whole call -/

/-- The descriptor `d` and the entry `i` were free and are taken for each other. -/
structure Opened (L : FatLib κ δ ψ) (w w' : World χ (FatFs κ δ ψ)) (d i : Fin openMax)
    (p : Opaque) : Prop where
  wasFree : (w.files d).isallocated = false
  filled : Filled L (w.setFile d { Fd.zero with isallocated := true, fd := (d.val : ℤ) }) w' d i p

/-- A descriptor that is opened is allocated. -/
theorem Opened.allocated {p : Opaque} (h : Opened L w w' d i p) :
    (w'.files d).isallocated = true := by
  rw [h.filled.allocated]
  simp

/-- No other descriptor changes. -/
theorem Opened.files_ne {p : Opaque} (h : Opened L w w' d i p) {d' : Fin openMax} (hd : d' ≠ d) :
    w'.files d' = w.files d' := by
  rw [h.filled.files_ne d' hd]
  simp [hd]

/-- The first free descriptor, if there is one, is as `file_alloc` and `file_free` leave it. -/
def FreeCleared (files : Fin openMax → Fd) : Prop :=
  ∀ d, firstFree files = some d → files d = { Fd.zero with fd := (d.val : ℤ) }

/-- A call of `fatfs_open` has failed: what is allocated is as it was, so are the entries of the
pool that are free and were empty, and the whole table is if the free descriptor that was tried
was cleared before. -/
structure Failed (w w' : World χ (FatFs κ δ ψ)) : Prop where
  kept : Kept w w'
  files : w'.files = w.files ↔ FreeCleared w.files
  pool : FreeEmpty w.fat.pool → w'.fat.pool = w.fat.pool

/-- No descriptor was free. -/
theorem failed_of_none {e : Errno} (hnone : firstFree w.files = none) :
    Failed w (w.setErrno e) := by
  refine ⟨⟨fun _ => ⟨rfl, fun _ => rfl⟩, .refl _⟩, iff_of_true rfl fun d hd => ?_, fun _ => rfl⟩
  rw [hnone] at hd
  cases hd

/-- The table after a failure that had found the descriptor `d`. -/
theorem files_restored_iff {files : Fin openMax → Fd} (hfree : firstFree files = some d) :
    Function.update (Function.update files d
        { Fd.zero with isallocated := true, fd := (d.val : ℤ) }) d
        { Fd.zero with isallocated := false, fd := (d.val : ℤ) } = files ↔ FreeCleared files := by
  rw [Function.update_idem]
  constructor
  · intro h d' hd'
    rw [hfree] at hd'
    cases hd'
    have hd := congrFun h d
    rw [Function.update_self] at hd
    exact hd.symm
  · intro h
    have hd : { Fd.zero with isallocated := false, fd := (d.val : ℤ) } = files d :=
      (h d hfree).symm
    rw [hd, Function.update_eq_self]

/-- The descriptor `d` was tried and given back. -/
theorem failed_of_unfilled {w₁ : World χ (FatFs κ δ ψ)} {result : FResult} {errno : Option Errno}
    (hfree : firstFree w.files = some d)
    (h : Unfilled (w.setFile d { Fd.zero with isallocated := true, fd := (d.val : ℤ) }) w₁ result) :
    Failed w { w₁.setFile d { w₁.files d with isallocated := false } with errno } := by
  have hfiles : w₁.files = Function.update w.files d
      { Fd.zero with isallocated := true, fd := (d.val : ℤ) } := h.files
  have hself : w₁.files d = { Fd.zero with isallocated := true, fd := (d.val : ℤ) } := by
    rw [hfiles, Function.update_self]
  refine ⟨kept_of_free (firstFree_eq_some hfree).2 (fun d' hd => ?_) ?_ h.pool, ?_, h.pool_eq⟩
  · simp [hd, hfiles]
  · simp
  · rw [← files_restored_iff hfree]
    show Function.update w₁.files d { w₁.files d with isallocated := false } = _ ↔ _
    rw [hself, hfiles]

/-- **`fatfs_open`** takes a descriptor and an entry, or fails. -/
theorem post_fatfsOpen :
    Post (fatfsOpen L path flags)
      (fun r w' => r = -1 ∧ Failed w w' ∧ ¬ Opens L path flags w ∨
        Opens L path flags w ∧ ∃ d i p, r = (d.val : ℤ) ∧ Opened L w w' d i p ∧
          (¬ OpensFile L path flags w.fat.lib → p = .dir i)) w := by
  unfold fatfsOpen
  rw [post_bind]
  refine post_fileAlloc_cases (fun hnone => post_fail.2 (Or.inl ⟨rfl, failed_of_none hnone,
    fun h => ?_⟩)) fun d hfree => ?_
  · have hsome := h.1
    rw [hnone] at hsome
    exact Bool.false_ne_true hsome
  dsimp only
  rw [post_bind]
  refine post_fatfsOpenFileOrDir.mono ?_
  rintro result w₁ (⟨hunfilled, hno⟩ | ⟨hok, hopens, i, p, hfilled, hdir⟩)
  · rw [post_ite]
    refine ⟨fun hok => absurd hok hunfilled.failed, fun _ => ?_⟩
    unfold failWith
    rw [post_bind, post_fileFree, post_bind, post_modify, post_pure]
    exact Or.inl ⟨rfl, failed_of_unfilled hfree hunfilled, fun h => hno h.2⟩
  · rw [post_ite]
    refine ⟨fun _ => post_pure.2 (Or.inr ⟨⟨?_, hopens⟩, d, i, p, rfl,
      ⟨(firstFree_eq_some hfree).2, hfilled⟩, hdir⟩), fun hne => absurd hok hne⟩
    rw [hfree]
    rfl

variable (L)

/-! ## Closing -/

/-- `f_closedir` is given the `FFDIR` of a stream, and changes nothing else of it. -/
def LeavesStreams : Prop :=
  ∀ (s : Dirstream δ) (lib : ψ), ∃ ffdir, (L.fClosedir (.dir s) lib).2.1 = .dir { s with ffdir }

/-- What `fatfs_close(d)` does when it returns `r`. -/
inductive Closing (w w' : World χ (FatFs κ δ ψ)) (d : Fin openMax) (r : ℤ) : Prop
  | refused (hr : r = -1) (hfiles : w'.files = w.files) (hpool : w'.fat.pool = w.fat.pool)
  | failed (hr : r = -1) (i : Fin openMax) (object : PoolObject κ δ)
      (hentry : entryOf (w.files d).opaquePtr = some i) (hfiles : w'.files = w.files)
      (hpool : w'.fat.pool = Function.update w.fat.pool i { w.fat.pool i with object := object })
      (hstream : (w.files d).stat.fileType = .dir → ∀ s, (w.fat.pool i).object = .dir s →
        ∃ ffdir, object = .dir { s with ffdir } ∧ (OpenStream L s.ffdir → OpenStream L ffdir))
  | closed (hr : r = 0) (i : Fin openMax)
      (hentry : entryOf (w.files d).opaquePtr = some i)
      (hfiles : w'.files = Function.update w.files d { w.files d with isallocated := false })
      (hpool_ne : ∀ j, j ≠ i → w'.fat.pool j = w.fat.pool j)
      (hfreed : (w'.fat.pool i).allocated = false)
      (hempty : (w.fat.pool i).allocated = true → w'.fat.pool i = ⟨false, .zero⟩)

/-- A branch of `fatfs_close`. -/
theorem post_closeObject {call : PoolObject κ δ → ψ → FResult × PoolObject κ δ × ψ}
    (hentry : entryOf (w.files d).opaquePtr = some i)
    (hstream : (w.files d).stat.fileType = .dir → ∀ s lib,
      ∃ ffdir, (call (.dir s) lib).2.1 = .dir { s with ffdir } ∧
        ((call (.dir s) lib).1 ≠ .ok → OpenStream L s.ffdir → OpenStream L ffdir)) :
    Post (closeObject call (d.val : ℤ) i) (fun r w' => Closing L w w' d r) w := by
  unfold closeObject
  rw [post_bind]
  rcases hcall : call (w.fat.pool i).object w.fat.lib with ⟨result, object, lib⟩
  rw [post_callOn hcall, post_ite]
  constructor
  · intro hok
    rw [post_bind, post_fatfsFildirFree, post_bind, post_fileFree, post_pure]
    refine .closed rfl i hentry rfl (fun j hj => ?_) ?_ fun halloc => ?_
    · simp [hj]
    · simp only [World.setFile_fat, setPool_pool, Function.update_self]
      by_cases halloc : (w.fat.pool i).allocated = true
      · rw [if_pos halloc]
      · rw [if_neg halloc]
        exact Bool.eq_false_iff.mpr halloc
    · simp [halloc]
  · intro hne
    unfold failWith
    rw [post_bind, post_modify, post_pure]
    refine .failed rfl i object hentry rfl rfl fun hdir s hs => ?_
    obtain ⟨ffdir, hobject, hopen⟩ := hstream hdir s w.fat.lib
    rw [hs] at hcall
    rw [hcall] at hobject hopen
    exact ⟨ffdir, hobject, hopen hne⟩

/-- **`fatfs_close`** of a descriptor in range. -/
theorem post_fatfsClose (hL : LeavesStreams L) :
    Post (fatfsClose L (d.val : ℤ)) (fun r w' => Closing L w w' d r) w := by
  have hstream : ∀ (s : Dirstream δ) (lib : ψ), ∃ ffdir,
      (L.fClosedir (.dir s) lib).2.1 = .dir { s with ffdir } ∧
        ((L.fClosedir (.dir s) lib).1 ≠ .ok → OpenStream L s.ffdir → OpenStream L ffdir) := by
    intro s lib
    obtain ⟨ffdir, hobject⟩ := hL s lib
    exact ⟨ffdir, hobject, fun hr hs => .refused lib hs hr hobject⟩
  have hrefused : ∀ e : Errno, Closing L w (w.setErrno e) d (-1) := fun e => .refused rfl rfl rfl
  unfold fatfsClose withObject
  rw [fileStructGet_coe, pure_bind]
  dsimp only
  rw [post_bind, post_get]
  cases hentry : entryOf (w.files d).opaquePtr with
  | none =>
    rw [post_bind]
    cases hptr : (w.files d).opaquePtr with
    | null => exact post_pure.2 (post_fail.2 (hrefused _))
    | slot k => exact post_throw.2 trivial
    | fil i => rw [hptr] at hentry; cases hentry
    | dir i => rw [hptr] at hentry; cases hentry
  | some i =>
    rw [poolIndex_of_entryOf hentry, pure_bind]
    dsimp only
    cases htype : (w.files d).stat.fileType with
    | reg => exact post_closeObject L hentry fun hdir => by rw [htype] at hdir; cases hdir
    | dir => exact post_closeObject L hentry fun _ => hstream
    | unset => exact post_fail.2 (hrefused _)
    | chr => exact post_fail.2 (hrefused _)
    | sock => exact post_fail.2 (hrefused _)

end Effects

end Fat

end Nucleo
