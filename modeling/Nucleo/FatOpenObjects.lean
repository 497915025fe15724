/-
# What a call of `fatfs_open` leaves open

`fatfs_open` takes a descriptor, an entry of the pool and an object of the library, one
after the other, and gives back what it has when it fails.  The objects that are open are
counted by a library that keeps a meter beside its state.  One failure comes too late: after
`f_open` has made a file that was not there before, a second `f_stat` may fail, and the
object is forgotten without `f_close`.
-/
import Nucleo.FatFsEffects
import Nucleo.W5100Socket

namespace Nucleo

namespace Fat

open Comp

section Metered

variable {χ κ δ ψ : Type} (L : FatLib κ δ ψ)

/-! ## The meter -/

/-- The library with a meter of the objects that are open. -/
def metered : FatLib κ δ (ψ × ℤ) where
  fOpen path mode s :=
    let (r, f, lib) := L.fOpen path mode s.1
    (r, f, (lib, if r = .ok then s.2 + 1 else s.2))
  fOpendir path s :=
    let (r, dir, lib) := L.fOpendir path s.1
    (r, dir, (lib, if r = .ok then s.2 + 1 else s.2))
  fStat path fno s :=
    let (r, fno, lib) := L.fStat path fno s.1
    (r, fno, (lib, s.2))
  fClose object s :=
    let (r, object, lib) := L.fClose object s.1
    (r, object, (lib, if r = .ok then s.2 - 1 else s.2))
  fClosedir object s :=
    let (r, object, lib) := L.fClosedir object s.1
    (r, object, (lib, if r = .ok then s.2 - 1 else s.2))
  fRead len object s :=
    let (a, object, lib) := L.fRead len object s.1
    (a, object, (lib, s.2))
  fWrite buf object s :=
    let (a, object, lib) := L.fWrite buf object s.1
    (a, object, (lib, s.2))
  fLseek pos object s :=
    let (r, object, lib) := L.fLseek pos object s.1
    (r, object, (lib, s.2))
  fSize := L.fSize
  fTell := L.fTell

/-- The objects that are open. -/
def openObjects (w : World χ (FatFs κ δ (ψ × ℤ))) : ℤ := w.fat.lib.2

variable {L} {w w' : World χ (FatFs κ δ (ψ × ℤ))} {path : String} {flags : BitVec 32}
  {d : Fin openMax} {fno : FilInfo}

/-- `f_open` makes a file, and the `f_stat` after it fails. -/
structure LateFailure (L : FatLib κ δ ψ) (path : String) (flags : BitVec 32) (fno : FilInfo)
    (lib : ψ) : Prop where
  opened : (L.fOpen path (flags2mode flags) lib).1 = .ok
  unnamed : fno.fname = ""
  failed : (L.fStat path fno (L.fOpen path (flags2mode flags) lib).2.2).1 ≠ .ok

instance (lib : ψ) : Decidable (LateFailure L path flags fno lib) :=
  decidable_of_iff ((L.fOpen path (flags2mode flags) lib).1 = .ok ∧ fno.fname = "" ∧
      (L.fStat path fno (L.fOpen path (flags2mode flags) lib).2.2).1 ≠ .ok)
    ⟨fun h => ⟨h.1, h.2.1, h.2.2⟩, fun h => ⟨h.opened, h.unnamed, h.failed⟩⟩

/-- There is an entry of the pool for the file, and its opening fails late. -/
def Forgotten (L : FatLib κ δ ψ) (path : String) (flags : BitVec 32) (fno : FilInfo)
    (w : World χ (FatFs κ δ (ψ × ℤ))) : Prop :=
  (firstFreePool w.fat.pool).isSome = true ∧ LateFailure L path flags fno w.fat.lib.1

instance : Decidable (Forgotten L path flags fno w) :=
  inferInstanceAs (Decidable ((firstFreePool w.fat.pool).isSome = true ∧
    LateFailure L path flags fno w.fat.lib.1))

/-! ## The objects of a call -/

/-- What a successful call adds to the meter. -/
theorem meter_eq (n : ℤ) (c : Prop) [Decidable c] :
    (if c then n + 1 else n) = n + if c then 1 else 0 := by
  split_ifs
  · rfl
  · exact (add_zero n).symm

/-- `fatfs_open_dir` leaves an object open when it succeeds. -/
theorem openObjects_fatfsOpenDir :
    Post (fatfsOpenDir (metered L) path flags d fno)
      (fun result w' => openObjects w' = openObjects w + if result = .ok then 1 else 0) w := by
  have hmeter : ((metered L).fOpendir path w.fat.lib).2.2.2
      = w.fat.lib.2 + if ((metered L).fOpendir path w.fat.lib).1 = .ok then 1 else 0 :=
    meter_eq w.fat.lib.2 _
  unfold fatfsOpenDir
  rw [post_bind]
  refine post_fatfsFildirAlloc_cases (fun _ => post_pure.2 ?_) fun i _ => ?_
  · rw [if_neg (by decide), add_zero]
  dsimp only
  rw [post_bind, post_callLib]
  dsimp only
  rw [post_ite]
  constructor
  · intro _
    unfold fillFd
    rw [post_bind, post_modifyPool, post_bind, post_modifyFile, post_pure]
    exact hmeter
  · intro _
    rw [post_bind, post_fatfsFildirFree, post_pure]
    exact hmeter

/-- The two ends of `fatfs_open_file` make no call. -/
theorem openObjects_fillOrFree {i : Fin openMax} {result : FResult} :
    Post (if result = .ok then do fillFd d (.fil i) flags fno; pure result
      else do fatfsFildirFree i; pure result)
      (fun r w' => r = result ∧ openObjects w' = openObjects w) w := by
  rw [post_ite]
  constructor
  · intro _
    unfold fillFd
    rw [post_bind, post_modifyFile, post_pure]
    exact ⟨rfl, rfl⟩
  · intro _
    rw [post_bind, post_fatfsFildirFree, post_pure]
    exact ⟨rfl, rfl⟩

/-- `fatfs_open_file` leaves an object open when it succeeds, and when it fails late. -/
theorem openObjects_fatfsOpenFile :
    Post (fatfsOpenFile (metered L) path flags d fno)
      (fun result w' =>
        (openObjects w' = openObjects w
          + if result = .ok ∨ Forgotten L path flags fno w then 1 else 0) ∧
        (result = .ok → ¬ Forgotten L path flags fno w)) w := by
  have hmeter : ((metered L).fOpen path (flags2mode flags) w.fat.lib).2.2.2
      = w.fat.lib.2 + if ((metered L).fOpen path (flags2mode flags) w.fat.lib).1 = .ok then 1
        else 0 :=
    meter_eq w.fat.lib.2 _
  unfold fatfsOpenFile
  rw [post_bind]
  refine post_fatfsFildirAlloc_cases (fun hnone => post_pure.2 ?_) fun i hsome => ?_
  · have hno : ¬ Forgotten L path flags fno w := fun h => by
      rw [Forgotten, hnone] at h
      exact Bool.false_ne_true h.1
    rw [if_neg (not_or.2 ⟨by decide, hno⟩), add_zero]
    exact ⟨rfl, fun _ => hno⟩
  have hentry : (firstFreePool w.fat.pool).isSome = true := by
    rw [hsome]
    rfl
  dsimp only
  rw [post_bind, post_callLib]
  dsimp only
  rw [post_bind, post_modifyPool, post_ite]
  constructor
  · -- `f_open` made the file, and the second `f_stat` decides
    rintro ⟨hopen, hname⟩
    rw [post_bind, post_callLib]
    refine openObjects_fillOrFree.mono ?_
    rintro r w' ⟨hr, hobjects⟩
    have hstat : r = (L.fStat path fno (L.fOpen path (flags2mode flags) w.fat.lib.1).2.2).1 := hr
    have hcount : openObjects w'
        = ((metered L).fOpen path (flags2mode flags) w.fat.lib).2.2.2 := hobjects
    have hopened : ((metered L).fOpen path (flags2mode flags) w.fat.lib).1 = .ok := hopen
    rw [if_pos hopened] at hmeter
    rw [hcount, hmeter]
    by_cases hok : r = .ok
    · rw [if_pos (Or.inl hok)]
      exact ⟨rfl, fun _ h => h.2.failed (hstat.symm.trans hok)⟩
    · rw [if_pos (Or.inr ⟨hentry, hopen, hname, fun h => hok (hstat.trans h)⟩)]
      exact ⟨rfl, fun h => absurd h hok⟩
  · -- the result is that of `f_open`
    intro hcond
    rw [post_bind, post_pure]
    refine openObjects_fillOrFree.mono ?_
    rintro r w' ⟨hr, hobjects⟩
    have hopen : r = (L.fOpen path (flags2mode flags) w.fat.lib.1).1 := hr
    have hcount : openObjects w'
        = ((metered L).fOpen path (flags2mode flags) w.fat.lib).2.2.2 := hobjects
    have hno : ¬ Forgotten L path flags fno w := fun h =>
      hcond ⟨h.2.opened, h.2.unnamed⟩
    have hiff : ((metered L).fOpen path (flags2mode flags) w.fat.lib).1 = .ok ↔
        (r = .ok ∨ Forgotten L path flags fno w) := by
      rw [or_iff_left hno, hopen]
      rfl
    rw [hcount, hmeter, if_congr hiff rfl rfl]
    exact ⟨rfl, fun _ => hno⟩

/-- The path is a file at the first `f_stat` or is not there, and its opening fails late. -/
def ForgottenFile (L : FatLib κ δ ψ) (path : String) (flags : BitVec 32)
    (w : World χ (FatFs κ δ (ψ × ℤ))) : Prop :=
  let (result, fno, lib) := L.fStat path ⟨0, false, false, ""⟩ w.fat.lib.1
  (result = .ok ∧ fno.isDir = false ∨ result = .noFile) ∧
    (firstFreePool w.fat.pool).isSome = true ∧ LateFailure L path flags fno lib

theorem openObjects_fatfsOpenFileOrDir (hdec : Decidable (ForgottenFile L path flags w)) :
    Post (fatfsOpenFileOrDir (metered L) path flags d)
      (fun result w' =>
        (openObjects w' = openObjects w
          + if result = .ok ∨ ForgottenFile L path flags w then 1 else 0) ∧
        (result = .ok → ¬ ForgottenFile L path flags w)) w := by
  unfold fatfsOpenFileOrDir
  rw [post_bind, post_callLib]
  dsimp only
  rw [post_ite]
  constructor
  · rintro ⟨hok, hfile⟩
    have hno : ¬ ForgottenFile L path flags w := by
      rintro ⟨⟨h, -⟩ | h, -⟩
      · exact hok h
      · exact hfile h
    rw [post_pure, if_neg (not_or.2 ⟨hok, hno⟩), add_zero]
    exact ⟨rfl, fun _ => hno⟩
  · intro hfound
    rw [post_ite]
    constructor
    · rintro ⟨hok, hdir⟩
      have hno : ¬ ForgottenFile L path flags w := by
        rintro ⟨⟨-, h⟩ | h, -⟩
        · exact Bool.false_ne_true (h.symm.trans hdir)
        · have hne : FResult.ok = .noFile := hok.symm.trans h
          cases hne
      refine openObjects_fatfsOpenDir.mono ?_
      rintro r w' hobjects
      rw [hobjects]
      simp only [or_iff_left hno]
      exact ⟨rfl, fun _ => hno⟩
    · intro hfile
      -- the path was found and is a file, or it was not found
      have hcond : (L.fStat path ⟨0, false, false, ""⟩ w.fat.lib.1).1 = .ok ∧
          (L.fStat path ⟨0, false, false, ""⟩ w.fat.lib.1).2.1.isDir = false ∨
          (L.fStat path ⟨0, false, false, ""⟩ w.fat.lib.1).1 = .noFile := by
        by_cases hok : (L.fStat path ⟨0, false, false, ""⟩ w.fat.lib.1).1 = .ok
        · exact Or.inl ⟨hok, Bool.eq_false_iff.mpr fun hdir => hfile ⟨hok, hdir⟩⟩
        · exact Or.inr (not_not.mp fun hno => hfound ⟨hok, hno⟩)
      refine openObjects_fatfsOpenFile.mono ?_
      rintro r w' ⟨hobjects, hlate⟩
      have hiff : ForgottenFile L path flags w ↔ Forgotten L path flags
          (L.fStat path ⟨0, false, false, ""⟩ w.fat.lib.1).2.1
          (setLib w ((L.fStat path ⟨0, false, false, ""⟩ w.fat.lib.1).2.2, w.fat.lib.2)) :=
        and_iff_right hcond
      refine ⟨?_, fun hok h => hlate hok (hiff.1 h)⟩
      rw [if_congr (or_congr_right hiff) rfl rfl]
      exact hobjects

/-! ## `fatfs_open` -/

/-- A call finds a descriptor and then forgets an object. -/
def Leaks (L : FatLib κ δ ψ) (path : String) (flags : BitVec 32)
    (w : World χ (FatFs κ δ (ψ × ℤ))) : Prop :=
  (firstFree w.files).isSome = true ∧ ForgottenFile L path flags w

/-- What `fatfs_open` owes: a failure leaves the table exactly as it was and no object open, and
the same entries of the pool allocated, with the same contents; a success takes one descriptor
and one entry of the pool, which it points to. -/
structure Accounted (L : FatLib κ δ ψ) (w w' : World χ (FatFs κ δ (ψ × ℤ))) (r : ℤ) : Prop where
  failed : r = -1 → w'.files = w.files ∧ PoolKept w.fat.pool w'.fat.pool ∧
    openObjects w' = openObjects w
  succeeded : r ≠ -1 → ∃ d i p, r = (d.val : ℤ) ∧ Opened (metered L) w w' d i p ∧
    (w'.files d).opaquePtr = p ∧ entryOf p = some i ∧ openObjects w' = openObjects w + 1

/-- The entry that a taken descriptor points to. -/
theorem Filled.entryOf {ψ' : Type} {L' : FatLib κ δ ψ'} {v v' : World χ (FatFs κ δ ψ')}
    {i : Fin openMax} {p : Opaque} (h : Filled L' v v' d i p) : Fat.entryOf p = some i := by
  rcases h.kind with rfl | ⟨rfl, -⟩
  · rfl
  · rfl

/-- The meter of a call, and whether it succeeds. -/
theorem post_fatfsOpen_objects :
    Post (fatfsOpen (metered L) path flags)
      (fun r w' => (r = -1 → (openObjects w' = openObjects w ↔ ¬ Leaks L path flags w)) ∧
        (r ≠ -1 → openObjects w' = openObjects w + 1 ∧ ¬ Leaks L path flags w)) w := by
  classical
  unfold fatfsOpen
  rw [post_bind]
  refine post_fileAlloc_cases (fun hnone => post_fail.2 ⟨fun _ => iff_of_true rfl fun h => ?_,
    fun hne => absurd rfl hne⟩) fun d hfree => ?_
  · rw [Leaks, hnone] at h
    exact Bool.false_ne_true h.1
  -- with a free descriptor, leaking is forgetting the file
  have hleaks : Leaks L path flags w ↔ ForgottenFile L path flags w := by
    rw [Leaks, hfree]
    exact and_iff_right rfl
  dsimp only
  rw [post_bind]
  refine (openObjects_fatfsOpenFileOrDir inferInstance).mono ?_
  rintro result w₁ ⟨hobjects, hforgotten⟩
  have hcount : openObjects w₁ = openObjects w
      + if result = .ok ∨ ForgottenFile L path flags w then 1 else 0 := hobjects
  rw [post_ite]
  constructor
  · intro hok
    rw [if_pos (Or.inl hok)] at hcount
    exact post_pure.2 ⟨fun h => by omega, fun _ => ⟨hcount, hleaks.not.2 (hforgotten hok)⟩⟩
  · intro hfailed
    unfold failWith
    rw [post_bind, post_fileFree, post_bind, post_modify, post_pure]
    refine ⟨fun _ => ?_, fun hne => absurd rfl hne⟩
    show openObjects w₁ = openObjects w ↔ _
    rw [hcount, hleaks]
    by_cases hleak : ForgottenFile L path flags w
    · rw [if_pos (Or.inr hleak)]
      exact iff_of_false (by omega) (not_not.2 hleak)
    · rw [if_neg (not_or.2 ⟨hfailed, hleak⟩), add_zero]
      exact iff_of_true rfl hleak

/-- **What `fatfs_open` leaves open.**  It accounts for every object it opens and leaves the table
as it was when it fails exactly when no late failure makes it forget an object, and where it
fails the free descriptor that it tries, if there is one, was cleared before.  A failure always
keeps what is allocated. -/
theorem accounted_iff {r : ℤ} (h : fatfsOpen (metered L) path flags w = .ok (r, w')) :
    (Accounted L w w' r ↔ ¬ Leaks L path flags w ∧
        (¬ Opens (metered L) path flags w → FreeCleared w.files)) ∧
      (r = -1 → Kept w w') ∧ (r = -1 ↔ ¬ Opens (metered L) path flags w) := by
  obtain ⟨hfail, hsucceed⟩ := post_fatfsOpen_objects r w' h
  rcases post_fatfsOpen r w' h with ⟨hr, hfailed, hno⟩ | ⟨hopens, d, i, p, hr, hopened, -⟩
  · refine ⟨?_, fun _ => hfailed.kept, iff_of_true hr hno⟩
    rw [← hfail hr, ← hfailed.files]
    constructor
    · intro haccounted
      obtain ⟨hfiles, -, hobjects⟩ := haccounted.failed hr
      exact ⟨hobjects, fun _ => hfiles⟩
    · rintro ⟨hobjects, hfiles⟩
      exact ⟨fun _ => ⟨hfiles hno, hfailed.kept.pool, hobjects⟩, fun hne => absurd hr hne⟩
  · have hne : r ≠ -1 := by omega
    obtain ⟨hcount, hnot⟩ := hsucceed hne
    refine ⟨iff_of_true ⟨fun hminus => absurd hminus hne, fun _ => ?_⟩
      ⟨hnot, fun hno => absurd hopens hno⟩, fun hminus => absurd hminus hne,
      iff_of_false hne (not_not.2 hopens)⟩
    exact ⟨d, i, p, hr, hopened, hopened.filled.pointer, hopened.filled.entryOf, hcount⟩

end Metered

/-! ### A file that is made -/

/-- A library in which no path exists until `f_open` makes it; `late` is what `f_stat` returns
then. -/
def creatingLib (late : FResult) : FatLib Unit Unit Bool where
  fOpen := fun _ _ _ => (.ok, (), true)
  fOpendir := fun _ lib => (.noPath, (), lib)
  fStat := fun _ fno lib => (if lib then late else .noFile, fno, lib)
  fClose := fun o lib => (.ok, o, lib)
  fClosedir := fun o lib => (.ok, o, lib)
  fRead := fun _ o lib => ((.ok, []), o, lib)
  fWrite := fun _ o lib => ((.ok, 0), o, lib)
  fLseek := fun _ o lib => (.ok, o, lib)
  fSize := fun _ => 0
  fTell := fun _ => 0

/-- A library in which no path exists and none can be made. -/
def missingLib : FatLib Unit Unit Bool :=
  { creatingLib .ok with fStat := fun _ fno lib => (.noPath, fno, lib) }

/-- Nothing is open. -/
def creatingBoot : World Unit (FatFs Unit Unit (Bool × ℤ)) where
  files := fun _ => Fd.zero
  sockets := fun _ => .zero
  errno := none
  chip := ()
  fat := ⟨fun _ => ⟨false, .zero⟩, (false, 0)⟩

/-- A file that is made and opened; and a path that is not there, tried a second time, when the
free descriptor is as the first attempt has left it. -/
theorem accounted_created :
    (∃ w', fatfsOpen (metered (creatingLib .ok)) "A" oCreat creatingBoot = .ok (3, w') ∧
      Accounted (creatingLib .ok) creatingBoot w' 3) ∧
    ∃ w w', fatfsOpen (metered missingLib) "B" oRdonly creatingBoot = .ok (-1, w) ∧
      fatfsOpen (metered missingLib) "B" oRdonly w = .ok (-1, w') ∧
      Accounted missingLib w w' (-1) := by
  constructor
  · obtain ⟨w', hcall⟩ : ∃ w', fatfsOpen (metered (creatingLib .ok)) "A" oCreat creatingBoot
        = .ok (3, w') := ⟨_, rfl⟩
    have hopens := (accounted_iff hcall).2.2
    refine ⟨w', hcall, (accounted_iff hcall).1.2 ⟨?_, fun hno => ?_⟩⟩
    · rintro ⟨-, -, -, hlate⟩
      exact hlate.failed rfl
    · exact absurd (hopens.2 hno) (by decide)
  · obtain ⟨w, hfirst, hcleared⟩ : ∃ w, fatfsOpen (metered missingLib) "B" oRdonly creatingBoot
        = .ok (-1, w) ∧ FreeCleared w.files := ⟨_, rfl, by unfold FreeCleared; decide⟩
    obtain ⟨w', hsecond⟩ : ∃ w', fatfsOpen (metered missingLib) "B" oRdonly w = .ok (-1, w') := by
      cases hfirst
      exact ⟨_, rfl⟩
    refine ⟨w, w', hfirst, hsecond, (accounted_iff hsecond).1.2 ⟨?_, fun _ => hcleared⟩⟩
    rintro ⟨-, ⟨h, -⟩ | h, -⟩ <;> cases h

/-- **An object is forgotten**: the file is made, and the disk fails when it is looked at.  And
where nothing is forgotten, the free descriptor that a failing call has tried is not as it
was. -/
theorem not_accounted_disk_error :
    (∃ w', fatfsOpen (metered (creatingLib .diskErr)) "A" oCreat creatingBoot = .ok (-1, w') ∧
      openObjects w' = openObjects creatingBoot + 1) ∧
    (∃ w', fatfsOpen (metered missingLib) "A" oRdonly creatingBoot = .ok (-1, w') ∧
      openObjects w' = openObjects creatingBoot ∧ (w'.files 3).fd = 3 ∧
      (creatingBoot.files 3).fd = 0) ∧
    ¬ ∀ (L : FatLib Unit Unit Bool) (path : String) (flags : BitVec 32)
      (w w' : World Unit (FatFs Unit Unit (Bool × ℤ))) (r : ℤ),
      fatfsOpen (metered L) path flags w = .ok (r, w') → Accounted L w w' r := by
  obtain ⟨w', hcall, hcount⟩ : ∃ w', fatfsOpen (metered (creatingLib .diskErr)) "A" oCreat
      creatingBoot = .ok (-1, w') ∧ openObjects w' = 1 := ⟨_, rfl, rfl⟩
  refine ⟨⟨w', hcall, hcount⟩, ⟨_, rfl, rfl, rfl, rfl⟩, fun h => ?_⟩
  have hsame := ((h _ _ _ _ _ _ hcall).failed rfl).2.2
  rw [hcount] at hsame
  exact absurd hsame (by decide)

end Fat

end Nucleo
