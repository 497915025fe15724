/-
# The pointers that `opendir` hands out

A `DIR *` is good while it points to an allocated entry of the pool whose stream is open
and names an allocated descriptor of a directory that points back.  Three things break
this: `opendir` of a regular file, which returns the pointer of the file; `fdopendir` of a
descriptor that is closed, whose entry still has its old type and pointer; and closing a
descriptor a second time, which closes whatever its old pointer points to by then.

An `opendir` that returns null leaves the table and the pool as they were, but for the free
descriptor that it has tried, which `file_alloc` clears and numbers.

`validHandles_of_run` says that nothing else breaks either.
-/
import Nucleo.FatFsEffects
import Nucleo.Syscalls

namespace Nucleo

namespace Fat

open Comp W5100

section Handles

variable {χ κ δ ψ : Type} (B : Board χ) (L : FatLib κ δ ψ) (fuel : ℕ)

/-! ## Runs -/

/-- The calls. -/
inductive DirOp
  | open (path : String) (flags : BitVec 32)
  | close (fd : ℤ)
  | opendir (path : String)
  | fdopendir (fd : ℤ)
  | closedir (dirp : Opaque)
  deriving DecidableEq, Repr

/-- What a call returns: a number, or a pointer. -/
structure DirAnswer where
  ret : ℤ
  dirp : Opaque
  deriving DecidableEq, Repr

def DirOp.exec : DirOp → FatSys χ κ δ ψ DirAnswer
  | .open path flags => do pure ⟨← sysOpen L path flags, .null⟩
  | .close fd => do pure ⟨← sysClose B L fuel fd, .null⟩
  | .opendir path => do pure ⟨0, ← fatfsOpendir L path⟩
  | .fdopendir fd => do pure ⟨0, ← fatfsFdopendir fd⟩
  | .closedir dirp => do pure ⟨← fatfsClosedir L dirp, .null⟩

/-- The pointers returned and not yet closed, after a call made in `w`.  A stream is closed
by `closedir`, or by `close` of its descriptor. -/
def heldAfter (w : World χ (FatFs κ δ ψ)) (held : Set Opaque) (op : DirOp) (a : DirAnswer) :
    Set Opaque :=
  match op with
  | .open _ _ => held
  | .opendir _ | .fdopendir _ => if a.dirp = .null then held else insert a.dirp held
  | .closedir dirp => if a.ret = 0 then held \ {dirp} else held
  | .close fd =>
      if a.ret = 0 then held \ {p | ∃ d : Fin openMax, fd = d.val ∧ (w.files d).opaquePtr = p}
      else held

/-- No call is made that the source takes wrongly: `opendir` on what opens as a file, or on what
does not open while the free descriptor to be tried is not cleared, `fdopendir` on a descriptor
that looks like a directory's but is closed or a file's, `close` on a descriptor that is closed.
And no stream is closed that is not open. -/
def HandleOk (w : World χ (FatFs κ δ ψ)) (held : Set Opaque) : DirOp → Prop
  | .open _ _ => True
  | .close fd => ∀ d : Fin openMax, fd = d.val → (w.files d).close ≠ none →
      (w.files d).isallocated = true
  | .opendir path => ¬ OpensFile L path oRdonly w.fat.lib ∧
      (¬ Opens L path oRdonly w → FreeCleared w.files)
  | .fdopendir fd => ∀ d : Fin openMax, fd = d.val → (w.files d).stat.fileType = .dir →
      (w.files d).isallocated = true ∧ ∃ i, (w.files d).opaquePtr = .dir i
  | .closedir dirp => dirp ∈ held

/-- The worlds that such calls reach, with the pointers held there. -/
inductive HandleRun (w₀ : World χ (FatFs κ δ ψ)) : World χ (FatFs κ δ ψ) → Set Opaque → Prop
  | start : HandleRun w₀ w₀ ∅
  | step {w w' : World χ (FatFs κ δ ψ)} {held : Set Opaque} {op : DirOp} {a : DirAnswer} :
      HandleRun w₀ w held → HandleOk L w held op → op.exec B L fuel w = .ok (a, w') →
      HandleRun w₀ w' (heldAfter w held op a)

/-- Every pointer held points to an allocated entry with a stream that `f_opendir` has opened and
no `f_closedir` has closed, whose descriptor is allocated, one of a directory, and points back. -/
def ValidHandles (w : World χ (FatFs κ δ ψ)) (held : Set Opaque) : Prop :=
  ∀ p ∈ held, ∃ (i d : Fin openMax) (s : Dirstream δ),
    p = .dir i ∧ (w.fat.pool i).allocated = true ∧ (w.fat.pool i).object = .dir s ∧
    OpenStream L s.ffdir ∧ s.fd = d.val ∧ (w.files d).isallocated = true ∧ (w.files d).stat.fileType = .dir ∧
    (w.files d).opaquePtr = p

/-! ## The invariant -/

/-- What an allocated descriptor points to: an allocated entry, and where the pointer is one
of a stream, the stream is open and names the descriptor. -/
structure Anchors (w : World χ (FatFs κ δ ψ)) (d i : Fin openMax) : Prop where
  entry : entryOf (w.files d).opaquePtr = some i
  close : (w.files d).close = some .fatfs
  taken : (w.fat.pool i).allocated = true
  stream : (w.files d).opaquePtr = .dir i → (w.files d).stat.fileType = .dir ∧
    ∃ s, (w.fat.pool i).object = .dir s ∧ OpenStream L s.ffdir ∧ s.fd = d.val

/-- The invariant: every allocated descriptor has an entry of its own, every pointer held is
that of an allocated descriptor, and the entries that are free are empty. -/
structure HandlesSound (w : World χ (FatFs κ δ ψ)) (held : Set Opaque) : Prop where
  anchors : ∀ d, (w.files d).isallocated = true → ∃ i, Anchors L w d i
  unique : ∀ d d' i, (w.files d).isallocated = true → (w.files d').isallocated = true →
    entryOf (w.files d).opaquePtr = some i → entryOf (w.files d').opaquePtr = some i → d = d'
  held : ∀ p ∈ held, ∃ d i, p = .dir i ∧ (w.files d).isallocated = true ∧
    (w.files d).opaquePtr = p
  free : FreeEmpty w.fat.pool

variable {B L fuel} {w w' : World χ (FatFs κ δ ψ)} {held : Set Opaque} {d i : Fin openMax}

theorem HandlesSound.validHandles (h : HandlesSound L w held) : ValidHandles L w held := by
  intro p hp
  obtain ⟨d, i, rfl, halloc, hptr⟩ := h.held p hp
  obtain ⟨j, hj⟩ := h.anchors d halloc
  have heq : i = j := by
    have hentry := hj.entry
    rw [hptr] at hentry
    exact Option.some.inj hentry
  subst heq
  obtain ⟨htype, s, hobject, hopen, hfd⟩ := hj.stream hptr
  exact ⟨i, d, s, rfl, hj.taken, hobject, hopen, hfd, halloc, htype, hptr⟩

/-- A change outside of what a descriptor points to. -/
theorem Anchors.of_eq (h : Anchors L w d i) (hfile : w'.files d = w.files d)
    (hpool : w'.fat.pool i = w.fat.pool i) : Anchors L w' d i := by
  refine ⟨?_, ?_, ?_, ?_⟩
  · rw [hfile]
    exact h.entry
  · rw [hfile]
    exact h.close
  · rw [hpool]
    exact h.taken
  · rw [hfile, hpool]
    exact h.stream

/-! ### What the calls keep of it -/

/-- **A call that keeps what is allocated** keeps the invariant. -/
theorem HandlesSound.kept (h : HandlesSound L w held) (hk : Kept w w')
    (hpool : FreeEmpty w.fat.pool → w'.fat.pool = w.fat.pool) : HandlesSound L w' held := by
  have hfile : ∀ d, (w'.files d).isallocated = true →
      (w.files d).isallocated = true ∧ w'.files d = w.files d := by
    intro d hd
    have halloc : (w.files d).isallocated = true := (hk.files d).1 ▸ hd
    exact ⟨halloc, (hk.files d).2 halloc⟩
  constructor
  · intro d hd
    obtain ⟨halloc, heq⟩ := hfile d hd
    obtain ⟨i, hi⟩ := h.anchors d halloc
    exact ⟨i, hi.of_eq heq ((hk.pool i).2 hi.taken)⟩
  · intro d d' i hd hd' hi hi'
    obtain ⟨halloc, heq⟩ := hfile d hd
    obtain ⟨halloc', heq'⟩ := hfile d' hd'
    rw [heq] at hi
    rw [heq'] at hi'
    exact h.unique d d' i halloc halloc' hi hi'
  · intro p hp
    obtain ⟨d, i, hpi, halloc, hptr⟩ := h.held p hp
    refine ⟨d, i, hpi, (hk.files d).1.trans halloc, ?_⟩
    rw [(hk.files d).2 halloc]
    exact hptr
  · rw [hpool h.free]
    exact h.free

/-- **Opening** keeps the invariant: descriptor and entry were free. -/
theorem HandlesSound.opened (h : HandlesSound L w held) {p : Opaque} (ho : Opened L w w' d i p) :
    HandlesSound L w' held := by
  have hne : ∀ d', (w.files d').isallocated = true → d' ≠ d := by
    rintro d' hd' rfl
    rw [ho.wasFree] at hd'
    cases hd'
  have hback : ∀ d', d' ≠ d → (w'.files d').isallocated = true →
      (w.files d').isallocated = true := by
    intro d' hd hd'
    rw [ho.files_ne hd] at hd'
    exact hd'
  have hentry : entryOf (w'.files d).opaquePtr = some i := by
    rw [ho.filled.pointer]
    rcases ho.filled.kind with rfl | ⟨rfl, -, -⟩ <;> rfl
  -- an entry that a descriptor points to is not the one that was free
  have hother : ∀ d' j, (w.files d').isallocated = true →
      entryOf (w.files d').opaquePtr = some j → j ≠ i := by
    rintro d' j hd' hj rfl
    obtain ⟨k, hk⟩ := h.anchors d' hd'
    have heq : k = j := Option.some.inj (hk.entry.symm.trans hj)
    have hfree : (w.fat.pool j).allocated = false := ho.filled.wasFree
    rw [← heq, hk.taken] at hfree
    cases hfree
  constructor
  · intro d' hd'
    by_cases hd : d' = d
    · subst hd
      refine ⟨i, hentry, ho.filled.close, ho.filled.taken, fun hptr => ?_⟩
      rcases ho.filled.kind with rfl | ⟨-, htype, ffdir, hopen, hobject⟩
      · rw [ho.filled.pointer] at hptr
        cases hptr
      · exact ⟨htype, _, hobject, hopen, rfl⟩
    · obtain ⟨j, hj⟩ := h.anchors d' (hback d' hd hd')
      exact ⟨j, hj.of_eq (ho.files_ne hd)
        (ho.filled.pool_ne j (hother d' j (hback d' hd hd') hj.entry))⟩
  · intro d₁ d₂ j h₁ h₂ hj₁ hj₂
    by_cases hd₁ : d₁ = d
    · by_cases hd₂ : d₂ = d
      · exact hd₁.trans hd₂.symm
      · subst hd₁
        rw [hentry] at hj₁
        rw [ho.files_ne hd₂] at hj₂
        exact absurd (Option.some.inj hj₁).symm (hother d₂ j (hback d₂ hd₂ h₂) hj₂)
    · by_cases hd₂ : d₂ = d
      · subst hd₂
        rw [hentry] at hj₂
        rw [ho.files_ne hd₁] at hj₁
        exact absurd (Option.some.inj hj₂).symm (hother d₁ j (hback d₁ hd₁ h₁) hj₁)
      · rw [ho.files_ne hd₁] at hj₁
        rw [ho.files_ne hd₂] at hj₂
        exact h.unique d₁ d₂ j (hback d₁ hd₁ h₁) (hback d₂ hd₂ h₂) hj₁ hj₂
  · intro q hq
    obtain ⟨d', j, hqj, halloc, hptr⟩ := h.held q hq
    refine ⟨d', j, hqj, ?_, ?_⟩ <;> rw [ho.files_ne (hne d' halloc)]
    · exact halloc
    · exact hptr
  · intro j hj
    have hji : j ≠ i := by
      rintro rfl
      rw [ho.filled.taken] at hj
      cases hj
    have hsame : w'.fat.pool j = w.fat.pool j := ho.filled.pool_ne j hji
    rw [hsame] at hj ⊢
    exact h.free j hj

/-- **Closing** an allocated descriptor keeps the invariant, without its pointer where it
returned 0. -/
theorem HandlesSound.closing (h : HandlesSound L w held) (halloc : (w.files d).isallocated = true)
    {r : ℤ} (hc : Closing L w w' d r) :
    HandlesSound L w' (if r = 0 then held \ {(w.files d).opaquePtr} else held) := by
  obtain ⟨k, hk⟩ := h.anchors d halloc
  -- another descriptor points to another entry
  have hother : ∀ d' j, d' ≠ d → (w.files d').isallocated = true →
      entryOf (w.files d').opaquePtr = some j → j ≠ k := by
    rintro d' j hne hd' hj rfl
    exact hne (h.unique d' d j hd' halloc hj hk.entry)
  cases hc with
  | refused hr hfiles hpool =>
    rw [if_neg (by omega)]
    refine h.kept ⟨fun d' => ?_, fun j => ?_⟩ fun _ => hpool
    · rw [hfiles]
      exact ⟨rfl, fun _ => rfl⟩
    · rw [hpool]
      exact ⟨rfl, fun _ => rfl⟩
  | failed hr i object hentry hfiles hpool hstream =>
    have hik : i = k := Option.some.inj (hentry.symm.trans hk.entry)
    subst hik
    rw [if_neg (by omega)]
    constructor
    · intro d' hd'
      rw [hfiles] at hd'
      by_cases hd : d' = d
      · subst hd
        refine ⟨i, ?_, ?_, ?_, fun hptr => ?_⟩
        · rw [hfiles]
          exact hk.entry
        · rw [hfiles]
          exact hk.close
        · rw [hpool, Function.update_self]
          exact hk.taken
        · rw [hfiles] at hptr ⊢
          obtain ⟨htype, s, hobject, hopen, hfd⟩ := hk.stream hptr
          -- `f_closedir` has failed: the stream is still open, only `ffdir` may differ
          obtain ⟨ffdir, hnew, hstill⟩ := hstream htype s hobject
          refine ⟨htype, { s with ffdir }, ?_, hstill hopen, hfd⟩
          rw [hpool, Function.update_self]
          exact hnew
      · obtain ⟨j, hj⟩ := h.anchors d' hd'
        refine ⟨j, hj.of_eq (by rw [hfiles]) ?_⟩
        rw [hpool, Function.update_of_ne (hother d' j hd hd' hj.entry)]
    · rw [hfiles]
      exact h.unique
    · rw [hfiles]
      exact h.held
    · intro j hj
      have hji : j ≠ i := by
        rintro rfl
        rw [hpool, Function.update_self] at hj
        exact Bool.false_ne_true (hj.symm.trans hk.taken)
      rw [hpool, Function.update_of_ne hji] at hj ⊢
      exact h.free j hj
  | closed hr i hentry hfiles hpool_ne hfreed hempty =>
    have hik : i = k := Option.some.inj (hentry.symm.trans hk.entry)
    subst hik
    have hfile : ∀ d', (w'.files d').isallocated = true →
        d' ≠ d ∧ (w.files d').isallocated = true ∧ w'.files d' = w.files d' := by
      intro d' hd'
      by_cases hd : d' = d
      · subst hd
        rw [hfiles, Function.update_self] at hd'
        cases hd'
      · rw [hfiles, Function.update_of_ne hd] at hd' ⊢
        exact ⟨hd, hd', rfl⟩
    rw [if_pos hr]
    constructor
    · intro d' hd'
      obtain ⟨hd, halloc', heq⟩ := hfile d' hd'
      obtain ⟨j, hj⟩ := h.anchors d' halloc'
      exact ⟨j, hj.of_eq heq (hpool_ne j (hother d' j hd halloc' hj.entry))⟩
    · intro d₁ d₂ j h₁ h₂ hj₁ hj₂
      obtain ⟨-, halloc₁, heq₁⟩ := hfile d₁ h₁
      obtain ⟨-, halloc₂, heq₂⟩ := hfile d₂ h₂
      rw [heq₁] at hj₁
      rw [heq₂] at hj₂
      exact h.unique d₁ d₂ j halloc₁ halloc₂ hj₁ hj₂
    · rintro q ⟨hq, hne⟩
      obtain ⟨d', j, hqj, halloc', hptr⟩ := h.held q hq
      have hd : d' ≠ d := by
        rintro rfl
        exact hne hptr.symm
      refine ⟨d', j, hqj, ?_, ?_⟩ <;> rw [hfiles, Function.update_of_ne hd]
      · exact halloc'
      · exact hptr
    · intro j hj
      by_cases hji : j = i
      · rw [hji]
        exact hempty hk.taken
      · rw [hpool_ne j hji] at hj ⊢
        exact h.free j hj

/-- Fewer pointers held. -/
theorem HandlesSound.mono {held' : Set Opaque} (h : HandlesSound L w held) (hsub : held' ⊆ held) :
    HandlesSound L w held' :=
  ⟨h.anchors, h.unique, fun p hp => h.held p (hsub hp), h.free⟩

/-- The pointer of an allocated descriptor of a stream may be held. -/
theorem HandlesSound.insert (h : HandlesSound L w held) (halloc : (w.files d).isallocated = true)
    (hptr : (w.files d).opaquePtr = .dir i) : HandlesSound L w (insert (.dir i) held) := by
  refine ⟨h.anchors, h.unique, fun p hp => ?_, h.free⟩
  rcases hp with rfl | hp
  · exact ⟨d, i, rfl, halloc, hptr⟩
  · exact h.held p hp

/-! ## One call -/

/-- **What `opendir` does**: it returns null because `fatfs_open` fails, or opens, and then
returns the pointer of the descriptor. -/
theorem post_fatfsOpendir {path : String} :
    Post (fatfsOpendir L path)
      (fun p w' => p = .null ∧ Failed w w' ∧ ¬ Opens L path oRdonly w ∨
        p ≠ .null ∧ ∃ d i, Opened L w w' d i p ∧
          (¬ OpensFile L path oRdonly w.fat.lib → p = .dir i)) w := by
  unfold fatfsOpendir
  rw [post_bind]
  refine post_fatfsOpen.mono ?_
  rintro r w' (⟨rfl, hfailed, hno⟩ | ⟨-, d, i, p, rfl, hopened, hdir⟩)
  · rw [if_pos rfl]
    exact post_pure.2 (Or.inl ⟨rfl, hfailed, hno⟩)
  · rw [if_neg (by omega), fileStructGet_coe, pure_bind]
    show Post (pure (w'.files d).opaquePtr) _ w'
    rw [hopened.filled.pointer]
    refine post_pure.2 (Or.inr ⟨?_, d, i, hopened, hdir⟩)
    rcases hopened.filled.kind with rfl | ⟨rfl, -, -⟩ <;> exact Opaque.noConfusion

variable {hL : LeavesStreams L}

/-- **`close`** of a descriptor that is allocated, or has no function for it. -/
theorem post_sysClose (hL : LeavesStreams L) (h : HandlesSound L w held) {fd : ℤ}
    (hok : ∀ d : Fin openMax, fd = d.val → (w.files d).close ≠ none →
      (w.files d).isallocated = true) :
    Post (sysClose B L fuel fd) (fun r w' => HandlesSound L w' (if r = 0 then
      held \ {p | ∃ d : Fin openMax, fd = d.val ∧ (w.files d).opaquePtr = p} else held)) w := by
  have hrefused : ∀ e : Errno, HandlesSound L (w.setErrno e) held := fun e => h.kept
    ⟨fun _ => ⟨rfl, fun _ => rfl⟩, .refl _⟩ fun _ => rfl
  unfold sysClose withOpen
  rw [post_bind]
  refine post_fileStructGet (fun _ => post_fail.2 (hrefused _)) fun d hd => ?_
  dsimp only
  rw [post_bind, post_get, post_ite]
  refine ⟨fun _ => post_fail.2 (hrefused _), fun _ => ?_⟩
  have hset : {p | ∃ d : Fin openMax, fd = d.val ∧ (w.files d).opaquePtr = p} =
      {(w.files d).opaquePtr} := by
    ext p
    constructor
    · rintro ⟨d', hd', rfl⟩
      have heq : d' = d := Fin.ext (by omega)
      rw [heq]
      rfl
    · rintro rfl
      exact ⟨d, hd, rfl⟩
  rw [hset]
  cases hclose : (w.files d).close with
  | none =>
    -- the console: only its mark of being open changes
    rw [post_bind, post_modifyFile, post_pure, if_pos rfl]
    have hfree : (w.files d).isallocated = false := by
      by_contra hne
      obtain ⟨i, hi⟩ := h.anchors d (Bool.eq_true_of_not_eq_false hne)
      rw [hi.close] at hclose
      cases hclose
    refine HandlesSound.mono ?_ Set.sdiff_subset
    refine h.kept (kept_of_free hfree (fun d' hne => ?_) ?_ (.refl _)) fun _ => rfl
    · simp [hne]
    · simp [hfree]
  | some driver =>
    have halloc := hok d hd (by rw [hclose]; exact Option.some_ne_none _)
    obtain ⟨i, hi⟩ := h.anchors d halloc
    rw [hi.close] at hclose
    cases hclose
    dsimp only
    rw [hd]
    exact (post_fatfsClose L hL).mono fun r w' hc => h.closing halloc hc

theorem post_exec (hL : LeavesStreams L) (h : HandlesSound L w held) {op : DirOp}
    (hok : HandleOk L w held op) :
    Post (op.exec B L fuel) (fun a w' => HandlesSound L w' (heldAfter w held op a)) w := by
  cases op with
  | «open» path flags =>
    show Post (sysOpen L path flags >>= _) _ w
    rw [post_bind]
    refine post_fatfsOpen.mono ?_
    rintro r w' (⟨-, hfailed, -⟩ | ⟨-, d, i, p, -, hopened, -⟩)
    · exact post_pure.2 (h.kept hfailed.kept hfailed.pool)
    · exact post_pure.2 (h.opened hopened)
  | close fd =>
    show Post (sysClose B L fuel fd >>= _) _ w
    rw [post_bind]
    exact (post_sysClose hL h hok).mono fun r w' hs => post_pure.2 hs
  | opendir path =>
    show Post (fatfsOpendir L path >>= _) _ w
    rw [post_bind]
    refine post_fatfsOpendir.mono ?_
    rintro p w' (⟨rfl, hfailed, -⟩ | ⟨hne, d, i, hopened, hdir⟩)
    · refine post_pure.2 ?_
      show HandlesSound L w' (if Opaque.null = .null then held else insert .null held)
      rw [if_pos rfl]
      exact h.kept hfailed.kept hfailed.pool
    · refine post_pure.2 ?_
      show HandlesSound L w' (if p = .null then held else insert p held)
      -- the condition excludes that the path was taken for a file
      have hp : p = .dir i := hdir hok.1
      subst hp
      rw [if_neg hne]
      exact (h.opened hopened).insert hopened.allocated hopened.filled.pointer
  | fdopendir fd =>
    have hrefused : ∀ e : Errno, HandlesSound L (w.setErrno e)
        (if Opaque.null = .null then held else insert .null held) := by
      intro e
      rw [if_pos rfl]
      exact h.kept ⟨fun _ => ⟨rfl, fun _ => rfl⟩, .refl _⟩ fun _ => rfl
    show Post (fatfsFdopendir fd >>= _) _ w
    unfold fatfsFdopendir
    rw [post_bind, post_bind]
    refine post_fileStructGet (fun _ => post_fail.2 (post_pure.2 (hrefused _))) fun d hd => ?_
    dsimp only
    rw [post_bind, post_get, post_ite]
    refine ⟨fun htype => ?_, fun _ => post_fail.2 (post_pure.2 (hrefused _))⟩
    -- the condition: the descriptor is allocated and points to a stream
    obtain ⟨halloc, i, hptr⟩ := hok d hd htype
    refine post_pure.2 (post_pure.2 ?_)
    show HandlesSound L w (if (w.files d).opaquePtr = .null then held
      else insert (w.files d).opaquePtr held)
    rw [hptr, if_neg Opaque.noConfusion]
    exact h.insert halloc hptr
  | closedir dirp =>
    -- a held pointer leads to its own descriptor, which `fatfs_closedir` closes
    obtain ⟨d, i, rfl, halloc, hptr⟩ := h.held dirp hok
    obtain ⟨j, hj⟩ := h.anchors d halloc
    have hij : i = j := by
      have hentry := hj.entry
      rw [hptr] at hentry
      exact Option.some.inj hentry
    subst hij
    obtain ⟨-, s, hobject, -, hfd⟩ := hj.stream hptr
    show Post (fatfsClosedir L (.dir i) >>= _) _ w
    unfold fatfsClosedir
    rw [post_bind, post_bind_of_ok (dirOf_of_object hobject)]
    dsimp only
    rw [hfd]
    refine (post_fatfsClose L hL).mono fun r w' hc => post_pure.2 ?_
    show HandlesSound L w' (if r = 0 then held \ {.dir i} else held)
    rw [← hptr]
    exact h.closing halloc hc

/-! ## The run -/

theorem handlesSound_of_run (hL : LeavesStreams L) {w₀ : World χ (FatFs κ δ ψ)}
    (hfiles : w₀.files = stdioInit) (hpool : FreeEmpty w₀.fat.pool)
    (hrun : HandleRun B L fuel w₀ w held) : HandlesSound L w held := by
  have hfree : ∀ d, (w₀.files d).isallocated = false := by
    intro d
    rw [hfiles]
    unfold stdioInit stdioFd
    split_ifs <;> rfl
  induction hrun with
  | start =>
    refine ⟨fun d hd => ?_, fun d _ _ hd => ?_, fun p hp => absurd hp (Set.notMem_empty p), hpool⟩
    · rw [hfree d] at hd
      cases hd
    · rw [hfree d] at hd
      cases hd
  | step _ hok hret ih => exact post_exec hL ih hok _ _ hret

/-- **Which pointers stay good.**  In every state reached by calls that the source takes
rightly, each pointer held is good, and an `opendir` of that kind that returns null leaves the
table and the pool exactly as they were.  Every other `opendir` that returns null, in every state
reached, leaves the same descriptors allocated, with the same contents, and the pool as it
was. -/
theorem validHandles_of_run (hL : LeavesStreams L) {w₀ : World χ (FatFs κ δ ψ)}
    (hfiles : w₀.files = stdioInit) (hpool : FreeEmpty w₀.fat.pool)
    (hrun : HandleRun B L fuel w₀ w held) :
    ValidHandles L w held ∧
      ∀ path a w', (DirOp.opendir path).exec B L fuel w = .ok (a, w') → a.dirp = .null →
        (HandleOk L w held (.opendir path) → w'.files = w.files) ∧
          w'.fat.pool = w.fat.pool ∧ Kept w w' := by
  have hsound := handlesSound_of_run hL hfiles hpool hrun
  refine ⟨hsound.validHandles, fun path a w' hret hnull => ?_⟩
  have hpost : Post ((DirOp.opendir path).exec B L fuel)
      (fun a w' => a.dirp = .null → Failed w w' ∧ ¬ Opens L path oRdonly w) w := by
    show Post (fatfsOpendir L path >>= _) _ w
    rw [post_bind]
    refine post_fatfsOpendir.mono ?_
    rintro p w₁ (⟨-, hfailed⟩ | ⟨hne, -⟩)
    · exact post_pure.2 fun _ => hfailed
    · exact post_pure.2 fun heq => absurd heq hne
  obtain ⟨hfailed, hno⟩ := hpost a w' hret hnull
  exact ⟨fun hok => hfailed.files.2 (hok.2 hno), hfailed.pool hsound.free, hfailed.kept⟩

end Handles

/-! ## A directory and a file -/

def idleBoard : Board Unit where
  read := fun _ c => (0, c)
  write := fun _ _ c => c
  clockGettime := fun c => (timespecZero, c)
  usartReady := fun c => (false, c)
  usartRecv := fun c => (0, c)
  usartSend := fun _ c => c

/-- A library in which every path exists: its state says whether as a directory. -/
def oneKindLib : FatLib Unit Unit Bool where
  fOpen := fun _ _ lib => (.ok, (), lib)
  fOpendir := fun _ lib => (.ok, (), lib)
  fStat := fun _ _ lib => (.ok, ⟨0, lib, false, "A"⟩, lib)
  fClose := fun o lib => (.ok, o, lib)
  fClosedir := fun o lib => (.ok, o, lib)
  fRead := fun _ o lib => ((.ok, []), o, lib)
  fWrite := fun _ o lib => ((.ok, 0), o, lib)
  fLseek := fun _ o lib => (.ok, o, lib)
  fSize := fun _ => 0
  fTell := fun _ => 0

theorem freeEmpty_boot {κ δ : Type} : FreeEmpty fun _ => (⟨false, .zero⟩ : PoolEntry κ δ) :=
  fun _ _ => rfl

theorem leavesStreams_oneKindLib : LeavesStreams oneKindLib := fun s _ => ⟨s.ffdir, rfl⟩

def oneKindBoot (isDir : Bool) : World Unit (FatFs Unit Unit Bool) where
  files := stdioInit
  sockets := fun _ => .zero
  errno := none
  chip := ()
  fat := ⟨fun _ => ⟨false, .zero⟩, isDir⟩

/-- `opendir` of a directory. -/
theorem validHandles_of_run_directory :
    ∃ w, (DirOp.opendir "A").exec idleBoard oneKindLib 0 (oneKindBoot true) =
        .ok (⟨0, .dir 0⟩, w) ∧
      ValidHandles oneKindLib w
        (heldAfter (oneKindBoot true) ∅ (.opendir "A") ⟨0, .dir 0⟩) := by
  obtain ⟨w, hret⟩ : ∃ w, (DirOp.opendir "A").exec idleBoard oneKindLib 0 (oneKindBoot true) =
      .ok (⟨0, .dir 0⟩, w) := ⟨_, rfl⟩
  have hok : HandleOk oneKindLib (oneKindBoot true) ∅ (.opendir "A") := by
    refine ⟨?_, fun hno => absurd ⟨by decide, by decide, Or.inr ⟨rfl, rfl, rfl⟩⟩ hno⟩
    rintro ⟨⟨-, h⟩ | h, -⟩ <;> cases h
  exact ⟨w, hret, (validHandles_of_run leavesStreams_oneKindLib rfl freeEmpty_boot
    (.step .start hok hret)).1⟩

/-- `opendir` of a regular file returns the pointer of the file. -/
theorem not_validHandles_file :
    ∃ w, (DirOp.opendir "A").exec idleBoard oneKindLib 0 (oneKindBoot false) =
        .ok (⟨0, .fil 0⟩, w) ∧
      ¬ ValidHandles oneKindLib w
        (heldAfter (oneKindBoot false) ∅ (.opendir "A") ⟨0, .fil 0⟩) := by
  refine ⟨_, rfl, fun h => ?_⟩
  obtain ⟨i, d, s, heq, -⟩ := h (.fil 0) (Or.inl rfl)
  cases heq

end Fat

end Nucleo
