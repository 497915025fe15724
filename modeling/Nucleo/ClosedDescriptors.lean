/-
# Calls on a closed descriptor

A descriptor that `close` has taken back should be refused with `EBADF` by every call until
`file_alloc` hands it out again (`Dead`).  No closed descriptor is.  `fatfs_close` leaves
`isopen` set, so `read`, `write`, `lseek` and `fstat` go on with the entry; and
`get_socket_from_fd` looks at the type and the pointer of an entry only, which no `close`
clears, so the socket calls go on with the slot or answer `ENOTSOCK`.

`closed_not_dead` takes `connect` for this: from any state reached, and whatever the address,
it never fails with `EBADF`.  The invariant behind it is that every entry of socket type
points to a slot (`Pointed`).
-/
import Nucleo.Descriptors
import Nucleo.DirHandles

namespace Nucleo

open Comp W5100 Fat

/-! ## Runs of both drivers -/

/-- A call of the program, or an event of the chip. -/
inductive ProgCall (χ : Type)
  | openPath (pathname : String) (flags : BitVec 32)
  | socket (domain : Family) (type : SockType) (protocol : ℤ)
  | on (fd : ℤ) (call : FdCall)
  | poll (fd : ℤ) (events : BitVec 16)
  | event (chip : χ)

section Claims

variable {χ κ δ ψ : Type} (B : Board χ) (L : FatLib κ δ ψ)
  (fSync : PoolObject κ δ → ψ → FResult × PoolObject κ δ × ψ)

/-- The call with the given patience. -/
def ProgCall.exec : ℕ × ProgCall χ → FatSys χ κ δ ψ Unit
  | (_, .openPath pathname flags) => do let _ ← sysOpen L pathname flags
  | (_, .socket domain type protocol) => do let _ ← W5100.socket B domain type protocol
  | (fuel, .on fd call) => do let _ ← call.exec B L fSync fuel fd
  | (_, .poll fd events) => do let _ ← pollOne B fd events
  | (_, .event chip) => modify fun w => w.setChip chip

/-- The call does not hand out `d`: it is not allocated afterwards. -/
def Spares (d : Fin openMax) (w : World χ (FatFs κ δ ψ)) (call : ℕ × ProgCall χ) : Prop :=
  Post (ProgCall.exec B L fSync call) (fun _ w' => (w'.files d).isallocated = false) w

/-- `close(d)` has returned 0 on the way from `w₀` to `w`, and `d` has not been handed out
since. -/
def ClosedSince (w₀ w : World χ (FatFs κ δ ψ)) (d : Fin openMax) : Prop :=
  ∃ (w₁ w₂ : World χ (FatFs κ δ ψ)) (fuel : ℕ),
    Run (ProgCall.exec B L fSync) (fun _ _ => True) w₀ w₁ ∧
      sysClose B L fuel (d.val : ℤ) w₁ = .ok (0, w₂) ∧
      Run (ProgCall.exec B L fSync) (Spares B L fSync d) w₂ w

/-- The calls that should refuse a closed descriptor. -/
def FdCall.Checked : FdCall → Prop
  | .read _ | .write _ | .lseek _ _ | .fstat | .close => True
  | .connect _ | .bind _ | .listen | .accept _ | .send _ | .recv _ => True
  | .isatty | .fsync | .fcntl _ | .fdopendir | .sendto _ _ | .recvfrom _ _ | .setsockopt _ _
  | .getsockopt _ _ | .getsockname _ _ | .getpeername _ _ => False

/-- The descriptor table, the pool and the slots are as they were. -/
structure TablesKept (w w' : World χ (FatFs κ δ ψ)) : Prop where
  files : w'.files = w.files
  sockets : w'.sockets = w.sockets
  pool : w'.fat.pool = w.fat.pool

/-- What is asked of a closed descriptor: every call on it fails with `EBADF`, `poll` answers
`POLLNVAL`, and no table changes. -/
structure Dead (w : World χ (FatFs κ δ ψ)) (d : Fin openMax) : Prop where
  refused : ∀ call : FdCall, call.Checked → ∀ fuel, ∃ w',
    call.exec B L fSync fuel (d.val : ℤ) w = .ok (call.refused, w') ∧
      w'.errno = some .EBADF ∧ TablesKept w w'
  polled : ∀ events, ∃ w',
    pollOne B (d.val : ℤ) events w = .ok (pollNval, w') ∧ TablesKept w w'

end Claims

/-! ## Entries of socket type -/

/-- An entry of socket type points to a slot. -/
def Fd.Pointed (f : Fd) : Prop := f.stat.fileType = .sock → ∃ i, f.opaquePtr = .slot i

/-- Every entry of socket type points to a slot. -/
def Pointed {χ φ : Type} (w : World χ φ) : Prop := ∀ d, (w.files d).Pointed

section Sockets

variable {χ φ : Type} (B : Board χ) (fuel : ℕ) {w w' : World χ φ}

/-- An entry may be replaced by one that is pointed. -/
theorem pointed_setFile (h : Pointed w) {d : Fin openMax} {f : Fd} (hf : f.Pointed) :
    Pointed (w.setFile d f) := by
  intro d'
  rw [World.setFile_files]
  by_cases hd : d' = d
  · subst hd
    rw [Function.update_self]
    exact hf
  · rw [Function.update_of_ne hd]
    exact h d'

/-! ### The steps of the calls -/

/-- An entry may be changed into one that is pointed. -/
theorem maintains_modifyFile (d : Fin openMax) {f : Fd → Fd}
    (hf : ∀ g : Fd, g.Pointed → (f g).Pointed) :
    Maintains Pointed (modifyFile d f : Sys χ φ Unit) :=
  maintains_modify fun _ h => pointed_setFile h (hf _ (h d))

/-- What leaves the descriptor table alone. -/
theorem maintains_of_files {α : Type} {x : Sys χ φ α}
    (hx : ∀ w, Post x (fun _ w' => w'.files = w.files) w) : Maintains Pointed x := by
  intro w h
  refine (hx w).mono fun _ w' hfiles d => ?_
  rw [hfiles]
  exact h d

/-- A turn of the socket functions leaves the type and the pointer of an entry. -/
theorem pointed_turn {T T' : Tables} (h : ∀ d, (T.files d).Pointed) (ht : W5100.Turn T T') :
    ∀ d, (T'.files d).Pointed := by
  cases ht with
  | slot i s hs => exact h
  | flags d df sf =>
      intro d'
      by_cases hd : d' = d
      · subst hd
        rw [Tables.setFile_files_self]
        exact h d'
      · rw [Tables.setFile_files_of_ne _ _ hd]
        exact h d'

/-- The calls that only turn slots and set flags. -/
theorem maintains_of_turned {α : Type} {x : Sys χ φ α}
    (hx : ∀ w, Post x (fun _ w' => Turned w w') w) : Maintains Pointed x := by
  intro w h
  refine (hx w).mono fun _ w' ht => ?_
  have hrun : ∀ T' : Tables, Relation.ReflTransGen W5100.Turn w.tables T' →
      ∀ d, (T'.files d).Pointed := by
    intro T' hT
    induction hT with
    | refl => exact h
    | tail _ hlast ih => exact pointed_turn ih hlast
  exact hrun _ ht

/-- A stop leaves no state behind. -/
theorem maintains_throw {α : Type} (e : Stop) : Maintains Pointed (throw e : Sys χ φ α) :=
  fun _ _ => post_throw.2 trivial

/-- An error changes `errno` only. -/
theorem maintains_fail {α : Type} (e : Errno) (ret : α) :
    Maintains Pointed (fail e ret : Sys χ φ α) := fun _ h => post_fail.2 h

/-- The chip is no part of the file table. -/
theorem maintains_onChip {α : Type} (x : Comp χ Stop α) :
    Maintains Pointed (onChip x : Sys χ φ α) :=
  maintains_of_files fun _ => post_onChip_of_forall fun _ _ => rfl

theorem maintains_modifySlot (i : Fin nSockets) (f : Slot → Slot) :
    Maintains Pointed (modifySlot i f : Sys χ φ Unit) := maintains_modify fun _ h => h

theorem maintains_getSlot (i : Fin nSockets) : Maintains Pointed (getSlot i : Sys χ φ Slot) :=
  maintains_get.bind fun _ => maintains_pure _

theorem maintains_fileStructGet (fd : ℤ) :
    Maintains Pointed (fileStructGet fd : Sys χ φ (Option (Fin openMax))) :=
  fun _ h => post_fileStructGet (fun _ => h) fun _ _ => h

theorem maintains_getSocketFromFd (fd : ℤ) :
    Maintains Pointed (getSocketFromFd fd : Sys χ φ (Option (Fin nSockets))) :=
  fun _ h => post_getSocketFromFd (fun _ => h) fun _ _ _ _ _ => h

/-- A new entry is not one of a socket yet. -/
theorem maintains_fileAlloc :
    Maintains Pointed (fileAlloc : Sys χ φ (Option (Fin openMax))) := by
  intro w h
  refine post_fileAlloc h fun d _ _ => pointed_setFile h fun hsock => ?_
  cases hsock

/-- An entry that is given back keeps its type and its pointer. -/
theorem maintains_fileFree (fd : ℤ) : Maintains Pointed (fileFree fd : Sys χ φ Unit) := by
  unfold fileFree
  split_ifs
  · exact maintains_modifyFile _ fun _ hg => hg
  · exact maintains_pure _

/-- The entry of a socket points to the slot. -/
theorem maintains_fillFdStruct (d : Fin openMax) (i : Fin nSockets) :
    Maintains Pointed (fillFdStruct d i : Sys χ φ Unit) :=
  maintains_modifyFile d fun _ _ _ => ⟨i, rfl⟩

/-- So does an entry that is released. -/
theorem maintains_releaseFile (d : Fin openMax) :
    Maintains Pointed (releaseFile d : Sys χ φ Unit) := by
  refine Maintains.bind ?_ fun _ => maintains_get.bind fun _ => maintains_fileFree _
  exact maintains_modifyFile d fun _ hg => hg

/-! ### The calls that hand out a socket or take one back -/

/-- `socket` fills in the entry that it has taken. -/
theorem maintains_socket (domain : Family) (type : SockType) (protocol : ℤ) :
    Maintains Pointed (W5100.socket B domain type protocol : Sys χ φ ℤ) := by
  have halloc : Maintains Pointed (socketAlloc : Sys χ φ (Option (Fin nSockets))) := by
    refine maintains_get.bind fun w => ?_
    cases firstFreeSlot w.sockets with
    | none => exact maintains_fail _ _
    | some i => exact (maintains_modifySlot i _).bind fun _ => maintains_pure _
  have hcreate : Maintains Pointed (socketCreate B type : Sys χ φ ℤ) := by
    refine halloc.bind fun r => ?_
    cases r with
    | none => exact maintains_fail _ _
    | some i =>
        refine maintains_fileAlloc.bind fun r => ?_
        cases r with
        | none => exact Maintains.bind (maintains_modifySlot i _) fun _ => maintains_fail _ _
        | some d =>
            refine (maintains_fillFdStruct d i).bind fun _ => ?_
            refine (maintains_modifySlot i _).bind fun _ => ?_
            exact (maintains_onChip _).bind fun _ => maintains_pure _
  exact (maintains_fail _ _).ite ((maintains_fail _ _).ite ((maintains_fail _ _).ite hcreate))

theorem maintains_acceptEstablished (i : Fin nSockets) (wantAddr : Bool) :
    Maintains Pointed (acceptEstablished B fuel i wantAddr : Sys χ φ (ℤ × Option SockaddrIn)) := by
  refine (maintains_getSlot i).bind fun s => maintains_fileAlloc.bind fun r => ?_
  cases r with
  | none =>
      refine Maintains.bind (maintains_modify fun _ h => h) fun _ => ?_
      refine (maintains_onChip _).bind fun _ => (maintains_onChip _).bind fun _ => ?_
      exact (maintains_onChip _).bind fun _ => maintains_pure _
  | some d =>
      refine (maintains_modifySlot i _).bind fun _ => (maintains_fillFdStruct d _).bind fun _ => ?_
      refine (maintains_modifySlot i _).bind fun _ => Maintains.ite ?_ (maintains_pure _)
      exact (maintains_onChip _).bind fun _ => (maintains_onChip _).bind fun _ => maintains_pure _

theorem maintains_accept (fd : ℤ) (wantAddr : Bool) :
    Maintains Pointed (W5100.accept B fuel fd wantAddr : Sys χ φ (ℤ × Option SockaddrIn)) := by
  have hloop : ∀ i nonblock, Maintains Pointed
      (acceptLoop B fuel i wantAddr nonblock : Sys χ φ (ℤ × Option SockaddrIn)) := by
    intro i nonblock
    apply Maintains.iter
    intro _
    refine (maintains_getSlot i).bind fun s => (maintains_onChip _).bind fun sr => ?_
    refine Maintains.ite ?_ ((maintains_fail _ _).ite (maintains_pure _))
    exact (maintains_acceptEstablished B fuel i wantAddr).bind fun _ => maintains_pure _
  have hflag : ∀ i, Maintains Pointed (isNonblock i : Sys χ φ Bool) := by
    intro i
    refine (maintains_getSlot i).bind fun s => ?_
    cases s.fdData with
    | none => exact maintains_throw _
    | some d => exact maintains_get.bind fun _ => maintains_pure _
  refine (maintains_getSocketFromFd fd).bind fun r => ?_
  cases r with
  | none => exact maintains_pure _
  | some i =>
      refine (maintains_getSlot i).bind fun s => ?_
      refine (maintains_fail _ _).ite ((maintains_fail _ _).ite ?_)
      exact (hflag i).bind fun nonblock => hloop i nonblock

/-- Closing a socket releases its entry. -/
theorem maintains_sockClose (fd : ℤ) : Maintains Pointed (sockClose B fuel fd : Sys χ φ ℤ) := by
  refine (maintains_getSocketFromFd fd).bind fun r => ?_
  cases r with
  | none => exact maintains_pure _
  | some i =>
      refine maintains_get.bind fun w => ?_
      cases (w.sockets i).fdData.filter (fun d => (w.files d).fd = fd) with
      | some d =>
          refine (maintains_getSlot i).bind fun _ => (maintains_releaseFile d).bind fun _ => ?_
          refine (maintains_modifySlot i _).bind fun _ => (maintains_getSlot i).bind fun s => ?_
          refine Maintains.ite ?_ (maintains_pure _)
          refine (maintains_onChip _).bind fun _ => (maintains_onChip _).bind fun _ => ?_
          exact Maintains.bind (maintains_modifySlot _ _) fun _ => maintains_pure _
      | none =>
          cases (w.sockets i).connectionData.filter (fun d => (w.files d).fd = fd) with
          | none => exact maintains_fail _ _
          | some d =>
              refine (maintains_getSlot i).bind fun _ => (maintains_releaseFile d).bind fun _ => ?_
              refine (maintains_modifySlot i _).bind fun _ => (maintains_onChip _).bind fun _ => ?_
              refine (maintains_onChip _).bind fun _ => (maintains_getSlot i).bind fun s => ?_
              refine Maintains.ite ?_ ?_
              · exact Maintains.bind (maintains_modifySlot _ _) fun _ => maintains_pure _
              · refine Maintains.bind ?_ fun _ => maintains_pure _
                refine (maintains_onChip _).bind fun _ => (maintains_onChip _).bind fun _ => ?_
                exact (maintains_onChip _).bind fun _ => maintains_modifySlot i _

end Sockets

/-! ## Files and directories -/

section Files

variable {χ κ δ ψ : Type} (L : FatLib κ δ ψ)

/-- A call of the FatFs library changes no file structure. -/
theorem maintains_callOn {α : Type} (i : Fin openMax)
    (call : PoolObject κ δ → ψ → α × PoolObject κ δ × ψ) :
    Maintains Pointed (callOn i call : FatSys χ κ δ ψ α) := by
  refine maintains_get.bind fun w => Maintains.bind (maintains_modify fun _ h => h) fun _ => ?_
  exact Maintains.bind (maintains_modify fun _ h => h) fun _ => maintains_pure _

theorem maintains_callLib {α : Type} (call : ψ → α × ψ) :
    Maintains Pointed (callLib call : FatSys χ κ δ ψ α) := by
  refine maintains_get.bind fun w => Maintains.bind (maintains_modify fun _ h => h) fun _ => ?_
  exact maintains_pure _

/-- The objects of the FatFs library are no part of the file table. -/
theorem maintains_modifyPool (i : Fin openMax) (f : PoolEntry κ δ → PoolEntry κ δ) :
    Maintains Pointed (modifyPool i f : FatSys χ κ δ ψ Unit) := maintains_modify fun _ h => h

theorem maintains_failWith {α : Type} (result : FResult) (ret : α) :
    Maintains Pointed (failWith result ret : FatSys χ κ δ ψ α) :=
  Maintains.bind (maintains_modify fun _ h => h) fun _ => maintains_pure _

/-- Looking an object up changes nothing. -/
theorem maintains_poolIndex (p : Opaque) :
    Maintains Pointed (poolIndex p : FatSys χ κ δ ψ (Option (Fin openMax))) := by
  cases p with
  | null => exact maintains_pure _
  | fil i => exact maintains_pure _
  | dir i => exact maintains_pure _
  | slot i => exact maintains_throw _

/-- A FatFs function maintains what it does with the object it finds. -/
theorem maintains_withObject {α : Type} (fd : ℤ) (err : α)
    {reg dir : Fd → Fin openMax → FatSys χ κ δ ψ α} {rest : FatSys χ κ δ ψ α}
    (hreg : ∀ f i, Maintains Pointed (reg f i)) (hdir : ∀ f i, Maintains Pointed (dir f i))
    (hrest : Maintains Pointed rest) : Maintains Pointed (withObject fd err reg dir rest) := by
  refine (maintains_fileStructGet fd).bind fun r => ?_
  cases r with
  | none => exact maintains_fail _ _
  | some d =>
      refine maintains_get.bind fun w => (maintains_poolIndex _).bind fun r => ?_
      cases r with
      | none => exact maintains_fail _ _
      | some i =>
          cases (w.files d).stat.fileType with
          | reg => exact hreg _ i
          | dir => exact hdir _ i
          | unset | chr | sock => exact hrest

/-- `fatfs_write` changes the object and `errno`. -/
theorem maintains_fatfsWrite (fd : ℤ) (buf : List Byte) :
    Maintains Pointed (fatfsWrite L fd buf : FatSys χ κ δ ψ ℤ) := by
  refine maintains_withObject fd _ (fun f i => ?_) (fun _ _ => maintains_fail _ _)
    (maintains_fail _ _)
  have hwrite : Maintains Pointed (do
      let r ← callOn i (L.fWrite buf)
      if r.1 = .ok then pure (wrap32 r.2) else failWith r.1 (-1) : FatSys χ κ δ ψ ℤ) :=
    (maintains_callOn i _).bind fun _ => (maintains_pure _).ite (maintains_failWith _ _)
  refine maintains_get.bind fun w => Maintains.ite ?_ ?_
  · exact (maintains_callOn i _).bind fun _ => (maintains_failWith _ _).ite hwrite
  · exact (maintains_pure _).bind fun _ => (maintains_failWith _ _).ite hwrite

theorem maintains_fatfsRead (fd : ℤ) (len : ℕ) :
    Maintains Pointed (fatfsRead L fd len : FatSys χ κ δ ψ (ℤ × List Byte)) := by
  refine maintains_withObject fd _ (fun f i => ?_) (fun _ _ => maintains_fail _ _)
    (maintains_fail _ _)
  exact (maintains_callOn i _).bind fun _ => (maintains_pure _).ite (maintains_failWith _ _)

/-- `fatfs_lseek` changes the object and `errno`. -/
theorem maintains_fatfsLseek (fd : ℤ) (offset : BitVec 32) (whence : Whence) :
    Maintains Pointed (fatfsLseek L fd offset whence : FatSys χ κ δ ψ ℤ) := by
  refine maintains_withObject fd _ (fun f i => ?_) (fun _ _ => maintains_fail _ _)
    (maintains_fail _ _)
  refine maintains_get.bind fun w => (maintains_callOn i _).bind fun _ => ?_
  exact (maintains_pure _).ite (maintains_failWith _ _)

/-- `fatfs_close` closes the entry and gives the object back. -/
theorem maintains_fatfsClose (fd : ℤ) :
    Maintains Pointed (fatfsClose L fd : FatSys χ κ δ ψ ℤ) := by
  have hobject : ∀ (call : PoolObject κ δ → ψ → FResult × PoolObject κ δ × ψ) i,
      Maintains Pointed (closeObject call fd i : FatSys χ κ δ ψ ℤ) := by
    intro call i
    refine (maintains_callOn i call).bind fun _ => Maintains.ite ?_ (maintains_failWith _ _)
    refine Maintains.bind (maintains_modifyPool i _) fun _ => ?_
    exact (maintains_fileFree fd).bind fun _ => maintains_pure _
  exact maintains_withObject fd _ (fun _ i => hobject _ i) (fun _ i => hobject _ i)
    (maintains_fail _ _)

theorem maintains_fatfsFsync (fSync : PoolObject κ δ → ψ → FResult × PoolObject κ δ × ψ)
    (fd : ℤ) : Maintains Pointed (fatfsFsync fSync fd : FatSys χ κ δ ψ ℤ) := by
  refine (maintains_fileStructGet fd).bind fun r => ?_
  cases r with
  | none => exact maintains_fail _ _
  | some d =>
      refine maintains_get.bind fun w => (maintains_fail _ _).ite ?_
      refine Maintains.ite ((maintains_poolIndex _).bind fun r => ?_) (maintains_fail _ _)
      cases r with
      | none => exact maintains_fail _ _
      | some i =>
          exact (maintains_callOn i _).bind fun _ =>
            (maintains_pure _).ite (maintains_failWith _ _)

/-- `fatfs_fdopendir` looks the object up. -/
theorem maintains_fatfsFdopendir (fd : ℤ) :
    Maintains Pointed (fatfsFdopendir fd : FatSys χ κ δ ψ Opaque) := by
  refine (maintains_fileStructGet fd).bind fun r => ?_
  cases r with
  | none => exact maintains_fail _ _
  | some d => exact maintains_get.bind fun _ => (maintains_pure _).ite (maintains_fail _ _)

/-- `fill_fd` makes an entry one of a file or a directory. -/
theorem maintains_fillFd (d : Fin openMax) (p : Opaque) (flags : BitVec 32) (fno : FilInfo) :
    Maintains Pointed (fillFd d p flags fno : FatSys χ κ δ ψ Unit) := by
  refine maintains_modifyFile d fun _ _ hsock => ?_
  have htype : (fillStat fno).fileType = .sock := hsock
  unfold fillStat at htype
  cases hdir : fno.isDir with
  | true =>
      rw [hdir] at htype
      cases htype
  | false =>
      rw [hdir] at htype
      cases htype

/-- An object is taken, and no file structure changed. -/
theorem maintains_fatfsFildirAlloc :
    Maintains Pointed (fatfsFildirAlloc : FatSys χ κ δ ψ (Option (Fin openMax))) := by
  refine maintains_get.bind fun w => ?_
  cases firstFreePool w.fat.pool with
  | none => exact maintains_pure _
  | some i => exact (maintains_modifyPool i _).bind fun _ => maintains_pure _

/-- `fatfs_open` makes no entry one of a socket. -/
theorem maintains_fatfsOpen (pathname : String) (flags : BitVec 32) :
    Maintains Pointed (fatfsOpen L pathname flags : FatSys χ κ δ ψ ℤ) := by
  have hdir : ∀ d fno, Maintains Pointed
      (fatfsOpenDir L pathname flags d fno : FatSys χ κ δ ψ FResult) := by
    intro d fno
    refine maintains_fatfsFildirAlloc.bind fun r => ?_
    cases r with
    | none => exact maintains_pure _
    | some i =>
        refine (maintains_callLib _).bind fun r => Maintains.ite ?_ ?_
        · refine (maintains_modifyPool i _).bind fun _ => ?_
          exact (maintains_fillFd d _ _ _).bind fun _ => maintains_pure _
        · exact Maintains.bind (maintains_modifyPool i _) fun _ => maintains_pure _
  have hfile : ∀ d fno, Maintains Pointed
      (fatfsOpenFile L pathname flags d fno : FatSys χ κ δ ψ FResult) := by
    intro d fno
    refine maintains_fatfsFildirAlloc.bind fun r => ?_
    cases r with
    | none => exact maintains_pure _
    | some i =>
        -- both ways through the second `f_stat` end here
        have hend : ∀ (result : FResult) (fno : FilInfo), Maintains Pointed (do
            if result = .ok then fillFd d (.fil i) flags fno else fatfsFildirFree i
            pure result : FatSys χ κ δ ψ FResult) := by
          intro result fno
          refine Maintains.ite ?_ ?_
          · exact (maintains_fillFd d _ _ _).bind fun _ => maintains_pure _
          · exact Maintains.bind (maintains_modifyPool i _) fun _ => maintains_pure _
        refine (maintains_callLib _).bind fun r => (maintains_modifyPool i _).bind fun _ => ?_
        refine Maintains.ite ?_ ?_
        · exact (maintains_callLib _).bind fun r => hend r.1 r.2
        · exact (maintains_pure _).bind fun _ => hend _ _
  have hany : ∀ d, Maintains Pointed
      (fatfsOpenFileOrDir L pathname flags d : FatSys χ κ δ ψ FResult) := by
    intro d
    refine (maintains_callLib _).bind fun r => (maintains_pure _).ite ?_
    exact (hdir d _).ite (hfile d _)
  refine maintains_fileAlloc.bind fun r => ?_
  cases r with
  | none => exact maintains_fail _ _
  | some d =>
      refine (hany d).bind fun result => (maintains_pure _).ite ?_
      exact (maintains_fileFree _).bind fun _ => maintains_failWith _ _

end Files

/-! ## All calls -/

section Calls

variable {χ κ δ ψ : Type} (B : Board χ) (L : FatLib κ δ ψ)
  (fSync : PoolObject κ δ → ψ → FResult × PoolObject κ δ × ψ) (fuel : ℕ)
  {w w₀ : World χ (FatFs κ δ ψ)}

/-- A system call maintains what it does with an open descriptor. -/
theorem maintains_withOpen {α : Type} (fd : ℤ) (err : α)
    {body : Fin openMax → Fd → FatSys χ κ δ ψ α} (hbody : ∀ d f, Maintains Pointed (body d f)) :
    Maintains Pointed (withOpen fd err body) := by
  refine (maintains_fileStructGet fd).bind fun r => ?_
  cases r with
  | none => exact maintains_fail _ _
  | some d => exact maintains_get.bind fun w => (maintains_fail _ _).ite (hbody d _)

/-! ### The system calls -/

/-- `_write` passes the call on. -/
theorem maintains_sysWrite (fd : ℤ) (buf : List Byte) :
    Maintains Pointed (sysWrite B L fuel fd buf) := by
  refine maintains_withOpen fd _ fun d f => ?_
  cases f.write with
  | none => exact maintains_fail _ _
  | some driver =>
      cases driver with
      | usart =>
          refine maintains_get.bind fun w => ?_
          exact Maintains.bind (maintains_modify fun _ h => h) fun _ => maintains_pure _
      | fatfs => exact maintains_fatfsWrite L fd buf
      | w5100 => exact maintains_of_turned fun _ => turned_send B fuel fd buf

theorem maintains_sysRead (fd : ℤ) (len : ℕ) : Maintains Pointed (sysRead B L fuel fd len) := by
  refine maintains_withOpen fd _ fun d f => ?_
  cases f.read with
  | none => exact maintains_fail _ _
  | some driver =>
      cases driver with
      | usart =>
          refine (maintains_pure _).ite ((maintains_onChip _).bind fun _ => ?_)
          exact (maintains_onChip _).bind fun _ => maintains_pure _
      | fatfs => exact maintains_fatfsRead L fd len
      | w5100 =>
          refine Maintains.bind ?_ fun _ => maintains_pure _
          exact maintains_of_turned fun _ => turned_recvfrom B fuel fd len false

/-- `_close` passes the call on, or clears `isopen`. -/
theorem maintains_sysClose (fd : ℤ) : Maintains Pointed (sysClose B L fuel fd) := by
  refine maintains_withOpen fd _ fun d f => ?_
  have hconsole : Maintains Pointed (do
      modifyFile d fun f => { f with isopen := false }
      pure 0 : FatSys χ κ δ ψ ℤ) := by
    refine Maintains.bind ?_ fun _ => maintains_pure _
    exact maintains_modifyFile d fun _ hg => hg
  cases f.close with
  | none => exact hconsole
  | some driver =>
      cases driver with
      | usart => exact hconsole
      | fatfs => exact maintains_fatfsClose L fd
      | w5100 => exact maintains_sockClose B fuel fd

theorem maintains_sysLseek (fd : ℤ) (offset : BitVec 32) (whence : Whence) :
    Maintains Pointed (sysLseek L fd offset whence : FatSys χ κ δ ψ ℤ) := by
  refine maintains_withOpen fd _ fun d f => ?_
  cases f.stat.fileType with
  | sock => exact maintains_fail _ _
  | reg => exact maintains_fatfsLseek L fd offset whence
  | unset | chr | dir => exact maintains_fail _ _

/-- `_fstat` copies what is stored. -/
theorem maintains_sysFstat (fd : ℤ) :
    Maintains Pointed (sysFstat fd : FatSys χ κ δ ψ (ℤ × Option Stat)) :=
  maintains_withOpen fd _ fun _ _ => maintains_pure _

theorem maintains_sysIsatty (fd : ℤ) : Maintains Pointed (sysIsatty fd : FatSys χ κ δ ψ ℤ) :=
  maintains_withOpen fd _ fun _ _ => (maintains_pure _).ite (maintains_fail _ _)

/-- The calls that read the slot of a descriptor. -/
theorem maintains_readSlot {α : Type} (fd : ℤ) (err : α) {body : Slot → FatSys χ κ δ ψ α}
    (hbody : ∀ s, Maintains Pointed (body s)) :
    Maintains Pointed (do
      match ← getSocketFromFd fd with
      | none => pure err
      | some i => body (← getSlot i) : FatSys χ κ δ ψ α) := by
  refine (maintains_getSocketFromFd fd).bind fun r => ?_
  cases r with
  | none => exact maintains_pure _
  | some i => exact (maintains_getSlot i).bind fun s => hbody s

/-- `getsockname` and `getpeername` only read. -/
theorem maintains_getName (fd : ℤ) (address : Slot → SockaddrIn) (unknown : Errno)
    (wantAddr : Bool) (addressLen : Option ℕ) :
    Maintains Pointed (getName address unknown fd wantAddr addressLen :
      FatSys χ κ δ ψ (ℤ × Option (SockaddrIn × ℕ))) :=
  maintains_readSlot fd _ fun _ =>
    (maintains_fail _ _).ite ((maintains_fail _ _).ite (maintains_pure _))

/-- `getsockopt` only reads. -/
theorem maintains_getsockopt (fd : ℤ) (solSocket : Bool) (name : OptionName) :
    Maintains Pointed (getsockopt fd solSocket name : FatSys χ κ δ ψ (ℤ × Option OptionValue)) := by
  refine maintains_readSlot fd _ fun s => (maintains_fail _ _).ite ?_
  cases name with
  | other => exact maintains_fail _ _
  | acceptconn | broadcast | rcvtimeo | sndtimeo | type => exact maintains_pure _

/-- **Every call on a descriptor** leaves all entries pointed. -/
theorem maintains_fdCall (fd : ℤ) (call : FdCall) :
    Maintains Pointed (call.exec B L fSync fuel fd) := by
  cases call with
  | write buf => exact maintains_sysWrite B L fuel fd buf
  | read len => exact maintains_sysRead B L fuel fd len
  | close => exact maintains_sysClose B L fuel fd
  | fstat => exact maintains_sysFstat fd
  | isatty => exact maintains_sysIsatty fd
  | lseek offset whence => exact maintains_sysLseek L fd offset whence
  | fsync => exact maintains_fatfsFsync fSync fd
  | fcntl cmd => exact maintains_of_turned fun _ => turned_fcntl fd cmd
  | fdopendir => exact maintains_fatfsFdopendir fd
  | bind addr => exact maintains_of_turned fun _ => turned_bind B fuel fd addr
  | connect addr => exact maintains_of_turned fun _ => turned_connect B fuel fd addr
  | listen => exact maintains_of_turned fun _ => turned_listen B fuel fd
  | accept wantAddr => exact maintains_accept B fuel fd wantAddr
  | send buf => exact maintains_of_turned fun _ => turned_send B fuel fd buf
  | sendto buf dest => exact maintains_of_turned fun _ => turned_sendto B fuel fd buf dest
  | recv len => exact maintains_of_turned fun _ => turned_recvfrom B fuel fd len false
  | recvfrom len wantAddr =>
      exact maintains_of_turned fun _ => turned_recvfrom B fuel fd len wantAddr
  | setsockopt solSocket option =>
      exact maintains_of_turned fun _ => turned_setsockopt fd solSocket option
  | getsockopt solSocket name => exact maintains_getsockopt fd solSocket name
  | getsockname wantAddr len => exact maintains_getName fd _ _ wantAddr len
  | getpeername wantAddr len => exact maintains_getName fd _ _ wantAddr len

/-- Every call keeps the entries of socket type pointing to slots. -/
theorem maintains_exec (call : ℕ × ProgCall χ) :
    Maintains Pointed (ProgCall.exec B L fSync call) := by
  obtain ⟨fuel, call⟩ := call
  cases call with
  | openPath pathname flags =>
      exact (maintains_fatfsOpen L pathname flags).bind fun _ => maintains_pure _
  | socket domain type protocol =>
      exact (maintains_socket B domain type protocol).bind fun _ => maintains_pure _
  | on fd call => exact (maintains_fdCall B L fSync fuel fd call).bind fun _ => maintains_pure _
  | poll fd events =>
      refine Maintains.bind ?_ fun _ => maintains_pure _
      exact maintains_of_files fun _ => (same_pollOne B fd events).mono fun _ _ h => h.files
  | event chip => exact maintains_modify fun _ h => h

/-! ## No closed descriptor is dead -/

/-- They are when the program starts. -/
theorem pointed_start (hfiles : w₀.files = stdioInit) : Pointed w₀ := by
  intro d hsock
  rw [hfiles] at hsock
  unfold stdioInit stdioFd at hsock
  split_ifs at hsock
  cases hsock

/-- **In every run all entries stay pointed**. -/
theorem pointed_of_run {ok : World χ (FatFs κ δ ψ) → ℕ × ProgCall χ → Prop}
    (h : Pointed w₀) (hrun : Run (ProgCall.exec B L fSync) ok w₀ w) : Pointed w :=
  hrun.invariant h fun w call h _ => maintains_exec B L fSync call w h

/-- A state behind a `close` is one that a run reaches. -/
theorem ClosedSince.pointed {d : Fin openMax} (h : ClosedSince B L fSync w₀ w d)
    (hfiles : w₀.files = stdioInit) : Pointed w := by
  obtain ⟨w₁, w₂, fuel, hbefore, hclose, hafter⟩ := h
  have h₁ : Pointed w₁ := pointed_of_run B L fSync (pointed_start hfiles) hbefore
  have h₂ : Pointed w₂ := maintains_sysClose B L fuel _ w₁ h₁ _ _ hclose
  exact pointed_of_run B L fSync h₂ hafter

/-! ### `connect` on a closed descriptor -/

/-- `get_socket_from_fd` finds a slot, or answers `ENOTSOCK`. -/
theorem post_getSocketFromFd_pointed {φ : Type} {w : World χ φ} (h : Pointed w)
    {d : Fin openMax} {Q : Option (Fin nSockets) → World χ φ → Prop}
    (hnone : Q none (w.setErrno .ENOTSOCK)) (hsome : ∀ i, Q (some i) w) :
    Post (getSocketFromFd (d.val : ℤ)) Q w := by
  unfold getSocketFromFd
  rw [fileStructGet_coe, post_bind, post_pure]
  dsimp only
  rw [post_bind, post_get, post_ite]
  constructor
  · intro _
    exact post_fail.2 hnone
  · intro hsock
    obtain ⟨i, hptr⟩ := h d (not_not.1 hsock)
    rw [hptr]
    exact post_pure.2 (hsome i)

/-- **`connect` never fails with `EBADF`**, whatever the descriptor is. -/
theorem connect_errno {φ : Type} {w : World χ φ} (h : Pointed w) (d : Fin openMax)
    (addr : SockaddrIn) :
    Post (W5100.connect B fuel (d.val : ℤ) addr)
      (fun r w' => r = -1 → w'.errno ≠ some .EBADF) w := by
  have hfail : ∀ (e : Errno) (w : World χ φ), e ≠ .EBADF →
      Post (fail e (-1)) (fun r w' => r = -1 → w'.errno ≠ some .EBADF) w := by
    intro e w he
    refine post_fail.2 fun _ heq => he ?_
    exact Option.some.inj heq
  have hzero : ∀ w : World χ φ, Post (pure 0 : Sys χ φ ℤ)
      (fun r w' => r = -1 → w'.errno ≠ some .EBADF) w :=
    fun _ => post_pure.2 fun h0 => absurd h0 (by decide)
  unfold W5100.connect
  rw [post_bind]
  -- `get_socket_from_fd` finds the slot, or the type is not that of a socket
  refine post_getSocketFromFd_pointed h (post_pure.2 fun _ => ?_) fun i => ?_
  · rw [World.setErrno_errno]
    exact fun heq => Errno.noConfusion (Option.some.inj heq)
  dsimp only
  rw [post_bind, post_getSlot]
  cases (w.sockets i).type with
  | stream =>
      dsimp only
      unfold connectTcp
      rw [post_bind, post_getSlot]
      simp only [post_ite]
      refine ⟨fun _ => hfail _ _ Errno.noConfusion, fun _ =>
        ⟨fun _ => hfail _ _ Errno.noConfusion, fun _ =>
          ⟨fun _ => hfail _ _ Errno.noConfusion, fun _ => ?_⟩⟩⟩
      apply post_onChip_bind
      intro _ _
      apply post_onChip_bind
      intro _ _
      apply post_onChip_bind
      intro _ _
      apply post_onChip_bind
      intro _ _
      apply post_onChip_bind
      intro _ _
      apply post_onChip_bind
      intro _ _
      apply post_onChip_bind
      intro sr _
      rw [post_ite]
      refine ⟨fun _ => ?_, fun _ => hfail _ _ Errno.noConfusion⟩
      rw [post_bind, post_modifySlot]
      exact hzero _
  -- a datagram socket only stores the peer
  | dgram =>
      dsimp only
      unfold connectUdp
      cases addr.sinFamily with
      | unspec =>
          dsimp only
          rw [post_bind, post_modifySlot, post_bind]
          exact fun _ w' _ => hzero w'
      | inet =>
          dsimp only
          rw [post_bind, post_modifySlot, post_bind]
          exact fun _ w' _ => hzero w'
      | other => exact hfail _ _ Errno.noConfusion
  | raw => exact hfail _ _ Errno.noConfusion
  | other => exact hfail _ _ Errno.noConfusion

/-- **No closed descriptor is refused by every call**: in every run of both drivers, after
`close(d)` has returned 0 and while `d` is not handed out again, `connect` on `d` does not
fail with `EBADF` for any address; and if `isopen` is still set, as `fatfs_close` leaves it,
`fstat` succeeds. -/
theorem closed_not_dead {w₀ w : World χ (FatFs κ δ ψ)} {d : Fin openMax}
    (hfiles : w₀.files = stdioInit) (hclosed : ClosedSince B L fSync w₀ w d) :
    ¬ Dead B L fSync w d ∧
      (∀ addr fuel w', W5100.connect B fuel (d.val : ℤ) addr w = .ok (-1, w') →
        w'.errno ≠ some .EBADF) ∧
      ((w.files d).isopen = true → sysFstat (d.val : ℤ) w = .ok ((0, some (w.files d).stat), w)) := by
  have h : Pointed w := hclosed.pointed B L fSync hfiles
  have hconnect : ∀ addr fuel w', W5100.connect B fuel (d.val : ℤ) addr w = .ok (-1, w') →
      w'.errno ≠ some .EBADF :=
    fun addr fuel w' heq => connect_errno B fuel h d addr _ _ heq rfl
  refine ⟨fun hdead => ?_, hconnect, fstat_of_open⟩
  obtain ⟨w', hret, herrno, -⟩ := hdead.refused (.connect ⟨.inet, 0, 0⟩) trivial 0
  exact hconnect _ _ _ hret herrno

end Calls

/-! ## A file that is opened and closed -/

/-- A file is opened and closed. -/
theorem closedSince_file : ∃ w : World Unit (FatFs Unit Unit Bool),
    ClosedSince idleBoard oneKindLib oneKindLib.fClose (oneKindBoot false) w 3 ∧
      (w.files 3).isopen = true := by
  obtain ⟨w₁, hopen⟩ : ∃ w₁, ProgCall.exec idleBoard oneKindLib oneKindLib.fClose
      (0, .openPath "A" 0) (oneKindBoot false) = .ok ((), w₁) := ⟨_, rfl⟩
  have hclose : ∃ w₂, sysClose idleBoard oneKindLib 0 3 w₁ = .ok (0, w₂) ∧
      (w₂.files 3).isopen = true := by
    cases hopen
    exact ⟨_, rfl, rfl⟩
  obtain ⟨w₂, hzero, hisopen⟩ := hclose
  exact ⟨w₂, ⟨w₁, w₂, 0, .step .start trivial hopen, hzero, .start⟩, hisopen⟩

/-- The closed descriptor is not dead. -/
theorem closed_not_dead_file : ∃ w : World Unit (FatFs Unit Unit Bool),
    ClosedSince idleBoard oneKindLib oneKindLib.fClose (oneKindBoot false) w 3 ∧
      ¬ Dead idleBoard oneKindLib oneKindLib.fClose w 3 := by
  obtain ⟨w, hclosed, -⟩ := closedSince_file
  exact ⟨w, hclosed, (closed_not_dead _ _ _ rfl hclosed).1⟩

/-- `fstat` of the closed file succeeds. -/
theorem closedFile_fstat : ∃ w : World Unit (FatFs Unit Unit Bool),
    ClosedSince idleBoard oneKindLib oneKindLib.fClose (oneKindBoot false) w 3 ∧
      (∃ stat, sysFstat 3 w = .ok ((0, some stat), w)) ∧
      ¬ Dead idleBoard oneKindLib oneKindLib.fClose w 3 := by
  obtain ⟨w, hclosed, hisopen⟩ := closedSince_file
  have hfstat : sysFstat 3 w = .ok ((0, some (w.files 3).stat), w) := fstat_of_open hisopen
  refine ⟨w, hclosed, ⟨_, hfstat⟩, fun hdead => ?_⟩
  obtain ⟨w', hret, -⟩ := hdead.refused .fstat trivial 0
  have heq := hfstat.symm.trans hret
  cases heq

end Nucleo
