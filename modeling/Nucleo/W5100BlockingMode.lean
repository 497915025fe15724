/-
# Whose flags decide whether a call waits

A listening descriptor and the descriptor of an accepted connection share a slot, and
`accept`, `recvfrom` and `send` take `O_NONBLOCK` from the flags of the slot's `fd_data`,
which is the listening descriptor.  For `accept` this is the descriptor it is called with,
for the data calls it is the other one.

Two states that differ in status flags only are compared, on every board:
`blocking_mode_iff` says when a call has the same outcome in both.
-/
import Nucleo.Lib.TwoRuns
import Nucleo.W5100Fifo
import Nucleo.W5100NullDeref

namespace Nucleo

/-- An entry without its status flags. -/
def Fd.unflagged (f : Fd) : Fd := { f with statusFlags := 0 }

/-- A field that is no flag is the same in two structures that differ in flags. -/
theorem Fd.eq_of_unflagged {β : Type} {a b : Fd} (field : Fd → β)
    (hfield : ∀ f : Fd, field f.unflagged = field f) (h : a.unflagged = b.unflagged) :
    field a = field b := by
  rw [← hfield a, h, hfield b]

namespace W5100

open Comp

/-! ## States that differ in flags -/

/-- `flags & O_NONBLOCK`. -/
def nonblockFlag (flags : BitVec 32) : Bool := flags &&& oNonblock != 0

/-- The tables are the same but for status flags, and so is `errno`. -/
structure SameButFlags {χ φ : Type} (w w' : World χ φ) : Prop where
  files : ∀ d, (w.files d).unflagged = (w'.files d).unflagged
  sockets : w.sockets = w'.sockets
  errno : w.errno = w'.errno
  fat : w.fat = w'.fat

/-- The same, with the same chip. -/
structure FlagsApart {χ φ : Type} (w w' : World χ φ) : Prop extends SameButFlags w w' where
  chip : w.chip = w'.chip

section Respects

variable {χ φ : Type} (B : Board χ) (fuel : ℕ) {w w' : World χ φ}

/-- The same entries are allocated. -/
theorem FlagsApart.isallocated (h : FlagsApart w w') (d : Fin openMax) :
    (w.files d).isallocated = (w'.files d).isallocated :=
  Fd.eq_of_unflagged Fd.isallocated (fun _ => rfl) (h.files d)

/-- They have the same status. -/
theorem FlagsApart.stat (h : FlagsApart w w') (d : Fin openMax) :
    (w.files d).stat = (w'.files d).stat :=
  Fd.eq_of_unflagged Fd.stat (fun _ => rfl) (h.files d)

/-- Entries change in the same way. -/
theorem FlagsApart.setFile (h : FlagsApart w w') (d : Fin openMax) {f f' : Fd}
    (hf : f.unflagged = f'.unflagged) :
    FlagsApart (w.setFile d f) (w'.setFile d f') := by
  refine ⟨⟨fun d' => ?_, h.sockets, h.errno, h.fat⟩, h.chip⟩
  rw [World.setFile_files, World.setFile_files]
  by_cases hd : d' = d
  · subst hd
    rw [Function.update_self, Function.update_self]
    exact hf
  · rw [Function.update_of_ne hd, Function.update_of_ne hd]
    exact h.files d'

/-- Both set `errno`. -/
theorem FlagsApart.setErrno (h : FlagsApart w w') (e : Errno) :
    FlagsApart (w.setErrno e) (w'.setErrno e) := ⟨⟨h.files, h.sockets, rfl, h.fat⟩, h.chip⟩

/-- Both put the chip into the same state. -/
theorem FlagsApart.setChip (h : FlagsApart w w') (c : χ) :
    FlagsApart (w.setChip c) (w'.setChip c) := ⟨⟨h.files, h.sockets, h.errno, h.fat⟩, rfl⟩

/-- An error is the same in both. -/
theorem respects_fail {α : Type} (e : Errno) (ret : α) :
    Respects FlagsApart (fail e ret : Sys χ φ α) :=
  (respects_modify fun _ _ h => h.setErrno e).bind fun _ => respects_pure ret

theorem respects_setErrno (e : Errno) : Respects FlagsApart (setErrno e : Sys χ φ Unit) :=
  respects_modify fun _ _ h => h.setErrno e

/-- The chip is the same in both. -/
theorem respects_onChip {α : Type} (x : Comp χ Stop α) :
    Respects FlagsApart (onChip x : Sys χ φ α) :=
  Respects.focus x (fun _ _ h => h.chip) (fun c _ _ h => h.setChip c)

/-- The sockets are the same in both. -/
theorem respects_getSlot (i : Fin nSockets) :
    Respects FlagsApart (getSlot i : Sys χ φ Slot) := by
  refine respects_get (fun w => respects_pure _) fun w w' h => ?_
  rw [h.sockets]

/-- Both change the same socket. -/
theorem respects_modifySlot (i : Fin nSockets) (f : Slot → Slot) :
    Respects FlagsApart (modifySlot i f : Sys χ φ Unit) := by
  refine respects_modify fun w w' h => ⟨⟨h.files, ?_, h.errno, h.fat⟩, h.chip⟩
  show Function.update w.sockets i _ = Function.update w'.sockets i _
  rw [h.sockets]

/-- A change of a file structure has to respect the flags. -/
theorem respects_modifyFile (d : Fin openMax) {f : Fd → Fd}
    (hf : ∀ a b, a.unflagged = b.unflagged → (f a).unflagged = (f b).unflagged) :
    Respects FlagsApart (modifyFile d f : Sys χ φ Unit) :=
  respects_modify fun _ _ h => h.setFile d (hf _ _ (h.files d))

/-- Both take the same entry. -/
theorem respects_fileAlloc :
    Respects FlagsApart (fileAlloc : Sys χ φ (Option (Fin openMax))) := by
  refine respects_get (fun w => ?_) fun w w' h => ?_
  · cases firstFree w.files with
    | none => exact respects_pure _
    | some d => exact (respects_modifyFile d fun _ _ _ => rfl).bind fun _ => respects_pure _
  · have heq : firstFree w.files = firstFree w'.files := by
      unfold firstFree
      simp only [h.isallocated]
    rw [heq]

theorem respects_fillFdStruct (d : Fin openMax) (i : Fin nSockets) :
    Respects FlagsApart (fillFdStruct d i : Sys χ φ Unit) := by
  refine respects_modifyFile d fun a b hab => ?_
  have hfd : a.fd = b.fd := Fd.eq_of_unflagged Fd.fd (fun _ => rfl) hab
  have hstat : a.stat = b.stat := Fd.eq_of_unflagged Fd.stat (fun _ => rfl) hab
  have halloc : a.isallocated = b.isallocated :=
    Fd.eq_of_unflagged Fd.isallocated (fun _ => rfl) hab
  have hflags : a.descriptorFlags = b.descriptorFlags :=
    Fd.eq_of_unflagged Fd.descriptorFlags (fun _ => rfl) hab
  unfold Fd.unflagged
  rw [hfd, hstat, halloc, hflags]

/-! ## The loops -/

/-- The mode is an argument here, and no flag. -/
theorem respects_timeoutUnless (nonblock : Bool) (timeout : Timespec) :
    Respects FlagsApart (timeoutUnless B nonblock timeout : Sys χ φ TimeoutManager) :=
  Respects.ite (respects_pure _) (Respects.ite
    ((respects_onChip _).bind fun _ => respects_pure _) (respects_pure _))

theorem respects_timeoutEnded (tom : TimeoutManager) :
    Respects FlagsApart (timeoutEnded B tom : Sys χ φ Bool) := by
  cases tom with
  | none => exact respects_pure _
  | some tend =>
      exact (respects_onChip _).bind fun _ => Respects.ite (respects_fail _ _) (respects_pure _)

/-- A connection is taken down in both. -/
theorem respects_manageDisconnect (i : Fin nSockets) :
    Respects FlagsApart (manageDisconnect B fuel i : Sys χ φ Bool) := by
  refine (respects_getSlot i).bind fun s => (respects_onChip _).bind fun sr => ?_
  refine Respects.ite ?_ (respects_pure _)
  refine (respects_setErrno _).bind fun _ => (respects_onChip _).bind fun _ => ?_
  refine (respects_onChip _).bind fun _ => (respects_getSlot i).bind fun s' => ?_
  refine Respects.ite (Respects.bind ?_ fun _ => respects_pure _)
    ((respects_modifySlot i _).bind fun _ => respects_pure _)
  refine (respects_onChip _).bind fun _ => (respects_onChip _).bind fun _ => ?_
  exact (respects_onChip _).bind fun _ => respects_modifySlot i _

/-- The loop of `recv` does not look at flags. -/
theorem respects_recvLoop (i : Fin nSockets) (len : ℕ) (wantAddr nonblock : Bool)
    (tom : TimeoutManager) :
    Respects FlagsApart (recvLoop B fuel i len wantAddr nonblock tom : Sys χ φ Received) := by
  have hround : Respects FlagsApart
      (recvRound B fuel i len wantAddr : Sys χ φ (Option Received)) := by
    refine (respects_getSlot i).bind fun s => ?_
    cases s.type with
    | stream =>
        refine (respects_onChip _).bind fun r => Respects.ite (respects_pure _) ?_
        exact (respects_manageDisconnect B fuel i).bind fun _ =>
          Respects.ite (respects_pure _) (respects_pure _)
    | dgram =>
        refine (respects_onChip _).bind fun _ => Respects.ite ?_ (respects_pure _)
        exact (respects_onChip _).bind fun _ => respects_pure _
    | raw => exact respects_pure _
    | other => exact respects_pure _
  unfold recvLoop
  apply Respects.iter
  intro _
  refine hround.bind fun r => ?_
  cases r with
  | some r => exact respects_pure _
  | none =>
      refine Respects.ite (respects_fail _ _) ((respects_timeoutEnded B tom).bind fun _ => ?_)
      exact Respects.ite (respects_pure _) (respects_pure _)

/-- The loop of `send` does not look at flags. -/
theorem respects_sendLoop (i : Fin nSockets) (nonblock : Bool) (tom : TimeoutManager)
    (buf : List Byte) :
    Respects FlagsApart (sendLoop B fuel i nonblock tom buf : Sys χ φ (List Byte)) := by
  unfold sendLoop
  apply Respects.iter
  intro bytes
  refine Respects.ite (respects_pure _) ((respects_getSlot i).bind fun s => ?_)
  refine (respects_onChip _).bind fun n => ?_
  refine Respects.ite (Respects.ite (respects_pure _) (respects_pure _)) ?_
  refine (respects_manageDisconnect B fuel i).bind fun _ => Respects.ite (respects_pure _) ?_
  refine Respects.ite (respects_fail _ _) ((respects_timeoutEnded B tom).bind fun _ => ?_)
  exact Respects.ite (respects_pure _) (respects_pure _)

/-- The loop of `accept` does not look at flags. -/
theorem respects_acceptLoop (i : Fin nSockets) (wantAddr nonblock : Bool) :
    Respects FlagsApart
      (acceptLoop B fuel i wantAddr nonblock : Sys χ φ (ℤ × Option SockaddrIn)) := by
  have hestablished : Respects FlagsApart
      (acceptEstablished B fuel i wantAddr : Sys χ φ (ℤ × Option SockaddrIn)) := by
    refine (respects_getSlot i).bind fun s => respects_fileAlloc.bind fun r => ?_
    cases r with
    | none =>
        refine (respects_setErrno _).bind fun _ => (respects_onChip _).bind fun _ => ?_
        exact (respects_onChip _).bind fun _ => (respects_onChip _).bind fun _ => respects_pure _
    | some d =>
        refine (respects_modifySlot i _).bind fun _ => (respects_fillFdStruct d _).bind fun _ => ?_
        refine (respects_modifySlot i _).bind fun _ => Respects.ite ?_ (respects_pure _)
        exact (respects_onChip _).bind fun _ => (respects_onChip _).bind fun _ => respects_pure _
  unfold acceptLoop
  apply Respects.iter
  intro _
  refine (respects_getSlot i).bind fun s => (respects_onChip _).bind fun sr => ?_
  refine Respects.ite (hestablished.bind fun _ => respects_pure _) ?_
  exact Respects.ite (respects_fail _ _) (respects_pure _)

end Respects

/-! ## The calls -/

/-- The state of a program with these tables, on some board. -/
def Tables.on (T : Tables) {χ φ : Type} (errno : Option Errno) (chip : χ) (fat : φ) :
    World χ φ := ⟨T.files, T.sockets, errno, chip, fat⟩

/-- Set the status flags of a descriptor, as `F_SETFL` does. -/
def Tables.setFlags (T : Tables) (d : Fin openMax) (flags : BitVec 32) : Tables :=
  T.setFile d { T.files d with statusFlags := flags }

/-- A listening descriptor `l` and the descriptor `c` of an accepted connection share the
slot `i`. -/
structure Shared (T : Tables) (l c : Fin openMax) (i : Fin nSockets) : Prop where
  ne : l ≠ c
  listener : (T.sockets i).fdData = some l
  stream : (T.sockets i).type = .stream
  listenerFile : (T.files l).stat.fileType = .sock ∧ (T.files l).opaquePtr = .slot i
  connectionFile : (T.files c).stat.fileType = .sock ∧ (T.files c).opaquePtr = .slot i

/-- Whatever the chip does from now on, the call has the same outcome from both tables. -/
def SameOutcome {φ α : Type} (fat : φ) (call : ∀ χ : Type, Board χ → ℕ → Sys χ φ α)
    (T T' : Tables) : Prop :=
  ∀ (χ : Type) (B : Board χ) (fuel : ℕ) (errno : Option Errno) (chip : χ),
    Agree SameButFlags (call χ B fuel (T.on errno chip fat)) (call χ B fuel (T'.on errno chip fat))

section Calls

variable {χ φ : Type} (B : Board χ) (fuel : ℕ) {w w' : World χ φ} {T : Tables}
  {l c d : Fin openMax} {i : Fin nSockets} {v u : BitVec 32}

/-- The tables with the flags `v` on the listening descriptor and `u` on the other one. -/
def Tables.withModes (T : Tables) (l c : Fin openMax) (v u : BitVec 32) : Tables :=
  (T.setFlags l v).setFlags c u

/-- Setting the flags changes nothing else. -/
theorem Tables.setFlags_unflagged (T : Tables) (d : Fin openMax) (flags : BitVec 32)
    (d' : Fin openMax) : ((T.setFlags d flags).files d').unflagged = (T.files d').unflagged := by
  unfold Tables.setFlags
  by_cases hd : d' = d
  · subst hd
    rw [Tables.setFile_files_self]
    rfl
  · rw [Tables.setFile_files_of_ne _ _ hd]

/-- The two states differ in flags only. -/
theorem flagsApart_withModes (T : Tables) (l c : Fin openMax) (v v' u u' : BitVec 32)
    (errno : Option Errno) (chip : χ) (fat : φ) :
    FlagsApart ((T.withModes l c v u).on errno chip fat)
      ((T.withModes l c v' u').on errno chip fat) := by
  refine ⟨⟨fun d => ?_, rfl, rfl, rfl⟩, rfl⟩
  show ((T.withModes l c v u).files d).unflagged = ((T.withModes l c v' u').files d).unflagged
  unfold Tables.withModes
  simp only [Tables.setFlags_unflagged]

/-- Setting the flags of both leaves them shared. -/
theorem Shared.withModes (h : Shared T l c i) (v u : BitVec 32) :
    Shared (T.withModes l c v u) l c i where
  ne := h.ne
  listener := h.listener
  stream := h.stream
  listenerFile := by
    have hun : ((T.withModes l c v u).files l).unflagged = (T.files l).unflagged := by
      unfold Tables.withModes
      simp only [Tables.setFlags_unflagged]
    rw [Fd.eq_of_unflagged Fd.stat (fun _ => rfl) hun,
      Fd.eq_of_unflagged Fd.opaquePtr (fun _ => rfl) hun]
    exact h.listenerFile
  connectionFile := by
    have hun : ((T.withModes l c v u).files c).unflagged = (T.files c).unflagged := by
      unfold Tables.withModes
      simp only [Tables.setFlags_unflagged]
    rw [Fd.eq_of_unflagged Fd.stat (fun _ => rfl) hun,
      Fd.eq_of_unflagged Fd.opaquePtr (fun _ => rfl) hun]
    exact h.connectionFile

/-- The listener has the flags that are set. -/
theorem Shared.statusFlags (h : Shared T l c i) (v u : BitVec 32) :
    ((T.withModes l c v u).files l).statusFlags = v := by
  unfold Tables.withModes Tables.setFlags
  rw [Tables.setFile_files_of_ne _ _ h.ne, Tables.setFile_files_self]

/-- The mode of a call on the slot is that of the listening descriptor. -/
theorem Shared.isNonblock (h : Shared T l c i) (v u : BitVec 32) (errno : Option Errno)
    (chip : χ) (fat : φ) :
    isNonblock i ((T.withModes l c v u).on errno chip fat) =
      .ok (nonblockFlag v, (T.withModes l c v u).on errno chip fat) := by
  rw [isNonblock_of_fdData (w := (T.withModes l c v u).on errno chip fat)
    (h.withModes v u).listener]
  show Except.ok (nonblockFlag ((T.withModes l c v u).files l).statusFlags, _) = _
  rw [h.statusFlags]

/-! ### The calls as functions of the mode -/

/-- `recv` from the slot, with the mode as an argument. -/
def recvStream (i : Fin nSockets) (len : ℕ) (nonblock : Bool) : Sys χ φ Received := do
  let s ← getSlot i
  let tom ← timeoutUnless B nonblock s.recvTimeout
  recvLoop B fuel i len false nonblock tom

/-- `send` on the slot, with the mode as an argument. -/
def sendStream (i : Fin nSockets) (buf : List Byte) (nonblock : Bool) : Sys χ φ ℤ := do
  let s ← getSlot i
  let tom ← timeoutUnless B nonblock s.sendTimeout
  let rest ← sendLoop B fuel i nonblock tom buf
  pure (wrap32 (buf.length - rest.length))

/-- Looking at the mode leaves the state alone. -/
theorem isNonblock_state {nb : Bool} (h : isNonblock i w = .ok (nb, w')) : w' = w := by
  unfold isNonblock at h
  rw [bind_eq, show getSlot i w = .ok (w.sockets i, w) from rfl] at h
  dsimp only at h
  cases hd : (w.sockets i).fdData with
  | none =>
      rw [hd] at h
      cases h
  | some d =>
      rw [hd] at h
      cases h
      rfl

/-- `recv` on a stream. -/
theorem recv_of_stream {c : Fin openMax} (hsock : (w.files c).stat.fileType = .sock)
    (hptr : (w.files c).opaquePtr = .slot i) (htype : (w.sockets i).type = .stream) (len : ℕ) :
    recv B fuel (c.val : ℤ) len w =
      (if (w.sockets i).state ≠ .accepted ∧ (w.sockets i).state ≠ .connected then
        fail .ENOTCONN (Received.empty 1)
      else if len = 0 then pure (Received.empty 0)
      else isNonblock i >>= recvStream B fuel i len) w := by
  unfold recv recvfrom
  rw [bind_eq, getSocketFromFd_of_sock hsock hptr]
  dsimp only
  rw [bind_eq, show getSlot i w = .ok (w.sockets i, w) from rfl]
  dsimp only
  rw [htype]
  by_cases hst : (w.sockets i).state ≠ .accepted ∧ (w.sockets i).state ≠ .connected
  · rw [if_pos ⟨rfl, hst⟩, if_pos hst]
  · rw [if_neg (fun hc => hst hc.2), if_neg (fun hc => SockType.noConfusion hc.1), if_neg hst]
    by_cases hlen : len = 0
    · rw [if_pos hlen, if_pos hlen]
    · rw [if_neg hlen, if_neg hlen, bind_eq, bind_eq]
      cases hnb : isNonblock i w with
      | error e => rfl
      | ok r =>
          obtain ⟨nb, w1⟩ := r
          obtain rfl := isNonblock_state hnb
          rfl

/-- `send` on a stream. -/
theorem send_of_stream {c : Fin openMax} (hsock : (w.files c).stat.fileType = .sock)
    (hptr : (w.files c).opaquePtr = .slot i) (htype : (w.sockets i).type = .stream)
    (buf : List Byte) :
    send B fuel (c.val : ℤ) buf w =
      (if (w.sockets i).state ≠ .accepted ∧ (w.sockets i).state ≠ .connected then
        fail .ENOTCONN 1
      else isNonblock i >>= sendStream B fuel i buf) w := by
  unfold send
  rw [bind_eq, getSocketFromFd_of_sock hsock hptr]
  dsimp only
  rw [bind_eq, show getSlot i w = .ok (w.sockets i, w) from rfl]
  dsimp only
  rw [htype]
  unfold sendTcp
  dsimp only
  rw [bind_eq, show getSlot i w = .ok (w.sockets i, w) from rfl]
  dsimp only
  by_cases hst : (w.sockets i).state ≠ .accepted ∧ (w.sockets i).state ≠ .connected
  · rw [if_pos hst, if_pos hst]
  · rw [if_neg hst, if_neg hst, bind_eq, bind_eq]
    cases hnb : isNonblock i w with
    | error e => rfl
    | ok r =>
        obtain ⟨nb, w1⟩ := r
        obtain rfl := isNonblock_state hnb
        rfl

/-- `recv` on the descriptor of the connection. -/
theorem Shared.recv_eq (h : Shared T l c i) (len : ℕ) (errno : Option Errno) (chip : χ)
    (fat : φ) : recv B fuel (c.val : ℤ) len ((T.withModes l c v u).on errno chip fat) =
      (if (T.sockets i).state ≠ .accepted ∧ (T.sockets i).state ≠ .connected then
        fail .ENOTCONN (Received.empty 1)
      else if len = 0 then pure (Received.empty 0)
      else recvStream B fuel i len (nonblockFlag v)) ((T.withModes l c v u).on errno chip fat) := by
  have hc := (h.withModes v u).connectionFile
  rw [recv_of_stream B fuel (w := (T.withModes l c v u).on errno chip fat) hc.1 hc.2 h.stream]
  show (if (T.sockets i).state ≠ .accepted ∧ (T.sockets i).state ≠ .connected then _
    else _ : Sys χ φ Received) _ = _
  split_ifs
  · rfl
  · rfl
  · rw [bind_eq, h.isNonblock]

/-- `send` on it. -/
theorem Shared.send_eq (h : Shared T l c i) (buf : List Byte) (errno : Option Errno) (chip : χ)
    (fat : φ) : send B fuel (c.val : ℤ) buf ((T.withModes l c v u).on errno chip fat) =
      (if (T.sockets i).state ≠ .accepted ∧ (T.sockets i).state ≠ .connected then
        fail .ENOTCONN 1
      else sendStream B fuel i buf (nonblockFlag v)) ((T.withModes l c v u).on errno chip fat) := by
  have hc := (h.withModes v u).connectionFile
  rw [send_of_stream B fuel (w := (T.withModes l c v u).on errno chip fat) hc.1 hc.2 h.stream]
  show (if (T.sockets i).state ≠ .accepted ∧ (T.sockets i).state ≠ .connected then _
    else _ : Sys χ φ ℤ) _ = _
  split_ifs
  · rfl
  · rw [bind_eq, h.isNonblock]

/-! ## Equal modes -/

theorem respects_recvStream (len : ℕ) (nonblock : Bool) :
    Respects FlagsApart (recvStream B fuel i len nonblock : Sys χ φ Received) :=
  (respects_getSlot i).bind fun _ => (respects_timeoutUnless B nonblock _).bind fun tom =>
    respects_recvLoop B fuel i len false nonblock tom

theorem respects_sendStream (buf : List Byte) (nonblock : Bool) :
    Respects FlagsApart (sendStream B fuel i buf nonblock : Sys χ φ ℤ) :=
  (respects_getSlot i).bind fun _ => (respects_timeoutUnless B nonblock _).bind fun tom =>
    (respects_sendLoop B fuel i nonblock tom buf).bind fun _ => respects_pure _

/-- An empty buffer is sent in either mode. -/
theorem agree_sendStream_nil (nonblock nonblock' : Bool) (h : SameButFlags w w') :
    Agree SameButFlags (sendStream B fuel i [] nonblock w) (sendStream B fuel i [] nonblock' w') := by
  have htom : ∀ (nb : Bool) (w : World χ φ), ∃ tom c,
      timeoutUnless B nb (w.sockets i).sendTimeout w = .ok (tom, w.setChip c) := by
    intro nb w
    unfold timeoutUnless timeoutInit
    split_ifs
    · exact ⟨none, w.chip, rfl⟩
    · exact ⟨_, (B.clockGettime w.chip).2, rfl⟩
    · exact ⟨none, w.chip, rfl⟩
  have hsend : ∀ (nb : Bool) (w : World χ φ), ∃ c, sendStream B fuel i [] nb w =
      match fuel with
      | 0 => .error .waiting
      | _ + 1 => .ok (0, w.setChip c) := by
    intro nb w
    obtain ⟨tom, c, heq⟩ := htom nb w
    refine ⟨c, ?_⟩
    unfold sendStream
    rw [bind_eq, show getSlot i w = .ok (w.sockets i, w) from rfl]
    dsimp only
    rw [bind_eq, heq]
    cases fuel with
    | zero => rfl
    | succ n => rfl
  obtain ⟨c, hc⟩ := hsend nonblock w
  obtain ⟨c', hc'⟩ := hsend nonblock' w'
  rw [hc, hc']
  cases fuel with
  | zero => exact rfl
  | succ n => exact ⟨rfl, h.files, h.sockets, h.errno, h.fat⟩

/-! ## Different modes

The chip below is connected and has neither data nor room; its clock stands still at the
end of the wait.  A call that waits waits for ever.
-/

/-- A chip on which nothing happens. -/
def silentBoard (tend : Timespec) : Board Bool where
  read reg c := (if reg % 0x100 = regSR then sockEstablished else 0, c)
  write _ _ c := c
  clockGettime c := (if c then tend else timespecZero, true)
  usartReady c := (true, c)
  usartRecv c := (0, c)
  usartSend _ c := c

end Calls

section Silent

variable {φ : Type} {tend : Timespec} {fuel : ℕ} {w : World Bool φ} {i : Fin nSockets}

/-- All registers but the status registers are zero. -/
theorem silent_readByte {reg : ℕ} (hreg : reg % 2 ^ 16 % 0x100 ≠ regSR) (b : Bool) :
    readByte (silentBoard tend) reg b = .ok (0, b) := by
  unfold readByte silentBoard
  dsimp only
  rw [if_neg hreg]

/-- Its chip never has data, or room. -/
theorem silent_readSockReg16 {r : ℕ} (hr : r = regRXRSR ∨ r = regTXFSR) (j : Fin nSockets)
    (b : Bool) : readSockReg16 (silentBoard tend) r j b = .ok (0, b) := by
  have hj : j.val < 4 := j.isLt
  have haddr : sockRegGet r j % 2 ^ 16 % 0x100 ≠ regSR ∧
      (sockRegGet r j + 1) % 2 ^ 16 % 0x100 ≠ regSR := by
    unfold sockRegGet s0RegsOffset socketRegsSize regSR
    rcases hr with rfl | rfl
    · unfold regRXRSR
      omega
    · unfold regTXFSR
      omega
  unfold readSockReg16 readMem readMem
  rw [bind_eq, bind_eq, silent_readByte haddr.1]
  dsimp only
  rw [bind_eq, bind_eq, silent_readByte haddr.2]
  rfl

/-- Nothing is ever received. -/
theorem silent_readBuf (j : Fin nSockets) (len : ℕ) (b : Bool) :
    readBuf (silentBoard tend) fuel j len b = .ok (([], 0), b) := by
  unfold readBuf readBufLen
  rw [bind_eq, bind_eq, silent_readSockReg16 (.inl rfl)]
  rfl

/-- Nothing is ever sent. -/
theorem silent_writeBuf (j : Fin nSockets) (buf : List Byte) (b : Bool) :
    writeBuf (silentBoard tend) fuel j buf b = .ok (0, b) := by
  unfold writeBuf writeBufLen
  rw [bind_eq, bind_eq, silent_readSockReg16 (.inr rfl)]
  rfl

/-- The connection stays. -/
theorem silent_manageDisconnect : manageDisconnect (silentBoard tend) fuel i w = .ok (false, w) := by
  have hsr : ∀ j, readSockReg (silentBoard tend) regSR j w.chip = .ok (sockEstablished, w.chip) := by
    intro j
    fin_cases j <;> rfl
  unfold manageDisconnect
  rw [bind_eq, show getSlot i w = .ok (w.sockets i, w) from rfl]
  dsimp only
  rw [bind_eq, show onChip (readSockReg (silentBoard tend) regSR (w.sockets i).isocket) w =
    .ok (sockEstablished, w) by unfold onChip focus; rw [hsr]; rfl]
  rfl

/-- No time passes between a reading and itself. -/
theorem timespecDiff_self (t : Timespec) : (timespecDiff t t).2 = 0 := by
  unfold timespecDiff
  simp [wrap32]

/-! ### The end of the wait -/

/-- The wait does not end. -/
theorem silent_timeoutEnded {tom : TimeoutManager} (htom : tom = none ∨ tom = some tend ∧ w.chip = true) :
    timeoutEnded (silentBoard tend) tom w = .ok (false, w) := by
  rcases htom with rfl | ⟨rfl, hchip⟩
  · rfl
  · unfold timeoutEnded
    dsimp only
    rw [bind_eq, show onChip (clockGettime (silentBoard tend)) w = .ok (tend, w) by
      unfold onChip focus clockGettime silentBoard
      dsimp only
      rw [hchip]
      show Except.ok (tend, w.setChip true) = _
      rw [← hchip]
      rfl]
    dsimp only
    rw [timespecDiff_self]
    rfl

/-- The wait does not end in the first pass. -/
theorem silent_timeoutUnless {timeout : Timespec} (hchip : w.chip = false)
    (htend : tend = timespecAdd timespecZero timeout) :
    ∃ tom c, timeoutUnless (silentBoard tend) false timeout w = .ok (tom, w.setChip c) ∧
      (tom = none ∨ tom = some tend ∧ c = true) := by
  unfold timeoutUnless timeoutInit
  rw [if_neg Bool.false_ne_true]
  by_cases hz : (timespecDiff timespecZero timeout).2 ≠ 0
  · rw [if_pos hz]
    refine ⟨some tend, true, ?_, .inr ⟨rfl, rfl⟩⟩
    rw [bind_eq, show onChip (clockGettime (silentBoard tend)) w =
      .ok (timespecZero, w.setChip true) by
        unfold onChip focus clockGettime silentBoard
        dsimp only
        rw [hchip]
        rfl]
    rw [htend]
    rfl
  · rw [if_neg hz]
    exact ⟨none, w.chip, rfl, .inl rfl⟩

/-! ### The calls on this board -/

/-- Nothing to receive. -/
theorem silent_recvRound (htype : (w.sockets i).type = .stream) (len : ℕ) :
    recvRound (silentBoard tend) fuel i len false w = .ok (none, w) := by
  unfold recvRound
  rw [bind_eq, show getSlot i w = .ok (w.sockets i, w) from rfl]
  dsimp only
  rw [htype]
  dsimp only
  rw [bind_eq, show onChip (readBuf (silentBoard tend) fuel (w.sockets i).isocket len) w =
    .ok (([], 0), w) by unfold onChip focus; rw [silent_readBuf]; rfl]
  dsimp only
  rw [if_neg (not_not.2 rfl), bind_eq, silent_manageDisconnect]
  rfl

/-- Without waiting, `recv` gives up. -/
theorem silent_recvStream_nonblock (htype : (w.sockets i).type = .stream) (len : ℕ) :
    recvStream (silentBoard tend) 1 i len true w = .ok (Received.empty (-1), w.setErrno .EAGAIN) := by
  unfold recvStream
  rw [bind_eq, show getSlot i w = .ok (w.sockets i, w) from rfl]
  dsimp only
  rw [bind_eq, show timeoutUnless (silentBoard tend) true (w.sockets i).recvTimeout w =
    .ok (none, w) from rfl]
  dsimp only
  unfold recvLoop
  apply iter_succ_of_inr
  rw [bind_eq, silent_recvRound htype]
  rfl

/-- With waiting, it waits. -/
theorem silent_recvStream_block (hchip : w.chip = false)
    (htend : tend = timespecAdd timespecZero (w.sockets i).recvTimeout)
    (htype : (w.sockets i).type = .stream) (len : ℕ) :
    recvStream (silentBoard tend) 1 i len false w = .error .waiting := by
  obtain ⟨tom, c, htom, hend⟩ := silent_timeoutUnless hchip htend
  unfold recvStream
  rw [bind_eq, show getSlot i w = .ok (w.sockets i, w) from rfl]
  dsimp only
  rw [bind_eq, htom]
  dsimp only
  unfold recvLoop iter
  rw [bind_eq, bind_eq, silent_recvRound (w := w.setChip c) htype]
  dsimp only
  rw [if_neg Bool.false_ne_true, bind_eq, silent_timeoutEnded (w := w.setChip c) hend]
  rfl

/-- The call that does not block fails. -/
theorem silent_sendStream_nonblock {buf : List Byte} (hbuf : buf ≠ []) :
    sendStream (silentBoard tend) 1 i buf true w = .ok (0, w.setErrno .EAGAIN) := by
  have hlen : buf.length ≠ 0 := fun h => hbuf (List.length_eq_zero_iff.1 h)
  unfold sendStream
  rw [bind_eq, show getSlot i w = .ok (w.sockets i, w) from rfl]
  dsimp only
  rw [bind_eq, show timeoutUnless (silentBoard tend) true (w.sockets i).sendTimeout w =
    .ok (none, w) from rfl]
  dsimp only
  have hloop : sendLoop (silentBoard tend) 1 i true none buf w = .ok (buf, w.setErrno .EAGAIN) := by
    unfold sendLoop
    apply iter_succ_of_inr
    rw [if_neg hlen, bind_eq, show getSlot i w = .ok (w.sockets i, w) from rfl]
    dsimp only
    rw [bind_eq, show onChip (writeBuf (silentBoard tend) 1 (w.sockets i).isocket buf) w =
      .ok (0, w) by unfold onChip focus; rw [silent_writeBuf]; rfl]
    dsimp only
    rw [if_neg (by omega), bind_eq, silent_manageDisconnect]
    rfl
  rw [bind_eq, hloop]
  dsimp only
  rw [sub_self]
  rfl

/-- The call that blocks is still waiting. -/
theorem silent_sendStream_block {buf : List Byte} (hbuf : buf ≠ []) (hchip : w.chip = false)
    (htend : tend = timespecAdd timespecZero (w.sockets i).sendTimeout) :
    sendStream (silentBoard tend) 1 i buf false w = .error .waiting := by
  have hlen : buf.length ≠ 0 := fun h => hbuf (List.length_eq_zero_iff.1 h)
  obtain ⟨tom, c, htom, hend⟩ := silent_timeoutUnless hchip htend
  unfold sendStream
  rw [bind_eq, show getSlot i w = .ok (w.sockets i, w) from rfl]
  dsimp only
  rw [bind_eq, htom]
  dsimp only
  have hloop : sendLoop (silentBoard tend) 1 i false tom buf (w.setChip c) = .error .waiting := by
    unfold sendLoop iter
    rw [bind_eq, if_neg hlen, bind_eq,
      show getSlot i (w.setChip c) = .ok (w.sockets i, w.setChip c) from rfl]
    dsimp only
    rw [bind_eq, show onChip (writeBuf (silentBoard tend) 1 (w.sockets i).isocket buf) (w.setChip c) =
      .ok (0, w.setChip c) by unfold onChip focus; rw [silent_writeBuf]; rfl]
    dsimp only
    rw [if_neg (by omega), bind_eq, silent_manageDisconnect]
    dsimp only
    rw [if_neg Bool.false_ne_true, if_neg Bool.false_ne_true, bind_eq,
      silent_timeoutEnded (w := w.setChip c) hend]
    rfl
  rw [bind_eq, hloop]

end Silent

/-! ## When the mode is the descriptor's own -/

section Main

variable {φ : Type} (fat : φ) {T : Tables} {l c : Fin openMax} {i : Fin nSockets} {v v' u u' : BitVec 32}

/-- A call that looks at the mode, in two states with different modes. -/
theorem not_agree_of_modes {α : Type} {k : Bool → Sys Bool φ α} {w w' : World Bool φ}
    {nb nb' : Bool} (hne : nb ≠ nb')
    (htrue : ∀ w₁, w₁ = w ∨ w₁ = w' → ∃ r, k true w₁ = .ok r)
    (hfalse : ∀ w₁, w₁ = w ∨ w₁ = w' → k false w₁ = .error .waiting) :
    ¬ Agree SameButFlags (k nb w) (k nb' w') := by
  cases nb with
  | true =>
      obtain rfl : nb' = false := by
        cases nb' with
        | true => exact absurd rfl hne
        | false => rfl
      obtain ⟨r, hr⟩ := htrue w (.inl rfl)
      rw [hr, hfalse w' (.inr rfl)]
      exact id
  | false =>
      obtain rfl : nb' = true := by
        cases nb' with
        | true => rfl
        | false => exact absurd rfl hne
      obtain ⟨r, hr⟩ := htrue w' (.inr rfl)
      rw [hr, hfalse w (.inl rfl)]
      exact id

theorem not_connected {s : Slot} : ¬ s.Connected ↔ s.state ≠ .accepted ∧ s.state ≠ .connected :=
  not_or

/-! ### The three calls -/

/-- For `recv` the flags of the connection decide, on a connection and for a length. -/
theorem sameOutcome_recv_iff (h : Shared T l c i) (len : ℕ) :
    SameOutcome fat (fun _ B fuel => recv B fuel (c.val : ℤ) len) (T.withModes l c v u)
        (T.withModes l c v' u') ↔
      nonblockFlag v = nonblockFlag v' ∨ ¬ (T.sockets i).Connected ∨ len = 0 := by
  rw [not_connected]
  constructor
  · intro hsame
    by_contra hcond
    rw [not_or, not_or] at hcond
    obtain ⟨hbits, hst, hlen⟩ := hcond
    -- on a silent board one mode gives `EAGAIN` and the other waits
    have hagree := hsame Bool (silentBoard (timespecAdd timespecZero (T.sockets i).recvTimeout)) 1
      none false
    dsimp only at hagree
    rw [h.recv_eq, h.recv_eq, if_neg hst, if_neg hlen, if_neg hst, if_neg hlen] at hagree
    refine not_agree_of_modes (k := recvStream _ 1 i len) hbits (fun w₁ hw => ?_)
      (fun w₁ hw => ?_) hagree
    · have htype : (w₁.sockets i).type = .stream := by
        rcases hw with rfl | rfl <;> exact h.stream
      exact ⟨_, silent_recvStream_nonblock htype len⟩
    · have hslot : w₁.sockets i = T.sockets i ∧ w₁.chip = false := by
        rcases hw with rfl | rfl <;> exact ⟨rfl, rfl⟩
      refine silent_recvStream_block hslot.2 ?_ ?_ len
      · rw [hslot.1]
      · rw [hslot.1]
        exact h.stream
  · intro hcond χ B fuel errno chip
    have hapart := flagsApart_withModes T l c v v' u u' errno chip fat
    dsimp only
    rw [h.recv_eq, h.recv_eq]
    by_cases hst : (T.sockets i).state ≠ .accepted ∧ (T.sockets i).state ≠ .connected
    · rw [if_pos hst, if_pos hst]
      exact (respects_fail _ _ _ _ hapart).mono fun _ _ h => h.toSameButFlags
    · rw [if_neg hst, if_neg hst]
      by_cases hlen : len = 0
      · rw [if_pos hlen, if_pos hlen]
        exact ⟨rfl, hapart.toSameButFlags⟩
      · rw [if_neg hlen, if_neg hlen,
          hcond.resolve_right fun hor => hor.elim hst hlen]
        exact (respects_recvStream B fuel len _ _ _ hapart).mono fun _ _ h => h.toSameButFlags

/-- For `send` the flags of the connection decide, on a connection and with data. -/
theorem sameOutcome_send_iff (h : Shared T l c i) (buf : List Byte) :
    SameOutcome fat (fun _ B fuel => send B fuel (c.val : ℤ) buf) (T.withModes l c v u)
        (T.withModes l c v' u') ↔
      nonblockFlag v = nonblockFlag v' ∨ ¬ (T.sockets i).Connected ∨ buf = [] := by
  rw [not_connected]
  constructor
  · intro hsame
    by_contra hcond
    rw [not_or, not_or] at hcond
    obtain ⟨hbits, hst, hbuf⟩ := hcond
    have hagree := hsame Bool (silentBoard (timespecAdd timespecZero (T.sockets i).sendTimeout)) 1
      none false
    dsimp only at hagree
    rw [h.send_eq, h.send_eq, if_neg hst, if_neg hst] at hagree
    refine not_agree_of_modes (k := sendStream _ 1 i buf) hbits
      (fun w₁ _ => ⟨_, silent_sendStream_nonblock hbuf⟩) (fun w₁ hw => ?_) hagree
    have hslot : w₁.sockets i = T.sockets i ∧ w₁.chip = false := by
      rcases hw with rfl | rfl <;> exact ⟨rfl, rfl⟩
    refine silent_sendStream_block hbuf hslot.2 ?_
    rw [hslot.1]
  · intro hcond χ B fuel errno chip
    have hapart := flagsApart_withModes T l c v v' u u' errno chip fat
    dsimp only
    rw [h.send_eq, h.send_eq]
    by_cases hst : (T.sockets i).state ≠ .accepted ∧ (T.sockets i).state ≠ .connected
    · rw [if_pos hst, if_pos hst]
      exact (respects_fail _ _ _ _ hapart).mono fun _ _ h => h.toSameButFlags
    · rw [if_neg hst, if_neg hst]
      rcases hcond with hbits | hc | hbuf
      · rw [hbits]
        exact (respects_sendStream B fuel buf _ _ _ hapart).mono fun _ _ h => h.toSameButFlags
      · exact absurd hc hst
      · -- nothing to send: only the clock may be read
        subst hbuf
        exact agree_sendStream_nil B fuel _ _ hapart.toSameButFlags

/-- `accept` looks at the flags of the descriptor it is called with. -/
theorem sameOutcome_accept (h : Shared T l c i) (hbits : nonblockFlag v = nonblockFlag v')
    (wantAddr : Bool) :
    SameOutcome fat (fun _ B fuel => accept B fuel (l.val : ℤ) wantAddr) (T.withModes l c v u)
      (T.withModes l c v' u') := by
  intro χ B fuel errno chip
  have hapart := flagsApart_withModes T l c v v' u u' errno chip fat
  have hl := (h.withModes v u).listenerFile
  have hl' := (h.withModes v' u').listenerFile
  dsimp only
  unfold accept
  rw [bind_eq, getSocketFromFd_of_sock (w := (T.withModes l c v u).on errno chip fat) hl.1 hl.2,
    bind_eq, getSocketFromFd_of_sock (w := (T.withModes l c v' u').on errno chip fat) hl'.1 hl'.2]
  show Agree SameButFlags
    ((if (T.sockets i).state ≠ .listening then fail .EINVAL (1, none)
      else if (T.sockets i).type ≠ .stream then fail .EOPNOTSUPP (-1, none)
      else isNonblock i >>= acceptLoop B fuel i wantAddr : Sys χ φ (ℤ × Option SockaddrIn)) _)
    ((if (T.sockets i).state ≠ .listening then fail .EINVAL (1, none)
      else if (T.sockets i).type ≠ .stream then fail .EOPNOTSUPP (-1, none)
      else isNonblock i >>= acceptLoop B fuel i wantAddr : Sys χ φ (ℤ × Option SockaddrIn)) _)
  split_ifs
  · exact (respects_fail _ _ _ _ hapart).mono fun _ _ h => h.toSameButFlags
  · exact (respects_fail _ _ _ _ hapart).mono fun _ _ h => h.toSameButFlags
  · rw [bind_eq, bind_eq, h.isNonblock, h.isNonblock, hbits]
    exact (respects_acceptLoop B fuel i wantAddr _ _ _ hapart).mono fun _ _ h => h.toSameButFlags

/-- **Whose flags decide.**  The listening descriptor has the flags `v` in one state and `v'`
in the other, the descriptor of the connection `u` and `u'`.  `recv` and `send` on the
connection have the same outcome in both if and only if `O_NONBLOCK` is the same in `v` and
`v'`, or they return before they look at it; `accept` on the listening descriptor has it
whenever `O_NONBLOCK` is the same there. -/
theorem blocking_mode_iff (h : Shared T l c i) (v v' u u' : BitVec 32) :
    (∀ len, SameOutcome fat (fun _ B fuel => recv B fuel (c.val : ℤ) len)
        (T.withModes l c v u) (T.withModes l c v' u') ↔
      nonblockFlag v = nonblockFlag v' ∨ ¬ (T.sockets i).Connected ∨ len = 0) ∧
    (∀ buf, SameOutcome fat (fun _ B fuel => send B fuel (c.val : ℤ) buf)
        (T.withModes l c v u) (T.withModes l c v' u') ↔
      nonblockFlag v = nonblockFlag v' ∨ ¬ (T.sockets i).Connected ∨ buf = []) ∧
    (nonblockFlag v = nonblockFlag v' → ∀ wantAddr,
      SameOutcome fat (fun _ B fuel => accept B fuel (l.val : ℤ) wantAddr)
        (T.withModes l c v u) (T.withModes l c v' u')) :=
  ⟨fun len => sameOutcome_recv_iff fat h len, fun buf => sameOutcome_send_iff fat h buf,
    fun hbits wantAddr => sameOutcome_accept fat h hbits wantAddr⟩

end Main

/-! ## A server with two modes -/

instance (T : Tables) (l c : Fin openMax) (i : Fin nSockets) : Decidable (Shared T l c i) :=
  decidable_of_iff (l ≠ c ∧ (T.sockets i).fdData = some l ∧ (T.sockets i).type = .stream ∧
      ((T.files l).stat.fileType = .sock ∧ (T.files l).opaquePtr = .slot i) ∧
      ((T.files c).stat.fileType = .sock ∧ (T.files c).opaquePtr = .slot i))
    ⟨fun h => ⟨h.1, h.2.1, h.2.2.1, h.2.2.2.1, h.2.2.2.2⟩,
      fun h => ⟨h.ne, h.listener, h.stream, h.listenerFile, h.connectionFile⟩⟩

/-- The server after its first connection. -/
theorem shared_server : ∃ w₀ w,
    socketInit scriptBoard 1 none (bootWorld acceptScript noFiles) = .ok ((), w₀) ∧
    Run (NetCall.exec scriptBoard noDisk) (fun _ _ => True) w₀ w ∧
    Shared w.tables 3 4 0 ∧ (w.sockets 0).state = .accepted := by
  have hshared : (netRun scriptBoard acceptScript (fun _ _ => true) acceptCalls).any
      (fun w => Shared w.tables 3 4 0 ∧ (w.sockets 0).state = .accepted) = true := by
    decide +kernel
  obtain ⟨w, hw, h⟩ := (Option.any_eq_true _ _).1 hshared
  obtain ⟨w₀, hinit, hrun⟩ := run_of_netRun_all hw
  rw [decide_eq_true_eq] at h
  exact ⟨w₀, w, hinit, hrun, h.1, h.2⟩

/-- With equal modes of the listening descriptor, `O_NONBLOCK` on the connection changes
nothing. -/
theorem blocking_mode_server : ∃ w : World (List Byte) (Fat.FatFs Unit Unit Unit),
    SameOutcome noFiles (fun _ B fuel => recv B fuel 4 1)
      (w.tables.withModes 3 4 oRdwr oRdwr)
      (w.tables.withModes 3 4 oRdwr (oRdwr ||| oNonblock)) := by
  obtain ⟨-, w, -, -, h, -⟩ := shared_server
  exact ⟨w, ((blocking_mode_iff noFiles h oRdwr oRdwr oRdwr (oRdwr ||| oNonblock)).1 1).2
    (.inl rfl)⟩

/-- `O_NONBLOCK` on the listening descriptor changes what `recv` on the connection does. -/
theorem listenerMode_changes_recv : ∃ w₀ w,
    socketInit scriptBoard 1 none (bootWorld acceptScript noFiles) = .ok ((), w₀) ∧
    Run (NetCall.exec scriptBoard noDisk) (fun _ _ => True) w₀ w ∧ Shared w.tables 3 4 0 ∧
    ¬ SameOutcome noFiles (fun _ B fuel => recv B fuel 4 1)
      (w.tables.withModes 3 4 oRdwr oRdwr)
      (w.tables.withModes 3 4 (oRdwr ||| oNonblock) oRdwr) := by
  obtain ⟨w₀, w, hinit, hrun, h, hst⟩ := shared_server
  refine ⟨w₀, w, hinit, hrun, h, fun hsame => ?_⟩
  rcases (sameOutcome_recv_iff noFiles h 1).1 hsame with hbits | hconn | hlen
  · exact absurd hbits (by decide)
  · exact hconn (.inl hst)
  · exact absurd hlen (by decide)

end W5100

end Nucleo
