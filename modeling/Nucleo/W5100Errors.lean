/-
# The error convention of the socket calls

A call that sets `errno` returns -1, and what a call returns other than -1 is what it has
achieved: 0, a new descriptor, or the number of bytes moved (`Follows`).  The bytes that
`send` and `sendto` move are counted by the board, those of `recv` are the bytes stored.

The calls do not keep to it: `bind`, `listen`, `accept`, `send`, `recv` and `sendto` have
exits that set `errno` and return 1, and `send` on a stream returns a number of bytes also
where it gave up.  `Deviates` lists these exits by the state of the slot and by what the call
reads from the chip and the clock; `follows_iff` says that there are no others.
-/
import Nucleo.W5100Readings
import Nucleo.W5100BlockingMode
import Nucleo.W5100RecvBounds

namespace Nucleo

namespace World

variable {χ φ : Type}

/-- `errno = 0`, as a caller does that wants to see whether a call sets it. -/
def clearErrno (w : World χ φ) : World χ φ := { w with errno := none }

end World

namespace W5100

open Comp

/-! ## The convention -/

section Convention

variable {χ κ δ ψ φ : Type} (B : Board χ) (L : Fat.FatLib κ δ ψ) (fuel : ℕ)

/-- The call with the value that it returns and the number of bytes that it stores for the
caller. -/
def NetCall.execStored : ℕ × NetCall χ → Fat.FatSys χ κ δ ψ (ℤ × ℕ)
  | (fuel, .recv fd len) => do
      let r ← W5100.recv B fuel fd len
      pure (r.ret, r.buf.length)
  | (fuel, .recvfrom fd len wantAddr) => do
      let r ← W5100.recvfrom B fuel fd len wantAddr
      pure (r.ret, r.buf.length)
  | (fuel, call) => do
      let r ← NetCall.exec B L (fuel, call)
      pure (r, 0)

/-- A return of `r` with the given `errno`: -1 if it is set, and else success. -/
def Convention (success : Prop) (r : ℤ) (errno : Option Errno) : Prop :=
  (errno ≠ none → r = -1) ∧ (r ≠ -1 → success)

/-- A failure may set any `errno`. -/
theorem convention_failed {success : Prop} {errno : Option Errno} :
    Convention success (-1) errno := ⟨fun _ => rfl, fun h => absurd rfl h⟩

/-- A success sets none. -/
theorem convention_done {success : Prop} {r : ℤ} (h : success) :
    Convention success r none := ⟨fun hc => absurd rfl hc, fun _ => h⟩

/-- An error that is not reported with -1 breaks the convention. -/
theorem not_convention {success : Prop} {r : ℤ} {e : Errno} (hr : r ≠ -1) :
    ¬ Convention success r (some e) := fun h => hr (h.1 (Option.some_ne_none e))

/-- `r` is a descriptor that the call has allocated. -/
def Fresh (w w' : World χ φ) (r : ℤ) : Prop :=
  ∃ d : Fin openMax, r = (d.val : ℤ) ∧ (w.files d).isallocated = false ∧
    (w'.files d).isallocated = true

/-- The ten calls keep to the convention; the others are not looked at. -/
def Follows (w w' : World (χ × ℕ) φ) (r : ℤ × ℕ) : NetCall (χ × ℕ) → Prop
  | .socket .. | .accept .. => Convention (Fresh w w' r.1) r.1 w'.errno
  | .bind .. | .connect .. | .listen .. | .close .. => Convention (r.1 = 0) r.1 w'.errno
  | .send .. | .sendto .. => Convention (r.1 = meter w'.chip - meter w.chip) r.1 w'.errno
  | .recv .. | .recvfrom .. => Convention (r.1 = r.2) r.1 w'.errno
  | .setsockopt .. | .fcntl .. | .poll .. | .event .. => True

/-! ## Where the calls deviate -/

/-- The descriptor refers to the slot, be it open or not. -/
def SlotOf (w : World χ φ) (fd : ℤ) (i : Fin nSockets) : Prop :=
  ∃ d : Fin openMax, fd = (d.val : ℤ) ∧ (w.files d).stat.fileType = .sock ∧
    (w.files d).opaquePtr = .slot i

/-- The mode of the slot's first descriptor. -/
def ModeOf (w : World χ φ) (i : Fin nSockets) (nonblock : Bool) : Prop :=
  ∃ l, (w.sockets i).fdData = some l ∧ nonblockFlag (w.files l).statusFlags = nonblock

/-- Does the loop of `send`, with so many bytes left, come to a round that finds no room and
ends it?  That is a round in which the connection is not established, or nothing is waited for,
or the clock is past the deadline. -/
def givesUp (nonblock : Bool) (tend : TimeoutManager) : ℕ → List Look → Bool
  | len + 1, .room 0 :: .status sr :: l =>
      if sr ≠ sockEstablished ∨ nonblock then true
      else match tend, l with
        | none, l => givesUp nonblock tend (len + 1) l
        | some t, .clock now :: l =>
            (timespecDiff t now).2 < 0 || givesUp nonblock tend (len + 1) l
        | some _, _ => false
  | len + 1, .room (n + 1) :: l => !nonblock && givesUp nonblock tend (len - n) l
  | _, _ => false

/-- Does `send` give up?  With a time-out, the first reading of the clock sets the deadline. -/
def stalls (timeout : Timespec) (nonblock : Bool) (len : ℕ) (l : List Look) : Bool :=
  if nonblock = true ∨ (timespecDiff timespecZero timeout).2 = 0 then givesUp nonblock none len l
  else match l with
    | .clock now :: l => givesUp nonblock (some (timespecAdd now timeout)) len l
    | _ => false

/-- `send` on a stream, by what it reads: it is not connected, or the loop gives up, or it
writes more than an `ssize_t` can say. -/
def StreamDeviates (w : World χ φ) (i : Fin nSockets) (len : ℕ) (l : List Reading) : Prop :=
  ¬ (w.sockets i).Connected ∨
    ∃ nonblock, ModeOf w i nonblock ∧
      (stalls (w.sockets i).sendTimeout nonblock len (looks (w.sockets i).isocket 0 l) = true ∨
        nonblock = false ∧ 2 ^ 31 ≤ len ∧ len ≠ 2 ^ 32 - 1)

/-- `sendto` to a peer that it accepts, without waiting, where the room that it reads first is
less than the datagram needs. -/
def WouldBlock (w : World χ φ) (i : Fin nSockets) (len : ℕ) (peer : SockaddrIn)
    (l : List Reading) : Prop :=
  len ≤ getTxSize (w.sockets i).isocket ∧
    ¬ (peer.sinAddr = inaddrBroadcast ∧ ¬ (w.sockets i).canBroadcast) ∧ ModeOf w i true ∧
    ∃ n, firstRoom (looks (w.sockets i).isocket 0 l) = some n ∧ n < len

/-- The exits that break the convention, by the state in which the call is made and by what it
reads. -/
def Deviates (w : World χ φ) (l : List Reading) : NetCall χ → Prop
  | .bind fd addr => ∃ i, SlotOf w fd i ∧ addr.sinFamily = .inet ∧ (w.sockets i).state ≠ .created
  | .listen fd => ∃ i, SlotOf w fd i ∧ (w.sockets i).state ≠ .bound
  | .accept fd _ => ∃ i, SlotOf w fd i ∧ (w.sockets i).state ≠ .listening
  | .recv fd _ | .recvfrom fd _ _ => ∃ i, SlotOf w fd i ∧ (w.sockets i).Unconnected
  | .send fd buf => ∃ i, SlotOf w fd i ∧
      ((w.sockets i).type = .stream ∧ StreamDeviates w i buf.length l ∨
        (w.sockets i).type = .dgram ∧ (w.sockets i).destAddress.sinFamily ≠ .unspec ∧
          WouldBlock w i buf.length (w.sockets i).destAddress l)
  | .sendto fd buf dest => ∃ i, SlotOf w fd i ∧
      ((w.sockets i).type = .stream ∧ StreamDeviates w i buf.length l ∨
        (w.sockets i).type = .dgram ∧ ∃ peer, dest = some peer ∧
          WouldBlock w i buf.length peer l)
  | _ => False

/-- A call that the convention is about, with a buffer as long as a `size_t` can say;
`close` is the socket's unless the descriptor is a file. -/
def NetCall.Covered (w : World χ φ) : NetCall χ → Prop
  | .close fd => ∀ d : Fin openMax, fd = (d.val : ℤ) → (w.files d).close ≠ some .fatfs
  | .send _ buf | .sendto _ buf _ => buf.length < 2 ^ 32
  | .setsockopt .. | .fcntl .. | .poll .. | .event .. => False
  | _ => True

/-- The call of a caller that clears `errno` first. -/
def NetCall.execCleared (call : ℕ × NetCall χ) : Fat.FatSys χ κ δ ψ (ℤ × ℕ) := do
  modify World.clearErrno
  NetCall.execStored B L call

end Convention

/-! ## The slot of a descriptor -/

section Slots

variable {χ φ : Type} {w : World χ φ} {fd : ℤ} {i j : Fin nSockets}

/-- A descriptor has one slot. -/
theorem SlotOf.unique (hi : SlotOf w fd i) (hj : SlotOf w fd j) : i = j := by
  obtain ⟨d, rfl, -, hd⟩ := hi
  obtain ⟨d', heq, -, hd'⟩ := hj
  have hdd : d = d' := Fin.ext (Int.natCast_inj.1 heq)
  subst hdd
  rw [hd] at hd'
  exact Opaque.slot.inj hd'

/-- A call on a descriptor: it has a slot or it has none. -/
theorem post_withSlot {α : Type} {body : Option (Fin nSockets) → Sys χ φ α}
    {Q : α → World χ φ → Prop}
    (hnone : (∀ i, ¬ SlotOf w fd i) → ∀ w', Post (body none) Q w')
    (hsome : ∀ i, SlotOf w fd i → Post (body (some i)) Q w) :
    Post (getSocketFromFd fd >>= body) Q w := by
  rw [post_bind]
  by_cases hslot : ∃ i, SlotOf w fd i
  · obtain ⟨i, hi⟩ := hslot
    obtain ⟨d, rfl, hsock, hptr⟩ := id hi
    rw [post_getSocketFromFd_of_sock hsock hptr]
    exact hsome i hi
  · apply post_getSocketFromFd
    · intro e
      exact hnone (fun i hi => hslot ⟨i, hi⟩) _
    · intro d i hd hsock hptr
      exact absurd ⟨i, d, hd, hsock, hptr⟩ hslot

/-- What a call that goes on with the slot has in common with a condition on the slot. -/
theorem SlotOf.exists_iff (hi : SlotOf w fd i) {P : Fin nSockets → Prop} :
    (∃ j, SlotOf w fd j ∧ P j) ↔ P i := by
  constructor
  · rintro ⟨j, hj, hP⟩
    rw [hi.unique hj]
    exact hP
  · intro hP
    exact ⟨i, hi, hP⟩

end Slots

/-! ## What leaves `errno` and the count alone -/

section Ledger

variable {χ φ : Type} (B : Board χ) (fuel : ℕ)

/-- `errno` and the number of bytes sent. -/
def ledger (w : World (χ × ℕ) φ) : Option Errno × ℕ := (w.errno, meter w.chip)

/-- The ledger holds `errno` and the meter. -/
theorem ledger_eq {w w' : World (χ × ℕ) φ} (h : ledger w' = ledger w) :
    w'.errno = w.errno ∧ meter w'.chip = meter w.chip := Prod.mk.inj h

/-- Where bytes are neither sent nor `errno` set, the ledger stays. -/
theorem keeps_ledger_of_sysCode {α : Type} {x : Sys (χ × ℕ) φ α}
    (h : SysCode B.metered meterRights x) : Keeps ledger x := by
  refine h.keeps fun _ _ hstep => ?_
  cases hstep with
  | chip hx =>
      intro w
      rw [post_onChip]
      exact (keeps_meter_of_chipCode B hx w.chip).mono fun _ c hc => congrArg (Prod.mk w.errno) hc
  | get => exact keeps_get
  | setErrno _ hno => exact hno.elim
  | modifySlot _ => exact keeps_modify fun _ => rfl
  | modifyFile _ _ _ => exact keeps_modify fun _ => rfl
  | stop _ => exact fun _ => post_throw.2 trivial

/-- A transaction with the chip that sends nothing. -/
theorem keeps_ledger_onChip {α : Type} {x : Comp (χ × ℕ) Stop α}
    (h : ChipCode B.metered meterRights x) : Keeps (ledger (φ := φ)) (onChip x) :=
  keeps_ledger_of_sysCode B (made_onChip h)

/-! ### The rights to leave them -/

/-- Commands send nothing. -/
theorem meterRights_command (k : Fin nSockets) (cmd : Byte) :
    meterRights.writes (sockRegGet regCR k) cmd :=
  meterRights_register (n := 1) k (by decide) 0 cmd Nat.one_pos

/-- Binding a socket sends nothing. -/
theorem meterRights_binds : meterRights.Binds :=
  ⟨trivial, fun k => meterRights_register k (by decide), fun k => meterRights_command k _,
    fun _ _ => trivial⟩

/-- Listening again sends nothing. -/
theorem meterRights_relistens : meterRights.Relistens :=
  ⟨⟨trivial, fun k => meterRights_command k _, fun _ => trivial⟩, fun k => meterRights_command k _⟩

/-- Closing a socket sends nothing. -/
theorem meterRights_hangs : meterRights.Hangs :=
  ⟨⟨trivial, fun k => meterRights_command k _, fun k => meterRights_command k _, trivial,
    fun _ => trivial, fun _ => trivial⟩, meterRights_relistens, fun _ => trivial⟩

/-- A wait that ends sets `errno`. -/
theorem ledger_timeoutEnded (tom : TimeoutManager) (w : World (χ × ℕ) φ) :
    Post (timeoutEnded B.metered tom) (fun ended w' => meter w'.chip = meter w.chip ∧
      (if ended then w'.errno ≠ none else w'.errno = w.errno)) w := by
  cases tom with
  | none => exact post_pure.2 ⟨rfl, rfl⟩
  | some tend =>
      show Post (onChip (clockGettime B.metered) >>= _) _ w
      rw [post_bind]
      refine (keeps_ledger_onChip B (.step .clock) w).mono fun cur w1 h1 => ?_
      obtain ⟨herrno, hcount⟩ := ledger_eq h1
      rw [post_ite]
      constructor
      · intro _
        exact post_fail.2 ⟨hcount, Option.some_ne_none _⟩
      · intro _
        exact post_pure.2 ⟨hcount, herrno⟩

/-- A connection that has ended sets `errno`. -/
theorem ledger_manageDisconnect (i : Fin nSockets) (w : World (χ × ℕ) φ) :
    Post (manageDisconnect B.metered fuel i) (fun gone w' => meter w'.chip = meter w.chip ∧
      (if gone then w'.errno ≠ none else w'.errno = w.errno)) w := by
  unfold manageDisconnect
  rw [post_bind, post_getSlot, post_bind]
  refine (keeps_ledger_onChip B (.step (.read _)) w).mono fun sr w1 h1 => ?_
  obtain ⟨herrno, hcount⟩ := ledger_eq h1
  rw [post_ite]
  constructor
  · intro _
    rw [post_bind, post_setErrno]
    generalize (if sr = sockCloseWait then Errno.ECONNRESET else Errno.ETIMEDOUT) = e
    -- `errno` is set first; nothing behind it touches `errno` or sends
    have hrest : Keeps (ledger (φ := φ)) (do
        onChip (command B.metered fuel (w.sockets i).isocket cmdDiscon)
        let _ ← onChip (readUntil B.metered fuel regSR (w.sockets i).isocket
          (fun sr => sr = sockClosed))
        let s ← getSlot i
        if s.state = .accepted ∧ s.fdData ≠ none then
          relisten B.metered fuel i (w.sockets i).isocket
        else modifySlot i fun s => { s with state := .disconnected }
        pure true) := by
      refine keeps_ledger_of_sysCode B (Made.bind ?_ fun _ => Made.bind ?_ fun _ => ?_)
      · exact made_onChip (made_command fuel trivial (meterRights_command _ _))
      · exact made_onChip (made_readUntil fuel trivial _ _ _)
      · refine (made_getSlot i).bind fun s => Made.ite ?_ ?_
        · exact (made_relisten fuel meterRights_relistens i _).bind fun _ => .pure _
        · exact made_setSlot trivial _
    refine ((hrest _).and (R := fun gone _ => gone = true) ?_).mono ?_
    · rw [post_bind]
      intro _ w2 _
      rw [post_bind]
      intro _ w3 _
      rw [post_bind, post_getSlot, post_ite]
      constructor
      · intro _
        rw [post_bind]
        intro _ w4 _
        exact post_pure.2 rfl
      · intro _
        rw [post_bind]
        intro _ w4 _
        exact post_pure.2 rfl
    · rintro gone w' ⟨h', rfl⟩
      obtain ⟨herrno', hcount'⟩ := ledger_eq h'
      refine ⟨hcount'.trans hcount, ?_⟩
      rw [if_pos rfl, herrno']
      exact Option.some_ne_none e
  · intro _
    exact post_pure.2 ⟨hcount, herrno⟩

end Ledger

/-! ## The calls that open, bind and close -/

section Calls

variable {χ κ δ ψ φ : Type} (B : Board χ) (L : Fat.FatLib κ δ ψ) (fuel : ℕ)
  {w : World (χ × ℕ) φ}

/-- `socket` follows the convention. -/
theorem convention_socket (hw : w.errno = none) (domain : Family) (type : SockType)
    (protocol : ℤ) :
    Post (socket B.metered domain type protocol)
      (fun r w' => Convention (Fresh w w' r) r w'.errno) w := by
  unfold socket
  simp only [post_ite]
  refine ⟨fun _ => post_fail.2 convention_failed, fun _ => ⟨fun _ =>
    post_fail.2 convention_failed, fun _ => ⟨fun _ => post_fail.2 convention_failed, fun _ => ?_⟩⟩⟩
  unfold socketCreate socketAlloc
  rw [post_bind, post_bind, post_get]
  cases firstFreeSlot w.sockets with
  | none => exact post_fail.2 (post_fail.2 convention_failed)
  | some i =>
      dsimp only
      rw [post_bind, post_modifySlot, post_pure]
      dsimp only
      rw [post_bind]
      apply post_fileAlloc
      · dsimp only
        rw [post_bind]
        intro _ w1 _
        exact post_fail.2 convention_failed
      · intro d _ hfresh
        dsimp only
        unfold fillFdStruct
        rw [post_bind, post_modifyFile, post_bind, post_modifySlot]
        apply post_onChip_bind
        intro _ c1
        rw [post_pure]
        -- what the mode register holds does not matter from here on
        generalize hw' : World.setChip _ c1 = w'
        have herrno : w'.errno = none := by
          rw [← hw']
          exact hw
        have halloc : (w'.files d).isallocated = true := by
          rw [← hw']
          simp only [World.setChip_files, World.setSlot_files, World.setFile_files,
            Function.update_self]
        rw [herrno]
        exact convention_done ⟨d, rfl, hfresh, halloc⟩

/-- `bind` does, but for a socket that is no longer new. -/
theorem convention_bind (hw : w.errno = none) (fd : ℤ) (addr : SockaddrIn) :
    Post (W5100.bind B.metered fuel fd addr) (fun r w' => Convention (r = 0) r w'.errno ↔
      ¬ ∃ i, SlotOf w fd i ∧ addr.sinFamily = .inet ∧ (w.sockets i).state ≠ .created) w := by
  unfold W5100.bind
  apply post_withSlot
  · intro hno w'
    exact post_pure.2 (iff_of_true convention_failed fun ⟨i, hi, _⟩ => hno i hi)
  · intro i hi
    simp only [hi.exists_iff]
    rw [post_bind, post_getSlot, post_ite]
    constructor
    · intro hfamily
      exact post_fail.2 (iff_of_true convention_failed fun h => hfamily h.1)
    · intro hfamily
      rw [post_ite]
      constructor
      · intro hst
        -- the exit that returns 1 with `errno` set
        exact post_fail.2 (iff_of_false (not_convention (by decide))
          (not_not.2 ⟨not_not.1 hfamily, hst⟩))
      · intro hst
        have hno : ¬ (addr.sinFamily = .inet ∧ (w.sockets i).state ≠ .created) :=
          fun h => hst h.2
        cases (w.sockets i).type with
        | stream =>
            dsimp only
            rw [post_bind]
            refine (keeps_ledger_of_sysCode B (made_bindTcp fuel meterRights_binds i addr) w).mono
              fun _ w' h' => post_pure.2 ?_
            rw [(ledger_eq h').1, hw]
            exact iff_of_true (convention_done rfl) hno
        | dgram =>
            dsimp only
            rw [post_bind]
            refine (keeps_ledger_of_sysCode B (made_bindUdp fuel meterRights_binds i _) w).mono
              fun _ w' h' => post_pure.2 ?_
            rw [(ledger_eq h').1, hw]
            exact iff_of_true (convention_done rfl) hno
        | raw => exact post_fail.2 (iff_of_true convention_failed hno)
        | other => exact post_fail.2 (iff_of_true convention_failed hno)

/-- `listen` does, but for a socket that is not bound. -/
theorem convention_listen (hw : w.errno = none) (fd : ℤ) :
    Post (listen B.metered fuel fd) (fun r w' => Convention (r = 0) r w'.errno ↔
      ¬ ∃ i, SlotOf w fd i ∧ (w.sockets i).state ≠ .bound) w := by
  unfold listen
  apply post_withSlot
  · intro hno w'
    exact post_pure.2 (iff_of_true convention_failed fun ⟨i, hi, _⟩ => hno i hi)
  · intro i hi
    simp only [hi.exists_iff]
    rw [post_bind, post_getSlot, post_ite]
    constructor
    · intro hst
      exact post_fail.2 (iff_of_false (not_convention (by decide)) (not_not.2 hst))
    · intro hst
      rw [post_ite]
      constructor
      · intro _
        exact post_fail.2 (iff_of_true convention_failed hst)
      · intro _
        apply post_onChip_bind
        intro _ c1
        apply post_onChip_bind
        intro _ c2
        rw [post_bind, post_modifySlot, post_pure]
        show Convention (0 = 0) 0 w.errno ↔ _
        rw [hw]
        exact iff_of_true (convention_done rfl) hst

/-! ### `connect` -/

/-- `connect` on a stream socket does. -/
theorem convention_connectTcp (hw : w.errno = none) (i : Fin nSockets) (addr : SockaddrIn) :
    Post (connectTcp B.metered fuel i addr) (fun r w' => Convention (r = 0) r w'.errno) w := by
  unfold connectTcp
  rw [post_bind, post_getSlot]
  simp only [post_ite]
  refine ⟨fun _ => post_fail.2 convention_failed, fun _ => ⟨fun _ =>
    post_fail.2 convention_failed, fun _ => ⟨fun _ => post_fail.2 convention_failed, fun _ => ?_⟩⟩⟩
  apply post_onChip_bind
  intro _ c1
  apply post_onChip_bind
  intro _ c2
  apply post_onChip_bind
  intro _ c3
  apply post_onChip_bind
  intro _ c4
  apply post_onChip_bind
  intro _ c5
  apply post_onChip_bind
  intro _ c6
  apply post_onChip_bind
  intro sr c7
  rw [post_ite]
  constructor
  · intro _
    rw [post_bind, post_modifySlot, post_pure]
    show Convention (0 = 0) 0 w.errno
    rw [hw]
    exact convention_done rfl
  · intro _
    exact post_fail.2 convention_failed

/-- `connect` on a datagram socket does. -/
theorem convention_connectUdp (hw : w.errno = none) (i : Fin nSockets) (addr : SockaddrIn) :
    Post (connectUdp B.metered fuel i addr) (fun r w' => Convention (r = 0) r w'.errno) w := by
  have hbind : ∀ s, Post (checkBindUdp B.metered fuel i >>= fun _ => pure 0)
      (fun r w' => Convention (r = 0) r w'.errno) (w.setSlot i s) := by
    intro s
    rw [post_bind]
    refine (keeps_ledger_of_sysCode B (made_checkBindUdp fuel meterRights_binds i) _).mono
      fun _ w' h' => post_pure.2 ?_
    rw [(ledger_eq h').1, show (w.setSlot i s).errno = none from hw]
    exact convention_done rfl
  unfold connectUdp
  cases addr.sinFamily with
  | unspec =>
      dsimp only
      rw [post_bind, post_modifySlot]
      exact hbind _
  | inet =>
      dsimp only
      rw [post_bind, post_modifySlot]
      exact hbind _
  | other => exact post_fail.2 convention_failed

/-- `connect` does. -/
theorem convention_connect (hw : w.errno = none) (fd : ℤ) (addr : SockaddrIn) :
    Post (connect B.metered fuel fd addr) (fun r w' => Convention (r = 0) r w'.errno) w := by
  unfold connect
  apply post_withSlot
  · intro _ w'
    exact post_pure.2 convention_failed
  · intro i _
    dsimp only
    rw [post_bind, post_getSlot]
    cases (w.sockets i).type with
    | stream => exact convention_connectTcp B fuel hw i addr
    | dgram => exact convention_connectUdp B fuel hw i addr
    | raw => exact post_fail.2 convention_failed
    | other => exact post_fail.2 convention_failed

/-! ### `accept` -/

/-- `accept` does, but for a socket that does not listen. -/
theorem convention_accept (hw : w.errno = none) (fd : ℤ) (wantAddr : Bool) :
    Post (accept B.metered fuel fd wantAddr) (fun r w' =>
      Convention (Fresh w w' r.1) r.1 w'.errno ↔
        ¬ ∃ i, SlotOf w fd i ∧ (w.sockets i).state ≠ .listening) w := by
  unfold accept
  apply post_withSlot
  · intro hno w'
    exact post_pure.2 (iff_of_true convention_failed fun ⟨i, hi, _⟩ => hno i hi)
  · intro i hi
    simp only [hi.exists_iff]
    rw [post_bind, post_getSlot, post_ite]
    constructor
    · intro hst
      exact post_fail.2 (iff_of_false (not_convention (by decide)) (not_not.2 hst))
    · intro hst
      rw [post_ite]
      constructor
      · intro _
        exact post_fail.2 (iff_of_true convention_failed hst)
      · intro _
        rw [post_bind]
        apply post_isNonblock
        intro d _
        unfold acceptLoop
        -- while nobody has connected, the tables and `errno` stay as they are
        refine Post.iter (fun _ w' => w.Same w' ∧ w'.errno = none) ?_ fuel ⟨.refl, hw⟩
        rintro _ w1 ⟨hs, herrno⟩
        rw [post_bind, post_getSlot]
        apply post_onChip_bind
        intro sr c2
        have hs2 := hs.trans (World.same_setChip (w := w1) c2)
        rw [post_ite]
        constructor
        · intro _
          rw [post_bind]
          refine (post_acceptEstablished B.metered fuel wantAddr rfl).mono fun r w3 hr => ?_
          rw [post_pure]
          show Convention (Fresh w w3 r.1) r.1 w3.errno ↔ _
          rcases hr with ⟨hfail, -⟩ | ⟨d, hfresh, hret, herrno', htables⟩
          · rw [hfail]
            exact iff_of_true convention_failed hst
          · have hnone : w3.errno = none := herrno'.trans herrno
            have halloc : (w3.files d).isallocated = true := by
              show (w3.tables.files d).isallocated = true
              rw [htables, Tables.setSlot_files, Tables.setFile_files_self]
              rfl
            rw [hs2.files] at hfresh
            rw [hnone, hret]
            exact iff_of_true (convention_done ⟨d, rfl, hfresh, halloc⟩) hst
        · intro _
          rw [post_ite]
          constructor
          · intro _
            exact post_fail.2 (iff_of_true convention_failed hst)
          · intro _
            exact post_pure.2 ⟨hs2, herrno⟩

/-! ### `close` -/

/-- Closing a socket does. -/
theorem convention_closeFdData (hw : w.errno = none) (i : Fin nSockets) (d : Fin openMax) :
    Post (closeFdData B.metered fuel i d) (fun r w' => Convention (r = 0) r w'.errno) w := by
  have hquiet : Keeps (ledger (φ := φ)) (closeFdData B.metered fuel i d) :=
    keeps_ledger_of_sysCode B (made_closeFdData fuel meterRights_hangs.closes i d)
  have hzero : Post (closeFdData B.metered fuel i d) (fun r _ => r = 0) w := by
    unfold closeFdData
    rw [post_bind, post_getSlot, post_bind]
    intro _ w1 _
    rw [post_bind, post_modifySlot, post_bind, post_getSlot, post_ite]
    constructor
    · intro _
      apply post_onChip_bind
      intro _ c2
      apply post_onChip_bind
      intro _ c3
      rw [post_bind]
      intro _ w4 _
      exact post_pure.2 rfl
    · intro _
      exact post_pure.2 rfl
  refine ((hquiet w).and hzero).mono ?_
  rintro r w' ⟨h', hr⟩
  rw [(ledger_eq h').1, hw]
  exact convention_done hr

/-- Closing a connection does. -/
theorem convention_closeConnectionData (hw : w.errno = none) (i : Fin nSockets)
    (d : Fin openMax) :
    Post (closeConnectionData B.metered fuel i d)
      (fun r w' => Convention (r = 0) r w'.errno) w := by
  have hquiet : Keeps (ledger (φ := φ)) (closeConnectionData B.metered fuel i d) :=
    keeps_ledger_of_sysCode B (made_closeConnectionData fuel meterRights_hangs i d)
  have hzero : Post (closeConnectionData B.metered fuel i d) (fun r _ => r = 0) w := by
    unfold closeConnectionData
    rw [post_bind, post_getSlot, post_bind]
    intro _ w1 _
    rw [post_bind, post_modifySlot]
    apply post_onChip_bind
    intro _ c2
    apply post_onChip_bind
    intro _ c3
    rw [post_bind, post_getSlot, post_ite]
    constructor
    · intro _
      rw [post_bind]
      intro _ w4 _
      exact post_pure.2 rfl
    · intro _
      rw [post_bind]
      intro _ w4 _
      exact post_pure.2 rfl
  refine ((hquiet w).and hzero).mono ?_
  rintro r w' ⟨h', hr⟩
  rw [(ledger_eq h').1, hw]
  exact convention_done hr

/-- `close` does. -/
theorem convention_sockClose (hw : w.errno = none) (fd : ℤ) :
    Post (sockClose B.metered fuel fd) (fun r w' => Convention (r = 0) r w'.errno) w := by
  unfold sockClose
  apply post_withSlot
  · intro _ w'
    exact post_pure.2 convention_failed
  · intro i _
    dsimp only
    rw [post_bind, post_get]
    cases (w.sockets i).fdData.filter (fun d => (w.files d).fd = fd) with
    | some d => exact convention_closeFdData B fuel hw i d
    | none =>
        dsimp only
        cases (w.sockets i).connectionData.filter (fun d => (w.files d).fd = fd) with
        | some d => exact convention_closeConnectionData B fuel hw i d
        | none => exact post_fail.2 convention_failed

/-- `close` of a descriptor that is no file. -/
theorem convention_sysClose {w : World (χ × ℕ) (Fat.FatFs κ δ ψ)} (hw : w.errno = none) (fd : ℤ)
    (hfile : ∀ d : Fin openMax, fd = (d.val : ℤ) → (w.files d).close ≠ some .fatfs) :
    Post (sysClose B.metered L fuel fd) (fun r w' => Convention (r = 0) r w'.errno) w := by
  unfold sysClose
  apply post_withOpen
  · exact convention_failed
  · intro d hfd _
    have hconsole : Post (do
        modifyFile d fun f => { f with isopen := false }
        pure 0 : Fat.FatSys (χ × ℕ) κ δ ψ ℤ) (fun r w' => Convention (r = 0) r w'.errno) w := by
      rw [post_bind, post_modifyFile, post_pure]
      show Convention (0 = 0) 0 w.errno
      rw [hw]
      exact convention_done rfl
    cases hclose : (w.files d).close with
    | none => exact hconsole
    | some driver =>
        cases driver with
        | fatfs => exact absurd hclose (hfile d hfd)
        | w5100 => exact convention_sockClose B fuel hw fd
        | usart => exact hconsole

/-! ## `recvfrom` -/

/-- As many bytes are read as are asked for. -/
theorem post_readMem_length (addr n : ℕ) (c : χ) :
    Post (readMem B addr n) (fun bs _ => bs.length = n) c := by
  induction n generalizing addr c with
  | zero => exact post_pure.2 rfl
  | succ n ih =>
      show Post (readByte B addr >>= _) _ c
      rw [post_bind]
      intro b c1 _
      rw [post_bind]
      refine (ih _ c1).mono fun bs c2 hbs => post_pure.2 ?_
      rw [List.length_cons, hbs]

/-- As many bytes are stored as are asked for. -/
theorem post_readBufSure_stored (i : Fin nSockets) {len : ℕ} (hlen : len < 2 ^ 16) (p : BitVec 16)
    (c : χ) : Post (readBufSure B i len p) (fun r _ => r.1.length = len) c := by
  have hmask : (p &&& getRxMask i).toNat = p.toNat % 0x800 := toNat_and_mask p
  have hpieces := pieces_length hlen (Nat.mod_lt p.toNat (show 0 < 0x800 by omega))
  rw [readBufSure_eq, hmask]
  show Post (readMem B _ (pieces (p.toNat % 0x800) 0x800 len).1 >>= _) _ c
  rw [post_bind]
  refine (post_readMem_length B _ _ c).mono fun bs1 c1 h1 => ?_
  rw [post_bind]
  refine (post_readMem_length B _ _ c1).mono fun bs2 c2 h2 => post_pure.2 ?_
  rw [List.length_append, h1, h2]
  exact hpieces

/-- `read_buf` returns the number of bytes that it stores. -/
theorem post_readBuf_stored (i : Fin nSockets) (len : ℕ) (c : χ) :
    Post (readBuf B fuel i len) (fun r _ => r.1.length = r.2) c := by
  unfold readBuf
  rw [post_bind]
  intro toread c1 _
  rw [post_ite]
  constructor
  · intro _
    generalize hn : (if len > toread.toNat then toread.toNat else len) = n
    have hlt : n < 2 ^ 16 := by
      have hword := toread.isLt
      rw [← hn]
      split_ifs <;> omega
    rw [post_bind]
    intro pread c2 _
    rw [post_bind]
    refine (post_readBufSure_stored B i hlt pread c2).mono fun r c3 hr => ?_
    dsimp only
    rw [post_bind]
    intro _ c4 _
    refine post_pure.2 ?_
    show r.1.length = n % 2 ^ 16
    rw [hr, Nat.mod_eq_of_lt hlt]
  · intro _
    exact post_pure.2 rfl

/-- A datagram is stored as long as it says it is. -/
theorem post_recvDatagram_stored (i : Fin nSockets) (wantAddr : Bool) (c : χ) :
    Post (recvDatagram B fuel i wantAddr) (fun r _ => r.ret = (r.buf.length : ℤ)) c := by
  unfold recvDatagram
  rw [post_bind]
  intro pread c1 _
  rw [post_bind]
  intro header c2 _
  dsimp only
  rw [post_bind]
  refine (post_readBufSure_stored B i (BitVec.isLt _) _ c2).mono fun r c3 hr => ?_
  rw [post_bind]
  intro _ c4 _
  refine post_pure.2 ?_
  rw [hr]

/-- A result of a round has been stored, or the connection has ended. -/
theorem post_recvRound_stored (i : Fin nSockets) (len : ℕ) (wantAddr : Bool)
    (w : World (χ × ℕ) φ) :
    Post (recvRound B.metered fuel i len wantAddr) (fun o w' => match o with
      | none => w'.errno = w.errno
      | some r => r.ret = -1 ∨ w'.errno = w.errno ∧ r.ret = (r.buf.length : ℤ)) w := by
  unfold recvRound
  rw [post_bind, post_getSlot]
  cases (w.sockets i).type with
  | stream =>
      dsimp only
      rw [post_bind, post_onChip]
      refine (post_readBuf_stored B.metered fuel _ len w.chip).mono fun r c2 hr => ?_
      rw [post_ite]
      constructor
      · intro _
        refine post_pure.2 (.inr ⟨rfl, ?_⟩)
        show (r.2 : ℤ) = r.1.length
        rw [hr]
      · intro _
        rw [post_bind]
        refine (ledger_manageDisconnect B fuel i _).mono ?_
        rintro gone w3 ⟨-, h3⟩
        -- a connection that has ended is the result -1, otherwise the round has no result
        cases gone with
        | true => exact post_pure.2 (.inl rfl)
        | false => exact post_pure.2 h3
  | dgram =>
      dsimp only
      apply post_onChip_bind
      intro toread c2
      rw [post_ite]
      constructor
      · intro _
        rw [post_bind, post_onChip]
        exact (post_recvDatagram_stored B.metered fuel _ wantAddr _).mono fun r c3 hr =>
          post_pure.2 (.inr ⟨rfl, hr⟩)
      · intro _
        exact post_pure.2 rfl
  | raw => exact post_pure.2 rfl
  | other => exact post_pure.2 rfl

/-! ### The loop and the call -/

/-- The value of the loop of `recvfrom` is the number of bytes stored. -/
theorem convention_recvLoop (hw : w.errno = none) (i : Fin nSockets) (len : ℕ)
    (wantAddr nonblock : Bool) (tom : TimeoutManager) :
    Post (recvLoop B.metered fuel i len wantAddr nonblock tom)
      (fun r w' => Convention (r.ret = (r.buf.length : ℤ)) r.ret w'.errno) w := by
  unfold recvLoop
  refine Post.iter (fun _ w' => w'.errno = none) ?_ fuel hw
  intro _ w1 herrno
  rw [post_bind]
  refine (post_recvRound_stored B fuel i len wantAddr w1).mono fun o w2 h2 => ?_
  cases o with
  | some r =>
      refine post_pure.2 ?_
      show Convention _ r.ret w2.errno
      rcases h2 with hfail | ⟨herrno', hstored⟩
      · rw [hfail]
        exact convention_failed
      · rw [herrno', herrno]
        exact convention_done hstored
  | none =>
      dsimp only
      rw [post_ite]
      constructor
      · intro _
        exact post_fail.2 convention_failed
      · intro _
        rw [post_bind]
        refine (ledger_timeoutEnded B tom w2).mono ?_
        rintro ended w3 ⟨-, h3⟩
        cases ended with
        | true => exact post_pure.2 convention_failed
        | false => exact post_pure.2 ((h3.trans h2).trans herrno)

/-- `recvfrom` follows the convention, but for a socket that is not connected. -/
theorem convention_recvfrom (hw : w.errno = none) (fd : ℤ) (len : ℕ) (wantAddr : Bool) :
    Post (recvfrom B.metered fuel fd len wantAddr) (fun r w' =>
      Convention (r.ret = (r.buf.length : ℤ)) r.ret w'.errno ↔
        ¬ ∃ i, SlotOf w fd i ∧ (w.sockets i).Unconnected) w := by
  unfold recvfrom
  apply post_withSlot
  · intro hno w'
    exact post_pure.2 (iff_of_true convention_failed fun ⟨i, hi, _⟩ => hno i hi)
  · intro i hi
    simp only [hi.exists_iff]
    rw [post_bind, post_getSlot, post_ite]
    constructor
    · intro hstream
      exact post_fail.2 (iff_of_false (not_convention (by decide)) (not_not.2 (.inl hstream)))
    · intro hstream
      rw [post_ite]
      constructor
      · intro hdgram
        exact post_fail.2 (iff_of_false (not_convention (by decide)) (not_not.2 (.inr hdgram)))
      · intro hdgram
        have hconn : ¬ (w.sockets i).Unconnected := fun h => h.elim hstream hdgram
        rw [post_ite]
        constructor
        · intro _
          -- nothing was asked for
          refine post_pure.2 ?_
          show Convention ((0 : ℤ) = 0) 0 w.errno ↔ _
          rw [hw]
          exact iff_of_true (convention_done rfl) hconn
        · intro _
          rw [post_bind]
          apply post_isNonblock
          intro d _
          rw [post_bind]
          refine (keeps_ledger_of_sysCode B (made_timeoutUnless _ _) w).mono fun tom w1 h1 => ?_
          refine (convention_recvLoop B fuel ?_ i len wantAddr _ tom).mono fun r w2 h2 => ?_
          · rw [(ledger_eq h1).1]
            exact hw
          · exact iff_of_true h2 hconn

/-! ## `send` -/

/-- A round of the loop of `send` that found no room: does it end the loop? -/
def sendGivesUp {χ : Type} (B : Board χ) (i : Fin nSockets) (nonblock : Bool)
    (tom : TimeoutManager) : Sys χ φ Bool := do
  if ← manageDisconnect B fuel i then pure true
  else if nonblock then fail .EAGAIN true
  else timeoutEnded B tom

/-- A round of the loop of `send`. -/
def sendRound {χ : Type} (B : Board χ) (i : Fin nSockets) (nonblock : Bool)
    (tom : TimeoutManager) (bytes : List Byte) : Sys χ φ (List Byte ⊕ List Byte) := do
  if bytes.length = 0 then pure (.inr bytes)
  else
    let isocket := (← getSlot i).isocket
    let written ← onChip (writeBuf B fuel isocket bytes)
    if written > 0 then
      if nonblock then pure (.inr (bytes.drop written)) else pure (.inl (bytes.drop written))
    else if ← sendGivesUp fuel B i nonblock tom then pure (.inr bytes)
    else pure (.inl bytes)

/-- The loop of `send` goes in rounds. -/
theorem sendLoop_eq {χ : Type} (B : Board χ) (i : Fin nSockets) (nonblock : Bool)
    (tom : TimeoutManager) (buf : List Byte) :
    (sendLoop B fuel i nonblock tom buf : Sys χ φ (List Byte)) =
      Comp.iter Stop.waiting (sendRound fuel B i nonblock tom) fuel buf := by
  unfold sendLoop
  congr 1
  funext bytes
  unfold sendRound sendGivesUp
  by_cases hlen : bytes.length = 0
  · rw [if_pos hlen, if_pos hlen]
  rw [if_neg hlen, if_neg hlen]
  refine bind_congr fun s => bind_congr fun written => ?_
  by_cases hpos : written > 0
  · rw [if_pos hpos, if_pos hpos]
  rw [if_neg hpos, if_neg hpos, bind_assoc]
  refine bind_congr fun gone => ?_
  cases gone with
  | true => rfl
  | false =>
      cases nonblock with
      | true => rfl
      | false => rfl

/-- When a round gives up it has set `errno`. -/
theorem ledger_sendGivesUp (i : Fin nSockets) (nonblock : Bool) (tom : TimeoutManager)
    (w : World (χ × ℕ) φ) :
    Post (sendGivesUp fuel B.metered i nonblock tom) (fun ends w' =>
      meter w'.chip = meter w.chip ∧ (if ends then w'.errno ≠ none else w'.errno = w.errno)) w := by
  unfold sendGivesUp
  rw [post_bind]
  refine (ledger_manageDisconnect B fuel i w).mono ?_
  rintro gone w1 ⟨hcount, herrno⟩
  cases gone with
  | true => exact post_pure.2 ⟨hcount, herrno⟩
  | false =>
      rw [if_neg Bool.false_ne_true] at herrno
      rw [if_neg Bool.false_ne_true, post_ite]
      constructor
      · intro _
        exact post_fail.2 ⟨hcount, Option.some_ne_none _⟩
      · intro _
        refine (ledger_timeoutEnded B tom w1).mono ?_
        rintro ended w2 ⟨hcount', herrno'⟩
        rw [herrno, hcount] at *
        exact ⟨hcount', herrno'⟩

end Calls

/-! ### What its loop reads -/

section Sending

variable {χ φ : Type} (B : Board χ) (fuel : ℕ) {w : World ((χ × List Reading) × ℕ) φ}

/-- A round that finds no room ends the loop as its looks say. -/
theorem sendGivesUp_logged (i : Fin nSockets) (nonblock : Bool) (tom : TimeoutManager)
    (w : World ((χ × List Reading) × ℕ) φ) :
    Post (sendGivesUp fuel B.logged.metered i nonblock tom) (fun ends w' => ∃ l,
      log w'.chip = log w.chip ++ l ∧ (ends = false → w'.sockets = w.sockets) ∧
      ∀ len rest, givesUp nonblock tom (len + 1)
          (.room 0 :: looks (w.sockets i).isocket 0 (l ++ rest)) =
        (ends || givesUp nonblock tom (len + 1) (looks (w.sockets i).isocket 0 rest))) w := by
  unfold sendGivesUp
  rw [post_bind]
  refine (manageDisconnect_logged B fuel i w).mono ?_
  rintro gone w1 ⟨sr, l, h1, hgone⟩
  by_cases hsr : sr = sockEstablished
  · rw [if_pos hsr] at hgone
    obtain ⟨rfl, rfl, hsockets⟩ := hgone
    rw [if_neg Bool.false_ne_true, post_ite]
    constructor
    · intro hnb
      refine post_fail.2 ⟨_, h1, fun hc => Bool.noConfusion hc, fun len rest => ?_⟩
      rw [List.singleton_append, looks_status, Bool.true_or]
      unfold givesUp
      rw [if_pos (.inr hnb)]
    · intro hnb
      have hwait : ¬ (sr ≠ sockEstablished ∨ nonblock = true) :=
        not_or.2 ⟨not_not.2 hsr, hnb⟩
      refine (timeoutEnded_logged B tom w1).mono ?_
      rintro ended w2 ⟨hsockets2, h2⟩
      -- without a time-out no clock is read, so `SR` is the only look
      cases tom with
      | none =>
          obtain ⟨rfl, h2⟩ := h2
          refine ⟨_, h2.trans h1, fun _ => hsockets2.trans hsockets, fun len rest => ?_⟩
          rw [List.singleton_append, looks_status, Bool.false_or]
          conv_lhs => unfold givesUp
          rw [if_neg hwait]
      | some tend =>
          obtain ⟨now, h2, rfl⟩ := h2
          refine ⟨_, by rw [h2, h1, List.append_assoc], fun _ => hsockets2.trans hsockets,
            fun len rest => ?_⟩
          rw [List.cons_append, List.cons_append, looks_status, List.nil_append,
            List.singleton_append, looks_clock]
          conv_lhs => unfold givesUp
          rw [if_neg hwait]
  -- the connection has ended, and that look alone decides
  · rw [if_neg hsr] at hgone
    subst hgone
    refine post_pure.2 ⟨_, h1, fun hc => Bool.noConfusion hc, fun len rest => ?_⟩
    rw [List.cons_append, looks_status, Bool.true_or]
    unfold givesUp
    rw [if_pos (.inl hsr)]

/-- A round that writes. -/
theorem givesUp_writes {nonblock : Bool} {tom : TimeoutManager} {len n : ℕ} (hn : 0 < n)
    (hlen : len ≠ 0) (l : List Look) : givesUp nonblock tom len (.room n :: l) =
      (!nonblock && givesUp nonblock tom (len - min len n) l) := by
  obtain ⟨n, rfl⟩ := Nat.exists_eq_succ_of_ne_zero hn.ne'
  obtain ⟨len, rfl⟩ := Nat.exists_eq_succ_of_ne_zero hlen
  conv_lhs => unfold givesUp
  rw [show len.succ - min len.succ n.succ = len - n by omega]

/-- What the loop of `send` has achieved when it ends. -/
theorem post_sendLoop_ledger (hroom : B.RoomBounded) (hw : w.errno = none) (i : Fin nSockets)
    (nonblock : Bool) (tom : TimeoutManager) (buf : List Byte) :
    Post (sendLoop B.logged.metered fuel i nonblock tom buf) (fun rest w' =>
      meter w'.chip + rest.length = meter w.chip + buf.length ∧ rest.length ≤ buf.length ∧
      ∃ l, log w'.chip = log w.chip ++ l ∧
      if givesUp nonblock tom buf.length (looks (w.sockets i).isocket 0 l) = true then
        w'.errno ≠ none ∧ 0 < rest.length
      else w'.errno = none ∧ (nonblock = false → rest.length = 0) ∧
        (nonblock = true → buf.length ≤ rest.length + 0x800)) w := by
  have hroom' : B.logged.RoomBounded := roomBounded_logged hroom
  rw [sendLoop_eq]
  -- the looks still to come decide, and those so far have not
  refine Post.iter (fun bytes w' => w'.errno = none ∧ w'.sockets = w.sockets ∧
    meter w'.chip + bytes.length = meter w.chip + buf.length ∧ bytes.length ≤ buf.length ∧
    (nonblock = true → bytes = buf) ∧
    ∃ l, log w'.chip = log w.chip ++ l ∧ ∀ rest,
      givesUp nonblock tom buf.length (looks (w.sockets i).isocket 0 (l ++ rest)) =
        givesUp nonblock tom bytes.length (looks (w.sockets i).isocket 0 rest))
    ?_ fuel ⟨hw, rfl, rfl, le_rfl, fun _ => rfl, [], (List.append_nil _).symm, fun _ => rfl⟩
  rintro bytes w1 ⟨herrno, hsockets, hcount, hless, hmode, l, hlog, hlooks⟩
  unfold sendRound
  rw [post_ite]
  constructor
  · intro hlen
    refine post_pure.2 ⟨hcount, hless, l, hlog, ?_⟩
    have hdone := hlooks []
    rw [List.append_nil, hlen] at hdone
    rw [hdone, if_neg (by unfold givesUp; exact Bool.false_ne_true)]
    refine ⟨herrno, fun _ => hlen, fun hnb => ?_⟩
    rw [hmode hnb]
    omega
  · intro hlen
    rw [post_bind, post_getSlot, hsockets, post_bind, post_onChip]
    refine ((post_writeBuf_metered B.logged fuel hroom' _ bytes w1.chip).and
      (writeBuf_logged B fuel _ bytes w1.chip)).mono ?_
    rintro n c2 ⟨⟨hcount2, hle, hring⟩, hi, lo, q, hlog2, hquiet, hn⟩
    -- what the round adds to the list begins with the room
    have hround : ∀ rest, looks (w.sockets i).isocket 0
        ((.reg (sockRegGet regTXFSR (w.sockets i).isocket) hi ::
          .reg (sockRegGet regTXFSR (w.sockets i).isocket + 1) lo :: q) ++ rest) =
        .room (roomOf hi lo) :: looks (w.sockets i).isocket 0 rest := by
      intro rest
      rw [List.cons_append, List.cons_append, looks_room, looks_quiet hquiet]
    rw [post_ite]
    constructor
    · intro hpos
      have hdrop : (bytes.drop n).length = bytes.length - n := List.length_drop
      have hstep : ∀ rest, givesUp nonblock tom bytes.length
          (.room (roomOf hi lo) :: looks (w.sockets i).isocket 0 rest) =
          (!nonblock && givesUp nonblock tom (bytes.drop n).length
            (looks (w.sockets i).isocket 0 rest)) := by
        intro rest
        rw [givesUp_writes (by omega) hlen, hdrop, hn]
      have hmeter : meter (w1.setChip c2).chip = meter w1.chip + n := hcount2
      rw [post_ite]
      constructor
      · intro hnb
        refine post_pure.2 ⟨by omega, by omega, _, by
          rw [World.setChip_chip, hlog2, hlog, List.append_assoc], ?_⟩
        have hdone := hlooks ((.reg (sockRegGet regTXFSR (w.sockets i).isocket) hi ::
          .reg (sockRegGet regTXFSR (w.sockets i).isocket + 1) lo :: q) ++ [])
        rw [hround, hstep, List.append_nil, hnb] at hdone
        rw [hnb, hdone, if_neg (by simp)]
        refine ⟨herrno, fun hc => Bool.noConfusion hc, fun _ => ?_⟩
        rw [← hmode hnb]
        omega
      · intro hnb
        have hblock : nonblock = false := by simpa using hnb
        refine post_pure.2 ⟨herrno, hsockets, by omega, by omega, fun hc => absurd hc hnb, _, by
          rw [World.setChip_chip, hlog2, hlog, List.append_assoc], fun rest => ?_⟩
        rw [List.append_assoc, hlooks, hround, hstep, hblock]
        rfl
    · intro hpos
      have hzero : roomOf hi lo = 0 := by omega
      obtain rfl : n = 0 := by omega
      obtain ⟨m, hm⟩ := Nat.exists_eq_succ_of_ne_zero hlen
      rw [post_bind]
      refine ((ledger_sendGivesUp B.logged fuel i nonblock tom (w1.setChip c2)).and
        (sendGivesUp_logged B fuel i nonblock tom (w1.setChip c2))).mono ?_
      rintro ends w3 ⟨⟨hcount3, herrno3⟩, l3, hlog3, hsockets3, hstep⟩
      have hmeter : meter (w1.setChip c2).chip = meter w1.chip := hcount2
      have hlog' : log w3.chip = log w.chip ++ (l ++
          ((.reg (sockRegGet regTXFSR (w.sockets i).isocket) hi ::
            .reg (sockRegGet regTXFSR (w.sockets i).isocket + 1) lo :: q) ++ l3)) := by
        rw [hlog3, World.setChip_chip, hlog2, hlog, List.append_assoc, List.append_assoc]
      have hsofar : ∀ rest, givesUp nonblock tom buf.length (looks (w.sockets i).isocket 0
          ((l ++ ((.reg (sockRegGet regTXFSR (w.sockets i).isocket) hi ::
            .reg (sockRegGet regTXFSR (w.sockets i).isocket + 1) lo :: q) ++ l3)) ++ rest)) =
          (ends || givesUp nonblock tom bytes.length (looks (w.sockets i).isocket 0 rest)) := by
        intro rest
        rw [World.setChip_sockets, hsockets] at hstep
        rw [List.append_assoc, hlooks, List.append_assoc, hround, hzero, hm, hstep]
      cases ends with
      | true =>
          refine post_pure.2 ⟨by omega, hless, _, hlog', ?_⟩
          have hdone := hsofar []
          rw [List.append_nil, Bool.true_or] at hdone
          rw [if_pos hdone]
          exact ⟨herrno3, by omega⟩
      | false =>
          exact post_pure.2 ⟨herrno3.trans herrno, (hsockets3 rfl).trans hsockets, by omega, hless,
            hmode, _, hlog', hsofar⟩

/-! ### The value of `send` -/

/-- When the number of bytes written can be returned. -/
theorem convention_written {n : ℤ} (hlo : 0 ≤ n) (hhi : n < 2 ^ 32) :
    Convention (wrap32 n = n) (wrap32 n) none ↔ ¬ (2 ^ 31 ≤ n ∧ n ≠ 2 ^ 32 - 1) := by
  have hiff : Convention (wrap32 n = n) (wrap32 n) none ↔ (wrap32 n ≠ -1 → wrap32 n = n) :=
    ⟨fun h => h.2, fun h => ⟨fun hc => absurd rfl hc, h⟩⟩
  rw [hiff]
  by_cases hfits : n < 2 ^ 31
  · rw [wrap32_of_fits (by omega) hfits]
    exact iff_of_true (fun _ => rfl) (by omega)
  · rw [wrap32_of_large (by omega) hhi]
    omega

/-- The mode in which a call finds the socket. -/
theorem modeOf_of_isNonblock {χ : Type} {w w' : World χ φ} {i : Fin nSockets} {nonblock : Bool}
    (h : isNonblock i w = .ok (nonblock, w')) : w' = w ∧ ModeOf w i nonblock := by
  refine ⟨isNonblock_state h, ?_⟩
  obtain ⟨l, hl, hmode⟩ : ∃ l, (w.sockets i).fdData = some l ∧
      nonblock = nonblockFlag (w.files l).statusFlags :=
    post_isNonblock (Q := fun nb _ => ∃ l, (w.sockets i).fdData = some l ∧
      nb = nonblockFlag (w.files l).statusFlags) (fun d hd => ⟨d, hd, rfl⟩) _ _ h
  exact ⟨l, hl, hmode.symm⟩

/-- A slot has one mode. -/
theorem ModeOf.unique {χ : Type} {w : World χ φ} {i : Fin nSockets} {nonblock nonblock' : Bool}
    (h : ModeOf w i nonblock) (h' : ModeOf w i nonblock') : nonblock = nonblock' := by
  obtain ⟨l, hl, hmode⟩ := h
  obtain ⟨l', hl', hmode'⟩ := h'
  obtain rfl : l = l' := Option.some.inj (hl.symm.trans hl')
  exact hmode.symm.trans hmode'

/-- What the wait and the loop read decides whether `send` gives up. -/
theorem stalls_eq {timeout : Timespec} {nonblock : Bool} {tom : TimeoutManager} {len : ℕ}
    {k : Fin nSockets} {l l1 l2 : List Reading} (hl : l = l1 ++ l2)
    (h : if nonblock = true ∨ (timespecDiff timespecZero timeout).2 = 0 then tom = none ∧ l1 = []
      else ∃ now, tom = some (timespecAdd now timeout) ∧ l1 = [.clock now]) :
    stalls timeout nonblock len (looks k 0 l) = givesUp nonblock tom len (looks k 0 l2) := by
  subst hl
  unfold stalls
  split_ifs at h ⊢ with hnow
  · obtain ⟨rfl, rfl⟩ := h
    rfl
  · obtain ⟨now, rfl, rfl⟩ := h
    rfl

/-- `send` on a stream socket follows the convention when the readings let it. -/
theorem convention_sendTcp (hroom : B.RoomBounded) (hw : w.errno = none) (i : Fin nSockets)
    {buf : List Byte} (hsize : buf.length < 2 ^ 32) :
    Post (sendTcp B.logged.metered fuel i buf) (fun r w' =>
      Convention (r = meter w'.chip - meter w.chip) r w'.errno ↔
        ¬ StreamDeviates w i buf.length (readings w w')) w := by
  unfold sendTcp
  rw [post_bind, post_getSlot, post_ite]
  constructor
  · intro hst
    exact post_fail.2 (iff_of_false (not_convention (by decide))
      (not_not.2 (.inl (not_connected.2 hst))))
  · intro hst
    have hconn : (w.sockets i).Connected := by
      by_contra hc
      exact hst (not_connected.1 hc)
    rw [post_bind]
    intro nonblock w0 hmode
    obtain ⟨rfl, hmode⟩ := modeOf_of_isNonblock hmode
    rw [post_bind]
    intro tom w1 htom
    obtain ⟨herrno1, hcount1⟩ :=
      ledger_eq (keeps_ledger_of_sysCode B.logged (made_timeoutUnless _ _) _ _ _ htom)
    obtain ⟨hsockets1, hlog1⟩ := timeoutUnless_logged B _ _ _ _ _ htom
    rw [hw] at herrno1
    rw [post_bind]
    refine (post_sendLoop_ledger B fuel hroom herrno1 i nonblock tom buf).mono ?_
    rintro rest w2 ⟨hcount2, hless, l2, hlog2, hends⟩
    rw [post_pure]
    rw [hsockets1] at hends
    -- what the condition says for this mode and these readings
    obtain ⟨l1, hl1, hwait⟩ : ∃ l1, log w1.chip = log w0.chip ++ l1 ∧
        if nonblock = true ∨ (timespecDiff timespecZero (w0.sockets i).sendTimeout).2 = 0 then
          tom = none ∧ l1 = []
        else ∃ now, tom = some (timespecAdd now (w0.sockets i).sendTimeout) ∧ l1 = [.clock now] := by
      split_ifs at hlog1 ⊢ with hnow
      · exact ⟨[], by rw [hlog1.2, List.append_nil], hlog1.1, rfl⟩
      · obtain ⟨now, htom', hlog⟩ := hlog1
        exact ⟨[.clock now], hlog, now, htom', rfl⟩
    have hread : readings w0 w2 = l1 ++ l2 :=
      readings_of_append (by rw [hlog2, hl1, List.append_assoc])
    have hdev : StreamDeviates w0 i buf.length (readings w0 w2) ↔
        givesUp nonblock tom buf.length (looks (w0.sockets i).isocket 0 l2) = true ∨
          nonblock = false ∧ 2 ^ 31 ≤ buf.length ∧ buf.length ≠ 2 ^ 32 - 1 := by
      rw [← stalls_eq hread hwait]
      constructor
      · rintro (hc | ⟨nonblock', hmode', h⟩)
        · exact absurd hconn hc
        · rw [hmode.unique hmode']
          exact h
      · intro h
        exact .inr ⟨nonblock, hmode, h⟩
    have hmoved : (meter w2.chip : ℤ) - meter w0.chip = buf.length - rest.length := by omega
    rw [hdev, hmoved]
    by_cases hgives : givesUp nonblock tom buf.length (looks (w0.sockets i).isocket 0 l2) = true
    · -- the loop gave up: the number of bytes is returned in spite of `errno`
      rw [if_pos hgives] at hends
      obtain ⟨herrno2, hrest⟩ := hends
      refine iff_of_false (fun h => ?_) (not_not.2 (.inl hgives))
      have hret := h.1 herrno2
      by_cases hfits : (buf.length : ℤ) - rest.length < 2 ^ 31
      · rw [wrap32_of_fits (by omega) hfits] at hret
        omega
      · rw [wrap32_of_large (by omega) (by omega)] at hret
        omega
    · rw [if_neg hgives] at hends
      obtain ⟨herrno2, hblock, hnonblock⟩ := hends
      rw [herrno2, convention_written (by omega) (by omega)]
      cases nonblock with
      | true =>
          have hring := hnonblock rfl
          refine iff_of_true (by omega) ?_
          rintro (h | h)
          · exact hgives h
          · exact Bool.noConfusion h.1
      | false =>
          have hall := hblock rfl
          constructor
          · rintro hlarge (h | ⟨-, h⟩)
            · exact hgives h
            · exact hlarge (by omega)
          · intro h hlarge
            exact h (.inr ⟨rfl, by omega⟩)

/-! ## `sendto` -/

/-- `check_bind_udp` leaves alone what `sendto` looks at later. -/
theorem post_checkBindUdp {χ : Type} (B : Board χ) (i : Fin nSockets) (w : World χ φ) :
    Post (checkBindUdp B fuel i) (fun _ w' => w'.files = w.files ∧
      (w'.sockets i).isocket = (w.sockets i).isocket ∧
      (w'.sockets i).fdData = (w.sockets i).fdData ∧
      (w'.sockets i).canBroadcast = (w.sockets i).canBroadcast) w := by
  unfold checkBindUdp
  rw [post_bind, post_getSlot, post_ite]
  constructor
  · intro _
    rw [post_bind]
    refine (same_getAvailPort B fuel).mono fun port w1 hs => ?_
    unfold bindUdp
    rw [post_bind, post_getSlot]
    apply post_onChip_bind
    intro _ c2
    apply post_onChip_bind
    intro _ c3
    apply post_onChip_bind
    intro _ c4
    rw [post_modifySlot]
    simp only [World.setSlot_files, World.setChip_files, World.setSlot_sockets,
      World.setChip_sockets, Function.update_self, hs.files, hs.sockets]
    exact ⟨trivial, trivial, trivial, trivial⟩
  · intro _
    exact post_pure.2 ⟨rfl, rfl, rfl, rfl⟩

/-! ### A datagram -/

/-- Sending a datagram does when there is room for it. -/
theorem convention_sendtoLoop (hroom : B.RoomBounded) (hw : w.errno = none) (i : Fin nSockets)
    (buf : List Byte) (peer : SockaddrIn) (nonblock : Bool) (tom : TimeoutManager) :
    Post (sendtoLoop B.logged.metered fuel i buf peer nonblock tom) (fun r w' =>
      ∃ l, (nonblock = true → log w'.chip = log w.chip ++ l) ∧
      (Convention (r = meter w'.chip - meter w.chip) r w'.errno ↔
        ¬ (nonblock = true ∧ ∃ n, firstRoom (looks (w.sockets i).isocket 0 l) = some n ∧
          n < buf.length))) w := by
  have hroom' : B.logged.RoomBounded := roomBounded_logged hroom
  unfold sendtoLoop
  refine Post.iter (fun _ w' => w'.errno = none ∧ meter w'.chip = meter w.chip ∧
    (nonblock = true → w' = w)) ?_ fuel ⟨hw, rfl, fun _ => rfl⟩
  rintro _ w1 ⟨herrno, hcount, hfirst⟩
  rw [post_bind, post_getSlot, post_bind, post_onChip]
  refine ((keeps_meter_of_chipCode B.logged (made_writeBufLen (w1.sockets i).isocket) w1.chip).and
    (writeBufLen_logged B (w1.sockets i).isocket w1.chip)).mono ?_
  rintro nfree c2 ⟨hcount2, hi, lo, hnfree, hlog2⟩
  have hcount2' : meter c2 = meter w1.chip := hcount2
  -- the room is the first that is read
  have hseen : ∀ rest, firstRoom (looks (w1.sockets i).isocket 0
      ([.reg (sockRegGet regTXFSR (w1.sockets i).isocket) hi,
        .reg (sockRegGet regTXFSR (w1.sockets i).isocket + 1) lo] ++ rest)) =
      some nfree.toNat := by
    intro rest
    rw [List.cons_append, List.singleton_append, looks_room, hnfree]
    rfl
  rw [post_ite]
  constructor
  · intro hfits
    have hcopy : ∀ addr l, Along (GrowsOn (φ := φ) fun _ => True)
        (onChip (writeMem B.logged.metered addr l)) := fun addr l =>
      growsOn_onChip (grows_writeMem B addr l)
    rw [post_bind]
    refine ((keeps_ledger_onChip B.logged
      (made_writeSockReg32 (by decide) (meterRights_register _ (by decide)) _) _).and
      (hcopy _ _ _)).mono ?_
    rintro _ w3 ⟨h3, hgrows3⟩
    obtain ⟨herrno3, hcount3⟩ := ledger_eq h3
    rw [post_bind]
    refine ((keeps_ledger_onChip B.logged
      (made_writeSockReg16 (by decide) (meterRights_register _ (by decide)) _) _).and
      (hcopy _ _ _)).mono ?_
    rintro _ w4 ⟨h4, hgrows4⟩
    obtain ⟨herrno4, hcount4⟩ := ledger_eq h4
    rw [post_bind, post_onChip]
    refine ((post_writeBuf_metered B.logged fuel hroom' _ buf w4.chip).and
      (writeBuf_logged B fuel _ buf w4.chip)).mono ?_
    rintro n c5 ⟨h5, hwrite⟩
    obtain ⟨l5, hlog5⟩ : ∃ l5, log c5 = log w4.chip ++ l5 := by
      obtain ⟨hi', lo', q, hlog5, -⟩ := hwrite
      exact ⟨_, hlog5⟩
    obtain ⟨l, hlog, -⟩ := Grows.trans hgrows3 hgrows4
    have hsent : (n : ℤ) = meter (w4.setChip c5).chip - meter w.chip := by
      have h5' : meter c5 = meter w4.chip + n := h5.1
      have h3' : meter w3.chip = meter c2 := hcount3
      show (n : ℤ) = meter c5 - meter w.chip
      omega
    refine post_pure.2 ⟨[.reg (sockRegGet regTXFSR (w1.sockets i).isocket) hi,
        .reg (sockRegGet regTXFSR (w1.sockets i).isocket + 1) lo] ++ (l ++ l5), fun hnb => ?_, ?_⟩
    · rw [World.setChip_chip, hlog5, hlog, World.setChip_chip, hlog2, hfirst hnb, List.append_assoc,
        List.append_assoc]
    · rw [World.setChip_errno, herrno4, herrno3, World.setChip_errno, herrno]
      refine iff_of_true (convention_done hsent) ?_
      rintro ⟨hnb, n', hroom'', hless⟩
      rw [← hfirst hnb, hseen] at hroom''
      have hnfree' := Option.some.inj hroom''
      omega
  · intro hfits
    rw [post_ite]
    constructor
    · intro hnb
      refine post_fail.2 ⟨[.reg (sockRegGet regTXFSR (w1.sockets i).isocket) hi,
        .reg (sockRegGet regTXFSR (w1.sockets i).isocket + 1) lo] ++ [], fun _ => ?_,
        iff_of_false (not_convention (by decide)) (not_not.2 ⟨hnb, nfree.toNat, ?_, by omega⟩)⟩
      · show log c2 = _
        rw [hlog2, hfirst hnb]
        rfl
      · rw [← hfirst hnb, hseen]
    · intro hnb
      rw [post_bind]
      refine (ledger_timeoutEnded B.logged tom _).mono ?_
      rintro ended w3 ⟨hcount3, h3⟩
      cases ended with
      | true =>
          exact post_pure.2 ⟨[], fun h => absurd h hnb,
            iff_of_true convention_failed fun h => hnb h.1⟩
      | false =>
          have hcount3' : meter w3.chip = meter c2 := hcount3
          exact post_pure.2 ⟨h3.trans herrno, by omega, fun h => absurd h hnb⟩

theorem convention_sendtoUdp (hroom : B.RoomBounded) (hw : w.errno = none) (i : Fin nSockets)
    (buf : List Byte) (dest : Option SockaddrIn) :
    Post (sendtoUdp B.logged.metered fuel i buf dest) (fun r w' =>
      Convention (r = meter w'.chip - meter w.chip) r w'.errno ↔
        ¬ ∃ peer, dest = some peer ∧ WouldBlock w i buf.length peer (readings w w')) w := by
  unfold sendtoUdp
  rw [post_bind]
  intro _ w1 hbind
  obtain ⟨herrno1, hcount1⟩ := ledger_eq
    (keeps_ledger_of_sysCode B.logged (made_checkBindUdp fuel meterRights_binds i) w _ _ hbind)
  obtain ⟨hfiles, hisocket, hdata, hbroadcast⟩ :=
    post_checkBindUdp fuel B.logged.metered i w _ _ hbind
  obtain ⟨l1, hlog1, hnoRoom⟩ :=
    growsOn_checkBindUdp B fuel (w.sockets i).isocket i w _ _ hbind
  rw [post_bind, post_getSlot, post_ite, hisocket]
  constructor
  · intro hlong
    refine post_fail.2 (iff_of_true convention_failed ?_)
    rintro ⟨peer, -, hle, -⟩
    exact absurd hlong (by omega)
  · intro hlong
    cases dest with
    | none =>
        refine post_fail.2 (iff_of_true convention_failed ?_)
        rintro ⟨peer, hdest, -⟩
        exact Option.some_ne_none peer hdest.symm
    | some peer =>
        dsimp only
        rw [post_ite, hbroadcast]
        constructor
        · intro hforbidden
          refine post_fail.2 (iff_of_true convention_failed ?_)
          rintro ⟨peer', hdest, -, hallowed, -⟩
          obtain rfl := Option.some.inj hdest
          exact hallowed hforbidden
        · intro hallowed
          rw [post_bind]
          intro nonblock w1' hmode
          obtain ⟨rfl, l, hl, hnb⟩ := modeOf_of_isNonblock hmode
          have hmode0 : ModeOf w i nonblock := ⟨l, hdata ▸ hl, hfiles ▸ hnb⟩
          rw [post_bind]
          intro tom w2 htom
          obtain ⟨herrno2, hcount2⟩ :=
            ledger_eq (keeps_ledger_of_sysCode B.logged (made_timeoutUnless _ _) _ _ _ htom)
          obtain ⟨hsockets2, hlog2⟩ := timeoutUnless_logged B _ _ _ _ _ htom
          refine (convention_sendtoLoop B fuel hroom ?_ i buf peer nonblock tom).mono ?_
          · rw [herrno2, herrno1, hw]
          rintro r w3 ⟨l3, hlog3, h3⟩
          rw [hcount2, hcount1, hsockets2, hisocket] at h3
          rw [h3, not_iff_not]
          -- without waiting, the room is read right after the socket is bound
          have hread : nonblock = true → firstRoom (looks (w.sockets i).isocket 0 (readings w w3)) =
              firstRoom (looks (w.sockets i).isocket 0 l3) := by
            intro hnb
            rw [if_pos (.inl hnb)] at hlog2
            rw [readings_of_append (l := l1 ++ l3), firstRoom_looks hnoRoom]
            rw [hlog3 hnb, hlog2.2, hlog1, List.append_assoc]
          constructor
          · rintro ⟨hnb, n, hfirst, hlt⟩
            refine ⟨peer, rfl, Nat.not_lt.1 hlong, hallowed, hnb ▸ hmode0, n, ?_, hlt⟩
            rw [hread hnb, hfirst]
          · rintro ⟨peer', hdest, -, -, hmode', n, hfirst, hlt⟩
            have hnb : nonblock = true := hmode0.unique hmode'
            exact ⟨hnb, n, by rw [← hread hnb, hfirst], hlt⟩

/-! ### Both kinds of sockets -/

/-- `send` follows the convention exactly when it does not deviate. -/
theorem convention_send (hroom : B.RoomBounded) (hw : w.errno = none) (fd : ℤ)
    {buf : List Byte} (hsize : buf.length < 2 ^ 32) :
    Post (send B.logged.metered fuel fd buf) (fun r w' =>
      Convention (r = meter w'.chip - meter w.chip) r w'.errno ↔
        ¬ Deviates w (readings w w') (.send fd buf)) w := by
  unfold send Deviates
  apply post_withSlot
  · intro hno w'
    exact post_pure.2 (iff_of_true convention_failed fun ⟨i, hi, _⟩ => hno i hi)
  · intro i hi
    simp only [hi.exists_iff]
    rw [post_bind, post_getSlot]
    cases htype : (w.sockets i).type with
    | stream =>
        refine (convention_sendTcp B fuel hroom hw i hsize).mono fun r w' h => h.trans ?_
        simp
    | dgram =>
        dsimp only
        rw [post_ite]
        constructor
        · intro hunspec
          refine post_fail.2 (iff_of_true convention_failed ?_)
          rintro (⟨hc, -⟩ | ⟨-, hne, -⟩)
          · exact SockType.noConfusion hc
          · exact hne hunspec
        · intro hne
          refine (convention_sendtoUdp B fuel hroom hw i buf _).mono fun r w' h => h.trans ?_
          simp [hne]
    | raw => exact post_fail.2 (iff_of_true convention_failed (by simp))
    | other => exact post_fail.2 (iff_of_true convention_failed (by simp))

theorem convention_sendto (hroom : B.RoomBounded) (hw : w.errno = none) (fd : ℤ)
    {buf : List Byte} (hsize : buf.length < 2 ^ 32) (dest : Option SockaddrIn) :
    Post (sendto B.logged.metered fuel fd buf dest) (fun r w' =>
      Convention (r = meter w'.chip - meter w.chip) r w'.errno ↔
        ¬ Deviates w (readings w w') (.sendto fd buf dest)) w := by
  unfold sendto Deviates
  apply post_withSlot
  · intro hno w'
    exact post_pure.2 (iff_of_true convention_failed fun ⟨i, hi, _⟩ => hno i hi)
  · intro i hi
    simp only [hi.exists_iff]
    rw [post_bind, post_getSlot]
    cases htype : (w.sockets i).type with
    | stream =>
        refine (convention_sendTcp B fuel hroom hw i hsize).mono fun r w' h => h.trans ?_
        simp
    | dgram =>
        refine (convention_sendtoUdp B fuel hroom hw i buf dest).mono fun r w' h => h.trans ?_
        simp
    | raw => exact post_fail.2 (iff_of_true convention_failed (by simp))
    | other => exact post_fail.2 (iff_of_true convention_failed (by simp))

end Sending

/-! ## All calls -/

section Main

variable {χ κ δ ψ : Type} (B : Board χ) (L : Fat.FatLib κ δ ψ)
  {w : World ((χ × List Reading) × ℕ) (Fat.FatFs κ δ ψ)}

/-- **Every call follows the convention exactly when it does not deviate**. -/
theorem follows_iff (hroom : B.RoomBounded) (hw : w.errno = none) (fuel : ℕ)
    {call : NetCall ((χ × List Reading) × ℕ)} (hcall : call.Covered w) :
    Post (NetCall.execStored B.logged.metered L (fuel, call))
      (fun r w' => Follows w w' r call ↔ ¬ Deviates w (readings w w') call) w := by
  cases call with
  | socket domain type protocol =>
      show Post (W5100.socket B.logged.metered domain type protocol >>= _) _ w
      rw [post_bind]
      exact (convention_socket B.logged hw domain type protocol).mono fun r w' h =>
        post_pure.2 (iff_of_true h not_false)
  | bind fd addr =>
      show Post (W5100.bind B.logged.metered fuel fd addr >>= _) _ w
      rw [post_bind]
      exact (convention_bind B.logged fuel hw fd addr).mono fun r w' h => post_pure.2 h
  | connect fd addr =>
      show Post (W5100.connect B.logged.metered fuel fd addr >>= _) _ w
      rw [post_bind]
      exact (convention_connect B.logged fuel hw fd addr).mono fun r w' h =>
        post_pure.2 (iff_of_true h not_false)
  | listen fd =>
      show Post (W5100.listen B.logged.metered fuel fd >>= _) _ w
      rw [post_bind]
      exact (convention_listen B.logged fuel hw fd).mono fun r w' h => post_pure.2 h
  | accept fd wantAddr =>
      show Post ((W5100.accept B.logged.metered fuel fd wantAddr >>= fun r => pure r.1) >>= _) _ w
      rw [post_bind, post_bind]
      exact (convention_accept B.logged fuel hw fd wantAddr).mono fun r w' h =>
        post_pure.2 (post_pure.2 h)
  | send fd buf =>
      show Post (W5100.send B.logged.metered fuel fd buf >>= _) _ w
      rw [post_bind]
      exact (convention_send B fuel hroom hw fd hcall).mono fun r w' h => post_pure.2 h
  | sendto fd buf dest =>
      show Post (W5100.sendto B.logged.metered fuel fd buf dest >>= _) _ w
      rw [post_bind]
      exact (convention_sendto B fuel hroom hw fd hcall dest).mono fun r w' h => post_pure.2 h
  | recv fd len =>
      show Post (W5100.recvfrom B.logged.metered fuel fd len false >>= _) _ w
      rw [post_bind]
      exact (convention_recvfrom B.logged fuel hw fd len false).mono fun r w' h => post_pure.2 h
  | recvfrom fd len wantAddr =>
      show Post (W5100.recvfrom B.logged.metered fuel fd len wantAddr >>= _) _ w
      rw [post_bind]
      exact (convention_recvfrom B.logged fuel hw fd len wantAddr).mono fun r w' h => post_pure.2 h
  | close fd =>
      show Post (sysClose B.logged.metered L fuel fd >>= _) _ w
      rw [post_bind]
      exact (convention_sysClose B.logged L fuel hw fd hcall).mono fun r w' h =>
        post_pure.2 (iff_of_true h not_false)
  -- the claim of the convention does not cover these
  | setsockopt fd solSocket option => exact absurd hcall id
  | fcntl fd cmd => exact absurd hcall id
  | poll fd events => exact absurd hcall id
  | event chip => exact absurd hcall id

/-- **The error convention of the socket calls**: in every run of calls and events, from any
state, a call keeps to the convention unless the state in which it is made and what it reads are
among those with which it deviates. -/
theorem follows_iff_of_run (hroom : B.RoomBounded) (calls : List (ℕ × NetCall ((χ × List Reading) × ℕ)))
    (w₀ : World ((χ × List Reading) × ℕ) (Fat.FatFs κ δ ψ))
    (t : Step (World ((χ × List Reading) × ℕ) (Fat.FatFs κ δ ψ)) (ℕ × NetCall ((χ × List Reading) × ℕ)) (ℤ × ℕ))
    (hrun : t ∈ steps (NetCall.execCleared B.logged.metered L) calls w₀)
    (hcall : t.call.2.Covered t.before) :
    Follows t.before t.after t.result t.call.2 ↔
      ¬ Deviates t.before (readings t.before t.after) t.call.2 := by
  have hexec := exec_of_mem_steps hrun
  unfold NetCall.execCleared at hexec
  rw [bind_eq, show (modify World.clearErrno : Fat.FatSys ((χ × List Reading) × ℕ) κ δ ψ PUnit) t.before =
    .ok (⟨⟩, t.before.clearErrno) from rfl] at hexec
  exact follows_iff B L hroom (w := t.before.clearErrno) rfl t.call.1 hcall _ _ hexec

end Main

/-! ## A send that waits, and a socket that is not bound -/

/-- A chip that gives the values of the status registers and the low bytes of the rooms one
after the other; all other registers are zero. -/
def roomBoard : Board (List Byte) where
  read a c := if a % 0x100 = regSR ∨ a % 0x100 = regTXFSR + 1 then (c.headD 0, c.tail) else (0, c)
  write _ _ c := c
  clockGettime c := (timespecZero, c)
  usartReady c := (true, c)
  usartRecv c := (0, c)
  usartSend _ c := c

/-- It has never more room than 255 bytes. -/
theorem roomBounded_roomBoard : roomBoard.RoomBounded := by
  intro i c n c' h
  have hi : sockRegGet regTXFSR i % 2 ^ 16 % 0x100 ≠ regSR ∧
      sockRegGet regTXFSR i % 2 ^ 16 % 0x100 ≠ regTXFSR + 1 := by
    unfold sockRegGet s0RegsOffset socketRegsSize regTXFSR regSR
    omega
  obtain ⟨lo, c1, hlo⟩ : ∃ lo c1, readByte roomBoard (sockRegGet regTXFSR i + 1) c = .ok (lo, c1) :=
    ⟨_, _, rfl⟩
  have hread : readSockReg16 roomBoard regTXFSR i c = .ok (word16 0 lo, c1) := by
    have hhi : readByte roomBoard (sockRegGet regTXFSR i) c = .ok (0, c) := by
      unfold readByte roomBoard
      dsimp only
      rw [if_neg (not_or.2 hi)]
    unfold readSockReg16 readMem readMem readMem
    rw [bind_eq, bind_eq, hhi]
    dsimp only
    rw [bind_eq, bind_eq, hlo]
    rfl
  unfold writeBufLen at h
  rw [bind_of_ok hread] at h
  cases h
  have hlt : lo.toNat < 256 := lo.isLt
  have hzero : (0 : Byte).toNat = 0 := rfl
  show (htons (word16 0 lo)).toNat ≤ 0x800
  rw [toNat_htons_word16]
  omega

/-- A peer. -/
def peerAddr : SockaddrIn := ⟨.inet, 0, 0⟩

/-- The program connects, and sends five bytes.  The chip has room for two of them, then for
none, and then for three. -/
def sendCalls : List (ℕ × NetCall ((List Byte × List Reading) × ℕ)) :=
  [(1, .socket .inet .stream 0), (1, .connect 3 peerAddr), (5, .send 3 [1, 2, 3, 4, 5])]

/-! ### A socket that is not bound -/

/-- A socket is opened, and the program listens on it without `bind`. -/
def unboundCalls : List (ℕ × NetCall ((List Byte × List Reading) × ℕ)) :=
  [(1, .socket .inet .stream 0), (1, .listen 3)]

/-- The chip before the calls. -/
def roomScript : (List Byte × List Reading) × ℕ :=
  (([sockInit, sockEstablished, 2, 0, sockEstablished, 3], []), 0)

/-- The board is initialised, and a call of the run returns as described. -/
theorem room_steps (calls : List (ℕ × NetCall ((List Byte × List Reading) × ℕ))) (k : ℕ)
    (P : Step (World ((List Byte × List Reading) × ℕ) (Fat.FatFs Unit Unit Unit))
      (ℕ × NetCall ((List Byte × List Reading) × ℕ)) (ℤ × ℕ) → Prop) [DecidablePred P]
    (h : ((netRun roomBoard.logged.metered roomScript (fun _ _ => true) []).bind
      fun w => (steps (NetCall.execCleared roomBoard.logged.metered noDisk) calls w)[k]?).any
        (fun t => P t) = true) :
    ∃ w₀ t, netRun roomBoard.logged.metered roomScript (fun _ _ => true) [] = some w₀ ∧
      t ∈ steps (NetCall.execCleared roomBoard.logged.metered noDisk) calls w₀ ∧
      calls[k]? = some t.call ∧ P t := by
  obtain ⟨t, ht, hP⟩ := (Option.any_eq_true _ _).1 h
  obtain ⟨w₀, hw, hk⟩ := Option.bind_eq_some_iff.1 ht
  exact ⟨w₀, t, hw, List.mem_of_getElem? hk, call_of_getElem?_steps hk, of_decide_eq_true hP⟩

/-- The five bytes are sent, in two pieces with a wait between them. -/
theorem follows_iff_send : ∃ w₀ t,
    netRun roomBoard.logged.metered roomScript (fun _ _ => true) [] = some w₀ ∧
    t ∈ steps (NetCall.execCleared roomBoard.logged.metered noDisk) sendCalls w₀ ∧
    t.call.2 = .send 3 [1, 2, 3, 4, 5] ∧ t.result = (5, 0) ∧
    Follows t.before t.after t.result t.call.2 := by
  obtain ⟨w₀, t, hw, ht, hcall, hres, hsock, hptr, hstream, hstate, hfd, hmode, hstalls⟩ :=
    room_steps sendCalls 2 (fun t => t.result = (5, 0) ∧
      (t.before.files 3).stat.fileType = .sock ∧ (t.before.files 3).opaquePtr = .slot 0 ∧
      (t.before.sockets 0).type = .stream ∧ (t.before.sockets 0).state = .connected ∧ (t.before.sockets 0).fdData = some 3 ∧
      nonblockFlag (t.before.files 3).statusFlags = false ∧
      stalls (t.before.sockets 0).sendTimeout false 5
        (looks (t.before.sockets 0).isocket 0 (readings t.before t.after)) = false)
      (by decide +kernel)
  have hsend : t.call.2 = .send 3 [1, 2, 3, 4, 5] :=
    (congrArg Prod.snd (Option.some.inj hcall)).symm
  have hslot : SlotOf t.before 3 0 := ⟨3, rfl, hsock, hptr⟩
  refine ⟨w₀, t, hw, ht, hsend, hres, (follows_iff_of_run _ noDisk roomBounded_roomBoard _ w₀ t ht
    ?_).2 ?_⟩
  · rw [hsend]
    show 5 < 2 ^ 32
    decide
  · rw [hsend]
    rintro ⟨i, hi, hdev⟩
    obtain rfl := hi.unique hslot
    rcases hdev with ⟨-, hconn | ⟨nonblock, hmode', h⟩⟩ | ⟨htype, -⟩
    · exact hconn (.inr hstate)
    · obtain rfl := ModeOf.unique hmode' ⟨3, hfd, hmode⟩
      rcases h with h | ⟨-, h, -⟩
      · exact Bool.false_ne_true (hstalls.symm.trans h)
      · exact absurd h (by decide)
    · exact absurd htype (by rw [hstream]; decide)

/-- `listen` returns 1. -/
theorem unboundListen_not_follows : ∃ w₀ t,
    netRun roomBoard.logged.metered roomScript (fun _ _ => true) [] = some w₀ ∧
    t ∈ steps (NetCall.execCleared roomBoard.logged.metered noDisk) unboundCalls w₀ ∧
    t.call.2 = .listen 3 ∧ t.result = (1, 0) ∧
    ¬ Follows t.before t.after t.result t.call.2 := by
  obtain ⟨w₀, t, hw, ht, hcall, hres, herrno⟩ := room_steps unboundCalls 1
    (fun t => t.result = (1, 0) ∧ t.after.errno = some .EDESTADDRREQ) (by decide +kernel)
  have hlisten : t.call.2 = .listen 3 := (congrArg Prod.snd (Option.some.inj hcall)).symm
  refine ⟨w₀, t, hw, ht, hlisten, hres, ?_⟩
  rw [hlisten, hres]
  show ¬ Convention (1 = 0) 1 t.after.errno
  rw [herrno]
  exact not_convention (by decide)

end W5100

end Nucleo
