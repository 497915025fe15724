/-
# No call reaches a null `fd_data`

`accept`, `recvfrom`, `send` and `sendto` read `s->fd_data->status_flags` without a test.
As long as no `close` orphans a descriptor, that is leaves it open on a slot without
`fd_data` that the calls do not refuse (`Orphans`), every slot that they get that far with
has one: `no_null_deref_of_run`.

A server that closes the listening descriptor first, and then receives from the accepted
connection, dereferences the null pointer (`closedListener_derefs_null`).
-/
import Nucleo.W5100OwnershipRuns
import Nucleo.W5100Rights

namespace Nucleo

namespace W5100

open Comp

section Chip

variable {χ φ : Type}

/-- Waiting is not dereferencing a null pointer. -/
theorem waiting_ne_nullDeref : Stop.waiting ≠ .nullDeref := Stop.noConfusion

/-- Looking a slot up is not reading it. -/
theorem never_getSocketFromFd (B : Board χ) (fd : ℤ) :
    Never .nullDeref (getSocketFromFd fd : Sys χ φ (Option (Fin nSockets))) :=
  never_of_sysCode (made_getSocketFromFd (B := B) ⟨trivial, .inr Stop.noConfusion⟩)

/-- A slot is there. -/
theorem never_getSlot (i : Fin nSockets) : Never .nullDeref (getSlot i : Sys χ φ Slot) :=
  never_get.bind fun _ => never_pure _

/-- Failing takes no pointer. -/
theorem never_fail {α : Type} (e : Errno) (a : α) : Never .nullDeref (fail e a : Sys χ φ α) :=
  (never_modify _).bind fun _ => never_pure _

/-- The only way to the null pointer. -/
theorem avoids_isNonblock {w : World χ φ} {i : Fin nSockets}
    (hdata : (w.sockets i).fdData ≠ none) : Avoids .nullDeref (isNonblock i) w := by
  obtain ⟨d, hd⟩ := Option.ne_none_iff_exists'.1 hdata
  unfold Avoids
  rw [isNonblock_of_fdData hd]
  exact fun h => by cases h

end Chip

/-! ## Slots without `fd_data` -/

/-- A call that leaves a descriptor open on a slot without `fd_data`: `close` of the
listening descriptor of an accepted connection, and `close` of a socket that is no stream
while another open descriptor still points to its slot. -/
def Orphans {χ φ : Type} (w : World χ φ) : NetCall χ → Prop
  | .close fd => ∃ (d : Fin openMax) (i : Fin nSockets), fd = (d.val : ℤ) ∧
      (w.sockets i).fdData = some d ∧
      ((w.sockets i).state = .accepted ∨ (w.sockets i).type ≠ .stream ∧
        ∃ d', d' ≠ d ∧ (w.files d').isallocated = true ∧ (w.files d').opaquePtr = .slot i)
  | _ => False

/-- The invariant: slots in use have their `fd_data`, and descriptors left behind on free
slots are of streams. -/
structure Anchored (T : Tables) : Prop where
  free : ∀ i, (T.sockets i).fd = socketFreeFd → (T.sockets i).state = .none ∧
    (T.sockets i).fdData = none ∧ (T.sockets i).connectionData = none
  used : ∀ i, (T.sockets i).fd ≠ socketFreeFd → (T.sockets i).fdData ≠ none
  left : ∀ d i, (T.files d).isallocated = true → (T.files d).opaquePtr = .slot i →
    (T.sockets i).fd = socketFreeFd → (T.sockets i).type = .stream

section Invariant

variable {T T' : Tables} {i : Fin nSockets}

/-- A slot in use has a descriptor. -/
theorem Anchored.fdData_of_state (h : Anchored T) (hst : (T.sockets i).state ≠ .none) :
    (T.sockets i).fdData ≠ none :=
  h.used i fun hfd => hst (h.free i hfd).1

/-- One slot and one entry change. -/
theorem Anchored.update (h : Anchored T) {d : Fin openMax} {f : Fd} {s : Slot}
    (hfree : s.fd = socketFreeFd → s.state = .none ∧ s.fdData = none ∧ s.connectionData = none)
    (hused : s.fd ≠ socketFreeFd → s.fdData ≠ none)
    (hself : f.isallocated = true → f.opaquePtr = .slot i ∨
      (T.files d).isallocated = true ∧ f.opaquePtr = (T.files d).opaquePtr)
    (hleft : s.fd = socketFreeFd → (f.isallocated = true → f.opaquePtr = .slot i → s.type = .stream) ∧
      ∀ d', d' ≠ d → (T.files d').isallocated = true → (T.files d').opaquePtr = .slot i →
        s.type = .stream) :
    Anchored ((T.setFile d f).setSlot i s) where
  free j := by
    by_cases hji : j = i
    · subst hji
      rw [Tables.setSlot_sockets_self]
      exact hfree
    · rw [Tables.setSlot_sockets_of_ne _ _ hji]
      exact h.free j
  used j := by
    by_cases hji : j = i
    · subst hji
      rw [Tables.setSlot_sockets_self]
      exact hused
    · rw [Tables.setSlot_sockets_of_ne _ _ hji]
      exact h.used j
  left d' j := by
    rw [Tables.setSlot_files]
    by_cases hji : j = i
    · subst hji
      rw [Tables.setSlot_sockets_self]
      by_cases hdd : d' = d
      · subst hdd
        rw [Tables.setFile_files_self]
        exact fun ha hp hfd => (hleft hfd).1 ha hp
      · rw [Tables.setFile_files_of_ne _ _ hdd]
        exact fun ha hp hfd => (hleft hfd).2 d' hdd ha hp
    · rw [Tables.setSlot_sockets_of_ne _ _ hji]
      by_cases hdd : d' = d
      · subst hdd
        rw [Tables.setFile_files_self]
        intro ha hp
        -- the entry points to slot `i`, or to where it pointed
        rcases hself ha with hp' | ⟨ha', hp'⟩
        · exact absurd (Opaque.slot.inj (hp.symm.trans hp')) hji
        · exact h.left d' j ha' (hp'.symm.trans hp)
      · rw [Tables.setFile_files_of_ne _ _ hdd]
        exact h.left d' j

/-! ### What keeps it -/

/-- A file structure may change in other fields. -/
theorem Anchored.setFile (h : Anchored T) {d : Fin openMax} {f : Fd}
    (halloc : f.isallocated = (T.files d).isallocated)
    (hptr : f.opaquePtr = (T.files d).opaquePtr) : Anchored (T.setFile d f) where
  free := h.free
  used := h.used
  left d' j := by
    by_cases hdd : d' = d
    · subst hdd
      rw [Tables.setFile_files_self, halloc, hptr]
      exact h.left d' j
    · rw [Tables.setFile_files_of_ne _ _ hdd]
      exact h.left d' j

/-- A slot may change as its state allows. -/
theorem Anchored.setSlot (h : Anchored T) {s : Slot}
    (hfree : s.fd = socketFreeFd → s.state = .none ∧ s.fdData = none ∧ s.connectionData = none)
    (hused : s.fd ≠ socketFreeFd → s.fdData ≠ none) (hfd : s.fd = (T.sockets i).fd)
    (htype : s.type = (T.sockets i).type) : Anchored (T.setSlot i s) where
  free j := by
    by_cases hji : j = i
    · subst hji
      rw [Tables.setSlot_sockets_self]
      exact hfree
    · rw [Tables.setSlot_sockets_of_ne _ _ hji]
      exact h.free j
  used j := by
    by_cases hji : j = i
    · subst hji
      rw [Tables.setSlot_sockets_self]
      exact hused
    · rw [Tables.setSlot_sockets_of_ne _ _ hji]
      exact h.used j
  left d j := by
    by_cases hji : j = i
    · subst hji
      rw [Tables.setSlot_sockets_self, hfd, htype]
      exact h.left d j
    · rw [Tables.setSlot_sockets_of_ne _ _ hji]
      exact h.left d j

/-- **A turn keeps the tables anchored**. -/
theorem Anchored.turn (h : Anchored T) (ht : Turn T T') : Anchored T' := by
  cases ht with
  | slot i s hs =>
      refine h.setSlot ?_ ?_ hs.fd hs.type
      · rw [hs.fd, hs.fdData, hs.connectionData]
        intro hfd
        obtain ⟨hst, hdata⟩ := h.free i hfd
        refine ⟨?_, hdata⟩
        by_contra hne
        exact hs.state_ne_none hne hst
      · rw [hs.fd, hs.fdData]
        exact h.used i
  | flags d df sf => exact h.setFile rfl rfl

/-- A call keeps the invariant unless it orphans a descriptor. -/
theorem Anchored.effect {χ φ : Type} {w : World χ φ} {call : NetCall χ} (h : Anchored w.tables)
    (hok : ¬ Orphans w call) (he : Effect w.tables call T') : Anchored T' := by
  cases he with
  | turned ht =>
      clear hok
      induction ht with
      | refl => exact h
      | tail _ hlast ih => exact ih.turn hlast
  | refused i hfd =>
      exact h.setSlot (fun _ => ⟨rfl, rfl, rfl⟩) (fun hne => absurd rfl hne) hfd.symm rfl
  | created i d hfd hfresh =>
      have hne : (d.val : ℤ) ≠ socketFreeFd := by
        unfold socketFreeFd
        omega
      exact h.update (fun hfree => absurd hfree hne) (fun _ => Option.some_ne_none d)
        (fun _ => .inl rfl) (fun hfree => absurd hfree hne)
  | accepted l i d hptr hst htype hfresh =>
      have hne : (w.tables.sockets i).fd ≠ socketFreeFd := by
        intro hfd
        rw [(h.free i hfd).1] at hst
        exact SocketState.noConfusion hst
      exact h.update (fun hfree => absurd hfree hne) (fun _ => h.used i hne) (fun _ => .inl rfl)
        (fun hfree => absurd hfree hne)
  | console d hclose => exact h.setFile rfl rfl
  | closed d i hwhich =>
      have hdata : (w.tables.sockets i).fdData = some d := by
        rcases hwhich with ⟨hdata, -⟩ | ⟨hconn, hnone⟩
        · exact hdata
        · -- a connection without `fd_data` is on no slot in use
          by_cases hfd : (w.tables.sockets i).fd = socketFreeFd
          · rw [(h.free i hfd).2.2] at hconn
            exact absurd hconn.symm (Option.some_ne_none d)
          · exact absurd hnone (h.used i hfd)
      refine h.update (fun _ => ⟨rfl, rfl, rfl⟩) (fun hne => absurd rfl hne)
        (fun ha => Bool.noConfusion ha) (fun _ => ⟨fun ha => Bool.noConfusion ha, ?_⟩)
      intro d' hdd ha hp
      by_contra htype
      exact hok ⟨d, i, rfl, hdata, .inr ⟨htype, d', hdd, ha, hp⟩⟩
  | closedListener d i hdata hst => exact absurd ⟨d, i, rfl, hdata, .inl hst⟩ hok
  | closedConnection d i hconn hdata =>
      have hne : (w.tables.sockets i).fd ≠ socketFreeFd := fun hfd => hdata (h.free i hfd).2.1
      exact h.update (fun hfree => absurd hfree hne) (fun _ => hdata)
        (fun ha => Bool.noConfusion ha) (fun hfree => absurd hfree hne)

/-- They are at the start. -/
theorem anchored_start (hfiles : T.files = stdioInit) (hfreed : ∀ i, (T.sockets i).Freed) :
    Anchored T where
  free i _ := (hfreed i).2
  used i hne := absurd (hfreed i).1 hne
  left d i ha := by
    rw [hfiles] at ha
    unfold stdioInit stdioFd at ha
    split_ifs at ha <;> exact Bool.noConfusion ha

end Invariant

/-! ## The calls that look at `fd_data` -/

section Calls

variable {χ φ : Type} (B : Board χ) (fuel : ℕ) {w : World χ φ}

/-- The loops that follow only wait. -/
theorem never_timeoutUnless (nonblock : Bool) (timeout : Timespec) :
    Never .nullDeref (timeoutUnless B nonblock timeout : Sys χ φ TimeoutManager) :=
  never_of_sysCode (made_timeoutUnless nonblock timeout)

include B in
/-- A call looks its socket up first, and fails where there is none. -/
theorem avoids_onSocket {α : Type} {fd : ℤ} {call : Option (Fin nSockets) → Sys χ φ α} {a : α}
    (hnone : call none = pure a)
    (hsome : ∀ (d : Fin openMax) (i : Fin nSockets), fd = (d.val : ℤ) →
      (w.files d).opaquePtr = .slot i → Avoids .nullDeref (call (some i)) w) :
    Avoids .nullDeref (getSocketFromFd fd >>= call) w := by
  refine (never_getSocketFromFd B fd w).bind ?_
  apply post_getSocketFromFd
  · intro e
    rw [hnone]
    exact never_pure _ _
  · intro d i hfd _ hptr
    exact hsome d i hfd hptr

/-- `accept` follows no null pointer. -/
theorem avoids_accept (h : Anchored w.tables) (fd : ℤ) (wantAddr : Bool) :
    Avoids .nullDeref (accept B fuel fd wantAddr) w := by
  refine avoids_onSocket B rfl fun _ i _ _ => ?_
  dsimp only
  refine (never_getSlot i w).bind (post_getSlot.2 ?_)
  by_cases hst : (w.sockets i).state = .listening
  · rw [if_neg (not_not.2 hst)]
    by_cases htype : (w.sockets i).type = .stream
    · rw [if_neg (not_not.2 htype)]
      refine Avoids.bind (avoids_isNonblock ?_) fun nb w' _ =>
        never_of_sysCode (made_acceptLoop fuel (.but waiting_ne_nullDeref) i _ _) w'
      apply h.fdData_of_state
      show (w.sockets i).state ≠ .none
      rw [hst]
      exact fun hc => SocketState.noConfusion hc
    · rw [if_pos htype]
      exact never_fail _ _ _
  · rw [if_pos hst]
    exact never_fail _ _ _

/-- The slot of an open descriptor has a descriptor. -/
theorem Anchored.fdData_of_open (h : Anchored w.tables) {d : Fin openMax} {i : Fin nSockets}
    (halloc : (w.files d).isallocated = true) (hptr : (w.files d).opaquePtr = .slot i)
    (htype : (w.sockets i).type ≠ .stream) : (w.sockets i).fdData ≠ none :=
  h.used i fun hfd => htype (h.left d i halloc hptr hfd)

/-! ### Receiving and sending -/

/-- `recvfrom` follows none. -/
theorem avoids_recvfrom (h : Anchored w.tables) {d : Fin openMax}
    (halloc : (w.files d).isallocated = true) (len : ℕ) (wantAddr : Bool) :
    Avoids .nullDeref (recvfrom B fuel (d.val : ℤ) len wantAddr) w := by
  refine avoids_onSocket B rfl fun d' i hd hptr => ?_
  have hdd : d' = d := Fin.ext (by omega)
  subst hdd
  dsimp only
  refine (never_getSlot i w).bind (post_getSlot.2 ?_)
  split_ifs with hstream hdgram hlen
  · exact never_fail _ _ _
  · exact never_fail _ _ _
  · exact never_pure _ _
  · have hdata : (w.sockets i).fdData ≠ none := by
      by_cases htype : (w.sockets i).type = .stream
      · apply h.fdData_of_state
        intro hnone
        have hnone : (w.sockets i).state = .none := hnone
        apply hstream
        rw [hnone]
        exact ⟨htype, fun hc => SocketState.noConfusion hc, fun hc => SocketState.noConfusion hc⟩
      · exact h.fdData_of_open halloc hptr htype
    refine (avoids_isNonblock hdata).bind fun nb w1 _ => ?_
    exact ((never_timeoutUnless B nb _).bind fun tom =>
      never_of_sysCode (made_recvLoop fuel (.but waiting_ne_nullDeref)
        (Rights.Receives.but waiting_ne_nullDeref) i len wantAddr nb tom)) w1

/-- Sending on a stream socket follows none. -/
theorem avoids_sendTcp (h : Anchored w.tables) (i : Fin nSockets) (buf : List Byte) :
    Avoids .nullDeref (sendTcp B fuel i buf) w := by
  refine (never_getSlot i w).bind (post_getSlot.2 ?_)
  split_ifs with hst
  · exact never_fail _ _ _
  · have hdata : (w.sockets i).fdData ≠ none := by
      apply h.fdData_of_state
      intro hnone
      have hnone : (w.sockets i).state = .none := hnone
      apply hst
      rw [hnone]
      exact ⟨fun hc => SocketState.noConfusion hc, fun hc => SocketState.noConfusion hc⟩
    refine (avoids_isNonblock hdata).bind fun nb w1 _ => ?_
    exact ((never_timeoutUnless B nb _).bind fun tom =>
      (never_of_sysCode (made_sendLoop fuel (.but waiting_ne_nullDeref)
        (Rights.Transmits.but waiting_ne_nullDeref) Rights.fits_but i nb tom buf)).bind
          fun rest => never_pure _) w1

/-- `sendto` on a slot with `fd_data`: `check_bind_udp` lets it keep it. -/
theorem avoids_sendtoUdp {i : Fin nSockets} (hdata : (w.sockets i).fdData ≠ none)
    (buf : List Byte) (dest : Option SockaddrIn) :
    Avoids .nullDeref (sendtoUdp B fuel i buf dest) w := by
  refine (never_of_sysCode (made_checkBindUdp fuel (.but waiting_ne_nullDeref) i) w).bind ?_
  refine (turned_checkBindUdp B fuel).mono fun _ w1 hturn => ?_
  have hdata1 : (w1.sockets i).fdData ≠ none := by
    rw [hturn.fdData i]
    exact hdata
  refine (never_getSlot i w1).bind (post_getSlot.2 ?_)
  split_ifs with hlen
  · exact never_fail _ _ _
  · cases dest with
    | none => exact never_fail _ _ _
    | some peer =>
        dsimp only
        split_ifs with hbroadcast
        · exact never_fail _ _ _
        · refine (avoids_isNonblock hdata1).bind fun nb w2 _ => ?_
          exact ((never_timeoutUnless B nb _).bind fun tom =>
            never_of_sysCode (made_sendtoLoop fuel trivial (Rights.Transmits.but waiting_ne_nullDeref)
              Rights.Names.but (Rights.fits_but · buf) i peer nb tom)) w2

theorem avoids_send (h : Anchored w.tables) {d : Fin openMax}
    (halloc : (w.files d).isallocated = true) (buf : List Byte) :
    Avoids .nullDeref (send B fuel (d.val : ℤ) buf) w := by
  refine avoids_onSocket B rfl fun d' i hd hptr => ?_
  have hdd : d' = d := Fin.ext (by omega)
  subst hdd
  dsimp only
  refine (never_getSlot i w).bind (post_getSlot.2 ?_)
  cases htype : (w.sockets i).type with
  | dgram =>
      dsimp only
      split_ifs
      · exact never_fail _ _ _
      · apply avoids_sendtoUdp
        apply h.fdData_of_open halloc hptr
        rw [htype]
        exact fun hc => SockType.noConfusion hc
  | stream => exact avoids_sendTcp B fuel h i buf
  | raw => exact never_fail _ _ _
  | other => exact never_fail _ _ _

theorem avoids_sendto (h : Anchored w.tables) {d : Fin openMax}
    (halloc : (w.files d).isallocated = true) (buf : List Byte) (dest : Option SockaddrIn) :
    Avoids .nullDeref (sendto B fuel (d.val : ℤ) buf dest) w := by
  refine avoids_onSocket B rfl fun d' i hd hptr => ?_
  have hdd : d' = d := Fin.ext (by omega)
  subst hdd
  dsimp only
  refine (never_getSlot i w).bind (post_getSlot.2 ?_)
  cases htype : (w.sockets i).type with
  | stream => exact avoids_sendTcp B fuel h i buf
  | dgram =>
      apply avoids_sendtoUdp
      apply h.fdData_of_open halloc hptr
      rw [htype]
      exact fun hc => SockType.noConfusion hc
  | raw => exact never_fail _ _ _
  | other => exact never_fail _ _ _

end Calls

/-! ## Runs -/

section Runs

variable {χ κ δ ψ : Type} (B : Board χ) (L : Fat.FatLib κ δ ψ)
  {w : World χ (Fat.FatFs κ δ ψ)}

/-- The calls on the descriptor that read `s->fd_data->status_flags`. -/
def NetCall.LooksAt (d : Fin openMax) : NetCall χ → Prop
  | .accept fd _ => fd = (d.val : ℤ)
  | .send fd _ => fd = (d.val : ℤ)
  | .sendto fd _ _ => fd = (d.val : ℤ)
  | .recv fd _ => fd = (d.val : ℤ)
  | .recvfrom fd _ _ => fd = (d.val : ℤ)
  | _ => False

/-- **No call of `accept`, `send`, `sendto` or `recvfrom` on an open socket dereferences a
null `fd_data`** in a state reached from `w5100_socket_init` by calls and events none of
which orphans a descriptor. -/
theorem no_null_deref_of_run (static : Option StaticIp) (fuel : ℕ) (chip : χ)
    (fat : Fat.FatFs κ δ ψ) (w₀ : World χ (Fat.FatFs κ δ ψ))
    (hinit : socketInit B fuel static (bootWorld chip fat) = .ok ((), w₀))
    (hrun : Run (NetCall.exec B L) (fun w call => ¬ Orphans w call.2) w₀ w)
    (d : Fin openMax) (hopen : IsSocket (w.files d)) (call : ℕ × NetCall χ)
    (hcall : call.2.LooksAt d) : NetCall.exec B L call w ≠ .error .nullDeref := by
  obtain ⟨-, h⟩ := tables_of_run B L fuel (I := Anchored) hinit hrun
    (fun T hfiles hfreed => anchored_start hfiles hfreed)
    (fun w call T' _ h hok he => h.effect hok he)
  obtain ⟨fuel, call⟩ := call
  cases call with
  | accept fd wantAddr =>
      exact (avoids_accept B fuel h fd wantAddr).bind fun _ w' _ => never_pure _ w'
  | send fd buf =>
      rw [show fd = (d.val : ℤ) from hcall]
      exact avoids_send B fuel h hopen.1 buf
  | sendto fd buf dest =>
      rw [show fd = (d.val : ℤ) from hcall]
      exact avoids_sendto B fuel h hopen.1 buf dest
  | recv fd len =>
      rw [show fd = (d.val : ℤ) from hcall]
      exact (avoids_recvfrom B fuel h hopen.1 len false).bind fun _ w' _ => never_pure _ w'
  | recvfrom fd len wantAddr =>
      rw [show fd = (d.val : ℤ) from hcall]
      exact (avoids_recvfrom B fuel h hopen.1 len wantAddr).bind fun _ w' _ => never_pure _ w'
  | socket domain type protocol => exact absurd hcall id
  | bind fd addr => exact absurd hcall id
  | connect fd addr => exact absurd hcall id
  | listen fd => exact absurd hcall id
  | setsockopt fd solSocket option => exact absurd hcall id
  | fcntl fd cmd => exact absurd hcall id
  | poll fd events => exact absurd hcall id
  | close fd => exact absurd hcall id
  | event chip => exact absurd hcall id

end Runs

/-! ## A server that closes its listening descriptor -/

/-- The state after `w5100_socket_init` and calls on a board without files, while `ok` allows
them. -/
def netRun {χ : Type} (B : Board χ) (chip : χ)
    (ok : World χ (Fat.FatFs Unit Unit Unit) → ℕ × NetCall χ → Bool)
    (calls : List (ℕ × NetCall χ)) : Option (World χ (Fat.FatFs Unit Unit Unit)) :=
  match socketInit B 1 none (bootWorld chip noFiles) with
  | .ok (_, w₀) => runList (NetCall.exec B noDisk) ok calls w₀
  | .error _ => none

/-- The run that is computed is a run. -/
theorem run_of_netRun {χ : Type} {B : Board χ} {chip : χ}
    {ok : World χ (Fat.FatFs Unit Unit Unit) → ℕ × NetCall χ → Prop}
    {okb : World χ (Fat.FatFs Unit Unit Unit) → ℕ × NetCall χ → Bool}
    (hok : ∀ w call, okb w call = true → ok w call) {calls : List (ℕ × NetCall χ)}
    {w : World χ (Fat.FatFs Unit Unit Unit)} (h : netRun B chip okb calls = some w) :
    ∃ w₀, socketInit B 1 none (bootWorld chip noFiles) = .ok ((), w₀) ∧
      Run (NetCall.exec B noDisk) ok w₀ w := by
  unfold netRun at h
  cases hinit : socketInit B 1 none (bootWorld chip noFiles) with
  | error e =>
      rw [hinit] at h
      cases h
  | ok r =>
      rw [hinit] at h
      exact ⟨r.2, rfl, Run.of_runList hok .start h⟩

theorem run_of_netRun_all {χ : Type} {B : Board χ} {chip : χ} {calls : List (ℕ × NetCall χ)}
    {w : World χ (Fat.FatFs Unit Unit Unit)} (h : netRun B chip (fun _ _ => true) calls = some w) :
    ∃ w₀, socketInit B 1 none (bootWorld chip noFiles) = .ok ((), w₀) ∧
      Run (NetCall.exec B noDisk) (fun _ _ => True) w₀ w := run_of_netRun (fun _ _ _ => trivial) h

instance {χ φ : Type} (w : World χ φ) (call : NetCall χ) : Decidable (Orphans w call) :=
  match call with
  | .close fd => inferInstanceAs (Decidable (∃ (d : Fin openMax) (i : Fin nSockets),
      fd = (d.val : ℤ) ∧ (w.sockets i).fdData = some d ∧
      ((w.sockets i).state = .accepted ∨ (w.sockets i).type ≠ .stream ∧
        ∃ d', d' ≠ d ∧ (w.files d').isallocated = true ∧ (w.files d').opaquePtr = .slot i)))
  | .socket .. | .bind .. | .connect .. | .listen .. | .accept .. | .send .. | .sendto ..
  | .recv .. | .recvfrom .. | .setsockopt .. | .fcntl .. | .poll .. | .event .. =>
      inferInstanceAs (Decidable False)

instance (f : Fd) : Decidable (IsSocket f) :=
  inferInstanceAs (Decidable (f.isallocated = true ∧ f.stat.fileType = .sock))

/-- A server up to its first connection, descriptor 4. -/
def acceptCalls : List (ℕ × NetCall (List Byte)) :=
  [(1, .socket .inet .stream 0), (1, .bind 3 ⟨.inet, 80, inaddrAny⟩), (1, .listen 3),
   (1, .accept 3 false)]

/-- What the chip answers to it: the socket opens, listens and is established. -/
def acceptScript : List Byte := [0, 0, sockInit, 0, sockListen, sockEstablished]

/-- The server may receive from the connection. -/
theorem no_null_deref_server : ∃ w, netRun scriptBoard acceptScript
      (fun w call => ¬ Orphans w call.2) acceptCalls = some w ∧
    NetCall.exec scriptBoard noDisk (1, .recv 4 1) w ≠ .error .nullDeref := by
  have hopen : (netRun scriptBoard acceptScript (fun w call => ¬ Orphans w call.2)
      acceptCalls).any (fun w => IsSocket (w.files 4)) = true := by decide +kernel
  obtain ⟨w, hw, h4⟩ := (Option.any_eq_true _ _).1 hopen
  obtain ⟨w₀, hinit, hrun⟩ := run_of_netRun (fun w call h => of_decide_eq_true h) hw
  exact ⟨w, hw, no_null_deref_of_run _ _ none 1 _ _ w₀ hinit hrun 4 (of_decide_eq_true h4) _ rfl⟩

/-- The server closes its listening descriptor and receives from the connection. -/
theorem closedListener_derefs_null : ∃ w₀ w,
    socketInit scriptBoard 1 none (bootWorld acceptScript noFiles) = .ok ((), w₀) ∧
    Run (NetCall.exec scriptBoard noDisk) (fun _ _ => True) w₀ w ∧ IsSocket (w.files 4) ∧
    NetCall.exec scriptBoard noDisk (1, .recv 4 1) w = .error .nullDeref := by
  have hderef : (netRun scriptBoard acceptScript (fun _ _ => true)
      (acceptCalls ++ [(1, .close 3)])).any (fun w => IsSocket (w.files 4) ∧
        (NetCall.exec scriptBoard noDisk (1, .recv 4 1) w).map Prod.fst = .error .nullDeref) =
      true := by decide +kernel
  obtain ⟨w, hw, hd⟩ := (Option.any_eq_true _ _).1 hderef
  obtain ⟨w₀, hinit, hrun⟩ := run_of_netRun_all hw
  rw [decide_eq_true_eq] at hd
  obtain ⟨hopen, hnull⟩ := hd
  refine ⟨w₀, w, hinit, hrun, hopen, ?_⟩
  cases hexec : NetCall.exec scriptBoard noDisk (1, .recv 4 1) w with
  | ok r =>
      rw [hexec] at hnull
      cases hnull
  | error e =>
      rw [hexec] at hnull
      cases hnull
      rfl

end W5100

end Nucleo
