/-
# The calls that meet a connection

`recv` and `send` use the connection of their slot, and may end with the slot disconnected or
listening again (`Ended`).  `close` disconnects what is established on the slot (`OnClose`),
and `accept` gives a slot the connection that is there (`Joined`).  `joined_exec` puts all calls
together.
-/
import Nucleo.W5100Undisturbed

namespace Nucleo

namespace W5100

open Comp

variable {χ φ : Type} {C : Connections χ} {j : Fin nSockets}
  {w w' w'' : World (χ × List ConnUse) φ}

/-! ## What a call does with the chip -/

/-- The tables are the same, and the chip may have been used on the slot's socket. -/
structure Passed (C : Connections χ) (j : Fin nSockets) (w w' : World (χ × List ConnUse) φ) :
    Prop where
  same : w.Same w'
  used : Used C (w.sockets j).isocket w.chip w'.chip

theorem Passed.refl (w : World (χ × List ConnUse) φ) : Passed C j w w :=
  ⟨.refl, (Quiet.refl _).used⟩

theorem Passed.trans (h : Passed C j w w') (h' : Passed C j w' w'') : Passed C j w w'' := by
  have hused := h'.used
  rw [h.same.sockets] at hused
  exact ⟨h.same.trans h'.same, h.used.trans hused⟩

instance : Std.Refl (Passed C j (φ := φ)) := ⟨Passed.refl⟩
instance : IsTrans _ (Passed C j (φ := φ)) := ⟨fun _ _ _ => Passed.trans⟩

/-- How a call that may meet the end of a connection ends. -/
inductive Ended (C : Connections χ) (j : Fin nSockets) (w : World (χ × List ConnUse) φ) :
    World (χ × List ConnUse) φ → Prop
  | passed {w' : World (χ × List ConnUse) φ} : Passed C j w w' → Ended C j w w'
  | relistened {w' : World (χ × List ConnUse) φ} {c : χ × List ConnUse} :
      Passed C j w w' → (w.sockets j).state = .accepted →
      Listened C (w.sockets j).isocket w'.chip c →
      Ended C j w ((w'.setChip c).setSlot j { w'.sockets j with state := .listening })
  | disconnected {w' : World (χ × List ConnUse) φ} : Passed C j w w' →
      Ended C j w (w'.setSlot j { w'.sockets j with state := .disconnected })

/-- It may pass before the connection ends. -/
theorem Ended.of_passed (h : Passed C j w w') (h' : Ended C j w' w'') : Ended C j w w'' := by
  cases h' with
  | passed h' => exact .passed (h.trans h')
  | relistened h' hst hlistened =>
      rw [h.same.sockets] at hst hlistened
      exact .relistened (h.trans h') hst hlistened
  | disconnected h' => exact .disconnected (h.trans h')

/-- `errno` passes. -/
theorem passed_setErrno (e : Errno) : Passed C j w (w.setErrno e) :=
  ⟨World.same_setErrno e, (Quiet.refl _).used⟩

theorem passed_setChip {c : χ × List ConnUse} (h : Used C (w.sockets j).isocket w.chip c) :
    Passed C j w (w.setChip c) := ⟨World.same_setChip c, h⟩

/-- What leaves the tables and the connections alone is passed over. -/
theorem passed_of_sysCode {B : Board χ} (hC : C.Obeys B) {α : Type}
    {x : Sys (χ × List ConnUse) φ α} (h : SysCode (B.watched C) quietRights x) :
    Along (Passed C j) x := by
  refine h.along fun _ _ hstep w => ?_
  cases hstep with
  | chip hx =>
      exact post_onChip_along (quiet_of_chipCode hC hx) fun _ _ h' => passed_setChip h'.used
  | get => exact post_get.2 (.refl w)
  | setErrno e _ => exact post_modify.2 (passed_setErrno e)
  | modifySlot hf => exact hf.elim
  | modifyFile _ _ hf => exact hf.elim
  | stop _ => exact post_throw.2 trivial

section Board

variable {B : Board χ} (hC : C.Obeys B) (fuel : ℕ)

include hC

/-! ## Connections that end -/

/-- **Listening again** uses the chip socket of the connection only. -/
theorem listened_relisten (i : Fin nSockets) {Q : Unit → World (χ × List ConnUse) φ → Prop}
    (h : ∀ c, Listened C i w.chip c →
      Q () ((w.setChip c).setSlot j { w.sockets j with state := .listening })) :
    Post (relisten (B.watched C) fuel j i) Q w := by
  unfold relisten
  refine post_onChip_along_bind (along_command_listened hC fuel i (by decide)) fun _ c1 h1 => ?_
  refine post_onChip_along_bind (along_command_listened hC fuel i (by decide)) fun _ c2 h2 => ?_
  refine post_onChip_along_bind (along_readUntil hC fuel _ _ _) fun _ c3 h3 => ?_
  rw [post_modifySlot]
  exact h c3 ((h1.trans h2).trans h3.listened)

/-- `manage_disconnect`, which changes nothing if the connection is there. -/
theorem ended_manageDisconnect :
    Post (manageDisconnect (B.watched C) fuel j)
      (fun gone w' => Ended C j w w' ∧ (gone = false → Passed C j w w')) w := by
  unfold manageDisconnect
  rw [post_bind, post_getSlot]
  refine post_onChip_along_bind (quiet_of_chipCode hC (.step (.read _))) fun sr c1 h1 => ?_
  have hp1 : Passed C j w (w.setChip c1) := passed_setChip h1.used
  rw [post_ite]
  refine ⟨fun _ => ?_, fun _ => post_pure.2 ⟨.passed hp1, fun _ => hp1⟩⟩
  rw [post_bind, post_setErrno]
  refine post_onChip_along_bind (used_of_chipCode hC _ (made_command fuel trivial
    (connRights_command (fun h => absurd h (by decide)) fun _ => rfl))) fun _ c2 h2 => ?_
  refine post_onChip_along_bind (along_readUntil hC fuel _ _ _) fun _ c3 h3 => ?_
  have hp3 : Passed C j w ((((w.setChip c1).setErrno
      (if sr = sockCloseWait then .ECONNRESET else .ETIMEDOUT)).setChip c2).setChip c3) :=
    ⟨⟨rfl, rfl, rfl⟩, (h1.used.trans h2).trans h3.used⟩
  rw [post_bind, post_getSlot, post_ite]
  constructor
  · -- `LISTEN` is given while the slot still is `ACCEPTED`, which it is no longer in the end
    rintro ⟨hst, -⟩
    rw [post_bind]
    refine listened_relisten hC fuel _ fun c4 h4 => post_pure.2 ⟨?_, fun h => by cases h⟩
    exact .relistened hp3 hst h4
  · intro _
    rw [post_bind, post_modifySlot, post_pure]
    exact ⟨.disconnected hp3, fun h => by cases h⟩

/-! ## `recv` and `send` -/

/-- A look for data may end the connection. -/
theorem ended_recvRound (len : ℕ) (wantAddr : Bool) :
    Post (recvRound (B.watched C) fuel j len wantAddr)
      (fun r w' => Ended C j w w' ∧ (r = none → Passed C j w w')) w := by
  unfold recvRound
  rw [post_bind, post_getSlot]
  cases (w.sockets j).type with
  | stream =>
      refine post_onChip_along_bind (used_of_chipCode hC _
        (made_readBuf fuel usedRights_receives len)) fun r c1 h1 => ?_
      have hp1 : Passed C j w (w.setChip c1) := passed_setChip h1
      rw [post_ite]
      refine ⟨fun _ => post_pure.2 ⟨.passed hp1, fun _ => hp1⟩, fun _ => ?_⟩
      rw [post_bind]
      refine (ended_manageDisconnect hC fuel).mono ?_
      rintro gone w2 ⟨h2, hstays⟩
      cases gone with
      | true => exact post_pure.2 ⟨h2.of_passed hp1, fun h => by cases h⟩
      | false => exact post_pure.2 ⟨h2.of_passed hp1, fun _ => hp1.trans (hstays rfl)⟩
  | dgram =>
      refine post_onChip_along_bind (quiet_of_chipCode hC (made_readBufLen _)) fun toread c1 h1 => ?_
      have hp1 : Passed C j w (w.setChip c1) := passed_setChip h1.used
      rw [post_ite]
      refine ⟨fun _ => ?_, fun _ => post_pure.2 ⟨.passed hp1, fun _ => hp1⟩⟩
      refine post_onChip_along_bind (used_of_chipCode hC _
        (made_recvDatagram fuel usedRights_receives wantAddr)) fun r c2 h2 => ?_
      have hp2 : Passed C j w ((w.setChip c1).setChip c2) := hp1.trans (passed_setChip h2)
      exact post_pure.2 ⟨.passed hp2, fun _ => hp2⟩
  | raw => exact post_pure.2 ⟨.passed (.refl _), fun _ => .refl _⟩
  | other => exact post_pure.2 ⟨.passed (.refl _), fun _ => .refl _⟩

theorem ended_recvLoop (len : ℕ) (wantAddr nonblock : Bool) (tom : TimeoutManager) :
    Post (recvLoop (B.watched C) fuel j len wantAddr nonblock tom)
      (fun _ w' => Ended C j w w') w := by
  unfold recvLoop
  -- a round that does not end the loop has found the connection there
  refine Post.iter (fun _ w' => Passed C j w w') ?_ fuel (.refl w)
  intro _ w1 h1
  rw [post_bind]
  refine (ended_recvRound hC fuel len wantAddr).mono ?_
  rintro r w2 ⟨h2, hstays⟩
  cases r with
  | some r => exact post_pure.2 (h2.of_passed h1)
  | none =>
      have hp2 : Passed C j w w2 := h1.trans (hstays rfl)
      dsimp only
      rw [post_ite]
      refine ⟨fun _ => post_fail.2 (.passed (hp2.trans (passed_setErrno _))), fun _ => ?_⟩
      rw [post_bind]
      refine (passed_of_sysCode (j := j) hC (made_timeoutEnded trivial tom) w2).mono fun ended w3 h3 => ?_
      rw [post_ite]
      exact ⟨fun _ => post_pure.2 (.passed (hp2.trans h3)), fun _ => post_pure.2 (hp2.trans h3)⟩

theorem ended_sendLoop (hroom : B.RoomBounded) (nonblock : Bool) (tom : TimeoutManager)
    (buf : List Byte) :
    Post (sendLoop (B.watched C) fuel j nonblock tom buf) (fun _ w' => Ended C j w w') w := by
  unfold sendLoop
  -- as long as the loop goes on the slot has not been turned
  refine Post.iter (fun _ w' => Passed C j w w') ?_ fuel (.refl w)
  intro bytes w1 h1
  rw [post_ite]
  refine ⟨fun _ => post_pure.2 (.passed h1), fun _ => ?_⟩
  rw [post_bind, post_getSlot]
  refine post_onChip_along_bind (used_of_chipCode hC _
    (made_writeBuf fuel usedRights_transmits (fits_watched hroom _ _))) fun written c2 h2 => ?_
  have hp2 : Passed C j w (w1.setChip c2) := h1.trans (passed_setChip h2)
  rw [post_ite]
  constructor
  · intro _
    rw [post_ite]
    exact ⟨fun _ => post_pure.2 (.passed hp2), fun _ => post_pure.2 hp2⟩
  · intro _
    rw [post_bind]
    refine (ended_manageDisconnect hC fuel).mono ?_
    rintro gone w3 ⟨h3, hstays⟩
    cases gone with
    | true => exact post_pure.2 (h3.of_passed hp2)
    | false =>
        have hp3 : Passed C j w w3 := hp2.trans (hstays rfl)
        show Post (if _ then _ else _) _ w3
        rw [if_neg Bool.false_ne_true, post_ite]
        refine ⟨fun _ => post_fail.2 (.passed (hp3.trans (passed_setErrno _))), fun _ => ?_⟩
        rw [post_bind]
        refine (passed_of_sysCode (j := j) hC (made_timeoutEnded trivial tom) w3).mono fun ended w4 h4 => ?_
        rw [post_ite]
        exact ⟨fun _ => post_pure.2 (.passed (hp3.trans h4)),
          fun _ => post_pure.2 (hp3.trans h4)⟩

end Board

/-! ### What is not disturbed -/

/-- What passes disturbs no other connection. -/
theorem Passed.undisturbed (h : Passed C j w w') : Undisturbed C w w' :=
  .of_rests h.same.sockets h.used.rests

theorem Ended.undisturbed (hs : Sound w.tables) (h : Ended C j w w') : Undisturbed C w w' := by
  cases h with
  | passed h => exact h.undisturbed
  | relistened h hst hlistened =>
      rw [hs.isocket_of_state hst (by decide)] at hlistened
      exact h.undisturbed.trans (.of_setSlot (fun hc => SocketState.noConfusion hc)
        (fun _ _ => rfl) hlistened.rests hlistened.grows)
  | disconnected h =>
      exact h.undisturbed.trans (undisturbed_setSlot fun hacc => SocketState.noConfusion hacc)

/-! ## `recv`, `send` and `sendto` -/


/-- A call on a descriptor finds nothing to do with its slot, or uses the connection of a slot
that is connected. -/
def OnSlot (C : Connections χ) (fd : ℤ) (w w' : World (χ × List ConnUse) φ) : Prop :=
  w'.chip = w.chip ∨ ∃ (d : Fin openMax) (i : Fin nSockets), fd = (d.val : ℤ) ∧
    (w.files d).opaquePtr = .slot i ∧ ((w.sockets i).type = .stream →
      ((w.sockets i).state = .accepted ∨ (w.sockets i).state = .connected) ∧ Ended C i w w')

/-- What `recv` and `send` do. -/
structure OnConnection (C : Connections χ) (fd : ℤ) (w w' : World (χ × List ConnUse) φ) :
    Prop where
  undisturbed : Undisturbed C w w'
  onSlot : OnSlot C fd w w'

theorem OnConnection.of_same (fd : ℤ) (hs : w'.sockets = w.sockets) (hchip : w'.chip = w.chip) :
    OnConnection C fd w w' := by
  refine ⟨.of_rests hs fun i => ?_, .inl hchip⟩
  rw [hchip]
  exact .refl _ _

/-- An error does nothing to it. -/
theorem onConnection_fail {α : Type} (fd : ℤ) (e : Errno) (a : α) :
    Along (OnConnection C fd) (fail e a : Sys (χ × List ConnUse) φ α) :=
  fun _ => post_fail.2 (.of_same fd rfl rfl)

/-- A call looks its socket up first, and fails where there is none. -/
theorem onConnection_onSocket {α : Type} {fd : ℤ}
    {call : Option (Fin nSockets) → Sys (χ × List ConnUse) φ α} {a : α} (hnone : call none = pure a)
    (hsome : ∀ (d : Fin openMax) (i : Fin nSockets), fd = (d.val : ℤ) →
      (w.files d).opaquePtr = .slot i →
      Post (call (some i)) (fun _ w' => OnConnection C fd w w') w) :
    Post (getSocketFromFd fd >>= call) (fun _ w' => OnConnection C fd w w') w := by
  rw [post_bind]
  apply post_getSocketFromFd
  · intro e
    rw [hnone]
    exact post_pure.2 (.of_same fd rfl rfl)
  · intro d i hfd _ hptr
    exact hsome d i hfd hptr

section Calls

variable {B : Board χ} (hC : C.Obeys B) (fuel : ℕ)

include hC

/-- `recvfrom` is on its own connection. -/
theorem onConnection_recvfrom (hs : Sound w.tables) (fd : ℤ) (len : ℕ) (wantAddr : Bool) :
    Post (recvfrom (B.watched C) fuel fd len wantAddr)
      (fun _ w' => OnConnection C fd w w') w := by
  unfold recvfrom
  refine onConnection_onSocket rfl fun d i hfd hptr => ?_
  dsimp only
  rw [post_bind, post_getSlot, post_ite]
  refine ⟨fun _ => onConnection_fail fd _ _ w, fun hstream => ?_⟩
  rw [post_ite]
  refine ⟨fun _ => onConnection_fail fd _ _ w, fun _ => ?_⟩
  rw [post_ite]
  refine ⟨fun _ => post_pure.2 (.of_same fd rfl rfl), fun _ => ?_⟩
  rw [post_bind]
  refine (passed_of_sysCode (j := i) hC (made_isNonblock trivial i) w).mono fun nonblock w1 h1 => ?_
  rw [post_bind]
  refine (passed_of_sysCode (j := i) hC (made_timeoutUnless nonblock _) w1).mono fun tom w2 h2 => ?_
  refine (ended_recvLoop hC fuel len wantAddr nonblock tom).mono fun _ w3 h3 => ?_
  have hended : Ended C i w w3 := h3.of_passed (h1.trans h2)
  refine ⟨hended.undisturbed hs, .inr ⟨d, i, hfd, hptr, fun htype => ⟨?_, hended⟩⟩⟩
  by_contra hst
  exact hstream ⟨htype, fun h => hst (.inl h), fun h => hst (.inr h)⟩

/-! ### Sending -/

/-- `send` changes nothing, or is on a connection. -/
theorem ended_sendTcp (hroom : B.RoomBounded) (i : Fin nSockets) (buf : List Byte) :
    Post (sendTcp (B.watched C) fuel i buf) (fun _ w' => w'.chip = w.chip ∧
      w'.sockets = w.sockets ∨ ((w.sockets i).state = .accepted ∨
        (w.sockets i).state = .connected) ∧ Ended C i w w') w := by
  unfold sendTcp
  rw [post_bind, post_getSlot, post_ite]
  refine ⟨fun _ => post_fail.2 (.inl ⟨rfl, rfl⟩), fun hconn => ?_⟩
  rw [post_bind]
  refine (passed_of_sysCode (j := i) hC (made_isNonblock trivial i) w).mono fun nonblock w1 h1 => ?_
  rw [post_bind]
  refine (passed_of_sysCode (j := i) hC (made_timeoutUnless nonblock _) w1).mono fun tom w2 h2 => ?_
  rw [post_bind]
  refine (ended_sendLoop hC fuel hroom nonblock tom buf).mono fun rest w3 h3 => ?_
  refine post_pure.2 (.inr ⟨?_, h3.of_passed (h1.trans h2)⟩)
  by_contra hst
  exact hconn ⟨fun h => hst (.inl h), fun h => hst (.inr h)⟩

/-- A stream's `send`. -/
theorem onConnection_sendTcp (hroom : B.RoomBounded) (hs : Sound w.tables) {fd : ℤ}
    {d : Fin openMax} {i : Fin nSockets} (hfd : fd = (d.val : ℤ))
    (hptr : (w.files d).opaquePtr = .slot i) (buf : List Byte) :
    Post (sendTcp (B.watched C) fuel i buf) (fun _ w' => OnConnection C fd w w') w := by
  refine (ended_sendTcp hC fuel hroom i buf).mono fun _ w' h => ?_
  rcases h with ⟨hchip, hsockets⟩ | ⟨hconn, hended⟩
  · exact .of_same fd hsockets hchip
  · exact ⟨hended.undisturbed hs, .inr ⟨d, i, hfd, hptr, fun _ => ⟨hconn, hended⟩⟩⟩

/-- A datagram socket is no connection. -/
theorem onConnection_sendtoUdp {fd : ℤ} {d : Fin openMax}
    {i : Fin nSockets} (hfd : fd = (d.val : ℤ)) (hptr : (w.files d).opaquePtr = .slot i)
    (htype : (w.sockets i).type ≠ .stream) (buf : List Byte) (dest : Option SockaddrIn) :
    Post (sendtoUdp (B.watched C) fuel i buf dest) (fun _ w' => OnConnection C fd w w') w :=
  (undisturbed_of_sysCode hC (made_sendtoUdp fuel apartRights_binds trivial
    (fun _ => connRights_transmits trivial) (fun _ => connRights_names) trivial i buf dest) w).mono
    fun _ _ h => ⟨h, .inr ⟨d, i, hfd, hptr, fun hstream => absurd hstream htype⟩⟩

/-- `send` is on its own connection. -/
theorem onConnection_send (hroom : B.RoomBounded) (hs : Sound w.tables) (fd : ℤ)
    (buf : List Byte) :
    Post (send (B.watched C) fuel fd buf) (fun _ w' => OnConnection C fd w w') w := by
  unfold send
  refine onConnection_onSocket rfl fun d i hfd hptr => ?_
  dsimp only
  rw [post_bind, post_getSlot]
  cases htype : (w.sockets i).type with
  | dgram =>
      dsimp only
      rw [post_ite]
      refine ⟨fun _ => onConnection_fail fd _ _ w, fun _ => ?_⟩
      refine onConnection_sendtoUdp hC fuel hfd hptr ?_ buf _
      rw [htype]
      exact fun hc => SockType.noConfusion hc
  | stream => exact onConnection_sendTcp hC fuel hroom hs hfd hptr buf
  | raw => exact onConnection_fail fd _ _ w
  | other => exact onConnection_fail fd _ _ w

theorem onConnection_sendto (hroom : B.RoomBounded) (hs : Sound w.tables) (fd : ℤ)
    (buf : List Byte) (dest : Option SockaddrIn) :
    Post (sendto (B.watched C) fuel fd buf dest) (fun _ w' => OnConnection C fd w w') w := by
  unfold sendto
  refine onConnection_onSocket rfl fun d i hfd hptr => ?_
  dsimp only
  rw [post_bind, post_getSlot]
  cases htype : (w.sockets i).type with
  | dgram =>
      refine onConnection_sendtoUdp hC fuel hfd hptr ?_ buf dest
      rw [htype]
      exact fun hc => SockType.noConfusion hc
  | stream => exact onConnection_sendTcp hC fuel hroom hs hfd hptr buf
  | raw => exact onConnection_fail fd _ _ w
  | other => exact onConnection_fail fd _ _ w

/-! ## `close` -/

/-- What `close` may do: it disconnects the connection of the descriptor if it is established,
unless the descriptor is the slot's own. -/
def OnClose (C : Connections χ) (fd : ℤ) (w w' : World (χ × List ConnUse) φ) : Prop :=
  w'.chip.2 = w.chip.2 ∨ ∃ (d : Fin openMax) (i : Fin nSockets), fd = (d.val : ℤ) ∧
    ((w.sockets i).fdData = some d ∨ (w.sockets i).connectionData = some d ∧
      ∃ us, w'.chip.2 = us ++ w.chip.2 ∧ ∀ u ∈ us, u.socket = i ∧
        u.conn = C.count w.chip.1 i ∧ C.established w.chip.1 i = true)

/-- The branch for the descriptor of a connection. -/
theorem onClose_closeConnectionData (hs : Sound w.tables) {i : Fin nSockets} {d : Fin openMax}
    (hconn : (w.sockets i).connectionData = some d) :
    Post (closeConnectionData (B.watched C) fuel i d) (fun _ w' => Undisturbed C w w' ∧
      ∃ us, w'.chip.2 = us ++ w.chip.2 ∧ ∀ u ∈ us, u.socket = i ∧
        u.conn = C.count w.chip.1 i ∧ C.established w.chip.1 i = true) w := by
  have hi : (w.sockets i).isocket = i := hs.isocket i (.inr ⟨d, .inr hconn⟩)
  unfold closeConnectionData
  rw [post_bind, post_getSlot, post_bind, post_releaseFile (hs.number i d (.inr hconn)), post_bind,
    post_modifySlot, hi]
  rw [post_bind, post_onChip]
  refine (post_discon hC fuel i _).mono ?_
  rintro _ c1 ⟨hrests, hlog⟩
  refine post_onChip_along_bind (along_readUntil hC fuel _ _ _) fun _ c2 h2 => ?_
  have hrests2 : ∀ j, C.Rests j w.chip.1 c2.1 := fun j => (hrests j).trans (h2.rests j)
  have hlog2 : ∃ us, c2.2 = us ++ w.chip.2 ∧ ∀ u ∈ us, u.socket = i ∧
      u.conn = C.count w.chip.1 i ∧ C.established w.chip.1 i = true := by
    obtain ⟨us, hus, hall⟩ := hlog
    exact ⟨us, h2.log.trans hus, hall⟩
  -- so far the slot `i` has lost a pointer and the other slots are as they were
  have hothers : ∀ (s : Slot) (f : Fd) (j : Fin nSockets), j ≠ i →
      ((w.setFile d f).setSlot i s).sockets j = w.sockets j := by
    intro s f j hj
    rw [World.setSlot_sockets, Function.update_of_ne hj]
    rfl
  rw [post_bind, post_getSlot, post_ite]
  constructor
  · intro _
    unfold socketFree
    rw [post_bind, post_modifySlot, post_pure]
    refine ⟨?_, hlog2⟩
    exact .of_setSlot (fun hc => SocketState.noConfusion hc) (hothers _ _)
      (fun j _ => hrests2 j) (hrests2 i).grows
  · intro _
    rw [post_bind]
    refine listened_relisten hC fuel i fun c3 h3 => post_pure.2 ⟨?_, ?_⟩
    · exact .of_setSlot (fun hc => SocketState.noConfusion hc) (hothers _ _)
        (fun j hj => (hrests2 j).trans (h3.rests j hj)) ((hrests2 i).grows.trans h3.grows)
    · obtain ⟨us, hus, hall⟩ := hlog2
      exact ⟨us, h3.log.trans hus, hall⟩

/-- Closing a socket disturbs no connection but its own. -/
theorem onClose_sockClose (hs : Sound w.tables) (fd : ℤ) :
    Post (sockClose (B.watched C) fuel fd)
      (fun _ w' => Undisturbed C w w' ∧ OnClose C fd w w') w := by
  -- the number of an entry that a slot points to is its own
  have hself : ∀ (i : Fin nSockets) (d : Fin openMax), (w.sockets i).Points d →
      (w.files d).fd = fd → fd = (d.val : ℤ) := by
    intro i d hd hnum
    rw [← hnum]
    exact hs.number i d hd
  unfold sockClose
  rw [post_bind]
  apply post_getSocketFromFd
  · intro e
    exact post_pure.2 ⟨undisturbed_setErrno e, .inl rfl⟩
  · intro _ i _ _ _
    dsimp only
    rw [post_bind, post_get]
    cases hdata : (w.sockets i).fdData.filter (fun d' => (w.files d').fd = fd) with
    | some d =>
        obtain ⟨hd, hnum⟩ := Option.filter_eq_some_iff.1 hdata
        have hfd : fd = (d.val : ℤ) := hself i d (.inl hd) (by simpa using hnum)
        refine (undisturbed_of_sysCode hC (made_closeFdData fuel apartRights_closes i d) w).mono ?_
        exact fun _ _ h => ⟨h, .inr ⟨d, i, hfd, .inl hd⟩⟩
    | none =>
        dsimp only
        cases hconn : (w.sockets i).connectionData.filter (fun d' => (w.files d').fd = fd) with
        | some d =>
            obtain ⟨hd, hnum⟩ := Option.filter_eq_some_iff.1 hconn
            have hfd : fd = (d.val : ℤ) := hself i d (.inr hd) (by simpa using hnum)
            exact (onClose_closeConnectionData hC fuel hs hd).mono fun _ _ h =>
              ⟨h.1, .inr ⟨d, i, hfd, .inr ⟨hd, h.2⟩⟩⟩
        | none => exact post_fail.2 ⟨undisturbed_setErrno _, .inl rfl⟩

theorem onClose_sysClose {κ δ ψ : Type} {w : World (χ × List ConnUse) (Fat.FatFs κ δ ψ)}
    (L : Fat.FatLib κ δ ψ) (hs : Sound w.tables) (fd : ℤ) :
    Post (sysClose (B.watched C) L fuel fd)
      (fun _ w' => Undisturbed C w w' ∧ OnClose C fd w w') w := by
  unfold sysClose
  refine post_withOpen ⟨undisturbed_setErrno _, .inl rfl⟩ fun d _ _ => ?_
  have hconsole : Post (do
      modifyFile d fun f => { f with isopen := false }
      pure 0 : Fat.FatSys (χ × List ConnUse) κ δ ψ ℤ)
      (fun _ w' => Undisturbed C w w' ∧ OnClose C fd w w') w := by
    rw [post_bind, post_modifyFile, post_pure]
    exact ⟨.of_rests rfl fun _ => .refl _ _, .inl rfl⟩
  cases hclose : (w.files d).close with
  | none => exact hconsole
  | some driver =>
      cases driver with
      | usart => exact hconsole
      | fatfs => exact absurd hclose (hs.drivers d)
      | w5100 => exact onClose_sockClose hC fuel hs fd

/-! ## `accept` -/

omit hC

/-- A slot that is accepted has been so before and is not disturbed, or it has been given a new
descriptor and the connection that is there. -/
structure Joined (C : Connections χ) (w w' : World (χ × List ConnUse) φ) : Prop where
  grows : ∀ i, C.count w.chip.1 i ≤ C.count w'.chip.1 i
  joins : ∀ i, (w'.sockets i).state = .accepted → ((w.sockets i).state = .accepted ∧
      (w'.sockets i).connectionData = (w.sockets i).connectionData ∧
      C.Rests i w.chip.1 w'.chip.1) ∨
    (C.waits w'.chip.1 i = false ∧ ∃ d, (w'.sockets i).connectionData = some d ∧
      (w.files d).isallocated = false)

/-- What disturbs nothing joins nothing. -/
theorem Undisturbed.joined (h : Undisturbed C w w') : Joined C w w' :=
  ⟨h.grows, fun i hacc => .inl (h.stays i hacc)⟩

include hC

/-- A connection is handed out with a chip socket of its own. -/
theorem joined_acceptEstablished {i : Fin nSockets} (hi : (w.sockets i).isocket = i)
    (hst : (w.sockets i).state = .listening) (hserved : C.waits w.chip.1 i = false)
    (wantAddr : Bool) : Post (acceptEstablished (B.watched C) fuel i wantAddr)
      (fun _ w' => Joined C w w') w := by
  unfold acceptEstablished
  rw [post_bind, post_getSlot, post_bind, hi]
  apply post_fileAlloc
  · dsimp only
    rw [post_bind, post_setErrno]
    refine post_onChip_along_bind (along_command_listened hC fuel i (by decide)) fun _ c1 h1 => ?_
    refine post_onChip_along_bind (along_command_listened hC fuel i (by decide)) fun _ c2 h2 => ?_
    refine post_onChip_along_bind (along_command_listened hC fuel i (by decide)) fun _ c3 h3 => ?_
    have hlistened : Listened C i w.chip c3 := (h1.trans h2).trans h3
    refine post_pure.2 (Undisturbed.joined ?_)
    refine .of_slot (i := i) ?_ (fun _ _ => rfl) hlistened.rests hlistened.grows
    show (w.sockets i).state ≠ .accepted
    rw [hst]
    exact fun hc => SocketState.noConfusion hc
  · intro d _ hfresh
    dsimp only
    unfold fillFdStruct
    rw [post_bind, post_modifySlot, post_bind, post_modifyFile, post_bind, post_modifySlot]
    generalize hw' : World.setSlot _ _ _ = w'
    have hchip : w'.chip = w.chip := by
      rw [← hw']
      rfl
    have hself : (w'.sockets i).connectionData = some d := by
      rw [← hw', World.setSlot_sockets, Function.update_self]
    have hothers : ∀ j, j ≠ i → w'.sockets j = w.sockets j := by
      intro j hj
      rw [← hw']
      simp only [World.setSlot_sockets, World.setFile_sockets, Function.update_of_ne hj]
    -- what is read of the peer's address disturbs nothing
    have hreads : ∀ w'' : World (χ × List ConnUse) φ, w''.sockets = w'.sockets →
        Quiet C w.chip w''.chip → Joined C w w'' := by
      intro w'' hs h
      refine ⟨fun j => (h.rests j).grows, fun j hacc => ?_⟩
      by_cases hj : j = i
      · right
        rw [hj, hs]
        exact ⟨((h.rests i).rests hserved).1, d, hself, hfresh⟩
      · left
        rw [hs, hothers j hj] at hacc ⊢
        exact ⟨hacc, rfl, h.rests j⟩
    have hquiet : ∀ c, Quiet C w'.chip c → Quiet C w.chip c := fun c h => by rwa [hchip] at h
    rw [post_ite]
    constructor
    · intro _
      refine post_onChip_along_bind (quiet_of_chipCode hC (made_readSockReg32 _ _)) fun _ c1 h1 => ?_
      refine post_onChip_along_bind (quiet_of_chipCode hC (made_readSockReg16 _ _)) fun _ c2 h2 => ?_
      exact post_pure.2 (hreads _ rfl (hquiet _ (h1.trans h2)))
    · intro _
      exact post_pure.2 (hreads _ rfl (hquiet _ (.refl _)))

/-- So it is by `accept`. -/
theorem joined_accept (hs : Sound w.tables) (fd : ℤ) (wantAddr : Bool) :
    Post (accept (B.watched C) fuel fd wantAddr) (fun _ w' => Joined C w w') w := by
  have hfail : ∀ {α : Type} (e : Errno) (a : α),
      Post (fail e a) (fun _ w' => Joined C w w') w :=
    fun e a => post_fail.2 (undisturbed_setErrno e).joined
  unfold accept
  rw [post_bind]
  apply post_getSocketFromFd
  · intro e
    exact post_pure.2 (undisturbed_setErrno e).joined
  · intro _ i _ _ _
    dsimp only
    rw [post_bind, post_getSlot, post_ite]
    refine ⟨fun _ => hfail _ _, fun hlis => ?_⟩
    rw [post_ite]
    refine ⟨fun _ => hfail _ _, fun _ => ?_⟩
    have hst : (w.sockets i).state = .listening := not_not.1 hlis
    have hi : (w.sockets i).isocket = i := hs.isocket_of_state hst (by decide)
    rw [post_bind]
    refine post_isNonblock fun _ _ => ?_
    unfold acceptLoop
    -- while it waits the loop only reads
    refine Post.iter (fun _ w' => Passed C i w w') ?_ fuel (.refl w)
    intro _ w1 h1
    rw [post_bind, post_getSlot, post_bind, post_onChip, h1.same.sockets, hi]
    refine (post_readSR hC i w1.chip).mono ?_
    rintro sr c2 ⟨h2, hserved⟩
    have hp2 : Passed C i w (w1.setChip c2) := h1.trans (passed_setChip h2.used)
    rw [post_ite]
    constructor
    · intro hsr
      rw [post_bind]
      have hs2 : (w1.setChip c2).sockets = w.sockets := hp2.same.sockets
      refine (joined_acceptEstablished hC fuel (w := w1.setChip c2) (i := i) ?_ ?_ (hserved hsr)
        wantAddr).mono ?_
      · rw [hs2]
        exact hi
      · rw [hs2]
        exact hst
      · intro r w3 h3
        refine post_pure.2 ⟨fun j => (hp2.used.rests j).grows.trans (h3.grows j), fun j hacc => ?_⟩
        -- the slot was accepted before, or it is the one that `accept` has taken
        rcases h3.joins j hacc with ⟨hacc', hconn, hrests⟩ | ⟨hwaits, d, hconn, hfresh⟩
        · left
          rw [hs2] at hacc' hconn
          exact ⟨hacc', hconn, (hp2.used.rests j).trans hrests⟩
        · right
          rw [show (w1.setChip c2).files = w.files from hp2.same.files] at hfresh
          exact ⟨hwaits, d, hconn, hfresh⟩
    · intro _
      rw [post_ite]
      refine ⟨fun _ => ?_, fun _ => post_pure.2 hp2⟩
      exact post_fail.2 (hp2.undisturbed.trans (undisturbed_setErrno _)).joined

end Calls

/-! ## All calls -/

/-- Peers connect to sockets that wait, and disconnect. -/
def PeersOnly (C : Connections χ) (c : χ) : NetCall (χ × List ConnUse) → Prop
  | .event chip => ∀ i, C.Rests i c chip.1
  | _ => True

/-- **No call disturbs a connection**, and neither do the peers. -/
theorem joined_exec {κ δ ψ : Type} {B : Board χ} (hC : C.Obeys B) (hroom : B.RoomBounded)
    (L : Fat.FatLib κ δ ψ) {w : World (χ × List ConnUse) (Fat.FatFs κ δ ψ)}
    (hs : Sound w.tables) (call : ℕ × NetCall (χ × List ConnUse))
    (hpeers : PeersOnly C w.chip.1 call.2) :
    Post (NetCall.exec (B.watched C) L call) (fun _ w' => Joined C w w') w := by
  obtain ⟨fuel, call⟩ := call
  have hjoined : ∀ {x : Fat.FatSys (χ × List ConnUse) κ δ ψ ℤ},
      Post x (fun _ w' => Undisturbed C w w') w → Post x (fun _ w' => Joined C w w') w :=
    fun hx => hx.mono fun _ _ h => h.joined
  cases call with
  | socket domain type protocol =>
      refine hjoined (undisturbed_of_sysCode hC ?_ w)
      exact made_socket (apartRights_creates type) domain protocol
  | bind fd addr =>
      refine hjoined (undisturbed_of_sysCode hC ?_ w)
      exact made_bind fuel apartRights_binds ⟨trivial, .inr trivial⟩ addr
  | connect fd addr => exact hjoined (undisturbed_connect hC fuel hs fd addr)
  | listen fd => exact hjoined (undisturbed_listen hC fuel hs fd)
  | accept fd wantAddr =>
      show Post (W5100.accept _ fuel fd wantAddr >>= _) _ w
      rw [post_bind]
      exact (joined_accept hC fuel hs fd wantAddr).mono fun _ _ h => post_pure.2 h
  | send fd buf =>
      exact hjoined ((onConnection_send hC fuel hroom hs fd buf).mono fun _ _ h => h.undisturbed)
  | sendto fd buf dest =>
      exact hjoined ((onConnection_sendto hC fuel hroom hs fd buf dest).mono
        fun _ _ h => h.undisturbed)
  | recv fd len =>
      show Post (W5100.recv _ fuel fd len >>= _) _ w
      rw [post_bind]
      exact (onConnection_recvfrom hC fuel hs fd len false).mono
        fun _ _ h => post_pure.2 h.undisturbed.joined
  | recvfrom fd len wantAddr =>
      show Post (W5100.recvfrom _ fuel fd len wantAddr >>= _) _ w
      rw [post_bind]
      exact (onConnection_recvfrom hC fuel hs fd len wantAddr).mono
        fun _ _ h => post_pure.2 h.undisturbed.joined
  | setsockopt fd solSocket option =>
      refine hjoined (undisturbed_of_sysCode hC ?_ w)
      exact made_setsockopt apartRights_setsOptions ⟨trivial, .inr trivial⟩ solSocket option
  | fcntl fd cmd =>
      refine hjoined (undisturbed_of_sysCode hC ?_ w)
      exact made_fcntl trivial ⟨trivial, .inr trivial⟩ cmd
  | poll fd events =>
      refine hjoined (undisturbed_of_sysCode hC ?_ w)
      exact (made_pollOne trivial fd events).bind fun _ => .pure _
  | close fd => exact hjoined ((onClose_sysClose hC fuel L hs fd).mono fun _ _ h => h.1)
  | event chip =>
      show Post (modify _ >>= _) _ w
      rw [post_bind, post_modify, post_pure]
      -- what the peers do is the condition on the event
      have hrests : ∀ i, C.Rests i w.chip.1 chip.1 := hpeers
      exact Undisturbed.joined (.of_rests rfl hrests)

end W5100

end Nucleo
