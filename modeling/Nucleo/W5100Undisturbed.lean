/-
# Calls do not disturb a connection

A slot in `ACCEPTED` stays with one connection of the chip until its state changes: no call
asks the chip for another one before (`Undisturbed`).  Here are the calls that use no
connection: they leave the slots of connections alone, or open and listen on a socket whose
slot is in another state.
-/
import Nucleo.W5100SlotTypes
import Nucleo.W5100Connections

namespace Nucleo

namespace W5100

open Comp

variable {χ φ : Type} {C : Connections χ} {w w' w'' : World (χ × List ConnUse) φ}

/-! ## Rules -/

section Rules

variable {α β : Type} {R : χ × List ConnUse → χ × List ConnUse → Prop}
  {x : Comp (χ × List ConnUse) Stop α}

/-- What the chip goes along holds of the world. -/
theorem post_onChip_along (hx : Along R x) {Q : α → World (χ × List ConnUse) φ → Prop}
    (h : ∀ a c, R w.chip c → Q a (w.setChip c)) : Post (onChip x) Q w :=
  post_onChip.2 fun a c hc => h a c (hx w.chip a c hc)

theorem post_onChip_along_bind (hx : Along R x) {f : α → Sys (χ × List ConnUse) φ β}
    {Q : β → World (χ × List ConnUse) φ → Prop}
    (h : ∀ a c, R w.chip c → Post (f a) Q (w.setChip c)) : Post (onChip x >>= f) Q w := by
  rw [post_bind]
  exact post_onChip_along hx h

end Rules

/-! ## Connections that are not disturbed -/

/-- A slot that is accepted has been so before, with the same descriptor of the connection, and
its socket asked for no other connection. -/
structure Undisturbed (C : Connections χ) (w w' : World (χ × List ConnUse) φ) : Prop where
  grows : ∀ i, C.count w.chip.1 i ≤ C.count w'.chip.1 i
  stays : ∀ i, (w'.sockets i).state = .accepted → (w.sockets i).state = .accepted ∧
    (w'.sockets i).connectionData = (w.sockets i).connectionData ∧
    C.Rests i w.chip.1 w'.chip.1

/-- A chip at rest disturbs nothing. -/
theorem Undisturbed.of_rests (hs : w'.sockets = w.sockets)
    (h : ∀ i, C.Rests i w.chip.1 w'.chip.1) : Undisturbed C w w' := by
  refine ⟨fun i => (h i).grows, fun i hacc => ?_⟩
  rw [hs] at hacc ⊢
  exact ⟨hacc, rfl, h i⟩

theorem Undisturbed.refl (w : World (χ × List ConnUse) φ) : Undisturbed C w w :=
  .of_rests rfl fun _ => .refl _ _

theorem Undisturbed.trans (h : Undisturbed C w w') (h' : Undisturbed C w' w'') :
    Undisturbed C w w'' := by
  refine ⟨fun i => (h.grows i).trans (h'.grows i), fun i hacc => ?_⟩
  obtain ⟨hacc', hconn', hrests'⟩ := h'.stays i hacc
  obtain ⟨hacc'', hconn, hrests⟩ := h.stays i hacc'
  exact ⟨hacc'', hconn'.trans hconn, hrests.trans hrests'⟩

instance : Std.Refl (Undisturbed C (φ := φ)) := ⟨Undisturbed.refl⟩
instance : IsTrans _ (Undisturbed C (φ := φ)) := ⟨fun _ _ _ => Undisturbed.trans⟩

/-- A slot that is left in another state than `ACCEPTED` is not disturbed. -/
theorem Undisturbed.of_slot {i : Fin nSockets} (hne : (w'.sockets i).state ≠ .accepted)
    (hs : ∀ j, j ≠ i → w'.sockets j = w.sockets j)
    (hrests : ∀ j, j ≠ i → C.Rests j w.chip.1 w'.chip.1)
    (hgrows : C.count w.chip.1 i ≤ C.count w'.chip.1 i) : Undisturbed C w w' := by
  constructor
  · intro j
    by_cases hj : j = i
    · rw [hj]
      exact hgrows
    · exact (hrests j hj).grows
  · intro j hacc
    have hj : j ≠ i := by
      rintro rfl
      exact hne hacc
    rw [hs j hj] at hacc ⊢
    exact ⟨hacc, rfl, hrests j hj⟩

/-- The same, where the slot is what changes last. -/
theorem Undisturbed.of_setSlot {i : Fin nSockets} {s : Slot} (hne : s.state ≠ .accepted)
    (hs : ∀ j, j ≠ i → w'.sockets j = w.sockets j)
    (hrests : ∀ j, j ≠ i → C.Rests j w.chip.1 w'.chip.1)
    (hgrows : C.count w.chip.1 i ≤ C.count w'.chip.1 i) : Undisturbed C w (w'.setSlot i s) := by
  refine .of_slot (i := i) ?_ (fun j hj => ?_) hrests hgrows
  · rw [World.setSlot_sockets, Function.update_self]
    exact hne
  · rw [World.setSlot_sockets, Function.update_of_ne hj]
    exact hs j hj

/-- A slot in use knows the number of its socket. -/
theorem Sound.isocket_of_state {i : Fin nSockets} {st : SocketState} (h : Sound w.tables)
    (hst : (w.sockets i).state = st) (hne : st ≠ .none) : (w.sockets i).isocket = i := by
  refine h.isocket i (.inl ?_)
  show (w.sockets i).state ≠ .none
  rw [hst]
  exact hne

/-- `errno` disturbs nothing. -/
theorem undisturbed_setErrno (e : Errno) : Undisturbed C w (w.setErrno e) :=
  .of_rests rfl fun _ => .refl _ _

theorem undisturbed_setSlot {i : Fin nSockets} {s : Slot} (h : s.state = .accepted →
      (w.sockets i).state = .accepted ∧ s.connectionData = (w.sockets i).connectionData) :
    Undisturbed C w (w.setSlot i s) := by
  refine ⟨fun _ => le_rfl, fun k hacc => ?_⟩
  rw [World.setSlot_sockets] at hacc ⊢
  by_cases hk : k = i
  · subst hk
    rw [Function.update_self] at hacc ⊢
    exact ⟨(h hacc).1, (h hacc).2, .refl _ _⟩
  · rw [Function.update_of_ne hk] at hacc ⊢
    exact ⟨hacc, rfl, .refl _ _⟩

/-! ### Calls that ask for no connection -/

/-- No socket is made to wait, and no slot becomes `ACCEPTED` or gets another connection. -/
def apartRights : Rights :=
  connRights (fun _ => False) (fun _ => True) (fun f => ∀ s, (f s).state = .accepted →
    s.state = .accepted ∧ (f s).connectionData = s.connectionData) True

/-- What asks for no connection disturbs none. -/
theorem undisturbed_of_sysCode {B : Board χ} (hC : C.Obeys B) {α : Type}
    {x : Sys (χ × List ConnUse) φ α} (h : SysCode (B.watched C) apartRights x) :
    Along (Undisturbed C) x := by
  refine h.along fun _ _ hstep w => ?_
  cases hstep with
  | chip hx =>
      exact post_onChip_along (served_of_chipCode hC hx) fun _ _ h' =>
        .of_rests rfl fun i => h'.rests i id
  | get => exact post_get.2 (.refl w)
  | setErrno e _ => exact post_modify.2 (undisturbed_setErrno e)
  | modifySlot hf => exact post_modifySlot.2 (undisturbed_setSlot (hf _))
  | modifyFile d f _ => exact post_modifyFile.2 (.of_rests rfl fun _ => .refl _ _)
  | stop _ => exact post_throw.2 trivial

/-- A slot that is bound, created or freed is not accepted. -/
theorem apartRights_binds : apartRights.Binds :=
  ⟨trivial, fun _ => connRights_register (.inl (by decide)) (by decide), fun _ => connRights_open,
    fun _ _ _ hacc => SocketState.noConfusion hacc⟩

theorem apartRights_setsPeer : apartRights.SetsPeer := fun _ _ _ hacc => ⟨hacc, rfl⟩

theorem apartRights_setsOptions : apartRights.SetsOptions :=
  ⟨fun _ _ _ hacc => ⟨hacc, rfl⟩, fun _ _ _ hacc => ⟨hacc, rfl⟩, fun _ _ _ hacc => ⟨hacc, rfl⟩⟩

theorem apartRights_creates (type : SockType) : apartRights.Creates type :=
  ⟨trivial, trivial, fun _ => connRights_register (.inr ⟨rfl, rfl⟩) (by decide),
    fun _ _ hacc => ⟨hacc, rfl⟩, fun _ _ _ hacc => SocketState.noConfusion hacc,
    fun _ _ hacc => SocketState.noConfusion hacc⟩

/-- A slot that is freed is not accepted. -/
theorem apartRights_closes : apartRights.Closes :=
  ⟨trivial, fun _ => connRights_command (fun h => absurd h (by decide)) fun _ => trivial,
    fun _ => connRights_command (fun h => absurd h (by decide)) fun _ => trivial, trivial,
    fun _ _ hacc => ⟨hacc, rfl⟩, fun _ _ hacc => SocketState.noConfusion hacc⟩

/-! ### `connect` and `listen` -/

/-- A call that looks the slot of its descriptor up first. -/
theorem undisturbed_withSlot {α : Type} {fd : ℤ}
    {f : Option (Fin nSockets) → Sys (χ × List ConnUse) φ α} {a : α} (hnone : f none = pure a)
    (hsome : ∀ i, Post (f (some i)) (fun _ w' => Undisturbed C w w') w) :
    Post (getSocketFromFd fd >>= f) (fun _ w' => Undisturbed C w w') w := by
  rw [post_bind]
  apply post_getSocketFromFd
  · intro e
    rw [hnone]
    exact post_pure.2 (undisturbed_setErrno e)
  · intro _ i _ _ _
    exact hsome i

theorem undisturbed_fail {α : Type} (e : Errno) (a : α) :
    Along (Undisturbed C) (fail e a : Sys (χ × List ConnUse) φ α) :=
  fun _ => post_fail.2 (undisturbed_setErrno e)

section Calls

variable {B : Board χ} (hC : C.Obeys B) (fuel : ℕ)

include hC

/-- `connect_tcp` asks for a connection on a slot that has just been created. -/
theorem undisturbed_connectTcp {i : Fin nSockets}
    (hs : Sound w.tables) (addr : SockaddrIn) :
    Post (connectTcp (B.watched C) fuel i addr) (fun _ w' => Undisturbed C w w') w := by
  unfold connectTcp
  rw [post_bind, post_getSlot, post_ite]
  refine ⟨fun _ => undisturbed_fail _ _ w, fun _ => ?_⟩
  rw [post_ite]
  refine ⟨fun _ => undisturbed_fail _ _ w, fun _ => ?_⟩
  rw [post_ite]
  refine ⟨fun _ => undisturbed_fail _ _ w, fun hcreated => ?_⟩
  have hst : (w.sockets i).state = .created := not_not.1 hcreated
  rw [hs.isocket_of_state hst (by decide)]
  have hregister : ∀ {r n : ℕ}, 2 ≤ r → r + n ≤ socketRegsSize →
      (listenedRights i).Register i r n :=
    fun hr hn => connRights_register (.inl hr) hn
  refine post_onChip_along_bind (listened_of_chipCode hC i
    (made_writeSockReg16 (by decide) (hregister (by decide) (by decide)) _)) fun _ c1 h1 => ?_
  refine post_onChip_along_bind (along_command_listened hC fuel i (by decide)) fun _ c2 h2 => ?_
  refine post_onChip_along_bind (along_readUntil hC fuel _ _ _) fun _ c3 h3 => ?_
  refine post_onChip_along_bind (listened_of_chipCode hC i
    (made_writeSockReg32 (by decide) (hregister (by decide) (by decide)) _)) fun _ c4 h4 => ?_
  refine post_onChip_along_bind (listened_of_chipCode hC i
    (made_writeSockReg16 (by decide) (hregister (by decide) (by decide)) _)) fun _ c5 h5 => ?_
  refine post_onChip_along_bind (along_command_listened hC fuel i (by decide)) fun _ c6 h6 => ?_
  refine post_onChip_along_bind (along_readUntil hC fuel _ _ _) fun sr c7 h7 => ?_
  -- the commands are for the socket `i`, and the other sockets rest
  have hlistened : Listened C i w.chip c7 :=
    (((((h1.trans h2).trans h3.listened).trans h4).trans h5).trans h6).trans h7.listened
  rw [post_ite]
  constructor
  · intro _
    rw [post_bind, post_modifySlot, post_pure]
    exact .of_setSlot (fun hc => SocketState.noConfusion hc) (fun _ _ => rfl) hlistened.rests
      hlistened.grows
  · intro _
    refine post_fail.2 (.of_slot (i := i) ?_ (fun _ _ => rfl) hlistened.rests hlistened.grows)
    show (w.sockets i).state ≠ .accepted
    rw [hst]
    exact fun hc => SocketState.noConfusion hc

/-- **`connect` disturbs no connection**. -/
theorem undisturbed_connect (hs : Sound w.tables) (fd : ℤ) (addr : SockaddrIn) :
    Post (connect (B.watched C) fuel fd addr) (fun _ w' => Undisturbed C w w') w := by
  refine undisturbed_withSlot rfl fun i => ?_
  rw [post_bind, post_getSlot]
  cases (w.sockets i).type with
  | stream => exact undisturbed_connectTcp hC fuel hs addr
  | dgram =>
      refine undisturbed_of_sysCode hC ?_ w
      exact made_connectUdp fuel apartRights_binds trivial apartRights_setsPeer i addr
  | raw => exact undisturbed_fail _ _ w
  | other => exact undisturbed_fail _ _ w

theorem undisturbed_listen (hs : Sound w.tables) (fd : ℤ) :
    Post (listen (B.watched C) fuel fd) (fun _ w' => Undisturbed C w w') w := by
  refine undisturbed_withSlot rfl fun i => ?_
  rw [post_bind, post_getSlot, post_ite]
  refine ⟨fun _ => undisturbed_fail _ _ w, fun hbound => ?_⟩
  rw [post_ite]
  refine ⟨fun _ => undisturbed_fail _ _ w, fun _ => ?_⟩
  rw [hs.isocket_of_state (not_not.1 hbound) (by decide)]
  refine post_onChip_along_bind (along_command_listened hC fuel i (by decide)) fun _ c1 h1 => ?_
  refine post_onChip_along_bind (along_readUntil hC fuel _ _ _) fun _ c2 h2 => ?_
  have hlistened : Listened C i w.chip c2 := h1.trans h2.listened
  rw [post_bind, post_modifySlot, post_pure]
  exact .of_setSlot (fun hc => SocketState.noConfusion hc) (fun _ _ => rfl) hlistened.rests
    hlistened.grows

end Calls

end W5100

end Nucleo
