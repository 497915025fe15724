/-
# The names of datagram sockets

Where a slot has a name, the `PORT` register of its socket holds the port of the name
(`Named`), and every call on datagram sockets keeps that: most of them name no slot and write no
port (`portRights`), and `bind_udp` puts one port into both.  So a port that `check_bind_udp` chooses is held by no other socket that is open at
that moment.
-/
import Nucleo.W5100Ports
import Nucleo.W5100OwnershipRuns
import Nucleo.W5100Rights

namespace Nucleo

namespace W5100

open Comp

/-! ## Names -/

/-- A datagram slot; its socket's register holds the port of its name, if it has one. -/
structure Slot.Named (s : Slot) (port : InPort) : Prop where
  datagram : s.type ≠ .stream
  port : s.sockname.sinFamily = .inet → port = s.sockname.sinPort

section Names

variable {χ φ : Type} (B : Board χ)

/-- All slots are those of datagram sockets, and named by their registers. -/
def NamedSlots (w : World χ φ) : Prop := ∀ i, (w.sockets i).Named (B.portReg w.chip i)

variable {B} {w w' : World χ φ}

/-- Names are kept where the slot and the register are. -/
theorem Slot.Named.of_same {i : Fin nSockets} (h : (w.sockets i).Named (B.portReg w.chip i))
    (hslot : w'.sockets i = w.sockets i)
    (hbytes : B.portBytes w'.chip i = B.portBytes w.chip i) :
    (w'.sockets i).Named (B.portReg w'.chip i) := by
  have hreg : B.portReg w'.chip i = B.portReg w.chip i := by
    unfold Board.portReg
    rw [hbytes]
  rw [hslot, hreg]
  exact h

/-- Names depend on nothing but the slots and the registers. -/
theorem NamedSlots.of_same (h : NamedSlots B w) (hsockets : w'.sockets = w.sockets)
    (hchip : B.portBytes w'.chip = B.portBytes w.chip) : NamedSlots B w' :=
  fun i => (h i).of_same (congrFun hsockets i) (congrFun hchip i)

/-- A slot changes, and what names it stays right. -/
theorem named_modifySlot {i : Fin nSockets} {f : Slot → Slot}
    (hf : ∀ s port, s.Named port → (f s).Named port) :
    Maintains (NamedSlots B) (modifySlot i f : Sys χ φ Unit) := by
  intro w h
  refine post_modifySlot.2 fun j => ?_
  show ((w.setSlot i (f (w.sockets i))).sockets j).Named (B.portReg w.chip j)
  rw [World.setSlot_sockets]
  by_cases hj : j = i
  · subst hj
    rw [Function.update_self]
    exact hf _ _ (h j)
  · rw [Function.update_of_ne hj]
    exact h j

/-! ### What keeps the names right -/

/-- Anything may be done that writes no port and resets no chip, and that keeps the slots right
whose names are. -/
def portRights : Rights where
  writes a v := ¬ IsPortByte a ∧ ¬ Resets a v
  changes _ f := ∀ s port, Slot.Named s port → (f s).Named port
  files := True
  errno := True
  stops _ := True

/-- A computation that writes no port leaves the ports alone. -/
theorem keeps_portBytes_of_chipCode (hB : B.PortsHold) {α : Type} {x : Comp χ Stop α}
    (h : ChipCode B portRights x) : Keeps B.portBytes x := by
  refine h.keeps fun _ _ hstep c v c' heq => ?_
  cases hstep with
  | read reg =>
      obtain rfl : (B.read (reg % 2 ^ 16) c).2 = c' := congrArg Prod.snd (Except.ok.inj heq)
      exact hB.read _ _
  | write hw =>
      cases heq
      exact hB.write _ _ _ hw.1 hw.2
  | clock =>
      obtain rfl : (B.clockGettime c).2 = c' := congrArg Prod.snd (Except.ok.inj heq)
      exact hB.clock _
  | stop _ => cases heq

/-- A call that writes no port keeps the names right. -/
theorem named_of_sysCode (hB : B.PortsHold) {α : Type} {x : Sys χ φ α}
    (h : SysCode B portRights x) : Maintains (NamedSlots B) x := by
  refine h.maintains fun _ _ hstep => ?_
  cases hstep with
  | chip hx =>
      exact fun w hw => post_onChip.2 fun a c heq =>
        hw.of_same rfl (keeps_portBytes_of_chipCode hB hx w.chip a c heq)
  | get => exact maintains_get
  | setErrno _ _ => exact maintains_modify fun _ hw => hw
  | modifySlot hf => exact named_modifySlot hf
  | modifyFile _ _ _ => exact maintains_modify fun _ hw => hw
  | stop _ => exact fun _ _ => post_throw.2 trivial

section Rights

variable (k : Fin nSockets)

/-! ### The rights that keep them right -/

/-- The registers of a socket in front of its port and behind it may be written. -/
theorem portRights_register {r n : ℕ} (hr : r < regPORT ∧ n = 1 ∨ regPORT + 2 ≤ r)
    (hn : r + n ≤ socketRegsSize) : portRights.Register k r n := by
  intro m v hm
  refine ⟨?_, not_resets_of_register k r m v⟩
  have hmod : (sockRegGet r k + m) % 2 ^ 16 = sockRegGet r k + m := by
    have hk : k.val < 4 := k.isLt
    unfold sockRegGet s0RegsOffset
    unfold socketRegsSize at *
    exact Nat.mod_eq_of_lt (by omega)
  rw [← hmod]
  refine not_isPortByte_reg ?_ (by omega) k
  omega

/-- Commands are no ports. -/
theorem portRights_command (cmd : Byte) : portRights.writes (sockRegGet regCR k) cmd :=
  portRights_register k (.inl ⟨by decide, rfl⟩) (by decide) 0 cmd Nat.one_pos

theorem portRights_receives : portRights.Receives k :=
  ⟨trivial, portRights_register k (.inr (by decide)) (by decide), portRights_command k _⟩

/-- The transmit memory holds no ports. -/
theorem portRights_transmits : portRights.Transmits k := by
  refine ⟨trivial, fun a v hlo hhi => ⟨?_, ?_⟩,
    portRights_register k (.inr (by decide)) (by decide), portRights_command k _⟩
  · have hlt : a < 2 ^ 16 := by
      unfold rxMemBase at hhi
      omega
    have hmem := not_isPortByte_mem hlo hlt
    rwa [Nat.mod_eq_of_lt hlt] at hmem
  · rintro ⟨rfl, -⟩
    exact absurd hlo (by decide)

theorem portRights_names : portRights.Names k :=
  ⟨portRights_register k (.inr (by decide)) (by decide),
    portRights_register k (.inr (by decide)) (by decide)⟩

theorem portRights_listens : portRights.Listens :=
  ⟨trivial, fun k => portRights_command k _, fun _ _ _ h => ⟨h.1, h.2⟩⟩

theorem portRights_relistens : portRights.Relistens :=
  ⟨portRights_listens, fun k => portRights_command k _⟩

theorem portRights_disconnects : portRights.Disconnects :=
  ⟨portRights_relistens, trivial, fun k => portRights_command k _, fun _ _ _ h => ⟨h.1, h.2⟩⟩

theorem portRights_accepts : portRights.Accepts :=
  ⟨portRights_relistens, trivial, fun k => portRights_command k _, trivial,
    fun _ _ _ h => ⟨h.1, h.2⟩, fun _ _ _ _ h => ⟨h.1, h.2⟩⟩

theorem portRights_hangs : portRights.Hangs :=
  ⟨⟨trivial, fun k => portRights_command k _, fun k => portRights_command k _, trivial,
    fun _ _ _ h => ⟨h.1, h.2⟩, fun _ _ _ h => ⟨h.1, h.2⟩⟩, portRights_relistens,
    fun _ _ _ h => ⟨h.1, h.2⟩⟩

theorem portRights_setsOptions : portRights.SetsOptions :=
  ⟨fun _ _ _ _ h => ⟨h.1, h.2⟩, fun _ _ _ _ h => ⟨h.1, h.2⟩, fun _ _ _ _ h => ⟨h.1, h.2⟩⟩

/-- A new datagram socket has no name. -/
theorem portRights_creates : portRights.Creates .dgram :=
  ⟨trivial, trivial, fun k => portRights_register k (.inl ⟨by decide, rfl⟩) (by decide),
    fun _ _ _ h => ⟨h.1, h.2⟩,
    fun _ _ _ _ _ => ⟨fun h => SockType.noConfusion h, fun h => Family.noConfusion h⟩,
    fun _ _ _ h => ⟨h.1, h.2⟩⟩

end Rights

/-! ### Binding -/

/-- The port is what its two bytes say. -/
theorem portReg_of_bytes {c : χ} {i : Fin nSockets} {port : InPort}
    (h : B.portBytes c i = (port.extractLsb' 0 8, port.extractLsb' 8 8)) :
    B.portReg c i = port := by
  unfold Board.portReg
  rw [h]
  exact word16_bytes port

/-- What binding a datagram slot to a port does to the names. -/
theorem NamedSlots.bound (h : NamedSlots B w) {i : Fin nSockets} {port : InPort}
    (hsockets : w'.sockets = Function.update w.sockets i
      { w.sockets i with sockname := ⟨.inet, port, inaddrAny⟩, state := .bound })
    (hchip : B.portBytes w'.chip = Function.update (B.portBytes w.chip) i
      (port.extractLsb' 0 8, port.extractLsb' 8 8)) : NamedSlots B w' := by
  intro j
  by_cases hj : j = i
  · subst hj
    have hreg : B.portReg w'.chip j = port := by
      refine portReg_of_bytes ?_
      rw [hchip, Function.update_self]
    rw [hsockets, Function.update_self, hreg]
    exact ⟨(h j).datagram, fun _ => rfl⟩
  · refine (h j).of_same ?_ ?_
    · rw [hsockets, Function.update_of_ne hj]
    · rw [hchip, Function.update_of_ne hj]

variable (B) in
/-- Every slot whose state is another one now has been given a name with a port that was
free. -/
def BindsFree (w w' : World χ φ) : Prop :=
  ∀ j, (w'.sockets j).state ≠ (w.sockets j).state →
    (w'.sockets j).sockname.sinFamily = .inet ∧ FreePort B w (w'.sockets j).sockname.sinPort

/-- Where no socket changes none is bound. -/
theorem BindsFree.of_sockets (h : w'.sockets = w.sockets) : BindsFree B w w' := by
  intro j hne
  rw [h] at hne
  exact absurd rfl hne

/-- What is free does not depend on the peers of the slots. -/
theorem BindsFree.of_states {w₁ : World χ φ}
    (hstates : ∀ j, (w₁.sockets j).state = (w.sockets j).state) (hchip : w₁.chip = w.chip)
    (h : BindsFree B w₁ w') : BindsFree B w w' := by
  intro j hne
  rw [← hstates j] at hne
  obtain ⟨hfamily, hzero, hfree⟩ := h j hne
  refine ⟨hfamily, hzero, fun i hst => ?_⟩
  rw [← hchip]
  refine hfree i ?_
  rw [hstates i]
  exact hst

section Bind

variable (hB : B.PortsHold) (fuel : ℕ)

include hB

/-! ### The port that is written -/

/-- **Writing a port** sets the two bytes of that socket. -/
theorem post_writePort (i : Fin nSockets) (port : InPort) (c : χ) :
    Post (writeSockReg16 B regPORT i port) (fun _ c' => B.portBytes c'
      = Function.update (B.portBytes c) i (port.extractLsb' 0 8, port.extractLsb' 8 8)) c := by
  intro _ c' h
  have hfirst := sockRegGet_regPORT_mod i 0 (by decide)
  have hsecond := sockRegGet_regPORT_mod i 1 (by decide)
  rw [Nat.add_zero] at hfirst
  have hc : B.write ((sockRegGet regPORT i + 1) % 2 ^ 16) (port.extractLsb' 8 8)
      (B.write (sockRegGet regPORT i % 2 ^ 16) (port.extractLsb' 0 8) c) = c' :=
    congrArg Prod.snd (Except.ok.inj h)
  rw [hfirst, hsecond] at hc
  rw [← hc]
  exact hB.set i _ _ c

/-- `bind_udp` puts the port into the register and into the name. -/
theorem post_bindUdp {i : Fin nSockets} (hi : (w.sockets i).isocket = i) (port : InPort) :
    Post (bindUdp B fuel i port) (fun _ w' =>
      w'.sockets = Function.update w.sockets i
        { w.sockets i with sockname := ⟨.inet, port, inaddrAny⟩, state := .bound } ∧
      B.portBytes w'.chip = Function.update (B.portBytes w.chip) i
        (port.extractLsb' 0 8, port.extractLsb' 8 8)) w := by
  unfold bindUdp
  rw [post_bind, post_getSlot, hi, post_bind, post_onChip]
  refine (post_writePort hB i port w.chip).mono fun _ c₁ hc₁ => ?_
  rw [post_bind, post_onChip]
  refine (keeps_portBytes_of_chipCode hB
    (made_command fuel trivial (portRights_command i cmdOpen)) c₁).mono fun _ c₂ hc₂ => ?_
  rw [post_bind, post_onChip]
  refine (keeps_portBytes_of_chipCode hB
    (made_readUntil fuel trivial regSR i _) c₂).mono fun _ c₃ hc₃ => post_modifySlot.2 ?_
  exact ⟨rfl, hc₃.trans (hc₂.trans hc₁)⟩

/-! ### The calls that bind -/

/-- **`check_bind_udp` binds to a free port**, if it binds. -/
theorem bindsFree_checkBindUdp (h : NamedSlots B w) {i : Fin nSockets}
    (hi : (w.sockets i).state = .created → (w.sockets i).isocket = i) :
    Post (checkBindUdp B fuel i) (fun _ w' => NamedSlots B w' ∧ BindsFree B w w') w := by
  unfold checkBindUdp
  rw [post_bind, post_getSlot, post_ite]
  refine ⟨fun hst => ?_, fun _ => post_pure.2 ⟨h, .of_sockets rfl⟩⟩
  rw [post_bind]
  refine (post_getAvailPort hB fuel).mono ?_
  rintro port w₁ ⟨c, rfl, hkeep, hfree⟩
  refine (post_bindUdp hB fuel (w := w.setChip c) (hi hst) port).mono ?_
  rintro _ w₂ ⟨hsockets, hchip⟩
  have hnamed : NamedSlots B (w.setChip c) := h.of_same rfl hkeep
  refine ⟨hnamed.bound hsockets hchip, fun j hne => ?_⟩
  have hsockets' : w₂.sockets = Function.update w.sockets i
      { w.sockets i with sockname := ⟨.inet, port, inaddrAny⟩, state := .bound } := hsockets
  rw [hsockets'] at hne ⊢
  -- only the slot that is bound has another state
  have hj : j = i := by
    by_contra hj
    rw [Function.update_of_ne hj] at hne
    exact hne rfl
  subst hj
  rw [Function.update_self]
  exact ⟨rfl, hfree⟩

/-- `connect` gives a datagram socket a free port. -/
theorem bindsFree_connectUdp (h : NamedSlots B w) {i : Fin nSockets}
    (hi : (w.sockets i).state = .created → (w.sockets i).isocket = i) (addr : SockaddrIn) :
    Post (connectUdp B fuel i addr) (fun _ w' => NamedSlots B w' ∧ BindsFree B w w') w := by
  -- storing the peer, whatever it is, and binding behind it
  have hdest : ∀ a : Slot → SockaddrIn, Post (do
        modifySlot i fun s => { s with destAddress := a s }
        checkBindUdp B fuel i
        pure 0 : Sys χ φ ℤ) (fun _ w' => NamedSlots B w' ∧ BindsFree B w w') w := by
    intro a
    rw [post_bind, post_modifySlot, post_bind]
    generalize hw₁ : w.setSlot i { w.sockets i with destAddress := a (w.sockets i) } = w₁
    have hnamed : NamedSlots B w₁ := by
      have hkeep := named_modifySlot (B := B) (i := i) (f := fun s => { s with destAddress := a s })
        (fun _ _ h => ⟨h.1, h.2⟩) w h
      rw [← hw₁]
      exact post_modifySlot.1 hkeep
    -- the peer is neither part of the state nor of the name
    have hslot : ∀ j, (w₁.sockets j).state = (w.sockets j).state ∧
        (w₁.sockets j).isocket = (w.sockets j).isocket := by
      intro j
      rw [← hw₁, World.setSlot_sockets]
      by_cases hj : j = i
      · subst hj
        rw [Function.update_self]
        exact ⟨rfl, rfl⟩
      · rw [Function.update_of_ne hj]
        exact ⟨rfl, rfl⟩
    have hchip : w₁.chip = w.chip := by
      rw [← hw₁]
      rfl
    refine (bindsFree_checkBindUdp hB fuel (w := w₁) (i := i) hnamed ?_).mono ?_
    · rw [(hslot i).1, (hslot i).2]
      exact hi
    · rintro _ w₂ ⟨hnamed, hfree⟩
      exact post_pure.2 ⟨hnamed, hfree.of_states (fun j => (hslot j).1) hchip⟩
  unfold connectUdp
  cases addr.sinFamily with
  | unspec => exact hdest fun s => { s.destAddress with sinFamily := .unspec }
  | inet => exact hdest fun _ => addr
  | other => exact post_fail.2 ⟨h, .of_sockets rfl⟩

theorem bindsFree_sendtoUdp (h : NamedSlots B w) {i : Fin nSockets}
    (hi : (w.sockets i).state = .created → (w.sockets i).isocket = i) (buf : List Byte)
    (dest : Option SockaddrIn) :
    Post (sendtoUdp B fuel i buf dest) (fun _ w' => NamedSlots B w' ∧ BindsFree B w w') w := by
  unfold sendtoUdp
  rw [post_bind]
  refine (bindsFree_checkBindUdp hB fuel h hi).mono ?_
  rintro _ w₁ ⟨hnamed, hfree⟩
  -- what follows the binding leaves the slots and the registers alone
  have hrest : ∀ w', w'.sockets = w₁.sockets → NamedSlots B w' →
      NamedSlots B w' ∧ BindsFree B w w' := by
    intro w' hsockets hnamed'
    refine ⟨hnamed', fun j hne => ?_⟩
    rw [hsockets] at hne ⊢
    exact hfree j hne
  rw [post_bind, post_getSlot, post_ite]
  refine ⟨fun _ => post_fail.2 (hrest _ rfl hnamed), fun hlen => ?_⟩
  cases dest with
  | none => exact post_fail.2 (hrest _ rfl hnamed)
  | some peer =>
      dsimp only
      rw [post_ite]
      refine ⟨fun _ => post_fail.2 (hrest _ rfl hnamed), fun _ => ?_⟩
      rw [post_bind]
      refine post_isNonblock fun d _ => ?_
      rw [post_bind]
      refine ((same_timeoutUnless B _ _).and
        (named_of_sysCode hB (made_timeoutUnless _ _) w₁ hnamed)).mono ?_
      rintro tom w₂ ⟨hsame₂, hnamed₂⟩
      have hlen' : buf.length ≤ 0x800 := not_lt.1 hlen
      refine ((same_sendtoLoop B fuel i buf peer _ tom).and
        (named_of_sysCode hB (made_sendtoLoop fuel trivial portRights_transmits portRights_names
          (fun _ => .inl hlen') i peer _ tom) w₂ hnamed₂)).mono ?_
      rintro r w₃ ⟨hsame₃, hnamed₃⟩
      exact hrest w₃ (hsame₃.sockets.trans hsame₂.sockets) hnamed₃

/-! ### The calls -/

omit hB in
/-- A call that looks the slot of its descriptor up first. -/
theorem post_ofSlot {α : Type} {fd : ℤ} {f : Option (Fin nSockets) → Sys χ φ α}
    {Q : World χ φ → World χ φ → Prop} (hnone : ∀ e, Post (f none) (fun _ => Q w) (w.setErrno e))
    (hsome : ∀ i, Post (f (some i)) (fun _ => Q w) w) :
    Post (getSocketFromFd fd >>= f) (fun _ => Q w) w := by
  rw [post_bind]
  exact post_getSocketFromFd hnone fun _ i _ _ _ => hsome i

/-- `bind` keeps the names. -/
theorem named_bind (h : NamedSlots B w)
    (hi : ∀ i, (w.sockets i).state = .created → (w.sockets i).isocket = i) (fd : ℤ)
    (addr : SockaddrIn) :
    Post (W5100.bind B fuel fd addr) (fun _ w' => NamedSlots B w') w := by
  refine post_ofSlot (Q := fun _ w' => NamedSlots B w') (fun _ => post_pure.2 h) fun i => ?_
  rw [post_bind, post_getSlot, post_ite]
  refine ⟨fun _ => post_fail.2 h, fun _ => ?_⟩
  rw [post_ite]
  refine ⟨fun _ => post_fail.2 h, fun hst => ?_⟩
  cases htype : (w.sockets i).type with
  | stream => exact absurd htype (h i).datagram
  | dgram =>
      dsimp only
      rw [post_bind]
      refine (post_bindUdp hB fuel (hi i (not_not.1 hst)) addr.sinPort).mono ?_
      rintro _ w₁ ⟨hsockets, hchip⟩
      exact post_pure.2 (h.bound hsockets hchip)
  | raw => exact post_fail.2 h
  | other => exact post_fail.2 h

/-- `connect` keeps the names and binds to a free port. -/
theorem bindsFree_connect (h : NamedSlots B w)
    (hi : ∀ i, (w.sockets i).state = .created → (w.sockets i).isocket = i) (fd : ℤ)
    (addr : SockaddrIn) :
    Post (W5100.connect B fuel fd addr)
      (fun _ w' => NamedSlots B w' ∧ BindsFree B w w') w := by
  refine post_ofSlot (Q := fun w w' => NamedSlots B w' ∧ BindsFree B w w')
    (fun _ => post_pure.2 ⟨h, .of_sockets rfl⟩) fun i => ?_
  rw [post_bind, post_getSlot]
  cases htype : (w.sockets i).type with
  | stream => exact absurd htype (h i).datagram
  | dgram => exact bindsFree_connectUdp hB fuel h (hi i) addr
  | raw => exact post_fail.2 ⟨h, .of_sockets rfl⟩
  | other => exact post_fail.2 ⟨h, .of_sockets rfl⟩

theorem bindsFree_send (h : NamedSlots B w)
    (hi : ∀ i, (w.sockets i).state = .created → (w.sockets i).isocket = i) (fd : ℤ)
    (buf : List Byte) :
    Post (W5100.send B fuel fd buf) (fun _ w' => NamedSlots B w' ∧ BindsFree B w w') w := by
  refine post_ofSlot (Q := fun w w' => NamedSlots B w' ∧ BindsFree B w w')
    (fun _ => post_pure.2 ⟨h, .of_sockets rfl⟩) fun i => ?_
  rw [post_bind, post_getSlot]
  cases htype : (w.sockets i).type with
  | stream => exact absurd htype (h i).datagram
  | dgram =>
      dsimp only
      rw [post_ite]
      exact ⟨fun _ => post_fail.2 ⟨h, .of_sockets rfl⟩,
        fun _ => bindsFree_sendtoUdp hB fuel h (hi i) buf _⟩
  | raw => exact post_fail.2 ⟨h, .of_sockets rfl⟩
  | other => exact post_fail.2 ⟨h, .of_sockets rfl⟩

theorem bindsFree_sendto (h : NamedSlots B w)
    (hi : ∀ i, (w.sockets i).state = .created → (w.sockets i).isocket = i) (fd : ℤ)
    (buf : List Byte) (dest : Option SockaddrIn) :
    Post (W5100.sendto B fuel fd buf dest)
      (fun _ w' => NamedSlots B w' ∧ BindsFree B w w') w := by
  refine post_ofSlot (Q := fun w w' => NamedSlots B w' ∧ BindsFree B w w')
    (fun _ => post_pure.2 ⟨h, .of_sockets rfl⟩) fun i => ?_
  rw [post_bind, post_getSlot]
  cases htype : (w.sockets i).type with
  | stream => exact absurd htype (h i).datagram
  | dgram => exact bindsFree_sendtoUdp hB fuel h (hi i) buf dest
  | raw => exact post_fail.2 ⟨h, .of_sockets rfl⟩
  | other => exact post_fail.2 ⟨h, .of_sockets rfl⟩

end Bind

end Names

/-! ## Runs -/

section Runs

variable {χ κ δ ψ : Type} {B : Board χ} (hB : B.PortsHold) (L : Fat.FatLib κ δ ψ)
  {w w₀ : World χ (Fat.FatFs κ δ ψ)}

variable (B) in
/-- A call that leaves all sockets datagram sockets, or an event that writes no port. -/
def OnUdp {φ : Type} (w : World χ φ) (call : ℕ × NetCall χ) : Prop :=
  match call.2 with
  | .socket _ type _ => type = .dgram
  | .event chip => B.portBytes chip = B.portBytes w.chip
  | _ => True

/-- The calls that bind a socket which has no name. -/
def NetCall.AutoBinds : NetCall χ → Prop
  | .connect .. | .send .. | .sendto .. => True
  | _ => False

/-- A new socket has its own chip socket. -/
theorem Sound.isocket_of_created {φ : Type} {w : World χ φ} (hs : Sound w.tables)
    (i : Fin nSockets) (hst : (w.sockets i).state = .created) : (w.sockets i).isocket = i := by
  refine hs.isocket i (.inl ?_)
  show (w.sockets i).state ≠ .none
  rw [hst]
  exact fun h => SocketState.noConfusion h

include hB

/-- `close` of a descriptor that is no file keeps the names right. -/
theorem named_sysClose (hs : Sound w.tables) (h : NamedSlots B w) (fuel : ℕ) (fd : ℤ) :
    Post (sysClose B L fuel fd) (fun _ w' => NamedSlots B w') w := by
  unfold sysClose
  refine post_withOpen h fun d _ _ => ?_
  cases hclose : (w.files d).close with
  | none => exact named_of_sysCode hB ((made_modifyFile trivial d _).bind fun _ => .pure _) w h
  | some driver =>
      cases driver with
      | usart => exact named_of_sysCode hB ((made_modifyFile trivial d _).bind fun _ => .pure _) w h
      | fatfs => exact absurd hclose (hs.drivers d)
      | w5100 =>
          refine named_of_sysCode hB ?_ w h
          exact made_sockClose fuel portRights_hangs ⟨trivial, .inr trivial⟩

/-- A call that binds a socket without a name binds it to a free port. -/
theorem bindsFree_exec (hs : Sound w.tables) (h : NamedSlots B w) (fuel : ℕ) {call : NetCall χ}
    (hcall : call.AutoBinds) :
    Post (NetCall.exec B L (fuel, call))
      (fun _ w' => NamedSlots B w' ∧ BindsFree B w w') w := by
  have hi := hs.isocket_of_created
  cases call with
  | connect fd addr => exact bindsFree_connect hB fuel h hi fd addr
  | send fd buf => exact bindsFree_send hB fuel h hi fd buf
  | sendto fd buf dest => exact bindsFree_sendto hB fuel h hi fd buf dest
  | _ => exact hcall.elim

/-- Every call on datagram sockets keeps the names right. -/
theorem named_exec (hs : Sound w.tables) (h : NamedSlots B w) (call : ℕ × NetCall χ)
    (hok : OnUdp B w call) : Post (NetCall.exec B L call) (fun _ w' => NamedSlots B w') w := by
  obtain ⟨fuel, call⟩ := call
  have hi := hs.isocket_of_created
  have hbinds : call.AutoBinds →
      Post (NetCall.exec B L (fuel, call)) (fun _ w' => NamedSlots B w') w :=
    fun hcall => (bindsFree_exec hB L hs h fuel hcall).mono fun _ _ h' => h'.1
  -- only `bind` and the calls that bind by themselves store a name
  cases call with
  | socket domain type protocol =>
      obtain rfl : type = .dgram := hok
      exact named_of_sysCode hB (made_socket portRights_creates domain protocol) w h
  | bind fd addr => exact named_bind hB fuel h hi fd addr
  | connect fd addr => exact hbinds trivial
  | send fd buf => exact hbinds trivial
  | sendto fd buf dest => exact hbinds trivial
  | listen fd =>
      exact named_of_sysCode hB (made_listen fuel portRights_listens ⟨trivial, .inr trivial⟩) w h
  | accept fd wantAddr =>
      refine named_of_sysCode hB (Made.bind ?_ fun _ => .pure _) w h
      exact made_accept fuel portRights_accepts trivial ⟨trivial, .inr trivial⟩ wantAddr
  | recv fd len =>
      refine named_of_sysCode hB (Made.bind ?_ fun _ => .pure _) w h
      exact made_recvfrom fuel portRights_disconnects portRights_receives trivial ⟨trivial, .inr trivial⟩ _ _
  | recvfrom fd len wantAddr =>
      refine named_of_sysCode hB (Made.bind ?_ fun _ => .pure _) w h
      exact made_recvfrom fuel portRights_disconnects portRights_receives trivial ⟨trivial, .inr trivial⟩ _ _
  | setsockopt fd solSocket option =>
      exact named_of_sysCode hB (made_setsockopt portRights_setsOptions ⟨trivial, .inr trivial⟩ _ _) w h
  | fcntl fd cmd => exact named_of_sysCode hB (made_fcntl trivial ⟨trivial, .inr trivial⟩ cmd) w h
  | poll fd events =>
      exact named_of_sysCode hB ((made_pollOne trivial fd events).bind fun _ => .pure _) w h
  | close fd => exact named_sysClose hB L hs h fuel fd
  | event chip =>
      show Post (modify _ >>= _) _ w
      rw [post_bind, post_modify, post_pure]
      exact h.of_same rfl hok

omit hB in
/-- `w5100_socket_init` leaves the types and the names of the slots alone. -/
theorem keeps_names_socketInit (fuel : ℕ) (static : Option StaticIp) :
    Keeps (fun w i => ((w.sockets i).type, (w.sockets i).sockname))
      (socketInit B fuel static : Fat.FatSys χ κ δ ψ Unit) := by
  have hfree : ∀ l : List (Fin nSockets),
      Keeps (fun w i => ((w.sockets i).type, (w.sockets i).sockname))
        (l.forM socketFree : Fat.FatSys χ κ δ ψ PUnit) := by
    intro l
    induction l with
    | nil => exact keeps_pure _
    | cons j l ih =>
        refine Keeps.bind (fun w => post_modifySlot.2 (funext fun i => ?_)) fun _ => ih
        rw [World.setSlot_sockets]
        by_cases hij : i = j
        · subst hij
          rw [Function.update_self]
        · rw [Function.update_of_ne hij]
  refine Keeps.bind (fun _ => post_onChip_of_forall fun _ _ => rfl) fun _ => ?_
  exact (hfree _).bind fun _ _ => post_onChip_of_forall fun _ _ => rfl

omit hB in
/-- At the start no slot has a name. -/
theorem named_start {static : Option StaticIp} {fuel : ℕ} {chip : χ} {fat : Fat.FatFs κ δ ψ}
    (hinit : socketInit B fuel static (bootWorld chip fat) = .ok ((), w₀)) :
    NamedSlots B w₀ := by
  have hnames : ∀ i, ((w₀.sockets i).type, (w₀.sockets i).sockname)
      = (Slot.zero.type, Slot.zero.sockname) :=
    congrFun (keeps_names_socketInit fuel static _ _ _ hinit)
  intro i
  obtain ⟨htype, hname⟩ := Prod.mk.inj (hnames i)
  refine ⟨fun h => ?_, fun h => ?_⟩
  · rw [htype] at h
    cases h
  · rw [hname] at h
    cases h

/-- **In every run the sockets are sound and their ports named**. -/
theorem named_of_run {static : Option StaticIp} {fuel : ℕ} {chip : χ} {fat : Fat.FatFs κ δ ψ}
    (hinit : socketInit B fuel static (bootWorld chip fat) = .ok ((), w₀))
    (hrun : Run (NetCall.exec B L) (OnUdp B) w₀ w) : Sound w.tables ∧ NamedSlots B w := by
  obtain ⟨hfiles, hfreed⟩ := freed_socketInit B fuel static _ _ hinit
  refine hrun.invariant (I := fun w => Sound w.tables ∧ NamedSlots B w)
    ⟨sound_start hfiles hfreed, named_start hinit⟩ ?_
  rintro w₁ call ⟨hs, h⟩ hok
  refine ((effect_exec B L hs call).and (named_exec hB L hs h call hok)).mono fun _ w₂ h₂ => ?_
  exact ⟨hs.effect h₂.1, h₂.2⟩

/-! ### A port that is free -/

/-- **`get_avail_port` finds a free port**, for all contents of the registers and all states of
the sockets, and in every run of calls on datagram sockets a socket that a call binds by
itself gets a port that no other open socket holds, in its register or in its name. -/
theorem availPort_fresh :
    (∀ (φ : Type) (w : World χ φ) (fuel : ℕ), 5 ≤ fuel → ∃ port c,
      getAvailPort B fuel w = .ok (port, w.setChip c) ∧ port ≠ 0 ∧
      ∀ i, (w.sockets i).state ≠ .none → port ≠ B.portReg w.chip i) ∧
    ∀ (static : Option StaticIp) (fuel : ℕ) (chip : χ) (fat : Fat.FatFs κ δ ψ)
      (w₀ w w' : World χ (Fat.FatFs κ δ ψ)) (call : ℕ × NetCall χ) (r : ℤ),
      socketInit B fuel static (bootWorld chip fat) = .ok ((), w₀) →
      Run (NetCall.exec B L) (OnUdp B) w₀ w → call.2.AutoBinds →
      NetCall.exec B L call w = .ok (r, w') →
      ∀ i, (w.sockets i).state = .created → (w'.sockets i).state = .bound →
        (w'.sockets i).sockname.sinPort ≠ 0 ∧
        B.portReg w'.chip i = (w'.sockets i).sockname.sinPort ∧
        ∀ j, j ≠ i → (w.sockets j).state ≠ .none →
          (w'.sockets i).sockname.sinPort ≠ B.portReg w.chip j ∧
          ((w.sockets j).sockname.sinFamily = .inet →
            (w'.sockets i).sockname.sinPort ≠ (w.sockets j).sockname.sinPort) := by
  constructor
  · intro φ w fuel hfuel
    obtain ⟨port, c, hret, hfree⟩ := getAvailPort_returns hB w hfuel
    exact ⟨port, c, hret, hfree.ne_zero, hfree.free⟩
  · rintro static fuel chip fat w₀ w w' ⟨fuel', call⟩ r hinit hrun hcall hret i hcreated hbound
    obtain ⟨hs, hnamed⟩ := named_of_run hB L hinit hrun
    obtain ⟨hnamed', hfree⟩ := bindsFree_exec hB L hs hnamed fuel' hcall r w' hret
    have hchanged : (w'.sockets i).state ≠ (w.sockets i).state := by
      rw [hcreated, hbound]
      exact fun h => SocketState.noConfusion h
    obtain ⟨hfamily, hport⟩ := hfree i hchanged
    refine ⟨hport.ne_zero, (hnamed' i).port hfamily, fun j _ hst => ?_⟩
    refine ⟨hport.free j hst, fun hname => ?_⟩
    rw [← (hnamed j).port hname]
    exact hport.free j hst

end Runs

/-! ## Two sockets that are bound by themselves -/

/-- The address and the value that a write to the chip below stores: a command is taken at
once and changes the status register, two bytes further on. -/
def udpStore (a : ℕ) (v : Byte) : ℕ × Byte :=
  if a = regMR then (a, v &&& 0x7F)
  else if ∃ i, a = sockRegGet regCR i then (a + 2, if v = cmdOpen then sockUdp else sockClosed)
  else (a, v)

/-- A chip whose registers are memory. -/
def udpBoard : Board (ℕ → Byte) where
  read a m := (m a, m)
  write a v m := Function.update m (udpStore a v).1 (udpStore a v).2
  clockGettime m := (timespecZero, m)
  usartReady m := (false, m)
  usartRecv m := (0, m)
  usartSend _ m := m

/-- The bytes of the ports are stored as they are. -/
theorem udpStore_of_port {a : ℕ} (h : IsPortByte a) (v : Byte) : udpStore a v = (a, v) := by
  obtain ⟨i, h⟩ := h
  have hi : i.val < 4 := i.isLt
  unfold sockRegGet s0RegsOffset regPORT socketRegsSize at h
  unfold udpStore
  rw [if_neg, if_neg]
  · rintro ⟨j, hj⟩
    have hlt : j.val < 4 := j.isLt
    unfold sockRegGet s0RegsOffset regCR socketRegsSize at hj
    omega
  · unfold regMR
    omega

/-- No other store reaches them. -/
theorem not_isPortByte_udpStore {a : ℕ} (h : ¬ IsPortByte a) (v : Byte) :
    ¬ IsPortByte (udpStore a v).1 := by
  unfold udpStore
  by_cases hcr : ∃ i, a = sockRegGet regCR i
  · obtain ⟨i, rfl⟩ := hcr
    have hi : i.val < 4 := i.isLt
    rw [if_neg, if_pos ⟨i, rfl⟩]
    · rintro ⟨j, hj⟩
      have hlt : j.val < 4 := j.isLt
      unfold sockRegGet s0RegsOffset regCR regPORT socketRegsSize at hj
      dsimp only at hj
      omega
    · unfold sockRegGet s0RegsOffset regCR socketRegsSize regMR
      omega
  · by_cases hmr : a = regMR
    · rw [if_pos hmr]
      exact h
    · rw [if_neg hmr, if_neg hcr]
      exact h

/-- The board of the examples keeps its ports. -/
theorem udpBoard_portsHold : udpBoard.PortsHold where
  read _ _ := rfl
  clock _ := rfl
  write a v m ha _ := by
    have hstore := not_isPortByte_udpStore ha v
    funext i
    have hne : sockRegGet regPORT i ≠ (udpStore a v).1 := fun h => hstore ⟨i, .inl h.symm⟩
    have hne' : sockRegGet regPORT i + 1 ≠ (udpStore a v).1 := fun h => hstore ⟨i, .inr h.symm⟩
    show (Function.update m (udpStore a v).1 _ _, Function.update m (udpStore a v).1 _ _) = (m _, m _)
    rw [Function.update_of_ne hne, Function.update_of_ne hne']
  set i v0 v1 m := by
    show udpBoard.portBytes (Function.update (Function.update m (udpStore _ v0).1 _)
      (udpStore _ v1).1 _) = _
    rw [udpStore_of_port ⟨i, .inl rfl⟩, udpStore_of_port ⟨i, .inr rfl⟩]
    dsimp only
    funext j
    show (Function.update (Function.update m (sockRegGet regPORT i) v0)
        (sockRegGet regPORT i + 1) v1 (sockRegGet regPORT j),
      Function.update (Function.update m (sockRegGet regPORT i) v0)
        (sockRegGet regPORT i + 1) v1 (sockRegGet regPORT j + 1)) = _
    by_cases hj : j = i
    · subst hj
      rw [Function.update_self, Function.update_self, Function.update_of_ne (by omega),
        Function.update_self]
    · have hreg : sockRegGet regPORT j ≠ sockRegGet regPORT i ∧
          sockRegGet regPORT j + 1 ≠ sockRegGet regPORT i ∧
          sockRegGet regPORT j ≠ sockRegGet regPORT i + 1 := by
        have hval : j.val ≠ i.val := fun h => hj (Fin.ext h)
        unfold sockRegGet s0RegsOffset regPORT socketRegsSize
        omega
      rw [Function.update_of_ne hj, Function.update_of_ne hreg.2.2, Function.update_of_ne hreg.1,
        Function.update_of_ne (by omega), Function.update_of_ne hreg.2.1]
      rfl

/-! ### The run -/

/-- The calls that `OnUdp` allows, without events. -/
def onUdpCall : NetCall (ℕ → Byte) → Bool
  | .socket _ type _ => type = .dgram
  | .event _ => false
  | _ => true

/-- Two sockets, of which the first one has been connected. -/
def udpRun : Option (World (ℕ → Byte) (Fat.FatFs Unit Unit Unit)) :=
  match socketInit udpBoard 5 none (bootWorld (fun _ => 0) noFiles) with
  | .ok (_, w₀) => runList (NetCall.exec udpBoard noDisk) (fun _ call => onUdpCall call.2)
      [(5, .socket .inet .dgram 0), (5, .socket .inet .dgram 0),
       (5, .connect 3 ⟨.inet, htons 53, 0x0100A8C0⟩)] w₀
  | .error _ => none

/-- The second socket is connected too. -/
def connectSecond : Fat.FatSys (ℕ → Byte) Unit Unit Unit ℤ :=
  NetCall.exec udpBoard noDisk (5, .connect 4 ⟨.inet, htons 53, 0x0100A8C0⟩)

/-- Its calls are those of a datagram program. -/
theorem onUdp_of_onUdpCall {φ : Type} (w : World (ℕ → Byte) φ) (call : ℕ × NetCall (ℕ → Byte))
    (h : onUdpCall call.2 = true) : OnUdp udpBoard w call := by
  obtain ⟨fuel, call⟩ := call
  cases call with
  | socket domain type protocol =>
      have htype : type = .dgram := of_decide_eq_true h
      exact htype
  | event chip => cases h
  | _ => trivial

/-- The run that is computed is a run. -/
theorem run_of_udpRun {w : World (ℕ → Byte) (Fat.FatFs Unit Unit Unit)} (h : udpRun = some w) :
    ∃ w₀, socketInit udpBoard 5 none (bootWorld (fun _ => 0) noFiles) = .ok ((), w₀) ∧
      Run (NetCall.exec udpBoard noDisk) (OnUdp udpBoard) w₀ w := by
  unfold udpRun at h
  cases hinit : socketInit udpBoard 5 none (bootWorld (fun _ => 0) noFiles) with
  | error e =>
      rw [hinit] at h
      cases h
  | ok r =>
      rw [hinit] at h
      exact ⟨r.2, rfl, Run.of_runList onUdp_of_onUdpCall .start h⟩

/-- The first socket has got the port 0x7FF0, and the second one gets another. -/
theorem availPort_fresh_second : ∃ w w' : World (ℕ → Byte) (Fat.FatFs Unit Unit Unit),
    udpRun = some w ∧ connectSecond w = .ok (0, w') ∧
    (w.sockets 0).sockname.sinPort = htons 0x7FF0 ∧
    (w'.sockets 1).sockname.sinPort ≠ (w.sockets 0).sockname.sinPort := by
  have hcheck : udpRun.any (fun w => decide (((w.sockets 0).state = .bound ∧
      (w.sockets 0).sockname = ⟨.inet, htons 0x7FF0, inaddrAny⟩ ∧
      (w.sockets 1).state = .created) ∧
      (connectSecond w).toOption.any (fun r => decide (r.1 = 0 ∧
        (r.2.sockets 1).state = .bound)) = true)) = true := by decide +kernel
  obtain ⟨w, hw, hfacts⟩ := (Option.any_eq_true _ _).1 hcheck
  obtain ⟨⟨hbound, hname, hcreated⟩, hsecond⟩ := of_decide_eq_true hfacts
  obtain ⟨⟨r, w'⟩, hret, hres⟩ := (Option.any_eq_true _ _).1 hsecond
  obtain ⟨rfl, hbound'⟩ := of_decide_eq_true hres
  have hok : connectSecond w = .ok (0, w') := by
    cases hc : connectSecond w with
    | error e =>
        rw [hc] at hret
        cases hret
    | ok r' =>
        rw [hc] at hret
        cases hret
        rfl
  obtain ⟨w₀, hinit, hrun⟩ := run_of_udpRun hw
  obtain ⟨-, -, hothers⟩ := (availPort_fresh udpBoard_portsHold noDisk).2 none 5 _ _ w₀ w w'
    (5, .connect 4 ⟨.inet, htons 53, 0x0100A8C0⟩) 0 hinit hrun trivial hok 1 hcreated hbound'
  have hopen : (w.sockets 0).state ≠ .none := by
    rw [hbound]
    exact fun h => SocketState.noConfusion h
  refine ⟨w, w', hw, hok, by rw [hname], (hothers 0 (by decide) hopen).2 ?_⟩
  rw [hname]

end W5100

end Nucleo
