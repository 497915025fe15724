/-
# The network configuration of the chip

`w5100_dhcp.c`: a DHCP client whose lease is written to the registers `SIPR`, `GAR` and
`SUBR`.  `configure` writes a register only when the value differs from the one that it
wrote last, and starts from the value 0.

The chip of this module has its common registers spelled out.  What `dhcp_step` does to
the sockets of the chip is part of the input of a call (`DhcpCall`).

A bound client has a gateway and a subnet mask, so these registers are always written
(`registersMatch_of_run`).  Its address is what the server assigns, and the address
0.0.0.0 is not written over an address that `w5100_socket_init` configured
(`zeroAddress_not_written`).
-/
import Nucleo.DhcpLease
import Nucleo.W5100Socket

namespace Nucleo

namespace W5100

open Comp

/-! ## The common registers -/

def regGAR : ℕ := 0x0001
def regSUBR : ℕ := 0x0005
def regSHAR : ℕ := 0x0009
def regSIPR : ℕ := 0x000F

/-- The registers that hold addresses. -/
def IsAddressReg (a : ℕ) : Prop := regGAR ≤ a ∧ a < regSIPR + 4

instance : DecidablePred IsAddressReg := fun a =>
  inferInstanceAs (Decidable (regGAR ≤ a ∧ a < regSIPR + 4))

/-- The state of the chip: its common registers, and what it answers to everything else. -/
structure RegChip where
  common : ℕ → Byte
  answers : ℕ → Byte
  times : ℕ → Timespec
  now : ℕ

/-- The chip behind the SPI bus.  Setting the reset bit of the mode register clears the
common registers. -/
def regBoard : Board RegChip where
  read a c := (if IsAddressReg a then c.common a else c.answers c.now, { c with now := c.now + 1 })
  write a b c :=
    { c with
      common :=
        if a = regMR ∧ b &&& 0x80 ≠ 0 then fun _ => 0
        else if a < s0RegsOffset then Function.update c.common a b
        else c.common
      now := c.now + 1 }
  clockGettime c := (c.times c.now, { c with now := c.now + 1 })
  usartReady c := (false, { c with now := c.now + 1 })
  usartRecv c := (c.answers c.now, { c with now := c.now + 1 })
  usartSend _ c := { c with now := c.now + 1 }

namespace RegChip

/-- The addresses in the registers. -/
def sipr (c : RegChip) : InAddr := load32 c.common regSIPR
def gar (c : RegChip) : InAddr := load32 c.common regGAR
def subr (c : RegChip) : InAddr := load32 c.common regSUBR

end RegChip

/-! ## `w5100_dhcp.c` -/

/-- `struct config`: what `configure` wrote last. -/
structure Config where
  client : InAddr
  gateway : InAddr
  subnet : InAddr
  deriving DecidableEq

/-- The static variables of `w5100_dhcp.c`, and the chip. -/
structure DhcpWorld (χ : Type) where
  binding : Dhcp.Binding
  config : Config
  initialized : Bool
  chip : χ

namespace DhcpWorld

variable {χ : Type}

def setChip (c : χ) (s : DhcpWorld χ) : DhcpWorld χ := { s with chip := c }

/-- The static variables before the program starts. -/
def start (c : χ) : DhcpWorld χ := ⟨Dhcp.Binding.zero, ⟨0, 0, 0⟩, false, c⟩

/-- `w5100_dhcp_isbound`. -/
def w5100DhcpIsbound (s : DhcpWorld χ) : Bool := Dhcp.dhcpIsbound s.binding

end DhcpWorld

section Program

variable {χ : Type} (B : Board χ)

/-- Run a computation of the chip. -/
def onDhcpChip {α : Type} (x : Comp χ Stop α) : Comp (DhcpWorld χ) Stop α :=
  Comp.focus DhcpWorld.chip DhcpWorld.setChip x

/-- `if (new != cached) { w5100_write_regx(reg, &new); cached = new; }`: the new value of
`cached`. -/
def configureReg (reg : ℕ) (new cached : InAddr) : Comp χ Stop InAddr :=
  if new ≠ cached then do
    writeMem B reg (bytes32 new)
    pure new
  else pure cached

/-- `configure`. -/
def configure (b : Dhcp.Binding) (config : Config) : Comp χ Stop Config := do
  let client ← configureReg B regSIPR b.client config.client
  let gateway ← configureReg B regGAR b.gateway config.gateway
  let subnet ← configureReg B regSUBR b.subnet config.subnet
  pure ⟨client, gateway, subnet⟩

/-- The body of `if (!initialized)`. -/
def dhcpStart : Comp (DhcpWorld χ) Stop Unit := do
  if (← get).initialized = false then
    let mac ← onDhcpChip (readMem B regSHAR Dhcp.dhcpMacAddrLen)
    modify fun s =>
      { s with
        binding := Dhcp.dhcpInit (Vector.ofFn fun k => mac.getD k 0)
        initialized := true }

/-- The call of `dhcp_step`; `sockets` is what its socket calls do to the chip. -/
def stepBinding (sockets : χ → χ) (i : Dhcp.StepInput) : Comp (DhcpWorld χ) Stop ℤ := do
  match (Dhcp.dhcpStep i (← get).binding).2 with
  | none => throw .waiting
  | some (next, b) =>
      modify fun s => { s with binding := b, chip := sockets s.chip }
      pure next

/-- The call of `configure`, if the client is bound. -/
def configureBound : Comp (DhcpWorld χ) Stop Unit := do
  let s ← get
  if s.w5100DhcpIsbound = true then
    let config ← onDhcpChip (configure B s.binding s.config)
    modify fun s => { s with config := config }

/-- `w5100_dhcp`. -/
def w5100Dhcp (sockets : χ → χ) (i : Dhcp.StepInput) : Comp (DhcpWorld χ) Stop ℤ := do
  dhcpStart B
  let next ← stepBinding sockets i
  configureBound B
  pure next

end Program

/-- A call of `w5100_dhcp`.  The socket calls that `dhcp_step` makes reach the registers
and the memory of the sockets only. -/
structure DhcpCall where
  input : Dhcp.StepInput
  sockets : RegChip → RegChip
  keeps : ∀ c, (sockets c).common = c.common

/-- `w5100_dhcp` on the chip. -/
def DhcpCall.exec (call : DhcpCall) : Comp (DhcpWorld RegChip) Stop ℤ :=
  w5100Dhcp regBoard call.sockets call.input

/-! ## Transactions -/

section Transactions

variable {c : RegChip}

theorem post_readByte_common {reg : ℕ} :
    Post (readByte regBoard reg) (fun _ c' => c'.common = c.common) c := by
  intro b c' heq
  cases heq
  rfl

/-- A write to the common registers behind the mode register stores the bytes. -/
theorem post_writeMem_common {addr : ℕ} {l : List Byte} (hpos : 0 < addr)
    (hend : addr + l.length ≤ s0RegsOffset) :
    Post (writeMem regBoard addr l) (fun _ c' => c'.common = Memory.write c.common addr l) c := by
  induction l generalizing addr c with
  | nil =>
      refine post_pure.2 ?_
      rw [Memory.write_nil]
  | cons b l ih =>
      have hlt : addr < 0x400 := by
        have h : addr + (l.length + 1) ≤ 0x400 := hend
        omega
      have hstore : Post (writeByte regBoard addr b)
          (fun _ c' => c'.common = Function.update c.common addr b) c := by
        intro _ c' heq
        cases heq
        have hmod : addr % 2 ^ 16 = addr := Nat.mod_eq_of_lt (by omega)
        show (if addr % 2 ^ 16 = regMR ∧ _ then _ else if addr % 2 ^ 16 < s0RegsOffset then
          Function.update c.common (addr % 2 ^ 16) b else _) = _
        rw [hmod, if_neg (fun h => absurd h.1 (by show addr ≠ 0; omega)),
          if_pos (show addr < s0RegsOffset from hlt)]
      show Post (writeByte regBoard addr b >>= _) _ c
      rw [post_bind]
      refine hstore.mono ?_
      intro _ c1 h1
      refine (ih (by omega) (by
        have h : addr + (l.length + 1) ≤ 0x400 := hend
        show addr + 1 + l.length ≤ 0x400
        omega)).mono ?_
      intro _ c2 h2
      rw [h2, h1, Memory.write_cons]

/-- A reset clears the registers. -/
theorem post_chipReset (fuel : ℕ) :
    Post (chipReset regBoard fuel) (fun _ c' => c'.common = fun _ => 0) c := by
  have hstore : Post (writeByte regBoard 0x0000 0x80) (fun _ c' => c'.common = fun _ => 0) c := by
    intro _ c' heq
    cases heq
    rfl
  unfold chipReset
  rw [post_bind]
  refine hstore.mono ?_
  intro _ c1 h1
  refine Post.iter (fun _ c' => c'.common = fun _ => 0) ?_ fuel h1
  intro _ c2 h2
  rw [post_bind]
  refine post_readByte_common.mono ?_
  intro v c3 h3
  rw [post_pure]
  split_ifs
  · exact h3.trans h2
  · exact h3.trans h2

end Transactions

/-! ## The lease -/

section Lease

open Dhcp

/-- An acknowledgement that is taken assigns an address. -/
def AckAssigns : Action → Prop :=
  Action.Delivers fun b d now => expectsAck b.state = true → IsReply b d now →
    (d.parsed now).type = dhcpAck → (dhcpCheckOptions (d.parsed now).options).1 = 0 →
    d.yiaddr ≠ inaddrAny

instance : DecidablePred AckAssigns :=
  inferInstanceAs (DecidablePred (Action.Delivers fun b d now => expectsAck b.state = true →
    IsReply b d now → (d.parsed now).type = dhcpAck →
    (dhcpCheckOptions (d.parsed now).options).1 = 0 → d.yiaddr ≠ inaddrAny))

/-- `dhcp_check_options` lets no acknowledgement without gateway or subnet mask pass. -/
theorem gateway_fromAck :
    FromAck (fun _ => True) fun _ b => b.gateway ≠ inaddrAny ∧ b.subnet ≠ inaddrAny where
  mono := fun h _ => h
  congr := by
    intro h b b' hG heq
    rw [heq]
    exact hG
  ack := by
    intro h sock b d now _ _ _ _ _ hc
    obtain ⟨-, hg, hm⟩ := dhcpCheckOptions_eq_zero hc
    obtain ⟨-, fg, fm, -⟩ := dhcpCheckOptions_fields (d.parsed now).options
    constructor
    · show (dhcpCheckOptions (d.parsed now).options).2.gateway ≠ inaddrAny
      rw [fg]
      exact hg
    · show (dhcpCheckOptions (d.parsed now).options).2.subnet ≠ inaddrAny
      rw [fm]
      exact hm

/-- It does not look at the address. -/
theorem client_fromAck : FromAck AckAssigns fun _ b => b.client ≠ inaddrAny where
  mono := fun h _ => h
  congr := by
    intro h b b' hG heq
    rw [heq]
    exact hG
  ack := fun _ he hreply hA ht hc => hA he hreply ht hc

variable {i : StepInput} {b b' : Binding} {ret : ℤ}

/-- A bound client has a gateway and a subnet mask. -/
theorem gateway_of_dhcpStep (hstep : (dhcpStep i b).2 = some (ret, b'))
    (hb : dhcpIsbound b = true → b.gateway ≠ inaddrAny ∧ b.subnet ≠ inaddrAny)
    (hbound : dhcpIsbound b' = true) : b'.gateway ≠ inaddrAny ∧ b'.subnet ≠ inaddrAny := by
  have hP := (gateway_fromAck.roundInvariant.step (i := i) (h := []) fun _ => hb).2 ret b' hstep
  exact hP (fun _ _ => trivial) hbound

/-- A bound client has an address, if the acknowledgement that it took assigns one. -/
theorem client_of_dhcpStep (hstep : (dhcpStep i b).2 = some (ret, b'))
    (hb : dhcpIsbound b = true → b.client ≠ inaddrAny)
    (hacks : ∀ e ∈ (dhcpStep i b).1, AckAssigns e)
    (hbound : dhcpIsbound b' = true) : b'.client ≠ inaddrAny := by
  have hP := (client_fromAck.roundInvariant.step (i := i) (h := []) fun _ => hb).2 ret b' hstep
  exact hP hacks hbound

end Lease

/-! ## `configure` -/

section Configure

variable {c : RegChip}

/-- The register holds the new value if it held the cached one, or the values differ. -/
theorem post_configureReg {reg : ℕ} {new cached : InAddr} (hpos : 0 < reg)
    (hend : reg + 4 ≤ s0RegsOffset)
    (hreg : load32 c.common reg = cached ∨ new ≠ cached) :
    Post (configureReg regBoard reg new cached)
      (fun k c' => k = new ∧ load32 c'.common reg = new ∧
        ∀ q, q + 4 ≤ reg ∨ reg + 4 ≤ q → load32 c'.common q = load32 c.common q) c := by
  unfold configureReg
  rw [post_ite]
  constructor
  · intro hne
    rw [post_bind]
    refine (post_writeMem_common (l := bytes32 new) hpos hend).mono ?_
    intro _ c' h
    rw [post_pure, h]
    exact ⟨rfl, load32_write _ _ _, fun q hq => load32_write_of_disjoint _ (by
      rw [length_bytes32]
      exact hq)⟩
  · intro heq
    have heq' := not_not.1 heq
    refine post_pure.2 ⟨heq'.symm, ?_, fun _ _ => rfl⟩
    rcases hreg with h | h
    · rw [h, heq']
    · exact absurd heq' h

/-- `configure` brings the three registers up to date. -/
theorem post_configure {b : Dhcp.Binding} {config : Config}
    (hclient : c.sipr = config.client ∨ b.client ≠ config.client)
    (hgateway : c.gar = config.gateway ∨ b.gateway ≠ config.gateway)
    (hsubnet : c.subr = config.subnet ∨ b.subnet ≠ config.subnet) :
    Post (configure regBoard b config)
      (fun k c' => k = ⟨b.client, b.gateway, b.subnet⟩ ∧ c'.sipr = b.client ∧
        c'.gar = b.gateway ∧ c'.subr = b.subnet) c := by
  unfold configure
  rw [post_bind]
  refine (post_configureReg (by decide) (by decide) hclient).mono ?_
  rintro k1 c1 ⟨rfl, hs1, hkeep1⟩
  rw [post_bind]
  refine (post_configureReg (by decide) (by decide) ?_).mono ?_
  · rw [hkeep1 regGAR (by decide)]
    exact hgateway
  rintro k2 c2 ⟨rfl, hg2, hkeep2⟩
  rw [post_bind]
  refine (post_configureReg (by decide) (by decide) ?_).mono ?_
  · rw [hkeep2 regSUBR (by decide), hkeep1 regSUBR (by decide)]
    exact hsubnet
  rintro k3 c3 ⟨rfl, hm3, hkeep3⟩
  refine post_pure.2 ⟨rfl, ?_, ?_, hm3⟩
  · show load32 c3.common regSIPR = b.client
    rw [hkeep3 regSIPR (by decide), hkeep2 regSIPR (by decide), hs1]
  · show load32 c3.common regGAR = b.gateway
    rw [hkeep3 regGAR (by decide), hg2]

end Configure

/-! ## Runs -/

namespace DhcpWorld

/-- The registers hold the addresses of the binding. -/
structure RegistersMatch (s : DhcpWorld RegChip) : Prop where
  client : s.chip.sipr = s.binding.client
  gateway : s.chip.gar = s.binding.gateway
  subnet : s.chip.subr = s.binding.subnet

/-- `SIPR` holds an address that `configure` did not write. -/
def Stale (s : DhcpWorld RegChip) : Prop := s.config.client = 0 ∧ s.chip.sipr ≠ 0

instance (s : DhcpWorld RegChip) : Decidable s.Stale :=
  inferInstanceAs (Decidable (s.config.client = 0 ∧ s.chip.sipr ≠ 0))

/-- The binding that `dhcp_step` gets. -/
def clientBinding (s : DhcpWorld RegChip) : Dhcp.Binding :=
  if s.initialized = false then
    Dhcp.dhcpInit (Vector.ofFn fun k => s.chip.common (regSHAR + k))
  else s.binding

/-- As long as `SIPR` holds an address that `configure` did not write, no acknowledgement
that is taken in the call assigns 0.0.0.0. -/
def AssignsAddress (s : DhcpWorld RegChip) (call : DhcpCall) : Prop :=
  s.Stale → ∀ e ∈ (Dhcp.dhcpStep call.input s.clientBinding).1, AckAssigns e

instance (s : DhcpWorld RegChip) (call : DhcpCall) : Decidable (s.AssignsAddress call) :=
  inferInstanceAs (Decidable (s.Stale →
    ∀ e ∈ (Dhcp.dhcpStep call.input s.clientBinding).1, AckAssigns e))

/-- What every call keeps: the cache is that of the registers, or still 0, and a bound
client is configured. -/
structure Coherent (s : DhcpWorld RegChip) : Prop where
  client : s.chip.sipr = s.config.client ∨ s.config.client = 0
  gateway : s.chip.gar = s.config.gateway ∨ s.config.gateway = 0
  subnet : s.chip.subr = s.config.subnet ∨ s.config.subnet = 0
  isbound : s.w5100DhcpIsbound = true → s.RegistersMatch ∧ s.config.client = s.binding.client ∧
    s.binding.gateway ≠ inaddrAny ∧ s.binding.subnet ≠ inaddrAny

end DhcpWorld

namespace DhcpWorld

variable {s : DhcpWorld RegChip}

/-! ### The calls -/

theorem post_readMem_address {addr n : ℕ} (hlo : regGAR ≤ addr) (hhi : addr + n ≤ regSIPR + 4)
    {c : RegChip} :
    Post (readMem regBoard addr n)
      (fun bs c' => bs = Memory.read c.common addr n ∧ c'.common = c.common) c := by
  induction n generalizing addr c with
  | zero => exact post_pure.2 ⟨rfl, rfl⟩
  | succ n ih =>
      have hhi' : addr + (n + 1) ≤ 19 := hhi
      have hread : Post (readByte regBoard addr)
          (fun b c' => b = c.common addr ∧ c'.common = c.common) c := by
        intro b c' heq
        cases heq
        have hmod : addr % 2 ^ 16 = addr := Nat.mod_eq_of_lt (by omega)
        refine ⟨?_, rfl⟩
        show (if IsAddressReg (addr % 2 ^ 16) then c.common (addr % 2 ^ 16) else _) = _
        rw [hmod, if_pos ⟨hlo, show addr < 19 by omega⟩]
      show Post (readByte regBoard addr >>= _) _ c
      rw [post_bind]
      refine hread.mono ?_
      rintro b c1 ⟨rfl, h1⟩
      rw [post_bind]
      refine (ih (Nat.le_succ_of_le hlo) (show addr + 1 + n ≤ 19 by omega)).mono ?_
      rintro bs c2 ⟨rfl, h2⟩
      refine post_pure.2 ⟨?_, h2.trans h1⟩
      rw [h1, Memory.read_succ]

/-- The first call initialises the binding with the hardware address of the chip. -/
theorem post_dhcpStart :
    Post (dhcpStart regBoard)
      (fun _ s' => s'.binding = s.clientBinding ∧ s'.chip.common = s.chip.common ∧
        s'.config = s.config) s := by
  unfold dhcpStart
  rw [post_bind, post_get, post_ite]
  constructor
  · intro hfresh
    unfold onDhcpChip
    rw [post_bind, post_focus]
    refine (post_readMem_address (by decide) (by decide)).mono ?_
    rintro mac c ⟨rfl, hc⟩
    rw [post_modify]
    refine ⟨?_, hc, rfl⟩
    show Dhcp.dhcpInit _ = s.clientBinding
    unfold clientBinding
    rw [if_pos hfresh]
    congr 2
    funext k
    rw [List.getD_eq_getElem?_getD, Memory.getElem?_read _ k.isLt]
    rfl
  · intro hinit
    refine post_pure.2 ⟨?_, rfl, rfl⟩
    unfold clientBinding
    rw [if_neg hinit]

/-- A client that was not bound before the call of `w5100_dhcp` is not bound before that of
`dhcp_step`. -/
theorem clientBinding_of_isbound (h : Dhcp.dhcpIsbound s.clientBinding = true) :
    s.clientBinding = s.binding := by
  unfold clientBinding at h ⊢
  split_ifs at h ⊢
  · cases h
  · rfl

theorem post_stepBinding {sockets : RegChip → RegChip} {i : Dhcp.StepInput} :
    Post (stepBinding sockets i)
      (fun next s' => (Dhcp.dhcpStep i s.binding).2 = some (next, s'.binding) ∧
        s'.chip = sockets s.chip ∧ s'.config = s.config) s := by
  unfold stepBinding
  rw [post_bind, post_get]
  cases hstep : (Dhcp.dhcpStep i s.binding).2 with
  | none => exact post_throw.2 trivial
  | some r =>
      dsimp only
      rw [post_bind, post_modify, post_pure]
      exact ⟨rfl, rfl, rfl⟩

/-- A bound client is configured, if the registers hold what the cache says or the values
differ. -/
theorem post_configureBound {Q : DhcpWorld RegChip → Prop}
    (hfree : s.w5100DhcpIsbound = false → Q s)
    (hclient : s.w5100DhcpIsbound = true →
      s.chip.sipr = s.config.client ∨ s.binding.client ≠ s.config.client)
    (hgateway : s.w5100DhcpIsbound = true →
      s.chip.gar = s.config.gateway ∨ s.binding.gateway ≠ s.config.gateway)
    (hsubnet : s.w5100DhcpIsbound = true →
      s.chip.subr = s.config.subnet ∨ s.binding.subnet ≠ s.config.subnet)
    (hbound : ∀ s' : DhcpWorld RegChip, s'.binding = s.binding → s.w5100DhcpIsbound = true →
      s'.config = ⟨s.binding.client, s.binding.gateway, s.binding.subnet⟩ → s'.RegistersMatch →
      Q s') :
    Post (configureBound regBoard) (fun _ s' => Q s') s := by
  unfold configureBound
  rw [post_bind, post_get, post_ite]
  constructor
  · intro hb
    unfold onDhcpChip
    rw [post_bind, post_focus]
    refine (post_configure (hclient hb) (hgateway hb) (hsubnet hb)).mono ?_
    rintro k c ⟨rfl, hs, hg, hm⟩
    rw [post_modify]
    exact hbound _ rfl hb rfl ⟨hs, hg, hm⟩
  · intro hb
    exact post_pure.2 (hfree (by simpa using hb))

/-- What the cache says and the address differ, unless the register is up to date. -/
theorem differs_of_or {reg cached new : InAddr} (h : reg = cached ∨ cached = 0) (hnew : new ≠ 0) :
    reg = cached ∨ new ≠ cached := by
  rcases h with h | h
  · exact .inl h
  · right
    rw [h]
    exact hnew

/-! ### Steps and starts -/

/-- **One call keeps the registers coherent with the cache**, and leaves no address in
`SIPR` unwritten that was written before. -/
theorem coherent_exec (h : s.Coherent) {call : DhcpCall} (hok : s.AssignsAddress call) :
    Post call.exec (fun _ s' => s'.Coherent ∧ (s'.Stale → s.Stale)) s := by
  unfold DhcpCall.exec w5100Dhcp
  rw [post_bind]
  refine post_dhcpStart.mono ?_
  rintro _ s1 ⟨hb1, hc1, hk1⟩
  rw [post_bind]
  refine post_stepBinding.mono ?_
  rintro next s2 ⟨hstep, hchip2, hk2⟩
  have hcommon : s2.chip.common = s.chip.common := by
    rw [hchip2, call.keeps, hc1]
  have hsipr : s2.chip.sipr = s.chip.sipr := congrArg (load32 · regSIPR) hcommon
  have hgar : s2.chip.gar = s.chip.gar := congrArg (load32 · regGAR) hcommon
  have hsubr : s2.chip.subr = s.chip.subr := congrArg (load32 · regSUBR) hcommon
  have hconfig : s2.config = s.config := hk2.trans hk1
  rw [hb1] at hstep
  -- a client that is bound before `dhcp_step` was so before the call
  have hold : Dhcp.dhcpIsbound s.clientBinding = true →
      s.clientBinding = s.binding ∧ s.w5100DhcpIsbound = true := by
    intro hb
    have heq := clientBinding_of_isbound hb
    rw [heq] at hb
    exact ⟨heq, hb⟩
  have hgw : s2.w5100DhcpIsbound = true →
      s2.binding.gateway ≠ inaddrAny ∧ s2.binding.subnet ≠ inaddrAny := by
    apply gateway_of_dhcpStep hstep
    intro hb
    obtain ⟨heq, hb'⟩ := hold hb
    rw [heq]
    exact (h.isbound hb').2.2
  rw [post_bind]
  refine post_configureBound ?_ ?_ ?_ ?_ ?_
  · intro hfree
    refine post_pure.2 ⟨⟨?_, ?_, ?_, ?_⟩, ?_⟩
    · rw [hsipr, hconfig]
      exact h.client
    · rw [hgar, hconfig]
      exact h.gateway
    · rw [hsubr, hconfig]
      exact h.subnet
    · intro hb
      rw [hfree] at hb
      cases hb
    · rintro ⟨hzero, hne⟩
      rw [hconfig] at hzero
      rw [hsipr] at hne
      exact ⟨hzero, hne⟩
  · intro hb
    rw [hsipr, hconfig]
    by_cases hstale : s.Stale
    · -- the client was not bound, so an acknowledgement of this call assigned the address
      right
      rw [hstale.1]
      refine client_of_dhcpStep hstep ?_ (hok hstale) hb
      intro hbound
      obtain ⟨-, hb'⟩ := hold hbound
      obtain ⟨hm, hcl, -⟩ := h.isbound hb'
      exact absurd (hm.client.trans (hcl.symm.trans hstale.1)) hstale.2
    · left
      rcases h.client with hc | hc
      · exact hc
      · by_contra hne
        exact hstale ⟨hc, fun hz => hne (hz.trans hc.symm)⟩
  · intro hb
    rw [hgar, hconfig]
    exact differs_of_or h.gateway (hgw hb).1
  · intro hb
    rw [hsubr, hconfig]
    exact differs_of_or h.subnet (hgw hb).2
  · intro s3 hb3 hb hk3 hm
    refine post_pure.2 ⟨⟨?_, ?_, ?_, ?_⟩, ?_⟩
    · left
      rw [hm.client, hb3, hk3]
    · left
      rw [hm.gateway, hb3, hk3]
    · left
      rw [hm.subnet, hb3, hk3]
    · intro _
      rw [hk3, hb3]
      exact ⟨hm, rfl, hgw hb⟩
    · rintro ⟨hzero, hne⟩
      rw [hm.client, hb3] at hne
      rw [hk3] at hzero
      exact absurd hzero hne

/-- The cache of 0 is coherent with whatever the registers hold. -/
theorem coherent_start (c : RegChip) : (start c).Coherent where
  client := .inr rfl
  gateway := .inr rfl
  subnet := .inr rfl
  isbound := by
    intro h
    cases h

end DhcpWorld

/-! ## From the reset of the chip on -/

section FromReset

variable {φ : Type} {fuel : ℕ} {static : Option StaticIp} {w w₁ : World RegChip φ}

/-- The address that `w5100_socket_init` configures. -/
def configuredIp (static : Option StaticIp) : InAddr :=
  match static with
  | none => 0
  | some a => a.ip

/-- The chip's address after `w5100_socket_init`. -/
theorem post_chipConfigure {c : RegChip} (hreset : c.common = fun _ => 0) :
    Post (chipConfigure regBoard static) (fun _ c' => c'.sipr = configuredIp static) c := by
  -- the registers behind SIPR
  have hmode : ∀ (reg : ℕ) (b : Byte) (c : RegChip), regSIPR + 4 ≤ reg → reg < s0RegsOffset →
      Post (writeByte regBoard reg b) (fun _ c' => c'.sipr = c.sipr) c := by
    intro reg b c hlo hhi
    have h := post_writeMem_common (c := c) (l := [b])
      (show 0 < reg by have h : 19 ≤ reg := hlo; omega) hhi
    intro u c' heq
    have hc' := h u c' (by
      show (writeByte regBoard reg b >>= fun _ => pure ()) c = _
      rw [bind_eq, heq]
      rfl)
    show load32 c'.common regSIPR = load32 c.common regSIPR
    rw [hc']
    exact load32_write_of_disjoint _ (.inl hlo)
  have hword : ∀ {c : RegChip} (reg : ℕ) (v : InAddr), 0 < reg → reg + 4 ≤ s0RegsOffset →
      Post (writeMem regBoard reg (bytes32 v))
        (fun _ c' => c'.common = Memory.write c.common reg (bytes32 v)) c :=
    fun _ _ hpos hend => post_writeMem_common hpos hend
  have hzero : c.sipr = 0 := by
    show load32 c.common regSIPR = 0
    rw [hreset]
    rfl
  unfold chipConfigure
  rw [post_bind]
  refine (hmode 0x001A 0x55 c (by decide) (by decide)).mono ?_
  intro _ c1 h1
  rw [post_bind]
  refine (hmode 0x001B 0x55 c1 (by decide) (by decide)).mono ?_
  intro _ c2 h2
  rw [post_bind]
  refine (post_writeMem_common (l := macAddr) (show 0 < 0x0009 by decide) (by decide)).mono ?_
  intro _ c3 h3
  have hsipr : c3.sipr = 0 := by
    show load32 c3.common regSIPR = 0
    rw [h3, load32_write_of_disjoint _ (.inr (by decide))]
    exact (h2.trans h1).trans hzero
  cases static with
  | none => exact post_pure.2 hsipr
  -- gateway and mask lie in front of SIPR
  | some a =>
      dsimp only
      rw [post_bind]
      refine (hword 0x000F a.ip (by decide) (by decide)).mono ?_
      intro _ c4 h4
      rw [post_bind]
      refine (hword 0x0001 a.gateway (by decide) (by decide)).mono ?_
      intro _ c5 h5
      refine (hword 0x0005 a.subnet (by decide) (by decide)).mono ?_
      intro _ c6 h6
      show load32 c6.common regSIPR = a.ip
      rw [h6, load32_write_of_disjoint _ (.inr (by rw [length_bytes32]; decide)), h5,
        load32_write_of_disjoint _ (.inr (by rw [length_bytes32]; decide)), h4]
      exact load32_write _ _ _

theorem post_socketInit :
    Post (socketInit regBoard fuel static)
      (fun _ w' => w'.chip.sipr = configuredIp static) w := by
  have hfree : ∀ (l : List (Fin nSockets)) (w : World RegChip φ),
      Post (l.forM socketFree) (fun _ w' => w'.chip = w.chip) w := by
    intro l
    induction l with
    | nil =>
        intro w
        exact post_pure.2 rfl
    | cons i l ih =>
        intro w
        show Post (socketFree i >>= fun _ => l.forM socketFree) _ w
        rw [post_bind]
        unfold socketFree
        rw [post_modifySlot]
        exact ih _
  unfold socketInit
  rw [post_bind, post_onChip]
  refine (post_chipReset fuel).mono ?_
  intro _ c hreset
  rw [post_bind]
  refine (hfree _ _).mono ?_
  intro _ w1 h1
  rw [post_onChip, h1]
  exact post_chipConfigure hreset

open DhcpWorld

/-- **The registers hold the addresses of a bound client** in every state that calls of
`w5100_dhcp` reach from the initialised chip, as long as no acknowledgement assigns 0.0.0.0
while `SIPR` holds an address that `configure` did not write.  Without a static address this
is never the case. -/
theorem registersMatch_of_run (hinit : socketInit regBoard fuel static w = .ok ((), w₁)) :
    (∀ s, Run DhcpCall.exec AssignsAddress (start w₁.chip) s →
      s.w5100DhcpIsbound = true → s.RegistersMatch) ∧
    (configuredIp static = 0 → ∀ s, Run DhcpCall.exec (fun _ _ => True) (start w₁.chip) s →
      s.w5100DhcpIsbound = true → s.RegistersMatch) := by
  constructor
  · intro s hrun hbound
    have hcoh := hrun.invariant (I := Coherent) (coherent_start _) fun s call h hok =>
      (coherent_exec h hok).mono fun _ _ h' => h'.1
    exact (hcoh.isbound hbound).1
  · intro hnone s hrun hbound
    have hfresh : ¬ (start w₁.chip).Stale := fun h =>
      h.2 ((post_socketInit _ _ hinit).trans hnone)
    have hcoh : s.Coherent ∧ ¬ s.Stale := by
      refine hrun.invariant (I := fun s => s.Coherent ∧ ¬ s.Stale) ⟨coherent_start _, hfresh⟩ ?_
      rintro s call ⟨h, hns⟩ -
      refine (coherent_exec h fun hst => absurd hst hns).mono ?_
      rintro _ s' ⟨h', hst⟩
      exact ⟨h', fun hs' => hns (hst hs')⟩
    exact (hcoh.1.isbound hbound).1

end FromReset

/-! ### Two exchanges -/

open Dhcp

/-- A board before the program starts. -/
def idleBoard : World RegChip Unit where
  files := fun _ => Fd.zero
  sockets := fun _ => Slot.zero
  errno := none
  chip := ⟨fun _ => 0, fun _ => 0, fun _ => timespecZero, 0⟩
  fat := ()

/-- A reply for the board that assigns an address. -/
def boardReply (yiaddr : InAddr) (type : Byte) : Datagram :=
  let xid := genXid (Vector.ofFn fun k => macAddr.getD k 0) 0
  let d := exampleReply xid yiaddr (exampleOptions type [255, 255, 255, 0]) fun _ => 0
  { d with mem := Memory.write d.mem offsetChaddr macAddr }

/-- A call whose first request gets the given reply. -/
def boardCall (d : Datagram) : DhcpCall where
  input := exampleStep timespecZero [.datagram d timespecZero]
  sockets := id
  keeps := fun _ => rfl

/-- An exchange in which the server assigns an address. -/
def boardCalls (yiaddr : InAddr) : List DhcpCall :=
  [boardCall (boardReply yiaddr dhcpOffer), boardCall (boardReply yiaddr dhcpAck)]

/-- The state after calls on a board with the default addresses. -/
def boardRun (ok : DhcpWorld RegChip → DhcpCall → Bool) (calls : List DhcpCall) :
    Option (DhcpWorld RegChip) :=
  match socketInit regBoard 1 (some StaticIp.default) idleBoard with
  | .ok (_, w₁) => runList DhcpCall.exec ok calls (DhcpWorld.start w₁.chip)
  | .error _ => none

theorem run_of_boardRun {ok : DhcpWorld RegChip → DhcpCall → Prop}
    {okb : DhcpWorld RegChip → DhcpCall → Bool} (hok : ∀ s call, okb s call = true → ok s call)
    {calls : List DhcpCall} {s : DhcpWorld RegChip} (h : boardRun okb calls = some s) :
    ∃ w₁, socketInit regBoard 1 (some StaticIp.default) idleBoard = .ok ((), w₁) ∧
      Run DhcpCall.exec ok (DhcpWorld.start w₁.chip) s := by
  unfold boardRun at h
  cases hinit : socketInit regBoard 1 (some StaticIp.default) idleBoard with
  | error e =>
      rw [hinit] at h
      cases h
  | ok r =>
      rw [hinit] at h
      exact ⟨r.2, rfl, Run.of_runList hok .start h⟩

theorem registersMatch_assigned : ∃ w₁ s,
    socketInit regBoard 1 (some StaticIp.default) idleBoard = .ok ((), w₁) ∧
      Run DhcpCall.exec DhcpWorld.AssignsAddress (DhcpWorld.start w₁.chip) s ∧
      s.w5100DhcpIsbound = true ∧ s.RegistersMatch := by
  have hrun : (boardRun (fun s call => s.AssignsAddress call) (boardCalls exampleClient)).any
      DhcpWorld.w5100DhcpIsbound = true := by
    decide +kernel
  obtain ⟨s, hs, hbound⟩ := (Option.any_eq_true _ _).1 hrun
  have hreach : ∃ w₁, socketInit regBoard 1 (some StaticIp.default) idleBoard = .ok ((), w₁) ∧
      Run DhcpCall.exec DhcpWorld.AssignsAddress (DhcpWorld.start w₁.chip) s :=
    run_of_boardRun (fun _ _ h => of_decide_eq_true h) hs
  obtain ⟨w₁, hinit, hr⟩ := hreach
  exact ⟨w₁, s, hinit, hr, hbound, (registersMatch_of_run hinit).1 s hr hbound⟩

/-- A server that assigns 0.0.0.0 leaves `SIPR` at the static address. -/
theorem zeroAddress_not_written : ∃ w₁ s,
    socketInit regBoard 1 (some StaticIp.default) idleBoard = .ok ((), w₁) ∧
      Run DhcpCall.exec (fun _ _ => True) (DhcpWorld.start w₁.chip) s ∧
      s.w5100DhcpIsbound = true ∧ ¬ s.RegistersMatch := by
  have hrun : (boardRun (fun _ _ => true) (boardCalls inaddrAny)).any
      (fun s => s.w5100DhcpIsbound && s.chip.sipr != s.binding.client) = true := by
    decide +kernel
  obtain ⟨s, hs, hb⟩ := (Option.any_eq_true _ _).1 hrun
  obtain ⟨hbound, hne⟩ := Bool.and_eq_true_iff.mp hb
  have hreach : ∃ w₁, socketInit regBoard 1 (some StaticIp.default) idleBoard = .ok ((), w₁) ∧
      Run DhcpCall.exec (fun _ _ => True) (DhcpWorld.start w₁.chip) s :=
    run_of_boardRun (fun _ _ _ => trivial) hs
  obtain ⟨w₁, hinit, hr⟩ := hreach
  refine ⟨w₁, s, hinit, hr, hbound, fun hm => ?_⟩
  rw [hm.client, bne_self_eq_false] at hne
  cases hne

end W5100

end Nucleo
