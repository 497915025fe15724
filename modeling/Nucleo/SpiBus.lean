/-
# The SD card and the W5100 on one bus

`sd_spi.c` and `w5100_spi.c` drive two devices on `SPI1`, one selected by `PB5` and one by
`PB6`.  A `Bus` has both devices and both lines, and notes when the two drive `MISO` at once.
What the devices do is a parameter: `Parks` is what the drivers rely on the card for, and
`SpeaksFrames` what they rely on the W5100 for, namely that it makes a frame of four bytes the
transaction of a `Board`, the level at which the other modules see it.

`spi_bus_transparent` says that a program which uses both drivers, in whatever order, cannot
tell the bus from two devices of their own: a card on a bus with nothing else, and a `Board`.
-/
import Nucleo.Lib.Coupling
import Nucleo.SdSpi
import Nucleo.W5100Reg2

namespace Nucleo

namespace SpiBus

open Comp

/-! ## Devices on a bus -/

/-- A device on the bus.  While a byte is clocked, which may be for another device, it drives
`MISO` with a byte or not at all. -/
structure Slave (σ : Type) where
  select : σ → σ
  deselect : σ → σ
  /-- The first argument tells whether the device is selected. -/
  shift : Bool → Byte → σ → Option Byte × σ

/-- No device. -/
def unplugged : Slave Unit := ⟨id, id, fun _ _ s => (none, s)⟩

/-- Two devices, and what the master receives when they drive `MISO` with these bytes. -/
structure Wiring (κ η : Type) where
  card : Slave κ
  eth : Slave η
  miso : Option Byte → Option Byte → Byte
  miso_card : ∀ b, miso (some b) none = b
  miso_eth : ∀ b, miso none (some b) = b

/-- `PB5` and `PB6`, the devices, and whether both have driven `MISO` at once. -/
structure Bus (κ η : Type) where
  cardSelected : Bool
  ethSelected : Bool
  card : κ
  eth : η
  contention : Bool
  deriving DecidableEq

variable {κ η : Type}

section Lines

variable (W : Wiring κ η)

/-- `spi_xfer(SPI1, b)`. -/
def Bus.xfer (b : Byte) (s : Bus κ η) : Byte × Bus κ η :=
  let r := W.card.shift s.cardSelected b s.card
  let q := W.eth.shift s.ethSelected b s.eth
  (W.miso r.1 q.1,
    { s with
      card := r.2
      eth := q.2
      contention := s.contention || (r.1.isSome && q.1.isSome) })

/-- `gpio_clear(GPIOB, GPIO5)`; only an edge does something. -/
def Bus.lower5 (s : Bus κ η) : Bus κ η :=
  if s.cardSelected then s else { s with cardSelected := true, card := W.card.select s.card }

/-- `gpio_set(GPIOB, GPIO5)`. -/
def Bus.raise5 (s : Bus κ η) : Bus κ η :=
  if s.cardSelected then { s with cardSelected := false, card := W.card.deselect s.card } else s

/-- `gpio_clear(GPIOB, GPIO6)`. -/
def Bus.lower6 (s : Bus κ η) : Bus κ η :=
  if s.ethSelected then s else { s with ethSelected := true, eth := W.eth.select s.eth }

/-- `gpio_set(GPIOB, GPIO6)`. -/
def Bus.raise6 (s : Bus κ η) : Bus κ η :=
  if s.ethSelected then { s with ethSelected := false, eth := W.eth.deselect s.eth } else s

/-- The bus as `sd_spi.c` sees it; `spi_init_master` only changes the clock. -/
def cardPort : Sd.SpiBoard (Bus κ η) := ⟨Bus.xfer W, Bus.lower5 W, Bus.raise5 W, fun _ s => s⟩

/-- The same devices with the W5100 taken off. -/
def Wiring.cardOnly : Wiring κ Unit := ⟨W.card, unplugged, W.miso, W.miso_card, W.miso_eth⟩

end Lines

/-! ## The driver of the W5100 -/

section Frames

variable {χ : Type}

/-- The operation code of a write frame. -/
def opWrite : Byte := 0xF0
/-- The operation code of a read frame. -/
def opRead : Byte := 0x0F

/-- The bytes of `w5100_xfer_addr`. -/
def addrBytes (reg : ℕ) : List Byte := [BitVec.ofNat 8 (reg >>> 8), BitVec.ofNat 8 (reg &&& 0xFF)]

variable (W : Wiring κ η)

/-- Bytes sent one after the other, and the bytes received. -/
def Bus.xfers : List Byte → Bus κ η → List Byte × Bus κ η
  | [], s => ([], s)
  | b :: bs, s =>
      let r := s.xfer W b
      let rs := Bus.xfers bs r.2
      (r.1 :: rs.1, rs.2)

/-- The bytes between `w5100_select` and `w5100_deselect`. -/
def Bus.frame (bytes : List Byte) (s : Bus κ η) : List Byte × Bus κ η :=
  let r := (s.lower6 W).xfers W bytes
  (r.1, r.2.raise6 W)

/-- `w5100_write_byte`. -/
def w5100WriteByte (reg : ℕ) (val : Byte) (s : Bus κ η) : Bus κ η :=
  (s.frame W ([opWrite] ++ addrBytes reg ++ [val])).2

/-- `w5100_read_byte`: what comes back for the last byte. -/
def w5100ReadByte (reg : ℕ) (s : Bus κ η) : Byte × Bus κ η :=
  let r := s.frame W ([opRead] ++ addrBytes reg ++ [0x00])
  (r.1.getLastD 0, r.2)

/-- The transactions of `w5100_spi.c` on the bus; clock and serial line are not on it. -/
def ethPort : W5100.Board (Bus κ η) where
  read := w5100ReadByte W
  write := w5100WriteByte W
  clockGettime s := (timespecZero, s)
  usartReady s := (false, s)
  usartRecv s := (0, s)
  usartSend _ s := s

end Frames

/-! ## What the drivers rely on -/

/-- A frame at the pins of a device: what it drives `MISO` with, byte by byte. -/
def Slave.shifts {σ : Type} (S : Slave σ) : List Byte → σ → List (Option Byte) × σ
  | [], s => ([], s)
  | b :: bs, s =>
      let r := S.shift true b s
      let rs := S.shifts bs r.2
      (r.1 :: rs.1, rs.2)

/-- What a device answers to the bytes of a frame, from select to deselect. -/
def Slave.frame {σ : Type} (S : Slave σ) (bytes : List Byte) (s : σ) : List (Option Byte) × σ :=
  let r := S.shifts bytes (S.select s)
  (r.1, S.deselect r.2)

/-- A card that is not selected lets go of `MISO` with the next byte that is clocked, and then
ignores the bus: it is parked. -/
structure Parks {σ : Type} (S : Slave σ) (parked : σ → Prop) : Prop where
  ignores : ∀ s b, parked s → S.shift false b s = (none, s)
  lets_go : ∀ s b, parked (S.shift false b (S.deselect s)).2

/-- A W5100 lets go of `MISO` when it is deselected, and a frame is a transaction with its
registers. -/
structure SpeaksFrames {ρ : Type} (S : Slave η) (B : W5100.Board ρ) (parked : η → Prop)
    (regs : η → ρ) : Prop where
  ignores : ∀ s b, parked s → S.shift false b s = (none, s)
  lets_go : ∀ s bytes, parked s → parked (S.frame bytes s).2
  write : ∀ s reg val, parked s → reg < 2 ^ 16 →
    regs (S.frame ([opWrite] ++ addrBytes reg ++ [val]) s).2 = B.write reg val (regs s)
  read : ∀ s reg, parked s → reg < 2 ^ 16 →
    let r := S.frame ([opRead] ++ addrBytes reg ++ [0x00]) s
    r.1.getLastD none = some (B.read reg (regs s)).1 ∧ regs r.2 = (B.read reg (regs s)).2

/-! ## Programs over the two drivers -/

/-- A call of `sd_spi.h`. -/
inductive CardCall
  | sdInit
  | sdFullSpeed
  | sdSendCommand (cmd : Byte) (arg : BitVec 32) (len : ℕ)
  | sdSendCommandR1 (cmd : Byte) (arg : BitVec 32)
  | sdReadSingleBlock (address : BitVec 32)
  | sdWriteSingleBlock (address : BitVec 32) (src : List Byte)

/-- A call of `w5100.h`. -/
inductive EthCall
  | w5100Init
  | readReg (reg : ℕ)
  | readReg2 (reg : ℕ)
  | writeReg (reg : ℕ) (val : Byte)
  | writeReg2 (reg : ℕ) (val : BitVec 16)
  | readMem (addr n : ℕ)
  | writeMem (addr : ℕ) (buf : List Byte)

/-- What a call for the card returns. -/
def CardCall.Answer : CardCall → Type
  | .sdInit | .sdFullSpeed => Unit
  | .sdSendCommand .. => List Byte
  | .sdSendCommandR1 .. => Byte
  | .sdReadSingleBlock _ => Option (List Byte)
  | .sdWriteSingleBlock .. => Bool

/-- What a call for the W5100 returns. -/
def EthCall.Answer : EthCall → Type
  | .w5100Init | .writeReg .. | .writeReg2 .. | .writeMem .. => Unit
  | .readReg _ => Byte
  | .readReg2 _ => BitVec 16
  | .readMem .. => List Byte

/-- The call on a bus; `sd_init` raises the other select line as well. -/
def CardCall.exec (W : Wiring κ η) (fuel : ℕ) : (c : CardCall) → Comp (Bus κ η) Sd.Stop c.Answer
  | .sdInit => do
      modify (Bus.raise6 W)
      Sd.sdInit (cardPort W)
  | .sdFullSpeed => Sd.sdFullSpeed (cardPort W)
  | .sdSendCommand cmd arg len => Sd.sdSendCommand (cardPort W) fuel cmd arg len
  | .sdSendCommandR1 cmd arg => Sd.sdSendCommandR1 (cardPort W) fuel cmd arg
  | .sdReadSingleBlock address => Sd.sdReadSingleBlock (cardPort W) fuel address
  | .sdWriteSingleBlock address src => Sd.sdWriteSingleBlock (cardPort W) fuel address src

/-- `w5100_spi_init`: both select lines go up. -/
def w5100SpiInit (W : Wiring κ η) (s : Bus κ η) : Bus κ η := (s.raise5 W).raise6 W

/-- The call on a `Board`, where `init` is what `w5100_init` does. -/
def EthCall.exec {χ : Type} (B : W5100.Board χ) (init : χ → χ) :
    (c : EthCall) → Comp χ W5100.Stop c.Answer
  | .w5100Init => modify init
  | .readReg reg => W5100.readByte B reg
  | .readReg2 reg => W5100.readReg2 B reg
  | .writeReg reg val => W5100.writeByte B reg val
  | .writeReg2 reg val => W5100.writeReg2 B reg val
  | .readMem addr n => W5100.readMem B addr n
  | .writeMem addr buf => W5100.writeMem B addr buf

/-- A program over the two drivers: what it calls may depend on the answers so far. -/
inductive Client (α : Type)
  | done (a : α)
  | card (c : CardCall) (next : c.Answer → Client α)
  | eth (c : EthCall) (next : c.Answer → Client α)

/-- The driver in which a program waits. -/
inductive Stop
  | card (e : Sd.Stop)
  | eth (e : W5100.Stop)
  deriving DecidableEq, Repr

/-- The program, with given runs of the calls. -/
def Client.run {χ α : Type} (card : (c : CardCall) → Comp χ Sd.Stop c.Answer)
    (eth : (c : EthCall) → Comp χ W5100.Stop c.Answer) : Client α → Comp χ Stop α
  | .done a => pure a
  | .card c next => do
      let a ← (card c).stopAs Stop.card
      (next a).run card eth
  | .eth c next => do
      let a ← (eth c).stopAs Stop.eth
      (next a).run card eth

/-- Both devices on the bus. -/
def Client.together {α : Type} (W : Wiring κ η) (fuel : ℕ) (p : Client α) :
    Comp (Bus κ η) Stop α :=
  p.run (CardCall.exec W fuel) (EthCall.exec (ethPort W) (w5100SpiInit W))

/-- The card alone on a bus, and the registers of the W5100. -/
def Client.apart {ρ α : Type} (W : Wiring κ η) (B : W5100.Board ρ) (fuel : ℕ) (p : Client α) :
    Comp (Bus κ Unit × ρ) Stop α :=
  p.run (fun c => Comp.focus Prod.fst (fun s w => (s, w.2)) (c.exec W.cardOnly fuel))
    (fun c => Comp.focus Prod.snd (fun r w => (w.1, r)) (c.exec B id))

/-! ## The inner functions of the driver of the card -/

section Inner

variable {χ ψ : Type} {B : Sd.SpiBoard χ} {C : Sd.SpiBoard ψ} {R : χ → ψ → Prop} {fuel : ℕ}

/-- The two boards receive the same bytes. -/
def SameBytes (R : χ → ψ → Prop) (B : Sd.SpiBoard χ) (C : Sd.SpiBoard ψ) : Prop :=
  ∀ b, Coupled R R (Sd.spiXfer B b) (Sd.spiXfer C b)

/-- Sent bytes couple what single bytes couple. -/
theorem coupled_sendBytes (h : SameBytes R B C) (bytes : List Byte) :
    Coupled R R (Sd.sendBytes B bytes) (Sd.sendBytes C bytes) := by
  induction bytes with
  | nil => exact coupled_pure (fun _ _ hR => hR) ()
  | cons b bytes ih => exact (h b).bind fun _ => ih

theorem coupled_recvBytes (h : SameBytes R B C) (n : ℕ) :
    Coupled R R (Sd.recvBytes B n) (Sd.recvBytes C n) := by
  induction n with
  | zero => exact coupled_pure (fun _ _ hR => hR) []
  | succ n ih =>
      refine (h Sd.dataDummy).bind fun b => ih.bind fun bs => ?_
      exact coupled_pure (fun _ _ hR => hR) (b :: bs)

theorem coupled_recvUntil (h : SameBytes R B C) (stop : Byte → Bool) :
    Coupled R R (Sd.recvUntil B fuel stop) (Sd.recvUntil C fuel stop) := by
  refine Coupled.iter (fun _ => (h Sd.dataDummy).bind fun r => ?_) fuel ()
  exact coupled_pure (fun _ _ hR => hR) _

theorem coupled_selectTries (h : SameBytes R B C) (tries : ℕ) :
    Coupled R R (Sd.selectTries B tries) (Sd.selectTries C tries) := by
  induction tries with
  | zero => exact coupled_pure (fun _ _ hR => hR) ()
  | succ tries ih =>
      exact (h Sd.dataDummy).bind fun r => (coupled_pure (fun _ _ hR => hR) ()).ite ih

theorem coupled_waitResp (h : SameBytes R B C) :
    Coupled R R (Sd.waitResp B fuel) (Sd.waitResp C fuel) := coupled_recvUntil h _

theorem coupled_sdSendCommandInner (h : SameBytes R B C) (cmd : Byte) (arg : BitVec 32)
    (len : ℕ) :
    Coupled R R (Sd.sdSendCommandInner B fuel cmd arg len)
      (Sd.sdSendCommandInner C fuel cmd arg len) := by
  refine (coupled_sendBytes h _).bind fun _ => (coupled_waitResp h).bind fun r => ?_
  exact (coupled_recvBytes h _).bind fun rs => coupled_pure (fun _ _ hR => hR) (r :: rs)

theorem coupled_sendRwCmd (h : SameBytes R B C) (cmd : Byte) (address : BitVec 32) :
    Coupled R R (Sd.sendRwCmd B fuel cmd address) (Sd.sendRwCmd C fuel cmd address) := by
  refine (coupled_sendBytes h _).bind fun _ => (coupled_waitResp h).bind fun r => ?_
  exact coupled_pure (fun _ _ hR => hR) _

theorem coupled_readBlock (h : SameBytes R B C) :
    Coupled R R (Sd.readBlock B fuel) (Sd.readBlock C fuel) := by
  refine (coupled_recvUntil h _).bind fun ctrl => Coupled.ite ?_ ?_
  · refine (coupled_recvBytes h _).bind fun bytes => (coupled_recvBytes h _).bind fun _ => ?_
    exact coupled_pure (fun _ _ hR => hR) (some bytes)
  · exact coupled_pure (fun _ _ hR => hR) none

theorem coupled_sendData (h : SameBytes R B C) (n : ℕ) (src : List Byte) :
    Coupled R R (Sd.sendData B n src) (Sd.sendData C n src) := by
  induction n generalizing src with
  | zero => exact coupled_pure (fun _ _ hR => hR) ()
  | succ n ih => exact (h _).bind fun _ => ih src.tail

theorem coupled_sendBlock (h : SameBytes R B C) (src : List Byte) :
    Coupled R R (Sd.sendBlock B src) (Sd.sendBlock C src) := by
  refine (h _).bind fun _ => (coupled_sendData h _ src).bind fun _ => ?_
  refine (coupled_sendBytes h _).bind fun _ => (h _).bind fun dataResp => ?_
  exact coupled_pure (fun _ _ hR => hR) _

theorem coupled_waitEndWrite (h : SameBytes R B C) :
    Coupled R R (Sd.waitEndWrite B fuel) (Sd.waitEndWrite C fuel) := by
  refine (coupled_recvUntil h _).bind fun _ => ?_
  refine (coupled_sdSendCommandInner h 13 0 2).bind fun r2 => ?_
  exact coupled_pure (fun _ _ hR => hR) _

end Inner

/-! ## The card, while the W5100 is parked -/

section Card

variable {W : Wiring κ η} {cardParked : κ → Prop} {ethParked : η → Prop} {e : η}

/-- A line that is up stays up. -/
theorem raise5_of_up {s : Bus κ η} (h : s.cardSelected = false) : s.raise5 W = s := by
  unfold Bus.raise5
  rw [if_neg (by rw [h]; exact Bool.false_ne_true)]

theorem raise6_of_up {s : Bus κ η} (h : s.ethSelected = false) : s.raise6 W = s := by
  unfold Bus.raise6
  rw [if_neg (by rw [h]; exact Bool.false_ne_true)]

/-- The bus with a parked W5100 and the bus without it, in the course of a call for the card:
nothing is on the line but the card, which is selected or parked. -/
structure Tied (cardParked : κ → Prop) (e : η) (s : Bus κ η) (t : Bus κ Unit) : Prop where
  cardSelected : s.cardSelected = t.cardSelected
  card : s.card = t.card
  ethOff : s.ethSelected = false
  noEth : t.ethSelected = false
  eth : s.eth = e
  contention : s.contention = false
  noContention : t.contention = false
  known : t.cardSelected = true ∨ cardParked t.card

/-- Between the calls. -/
structure Resting (cardParked : κ → Prop) (e : η) (s : Bus κ η) (t : Bus κ Unit) : Prop extends
    Tied cardParked e s t where
  deselected : t.cardSelected = false
  parked : cardParked t.card

/-- A byte clocked while the W5100 ignores the bus. -/
theorem xfer_of_ethParked (heth : ∀ b, W.eth.shift false b e = (none, e)) (b : Byte)
    {s : Bus κ η} {t : Bus κ Unit} (hsel : s.cardSelected = t.cardSelected)
    (hcard : s.card = t.card) (hoff : s.ethSelected = false) (he : s.eth = e)
    (hs : s.contention = false) (ht : t.contention = false) :
    s.xfer W b = ((t.xfer W.cardOnly b).1,
        { s with card := (W.card.shift t.cardSelected b t.card).2 }) ∧
      (t.xfer W.cardOnly b).2 = { t with card := (W.card.shift t.cardSelected b t.card).2 } := by
  obtain ⟨cs, es, c, e', k⟩ := s
  obtain ⟨cs', es', c', u, k'⟩ := t
  cases hsel
  cases hcard
  cases hoff
  cases he
  cases hs
  cases ht
  unfold Bus.xfer Wiring.cardOnly unplugged
  simp [heth]

/-- **A byte to the card** is one on its own bus. -/
theorem tied_xfer (hcard : Parks W.card cardParked)
    (heth : ∀ b, W.eth.shift false b e = (none, e)) :
    SameBytes (Tied cardParked e) (cardPort W) (cardPort W.cardOnly) := by
  intro b s t h
  obtain ⟨hs, ht⟩ := xfer_of_ethParked heth b h.cardSelected h.card h.ethOff h.eth h.contention
    h.noContention
  refine same_ok (p := s.xfer W b) (q := t.xfer W.cardOnly b) (by rw [hs]) ?_
  rw [hs, ht]
  refine ⟨h.cardSelected, rfl, h.ethOff, h.noEth, h.eth, h.contention, h.noContention, ?_⟩
  by_cases hsel : t.cardSelected = true
  · exact .inl hsel
  · have hpark := h.known.resolve_left hsel
    right
    rw [Bool.not_eq_true] at hsel
    dsimp only
    rw [hsel, hcard.ignores _ _ hpark]
    exact hpark

/-- While both are parked, nothing changes. -/
theorem resting_xfer (hcard : Parks W.card cardParked)
    (heth : ∀ b, W.eth.shift false b e = (none, e)) :
    SameBytes (Resting cardParked e) (cardPort W) (cardPort W.cardOnly) := by
  intro b s t h
  obtain ⟨hs, ht⟩ := xfer_of_ethParked heth b h.cardSelected h.card h.ethOff h.eth h.contention
    h.noContention
  have hstay : (W.card.shift t.cardSelected b t.card).2 = t.card := by
    rw [h.deselected, hcard.ignores _ b h.parked]
  refine same_ok (p := s.xfer W b) (q := t.xfer W.cardOnly b) (by rw [hs]) ?_
  rw [hs, ht, hstay]
  exact ⟨⟨h.cardSelected, rfl, h.ethOff, h.noEth, h.eth, h.contention, h.noContention, h.known⟩,
    h.deselected, h.parked⟩

/-- Selecting the card is selecting it on its own bus. -/
theorem tied_lower5 {s : Bus κ η} {t : Bus κ Unit} (h : Tied cardParked e s t) :
    Tied cardParked e (s.lower5 W) (t.lower5 W.cardOnly) := by
  unfold Bus.lower5
  rw [h.cardSelected, h.card]
  split_ifs with hsel
  · exact h
  · exact ⟨rfl, rfl, h.ethOff, h.noEth, h.eth, h.contention, h.noContention, .inl rfl⟩

/-! ### The calls of the card -/

/-- `sd_select` is that on its own bus. -/
theorem coupled_sdSelect (hcard : Parks W.card cardParked)
    (heth : ∀ b, W.eth.shift false b e = (none, e)) :
    Coupled (Tied cardParked e) (Tied cardParked e) (Sd.sdSelect (cardPort W))
      (Sd.sdSelect (cardPort W.cardOnly)) :=
  (coupled_modify fun _ _ h => tied_lower5 h).bind fun _ =>
    coupled_selectTries (tied_xfer hcard heth) 125

/-- After `sd_deselect` the card is parked: the byte it sends makes the card let go. -/
theorem coupled_sdDeselect (hcard : Parks W.card cardParked)
    (heth : ∀ b, W.eth.shift false b e = (none, e)) :
    Coupled (Tied cardParked e) (Resting cardParked e) (Sd.sdDeselect (cardPort W))
      (Sd.sdDeselect (cardPort W.cardOnly)) := by
  intro s t h
  have hraise : (s.raise5 W).cardSelected = (t.raise5 W.cardOnly).cardSelected ∧
      (s.raise5 W).card = (t.raise5 W.cardOnly).card ∧ (s.raise5 W).ethSelected = false ∧
      (t.raise5 W.cardOnly).ethSelected = false ∧ (s.raise5 W).eth = e ∧
      (s.raise5 W).contention = false ∧ (t.raise5 W.cardOnly).contention = false ∧
      (t.raise5 W.cardOnly).cardSelected = false ∧
      ∀ b, cardParked (W.card.shift false b (t.raise5 W.cardOnly).card).2 := by
    unfold Bus.raise5
    rw [h.cardSelected, h.card]
    split_ifs with hsel
    · exact ⟨rfl, rfl, h.ethOff, h.noEth, h.eth, h.contention, h.noContention, rfl,
        fun b => hcard.lets_go _ b⟩
    · have hpark := h.known.resolve_left hsel
      refine ⟨h.cardSelected, h.card, h.ethOff, h.noEth, h.eth, h.contention, h.noContention,
        by simpa using hsel, fun b => ?_⟩
      rw [hcard.ignores _ _ hpark]
      exact hpark
  obtain ⟨h1, h2, h3, h4, h5, h6, h7, h8, h9⟩ := hraise
  obtain ⟨hs, ht⟩ := xfer_of_ethParked heth Sd.dataIdle h1 h2 h3 h5 h6 h7
  refine same_ok (p := ((), ((s.raise5 W).xfer W Sd.dataIdle).2))
    (q := ((), ((t.raise5 W.cardOnly).xfer W.cardOnly Sd.dataIdle).2)) rfl ?_
  dsimp only
  rw [hs, ht]
  have hpark : cardParked (W.card.shift (t.raise5 W.cardOnly).cardSelected Sd.dataIdle
      (t.raise5 W.cardOnly).card).2 := by
    rw [h8]
    exact h9 _
  exact ⟨⟨h1, rfl, h3, h4, h5, h6, h7, .inr hpark⟩, h8, hpark⟩

/-- **A call for the card** gives the same on the bus with a parked W5100 and on the bus
without it, and leaves the card parked. -/
theorem coupled_cardCall (hcard : Parks W.card cardParked)
    (heth : ∀ b, W.eth.shift false b e = (none, e)) (fuel : ℕ) (c : CardCall) :
    Coupled (Resting cardParked e) (Resting cardParked e) (c.exec W fuel)
      (c.exec W.cardOnly fuel) := by
  have hx := tied_xfer hcard heth
  have hstart : ∀ {α : Type} {x : Comp (Bus κ η) Sd.Stop α} {y : Comp (Bus κ Unit) Sd.Stop α},
      Coupled (Tied cardParked e) (Resting cardParked e) x y →
        Coupled (Resting cardParked e) (Resting cardParked e) x y :=
    fun h s t hR => h s t hR.toTied
  -- select, command, deselect: the last one lets go of MISO
  have hcommand : ∀ cmd arg len, Coupled (Tied cardParked e) (Resting cardParked e)
      (Sd.sdSendCommand (cardPort W) fuel cmd arg len)
      (Sd.sdSendCommand (cardPort W.cardOnly) fuel cmd arg len) := by
    intro cmd arg len
    refine (coupled_sdSelect hcard heth).bind fun _ => ?_
    refine (coupled_sdSendCommandInner hx cmd arg len).bind fun resp => ?_
    exact (coupled_sdDeselect hcard heth).bind fun _ => coupled_pure (fun _ _ h => h) resp
  cases c with
  | sdInit =>
      have hup : ∀ s t, Resting cardParked e s t →
          Resting cardParked e (s.raise6 W) (t.raise6 W.cardOnly) ∧
            Resting cardParked e (s.raise5 W) (t.raise5 W.cardOnly) := by
        intro s t h
        rw [raise6_of_up h.ethOff, raise6_of_up h.noEth, raise5_of_up h.deselected,
          raise5_of_up (h.cardSelected.trans h.deselected)]
        exact ⟨h, h⟩
      refine Coupled.bind (coupled_modify fun s t h => (hup s t h).1) fun _ => ?_
      refine Coupled.bind (coupled_modify fun s t h => (hup s t h).2) fun _ => ?_
      refine Coupled.bind (coupled_modify fun s t h => h) fun _ => ?_
      exact coupled_sendBytes (resting_xfer hcard heth) _
  | sdFullSpeed => exact coupled_modify fun _ _ h => h
  | sdSendCommand cmd arg len => exact hstart (hcommand cmd arg len)
  | sdSendCommandR1 cmd arg =>
      exact hstart ((hcommand cmd arg 1).bind fun resp => coupled_pure (fun _ _ h => h) _)
  | sdReadSingleBlock address =>
      refine hstart ((coupled_sdSelect hcard heth).bind fun _ => ?_)
      refine (coupled_sendRwCmd hx 17 address).bind fun ok => ?_
      refine Coupled.bind ((coupled_readBlock hx).ite (coupled_pure (fun _ _ h => h) none))
        fun res => ?_
      exact (coupled_sdDeselect hcard heth).bind fun _ => coupled_pure (fun _ _ h => h) res
  | sdWriteSingleBlock address src =>
      refine hstart ((coupled_sdSelect hcard heth).bind fun _ => ?_)
      refine (coupled_sendRwCmd hx 24 address).bind fun ok => ?_
      refine Coupled.bind ((coupled_sendBlock hx src).ite (coupled_pure (fun _ _ h => h) false))
        fun accepted => ?_
      refine Coupled.bind ((coupled_waitEndWrite hx).ite (coupled_pure (fun _ _ h => h) false))
        fun res => ?_
      exact (coupled_sdDeselect hcard heth).bind fun _ => coupled_pure (fun _ _ h => h) res

end Card

/-! ## The W5100, while the card is parked -/

section Eth

variable {W : Wiring κ η} {ρ : Type} {B : W5100.Board ρ} {cardParked : κ → Prop}
  {ethParked : η → Prop} {regs : η → ρ}

/-- Between the calls: the bus, the card alone on a bus, and the registers of the W5100. -/
structure AtRest (cardParked : κ → Prop) (ethParked : η → Prop) (regs : η → ρ) (s : Bus κ η)
    (w : Bus κ Unit × ρ) : Prop where
  resting : Resting cardParked s.eth s w.1
  ethParked : ethParked s.eth
  regs : regs s.eth = w.2

/-- A byte of a frame, while the card ignores the bus. -/
theorem xfer_of_cardParked {s : Bus κ η} (hcard : ∀ b, W.card.shift false b s.card = (none, s.card))
    (hoff : s.cardSelected = false) (hon : s.ethSelected = true) (b : Byte) :
    s.xfer W b = (W.miso none (W.eth.shift true b s.eth).1,
      { s with eth := (W.eth.shift true b s.eth).2 }) := by
  obtain ⟨cs, es, c, e, k⟩ := s
  cases hoff
  cases hon
  unfold Bus.xfer
  simp [hcard]

/-- A card that is off the bus does not notice the bytes. -/
theorem xfers_of_cardParked (bytes : List Byte) {s : Bus κ η}
    (hcard : ∀ b, W.card.shift false b s.card = (none, s.card)) (hoff : s.cardSelected = false)
    (hon : s.ethSelected = true) :
    s.xfers W bytes = ((W.eth.shifts bytes s.eth).1.map (W.miso none),
      { s with eth := (W.eth.shifts bytes s.eth).2 }) := by
  induction bytes generalizing s with
  | nil => rfl
  | cons b bytes ih =>
      unfold Bus.xfers Slave.shifts
      rw [xfer_of_cardParked hcard hoff hon]
      dsimp only
      rw [ih (s := { s with eth := (W.eth.shift true b s.eth).2 }) hcard hoff hon]
      rfl

/-- A frame on the bus is the frame at the pins of the W5100. -/
theorem frame_of_cardParked (bytes : List Byte) {s : Bus κ η}
    (hcard : ∀ b, W.card.shift false b s.card = (none, s.card)) (hoff : s.cardSelected = false)
    (hup : s.ethSelected = false) :
    s.frame W bytes = ((W.eth.frame bytes s.eth).1.map (W.miso none),
      { s with eth := (W.eth.frame bytes s.eth).2 }) := by
  obtain ⟨cs, es, c, e, k⟩ := s
  cases hoff
  cases hup
  have hbytes := xfers_of_cardParked (W := W) (s := ⟨false, true, c, W.eth.select e, k⟩) bytes hcard
    rfl rfl
  unfold Bus.frame Slave.frame
  rw [show (⟨false, false, c, e, k⟩ : Bus κ η).lower6 W = ⟨false, true, c, W.eth.select e, k⟩
    from rfl, hbytes]
  rfl

/-- After a frame everything is at rest again. -/
theorem AtRest.frame (hcard : Parks W.card cardParked) (heth : SpeaksFrames W.eth B ethParked regs)
    (bytes : List Byte) {s : Bus κ η} {t : Bus κ Unit} {r : ρ}
    (h : AtRest cardParked ethParked regs s (t, r)) :
    (s.frame W bytes).1 = (W.eth.frame bytes s.eth).1.map (W.miso none) ∧
      AtRest cardParked ethParked regs (s.frame W bytes).2
        (t, regs (W.eth.frame bytes s.eth).2) := by
  have hrest := h.resting
  have hoff := hrest.cardSelected.trans hrest.deselected
  have hpark : ∀ b, W.card.shift false b s.card = (none, s.card) := by
    intro b
    rw [hrest.card]
    exact hcard.ignores _ b hrest.parked
  rw [frame_of_cardParked bytes hpark hoff hrest.ethOff]
  exact ⟨rfl, ⟨⟨hrest.cardSelected, hrest.card, hrest.ethOff, hrest.noEth, rfl, hrest.contention,
    hrest.noContention, hrest.known⟩, hrest.deselected, hrest.parked⟩,
    heth.lets_go _ bytes h.ethParked, rfl⟩

variable {t : Bus κ Unit}

/-! ### The calls of the W5100 -/

/-- **A frame that reads** is one register transaction. -/
theorem coupled_readByte (hcard : Parks W.card cardParked)
    (heth : SpeaksFrames W.eth B ethParked regs) (reg : ℕ) :
    Coupled (fun s r => AtRest cardParked ethParked regs s (t, r))
      (fun s r => AtRest cardParked ethParked regs s (t, r))
      (W5100.readByte (ethPort W) reg) (W5100.readByte B reg) := by
  intro s r h
  obtain ⟨hbytes, hrest⟩ :=
    h.frame hcard heth ([opRead] ++ addrBytes (reg % 2 ^ 16) ++ [0x00])
  obtain ⟨hval, hregs⟩ := heth.read s.eth (reg % 2 ^ 16) h.ethParked (Nat.mod_lt _ (by norm_num))
  rw [h.regs] at hval hregs
  rw [hregs] at hrest
  refine same_ok (p := w5100ReadByte W (reg % 2 ^ 16) s) (q := B.read (reg % 2 ^ 16) r) ?_ hrest
  unfold w5100ReadByte
  dsimp only
  rw [hbytes]
  rw [List.getLastD_eq_getLast?] at hval ⊢
  rw [List.getLast?_map]
  rcases hlast : (W.eth.frame ([opRead] ++ addrBytes (reg % 2 ^ 16) ++ [0x00]) s.eth).1.getLast?
    with _ | out
  · rw [hlast] at hval
    cases hval
  · rw [hlast] at hval
    cases hval
    exact W.miso_eth _

/-- A frame that writes is one. -/
theorem coupled_writeByte (hcard : Parks W.card cardParked)
    (heth : SpeaksFrames W.eth B ethParked regs) (reg : ℕ) (val : Byte) :
    Coupled (fun s r => AtRest cardParked ethParked regs s (t, r))
      (fun s r => AtRest cardParked ethParked regs s (t, r))
      (W5100.writeByte (ethPort W) reg val) (W5100.writeByte B reg val) := by
  intro s r h
  obtain ⟨-, hrest⟩ := h.frame hcard heth ([opWrite] ++ addrBytes (reg % 2 ^ 16) ++ [val])
  rw [heth.write s.eth (reg % 2 ^ 16) val h.ethParked (Nat.mod_lt _ (by norm_num)), h.regs]
    at hrest
  exact .ok hrest

/-- Reading memory is reading registers. -/
theorem coupled_readMem (hcard : Parks W.card cardParked)
    (heth : SpeaksFrames W.eth B ethParked regs) (addr n : ℕ) :
    Coupled (fun s r => AtRest cardParked ethParked regs s (t, r))
      (fun s r => AtRest cardParked ethParked regs s (t, r))
      (W5100.readMem (ethPort W) addr n) (W5100.readMem B addr n) := by
  induction n generalizing addr with
  | zero => exact coupled_pure (fun _ _ h => h) []
  | succ n ih =>
      refine (coupled_readByte hcard heth addr).bind fun b => (ih (addr + 1)).bind fun bs => ?_
      exact coupled_pure (fun _ _ h => h) (b :: bs)

/-- Writing memory is writing registers. -/
theorem coupled_writeMem (hcard : Parks W.card cardParked)
    (heth : SpeaksFrames W.eth B ethParked regs) (addr : ℕ) (buf : List Byte) :
    Coupled (fun s r => AtRest cardParked ethParked regs s (t, r))
      (fun s r => AtRest cardParked ethParked regs s (t, r))
      (W5100.writeMem (ethPort W) addr buf) (W5100.writeMem B addr buf) := by
  induction buf generalizing addr with
  | nil => exact coupled_pure (fun _ _ h => h) ()
  | cons b buf ih => exact (coupled_writeByte hcard heth addr b).bind fun _ => ih (addr + 1)

/-- **A call for the W5100** is the call on its registers, while the card is parked. -/
theorem coupled_ethCall (hcard : Parks W.card cardParked)
    (heth : SpeaksFrames W.eth B ethParked regs) (c : EthCall) :
    Coupled (fun s r => AtRest cardParked ethParked regs s (t, r))
      (fun s r => AtRest cardParked ethParked regs s (t, r))
      (c.exec (ethPort W) (w5100SpiInit W)) (c.exec B id) := by
  cases c with
  | w5100Init =>
      refine coupled_modify fun s r h => ?_
      have hoff := h.resting.cardSelected.trans h.resting.deselected
      have hsame : w5100SpiInit W s = s := by
        unfold w5100SpiInit
        rw [raise5_of_up hoff, raise6_of_up h.resting.ethOff]
      rw [hsame]
      exact h
  | readReg reg => exact coupled_readByte hcard heth reg
  | readReg2 reg =>
      show Coupled _ _ (W5100.readReg2 _ reg) (W5100.readReg2 _ reg)
      rw [W5100.readReg2_eq, W5100.readReg2_eq]
      exact (coupled_readMem hcard heth reg 2).bind fun bs => coupled_pure (fun _ _ h => h) _
  | writeReg reg val => exact coupled_writeByte hcard heth reg val
  | writeReg2 reg val =>
      show Coupled _ _ (W5100.writeReg2 _ reg val) (W5100.writeReg2 _ reg val)
      rw [W5100.writeReg2_eq, W5100.writeReg2_eq]
      exact coupled_writeMem hcard heth reg _
  | readMem addr n => exact coupled_readMem hcard heth addr n
  | writeMem addr buf => exact coupled_writeMem hcard heth addr buf

end Eth

/-! ## Both drivers -/

section Both

variable {W : Wiring κ η} {ρ : Type} {B : W5100.Board ρ} {cardParked : κ → Prop}
  {ethParked : η → Prop} {regs : η → ρ}

/-- A whole program ends as on the separate buses. -/
theorem coupled_client (hcard : Parks W.card cardParked)
    (heth : SpeaksFrames W.eth B ethParked regs) (fuel : ℕ) {α : Type} (p : Client α) :
    Coupled (AtRest cardParked ethParked regs) (AtRest cardParked ethParked regs)
      (p.together W fuel) (p.apart W B fuel) := by
  induction p with
  | done a => exact coupled_pure (fun _ _ h => h) a
  | card c next ih =>
      refine Coupled.bind ((Coupled.focus_right fun s w h => ?_).stopAs Stop.card) ih
      refine ⟨_, _, coupled_cardCall hcard (fun b => heth.ignores s.eth b h.ethParked) fuel c,
        h.resting, fun s' t' h' => ?_⟩
      refine ⟨?_, ?_, ?_⟩
      · rw [h'.eth]
        exact h'
      · rw [h'.eth]
        exact h.ethParked
      · rw [h'.eth]
        exact h.regs
  | eth c next ih =>
      refine Coupled.bind ((Coupled.focus_right fun s w h => ?_).stopAs Stop.eth) ih
      exact ⟨_, _, coupled_ethCall hcard heth c, h, fun _ _ h' => h'⟩

/-- Both lines are up and nothing has happened on the bus. -/
def Bus.start (card : κ) (eth : η) : Bus κ η := ⟨false, false, card, eth, false⟩

/-- **The bus is transparent.**  A program over the two drivers, whatever it calls and in
whatever order, ends on the bus as it does with a card on a bus of its own and with the
registers of the W5100: with the same result and the same devices, or still waiting for the
same one.  At the end both lines are up, both devices are parked, and no two devices have driven
`MISO` at once. -/
theorem spi_bus_transparent (hcard : Parks W.card cardParked)
    (heth : SpeaksFrames W.eth B ethParked regs) (fuel : ℕ) {α : Type} (p : Client α) (card : κ)
    (eth : η) (hc : cardParked card) (he : ethParked eth) :
    Same (AtRest cardParked ethParked regs) (p.together W fuel (.start card eth))
      (p.apart W B fuel (.start card (), regs eth)) :=
  coupled_client hcard heth fuel p _ _
    ⟨⟨⟨rfl, rfl, rfl, rfl, rfl, rfl, rfl, .inr hc⟩, rfl, hc⟩, he, rfl⟩

/-! ## A card and a W5100 -/

/-- A card that answers `0x01` to every command: whether it drives `MISO`, and how many bytes
were clocked since it was selected.  One byte is for `sd_select` and six for the command. -/
def plainCard : Slave (Bool × ℕ) where
  select c := (c.1, 0)
  deselect c := c
  shift
    | true, _, c => (some (if c.2 = 7 then 0x01 else 0xFF), (true, c.2 + 1))
    | false, _, c => (if c.1 then some 0xFF else none, (false, c.2))

/-- A W5100 whose registers are memory: the bytes of the frame so far, and the memory.  It
answers to a byte with its number in the frame, as long as there is nothing to read. -/
def plainEth : Slave (List Byte × (BitVec 16 → Byte)) where
  select e := e
  deselect e :=
    ([], if e.1.length = 4 ∧ e.1.getD 0 0 = opWrite then
      Function.update e.2 (e.1.getD 1 0 ++ e.1.getD 2 0) (e.1.getD 3 0) else e.2)
  shift
    | true, b, e =>
        (some (if e.1.length = 3 then e.2 (e.1.getD 1 0 ++ e.1.getD 2 0)
          else BitVec.ofNat 8 e.1.length), (e.1 ++ [b], e.2))
    | false, _, e => (none, e)

/-- A card and a W5100 without surprises. -/
def plainWiring : Wiring (Bool × ℕ) (List Byte × (BitVec 16 → Byte)) where
  card := plainCard
  eth := plainEth
  miso
    | some b, none => b
    | none, some b => b
    | none, none => 0xFF
    | some b, some b' => b &&& b'
  miso_card _ := rfl
  miso_eth _ := rfl

/-- This card lets go of the line. -/
theorem plainCard_parks : Parks plainCard fun c => c.1 = false := by
  constructor
  · rintro ⟨driving, n⟩ b rfl
    rfl
  · rintro ⟨driving, n⟩ b
    rfl

/-- The two address bytes of a frame. -/
theorem addrBytes_append {reg : ℕ} (h : reg < 2 ^ 16) :
    BitVec.ofNat 8 (reg >>> 8) ++ BitVec.ofNat 8 (reg &&& 0xFF) = BitVec.ofNat 16 reg := by
  have hhi : reg >>> 8 = reg / 2 ^ 8 := Nat.shiftRight_eq_div_pow reg 8
  have hlo : reg &&& 0xFF = reg % 2 ^ 8 := Nat.and_two_pow_sub_one_eq_mod reg 8
  apply BitVec.eq_of_toNat_eq
  rw [hhi, hlo, BitVec.toNat_append, BitVec.toNat_ofNat, BitVec.toNat_ofNat, BitVec.toNat_ofNat,
    Nat.mod_mod, Nat.mod_eq_of_lt h, Nat.mod_eq_of_lt (by omega),
    ← Nat.shiftLeft_add_eq_or_of_lt (Nat.mod_lt _ (by norm_num)), Nat.shiftLeft_eq]
  omega

/-- This W5100 speaks frames. -/
theorem plainEth_speaksFrames :
    SpeaksFrames plainEth W5100.memoryBoard (fun e => e.1 = []) Prod.snd := by
  refine ⟨?_, ?_, ?_, ?_⟩
  · rintro ⟨bytes, m⟩ b rfl
    rfl
  · intro e bytes _
    rfl
  · rintro ⟨bytes, m⟩ reg val rfl hreg
    show (if 4 = 4 ∧ opWrite = opWrite then Function.update m _ val else m) = _
    rw [if_pos ⟨rfl, rfl⟩]
    exact congrArg (Function.update m · val) (addrBytes_append hreg)
  · rintro ⟨bytes, m⟩ reg rfl hreg
    refine ⟨congrArg (fun a => some (m a)) (addrBytes_append hreg), ?_⟩
    have hne : ¬ (4 = 4 ∧ opRead = opWrite) := by decide
    show (if 4 = 4 ∧ opRead = opWrite then Function.update m
      (BitVec.ofNat 8 (reg >>> 8) ++ BitVec.ofNat 8 (reg &&& 0xFF)) 0x00 else m) = m
    rw [if_neg hne]

/-- A program that stores the answer of the card in a register of the W5100 and, after another
command, reads it back. -/
def storeAnswer : Client Byte :=
  .card (.sdSendCommandR1 0 0) fun r1 => .eth (.writeReg 0x401 r1) fun _ =>
    .card (.sdSendCommandR1 13 0) fun _ => .eth (.readReg 0x401) fun v => .done v

/-- It reads back what the card has answered, and the devices have not met on the line. -/
theorem spi_bus_transparent_storeAnswer :
    ∃ s, storeAnswer.together plainWiring 1 (.start (false, 0) ([], fun _ => 0)) = .ok (1, s) ∧
      s.contention = false := by
  have hsame := spi_bus_transparent (W := plainWiring) plainCard_parks plainEth_speaksFrames 1
    storeAnswer (false, 0) ([], fun _ => 0) rfl rfl
  have happart : ((storeAnswer.apart plainWiring W5100.memoryBoard 1
      (.start (false, 0) (), fun _ => 0)).toOption.map Prod.fst) = some 1 := by
    decide +kernel
  rcases hrun : storeAnswer.apart plainWiring W5100.memoryBoard 1
    (.start (false, 0) (), fun _ => 0) with e | ⟨v, w⟩ <;> rw [hrun] at happart <;> cases happart
  rw [hrun] at hsame
  obtain ⟨s, hs, hrest⟩ := hsame.of_ok
  exact ⟨s, hs, hrest.resting.contention⟩

end Both

end SpiBus

end Nucleo
