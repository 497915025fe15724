/-
# The receive rings of the W5100

The chip of this module has the receive side of its sockets spelled out.  The bytes that
reach a socket are counted from the start: `rd` is the position up to which the program
has taken them and `arrived` the position up to which they lie in the ring, which holds
the positions between the two.  The register `RX_RD` is `rd` and `RX_RSR` the distance
from `rd` to `arrived`.  Everything else the chip answers is arbitrary.  Bytes may arrive
before every transaction, also between the two bytes of a register (`RxTick`).

`post_readBufSure_rx` says which bytes a copy returns and `post_readBufRecv` how far
`RECV` moves the pointer.
-/
import Nucleo.W5100Ring

namespace Nucleo

namespace W5100

/-! ## The receiving chip -/

/-- What happens at one transaction or reading of the clock: up to which position bytes
arrive before it, and what is read from a register that is not modelled. -/
structure RxTick where
  upto : Fin nSockets → ℕ
  cr : Byte
  value : Byte
  time : Timespec

/-- The state of the chip.  `incoming` are the bytes of a socket by position, and `written`
are the bytes stored in its registers. -/
structure RxChip where
  incoming : Fin nSockets → ℕ → Byte
  rd : Fin nSockets → ℕ
  arrived : Fin nSockets → ℕ
  written : ℕ → Byte
  ticks : ℕ → RxTick
  now : ℕ
  rd_le : ∀ i, rd i ≤ arrived i
  room : ∀ i, arrived i ≤ rd i + 0x800

namespace RxChip

/-- The position up to which bytes have arrived at a tick, as far as the ring has room. -/
def arriving (c : RxChip) (t : RxTick) (i : Fin nSockets) : ℕ :=
  if c.arrived i ≤ t.upto i ∧ t.upto i ≤ c.rd i + 0x800 then t.upto i else c.arrived i

/-- Data only arrives. -/
theorem le_arriving (c : RxChip) (t : RxTick) (i : Fin nSockets) :
    c.arrived i ≤ c.arriving t i := by
  unfold arriving
  split_ifs with h
  · exact h.1
  · exact le_rfl

/-- No more arrives than there is room for. -/
theorem arriving_le (c : RxChip) (t : RxTick) (i : Fin nSockets) :
    c.arriving t i ≤ c.rd i + 0x800 := by
  unfold arriving
  split_ifs with h
  · exact h.2
  · exact c.room i

/-- Let bytes arrive, and take the next tick. -/
def advance (c : RxChip) : RxChip :=
  { c with
    arrived := fun i => c.arriving (c.ticks c.now) i
    now := c.now + 1
    rd_le := fun i => (c.rd_le i).trans (c.le_arriving _ i)
    room := fun i => c.arriving_le _ i }

/-! ### What it answers -/

/-- The register `RX_RSR`. -/
def rxRsr (c : RxChip) (i : Fin nSockets) : BitVec 16 := BitVec.ofNat 16 (c.arrived i - c.rd i)

/-- The register `RX_RD`. -/
def rxRd (c : RxChip) (i : Fin nSockets) : BitVec 16 := BitVec.ofNat 16 (c.rd i)

/-- The pointer stored last. -/
def stored (c : RxChip) (i : Fin nSockets) : BitVec 16 :=
  htons (word16 (c.written (sockRegGet regRXRD i)) (c.written (sockRegGet regRXRD i + 1)))

/-- How far the pointer stored last is ahead. -/
def taken (c : RxChip) (i : Fin nSockets) : ℕ := (c.stored i - c.rxRd i).toNat

/-- Move the read position of a socket to `p`. -/
def moveTo (c : RxChip) (i : Fin nSockets) (p : ℕ) : RxChip :=
  { c with
    rd := Function.update c.rd i p
    arrived := Function.update c.arrived i (max p (min (c.arrived i) (p + 0x800)))
    rd_le := by
      intro j
      by_cases hj : j = i
      · subst hj
        rw [Function.update_self, Function.update_self]
        omega
      · rw [Function.update_of_ne hj, Function.update_of_ne hj]
        exact c.rd_le j
    room := by
      intro j
      by_cases hj : j = i
      · subst hj
        rw [Function.update_self, Function.update_self]
        omega
      · rw [Function.update_of_ne hj, Function.update_of_ne hj]
        exact c.room j }

/-- What a command does to the receive side: `RECV` takes the bytes up to the pointer
stored last, and `OPEN` starts over with an empty ring and pointer 0. -/
def exec (c : RxChip) (i : Fin nSockets) (cmd : Byte) : RxChip :=
  if cmd = cmdRecv then c.moveTo i (c.rd i + c.taken i)
  else if cmd = cmdOpen then
    let c := c.moveTo i ((c.arrived i / 2 ^ 16 + 1) * 2 ^ 16)
    { c with written := Memory.write c.written (sockRegGet regRXRD i) [0, 0] }
  else c

/-- The position whose byte the ring has in a cell. -/
def position (c : RxChip) (i : Fin nSockets) (cell : ℕ) : ℕ :=
  c.rd i + (cell + (0x800 - c.rd i % 0x800)) % 0x800

/-- The socket and the cell of its receive ring that an address belongs to. -/
def decodeCell (a : ℕ) : Option (Fin nSockets × ℕ) :=
  if h : rxMemBase ≤ a ∧ (a - rxMemBase) / 0x800 < nSockets then
    some (⟨(a - rxMemBase) / 0x800, h.2⟩, (a - rxMemBase) % 0x800)
  else none

/-- What a read of the address answers; `t` is the tick of the read.  A cell that no byte
has arrived in holds anything. -/
def answer (c : RxChip) (t : RxTick) (a : ℕ) : Byte :=
  match decodeReg a with
  | some (i, r) =>
      if r = regRXRSR then (c.rxRsr i).extractLsb' 8 8
      else if r = regRXRSR + 1 then (c.rxRsr i).extractLsb' 0 8
      else if r = regRXRD then (c.rxRd i).extractLsb' 8 8
      else if r = regRXRD + 1 then (c.rxRd i).extractLsb' 0 8
      else if r = regCR then t.cr
      else t.value
  | none =>
      match decodeCell a with
      | some (i, cell) =>
          if c.position i cell < c.arrived i then c.incoming i (c.position i cell) else t.value
      | none => t.value

/-- A write stores the byte; the command register executes it. -/
def store (c : RxChip) (a : ℕ) (b : Byte) : RxChip :=
  let c' := { c with written := Function.update c.written a b }
  match decodeReg a with
  | some (i, r) => if r = regCR then c'.exec i b else c'
  | none => c'

end RxChip

/-- The chip behind the SPI bus. -/
def rxBoard : Board RxChip where
  read a c := (c.advance.answer (c.ticks c.now) a, c.advance)
  write a b c := c.advance.store a b
  clockGettime c := ((c.ticks c.now).time, c.advance)
  usartReady c := (false, c.advance)
  usartRecv c := ((c.ticks c.now).value, c.advance)
  usartSend _ c := c.advance

/-! ## While bytes arrive -/

namespace RxChip

/-- Nothing has been taken between the two states: bytes may have arrived, up to
positions that a tick names. -/
structure Later (c c' : RxChip) : Prop where
  incoming : c'.incoming = c.incoming
  rd : c'.rd = c.rd
  ticks : c'.ticks = c.ticks
  arrived : ∀ i, c.arrived i ≤ c'.arrived i
  upto : ∀ i, c'.arrived i = c.arrived i ∨ ∃ k, c'.arrived i = (c.ticks k).upto i

theorem Later.refl (c : RxChip) : Later c c :=
  ⟨rfl, rfl, rfl, fun _ => le_rfl, fun _ => .inl rfl⟩

theorem Later.trans {c c' c'' : RxChip} (h : Later c c') (h' : Later c' c'') : Later c c'' where
  incoming := h'.incoming.trans h.incoming
  rd := h'.rd.trans h.rd
  ticks := h'.ticks.trans h.ticks
  arrived i := (h.arrived i).trans (h'.arrived i)
  upto i := by
    rcases h'.upto i with heq | ⟨k, heq⟩
    · rw [heq]
      exact h.upto i
    · rw [h.ticks] at heq
      exact .inr ⟨k, heq⟩

/-- The chip moves on. -/
theorem later_advance (c : RxChip) : Later c c.advance where
  incoming := rfl
  rd := rfl
  ticks := rfl
  arrived i := c.le_arriving _ i
  upto i := by
    show c.arriving (c.ticks c.now) i = c.arrived i ∨ ∃ k, c.arriving (c.ticks c.now) i = _
    by_cases h : c.arrived i ≤ (c.ticks c.now).upto i ∧ (c.ticks c.now).upto i ≤ c.rd i + 0x800
    · exact .inr ⟨c.now, if_pos h⟩
    · exact .inl (if_neg h)

/-- What is written is no data. -/
theorem later_written (c : RxChip) (f : ℕ → Byte) : Later c { c with written := f } :=
  ⟨rfl, rfl, rfl, fun _ => le_rfl, fun _ => .inl rfl⟩

/-- The cell of the `j`-th position from `rd` on. -/
theorem position_add (c : RxChip) (i : Fin nSockets) {j : ℕ} (hj : j < 0x800) :
    c.position i ((c.rd i + j) % 0x800) = c.rd i + j := by
  unfold position
  omega

end RxChip

/-! ## Transactions -/

section Transactions

open Comp RxChip

variable {c : RxChip}

/-- **Reading a byte**: the chip moves on and answers. -/
@[simp] theorem post_readByte_rx {reg : ℕ} {Q : Byte → RxChip → Prop} :
    Post (readByte rxBoard reg) Q c ↔
      Q (c.advance.answer (c.ticks c.now) (reg % 2 ^ 16)) c.advance := by
  constructor
  · intro h
    exact h _ _ rfl
  · intro h b c' heq
    cases heq
    exact h

/-- **Writing a byte**: the chip moves on and stores it. -/
@[simp] theorem post_writeByte_rx {reg : ℕ} {b : Byte} {Q : Unit → RxChip → Prop} :
    Post (writeByte rxBoard reg b) Q c ↔ Q () (c.advance.store (reg % 2 ^ 16) b) := by
  constructor
  · intro h
    exact h _ _ rfl
  · intro h b c' heq
    cases heq
    exact h

/-- Reading takes nothing. -/
theorem later_readMem (addr n : ℕ) :
    Post (readMem rxBoard addr n) (fun bs c' => Later c c' ∧ bs.length = n) c := by
  induction n generalizing addr c with
  | zero => exact post_pure.2 ⟨.refl c, rfl⟩
  | succ n ih =>
      unfold readMem
      rw [post_bind, post_readByte_rx, post_bind]
      refine (ih _).mono ?_
      rintro bs c' ⟨hl, hlen⟩
      refine post_pure.2 ⟨c.later_advance.trans hl, ?_⟩
      rw [List.length_cons, hlen]

/-- Waiting for a register lets the chip move on. -/
theorem later_readUntil (fuel r : ℕ) (i : Fin nSockets) (stop : Byte → Bool) :
    Post (readUntil rxBoard fuel r i stop) (fun _ c' => Later c c') c := by
  unfold readUntil
  refine Post.iter (fun _ c' => Later c c') ?_ fuel (.refl c)
  intro _ c' hc'
  unfold readSockReg
  rw [post_bind, post_readByte_rx, post_pure]
  have hnext := hc'.trans c'.later_advance
  cases stop (c'.advance.answer (c'.ticks c'.now) (sockRegGet r i % 2 ^ 16)) with
  | true => exact hnext
  | false => exact hnext

/-! ### The cells of the buffer -/

/-- A cell of the receive buffer is decoded. -/
theorem decodeCell_rx (i : Fin nSockets) {k : ℕ} (hk : k < 0x800) :
    decodeCell (rxMemBase + 0x800 * i + k) = some (i, k) := by
  have hi : i.val < 4 := i.isLt
  have hdiv : (24576 + 2048 * i.val + k - 24576) / 2048 = i.val := by omega
  have hmod : (24576 + 2048 * i.val + k - 24576) % 2048 = k := by omega
  unfold decodeCell
  rw [dif_pos ⟨show 24576 ≤ 24576 + 2048 * i.val + k by omega,
    show (24576 + 2048 * i.val + k - 24576) / 2048 < 4 by omega⟩]
  exact congrArg some (Prod.ext (Fin.ext hdiv) hmod)

/-- The cell of the `j`-th waiting byte holds it. -/
theorem answer_cell (t : RxTick) {i : Fin nSockets} {j : ℕ} (hj : c.rd i + j < c.arrived i) :
    c.answer t (rxMemBase + 0x800 * i + (c.rd i + j) % 0x800) = c.incoming i (c.rd i + j) := by
  have hroom := c.room i
  have hcell : (c.rd i + j) % 0x800 < 0x800 := Nat.mod_lt _ (by omega)
  have hreg : decodeReg (rxMemBase + 0x800 * i + (c.rd i + j) % 0x800) = none :=
    decodeReg_of_le (show 16384 ≤ 24576 + 0x800 * i.val + (c.rd i + j) % 0x800 by omega)
  unfold RxChip.answer
  rw [hreg, decodeCell_rx i hcell]
  dsimp only
  rw [c.position_add i (by omega), if_pos hj]

/-- A run of cells that does not reach the end of the ring. -/
theorem post_readMem_rx {i : Fin nSockets} {j n : ℕ} (hend : (c.rd i + j) % 0x800 + n ≤ 0x800)
    (hin : c.rd i + j + n ≤ c.arrived i) :
    Post (readMem rxBoard (rxMemBase + 0x800 * i + (c.rd i + j) % 0x800) n)
      (fun bs c' => Later c c' ∧ bs = Memory.read (c.incoming i) (c.rd i + j) n) c := by
  -- byte by byte: what has arrived stays, whatever else arrives meanwhile
  induction n generalizing j c with
  | zero => exact post_pure.2 ⟨.refl c, rfl⟩
  | succ n ih =>
      have hbase := rxBase_le i
      have hadv := c.later_advance
      have hmore := hadv.arrived i
      have hrd : c.advance.rd i = c.rd i := rfl
      have hmod : (rxMemBase + 0x800 * i.val + (c.rd i + j) % 0x800) % 2 ^ 16
          = rxMemBase + 0x800 * i.val + (c.rd i + j) % 0x800 :=
        Nat.mod_eq_of_lt (by omega)
      unfold readMem
      rw [post_bind, post_readByte_rx, post_bind, hmod]
      have hbyte : c.advance.answer (c.ticks c.now)
          (rxMemBase + 0x800 * i + (c.rd i + j) % 0x800) = c.incoming i (c.rd i + j) :=
        answer_cell (c := c.advance) _ (by omega)
      rw [hbyte]
      cases n with
      | zero =>
          refine post_pure.2 (post_pure.2 ⟨hadv, ?_⟩)
          rw [Memory.read_succ, Memory.read_zero]
      | succ n =>
          have hnext : rxMemBase + 0x800 * i.val + (c.rd i + j) % 0x800 + 1
              = rxMemBase + 0x800 * i.val + (c.advance.rd i + (j + 1)) % 0x800 := by
            rw [hrd]
            omega
          rw [hnext]
          refine (ih (c := c.advance) (j := j + 1) (by omega) (by omega)).mono ?_
          rintro bs c' ⟨hl, rfl⟩
          refine post_pure.2 ⟨hadv.trans hl, ?_⟩
          rw [Memory.read_succ (n := n + 1), Nat.add_assoc]
          rfl

/-! ## The copies and the registers -/

/-- The pieces of a copy are as long as the copy. -/
theorem pieces_length {offset len : ℕ} (hlen : len < 2 ^ 16) (hoff : offset < 0x800) :
    (pieces offset 0x800 len).1 + (pieces offset 0x800 len).2 = len := by
  unfold pieces
  rw [Nat.mod_eq_of_lt (show offset + len < 2 ^ 32 by omega)]
  split_ifs with h
  · rw [Nat.mod_eq_of_lt (show len - (0x800 - offset) < 2 ^ 16 by omega)]
    show 0x800 - offset + (len - (0x800 - offset)) = len
    omega
  · rw [Nat.mod_eq_of_lt hlen, Nat.add_zero]

/-- `read_buf_sure` returns as many bytes as it is told to, whatever is in the ring. -/
theorem later_readBufSure {i : Fin nSockets} {len : ℕ} (p : BitVec 16) (hlen : len < 2 ^ 16) :
    Post (readBufSure rxBoard i len p)
      (fun r c' => Later c c' ∧ r.1.length = len ∧ r.2 = p + BitVec.ofNat 16 len) c := by
  have hmask : (p &&& getRxMask i).toNat = p.toNat % 0x800 := toNat_and_mask p
  have hpieces := pieces_length hlen (Nat.mod_lt p.toNat (show 0 < 0x800 by omega))
  rw [readBufSure_eq, hmask]
  show Post (readMem rxBoard _ (pieces (p.toNat % 0x800) 0x800 len).1 >>= _) _ c
  rw [post_bind]
  refine (later_readMem _ _).mono ?_
  rintro bs1 c1 ⟨h1, hl1⟩
  rw [post_bind]
  refine (later_readMem _ _).mono ?_
  rintro bs2 c2 ⟨h2, hl2⟩
  refine post_pure.2 ⟨h1.trans h2, ?_, rfl⟩
  rw [List.length_append, hl1, hl2]
  exact hpieces

/-- From the `j`-th waiting byte on it returns the waiting bytes. -/
theorem post_readBufSure_rx {i : Fin nSockets} {len j : ℕ} {p : BitVec 16}
    (hp : p.toNat % 0x800 = (c.rd i + j) % 0x800) (hin : c.rd i + j + len ≤ c.arrived i) :
    Post (readBufSure rxBoard i len p)
      (fun r c' => Later c c' ∧ r.1 = Memory.read (c.incoming i) (c.rd i + j) len ∧
        r.2 = p + BitVec.ofNat 16 len) c := by
  have hroom := c.room i
  have hoff : (c.rd i + j) % 0x800 < 0x800 := Nat.mod_lt _ (by omega)
  have hgetRx : getRxBase i = rxMemBase + 0x800 * i := rfl
  by_cases hfit : p.toNat % 0x800 + len ≤ 0x800
  · rw [readBufSure_of_fits _ _ hfit, hgetRx, hp, post_bind]
    refine (post_readMem_rx (by omega) hin).mono ?_
    rintro bs c' ⟨hl, rfl⟩
    refine post_pure.2 ⟨hl, ?_, rfl⟩
    rw [List.append_nil]
  · rw [readBufSure_of_wraps _ _ (by omega) hfit, hgetRx, hp, post_bind]
    refine (post_readMem_rx (by omega) (by omega)).mono ?_
    rintro bs1 c1 ⟨h1, rfl⟩
    rw [post_bind]
    -- the second piece starts over at the beginning of the ring
    have hrd : c1.rd i = c.rd i := congrFun h1.rd i
    have hmore := h1.arrived i
    have hstart : (c1.rd i + (j + (0x800 - (c.rd i + j) % 0x800))) % 0x800 = 0 := by
      rw [hrd]
      omega
    have hsecond := post_readMem_rx (c := c1) (i := i)
      (j := j + (0x800 - (c.rd i + j) % 0x800)) (n := len - (0x800 - (c.rd i + j) % 0x800))
      (by omega) (by omega)
    rw [hstart, Nat.add_zero] at hsecond
    refine hsecond.mono ?_
    rintro bs2 c2 ⟨h2, rfl⟩
    refine post_pure.2 ⟨h1.trans h2, ?_, rfl⟩
    have hsplit : len = (0x800 - (c.rd i + j) % 0x800)
        + (len - (0x800 - (c.rd i + j) % 0x800)) := by
      omega
    conv_rhs => rw [hsplit, Memory.read_add]
    rw [hrd, h1.incoming, Nat.add_assoc]

/-! ### The registers -/

/-- The size of what waits is read as two bytes, and bytes may arrive between them.  What
is read is no more than there is, and all of it if nothing arrives between them. -/
theorem post_readBufLen_rx (i : Fin nSockets) :
    Post (readBufLen rxBoard i)
      (fun n c' => Later c.advance c' ∧ n.toNat ≤ c'.arrived i - c.rd i ∧
        (c'.arrived i = c.advance.arrived i → n.toNat = c'.arrived i - c.rd i)) c := by
  have hlt := sockRegGet_lt i (show regRXRSR < socketRegsSize by decide)
  have hlt' := sockRegGet_lt i (show regRXRSR + 1 < socketRegsSize by decide)
  have hhi : ∀ (c : RxChip) (t : RxTick), c.answer t (sockRegGet regRXRSR i)
      = (c.rxRsr i).extractLsb' 8 8 := by
    intro c t
    unfold RxChip.answer
    rw [decodeReg_sockRegGet i (by decide)]
    rfl
  have hlo : ∀ (c : RxChip) (t : RxTick), c.answer t (sockRegGet (regRXRSR + 1) i)
      = (c.rxRsr i).extractLsb' 0 8 := by
    intro c t
    unfold RxChip.answer
    rw [decodeReg_sockRegGet i (by decide)]
    rfl
  have hsize : ∀ c : RxChip, (c.rxRsr i).toNat = c.arrived i - c.rd i := by
    intro c
    have hroom := c.room i
    unfold RxChip.rxRsr
    rw [BitVec.toNat_ofNat]
    omega
  unfold readBufLen readSockReg16
  simp only [readMem, post_bind, post_pure, post_readByte_rx]
  rw [sockRegGet_succ, Nat.mod_eq_of_lt (by omega), Nat.mod_eq_of_lt (by omega), hhi, hlo]
  have h1 := c.later_advance.arrived i
  have h2 := c.advance.later_advance.arrived i
  have hroom := c.advance.advance.room i
  have hrd : c.advance.advance.rd i = c.rd i := rfl
  have hrd' : c.advance.rd i = c.rd i := rfl
  -- the high byte is of the first reading and the low byte of the second
  have hvalue : (htons (word16 ((c.advance.rxRsr i).extractLsb' 8 8)
      ((c.advance.advance.rxRsr i).extractLsb' 0 8))).toNat
      = (c.advance.arrived i - c.rd i) / 256 * 256
        + (c.advance.advance.arrived i - c.rd i) % 256 := by
    rw [toNat_htons_word16, BitVec.extractLsb'_toNat, BitVec.extractLsb'_toNat, hsize, hsize,
      Nat.shiftRight_zero, Nat.shiftRight_eq_div_pow, hrd, hrd']
    omega
  refine ⟨c.advance.later_advance, ?_, ?_⟩
  · refine hvalue.le.trans ?_
    have hdiv := Nat.div_le_div_right (c := 256) (Nat.sub_le_sub_right h2 (c.rd i))
    omega
  · intro heq
    refine hvalue.trans ?_
    rw [heq]
    omega

/-- The read pointer is read as it stands. -/
theorem post_readBufPstart_rx (i : Fin nSockets) :
    Post (readBufPstart rxBoard i) (fun p c' => Later c c' ∧ p = c.rxRd i) c := by
  have hlt := sockRegGet_lt i (show regRXRD < socketRegsSize by decide)
  have hlt' := sockRegGet_lt i (show regRXRD + 1 < socketRegsSize by decide)
  have hhi : ∀ (c : RxChip) (t : RxTick), c.answer t (sockRegGet regRXRD i)
      = (c.rxRd i).extractLsb' 8 8 := by
    intro c t
    unfold RxChip.answer
    rw [decodeReg_sockRegGet i (by decide)]
    rfl
  have hlo : ∀ (c : RxChip) (t : RxTick), c.answer t (sockRegGet (regRXRD + 1) i)
      = (c.rxRd i).extractLsb' 0 8 := by
    intro c t
    unfold RxChip.answer
    rw [decodeReg_sockRegGet i (by decide)]
    rfl
  unfold readBufPstart readSockReg16
  simp only [readMem, post_bind, post_pure, post_readByte_rx]
  rw [sockRegGet_succ, Nat.mod_eq_of_lt (by omega), Nat.mod_eq_of_lt (by omega), hhi, hlo]
  refine ⟨c.later_advance.trans c.advance.later_advance, ?_⟩
  apply BitVec.eq_of_toNat_eq
  have hp := (c.rxRd i).isLt
  show (htons (word16 ((c.rxRd i).extractLsb' 8 8) ((c.rxRd i).extractLsb' 0 8))).toNat = _
  rw [toNat_htons_word16, BitVec.extractLsb'_toNat, BitVec.extractLsb'_toNat,
    Nat.shiftRight_eq_div_pow, Nat.shiftRight_zero]
  omega

/-- A byte that is no command is written. -/
theorem store_of_plain_rx {a : ℕ} (ha : Plain a) (b : Byte) :
    c.store a b = { c with written := Function.update c.written a b } := by
  unfold RxChip.store
  cases hdec : decodeReg a with
  | none => rfl
  | some p =>
      obtain ⟨i, r⟩ := p
      have hr : r ≠ regCR := by
        rintro rfl
        exact ha i hdec
      show (if r = regCR then _ else _) = _
      rw [if_neg hr]

/-- Storing a pointer takes nothing. -/
theorem post_writeRxRd (i : Fin nSockets) (p : BitVec 16) :
    Post (writeSockReg16 rxBoard regRXRD i (htons p))
      (fun _ c' => Later c c' ∧ c'.stored i = p) c := by
  have hlt := sockRegGet_lt i (show regRXRD < socketRegsSize by decide)
  have hlt' := sockRegGet_lt i (show regRXRD + 1 < socketRegsSize by decide)
  have hplain := plain_sockRegGet i (show regRXRD < socketRegsSize by decide) (by decide)
  have hplain' := plain_sockRegGet i (show regRXRD + 1 < socketRegsSize by decide) (by decide)
  unfold writeSockReg16
  rw [bytes16_htons]
  simp only [writeMem, post_bind, post_pure, post_writeByte_rx]
  rw [sockRegGet_succ, Nat.mod_eq_of_lt (by omega), Nat.mod_eq_of_lt (by omega),
    store_of_plain_rx hplain, store_of_plain_rx hplain']
  refine ⟨(((later_advance c).trans (later_written _ _)).trans (later_advance _)).trans
    (later_written _ _), ?_⟩
  have hne : sockRegGet regRXRD i ≠ sockRegGet (regRXRD + 1) i :=
    sockRegGet_ne (by decide) (by decide) (.inr (by decide))
  unfold RxChip.stored
  rw [sockRegGet_succ]
  show htons (word16 (Function.update (Function.update c.written _ _) _ _ _)
    (Function.update (Function.update c.written _ _) _ _ _)) = p
  rw [Function.update_of_ne hne, Function.update_self, Function.update_self]
  apply BitVec.eq_of_toNat_eq
  have hp := p.isLt
  rw [toNat_htons_word16, BitVec.extractLsb'_toNat, BitVec.extractLsb'_toNat,
    Nat.shiftRight_eq_div_pow, Nat.shiftRight_zero]
  omega

/-! ### What is taken -/

/-- What `RECV` has done: `n` bytes of a socket are taken, and others may have arrived. -/
structure Taken (c : RxChip) (i : Fin nSockets) (n : ℕ) (c' : RxChip) : Prop where
  incoming : c'.incoming = c.incoming
  rd : c'.rd = Function.update c.rd i (c.rd i + n)
  ticks : c'.ticks = c.ticks
  arrived : ∀ i, c.arrived i ≤ c'.arrived i
  upto : ∀ i, c'.arrived i = c.arrived i ∨ ∃ k, c'.arrived i = (c.ticks k).upto i

/-- The command takes what the read pointer passes. -/
theorem taken_moveTo {i : Fin nSockets} {n : ℕ} (hn : c.rd i + n ≤ c.arrived i) :
    Taken c i n (c.moveTo i (c.rd i + n)) := by
  have harr : (c.moveTo i (c.rd i + n)).arrived = c.arrived := by
    funext j
    show Function.update c.arrived i _ j = _
    by_cases hj : j = i
    · subst hj
      have hroom := c.room j
      rw [Function.update_self]
      omega
    · rw [Function.update_of_ne hj]
  exact ⟨rfl, rfl, rfl, fun j => (congrFun harr j).ge, fun j => .inl (congrFun harr j)⟩

/-- What is taken stays taken. -/
theorem Taken.later {c' c'' : RxChip} {i : Fin nSockets} {n : ℕ} (h : Taken c i n c')
    (h' : Later c' c'') : Taken c i n c'' where
  incoming := h'.incoming.trans h.incoming
  rd := h'.rd.trans h.rd
  ticks := h'.ticks.trans h.ticks
  arrived j := (h.arrived j).trans (h'.arrived j)
  upto j := by
    rcases h'.upto j with heq | ⟨k, heq⟩
    · rw [heq]
      exact h.upto j
    · rw [h.ticks] at heq
      exact .inr ⟨k, heq⟩

/-- The chip may have moved on before. -/
theorem Taken.of_later {c' c'' : RxChip} {i : Fin nSockets} {n : ℕ} (h : Later c c')
    (h' : Taken c' i n c'') : Taken c i n c'' where
  incoming := h'.incoming.trans h.incoming
  rd := by rw [h'.rd, h.rd]
  ticks := h'.ticks.trans h.ticks
  arrived j := (h.arrived j).trans (h'.arrived j)
  upto j := by
    rcases h'.upto j with heq | ⟨k, heq⟩
    · rw [heq]
      exact h.upto j
    · rw [h.ticks] at heq
      exact .inr ⟨k, heq⟩

/-! ### Further on -/

/-- Whatever is taken, the ticks are the same and no byte goes back. -/
structure Onward (c c' : RxChip) : Prop where
  ticks : c'.ticks = c.ticks
  arrived : ∀ i, c.arrived i ≤ c'.arrived i

theorem Onward.trans {c' c'' : RxChip} (h : Onward c c') (h' : Onward c' c'') : Onward c c'' :=
  ⟨h'.ticks.trans h.ticks, fun i => (h.arrived i).trans (h'.arrived i)⟩

/-- A later state is further on. -/
theorem RxChip.Later.onward {c' : RxChip} (h : Later c c') : Onward c c' := ⟨h.ticks, h.arrived⟩

theorem Taken.onward {c' : RxChip} {i : Fin nSockets} {n : ℕ} (h : Taken c i n c') :
    Onward c c' := ⟨h.ticks, h.arrived⟩

/-- The `RECV` command takes the bytes up to the pointer that was stored. -/
theorem post_readBufRecv {i : Fin nSockets} {n : ℕ} (hn : c.rd i + n ≤ c.arrived i) (fuel : ℕ) :
    Post (readBufRecv rxBoard fuel i (c.rxRd i + BitVec.ofNat 16 n))
      (fun _ c' => Taken c i n c') c := by
  have hcr := sockRegGet_lt i (show regCR < socketRegsSize by decide)
  have hroom := c.room i
  unfold readBufRecv
  rw [post_bind]
  refine (post_writeRxRd i _).mono ?_
  rintro _ c1 ⟨h1, hstored⟩
  unfold command writeSockReg
  rw [post_bind, post_writeByte_rx, Nat.mod_eq_of_lt (by omega)]
  generalize hc2 : ({ c1.advance with
    written := Function.update c1.written (sockRegGet regCR i) cmdRecv } : RxChip) = c2
  have h2 : Later c c2 := by
    rw [← hc2]
    exact h1.trans ⟨rfl, rfl, rfl, c1.later_advance.arrived, c1.later_advance.upto⟩
  have hexec : c1.advance.store (sockRegGet regCR i) cmdRecv
      = c2.moveTo i (c2.rd i + c2.taken i) := by
    unfold RxChip.store
    rw [decodeReg_sockRegGet i (by decide), ← hc2]
    rfl
  -- writing the command register leaves the stored pointer
  have htaken : c2.taken i = n := by
    have hkeep : c2.stored i = c1.stored i := by
      have hne : ∀ {r}, r < socketRegsSize → r ≠ regCR →
          c2.written (sockRegGet r i) = c1.written (sockRegGet r i) := by
        intro r hr hne
        rw [← hc2]
        exact Function.update_of_ne (sockRegGet_ne hr (by decide) (.inr hne)) _ _
      unfold RxChip.stored
      rw [sockRegGet_succ, hne (by decide) (by decide), hne (by decide) (by decide)]
    unfold RxChip.taken
    rw [hkeep, hstored]
    have hrd : c2.rxRd i = c.rxRd i := by
      unfold RxChip.rxRd
      rw [h2.rd]
    rw [hrd]
    generalize c.rxRd i = r
    bv_omega
  rw [hexec, htaken, post_bind]
  have hmore := h2.arrived i
  have hrd2 : c2.rd i = c.rd i := congrFun h2.rd i
  refine (later_readUntil fuel regCR i _).mono ?_
  intro _ c3 h3
  exact post_pure.2 (.of_later h2 ((taken_moveTo (by omega)).later h3))

/-! ## Commands return -/

/-- The chip has executed every command by the time its register is read. -/
def RxChip.Prompt (c : RxChip) : Prop := ∀ t, (c.ticks t).cr = 0

/-- The chip stays prompt. -/
theorem Onward.prompt {c' : RxChip} (hl : Onward c c') (hp : c.Prompt) : c'.Prompt := by
  intro t
  rw [hl.ticks]
  exact hp t

/-- A store leaves what is to arrive. -/
theorem ticks_store_rx (a : ℕ) (b : Byte) : (c.store a b).ticks = c.ticks := by
  unfold RxChip.store
  dsimp only
  split
  · split_ifs
    · unfold RxChip.exec
      split_ifs <;> rfl
    · rfl
  · rfl

/-- A prompt chip takes a command at once. -/
theorem returns_command_rx (hp : c.Prompt) (fuel : ℕ) (i : Fin nSockets) (cmd : Byte) :
    Returns (command rxBoard (fuel + 1) i cmd) c := by
  have hcr := sockRegGet_lt i (show regCR < socketRegsSize by decide)
  apply Returns.bind ⟨_, _, rfl⟩
  unfold writeSockReg
  rw [post_writeByte_rx]
  generalize hc1 : c.advance.store (sockRegGet regCR i % 2 ^ 16) cmd = c1
  have hticks : c1.ticks = c.ticks := by
    rw [← hc1, ticks_store_rx]
    rfl
  have hanswer : c1.advance.answer (c1.ticks c1.now) (sockRegGet regCR i % 2 ^ 16) = 0 := by
    rw [Nat.mod_eq_of_lt (by omega)]
    unfold RxChip.answer
    rw [decodeReg_sockRegGet i (by decide), hticks]
    exact hp c1.now
  have hread : Returns (readUntil rxBoard (fuel + 1) regCR i fun v => v = 0) c1 := by
    apply Returns.iter_of_inr
    · exact Returns.bind ⟨_, _, rfl⟩ fun _ _ _ => returns_pure
    · unfold readSockReg
      rw [post_bind, post_readByte_rx, post_pure, hanswer]
      exact ⟨0, rfl⟩
  exact Returns.bind hread fun _ _ _ => returns_pure

/-- Reading a register returns. -/
theorem returns_readReg16 {χ : Type} (B : Board χ) (r : ℕ) (i : Fin nSockets) (c : χ) :
    Returns (do
      let v ← readSockReg16 B r i
      pure (htons v)) c := by
  apply Returns.bind
  · exact Returns.bind (returns_readMem _ _ _ _) (fun _ _ _ => returns_pure)
  · exact fun _ _ _ => returns_pure

/-- Reading the buffer returns. -/
theorem returns_readBufSure {χ : Type} (B : Board χ) (i : Fin nSockets) (len : ℕ) (p : BitVec 16)
    (c : χ) : Returns (readBufSure B i len p) c := by
  rw [readBufSure_eq]
  apply Returns.bind (returns_readMem _ _ _ _)
  intro _ _ _
  apply Returns.bind (returns_readMem _ _ _ _)
  intro _ _ _
  exact returns_pure

/-- Taking data returns. -/
theorem returns_readBufRecv (hp : c.Prompt) (fuel : ℕ) (i : Fin nSockets) (p : BitVec 16) :
    Returns (readBufRecv rxBoard (fuel + 1) i p) c := by
  unfold readBufRecv
  apply Returns.bind (returns_writeMem _ _ _ _)
  refine (post_writeRxRd i p).mono ?_
  rintro _ c1 ⟨h1, -⟩
  exact returns_command_rx (h1.onward.prompt hp) fuel i cmdRecv

end Transactions

end W5100

end Nucleo
