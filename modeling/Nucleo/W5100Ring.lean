/-
# The rings of the W5100

The chip of this module has the transmit side of its sockets spelled out: the memory,
the write pointer register, a read pointer that advances when the chip transmits, and
the free size `TX_FSR` computed from the two.  Everything else it answers is arbitrary.
The chip may transmit before every transaction, also between the two bytes of a
register (`Tick`).

`post_writeBufSure` and `post_readBufSure` say which cells the two copies use;
`post_writeBuf` says what one `write_buf` hands to the chip, and `post_ringRun` that
the chip transmits just that, in order.
-/
import Nucleo.Lib.Ring
import Nucleo.W5100Chip

namespace Nucleo

namespace W5100

/-! ## The transmitting chip -/

/-- What happens at one transaction or reading of the clock: how many bytes every socket
transmits before it, and what is read from a register that is not modelled. -/
structure Tick where
  transmit : Fin nSockets → ℕ
  cr : Byte
  value : Byte
  time : Timespec

/-- The state of the chip.  `latched` is the write pointer at the last `SEND`, up to which
the chip may transmit; `handed` logs the bytes that the `SEND` commands have handed to
it and `consumed` those that it has transmitted. -/
structure TxChip where
  mem : ℕ → Byte
  rd : Fin nSockets → BitVec 16
  latched : Fin nSockets → BitVec 16
  handed : Fin nSockets → List Byte
  consumed : Fin nSockets → List Byte
  ticks : ℕ → Tick
  now : ℕ

/-- The socket and the register that an address belongs to. -/
def decodeReg (a : ℕ) : Option (Fin nSockets × ℕ) :=
  if h : s0RegsOffset ≤ a ∧ (a - s0RegsOffset) / socketRegsSize < nSockets then
    some (⟨(a - s0RegsOffset) / socketRegsSize, h.2⟩, (a - s0RegsOffset) % socketRegsSize)
  else none

namespace TxChip

/-- The transmit window of a socket. -/
def window (c : TxChip) (i : Fin nSockets) (p : BitVec 16) (n : ℕ) : List Byte :=
  Ring.cells c.mem (txMemBase + 0x800 * i) 0x800 p.toNat n

/-- The register `TX_WR`. -/
def txWr (c : TxChip) (i : Fin nSockets) : BitVec 16 :=
  htons (word16 (c.mem (sockRegGet regTXWR i)) (c.mem (sockRegGet regTXWR i + 1)))

/-- The register `TX_FSR`: the ring's size less the distance from `TX_RD` to `TX_WR`. -/
def txFsr (c : TxChip) (i : Fin nSockets) : BitVec 16 := 0x800 - (c.txWr i - c.rd i)

/-- What has been handed to the chip and not been transmitted. -/
def pending (c : TxChip) (i : Fin nSockets) : List Byte :=
  c.window i (c.rd i) (c.latched i - c.rd i).toNat

/-- How many bytes the chip transmits now. -/
def taken (c : TxChip) (i : Fin nSockets) : ℕ :=
  min ((c.ticks c.now).transmit i) (c.latched i - c.rd i).toNat

/-- Transmit, and take the next tick. -/
def advance (c : TxChip) : TxChip :=
  { c with
    rd := fun i => c.rd i + BitVec.ofNat 16 (c.taken i)
    consumed := fun i => c.consumed i ++ c.window i (c.rd i) (c.taken i)
    now := c.now + 1 }

/-- What a command does to the transmit side. -/
def exec (c : TxChip) (i : Fin nSockets) (cmd : Byte) : TxChip :=
  if cmd = cmdSend then
    { c with
      handed := Function.update c.handed i
        (c.handed i ++ c.window i (c.latched i) (c.txWr i - c.latched i).toNat)
      latched := Function.update c.latched i (c.txWr i) }
  else if cmd = cmdOpen then
    { c with
      mem := Memory.write c.mem (sockRegGet regTXWR i) [0, 0]
      rd := Function.update c.rd i 0
      latched := Function.update c.latched i 0 }
  else c

/-- What a read of the address answers; `t` is the tick of the read. -/
def answer (c : TxChip) (t : Tick) (a : ℕ) : Byte :=
  match decodeReg a with
  | some (i, r) =>
      if r = regTXFSR then (c.txFsr i).extractLsb' 8 8
      else if r = regTXFSR + 1 then (c.txFsr i).extractLsb' 0 8
      else if r = regTXWR ∨ r = regTXWR + 1 then c.mem a
      else if r = regCR then t.cr
      else t.value
  | none => if txMemBase ≤ a then c.mem a else t.value

/-- A write stores the byte; the command register executes it. -/
def store (c : TxChip) (a : ℕ) (b : Byte) : TxChip :=
  let c' := { c with mem := Function.update c.mem a b }
  match decodeReg a with
  | some (i, r) => if r = regCR then c'.exec i b else c'
  | none => c'

end TxChip

/-- The chip behind the SPI bus. -/
def txBoard : Board TxChip where
  read a c := (c.advance.answer (c.ticks c.now) a, c.advance)
  write a b c := c.advance.store a b
  clockGettime c := ((c.ticks c.now).time, c.advance)
  usartReady c := (false, c.advance)
  usartRecv c := ((c.ticks c.now).value, c.advance)
  usartSend _ c := c.advance

/-! ## Addresses -/

/-- The address of a register of a socket is decoded. -/
theorem decodeReg_sockRegGet (i : Fin nSockets) {r : ℕ} (hr : r < socketRegsSize) :
    decodeReg (sockRegGet r i) = some (i, r) := by
  have hi : i.val < 4 := i.isLt
  have hr' : r < 256 := hr
  have hdiv : (sockRegGet r i - s0RegsOffset) / socketRegsSize = i.val := by
    show (1024 + r + i.val * 256 - 1024) / 256 = i.val
    omega
  have hmod : (sockRegGet r i - s0RegsOffset) % socketRegsSize = r := by
    show (1024 + r + i.val * 256 - 1024) % 256 = r
    omega
  have hle : s0RegsOffset ≤ sockRegGet r i := by
    show 1024 ≤ 1024 + r + i.val * 256
    omega
  unfold decodeReg
  rw [dif_pos ⟨hle, hdiv ▸ i.isLt⟩]
  exact congrArg some (Prod.ext (Fin.ext hdiv) hmod)

/-- The buffers are no registers. -/
theorem decodeReg_of_le {a : ℕ} (ha : txMemBase ≤ a) : decodeReg a = none := by
  have ha' : 16384 ≤ a := ha
  unfold decodeReg
  rw [dif_neg]
  intro h
  have h4 : (a - 1024) / 256 < 4 := h.2
  omega

/-! ## Transmitting

`dist` is the number of bytes handed over and not transmitted, `queue` the bytes handed
over so far as the chip has them: those transmitted and, behind them, those in the ring.
-/

namespace TxChip

/-- How many bytes lie between the read pointer and the write pointer. -/
def dist (c : TxChip) (i : Fin nSockets) : ℕ := (c.latched i - c.rd i).toNat

/-- The bytes that the chip has yet to send. -/
def queue (c : TxChip) (i : Fin nSockets) : List Byte := c.consumed i ++ c.pending i

/-- An address in no cell that holds a byte to be transmitted. -/
def Free (c : TxChip) (a : ℕ) : Prop :=
  ∀ i : Fin nSockets, ∀ k < c.dist i, a ≠ txMemBase + 0x800 * i + ((c.rd i).toNat + k) % 0x800

/-- Nothing has been handed over between the two states: the chip has transmitted at
most, and what was handed over is intact. -/
structure Kept (c c' : TxChip) : Prop where
  latched : c'.latched = c.latched
  handed : c'.handed = c.handed
  ticks : c'.ticks = c.ticks
  dist : ∀ i, c'.dist i ≤ c.dist i
  free : ∀ a, c.Free a → c'.Free a
  queue : ∀ i, c'.queue i = c.queue i

theorem Kept.refl (c : TxChip) : Kept c c :=
  ⟨rfl, rfl, rfl, fun _ => le_rfl, fun _ h => h, fun _ => rfl⟩

theorem Kept.trans {c c' c'' : TxChip} (h : Kept c c') (h' : Kept c' c'') : Kept c c'' where
  latched := h'.latched.trans h.latched
  handed := h'.handed.trans h.handed
  ticks := h'.ticks.trans h.ticks
  dist i := (h'.dist i).trans (h.dist i)
  free a ha := h'.free a (h.free a ha)
  queue i := (h'.queue i).trans (h.queue i)

/-! ### The chip moves on -/

/-- The chip takes no more than there is. -/
theorem taken_le_dist (c : TxChip) (i : Fin nSockets) : c.taken i ≤ c.dist i := min_le_right _ _

/-- What it takes is no longer there. -/
theorem dist_advance (c : TxChip) (i : Fin nSockets) :
    c.advance.dist i = c.dist i - c.taken i := by
  have hle := c.taken_le_dist i
  unfold dist at hle ⊢
  show (c.latched i - (c.rd i + BitVec.ofNat 16 (c.taken i))).toNat = _
  generalize c.taken i = t at hle ⊢
  bv_omega

/-- The read pointer moves by what is taken. -/
theorem rd_advance (c : TxChip) (i : Fin nSockets) (k : ℕ) :
    ((c.advance.rd i).toNat + k) % 0x800 = ((c.rd i).toNat + (c.taken i + k)) % 0x800 := by
  have hle := c.taken_le_dist i
  unfold dist at hle
  show ((c.rd i + BitVec.ofNat 16 (c.taken i)).toNat + k) % 0x800 = _
  rw [BitVec.toNat_add, BitVec.toNat_ofNat]
  omega

/-- What is taken and what is left make up the queue. -/
theorem queue_advance (c : TxChip) (i : Fin nSockets) : c.advance.queue i = c.queue i := by
  have hle := c.taken_le_dist i
  have hsplit : c.pending i
      = c.window i (c.rd i) (c.taken i) ++ c.advance.pending i := by
    have hlen : (c.latched i - c.rd i).toNat = c.taken i + c.advance.dist i := by
      rw [dist_advance]
      unfold dist at hle ⊢
      omega
    unfold pending
    show Ring.cells _ _ _ _ _ = _
    rw [hlen, Ring.cells_add]
    congr 1
    unfold Ring.cells
    apply List.map_congr_left
    intro k _
    rw [rd_advance, ← Nat.add_assoc]
    rfl
  unfold queue
  rw [hsplit]
  show c.consumed i ++ c.window i (c.rd i) (c.taken i) ++ c.advance.pending i = _
  rw [List.append_assoc]

theorem kept_advance (c : TxChip) : Kept c c.advance where
  latched := rfl
  handed := rfl
  ticks := rfl
  dist i := by
    rw [dist_advance]
    exact Nat.sub_le _ _
  free a ha i k hk := by
    rw [dist_advance] at hk
    rw [rd_advance]
    exact ha i (c.taken i + k) (by omega)
  queue := c.queue_advance

/-- A byte stored where nothing waits to be transmitted. -/
theorem kept_update (c : TxChip) {a : ℕ} (b : Byte) (ha : c.Free a) :
    Kept c { c with mem := Function.update c.mem a b } where
  latched := rfl
  handed := rfl
  ticks := rfl
  dist _ := le_rfl
  free _ h := h
  queue i := by
    unfold queue pending
    congr 1
    apply Ring.cells_congr
    intro k hk
    exact Function.update_of_ne (ha i k hk).symm b c.mem

/-- The registers hold nothing to be transmitted. -/
theorem free_of_lt (c : TxChip) {a : ℕ} (ha : a < txMemBase) : c.Free a := by
  intro i k _ heq
  rw [heq] at ha
  omega

end TxChip

/-! ## Transactions -/

section Transactions

open Comp TxChip

variable {c : TxChip}

/-- **Reading a byte**: the chip moves on and answers. -/
@[simp] theorem post_readByte {reg : ℕ} {Q : Byte → TxChip → Prop} :
    Post (readByte txBoard reg) Q c ↔
      Q (c.advance.answer (c.ticks c.now) (reg % 2 ^ 16)) c.advance := by
  constructor
  · intro h
    exact h _ _ rfl
  · intro h b c' heq
    cases heq
    exact h

/-- **Writing a byte**: the chip moves on and stores it. -/
@[simp] theorem post_writeByte {reg : ℕ} {b : Byte} {Q : Unit → TxChip → Prop} :
    Post (writeByte txBoard reg b) Q c ↔ Q () (c.advance.store (reg % 2 ^ 16) b) := by
  constructor
  · intro h
    exact h _ _ rfl
  · intro h b c' heq
    cases heq
    exact h

/-- Reading the clock lets the chip move on. -/
@[simp] theorem post_clockGettime {Q : Timespec → TxChip → Prop} :
    Post (clockGettime txBoard) Q c ↔ Q (c.ticks c.now).time c.advance := by
  constructor
  · intro h
    exact h _ _ rfl
  · intro h b c' heq
    cases heq
    exact h

/-! ### Stores -/

/-- An address whose write executes no command. -/
def Plain (a : ℕ) : Prop := ∀ i, decodeReg a ≠ some (i, regCR)

/-- A byte that is no command is stored. -/
theorem store_of_plain {a : ℕ} (ha : Plain a) (b : Byte) :
    c.store a b = { c with mem := Function.update c.mem a b } := by
  unfold TxChip.store
  cases hdec : decodeReg a with
  | none => rfl
  | some p =>
      obtain ⟨i, r⟩ := p
      have hr : r ≠ regCR := by
        rintro rfl
        exact ha i hdec
      show (if r = regCR then _ else _) = _
      rw [if_neg hr]

/-- The buffers are no commands. -/
theorem plain_of_le {a : ℕ} (ha : txMemBase ≤ a) : Plain a := by
  intro i
  rw [decodeReg_of_le ha]
  exact Option.some_ne_none _ |>.symm

/-- Reading leaves the memory and what was handed over alone. -/
theorem quiet_readUntil (fuel r : ℕ) (i : Fin nSockets) (stop : Byte → Bool) :
    Post (readUntil txBoard fuel r i stop) (fun _ c' => Kept c c' ∧ c'.mem = c.mem) c := by
  unfold readUntil
  refine Post.iter (fun _ c' => Kept c c' ∧ c'.mem = c.mem) ?_ fuel ?_
  · intro _ c' hc'
    unfold readSockReg
    rw [post_bind, post_readByte, post_pure]
    have hnext : Kept c c'.advance ∧ c'.advance.mem = c.mem :=
      ⟨hc'.1.trans c'.kept_advance, hc'.2⟩
    cases stop (c'.advance.answer (c'.ticks c'.now) (sockRegGet r i % 2 ^ 16)) with
    | true => exact hnext
    | false => exact hnext
  · exact ⟨.refl c, rfl⟩

/-- A run of bytes of the chip's memory. -/
theorem post_readMem {addr n : ℕ} (hlo : txMemBase ≤ addr) (hhi : addr + n ≤ 2 ^ 16) :
    Post (readMem txBoard addr n)
      (fun bs c' => Kept c c' ∧ c'.mem = c.mem ∧ bs = Memory.read c.mem addr n) c := by
  induction n generalizing addr c with
  | zero => exact post_pure.2 ⟨.refl c, rfl, rfl⟩
  | succ n ih =>
      unfold readMem
      rw [post_bind, post_readByte, post_bind]
      refine (ih (by omega) (by omega)).mono ?_
      rintro bs c' ⟨hk, hm, rfl⟩
      rw [post_pure, Nat.mod_eq_of_lt (show addr < 2 ^ 16 by omega), Memory.read_succ]
      refine ⟨c.kept_advance.trans hk, hm, ?_⟩
      congr 1
      unfold TxChip.answer
      rw [decodeReg_of_le hlo]
      exact if_pos hlo

/-- A run of bytes stored in the chip's memory. -/
theorem post_writeMem {addr : ℕ} {l : List Byte}
    (hplain : ∀ a, addr ≤ a → a < addr + l.length → Plain a) (hhi : addr + l.length ≤ 2 ^ 16) :
    Post (writeMem txBoard addr l) (fun _ c' => c'.mem = Memory.write c.mem addr l) c := by
  induction l generalizing addr c with
  | nil => exact post_pure.2 (Memory.write_nil _ _).symm
  | cons b l ih =>
      rw [List.length_cons] at hplain hhi
      unfold writeMem
      rw [post_bind, post_writeByte, Nat.mod_eq_of_lt (by omega),
        store_of_plain (hplain addr le_rfl (by omega))]
      refine (ih (fun a ha1 ha2 => hplain a (by omega) (by omega)) (by omega)).mono ?_
      intro _ c' hm
      rw [hm, Memory.write_cons]
      rfl

/-- Stored where nothing waits to be transmitted, the bytes disturb nothing. -/
theorem kept_writeMem {addr : ℕ} {l : List Byte}
    (hplain : ∀ a, addr ≤ a → a < addr + l.length → Plain a ∧ c.Free a)
    (hhi : addr + l.length ≤ 2 ^ 16) :
    Post (writeMem txBoard addr l) (fun _ c' => Kept c c') c := by
  induction l generalizing addr c with
  | nil => exact post_pure.2 (.refl c)
  | cons b l ih =>
      rw [List.length_cons] at hplain hhi
      unfold writeMem
      have ha := hplain addr le_rfl (by omega)
      have hfree := c.kept_advance.free addr ha.2
      have hstep := c.kept_advance.trans (c.advance.kept_update b hfree)
      rw [post_bind, post_writeByte, Nat.mod_eq_of_lt (by omega), store_of_plain ha.1]
      refine (ih ?_ (by omega)).mono ?_
      · intro a ha1 ha2
        have ha' := hplain a (by omega) (by omega)
        exact ⟨ha'.1, hstep.free a ha'.2⟩
      · intro _ c' hk
        exact hstep.trans hk

/-! ## The copies -/

/-- The cell of position `p` of the transmit ring. -/
def txCell (i : Fin nSockets) (p : ℕ) : ℕ := txMemBase + 0x800 * i + p % 0x800

/-- Where the transmit buffer of a socket is. -/
theorem getTxBase_eq (i : Fin nSockets) : getTxBase i = txMemBase + 0x800 * i := rfl

/-! ### Where the buffers lie -/

/-- The transmit buffers lie before the receive buffers. -/
theorem txBase_le (i : Fin nSockets) : txMemBase + 0x800 * i.val + 0x800 ≤ rxMemBase := by
  have hi : i.val < 4 := i.isLt
  show 16384 + 2048 * i.val + 2048 ≤ 24576
  omega

/-- The receive buffers lie within the memory. -/
theorem rxBase_le (i : Fin nSockets) : rxMemBase + 0x800 * i.val + 0x800 ≤ 2 ^ 15 := by
  have hi : i.val < 4 := i.isLt
  show 24576 + 2048 * i.val + 2048 ≤ 2 ^ 15
  omega

/-- `write_buf_sure` stores its bytes in the positions from the pointer on. -/
theorem post_writeBufSure {i : Fin nSockets} {buf : List Byte} {p : BitVec 16}
    (hlen : buf.length ≤ 0x800) :
    Post (writeBufSure txBoard i buf p)
      (fun p' c' => p' = p + BitVec.ofNat 16 buf.length ∧
        c'.mem = Ring.store c.mem (txMemBase + 0x800 * i) 0x800 p.toNat buf) c := by
  have hbase := txBase_le i
  have hrx : rxMemBase = 24576 := rfl
  have hoff : p.toNat % 0x800 < 0x800 := Nat.mod_lt _ (by omega)
  by_cases hfit : p.toNat % 0x800 + buf.length ≤ 0x800
  · rw [writeBufSure_of_fits _ _ hfit, getTxBase_eq, Ring.store_eq_write (by omega) hfit, post_bind]
    refine (post_writeMem (fun a ha _ => plain_of_le (by omega)) (by omega)).mono ?_
    intro _ c' hm
    exact post_pure.2 ⟨rfl, hm⟩
  · rw [writeBufSure_of_wraps _ _ hlen hfit, getTxBase_eq,
      Ring.store_eq_write_write (by omega) hlen (by omega), post_bind]
    refine (post_writeMem (fun a ha _ => plain_of_le (by omega))
      (by rw [List.length_take]; omega)).mono ?_
    intro _ c' hm
    rw [post_bind]
    refine (post_writeMem (fun a ha _ => plain_of_le (by omega))
      (by rw [List.length_drop]; omega)).mono ?_
    intro _ c'' hm'
    rw [hm] at hm'
    exact post_pure.2 ⟨rfl, hm'⟩

/-- `write_buf_sure` disturbs nothing when its cells are free. -/
theorem kept_writeBufSure {i : Fin nSockets} {buf : List Byte} {p : BitVec 16}
    (hlen : buf.length ≤ 0x800) (hfree : ∀ k < buf.length, c.Free (txCell i (p.toNat + k))) :
    Post (writeBufSure txBoard i buf p) (fun _ c' => Kept c c') c := by
  have hbase := txBase_le i
  have hrx : rxMemBase = 24576 := rfl
  have hoff : p.toNat % 0x800 < 0x800 := Nat.mod_lt _ (by omega)
  have hcell : ∀ k < buf.length, txCell i (p.toNat + k) = txMemBase + 0x800 * i +
      if p.toNat % 0x800 + k < 0x800 then p.toNat % 0x800 + k else p.toNat % 0x800 + k - 0x800 := by
    intro k hk
    unfold txCell
    rw [Ring.add_mod_eq (by omega)]
  -- the first piece ends with the bytes or with the ring; the second one starts over
  have hfirst : ∀ a n, n ≤ buf.length → p.toNat % 0x800 + n ≤ 0x800 →
      txMemBase + 0x800 * i.val + p.toNat % 0x800 ≤ a →
      a < txMemBase + 0x800 * i.val + p.toNat % 0x800 + n → Plain a ∧ c.Free a := by
    intro a n hn hend hlo hhi
    refine ⟨plain_of_le (by omega), ?_⟩
    have hf := hfree (a - (txMemBase + 0x800 * i.val + p.toNat % 0x800)) (by omega)
    rw [hcell _ (by omega), if_pos (by omega)] at hf
    convert hf using 1
    omega
  by_cases hfit : p.toNat % 0x800 + buf.length ≤ 0x800
  · rw [writeBufSure_of_fits _ _ hfit, getTxBase_eq, post_bind]
    refine (kept_writeMem (fun a => hfirst a buf.length le_rfl hfit) (by omega)).mono ?_
    intro _ c' hk
    exact post_pure.2 hk
  · have htake : (buf.take (0x800 - p.toNat % 0x800)).length = 0x800 - p.toNat % 0x800 := by
      rw [List.length_take]
      omega
    rw [writeBufSure_of_wraps _ _ hlen hfit, getTxBase_eq, post_bind]
    refine (kept_writeMem (fun a => ?_) (by omega)).mono ?_
    · rw [htake]
      exact hfirst a _ (by omega) (by omega)
    · intro _ c' hk
      rw [post_bind]
      refine (kept_writeMem (fun a hlo hhi => ?_) (by rw [List.length_drop]; omega)).mono ?_
      · rw [List.length_drop] at hhi
        refine ⟨plain_of_le (by omega), hk.free a ?_⟩
        have hf := hfree (a - (txMemBase + 0x800 * i.val) + (0x800 - p.toNat % 0x800)) (by omega)
        rw [hcell _ (by omega), if_neg (by omega)] at hf
        convert hf using 1
        omega
      · intro _ c'' hk'
        exact post_pure.2 (hk.trans hk')

/-- `read_buf_sure` returns the bytes of the positions from the pointer on. -/
theorem post_readBufSure {i : Fin nSockets} {len : ℕ} {p : BitVec 16} (hlen : len ≤ 0x800) :
    Post (readBufSure txBoard i len p)
      (fun r c' => r.2 = p + BitVec.ofNat 16 len ∧ c'.mem = c.mem ∧
        r.1 = Ring.cells c.mem (rxMemBase + 0x800 * i) 0x800 p.toNat len) c := by
  have hbase := rxBase_le i
  have htx : txMemBase ≤ rxMemBase := by decide
  have hoff : p.toNat % 0x800 < 0x800 := Nat.mod_lt _ (by omega)
  have hgetRx : getRxBase i = rxMemBase + 0x800 * i := rfl
  by_cases hfit : p.toNat % 0x800 + len ≤ 0x800
  · rw [readBufSure_of_fits _ _ hfit, hgetRx, post_bind]
    refine (post_readMem (by omega) (by omega)).mono ?_
    rintro bs c' ⟨-, hm, rfl⟩
    refine post_pure.2 ⟨rfl, hm, ?_⟩
    rw [List.append_nil, Ring.cells_eq_read hfit]
  · rw [readBufSure_of_wraps _ _ hlen hfit, hgetRx, post_bind]
    refine (post_readMem (by omega) (by omega)).mono ?_
    rintro bs c' ⟨-, hm, rfl⟩
    rw [post_bind]
    refine (post_readMem (by omega) (by omega)).mono ?_
    rintro bs c'' ⟨-, hm', rfl⟩
    refine post_pure.2 ⟨rfl, hm'.trans hm, ?_⟩
    rw [hm, Ring.cells_eq_read_append (by omega) hlen (by omega)]

/-! ## Registers -/

/-- The registers follow one another. -/
theorem sockRegGet_succ (r : ℕ) (i : Fin nSockets) :
    sockRegGet r i + 1 = sockRegGet (r + 1) i := by
  unfold sockRegGet
  omega

/-- Only the command register is a command. -/
theorem plain_sockRegGet (i : Fin nSockets) {r : ℕ} (hr : r < socketRegsSize) (hne : r ≠ regCR) :
    Plain (sockRegGet r i) := by
  intro j hdec
  rw [decodeReg_sockRegGet i hr] at hdec
  exact hne (congrArg Prod.snd (Option.some.inj hdec))

/-- Two registers have two addresses. -/
theorem sockRegGet_ne {i j : Fin nSockets} {r r' : ℕ} (hr : r < socketRegsSize)
    (hr' : r' < socketRegsSize) (hne : i ≠ j ∨ r ≠ r') : sockRegGet r i ≠ sockRegGet r' j := by
  intro heq
  have hdec := decodeReg_sockRegGet i hr
  rw [heq, decodeReg_sockRegGet j hr'] at hdec
  cases hdec
  exact hne.elim (fun h => h rfl) (fun h => h rfl)

/-! ### Sizes and pointers -/

/-- The write pointers are where the last `SEND` left them, and the rings hold at most
their size. -/
def TxChip.InOrder (c : TxChip) : Prop := ∀ i, c.txWr i = c.latched i ∧ c.dist i ≤ 0x800

/-- The write pointer is what its two bytes say. -/
theorem TxChip.txWr_congr {c c' : TxChip} {i : Fin nSockets}
    (h0 : c'.mem (sockRegGet regTXWR i) = c.mem (sockRegGet regTXWR i))
    (h1 : c'.mem (sockRegGet regTXWR i + 1) = c.mem (sockRegGet regTXWR i + 1)) :
    c'.txWr i = c.txWr i := by
  unfold TxChip.txWr
  rw [h0, h1]

/-- A chip that has only moved on is in order. -/
theorem TxChip.InOrder.kept {c c' : TxChip} (h : c.InOrder) (hk : Kept c c')
    (hm : c'.mem = c.mem) : c'.InOrder := by
  intro i
  rw [TxChip.txWr_congr (congrFun hm _) (congrFun hm _), hk.latched]
  exact ⟨(h i).1, (hk.dist i).trans (h i).2⟩

/-- The free size is the size less what is queued. -/
theorem TxChip.InOrder.toNat_txFsr {c : TxChip} (h : c.InOrder) (i : Fin nSockets) :
    (c.txFsr i).toNat = 0x800 - c.dist i := by
  obtain ⟨hwr, hle⟩ := h i
  unfold TxChip.txFsr
  unfold TxChip.dist at hle ⊢
  rw [hwr]
  generalize c.latched i = l at hle ⊢
  generalize c.rd i = r at hle ⊢
  bv_omega

/-- The free size is read as two bytes, and the chip may transmit between them.  What is
read is no more than there is. -/
theorem post_writeBufLen (hord : c.InOrder) (i : Fin nSockets) :
    Post (writeBufLen txBoard i)
      (fun n c' => Kept c c' ∧ c'.mem = c.mem ∧ n.toNat ≤ 0x800 - c'.dist i) c := by
  have hlt := sockRegGet_lt i (show regTXFSR < socketRegsSize by decide)
  have hlt' := sockRegGet_lt i (show regTXFSR + 1 < socketRegsSize by decide)
  have hord1 := hord.kept c.kept_advance rfl
  have hord2 := hord1.kept c.advance.kept_advance rfl
  have hhi : ∀ (c : TxChip) (t : Tick), c.answer t (sockRegGet regTXFSR i)
      = (c.txFsr i).extractLsb' 8 8 := by
    intro c t
    unfold TxChip.answer
    rw [decodeReg_sockRegGet i (by decide)]
    rfl
  have hlo : ∀ (c : TxChip) (t : Tick), c.answer t (sockRegGet (regTXFSR + 1) i)
      = (c.txFsr i).extractLsb' 0 8 := by
    intro c t
    unfold TxChip.answer
    rw [decodeReg_sockRegGet i (by decide)]
    rfl
  unfold writeBufLen readSockReg16
  simp only [readMem, post_bind, post_pure, post_readByte]
  rw [sockRegGet_succ, Nat.mod_eq_of_lt (by omega), Nat.mod_eq_of_lt (by omega), hhi, hlo]
  refine ⟨c.kept_advance.trans c.advance.kept_advance, rfl, ?_⟩
  show (htons (word16 _ _)).toNat ≤ _
  rw [toNat_htons_word16]
  have hf1 := hord1.toNat_txFsr i
  have hf2 := hord2.toNat_txFsr i
  have hmono := c.advance.kept_advance.dist i
  show ((c.advance.txFsr i).extractLsb' 8 8).toNat * 256
    + ((c.advance.advance.txFsr i).extractLsb' 0 8).toNat ≤ _
  rw [BitVec.extractLsb'_toNat, BitVec.extractLsb'_toNat, hf1, hf2, Nat.shiftRight_zero,
    Nat.shiftRight_eq_div_pow]
  omega

/-! ### The write pointer -/

/-- The write pointer is read as it stands. -/
theorem post_writeBufPstart (i : Fin nSockets) :
    Post (writeBufPstart txBoard i)
      (fun p c' => Kept c c' ∧ c'.mem = c.mem ∧ p = c.txWr i) c := by
  have hlt := sockRegGet_lt i (show regTXWR < socketRegsSize by decide)
  have hlt' := sockRegGet_lt i (show regTXWR + 1 < socketRegsSize by decide)
  have h0 : ∀ (c : TxChip) (t : Tick),
      c.answer t (sockRegGet regTXWR i) = c.mem (sockRegGet regTXWR i) := by
    intro c t
    unfold TxChip.answer
    rw [decodeReg_sockRegGet i (by decide)]
    rfl
  have h1 : ∀ (c : TxChip) (t : Tick),
      c.answer t (sockRegGet (regTXWR + 1) i) = c.mem (sockRegGet (regTXWR + 1) i) := by
    intro c t
    unfold TxChip.answer
    rw [decodeReg_sockRegGet i (by decide)]
    rfl
  unfold writeBufPstart readSockReg16
  simp only [readMem, post_bind, post_pure, post_readByte]
  rw [sockRegGet_succ, Nat.mod_eq_of_lt (by omega), Nat.mod_eq_of_lt (by omega), h0, h1]
  refine ⟨c.kept_advance.trans c.advance.kept_advance, rfl, ?_⟩
  rw [← sockRegGet_succ]
  rfl

/-- A write pointer that is written is read. -/
theorem TxChip.txWr_write {c c' : TxChip} {i : Fin nSockets} {p : BitVec 16}
    (hm : c'.mem = Memory.write c.mem (sockRegGet regTXWR i) (bytes16 (htons p))) :
    c'.txWr i = p := by
  have hread : Memory.read c'.mem (sockRegGet regTXWR i) 2 = bytes16 (htons p) := by
    rw [hm]
    exact Memory.read_write _ _ (bytes16 (htons p))
  rw [bytes16_htons, Memory.read_succ, Memory.read_succ, List.cons.injEq, List.cons.injEq] at hread
  unfold TxChip.txWr
  rw [hread.1, hread.2.1]
  apply BitVec.eq_of_toNat_eq
  rw [toNat_htons_word16, BitVec.extractLsb'_toNat, BitVec.extractLsb'_toNat]
  have hp := p.isLt
  rw [Nat.shiftRight_eq_div_pow, Nat.shiftRight_zero]
  omega

/-- Writing the write pointer of a socket changes its register and nothing else of the
transmit side. -/
theorem post_writeTxWr (i : Fin nSockets) (p : BitVec 16) :
    Post (writeSockReg16 txBoard regTXWR i (htons p))
      (fun _ c' => Kept c c' ∧ c'.mem = Memory.write c.mem (sockRegGet regTXWR i) (bytes16 (htons p)))
      c := by
  have hlt := sockRegGet_lt i (show regTXWR + 1 < socketRegsSize by decide)
  rw [← sockRegGet_succ] at hlt
  have hplain : ∀ a, sockRegGet regTXWR i ≤ a →
      a < sockRegGet regTXWR i + (bytes16 (htons p)).length → Plain a ∧ c.Free a := by
    intro a hlo hhi
    have hhi' : a < sockRegGet regTXWR i + 2 := hhi
    refine ⟨?_, c.free_of_lt (show a < 16384 by omega)⟩
    rcases (show a = sockRegGet regTXWR i ∨ a = sockRegGet regTXWR i + 1 by omega) with rfl | rfl
    · exact plain_sockRegGet i (by decide) (by decide)
    · rw [sockRegGet_succ]
      exact plain_sockRegGet i (by decide) (by decide)
  have hfits : sockRegGet regTXWR i + (bytes16 (htons p)).length ≤ 2 ^ 16 := by
    show sockRegGet regTXWR i + 2 ≤ 2 ^ 16
    omega
  exact (kept_writeMem hplain hfits).and (post_writeMem (fun a h h' => (hplain a h h').1) hfits)

/-! ### The command `SEND` -/

/-- What `SEND` has done: the bytes `l` are handed over behind those of before. -/
structure Sent (c : TxChip) (i : Fin nSockets) (l : List Byte) (c' : TxChip) : Prop where
  inOrder : c'.InOrder
  ticks : c'.ticks = c.ticks
  handed : ∀ j, c'.handed j = c.handed j ++ if j = i then l else []
  queue : ∀ j, c'.queue j = c.queue j ++ if j = i then l else []

/-- A state of the chip between the copy and the `SEND`: `n` bytes lie in the ring behind
those handed over, the pointer of the socket has been moved over them, and there was
room for them. -/
structure Filled (c : TxChip) (i : Fin nSockets) (n : ℕ) : Prop where
  txWr : c.txWr i = c.latched i + BitVec.ofNat 16 n
  room : c.dist i + n ≤ 0x800
  others : ∀ j ≠ i, c.txWr j = c.latched j ∧ c.dist j ≤ 0x800

/-- **The command hands the bytes over**. -/
theorem Filled.sent_exec {i : Fin nSockets} {n : ℕ} (h : Filled c i n) :
    Sent c i (c.window i (c.latched i) n) (c.exec i cmdSend) := by
  have hroom := h.room
  unfold TxChip.dist at hroom
  have hn : (c.txWr i - c.latched i).toNat = n := by
    rw [h.txWr]
    generalize c.latched i = l
    bv_omega
  have hexec : c.exec i cmdSend =
      { c with
        handed := Function.update c.handed i (c.handed i ++ c.window i (c.latched i) n)
        latched := Function.update c.latched i (c.txWr i) } := by
    unfold TxChip.exec
    rw [if_pos rfl, hn]
  have hdist : (c.txWr i - c.rd i).toNat = (c.latched i - c.rd i).toNat + n := by
    rw [h.txWr]
    generalize c.latched i = l at hroom ⊢
    generalize c.rd i = r at hroom ⊢
    bv_omega
  rw [hexec]
  constructor
  · intro j
    by_cases hj : j = i
    · subst hj
      constructor
      · show c.txWr j = Function.update c.latched j (c.txWr j) j
        rw [Function.update_self]
      · show (Function.update c.latched j (c.txWr j) j - c.rd j).toNat ≤ 0x800
        rw [Function.update_self, hdist]
        exact hroom
    · obtain ⟨hwr, hle⟩ := h.others j hj
      constructor
      · show c.txWr j = Function.update c.latched i (c.txWr i) j
        rw [Function.update_of_ne hj]
        exact hwr
      · show (Function.update c.latched i (c.txWr i) j - c.rd j).toNat ≤ 0x800
        rw [Function.update_of_ne hj]
        exact hle
  · rfl
  · intro j
    show Function.update c.handed i _ j = _
    by_cases hj : j = i
    · subst hj
      rw [Function.update_self, if_pos rfl]
    · rw [Function.update_of_ne hj, if_neg hj, List.append_nil]
  · intro j
    show c.consumed j ++ c.window j (c.rd j)
      (Function.update c.latched i (c.txWr i) j - c.rd j).toNat = _
    by_cases hj : j = i
    · subst hj
      rw [Function.update_self, if_pos rfl, hdist]
      -- the new bytes start where those in the ring end
      have hstart : ((c.rd j).toNat + (c.latched j - c.rd j).toNat) % 2 ^ 16 = (c.latched j).toNat := by
        generalize c.latched j = l
        generalize c.rd j = r
        bv_omega
      have hwin : c.window j (c.latched j) n
          = Ring.cells c.mem (txMemBase + 0x800 * j) 0x800
              ((c.rd j).toNat + (c.latched j - c.rd j).toNat) n := by
        unfold TxChip.window
        rw [← hstart]
        exact Ring.cells_mod _ _ _ (by decide) _ _
      rw [hwin]
      unfold TxChip.queue TxChip.pending TxChip.window
      rw [Ring.cells_add, List.append_assoc]
    · rw [Function.update_of_ne hj, if_neg hj, List.append_nil]
      rfl

/-- What is sent stays sent when the chip moves on. -/
theorem Sent.kept {c' c'' : TxChip} {i : Fin nSockets} {l : List Byte} (h : Sent c i l c')
    (hk : Kept c' c'') (hm : c''.mem = c'.mem) : Sent c i l c'' where
  inOrder := h.inOrder.kept hk hm
  ticks := hk.ticks.trans h.ticks
  handed j := by rw [hk.handed, h.handed]
  queue j := by rw [hk.queue, h.queue]

/-- It may have moved on before. -/
theorem Sent.of_kept {c' c'' : TxChip} {i : Fin nSockets} {l : List Byte} (hk : Kept c c')
    (h : Sent c' i l c'') : Sent c i l c'' where
  inOrder := h.inOrder
  ticks := h.ticks.trans hk.ticks
  handed j := by rw [h.handed, hk.handed]
  queue j := by rw [h.queue, hk.queue]

/-- Storing the command changes no register of the transmit side. -/
theorem Filled.store_cr {i : Fin nSockets} {n : ℕ} (h : Filled c i n) (cmd : Byte) {c' : TxChip}
    (hc' : c' = { c.advance with mem := Function.update c.mem (sockRegGet regCR i) cmd }) :
    Kept c c' ∧ Filled c' i n ∧ c'.window i (c'.latched i) n = c.window i (c.latched i) n := by
  have hcr := sockRegGet_lt i (show regCR < socketRegsSize by decide)
  have hk : Kept c c' := by
    rw [hc']
    exact c.kept_advance.trans
      (c.advance.kept_update cmd (c.advance.free_of_lt (show _ < 16384 by omega)))
  have hmem : c'.mem = Function.update c.mem (sockRegGet regCR i) cmd := by rw [hc']
  have hwr : ∀ j, c'.txWr j = c.txWr j := by
    intro j
    apply TxChip.txWr_congr
    · rw [hmem, Function.update_of_ne]
      exact sockRegGet_ne (by decide) (by decide) (.inr (by decide))
    · rw [hmem, Function.update_of_ne]
      rw [sockRegGet_succ]
      exact sockRegGet_ne (by decide) (by decide) (.inr (by decide))
  refine ⟨hk, ⟨?_, ?_, ?_⟩, ?_⟩
  · rw [hwr, hk.latched]
    exact h.txWr
  · exact (Nat.add_le_add_right (hk.dist i) n).trans h.room
  · intro j hj
    rw [hwr, hk.latched]
    exact ⟨(h.others j hj).1, (hk.dist j).trans (h.others j hj).2⟩
  · rw [hk.latched]
    apply Ring.cells_congr
    intro k _
    rw [hmem, Function.update_of_ne]
    have htx : txMemBase = 16384 := rfl
    omega

/-- A command is stored in the register and executed.  The wait behind it changes nothing. -/
theorem post_command_exec (fuel : ℕ) (i : Fin nSockets) (cmd : Byte) :
    Post (command txBoard fuel i cmd)
      (fun _ c' =>
        let c1 := TxChip.exec
          { c.advance with mem := Function.update c.mem (sockRegGet regCR i) cmd } i cmd
        Kept c1 c' ∧ c'.mem = c1.mem) c := by
  have hcr := sockRegGet_lt i (show regCR < socketRegsSize by decide)
  unfold command writeSockReg
  rw [post_bind, post_writeByte, Nat.mod_eq_of_lt (by omega)]
  unfold TxChip.store
  dsimp only
  rw [decodeReg_sockRegGet i (by decide)]
  dsimp only
  rw [if_pos rfl, post_bind]
  refine (quiet_readUntil fuel regCR i _).mono ?_
  rintro _ c' h
  exact post_pure.2 h

/-- The `SEND` command hands over the bytes behind those handed over before. -/
theorem Filled.post_command {i : Fin nSockets} {n : ℕ} (h : Filled c i n) (fuel : ℕ) :
    Post (command txBoard fuel i cmdSend)
      (fun _ c' => Sent c i (c.window i (c.latched i) n) c') c := by
  obtain ⟨hk, hfilled, hwin⟩ := h.store_cr cmdSend rfl
  have hsent := hfilled.sent_exec
  rw [hwin] at hsent
  refine (post_command_exec fuel i cmdSend).mono ?_
  rintro _ c' ⟨hk', hm'⟩
  exact Sent.of_kept hk (hsent.kept hk' hm')

/-! ## `write_buf` -/

/-- Nothing is sent when the memory is as it was. -/
theorem sent_nil {c' : TxChip} (hord : c.InOrder) (i : Fin nSockets) (hk : Kept c c')
    (hm : c'.mem = c.mem) : Sent c i [] c' where
  inOrder := hord.kept hk hm
  ticks := hk.ticks
  handed j := by rw [hk.handed, ite_self, List.append_nil]
  queue j := by rw [hk.queue, ite_self, List.append_nil]

/-- The cells behind the bytes in the ring are free as long as there is room. -/
theorem free_txCell {i : Fin nSockets} {k : ℕ} (hroom : c.dist i + k < 0x800) :
    c.Free (txCell i ((c.latched i).toNat + k)) := by
  intro j m hm heq
  have hij : i = j := by
    have hlo := Nat.mod_lt ((c.latched i).toNat + k) (show 0x800 > 0 by omega)
    have hlo' := Nat.mod_lt ((c.rd j).toNat + m) (show 0x800 > 0 by omega)
    unfold txCell at heq
    apply Fin.ext
    omega
  subst hij
  have hstart : ((c.rd i).toNat + c.dist i + k) % 0x800 = ((c.latched i).toNat + k) % 0x800 := by
    unfold TxChip.dist
    generalize c.latched i = l
    generalize c.rd i = r
    bv_omega
  have hne := Ring.add_mod_ne (N := 0x800) (p := (c.rd i).toNat) hm hroom
  unfold txCell at heq
  omega

/-- After the copy and the write of the pointer, the bytes are ready for `SEND`. -/
theorem filled_of_copied {c1 c2 : TxChip} {i : Fin nSockets} {l : List Byte} (hord : c.InOrder)
    (hroom : c.dist i + l.length ≤ 0x800) (hk1 : Kept c c1)
    (hm1 : c1.mem = Ring.store c.mem (txMemBase + 0x800 * i) 0x800 (c.latched i).toNat l)
    (hk2 : Kept c1 c2)
    (hm2 : c2.mem = Memory.write c1.mem (sockRegGet regTXWR i)
      (bytes16 (htons (c.latched i + BitVec.ofNat 16 l.length)))) :
    Filled c2 i l.length ∧ c2.window i (c2.latched i) l.length = l := by
  have hk := hk1.trans hk2
  have htx : txMemBase = 16384 := rfl
  have hreg := sockRegGet_lt i (show regTXWR < socketRegsSize by decide)
  -- the ring lies behind the registers
  have hlow : ∀ a < 2048, c1.mem a = c.mem a := by
    intro a ha
    rw [hm1]
    exact Ring.store_of_outside (by omega) (.inl (by omega))
  constructor
  · constructor
    · rw [TxChip.txWr_write hm2, hk.latched]
    · exact (Nat.add_le_add_right (hk.dist i) _).trans hroom
    · intro j hj
      have hjreg := sockRegGet_lt j (show regTXWR + 1 < socketRegsSize by decide)
      rw [← sockRegGet_succ] at hjreg
      have hne0 : sockRegGet regTXWR j ≠ sockRegGet regTXWR i :=
        sockRegGet_ne (by decide) (by decide) (.inl hj)
      have hne1 : sockRegGet regTXWR j ≠ sockRegGet (regTXWR + 1) i :=
        sockRegGet_ne (by decide) (by decide) (.inl hj)
      have hne2 : sockRegGet (regTXWR + 1) j ≠ sockRegGet regTXWR i :=
        sockRegGet_ne (by decide) (by decide) (.inl hj)
      rw [← sockRegGet_succ] at hne1 hne2
      -- the pointers of the other sockets are elsewhere
      have hkeep : ∀ a < 2048, a ≠ sockRegGet regTXWR i → a ≠ sockRegGet regTXWR i + 1 →
          c2.mem a = c.mem a := by
        intro a ha h0 h1
        rw [← hlow a ha, hm2]
        rcases Nat.lt_or_ge a (sockRegGet regTXWR i) with hlt | hge
        · exact Memory.write_of_lt _ hlt
        · apply Memory.write_of_le
          show sockRegGet regTXWR i + 2 ≤ a
          omega
      have hwr : c2.txWr j = c.txWr j := by
        apply TxChip.txWr_congr
        · exact hkeep _ (by omega) hne0 hne1
        · exact hkeep _ (by omega) hne2 (by omega)
      rw [hwr, hk.latched]
      exact ⟨(hord j).1, (hk.dist j).trans (hord j).2⟩
  · rw [hk.latched]
    unfold TxChip.window
    have hself : Ring.cells c1.mem (txMemBase + 0x800 * i) 0x800 (c.latched i).toNat l.length = l := by
      rw [hm1]
      exact Ring.cells_store_self (by omega)
    rw [← hself]
    rw [Ring.length_cells]
    apply Ring.cells_congr
    intro k _
    rw [hm2]
    apply Memory.write_of_le
    show sockRegGet regTXWR i + 2 ≤ _
    omega

/-! ### The whole call -/

/-- **One `write_buf`.**  It hands over just the bytes that it reports written. -/
theorem post_writeBuf (hord : c.InOrder) (fuel : ℕ) (i : Fin nSockets) (buf : List Byte) :
    Post (writeBuf txBoard fuel i buf)
      (fun n c' => n ≤ buf.length ∧ Sent c i (buf.take n) c') c := by
  unfold writeBuf
  rw [post_bind]
  refine (post_writeBufLen hord i).mono ?_
  rintro nfree c1 ⟨hk1, hm1, hfree⟩
  have hord1 := hord.kept hk1 hm1
  rw [post_ite]
  constructor
  swap
  · intro _
    rw [post_pure]
    exact ⟨Nat.zero_le _, sent_nil hord i hk1 hm1⟩
  · intro _
    generalize hlen : (if buf.length > nfree.toNat then nfree.toNat else buf.length) = len
    have hle : len ≤ buf.length ∧ len ≤ nfree.toNat := by
      rw [← hlen]
      split_ifs <;> omega
    have htake : (buf.take len).length = len := by
      rw [List.length_take]
      omega
    rw [post_bind]
    refine (post_writeBufPstart i).mono ?_
    rintro p c2 ⟨hk2, hm2, rfl⟩
    have hord2 := hord1.kept hk2 hm2
    have hdist := hk2.dist i
    -- the room was read before; the chip can only have made more
    have hroom : c2.dist i + (buf.take len).length ≤ 0x800 := by
      have := (hord1 i).2
      omega
    rw [(hord1 i).1, ← hk2.latched, post_bind]
    refine (Post.and (kept_writeBufSure (by omega) ?_) (post_writeBufSure (by omega))).mono ?_
    · intro k hk
      exact free_txCell (by omega)
    · rintro p' c3 ⟨hk3, rfl, hm3⟩
      unfold writeBufSend
      rw [post_bind, post_bind]
      refine (post_writeTxWr i _).mono ?_
      rintro _ c4 ⟨hk4, hm4⟩
      obtain ⟨hfilled, hwin⟩ := filled_of_copied hord2 hroom hk3 hm3 hk4 hm4
      refine (hfilled.post_command fuel).mono ?_
      intro _ c5 hsent
      rw [hwin] at hsent
      have hlt := nfree.isLt
      rw [post_pure, Nat.mod_eq_of_lt (by omega)]
      exact ⟨hle.1, Sent.of_kept (((hk1.trans hk2).trans hk3).trans hk4) hsent⟩

/-! ## Runs of `write_buf` -/

/-- A run: calls of `write_buf`, and moments at which the chip transmits. -/
inductive RingEvent
  | writeBuf (i : Fin nSockets) (buf : List Byte)
  | transmit

/-- The bytes reported written, call by call. -/
def ringRun (fuel : ℕ) : List RingEvent → Comp TxChip Stop (List (Fin nSockets × List Byte))
  | [] => pure []
  | .writeBuf i buf :: es => do
      let n ← W5100.writeBuf txBoard fuel i buf
      let rest ← ringRun fuel es
      pure ((i, buf.take n) :: rest)
  | .transmit :: es => do
      modify TxChip.advance
      ringRun fuel es

/-- The bytes of one socket, in order. -/
def bytesOf (i : Fin nSockets) (l : List (Fin nSockets × List Byte)) : List Byte :=
  l.flatMap fun r => if i = r.1 then r.2 else []

/-- **Over a whole run** every queue grows by the bytes written to it. -/
theorem post_ringRun (fuel : ℕ) (es : List RingEvent) (hord : c.InOrder) :
    Post (ringRun fuel es)
      (fun l c' => c'.InOrder ∧ ∀ i, c'.queue i = c.queue i ++ bytesOf i l) c := by
  induction es generalizing c with
  | nil =>
      refine post_pure.2 ⟨hord, fun i => ?_⟩
      exact (List.append_nil _).symm
  | cons e es ih =>
      cases e with
      | transmit =>
          unfold ringRun
          rw [post_bind, post_modify]
          refine (ih (hord.kept c.kept_advance rfl)).mono ?_
          rintro l c' ⟨hord', hq⟩
          refine ⟨hord', fun i => ?_⟩
          rw [hq, c.queue_advance]
      | writeBuf i buf =>
          unfold ringRun
          rw [post_bind]
          refine (post_writeBuf hord fuel i buf).mono ?_
          rintro n c1 ⟨-, hsent⟩
          rw [post_bind]
          refine (ih hsent.inOrder).mono ?_
          rintro l c' ⟨hord', hq⟩
          refine post_pure.2 ⟨hord', fun j => ?_⟩
          rw [hq, hsent.queue, List.append_assoc]
          rfl

/-! ## Commands return -/

/-- The chip has executed every command by the time its register is read. -/
def TxChip.Prompt (c : TxChip) : Prop := ∀ k, (c.ticks k).cr = 0

/-! ### What a store leaves -/

theorem ticks_store (a : ℕ) (b : Byte) : (c.store a b).ticks = c.ticks := by
  unfold TxChip.store
  dsimp only
  split
  · split_ifs
    · unfold TxChip.exec
      split_ifs <;> rfl
    · rfl
  · rfl

theorem ticks_readMem (addr n : ℕ) :
    Post (readMem txBoard addr n) (fun _ c' => c'.ticks = c.ticks) c := by
  induction n generalizing addr c with
  | zero => exact post_pure.2 rfl
  | succ n ih =>
      unfold readMem
      rw [post_bind, post_readByte, post_bind]
      refine (ih _).mono ?_
      intro bs c' ht
      exact post_pure.2 ht

theorem ticks_writeMem (addr : ℕ) (l : List Byte) :
    Post (writeMem txBoard addr l) (fun _ c' => c'.ticks = c.ticks) c := by
  induction l generalizing addr c with
  | nil => exact post_pure.2 rfl
  | cons b l ih =>
      unfold writeMem
      rw [post_bind, post_writeByte]
      refine (ih _).mono ?_
      intro _ c' ht
      rw [ht, ticks_store]
      rfl

theorem returns_command (hp : c.Prompt) (fuel : ℕ) (i : Fin nSockets) (cmd : Byte) :
    Returns (command txBoard (fuel + 1) i cmd) c := by
  have hcr := sockRegGet_lt i (show regCR < socketRegsSize by decide)
  apply Returns.bind ⟨_, _, rfl⟩
  unfold writeSockReg
  rw [post_writeByte]
  generalize hc1 : c.advance.store (sockRegGet regCR i % 2 ^ 16) cmd = c1
  have hticks : c1.ticks = c.ticks := by
    rw [← hc1, ticks_store]
    rfl
  have hanswer : c1.advance.answer (c1.ticks c1.now) (sockRegGet regCR i % 2 ^ 16) = 0 := by
    rw [Nat.mod_eq_of_lt (by omega)]
    unfold TxChip.answer
    rw [decodeReg_sockRegGet i (by decide), hticks]
    exact hp c1.now
  have hread : readUntil txBoard (fuel + 1) regCR i (fun v => v = 0) c1 = .ok (0, c1.advance) := by
    apply iter_succ_of_inr
    rw [bind_eq]
    show Except.ok ((if decide (c1.advance.answer (c1.ticks c1.now) (sockRegGet regCR i % 2 ^ 16) = 0)
      then Sum.inr (c1.advance.answer (c1.ticks c1.now) (sockRegGet regCR i % 2 ^ 16))
      else Sum.inl ()), c1.advance) = _
    rw [hanswer]
    rfl
  apply Returns.bind ⟨_, _, hread⟩
  intro _ _ _
  exact returns_pure

theorem returns_writeBuf (hp : c.Prompt) (fuel : ℕ) (i : Fin nSockets) (buf : List Byte) :
    Returns (writeBuf txBoard (fuel + 1) i buf) c := by
  have hreg : ∀ (r : ℕ) (c : TxChip), Returns (do
      let v ← readSockReg16 txBoard r i
      pure (htons v)) c := by
    intro r c
    apply Returns.bind
    · exact Returns.bind (returns_readMem _ _ _ _) (fun _ _ _ => returns_pure)
    · exact fun _ _ _ => returns_pure
  -- no wait so far: `command` alone lets time pass, and the chip is prompt then
  have hticks : ∀ (r : ℕ) (c : TxChip), Post (do
      let v ← readSockReg16 txBoard r i
      pure (htons v)) (fun _ c' => c'.ticks = c.ticks) c := by
    intro r c
    unfold readSockReg16
    rw [post_bind, post_bind]
    refine (ticks_readMem _ _).mono ?_
    intro bs c' ht
    exact post_pure.2 (post_pure.2 ht)
  unfold writeBuf
  apply Returns.bind (hreg _ _)
  refine (hticks _ _).mono ?_
  intro nfree c1 ht1
  apply Returns.ite
  swap
  · intro _
    exact returns_pure
  · intro _
    apply Returns.bind (hreg _ _)
    refine (hticks _ _).mono ?_
    intro p c2 ht2
    rw [writeBufSure_eq]
    dsimp only
    apply Returns.bind
    · apply Returns.bind (returns_writeMem _ _ _ _)
      intro _ _ _
      apply Returns.bind (returns_writeMem _ _ _ _)
      intro _ _ _
      exact returns_pure
    · rw [post_bind]
      refine (ticks_writeMem _ _).mono ?_
      intro _ c3 ht3
      rw [post_bind]
      refine (ticks_writeMem _ _).mono ?_
      intro _ c4 ht4
      rw [post_pure]
      apply Returns.bind
      · unfold writeBufSend
        apply Returns.bind (returns_writeMem _ _ _ _)
        refine (ticks_writeMem _ _).mono ?_
        intro _ c5 ht5
        apply returns_command
        intro k
        rw [ht5, ht4, ht3, ht2, ht1]
        exact hp k
      · intro _ _ _
        exact returns_pure

end Transactions

end W5100

end Nucleo
