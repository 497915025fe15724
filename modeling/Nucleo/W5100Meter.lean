/-
# Counting the bytes that are sent

`Board.metered` is a board with a counter beside it, which no call sees: it counts the
bytes that are written to the transmit memory of the chip.  The copies of `write_buf`
count what they return (`post_writeBuf_metered`), and everything else counts nothing.

The chip is trusted in one thing: it never offers more room than a transmit ring has
(`Board.RoomBounded`).
-/
import Nucleo.W5100Ring
import Nucleo.W5100Rights

namespace Nucleo

namespace W5100

open Comp

variable {χ : Type}

/-- The board with a count of the bytes written to the transmit memory. -/
def Board.metered (B : Board χ) : Board (χ × ℕ) where
  read reg c := ((B.read reg c.1).1, ((B.read reg c.1).2, c.2))
  write reg val c :=
    (B.write reg val c.1, if txMemBase ≤ reg ∧ reg < rxMemBase then c.2 + 1 else c.2)
  clockGettime c := ((B.clockGettime c.1).1, ((B.clockGettime c.1).2, c.2))
  usartReady c := ((B.usartReady c.1).1, ((B.usartReady c.1).2, c.2))
  usartRecv c := ((B.usartRecv c.1).1, ((B.usartRecv c.1).2, c.2))
  usartSend b c := (B.usartSend b c.1, c.2)

/-- The free size that the chip reports is at most the size of the ring. -/
def Board.RoomBounded (B : Board χ) : Prop :=
  ∀ i c n c', writeBufLen B i c = .ok (n, c') → n.toNat ≤ getTxSize i

section Meter

variable (B : Board χ) (fuel : ℕ)

/-- The counter. -/
abbrev meter (c : χ × ℕ) : ℕ := c.2

/-! ## What counts nothing -/

/-- Anything may be done that sets no `errno` and writes nothing to the transmit memory. -/
def meterRights : Rights := ⟨fun a _ => a < txMemBase, fun _ _ => True, True, False, fun _ => True⟩

/-- What writes nothing to the transmit memory counts nothing. -/
theorem keeps_meter_of_chipCode {α : Type} {x : Comp (χ × ℕ) Stop α}
    (h : ChipCode B.metered meterRights x) : Keeps meter x := by
  refine h.keeps fun _ _ hstep c v c' heq => ?_
  cases hstep with
  | read reg =>
      cases heq
      rfl
  | @write reg val hw =>
      cases heq
      show (if txMemBase ≤ reg % 2 ^ 16 ∧ reg % 2 ^ 16 < rxMemBase then c.2 + 1 else c.2) = c.2
      exact if_neg fun hin => absurd hw (not_lt.2 hin.1)
  | clock =>
      cases heq
      rfl
  | stop _ => cases heq

/-- A register is not in the transmit memory. -/
theorem meterRights_register (i : Fin nSockets) {r n : ℕ} (hr : r + n ≤ socketRegsSize) :
    meterRights.Register i r n := by
  intro m v hm
  have hi : i.val < 4 := i.isLt
  show sockRegGet r i + m < txMemBase
  unfold sockRegGet s0RegsOffset txMemBase
  unfold socketRegsSize at *
  omega

/-- The pointer and `SEND` count nothing. -/
theorem keeps_writeBufSend (i : Fin nSockets) (p : BitVec 16) :
    Keeps meter (writeBufSend B.metered fuel i p) := by
  refine keeps_meter_of_chipCode B (Made.bind ?_ fun _ => ?_)
  · exact made_writeSockReg16 (by decide) (meterRights_register i (by decide)) _
  · refine made_command fuel trivial ?_
    exact meterRights_register (n := 1) i (by decide) 0 _ Nat.one_pos

/-! ## What `write_buf` counts -/

/-- A copy into the transmit memory. -/
theorem post_writeMem_metered {addr : ℕ} {l : List Byte} (hlo : txMemBase ≤ addr)
    (hhi : addr + l.length ≤ rxMemBase) (c : χ × ℕ) :
    Post (writeMem B.metered addr l) (fun _ c' => c'.2 = c.2 + l.length) c := by
  induction l generalizing addr c with
  | nil => exact post_pure.2 rfl
  | cons b l ih =>
      rw [List.length_cons] at hhi
      have hmod : addr % 2 ^ 16 = addr := Nat.mod_eq_of_lt (by unfold rxMemBase at hhi; omega)
      show Post (writeByte B.metered addr b >>= _) _ c
      rw [post_bind]
      intro _ c1 heq
      cases heq
      refine (ih (by omega) (by omega) _).mono fun _ c' h => ?_
      rw [h, hmod]
      show (if _ then c.2 + 1 else c.2) + l.length = c.2 + (l.length + 1)
      rw [if_pos ⟨hlo, by omega⟩]
      omega

theorem post_writeBufSure_metered (i : Fin nSockets) {buf : List Byte} (hlen : buf.length ≤ 0x800)
    (p : BitVec 16) (c : χ × ℕ) :
    Post (writeBufSure B.metered i buf p) (fun _ c' => c'.2 = c.2 + buf.length) c := by
  have hi : i.val < 4 := i.isLt
  have hoff : p.toNat % 0x800 < 0x800 := Nat.mod_lt _ (by decide)
  have hbase : getTxBase i = 0x4000 + 0x800 * i.val := rfl
  have htx : txMemBase = 0x4000 := rfl
  have hrx : rxMemBase = 0x6000 := rfl
  by_cases hfit : p.toNat % 0x800 + buf.length ≤ 0x800
  · rw [writeBufSure_of_fits B.metered i hfit, post_bind]
    refine (post_writeMem_metered B ?_ ?_ c).mono fun _ c' h => post_pure.2 h
    · omega
    · omega
  · rw [writeBufSure_of_wraps B.metered i hlen hfit, post_bind]
    refine (post_writeMem_metered B ?_ ?_ c).mono fun _ c1 h1 => ?_
    · omega
    · rw [List.length_take]
      omega
    rw [post_bind]
    refine (post_writeMem_metered B ?_ ?_ c1).mono fun _ c2 h2 => post_pure.2 ?_
    · omega
    · rw [List.length_drop]
      omega
    rw [h2, h1, List.length_take, List.length_drop]
    omega

theorem writeBufLen_metered (i : Fin nSockets) (c : χ × ℕ) {n : BitVec 16} {c' : χ × ℕ}
    (h : writeBufLen B.metered i c = .ok (n, c')) : writeBufLen B i c.1 = .ok (n, c'.1) := by
  cases h
  rfl

/-- `write_buf` returns the number of bytes that it sends, which is not more than the ring
holds. -/
theorem post_writeBuf_metered (hroom : B.RoomBounded) (i : Fin nSockets) (buf : List Byte)
    (c : χ × ℕ) :
    Post (writeBuf B.metered fuel i buf)
      (fun n c' => c'.2 = c.2 + n ∧ n ≤ buf.length ∧ n ≤ 0x800) c := by
  unfold writeBuf
  rw [post_bind]
  intro nfree c1 hfree
  have hle : nfree.toNat ≤ 0x800 := hroom i c.1 nfree c1.1 (writeBufLen_metered B i c hfree)
  have hc1 : c1.2 = c.2 := keeps_meter_of_chipCode B (made_writeBufLen i) c _ _ hfree
  rw [post_ite]
  constructor
  · intro hpos
    dsimp only
    generalize hlen : (if buf.length > nfree.toNat then nfree.toNat else buf.length) = len
    have hbuf : len ≤ buf.length ∧ len ≤ 0x800 := by
      rw [← hlen]
      split_ifs <;> omega
    -- the length is returned in 16 bits, and the ring is far shorter
    have hmod : len % 2 ^ 16 = len := Nat.mod_eq_of_lt (by omega)
    have htake : (buf.take len).length = len := by
      rw [List.length_take]
      omega
    rw [post_bind]
    refine (keeps_meter_of_chipCode B (made_writeBufPstart i) c1).mono fun p c2 hc2 => ?_
    rw [post_bind]
    refine (post_writeBufSure_metered B i (by rw [htake]; omega) p c2).mono fun p' c3 hc3 => ?_
    rw [post_bind]
    refine (keeps_writeBufSend B fuel i p' c3).mono fun _ c4 hc4 => post_pure.2 ?_
    have hcount : c4.2 = c3.2 := hc4
    have hstart : c2.2 = c1.2 := hc2
    rw [htake] at hc3
    refine ⟨?_, ?_, ?_⟩
    · rw [hmod]
      omega
    · omega
    · omega
  · intro _
    exact post_pure.2 ⟨by omega, Nat.zero_le _, Nat.zero_le _⟩

end Meter

end W5100

end Nucleo
