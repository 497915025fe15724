/-
# The two-byte accesses of `w5100_spi.c`

`w5100_spi.c` has two ways to a register of two bytes: `w5100_read_mem` and
`w5100_write_mem` with the value in network byte order, which the sockets use, and
`w5100_read_reg2` and `w5100_write_reg2`, which shift the bytes in and out themselves.  Both do
the same transactions, but the shifts of the second pair are not those of two bytes: the
loop that reads shifts once more after the last byte, and the loop that writes takes the upper
half of a word of four bytes.  On a chip that is memory the two ways agree for the value zero
only.
-/
import Nucleo.W5100Chip

namespace Nucleo

namespace W5100

open Comp

/-! ## The shift loops -/

section Loops

variable {χ : Type} (B : Board χ)

/-- What a turn of the loop of `w5100_read_reg2` leaves in `rx`. -/
def shiftIn (rx : BitVec 16) (b : Byte) : BitVec 16 := (rx ||| b.setWidth 16) <<< 8

/-- `w5100_read_reg2`. -/
def readReg2 (reg : ℕ) : Comp χ Stop (BitVec 16) :=
  (List.range 2).foldlM (fun rx iByte => do
    let b ← readByte B (reg + iByte)
    pure (shiftIn rx b)) 0

/-- The byte that a turn of the loop of `w5100_write_reg2` writes; the value is promoted to
an `int` before it is shifted. -/
def shiftOut (val : BitVec 16) (iByte : ℕ) : Byte :=
  (val.setWidth 32 >>> ((3 - iByte) * 8)).setWidth 8

/-- `w5100_write_reg2`. -/
def writeReg2 (reg : ℕ) (val : BitVec 16) : Comp χ Stop Unit :=
  (List.range 2).forM fun iByte => writeByte B (reg + iByte) (shiftOut val iByte)

/-- A promoted half word has no bits where the two turns look. -/
theorem shiftOut_eq_zero (val : BitVec 16) {iByte : ℕ} (h : iByte < 2) :
    shiftOut val iByte = 0#8 := by
  unfold shiftOut
  apply BitVec.eq_of_getLsbD_eq
  intro k hk
  rw [BitVec.getLsbD_setWidth, BitVec.getLsbD_ushiftRight, BitVec.getLsbD_setWidth,
    BitVec.getLsbD_of_ge val _ (by omega), Bool.and_false, Bool.and_false, BitVec.getLsbD_zero]

/-- The first byte is shifted out at the top, and the last one ends where it should be. -/
theorem shiftIn_shiftIn (b0 b1 : Byte) : shiftIn (shiftIn 0#16 b0) b1 = b1 ++ 0#8 := by
  unfold shiftIn
  apply BitVec.eq_of_getLsbD_eq
  intro k hk
  rw [BitVec.getLsbD_append]
  simp only [BitVec.getLsbD_shiftLeft, BitVec.getLsbD_or, BitVec.getLsbD_setWidth,
    BitVec.getLsbD_zero]
  by_cases hlow : k < 8
  · simp [hlow, hk]
  · have hbyte : k - 8 < 8 := by omega
    have hhalf : k - 8 < 16 := by omega
    simp [hlow, hk, hbyte, hhalf]

/-- **Reading in the other way** is the same two transactions, and the second byte at the
place of the first. -/
theorem readReg2_eq (reg : ℕ) :
    readReg2 B reg = (do
      let bs ← readMem B reg 2
      pure (bs.getD 1 0 ++ 0#8)) := by
  funext c
  show Except.ok (shiftIn (shiftIn 0#16 _) _, _) = _
  rw [shiftIn_shiftIn]
  rfl

/-- **Writing in the other way** writes two zeros, whatever the value. -/
theorem writeReg2_eq (reg : ℕ) (val : BitVec 16) :
    writeReg2 B reg val = writeMem B reg [0#8, 0#8] := by
  funext c
  show Except.ok ((), B.write _ (shiftOut val 1) (B.write _ (shiftOut val 0) c)) = _
  rw [shiftOut_eq_zero val (by omega), shiftOut_eq_zero val (by omega)]
  rfl

end Loops

/-! ## A chip that is memory -/

/-- A chip whose registers are bytes of memory. -/
def memoryBoard : Board (BitVec 16 → Byte) where
  read a m := (m (BitVec.ofNat 16 a), m)
  write a b m := Function.update m (BitVec.ofNat 16 a) b
  clockGettime m := (timespecZero, m)
  usartReady m := (false, m)
  usartRecv m := (0, m)
  usartSend _ m := m

section Memory

variable (m : BitVec 16 → Byte) (reg : BitVec 16) (v : BitVec 16)

/-- The memory after the two bytes have been written from `reg` on. -/
def afterBytes (b0 b1 : Byte) : BitVec 16 → Byte :=
  Function.update (Function.update m reg b0) (reg + 1) b1

/-- A register is its number. -/
theorem ofNat_reg : BitVec.ofNat 16 (reg.toNat % 2 ^ 16) = reg := by
  rw [Nat.mod_eq_of_lt reg.isLt, BitVec.ofNat_toNat, BitVec.setWidth_eq]

theorem ofNat_reg_succ : BitVec.ofNat 16 ((reg.toNat + 1) % 2 ^ 16) = reg + 1 := by
  have hone : (1 : BitVec 16).toNat = 1 := rfl
  apply BitVec.eq_of_toNat_eq
  rw [BitVec.toNat_ofNat, BitVec.toNat_add, hone]
  omega

/-- The two bytes are read. -/
theorem readMem_memory :
    readMem memoryBoard reg.toNat 2 m = .ok ([m reg, m (reg + 1)], m) := by
  show Except.ok ([m (BitVec.ofNat 16 (reg.toNat % 2 ^ 16)),
    m (BitVec.ofNat 16 ((reg.toNat + 1) % 2 ^ 16))], m) = _
  rw [ofNat_reg, ofNat_reg_succ]

/-- They are written. -/
theorem writeMem_memory (b0 b1 : Byte) :
    writeMem memoryBoard reg.toNat [b0, b1] m = .ok ((), afterBytes m reg b0 b1) := by
  show Except.ok ((), Function.update (Function.update m (BitVec.ofNat 16 (reg.toNat % 2 ^ 16)) b0)
    (BitVec.ofNat 16 ((reg.toNat + 1) % 2 ^ 16)) b1) = _
  rw [ofNat_reg, ofNat_reg_succ]
  rfl

/-- A register is not the one behind it. -/
theorem reg_ne_succ : reg ≠ reg + 1 := by
  intro h
  have hnat := congrArg BitVec.toNat h
  rw [BitVec.toNat_add] at hnat
  have hone : (1 : BitVec 16).toNat = 1 := rfl
  have hlt := reg.isLt
  omega

/-- Memory holds what was written last. -/
theorem afterBytes_inj {b0 b1 b0' b1' : Byte} :
    afterBytes m reg b0 b1 = afterBytes m reg b0' b1' ↔ b0 = b0' ∧ b1 = b1' := by
  constructor
  · intro h
    have hfirst := congrFun h reg
    have hsecond := congrFun h (reg + 1)
    unfold afterBytes at hfirst hsecond
    rw [Function.update_of_ne (reg_ne_succ reg), Function.update_of_ne (reg_ne_succ reg),
      Function.update_self, Function.update_self] at hfirst
    rw [Function.update_self, Function.update_self] at hsecond
    exact ⟨hfirst, hsecond⟩
  · rintro ⟨rfl, rfl⟩
    rfl

/-! ## Where the two ways agree -/

/-- The two ways to access a two-byte register agree. -/
structure TwoWaysAgree : Prop where
  write : writeReg2 memoryBoard reg.toNat v m
    = writeMem memoryBoard reg.toNat (bytes16 (htons v)) m
  read : readReg2 memoryBoard reg.toNat m = (do
    let bs ← readMem memoryBoard reg.toNat 2
    pure (htons (word16 (bs.getD 0 0) (bs.getD 1 0)))) m
  back : ∃ m', (do
    writeReg2 memoryBoard reg.toNat v
    readReg2 memoryBoard reg.toNat) m = .ok (v, m')

/-- A word with two zero bytes is zero. -/
theorem eq_zero_of_bytes {v : BitVec 16} (hhigh : v.extractLsb' 8 8 = 0#8)
    (hlow : v.extractLsb' 0 8 = 0#8) : v = 0#16 := by
  rw [← word16_bytes v, hhigh, hlow]
  rfl

/-- **The two ways of writing agree** on zero only. -/
theorem write_agrees_iff :
    writeReg2 memoryBoard reg.toNat v m = writeMem memoryBoard reg.toNat (bytes16 (htons v)) m ↔
      v = 0#16 := by
  rw [writeReg2_eq, bytes16_htons, writeMem_memory, writeMem_memory]
  constructor
  · intro h
    injection h with h
    injection h with _ h
    obtain ⟨hhigh, hlow⟩ := (afterBytes_inj m reg).1 h
    exact eq_zero_of_bytes hhigh.symm hlow.symm
  · rintro rfl
    rfl

/-- The two ways of reading do where both bytes are zero. -/
theorem read_agrees_iff :
    readReg2 memoryBoard reg.toNat m = (do
        let bs ← readMem memoryBoard reg.toNat 2
        pure (htons (word16 (bs.getD 0 0) (bs.getD 1 0)))) m ↔
      m reg = 0#8 ∧ m (reg + 1) = 0#8 := by
  rw [readReg2_eq, bind_of_ok (readMem_memory m reg), bind_of_ok (readMem_memory m reg)]
  show Except.ok (m (reg + 1) ++ 0#8, m) = Except.ok (htons (word16 (m reg) (m (reg + 1))), m) ↔ _
  rw [htons_word16]
  constructor
  · intro h
    injection h with h
    injection h with h _
    -- the upper bytes are equal, and so are the lower ones
    have hhigh := congrArg (BitVec.extractLsb' 8 8) h
    have hlow := congrArg (BitVec.extractLsb' 0 8) h
    rw [BitVec.extractLsb'_append_eq_left, BitVec.extractLsb'_append_eq_left] at hhigh
    rw [BitVec.extractLsb'_append_eq_right, BitVec.extractLsb'_append_eq_right] at hlow
    rw [← hhigh, ← hlow]
    exact ⟨rfl, rfl⟩
  · rintro ⟨hfirst, hsecond⟩
    rw [hfirst, hsecond]

/-- What is written is read back when it is zero. -/
theorem back_agrees_iff :
    (∃ m', (do
        writeReg2 memoryBoard reg.toNat v
        readReg2 memoryBoard reg.toNat) m = .ok (v, m')) ↔ v = 0#16 := by
  rw [writeReg2_eq, readReg2_eq, bind_of_ok (writeMem_memory m reg 0#8 0#8),
    bind_of_ok (readMem_memory _ reg)]
  have hsecond : afterBytes m reg 0#8 0#8 (reg + 1) = 0#8 := Function.update_self ..
  show (∃ m', Except.ok (afterBytes m reg 0#8 0#8 (reg + 1) ++ 0#8, _) = Except.ok (v, m')) ↔ _
  rw [hsecond]
  constructor
  · rintro ⟨m', h⟩
    injection h with h
    injection h with h _
    exact h.symm
  · rintro rfl
    exact ⟨_, rfl⟩

/-! ### All three -/

/-- **The two ways agree for the value zero over two zero bytes only.** -/
theorem two_ways_agree_iff :
    TwoWaysAgree m reg v ↔ v = 0#16 ∧ m reg = 0#8 ∧ m (reg + 1) = 0#8 := by
  constructor
  · rintro ⟨hwrite, hread, -⟩
    exact ⟨(write_agrees_iff m reg v).1 hwrite, (read_agrees_iff m reg).1 hread⟩
  · rintro ⟨hzero, hbytes⟩
    exact ⟨(write_agrees_iff m reg v).2 hzero, (read_agrees_iff m reg).2 hbytes,
      (back_agrees_iff m reg v).2 hzero⟩

end Memory

/-- Port 80 to the source port register of the first socket: zeros are written, and a
register that holds the port reads as another number. -/
theorem two_ways_disagree_on_port :
    writeReg2 memoryBoard 0x0404 80#16 (fun _ => 0)
        = .ok ((), afterBytes (fun _ => 0) 0x0404 0#8 0#8) ∧
      writeMem memoryBoard 0x0404 (bytes16 (htons 80#16)) (fun _ => 0)
        = .ok ((), afterBytes (fun _ => 0) 0x0404 0#8 80#8) ∧
      readReg2 memoryBoard 0x0404 (afterBytes (fun _ => 0) 0x0404 0#8 80#8)
        = .ok (0x5000#16, afterBytes (fun _ => 0) 0x0404 0#8 80#8) ∧
      ¬ TwoWaysAgree (fun _ => 0) 0x0404 80#16 := by
  refine ⟨?_, ?_, ?_, fun h => ?_⟩
  · rw [writeReg2_eq]
    exact writeMem_memory (fun _ => 0) 0x0404 0#8 0#8
  · rw [bytes16_htons]
    exact writeMem_memory (fun _ => 0) 0x0404 0#8 80#8
  · rw [readReg2_eq]
    exact bind_of_ok (readMem_memory _ 0x0404)
  · have hzero := (write_agrees_iff _ _ _).1 h.write
    revert hzero
    decide

end W5100

end Nucleo
