/-
# A chip that stands still

Between two calls no event need come from the chip: no peer sends or connects, and nothing is
transmitted.  On such a board reading a register or the clock changes no register, and a
command is taken at once (`StandsStill`); what else a write does is left open.

A computation that only looks at the chip then returns what the registers hold (`Looks`), and
looking again gives the same.  Every register the driver waits for has been read before, so
`read_buf`, `write_buf` and a datagram return without waiting.
-/
import Nucleo.W5100Errors

namespace Nucleo

namespace W5100

open Comp

section Registers

variable {χ : Type} (B : Board χ)

/-! ## Registers -/

/-- What the register at the address holds. -/
def Board.reg (c : χ) (a : ℕ) : Byte := (B.read (a % 2 ^ 16) c).1

/-- The value of a two-byte register of a socket. -/
def Board.reg16 (c : χ) (snReg : ℕ) (i : Fin nSockets) : BitVec 16 :=
  htons (word16 (B.reg c (sockRegGet snReg i)) (B.reg c (sockRegGet snReg i + 1)))

/-- The status register. -/
def Board.sr (c : χ) (i : Fin nSockets) : Byte := B.reg c (sockRegGet regSR i)

/-- The number of bytes received, `RX_RSR`. -/
def Board.rxRsr (c : χ) (i : Fin nSockets) : ℕ := (B.reg16 c regRXRSR i).toNat

/-- The free room for transmission, `TX_FSR`. -/
def Board.txFsr (c : χ) (i : Fin nSockets) : ℕ := (B.reg16 c regTXFSR i).toNat

/-- The chip after the registers at the addresses have been read. -/
def Board.afterReads (as : List ℕ) (c : χ) : χ :=
  as.foldl (fun c a => (B.read (a % 2 ^ 16) c).2) c

/-- All registers hold the same. -/
def SameRegs (c c' : χ) : Prop := ∀ a, (B.read a c').1 = (B.read a c).1

/-- Looking at the chip changes no register, and a command is taken at once. -/
structure Board.StandsStill : Prop where
  read : ∀ a c, SameRegs B c (B.read a c).2
  clock : ∀ c, SameRegs B c (B.clockGettime c).2
  takes : ∀ i cmd c, B.reg (B.write (sockRegGet regCR i) cmd c) (sockRegGet regCR i) = 0

variable {B} {c c' c'' : χ}

theorem SameRegs.refl : SameRegs B c c := fun _ => rfl

theorem SameRegs.trans (h : SameRegs B c c') (h' : SameRegs B c' c'') : SameRegs B c c'' :=
  fun a => (h' a).trans (h a)

/-- A register is the same. -/
theorem SameRegs.reg (h : SameRegs B c c') (a : ℕ) : B.reg c' a = B.reg c a := h _

theorem SameRegs.reg16 (h : SameRegs B c c') (r : ℕ) (i : Fin nSockets) :
    B.reg16 c' r i = B.reg16 c r i := by
  unfold Board.reg16
  rw [h.reg, h.reg]

theorem SameRegs.sr (h : SameRegs B c c') (i : Fin nSockets) : B.sr c' i = B.sr c i := h.reg _

theorem SameRegs.rxRsr (h : SameRegs B c c') (i : Fin nSockets) :
    B.rxRsr c' i = B.rxRsr c i := congrArg BitVec.toNat (h.reg16 _ i)

theorem SameRegs.txFsr (h : SameRegs B c c') (i : Fin nSockets) :
    B.txFsr c' i = B.txFsr c i := congrArg BitVec.toNat (h.reg16 _ i)

/-- A size is a number of sixteen bits. -/
theorem toNat_le_of_size (c : χ) (i : Fin nSockets) : B.rxRsr c i < 2 ^ 16 := BitVec.isLt _

/-! ## Looking at the chip -/

variable (B) in
/-- The computation returns `a` and changes no register. -/
def Looks {α : Type} (x : Comp χ Stop α) (c : χ) (a : α) : Prop :=
  ∃ c', x c = .ok (a, c') ∧ SameRegs B c c'

/-- **The rule for a sequence of looks**. -/
theorem Looks.bind {α β : Type} {x : Comp χ Stop α} {f : α → Comp χ Stop β} {a : α} {b : β}
    (hx : Looks B x c a) (hf : ∀ c', SameRegs B c c' → Looks B (f a) c' b) :
    Looks B (x >>= f) c b := by
  obtain ⟨c₁, hret, h₁⟩ := hx
  obtain ⟨c₂, hret', h₂⟩ := hf c₁ h₁
  refine ⟨c₂, ?_, h₁.trans h₂⟩
  rw [bind_of_ok hret]
  exact hret'

theorem looks_pure {α : Type} (a : α) : Looks B (pure a) c a := ⟨c, rfl, .refl⟩

namespace Board.StandsStill

variable (h : B.StandsStill)

include h

/-- Reading a byte is a look at that register. -/
theorem looks_readByte (a : ℕ) : Looks B (readByte B a) c (B.reg c a) := ⟨_, rfl, h.read _ _⟩

/-- The status is looked at. -/
theorem looks_readSr (i : Fin nSockets) : Looks B (readSockReg B regSR i) c (B.sr c i) :=
  h.looks_readByte _

theorem looks_readMem (a n : ℕ) :
    Looks B (readMem B a n) c ((List.range' a n).map (B.reg c)) := by
  induction n generalizing a c with
  | zero => exact looks_pure _
  | succ n ih =>
      refine (h.looks_readByte a).bind fun c₁ h₁ => ?_
      have hregs : B.reg c₁ = B.reg c := funext h₁.reg
      refine (ih (a + 1)).bind fun c₂ _ => ?_
      rw [hregs]
      exact looks_pure _

theorem looks_readSockReg16 (r : ℕ) (i : Fin nSockets) :
    Looks B (readSockReg16 B r i) c
      (word16 (B.reg c (sockRegGet r i)) (B.reg c (sockRegGet r i + 1))) :=
  (h.looks_readMem _ 2).bind fun _ _ => looks_pure _

theorem looks_readBufLen (i : Fin nSockets) :
    Looks B (readBufLen B i) c (B.reg16 c regRXRSR i) :=
  (h.looks_readSockReg16 _ i).bind fun _ _ => looks_pure _

/-- `read_buf_len` reads both bytes of `RX_RSR`. -/
theorem readBufLen_eq (i : Fin nSockets) (c : χ) :
    readBufLen B i c = .ok (B.reg16 c regRXRSR i,
      B.afterReads [sockRegGet regRXRSR i, sockRegGet regRXRSR i + 1] c) := by
  obtain ⟨v, hv⟩ : ∃ v, readBufLen B i c = .ok (v,
    B.afterReads [sockRegGet regRXRSR i, sockRegGet regRXRSR i + 1] c) := ⟨_, rfl⟩
  obtain ⟨c', hret, -⟩ := h.looks_readBufLen i (c := c)
  rw [hv] at hret
  cases hret
  exact hv

/-- Reading changes no register of a board that stands still. -/
theorem sameRegs_afterReads (as : List ℕ) (c : χ) : SameRegs B c (B.afterReads as c) := by
  induction as generalizing c with
  | nil => exact .refl
  | cons a as ih => exact (h.read _ c).trans (ih _)

theorem looks_writeBufLen (i : Fin nSockets) :
    Looks B (writeBufLen B i) c (B.reg16 c regTXFSR i) :=
  (h.looks_readSockReg16 _ i).bind fun _ _ => looks_pure _

/-! ## Commands and copies -/

/-- A command is taken at once. -/
theorem returns_command (fuel : ℕ) (i : Fin nSockets) (cmd : Byte) (c : χ) :
    Returns (command B (fuel + 1) i cmd) c := by
  have hcr := sockRegGet_lt i (show regCR < socketRegsSize by decide)
  have hmod : sockRegGet regCR i % 2 ^ 16 = sockRegGet regCR i := Nat.mod_eq_of_lt (by omega)
  have hzero : B.reg (B.write (sockRegGet regCR i % 2 ^ 16) cmd c) (sockRegGet regCR i) = 0 := by
    rw [hmod]
    exact h.takes i cmd c
  have hread : Returns (readUntil B (fuel + 1) regCR i fun v => v = 0)
      (B.write (sockRegGet regCR i % 2 ^ 16) cmd c) := by
    obtain ⟨c₁, hret, -⟩ := h.looks_readByte (sockRegGet regCR i)
      (c := B.write (sockRegGet regCR i % 2 ^ 16) cmd c)
    refine ⟨0, c₁, iter_succ_of_inr ?_ fuel⟩
    unfold readSockReg
    rw [bind_of_ok hret, hzero]
    rfl
  refine Returns.bind (x := writeSockReg B regCR i cmd) ⟨_, _, rfl⟩ fun _ c₁ heq => ?_
  cases heq
  exact Returns.bind hread fun _ _ _ => returns_pure

/-- Taking data returns. -/
theorem returns_readBufRecv (fuel : ℕ) (i : Fin nSockets) (p : BitVec 16) (c : χ) :
    Returns (readBufRecv B (fuel + 1) i p) c :=
  Returns.bind (returns_writeMem _ _ _ _) fun _ c₁ _ => h.returns_command fuel i cmdRecv c₁

theorem returns_recvDatagram (fuel : ℕ) (i : Fin nSockets) (wantAddr : Bool) (c : χ) :
    Returns (recvDatagram B (fuel + 1) i wantAddr) c := by
  refine Returns.bind (returns_readReg16 B regRXRD i c) fun pread c₁ _ => ?_
  refine Returns.bind (returns_readBufSure B i 8 pread c₁) fun header c₂ _ => ?_
  refine Returns.bind (returns_readBufSure B i _ _ c₂) fun bytes c₃ _ => ?_
  exact Returns.bind (h.returns_readBufRecv fuel i _ c₃) fun _ _ _ => returns_pure

/-! ### Data and room -/

/-- `read_buf` of received bytes takes some of them. -/
theorem readBuf_of_received (fuel : ℕ) {i : Fin nSockets} {len : ℕ} (hlen : 0 < len)
    (hrx : 0 < B.rxRsr c i) :
    ∃ bytes n c', readBuf B (fuel + 1) i len c = .ok ((bytes, n), c') ∧ 0 < n ∧
      bytes.length = n := by
  obtain ⟨c₁, hsize, -⟩ := h.looks_readBufLen i (c := c)
  have hne : B.reg16 c regRXRSR i ≠ 0 := fun h0 => by
    unfold Board.rxRsr at hrx
    rw [h0] at hrx
    exact absurd hrx (lt_irrefl 0)
  generalize hn : (if len > B.rxRsr c i then B.rxRsr c i else len) = n
  have hpos : 0 < n ∧ n < 2 ^ 16 := by
    have hword := toNat_le_of_size c i (B := B)
    rw [← hn]
    split_ifs <;> omega
  obtain ⟨r, c₄, hret⟩ : Returns (readBuf B (fuel + 1) i len) c := by
    unfold Returns readBuf
    rw [bind_of_ok hsize, if_pos hne]
    refine Returns.bind (returns_readReg16 B regRXRD i c₁) fun pread c₂ _ => ?_
    refine Returns.bind (returns_readBufSure B i _ pread c₂) fun bytes c₃ _ => ?_
    exact Returns.bind (h.returns_readBufRecv fuel i _ c₃) fun _ _ _ => returns_pure
  have hstored : r.1.length = r.2 := post_readBuf_stored B (fuel + 1) i len c r c₄ hret
  have hcount : Post (readBuf B (fuel + 1) i len) (fun r _ => r.2 = n) c := by
    unfold readBuf
    rw [post_bind_of_ok hsize, if_pos hne, post_bind]
    intro pread c₂ _
    rw [post_bind]
    intro r c₃ _
    rw [post_bind]
    intro _ c₅ _
    refine post_pure.2 ?_
    show (if len > B.rxRsr c i then B.rxRsr c i else len) % 2 ^ 16 = n
    rw [hn, Nat.mod_eq_of_lt hpos.2]
  obtain ⟨bytes, k⟩ := r
  have hk : k = n := hcount _ _ hret
  subst hk
  exact ⟨bytes, k, c₄, hret, hpos.1, hstored⟩

/-- `read_buf` looks only where nothing is received. -/
theorem readBuf_of_empty {i : Fin nSockets} (hrx : B.rxRsr c i = 0) (fuel len : ℕ) :
    readBuf B fuel i len c = .ok (([], 0),
      B.afterReads [sockRegGet regRXRSR i, sockRegGet regRXRSR i + 1] c) := by
  have hzero : B.reg16 c regRXRSR i = 0 := BitVec.eq_of_toNat_eq hrx
  unfold readBuf
  rw [bind_of_ok (h.readBufLen_eq i c), hzero, if_neg (not_not.2 rfl)]
  rfl

/-- `write_buf` writes as many bytes as there is room for. -/
theorem writeBuf_of_room (fuel : ℕ) {i : Fin nSockets} (buf : List Byte)
    (htx : 0 < B.txFsr c i) :
    ∃ c', writeBuf B (fuel + 1) i buf c = .ok (min buf.length (B.txFsr c i), c') := by
  obtain ⟨c₁, hroom, -⟩ := h.looks_writeBufLen i (c := c)
  have hpos : (B.reg16 c regTXFSR i).toNat > 0 := htx
  generalize hn : (if buf.length > B.txFsr c i then B.txFsr c i else buf.length) = n
  have hmin : n = min buf.length (B.txFsr c i) ∧ n < 2 ^ 16 := by
    have hword : B.txFsr c i < 2 ^ 16 := BitVec.isLt _
    rw [← hn]
    split_ifs <;> omega
  -- that it returns is one thing
  obtain ⟨k, c₅, hret⟩ : Returns (writeBuf B (fuel + 1) i buf) c := by
    unfold Returns writeBuf
    rw [bind_of_ok hroom, if_pos hpos]
    refine Returns.bind (returns_readReg16 B regTXWR i c₁) fun p c₂ _ => ?_
    refine Returns.bind ?_ fun p' c₃ _ => ?_
    · rw [writeBufSure_eq]
      refine Returns.bind (returns_writeMem _ _ _ _) fun _ c₃ _ => ?_
      exact Returns.bind (returns_writeMem _ _ _ _) fun _ _ _ => returns_pure
    · refine Returns.bind ?_ fun _ _ _ => returns_pure
      exact Returns.bind (returns_writeMem _ _ _ _) fun _ c₄ _ =>
        h.returns_command fuel i cmdSend c₄
  -- and the number it returns is another: the room read first decides it
  have hcount : Post (writeBuf B (fuel + 1) i buf) (fun k _ => k = n) c := by
    unfold writeBuf
    rw [post_bind_of_ok hroom, if_pos hpos, post_bind]
    intro p c₂ _
    rw [post_bind]
    intro p' c₃ _
    rw [post_bind]
    intro _ c₄ _
    refine post_pure.2 ?_
    show (if buf.length > B.txFsr c i then B.txFsr c i else buf.length) % 2 ^ 16 = n
    rw [hn, Nat.mod_eq_of_lt hmin.2]
  have hk : k = n := hcount _ _ hret
  rw [hk, hmin.1] at hret
  exact ⟨c₅, hret⟩

end Board.StandsStill

end Registers

end W5100

end Nucleo
