/-
# Words, byte order and Internet addresses

The target is little-endian.  Addresses and ports are kept in network byte order, as
the source keeps them: a word of type `InAddr` or `InPort` is what the processor sees
after copying the bytes of a message into it.
-/
import Nucleo.Lib.Memory
import Nucleo.Posix

namespace Nucleo

/-- A byte. -/
abbrev Byte := BitVec 8

/-- `in_addr_t`, in network byte order as the source keeps it. -/
abbrev InAddr := BitVec 32

/-- `in_port_t`, in network byte order. -/
abbrev InPort := BitVec 16

/-- `INADDR_ANY`. -/
def inaddrAny : InAddr := 0
/-- `INADDR_BROADCAST`. -/
def inaddrBroadcast : InAddr := 0xFFFFFFFF

/-- `sa_family_t`: the families that the source tells apart. -/
inductive Family
  | unspec | inet | other
  deriving DecidableEq, Repr

/-- `struct sockaddr_in`. -/
structure SockaddrIn where
  sinFamily : Family
  sinPort : InPort
  sinAddr : InAddr
  deriving DecidableEq, Repr

/-- `sizeof(struct sockaddr_in)`: four bytes of family, two of port, two to align the address, and
its four. -/
def sockaddrInSize : ℕ := 12

/-! ## Words in memory -/

/-- `memcpy` of four bytes into a word of the little-endian target. -/
def load32 (m : ℕ → Byte) (p : ℕ) : BitVec 32 := m (p + 3) ++ m (p + 2) ++ m (p + 1) ++ m p

/-- The four bytes of a word, lowest address first. -/
def bytes32 (v : BitVec 32) : List Byte :=
  [v.extractLsb' 0 8, v.extractLsb' 8 8, v.extractLsb' 16 8, v.extractLsb' 24 8]

/-- `htonl`, which is also `ntohl`. -/
def htonl (v : BitVec 32) : BitVec 32 :=
  v.extractLsb' 0 8 ++ v.extractLsb' 8 8 ++ v.extractLsb' 16 8 ++ v.extractLsb' 24 8

/-- A word has four bytes. -/
@[simp] theorem length_bytes32 (v : BitVec 32) : (bytes32 v).length = 4 := rfl

/-- A word depends on its four bytes. -/
theorem load32_congr {m m' : ℕ → Byte} {p q : ℕ}
    (h : Memory.read m p 4 = Memory.read m' q 4) : load32 m p = load32 m' q := by
  simp only [Memory.read_succ, Memory.read_zero, List.cons.injEq, and_true] at h
  obtain ⟨h0, h1, h2, h3⟩ := h
  unfold load32
  rw [h0, h1, h2, h3]

/-- **A word that is stored is loaded**. -/
theorem load32_write (m : ℕ → Byte) (p : ℕ) (v : BitVec 32) :
    load32 (Memory.write m p (bytes32 v)) p = v := by
  have h := Memory.read_write m p (bytes32 v)
  simp only [bytes32, List.length_cons, List.length_nil, Memory.read_succ, Memory.read_zero,
    List.cons.injEq, and_true, Nat.zero_add] at h
  obtain ⟨h0, h1, h2, h3⟩ := h
  unfold load32 bytes32
  rw [h0, h1, h2, h3]
  ext i hi
  simp only [BitVec.getElem_append, BitVec.getElem_extractLsb']
  rw [← BitVec.getLsbD_eq_getElem hi]
  split_ifs <;> congr 1 <;> omega

/-- A word elsewhere is as before. -/
theorem load32_write_of_disjoint (m : ℕ → Byte) {p q : ℕ} {l : List Byte}
    (h : q + 4 ≤ p ∨ p + l.length ≤ q) : load32 (Memory.write m p l) q = load32 m q :=
  load32_congr (Memory.read_write_of_disjoint m h)

theorem bytes32_append (b3 b2 b1 b0 : Byte) : bytes32 (b3 ++ b2 ++ b1 ++ b0) = [b0, b1, b2, b3] := by
  have h0 : (b3 ++ b2 ++ b1 ++ b0).extractLsb' 0 8 = b0 := by
    ext i hi
    simp only [BitVec.getElem_extractLsb', BitVec.getLsbD_append]
    rw [if_pos (by omega), Nat.zero_add, BitVec.getLsbD_eq_getElem hi]
  have h1 : (b3 ++ b2 ++ b1 ++ b0).extractLsb' 8 8 = b1 := by
    ext i hi
    simp only [BitVec.getElem_extractLsb', BitVec.getLsbD_append]
    rw [if_neg (by omega), if_pos (by omega), Nat.add_sub_cancel_left,
      BitVec.getLsbD_eq_getElem hi]
  have h2 : (b3 ++ b2 ++ b1 ++ b0).extractLsb' 16 8 = b2 := by
    ext i hi
    simp only [BitVec.getElem_extractLsb', BitVec.getLsbD_append]
    rw [if_neg (by omega), if_neg (by omega), if_pos (by omega),
      show 16 + i - 8 - 8 = i by omega, BitVec.getLsbD_eq_getElem hi]
  have h3 : (b3 ++ b2 ++ b1 ++ b0).extractLsb' 24 8 = b3 := by
    ext i hi
    simp only [BitVec.getElem_extractLsb', BitVec.getLsbD_append]
    rw [if_neg (by omega), if_neg (by omega), if_neg (by omega),
      show 24 + i - 8 - 8 - 8 = i by omega, BitVec.getLsbD_eq_getElem hi]
  unfold bytes32
  rw [h0, h1, h2, h3]

/-- A word has the bytes that it was loaded from. -/
theorem bytes32_load32 (m : ℕ → Byte) (p : ℕ) : bytes32 (load32 m p) = Memory.read m p 4 :=
  bytes32_append _ _ _ _

/-! ## Words of sixteen bits -/

/-- The two bytes of a half word, lowest address first. -/
def bytes16 (v : BitVec 16) : List Byte := [v.extractLsb' 0 8, v.extractLsb' 8 8]

/-- The half word in the two bytes, lowest address first. -/
def word16 (b0 b1 : Byte) : BitVec 16 := b1 ++ b0

/-- `htons`, which is also `ntohs`. -/
def htons (v : BitVec 16) : BitVec 16 := v.extractLsb' 0 8 ++ v.extractLsb' 8 8

/-- A half word is made of its bytes. -/
theorem word16_bytes (v : BitVec 16) : word16 (v.extractLsb' 0 8) (v.extractLsb' 8 8) = v := by
  apply BitVec.eq_of_toNat_eq
  have hv := v.isLt
  unfold word16
  rw [BitVec.toNat_append, ← Nat.shiftLeft_add_eq_or_of_lt (BitVec.isLt _), Nat.shiftLeft_eq,
    BitVec.extractLsb'_toNat, BitVec.extractLsb'_toNat, Nat.shiftRight_zero,
    Nat.shiftRight_eq_div_pow]
  omega

/-- Two bytes received are read with the first one at the top. -/
theorem htons_word16 (b0 b1 : Byte) : htons (word16 b0 b1) = b0 ++ b1 := by
  unfold htons word16
  ext i hi
  simp only [BitVec.getElem_append, BitVec.getElem_extractLsb', BitVec.getLsbD_append]
  split_ifs <;> (simp_all; try omega)

/-- The first byte of the network is the high one. -/
@[simp] theorem toNat_htons_word16 (b0 b1 : Byte) :
    (htons (word16 b0 b1)).toNat = b0.toNat * 256 + b1.toNat := by
  rw [htons_word16, BitVec.toNat_append, ← Nat.shiftLeft_add_eq_or_of_lt b1.isLt, Nat.shiftLeft_eq]

theorem bytes16_htons (v : BitVec 16) :
    bytes16 (htons v) = [v.extractLsb' 8 8, v.extractLsb' 0 8] := by
  unfold bytes16 htons
  rw [List.cons.injEq, List.cons.injEq]
  refine ⟨?_, ?_, rfl⟩
  · ext i hi
    simp only [BitVec.getElem_extractLsb', BitVec.getLsbD_append]
    simp [hi]
  · ext i hi
    simp only [BitVec.getElem_extractLsb', BitVec.getLsbD_append]
    simp [hi]

end Nucleo
