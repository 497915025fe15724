/-
# The ports of the sockets

`get_avail_port` goes down from a port until it finds one that is in the `PORT` register of no
socket in use.  The registers are memory: they hold what was written to them last
(`PortsHold`).  Four sockets cannot take five ports, so the search ends after five rounds at
the latest, and what it returns is not zero.
-/
import Nucleo.Lib.Retry
import Nucleo.W5100Socket

namespace Nucleo

namespace W5100

open Comp

/-! ## The registers -/

section Registers

variable {χ : Type} (B : Board χ)

/-- The two bytes of the `PORT` register of a socket. -/
def Board.portBytes (c : χ) (i : Fin nSockets) : Byte × Byte :=
  ((B.read (sockRegGet regPORT i) c).1, (B.read (sockRegGet regPORT i + 1) c).1)

/-- The port in the register, as the source reads it. -/
def Board.portReg (c : χ) (i : Fin nSockets) : InPort :=
  word16 (B.portBytes c i).1 (B.portBytes c i).2

/-- The address is that of a byte of a `PORT` register. -/
def IsPortByte (a : ℕ) : Prop :=
  ∃ i, a = sockRegGet regPORT i ∨ a = sockRegGet regPORT i + 1

/-- Setting the bit `RST` of `MR` resets the chip, and these registers with it. -/
def Resets (a : ℕ) (v : Byte) : Prop := a = regMR ∧ v &&& 0x80 ≠ 0

/-- The `PORT` registers are memory: only writing to them, and a reset, changes them. -/
structure Board.PortsHold : Prop where
  read : ∀ a c, B.portBytes (B.read a c).2 = B.portBytes c
  clock : ∀ c, B.portBytes (B.clockGettime c).2 = B.portBytes c
  write : ∀ a v c, ¬ IsPortByte a → ¬ Resets a v → B.portBytes (B.write a v c) = B.portBytes c
  set : ∀ i v0 v1 c,
    B.portBytes (B.write (sockRegGet regPORT i + 1) v1 (B.write (sockRegGet regPORT i) v0 c))
      = Function.update (B.portBytes c) i (v0, v1)

/-- The bytes of a port lie within the address space. -/
theorem sockRegGet_regPORT_mod (i : Fin nSockets) (n : ℕ) (hn : n < 2) :
    (sockRegGet regPORT i + n) % 2 ^ 16 = sockRegGet regPORT i + n := by
  have hi : i.val < 4 := i.isLt
  unfold sockRegGet s0RegsOffset regPORT socketRegsSize
  exact Nat.mod_eq_of_lt (by omega)

/-- No other register of a socket is one of them. -/
theorem not_isPortByte_reg {r n : ℕ} (hr : r < regPORT ∧ n = 0 ∨ regPORT + 2 ≤ r)
    (hn : r + n < socketRegsSize) (j : Fin nSockets) :
    ¬ IsPortByte ((sockRegGet r j + n) % 2 ^ 16) := by
  rintro ⟨i, h⟩
  have hi : i.val < 4 := i.isLt
  have hj : j.val < 4 := j.isLt
  unfold regPORT at hr
  unfold sockRegGet s0RegsOffset regPORT at h
  unfold socketRegsSize at *
  rw [Nat.mod_eq_of_lt (by omega)] at h
  omega

/-- Memory is no register. -/
theorem not_isPortByte_mem {a : ℕ} (hlo : txMemBase ≤ a) (hhi : a < 2 ^ 16) :
    ¬ IsPortByte (a % 2 ^ 16) := by
  rintro ⟨i, h⟩
  have hi : i.val < 4 := i.isLt
  unfold sockRegGet s0RegsOffset regPORT socketRegsSize at h
  unfold txMemBase at hlo
  rw [Nat.mod_eq_of_lt hhi] at h
  omega

/-- The registers of a socket are not those of the chip. -/
theorem not_resets_of_register (k : Fin nSockets) (r m : ℕ) (v : Byte) :
    ¬ Resets (sockRegGet r k + m) v := by
  rintro ⟨h, -⟩
  unfold sockRegGet s0RegsOffset regMR at h
  omega

end Registers

/-! ## The search for a port -/

section Search

variable {χ φ : Type} {B : Board χ} (hB : B.PortsHold) {w : World χ φ}

variable (B) in
/-- A round of `get_avail_port`. -/
def tryPort (port : InPort) : Sys χ φ (InPort ⊕ InPort) := do
  if ← portUsed B port (List.finRange nSockets) then pure (.inl (port - 1))
  else pure (.inr port)

variable (B) in
/-- The port is in the register of a socket in use. -/
def taken (w : World χ φ) (l : List (Fin nSockets)) (port : InPort) : Bool :=
  l.any fun i => decide ((w.sockets i).state ≠ .none ∧ B.portReg w.chip i = port)

variable (B) in
/-- The ports in the registers of all sockets. -/
def portRegs (c : χ) : Finset InPort := Finset.univ.image (B.portReg c)

/-- The port that the search tries in its round `k`. -/
def candidatePort (k : ℕ) : InPort := htons 0x7FF0 - BitVec.ofNat 16 k

/-! ### Ports that are taken -/

/-- A port is free when no socket in use has it. -/
theorem taken_eq_false_iff {port : InPort} :
    taken B w (List.finRange nSockets) port = false ↔
      ∀ i, (w.sockets i).state ≠ .none → port ≠ B.portReg w.chip i := by
  unfold taken
  rw [List.any_eq_false]
  constructor
  · intro h i hst heq
    exact h i (List.mem_finRange i) (decide_eq_true ⟨hst, heq.symm⟩)
  · intro h i _ hdec
    obtain ⟨hst, heq⟩ := of_decide_eq_true hdec
    exact h i hst heq.symm

/-- A port that is taken is in a register. -/
theorem mem_portRegs_of_taken {port : InPort}
    (h : taken B w (List.finRange nSockets) port = true) : port ∈ portRegs B w.chip := by
  unfold taken at h
  obtain ⟨i, -, hi⟩ := List.any_eq_true.1 h
  exact Finset.mem_image.2 ⟨i, Finset.mem_univ i, (of_decide_eq_true hi).2⟩

/-- There are four at most. -/
theorem card_portRegs_le (c : χ) : (portRegs B c).card ≤ 4 :=
  Finset.card_image_le

/-! ### The candidates -/

/-- The candidates go down from the end of the range. -/
theorem toNat_candidatePort {k : ℕ} (hk : k ≤ 4) : (candidatePort k).toNat = 0xF07F - k := by
  have hstart : htons 0x7FF0 = 0xF07F#16 := by decide
  unfold candidatePort
  rw [hstart, BitVec.toNat_sub_of_le]
  · rw [BitVec.toNat_ofNat, BitVec.toNat_ofNat, Nat.mod_eq_of_lt (by omega), Nat.mod_eq_of_lt
      (by omega)]
  · rw [BitVec.le_def, BitVec.toNat_ofNat, BitVec.toNat_ofNat]
    omega

/-- None is zero. -/
theorem candidatePort_ne_zero {k : ℕ} (hk : k ≤ 4) : candidatePort k ≠ 0 := by
  intro h
  have hnat := congrArg BitVec.toNat h
  rw [toNat_candidatePort hk] at hnat
  have hzero : (0 : InPort).toNat = 0 := rfl
  omega

/-- No two are the same. -/
theorem candidatePort_injOn {n : ℕ} (hn : n ≤ 4) : Set.InjOn candidatePort (Set.Iic n) := by
  intro k hk l hl h
  have hnat := congrArg BitVec.toNat h
  rw [Set.mem_Iic] at hk hl
  rw [toNat_candidatePort (by omega), toNat_candidatePort (by omega)] at hnat
  omega

include hB

/-! ### The loop -/

/-- **The port of a socket is read**. -/
theorem readPortReg_eq (i : Fin nSockets) (c : χ) :
    ∃ c', readSockReg16 B regPORT i c = .ok (B.portReg c i, c') ∧
      B.portBytes c' = B.portBytes c := by
  have hfirst := sockRegGet_regPORT_mod i 0 (by decide)
  have hsecond := sockRegGet_regPORT_mod i 1 (by decide)
  rw [Nat.add_zero] at hfirst
  -- the second byte is read from a chip that has answered the first transaction
  have hbyte : (B.read (sockRegGet regPORT i + 1) (B.read (sockRegGet regPORT i) c).2).1
      = (B.portBytes c i).2 := congrArg (fun b => (b i).2) (hB.read (sockRegGet regPORT i) c)
  refine ⟨(B.read (sockRegGet regPORT i + 1) (B.read (sockRegGet regPORT i) c).2).2, ?_, ?_⟩
  · show Except.ok (word16 (B.read (sockRegGet regPORT i % 2 ^ 16) c).1
        (B.read ((sockRegGet regPORT i + 1) % 2 ^ 16)
          (B.read (sockRegGet regPORT i % 2 ^ 16) c).2).1,
      (B.read ((sockRegGet regPORT i + 1) % 2 ^ 16)
        (B.read (sockRegGet regPORT i % 2 ^ 16) c).2).2) = _
    rw [hfirst, hsecond, hbyte]
    rfl
  · rw [hB.read, hB.read]

/-- A pass over the sockets tells whether the port is taken. -/
theorem portUsed_eq (port : InPort) (l : List (Fin nSockets)) (w : World χ φ) :
    ∃ c, portUsed B port l w = .ok (taken B w l port, w.setChip c) ∧
      B.portBytes c = B.portBytes w.chip := by
  -- induction on the sockets that are left; reading a port register changes none of them
  induction l generalizing w with
  | nil => exact ⟨w.chip, rfl, rfl⟩
  | cons i l ih =>
      have hcons : taken B w (i :: l) port =
          (decide ((w.sockets i).state ≠ .none ∧ B.portReg w.chip i = port) || taken B w l port) :=
        rfl
      show ∃ c, (getSlot i >>= _) w = _ ∧ _
      by_cases hst : (w.sockets i).state ≠ .none
      · obtain ⟨c₁, hread, hkeep⟩ := readPortReg_eq hB i w.chip
        have hreg : ∀ j, B.portReg c₁ j = B.portReg w.chip j := by
          intro j
          unfold Board.portReg
          rw [hkeep]
        obtain ⟨c₂, hrest, hkeep₂⟩ := ih (w.setChip c₁)
        -- so the rest of the pass sees the registers of before
        have hsame : taken B (w.setChip c₁) l port = taken B w l port := by
          unfold taken
          simp only [World.setChip_sockets, World.setChip_chip, hreg]
        rw [hsame] at hrest
        have hchip : (onChip (readSockReg16 B regPORT i) : Sys χ φ InPort) w
            = .ok (B.portReg w.chip i, w.setChip c₁) := focus_of_ok hread
        by_cases hport : B.portReg w.chip i = port
        · refine ⟨c₁, ?_, hkeep⟩
          rw [hcons, decide_eq_true ⟨hst, hport⟩, Bool.true_or]
          show (if (w.sockets i).state ≠ .none then _ else _ : Sys χ φ Bool) w = _
          rw [if_pos hst, bind_of_ok hchip, if_pos hport]
          rfl
        · refine ⟨c₂, ?_, hkeep₂.trans hkeep⟩
          rw [hcons, decide_eq_false (fun h => hport h.2), Bool.false_or]
          show (if (w.sockets i).state ≠ .none then _ else _ : Sys χ φ Bool) w = _
          rw [if_pos hst, bind_of_ok hchip, if_neg hport, hrest]
          rfl
      · obtain ⟨c, hrest, hkeep⟩ := ih w
        refine ⟨c, ?_, hkeep⟩
        rw [hcons, decide_eq_false (fun h => hst h.1), Bool.false_or]
        show (if (w.sockets i).state ≠ .none then _ else _ : Sys χ φ Bool) w = _
        rw [if_neg hst, hrest]

omit hB in
/-- The next candidate is one less. -/
theorem candidatePort_succ (k : ℕ) : candidatePort (k + 1) = candidatePort k - 1 := by
  unfold candidatePort
  rw [BitVec.ofNat_add]
  exact sub_add_eq_sub_sub _ _ _

variable (B w) in
/-- What a round of `get_avail_port` has found. -/
abbrev portRound : ℕ → Option InPort :=
  Retry.offer (taken B w (List.finRange nSockets)) candidatePort

/-- The rounds of `get_avail_port` from number `k` on; the registers are the same in all of
them. -/
theorem searchFrom_eq (fuel k : ℕ) {c : χ} (hc : B.portBytes c = B.portBytes w.chip) :
    (∀ p, Retry.attempts (portRound B w) fuel k = some p →
      ∃ c', Comp.iter Stop.waiting (tryPort B) fuel (candidatePort k) (w.setChip c)
          = .ok (p, w.setChip c') ∧
        B.portBytes c' = B.portBytes w.chip) ∧
    (Retry.attempts (portRound B w) fuel k = none →
      Comp.iter Stop.waiting (tryPort B) fuel (candidatePort k) (w.setChip c)
        = .error Stop.waiting) := by
  induction fuel generalizing k c with
  | zero =>
      refine ⟨fun p h => ?_, fun _ => rfl⟩
      cases h
  | succ fuel ih =>
      obtain ⟨c₁, hpass, hkeep⟩ := portUsed_eq hB (candidatePort k) (List.finRange nSockets)
        (w.setChip c)
      have hreg : ∀ j, B.portReg c j = B.portReg w.chip j := by
        intro j
        unfold Board.portReg
        rw [hc]
      have hsame : taken B (w.setChip c) (List.finRange nSockets) (candidatePort k)
          = taken B w (List.finRange nSockets) (candidatePort k) := by
        unfold taken
        simp only [World.setChip_sockets, World.setChip_chip, hreg]
      rw [hsame] at hpass
      have hc₁ : B.portBytes c₁ = B.portBytes w.chip := hkeep.trans hc
      cases htaken : taken B w (List.finRange nSockets) (candidatePort k) with
      | true =>
          -- the next round looks for the port below
          rw [htaken] at hpass
          have hround : tryPort B (candidatePort k) (w.setChip c)
              = .ok (.inl (candidatePort (k + 1)), w.setChip c₁) := by
            unfold tryPort
            rw [bind_of_ok hpass, candidatePort_succ]
            rfl
          rw [Retry.attempts_succ_of_none (Retry.offer_of_taken htaken), iter_succ_of_inl hround]
          exact ih (k + 1) hc₁
      | false =>
          rw [htaken] at hpass
          have hround : tryPort B (candidatePort k) (w.setChip c)
              = .ok (.inr (candidatePort k), w.setChip c₁) := by
            unfold tryPort
            rw [bind_of_ok hpass, if_neg Bool.false_ne_true]
            rfl
          rw [Retry.attempts_succ_of_some (Retry.offer_eq_some_iff.2 ⟨htaken, rfl⟩),
            iter_succ_of_inr hround]
          refine ⟨fun p h => ⟨c₁, ?_, hc₁⟩, fun h => ?_⟩
          · obtain rfl := Option.some.inj h
            rfl
          · cases h

/-! ### It finds one -/

variable (B w) in
/-- A port that a socket may be bound to. -/
structure FreePort (port : InPort) : Prop where
  ne_zero : port ≠ 0
  free : ∀ i, (w.sockets i).state ≠ .none → port ≠ B.portReg w.chip i

omit hB in
/-- Four sockets cannot take five ports. -/
theorem exists_portRound : ∃ k ≤ 4, Retry.FirstAt (portRound B w) k (candidatePort k) := by
  have hcard := card_portRegs_le (B := B) w.chip
  obtain ⟨k, hk, hfirst⟩ := Retry.exists_firstAt_offer
    (fun p => mem_portRegs_of_taken (B := B) (w := w)) (candidatePort_injOn hcard)
  exact ⟨k, hk.trans hcard, hfirst⟩

omit hB in
/-- The first free candidate is free. -/
theorem freePort_of_firstAt {k : ℕ} {port : InPort}
    (h : Retry.FirstAt (portRound B w) k port) : FreePort B w port := by
  obtain ⟨j, hj, hfirst⟩ := exists_portRound (B := B) (w := w)
  obtain ⟨-, hport⟩ := hfirst.unique h
  have hfree := (Retry.offer_eq_some_iff.1 h.result).1
  refine ⟨?_, taken_eq_false_iff.1 hfree⟩
  rw [← hport]
  exact candidatePort_ne_zero hj

variable (w) in
/-- **`get_avail_port` returns**, whatever the registers and the states of the sockets are: a
port that is not zero and in the register of no socket in use. -/
theorem getAvailPort_returns {fuel : ℕ} (hfuel : 5 ≤ fuel) :
    ∃ port c, getAvailPort B fuel w = .ok (port, w.setChip c) ∧ FreePort B w port := by
  obtain ⟨k, hk, hfirst⟩ := exists_portRound (B := B) (w := w)
  have hfound := Retry.attempts_eq_some_iff.2 ⟨k, show k < fuel by omega, hfirst⟩
  obtain ⟨c, hret, -⟩ := (searchFrom_eq hB fuel 0 rfl).1 _ hfound
  exact ⟨candidatePort k, c, hret, freePort_of_firstAt hfirst⟩

/-- With less patience it returns such a port, if it returns. -/
theorem post_getAvailPort (fuel : ℕ) :
    Post (getAvailPort B fuel) (fun port w' => ∃ c, w' = w.setChip c ∧
      B.portBytes c = B.portBytes w.chip ∧ FreePort B w port) w := by
  intro port w' hret
  cases hfound : Retry.attempts (portRound B w) fuel 0 with
  | none =>
      have hwait := (searchFrom_eq hB fuel 0 rfl).2 hfound
      exact absurd (hret.symm.trans hwait) (by simp)
  | some p =>
      obtain ⟨c, hret', hkeep⟩ := (searchFrom_eq hB fuel 0 rfl).1 p hfound
      obtain ⟨k, -, hfirst⟩ := Retry.attempts_eq_some_iff.1 hfound
      have heq := Except.ok.inj (hret.symm.trans hret')
      cases heq
      exact ⟨c, rfl, hkeep, freePort_of_firstAt hfirst⟩

end Search

end W5100

end Nucleo
