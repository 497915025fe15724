/-
# Sets of numbers as words of bits

A set of small numbers kept in an array of words: the number `i` is bit `i % w` of word
`i / w`.  `bit` reads the set off the words; the lemmas say what masking one word with one
bit does to it, and that the bits determine the words.
-/
import Mathlib

namespace BitWords

variable {n w : ℕ}

/-- The bit of the number `i`; numbers behind the last word are not in the set. -/
def bit (s : Fin n → BitVec w) (i : ℕ) : Bool :=
  if h : i / w < n then (s ⟨i / w, h⟩).getLsbD (i % w) else false

/-- Bit `b` of word `k`. -/
theorem bit_index (s : Fin n → BitVec w) (k : Fin n) {b : ℕ} (hb : b < w) :
    bit s (k.val * w + b) = (s k).getLsbD b := by
  have hdiv : (k.val * w + b) / w = k.val := by
    rw [Nat.add_comm, Nat.add_mul_div_right _ _ (by omega), Nat.div_eq_of_lt hb, Nat.zero_add]
  have hmod : (k.val * w + b) % w = b := by
    rw [Nat.add_comm, Nat.add_mul_mod_self_right, Nat.mod_eq_of_lt hb]
  unfold bit
  rw [dif_pos (by rw [hdiv]; exact k.isLt), hmod]
  congr 2
  exact Fin.ext hdiv

/-- The words are determined by the bits. -/
theorem ext_bit {s t : Fin n → BitVec w} (h : ∀ i, bit s i = bit t i) : s = t := by
  funext k
  apply BitVec.eq_of_getLsbD_eq
  intro b hb
  rw [← bit_index s k hb, ← bit_index t k hb, h]

/-- A bit other than those of word `k` after an update of word `k`. -/
theorem bit_update_of_ne (s : Fin n → BitVec w) {k : Fin n} (x : BitVec w) {i : ℕ}
    (h : i / w ≠ k.val) : bit (Function.update s k x) i = bit s i := by
  unfold bit
  by_cases hi : i / w < n
  · rw [dif_pos hi, dif_pos hi, Function.update_of_ne]
    exact fun heq => h (congrArg Fin.val heq)
  · rw [dif_neg hi, dif_neg hi]

section Mask

variable (s : Fin n → BitVec w) (k : Fin n) {b : ℕ} (hb : b < w)

include hb

theorem getLsbD_one_shiftLeft (j : ℕ) : (1#w <<< b).getLsbD j = decide (j = b) := by
  rw [← BitVec.twoPow_eq, BitVec.getLsbD_twoPow, decide_eq_true hb, Bool.true_and]
  exact decide_eq_decide.2 eq_comm

/-- Testing one bit. -/
theorem and_shiftLeft_ne_zero : s k &&& 1#w <<< b ≠ 0#w ↔ bit s (k.val * w + b) = true := by
  rw [bit_index s k hb]
  constructor
  · intro h
    by_contra hbit
    apply h
    apply BitVec.eq_of_getLsbD_eq
    intro j _
    rw [BitVec.getLsbD_and, getLsbD_one_shiftLeft hb, BitVec.getLsbD_zero]
    by_cases hj : j = b
    · rw [hj, Bool.eq_false_iff.2 hbit, Bool.false_and]
    · rw [decide_eq_false hj, Bool.and_false]
  · intro hbit h
    have hzero := congrArg (fun x => x.getLsbD b) h
    rw [BitVec.getLsbD_and, getLsbD_one_shiftLeft hb, hbit, decide_eq_true rfl,
      BitVec.getLsbD_zero] at hzero
    cases hzero

/-- An update of word `k` that acts on its bits. -/
theorem bit_update {x : BitVec w} {f : Bool → Bool → Bool} (hf : ∀ a, f a false = a)
    (hx : ∀ j, j < w → x.getLsbD j = f ((s k).getLsbD j) (decide (j = b))) (i : ℕ) :
    bit (Function.update s k x) i = f (bit s i) (decide (i = k.val * w + b)) := by
  have hpos : 0 < w := by omega
  by_cases hi : i / w = k.val
  · have hsplit : i = k.val * w + i % w := by
      rw [← hi]
      exact (Nat.div_add_mod' i w).symm
    have hlt : i % w < w := Nat.mod_lt i hpos
    rw [hsplit, bit_index _ k hlt, bit_index _ k hlt, Function.update_self, hx _ hlt]
    congr 1
    exact decide_eq_decide.2 (Nat.add_left_cancel_iff).symm
  · have hne : i ≠ k.val * w + b := by
      rintro rfl
      apply hi
      rw [Nat.add_comm, Nat.add_mul_div_right _ _ hpos, Nat.div_eq_of_lt hb, Nat.zero_add]
    rw [bit_update_of_ne s x hi, decide_eq_false hne, hf]

/-- **Clearing one bit.** -/
theorem bit_clear (i : ℕ) :
    bit (Function.update s k (s k &&& ~~~(1#w <<< b))) i
      = (bit s i && !decide (i = k.val * w + b)) := by
  refine bit_update s k hb (f := fun a c => a && !c) (fun a => by simp) (fun j hj => ?_) i
  rw [BitVec.getLsbD_and, BitVec.getLsbD_not, getLsbD_one_shiftLeft hb, decide_eq_true hj,
    Bool.true_and]

/-- **Setting one bit.** -/
theorem bit_insert (i : ℕ) :
    bit (Function.update s k (s k ||| 1#w <<< b)) i = (bit s i || decide (i = k.val * w + b)) := by
  refine bit_update s k hb (f := fun a c => a || c) (fun a => by simp) (fun j _ => ?_) i
  rw [BitVec.getLsbD_or, getLsbD_one_shiftLeft hb]

end Mask

end BitWords
