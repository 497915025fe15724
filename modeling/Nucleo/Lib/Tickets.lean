/-
# Wrapping tickets

A counter of `w` bits hands out tickets and wraps.  Two tickets are compared by
the sign of their difference, which is the comparison of the unbounded counts
as long as these are less than half the period apart.

`scanBest` is the loop that goes once over a list of cells and keeps the best
candidate seen so far; `kept_scanBest` says what the cell it keeps has over the
other candidates.
-/
import Mathlib

namespace Tickets

/-! ## Comparison by signed difference -/

/-- Ticket `a` was handed out before ticket `b`: their difference is negative. -/
def before {w : ℕ} (a b : BitVec w) : Bool := decide ((a - b).toInt < 0)

/-- The signed difference of two tickets is the difference of their counts. -/
theorem toInt_sub_ofNat {w m n : ℕ} (hw : 0 < w) (hmn : m < n + 2 ^ (w - 1))
    (hnm : n < m + 2 ^ (w - 1)) :
    (BitVec.ofNat w m - BitVec.ofNat w n).toInt = (m : ℤ) - n := by
  have hpow : (2 : ℤ) ^ w = 2 * 2 ^ (w - 1) := by
    rw [← pow_succ', Nat.sub_add_cancel hw]
  have hm : (m : ℤ) < n + 2 ^ (w - 1) := by exact_mod_cast hmn
  have hn : (n : ℤ) < m + 2 ^ (w - 1) := by exact_mod_cast hnm
  rw [BitVec.toInt_sub, BitVec.toInt_ofNat', BitVec.toInt_ofNat', ← Int.sub_bmod]
  apply Int.bmod_eq_of_le_mul_two
  · push_cast
    rw [hpow]
    linarith
  · push_cast
    rw [hpow]
    linarith

/-- **Serial comparison.**  Tickets less than half a period apart compare like
the counts they stand for. -/
theorem before_ofNat {w m n : ℕ} (hw : 0 < w) (hmn : m < n + 2 ^ (w - 1))
    (hnm : n < m + 2 ^ (w - 1)) :
    before (BitVec.ofNat w m) (BitVec.ofNat w n) = decide (m < n) := by
  unfold before
  rw [toInt_sub_ofNat hw hmn hnm]
  congr 1
  rw [eq_iff_iff]
  omega

/-! ## One pass for the best candidate -/

section Scan

variable {ι : Type*} (cand : ι → Bool) (better : ι → ι → Bool)

/-- One round of the pass: a candidate replaces the cell kept so far when there
is none yet or when it is better. -/
def scanStep (kept : Option ι) (i : ι) : Option ι :=
  if cand i then
    match kept with
    | none => some i
    | some j => if better i j then some i else some j
  else kept

/-- The cell that one pass over `l` keeps. -/
def scanBest (l : List ι) : Option ι := l.foldl (scanStep cand better) none

variable {cand better}

/-- What the pass has established after the cells `l`: nothing kept means no
candidate, and a kept cell is a candidate that stands in `R` to every other. -/
def Kept (cand : ι → Bool) (R : ι → ι → Prop) (l : List ι) : Option ι → Prop
  | none => ∀ j ∈ l, cand j = false
  | some i => i ∈ l ∧ cand i = true ∧ ∀ j ∈ l, cand j = true → R i j

/-! ### What the pass keeps -/

theorem kept_scanStep {R : ι → ι → Prop} (hrefl : ∀ i, R i i)
    (htake : ∀ i j k, cand i = true → cand j = true → better i j = true → R j k → R i k)
    (hkeep : ∀ i j, cand i = true → cand j = true → better i j = false → R j i)
    {l : List ι} {kept : Option ι} (h : Kept cand R l kept) (i : ι) :
    Kept cand R (l ++ [i]) (scanStep cand better kept i) := by
  unfold scanStep
  by_cases hi : cand i = true
  · rw [if_pos hi]
    rcases kept with _ | j
    · refine ⟨by simp, hi, ?_⟩
      intro j hj hcj
      rcases List.mem_append.mp hj with hj | hj
      · rw [h j hj] at hcj
        simp at hcj
      · rw [List.mem_singleton.mp hj]
        exact hrefl i
    · obtain ⟨hjl, hcj, hR⟩ := h
      cases hb : better i j with
      | true =>
          simp only [hb, if_true]
          refine ⟨by simp, hi, ?_⟩
          intro k hk hck
          rcases List.mem_append.mp hk with hk | hk
          · exact htake i j k hi hcj hb (hR k hk hck)
          · rw [List.mem_singleton.mp hk]
            exact hrefl i
      | false =>
          simp only [hb, Bool.false_eq_true, if_false]
          refine ⟨by simp [hjl], hcj, ?_⟩
          intro k hk hck
          rcases List.mem_append.mp hk with hk | hk
          · exact hR k hk hck
          · rw [List.mem_singleton.mp hk]
            exact hkeep i j hi hcj hb
  · rw [if_neg hi]
    rcases kept with _ | j
    · intro j hj
      rcases List.mem_append.mp hj with hj | hj
      · exact h j hj
      · rw [List.mem_singleton.mp hj]
        simpa using hi
    · obtain ⟨hjl, hcj, hR⟩ := h
      refine ⟨by simp [hjl], hcj, ?_⟩
      intro k hk hck
      rcases List.mem_append.mp hk with hk | hk
      · exact hR k hk hck
      · rw [List.mem_singleton.mp hk] at hck
        exact absurd hck hi

/-- The whole pass keeps a cell that stands in `R` to every candidate. -/
theorem kept_scanBest {R : ι → ι → Prop} (hrefl : ∀ i, R i i)
    (htake : ∀ i j k, cand i = true → cand j = true → better i j = true → R j k → R i k)
    (hkeep : ∀ i j, cand i = true → cand j = true → better i j = false → R j i)
    (l : List ι) : Kept cand R l (scanBest cand better l) := by
  induction l using List.reverseRecOn with
  | nil => intro j hj; simp at hj
  | append_singleton l i ih =>
      unfold scanBest at ih ⊢
      rw [List.foldl_append, List.foldl_cons, List.foldl_nil]
      exact kept_scanStep hrefl htake hkeep ih i

/-- Whatever better means, the pass keeps a candidate when there is one. -/
theorem kept_scanBest_any (l : List ι) :
    Kept cand (fun _ _ => True) l (scanBest cand better l) :=
  kept_scanBest (fun _ => trivial) (fun _ _ _ _ _ _ _ => trivial) (fun _ _ _ _ _ => trivial) l

/-- The pass keeps a least candidate, when better means a smaller key on the
candidates. -/
theorem kept_scanBest_key {key : ι → ℕ}
    (hkey : ∀ i j, cand i = true → cand j = true → better i j = decide (key i < key j))
    (l : List ι) : Kept cand (fun i j => key i ≤ key j) l (scanBest cand better l) := by
  apply kept_scanBest
  · intro i
    exact le_refl _
  · intro i j k hi hj hb hjk
    rw [hkey i j hi hj, decide_eq_true_eq] at hb
    omega
  · intro i j hi hj hb
    rw [hkey i j hi hj, decide_eq_false_iff_not] at hb
    omega

end Scan

end Tickets
