/-
# Rings of cells

A ring of `N` cells lies in a memory from `base` on.  Positions are free-running: the
cell of position `p` is `base + p % N`.  `cells` takes a run of positions out as a list
and `store` puts a list in: what is stored reads back (`cells_store_self`), other cells keep
their contents (`store_of_ne`), and moving the read position takes cells from the front
(`cells_add`).
-/
import Nucleo.Lib.Memory

namespace Ring

variable {α : Type*}

/-- The cells of the `n` positions from `p` on. -/
def cells (m : ℕ → α) (base N p n : ℕ) : List α :=
  (List.range n).map fun k => m (base + (p + k) % N)

/-- Store `l` from the position `p` on.  The cells behind position `p` come first, then
those before it. -/
def store (m : ℕ → α) (base N p : ℕ) (l : List α) : ℕ → α := fun a =>
  if base + p % N ≤ a ∧ a < base + N then (l[a - (base + p % N)]?).getD (m a)
  else if base ≤ a ∧ a < base + p % N then (l[a - base + (N - p % N)]?).getD (m a)
  else m a

/-- Where the position `k` behind `p` lies, without a division. -/
theorem add_mod_eq {N p k : ℕ} (hk : k < N) :
    (p + k) % N = if p % N + k < N then p % N + k else p % N + k - N := by
  have hp : p % N < N := Nat.mod_lt _ (by omega)
  rw [Nat.add_mod, Nat.mod_eq_of_lt hk]
  split_ifs with h
  · exact Nat.mod_eq_of_lt h
  · rw [Nat.mod_eq_sub_mod (by omega)]
    exact Nat.mod_eq_of_lt (by omega)

section Cells

variable (m : ℕ → α) (base N : ℕ)

@[simp] theorem length_cells (p n : ℕ) : (cells m base N p n).length = n := by
  simp [cells]

@[simp] theorem cells_zero (p : ℕ) : cells m base N p 0 = [] := rfl

theorem cells_add (p n k : ℕ) :
    cells m base N p (n + k) = cells m base N p n ++ cells m base N (p + n) k := by
  unfold cells
  rw [List.range_add, List.map_append, List.map_map]
  congr 1
  apply List.map_congr_left
  intro j _
  show m (base + (p + (n + j)) % N) = m (base + (p + n + j) % N)
  rw [Nat.add_assoc]

/-- Positions count modulo any multiple of the size. -/
theorem cells_mod {M : ℕ} (hdvd : N ∣ M) (p n : ℕ) :
    cells m base N (p % M) n = cells m base N p n := by
  unfold cells
  apply List.map_congr_left
  intro k _
  rw [Nat.add_mod, Nat.mod_mod_of_dvd p hdvd, ← Nat.add_mod]

theorem cells_congr {m m' : ℕ → α} {base N p n : ℕ}
    (h : ∀ k < n, m (base + (p + k) % N) = m' (base + (p + k) % N)) :
    cells m base N p n = cells m' base N p n := by
  unfold cells
  apply List.map_congr_left
  intro k hk
  exact h k (List.mem_range.1 hk)

/-! ## Cells that do not wrap -/

/-- Positions that do not reach the end of the ring are one run of cells. -/
theorem cells_eq_read {m : ℕ → α} {base N p n : ℕ} (hfit : p % N + n ≤ N) :
    cells m base N p n = Memory.read m (base + p % N) n := by
  unfold cells Memory.read
  apply List.map_congr_left
  intro k hk
  have hlt := List.mem_range.1 hk
  rw [add_mod_eq (by omega), if_pos (by omega), Nat.add_assoc]

/-- Positions beyond the end are two runs of cells. -/
theorem cells_eq_read_append {m : ℕ → α} {base N p n : ℕ} (hN : 0 < N) (hn : n ≤ N)
    (hwrap : N < p % N + n) :
    cells m base N p n =
      Memory.read m (base + p % N) (N - p % N) ++ Memory.read m base (n - (N - p % N)) := by
  have hp : p % N < N := Nat.mod_lt _ hN
  have hsplit : n = (N - p % N) + (n - (N - p % N)) := by omega
  have hstart : (p + (N - p % N)) % N = 0 := by
    rw [add_mod_eq (by omega), if_neg (by omega)]
    omega
  have hfirst : p % N + (N - p % N) ≤ N := by omega
  have hsecond : (p + (N - p % N)) % N + (n - (N - p % N)) ≤ N := by
    rw [hstart]
    omega
  conv_lhs => rw [hsplit]
  rw [cells_add, cells_eq_read hfirst, cells_eq_read hsecond, hstart, Nat.add_zero]

end Cells

section Store

variable {m : ℕ → α} {base N p : ℕ} {l : List α}

/-! ## Storing -/

/-- The cells that were stored. -/
theorem store_apply {k : ℕ} (hl : l.length ≤ N) (hk : k < l.length) :
    store m base N p l (base + (p + k) % N) = l[k] := by
  have hp : p % N < N := Nat.mod_lt _ (by omega)
  rw [add_mod_eq (by omega)]
  unfold store
  split_ifs with h h1 h2 h3 h4
  · rw [show base + (p % N + k) - (base + p % N) = k by omega, List.getElem?_eq_getElem hk]
    rfl
  · omega
  · omega
  · omega
  · rw [show base + (p % N + k - N) - base + (N - p % N) = k by omega,
      List.getElem?_eq_getElem hk]
    rfl
  · omega

/-- Every other cell, of the ring or not, is as before. -/
theorem store_of_ne {a : ℕ} (hN : 0 < N) (hl : l.length ≤ N)
    (ha : ∀ k < l.length, a ≠ base + (p + k) % N) : store m base N p l a = m a := by
  have hp : p % N < N := Nat.mod_lt _ hN
  unfold store
  split_ifs with h1 h2
  · rw [List.getElem?_eq_none]
    · rfl
    · by_contra hlt
      have hne := ha (a - (base + p % N)) (by omega)
      rw [add_mod_eq (by omega), if_pos (by omega)] at hne
      omega
  · rw [List.getElem?_eq_none]
    · rfl
    · by_contra hlt
      have hne := ha (a - base + (N - p % N)) (by omega)
      rw [add_mod_eq (by omega), if_neg (by omega)] at hne
      omega
  · rfl

/-- Outside the ring nothing changes. -/
theorem store_of_outside {a : ℕ} (hN : 0 < N) (ha : a < base ∨ base + N ≤ a) :
    store m base N p l a = m a := by
  have hp : p % N < N := Nat.mod_lt _ hN
  unfold store
  rw [if_neg (by omega), if_neg (by omega)]

/-- Two runs of less than `N` positions in all have no cell in common. -/
theorem add_mod_ne {n j k : ℕ} (hj : j < n) (hnk : n + k < N) : (p + j) % N ≠ (p + n + k) % N := by
  rw [Nat.add_assoc, add_mod_eq (by omega), add_mod_eq hnk]
  split_ifs <;> omega

theorem cells_store_self (hl : l.length ≤ N) :
    cells (store m base N p l) base N p l.length = l := by
  apply List.ext_getElem
  · simp
  · intro k hk _
    rw [length_cells] at hk
    simp only [cells, List.getElem_map, List.getElem_range]
    exact store_apply hl hk

/-- A list that does not reach the end of the ring is one run of cells. -/
theorem store_eq_write (hN : 0 < N) (hfit : p % N + l.length ≤ N) :
    store m base N p l = Memory.write m (base + p % N) l := by
  have hp : p % N < N := Nat.mod_lt _ hN
  funext a
  unfold store Memory.write
  by_cases h1 : base + p % N ≤ a
  · by_cases h2 : a < base + N
    · rw [if_pos ⟨h1, h2⟩, if_pos h1]
    · rw [if_neg (by omega), if_neg (by omega), if_pos h1, List.getElem?_eq_none (by omega)]
      rfl
  · rw [if_neg (by omega), if_neg h1]
    split_ifs with h3
    · rw [List.getElem?_eq_none (by omega)]
      rfl
    · rfl

/-- A list that reaches beyond the end is two runs of cells. -/
theorem store_eq_write_write (hN : 0 < N) (hl : l.length ≤ N) (hwrap : N < p % N + l.length) :
    store m base N p l =
      Memory.write (Memory.write m (base + p % N) (l.take (N - p % N))) base
        (l.drop (N - p % N)) := by
  have hp : p % N < N := Nat.mod_lt _ hN
  funext a
  unfold store Memory.write
  by_cases h1 : base ≤ a
  · rw [if_pos h1, List.getElem?_drop]
    by_cases h2 : base + p % N ≤ a
    · rw [if_pos h2, List.getElem?_eq_none (i := N - p % N + (a - base)) (by omega)]
      by_cases h3 : a < base + N
      · rw [if_pos ⟨h2, h3⟩, List.getElem?_take_of_lt (by omega)]
        rfl
      · rw [if_neg (by omega), if_neg (by omega),
          List.getElem?_eq_none (by rw [List.length_take]; omega)]
        rfl
    · rw [if_neg (by omega), if_neg h2, if_pos (by omega), Nat.add_comm (a - base)]
  · rw [if_neg h1, if_neg (by omega), if_neg (by omega), if_neg (by omega)]

end Store

end Ring
