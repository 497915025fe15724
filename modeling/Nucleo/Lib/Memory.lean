/-
# Flat memory

A memory is a function from addresses to cells.  `read` takes a run of cells out
as a list, `write` stores a list as a run of cells.  Reads over a write are
either the list that was written (`read_write`) or what was there before
(`read_write_of_disjoint`), and adjacent reads compose (`read_add`).  For a buffer
that is filled in any order by writes that do not overlap, `read_writes` gives what
was written at each place.
-/
import Mathlib

namespace Memory

variable {α : Type*}

/-- The `n` cells from `p` on. -/
def read (m : ℕ → α) (p n : ℕ) : List α := (List.range n).map fun k => m (p + k)

/-- Store `l` from `p` on. -/
def write (m : ℕ → α) (p : ℕ) (l : List α) : ℕ → α := fun i =>
  if p ≤ i then (l[i - p]?).getD (m i) else m i

/-! ## Reading -/

/-- As many elements are read as are asked for. -/
@[simp] theorem length_read (m : ℕ → α) (p n : ℕ) : (read m p n).length = n := by
  simp [read]

@[simp] theorem read_zero (m : ℕ → α) (p : ℕ) : read m p 0 = [] := rfl

/-- The first element is read, then the others. -/
theorem read_succ (m : ℕ → α) (p n : ℕ) : read m p (n + 1) = m p :: read m (p + 1) n := by
  unfold read
  rw [List.range_succ_eq_map, List.map_cons, List.map_map, Nat.add_zero]
  congr 1
  apply List.map_congr_left
  intro k _
  show m (p + (k + 1)) = m (p + 1 + k)
  congr 1
  omega

/-- A read can be cut in two. -/
theorem read_add (m : ℕ → α) (p n k : ℕ) :
    read m p (n + k) = read m p n ++ read m (p + n) k := by
  unfold read
  rw [List.range_add, List.map_append, List.map_map]
  congr 1
  apply List.map_congr_left
  intro i _
  show m (p + (n + i)) = m (p + n + i)
  congr 1
  omega

/-- An element that is read. -/
theorem getElem?_read (m : ℕ → α) {p n i : ℕ} (h : i < n) : (read m p n)[i]? = some (m (p + i)) := by
  unfold read
  rw [List.getElem?_map, List.getElem?_range h]
  rfl

/-- The front of what is read. -/
theorem take_read (m : ℕ → α) (p : ℕ) {k n : ℕ} (h : k ≤ n) :
    (read m p n).take k = read m p k := by
  obtain ⟨j, rfl⟩ := Nat.exists_eq_add_of_le h
  rw [read_add, List.take_left' (length_read m p k)]

/-- The back of what is read. -/
theorem drop_read (m : ℕ → α) (p : ℕ) {k n : ℕ} (h : k ≤ n) :
    (read m p n).drop k = read m (p + k) (n - k) := by
  obtain ⟨j, rfl⟩ := Nat.exists_eq_add_of_le h
  rw [read_add, List.drop_left' (length_read m p k), Nat.add_sub_cancel_left]

/-- What is read depends on that place only. -/
theorem read_congr {m m' : ℕ → α} {p n : ℕ} (h : ∀ i, p ≤ i → i < p + n → m i = m' i) :
    read m p n = read m' p n := by
  unfold read
  apply List.map_congr_left
  intro k hk
  have hlt := List.mem_range.mp hk
  exact h (p + k) (by omega) (by omega)

/-! ## Writing -/

/-- A write leaves what is in front of it. -/
theorem write_of_lt {m : ℕ → α} {p i : ℕ} (l : List α) (h : i < p) : write m p l i = m i := by
  unfold write
  rw [if_neg (by omega)]

/-- It leaves what is behind it. -/
theorem write_of_le {m : ℕ → α} {p i : ℕ} {l : List α} (h : p + l.length ≤ i) :
    write m p l i = m i := by
  unfold write
  rw [if_pos (by omega), List.getElem?_eq_none (by omega)]
  rfl

/-- **What is written is read back**. -/
theorem read_write (m : ℕ → α) (p : ℕ) (l : List α) : read (write m p l) p l.length = l := by
  apply List.ext_getElem?
  intro i
  by_cases hi : i < l.length
  · rw [getElem?_read _ hi]
    unfold write
    rw [if_pos (by omega), Nat.add_sub_cancel_left, List.getElem?_eq_getElem hi]
    rfl
  · rw [List.getElem?_eq_none (by rw [length_read]; omega), List.getElem?_eq_none (by omega)]

/-- A read elsewhere is as before. -/
theorem read_write_of_disjoint (m : ℕ → α) {p q n : ℕ} {l : List α}
    (h : q + n ≤ p ∨ p + l.length ≤ q) : read (write m p l) q n = read m q n := by
  apply read_congr
  intro i hlo hhi
  rcases h with h | h
  · exact write_of_lt l (by omega)
  · exact write_of_le (by omega)

/-- Writing nothing changes nothing. -/
@[simp] theorem write_nil (m : ℕ → α) (p : ℕ) : write m p [] = m := by
  funext i
  unfold write
  split_ifs <;> rfl

/-- Two adjacent writes are one. -/
theorem write_write (m : ℕ → α) (p : ℕ) (l l' : List α) :
    write (write m p l) (p + l.length) l' = write m p (l ++ l') := by
  funext i
  unfold write
  by_cases hp : p ≤ i
  · by_cases hl : p + l.length ≤ i
    · rw [if_pos hl, if_pos hp, if_pos hp, List.getElem?_append_right (by omega),
        List.getElem?_eq_none (show l.length ≤ i - p by omega), Nat.sub_sub]
      rfl
    · rw [if_neg hl, if_pos hp, if_pos hp, List.getElem?_append_left (by omega)]
  · rw [if_neg (by omega), if_neg hp, if_neg hp]

/-- Writing one element. -/
theorem write_singleton (m : ℕ → α) (p : ℕ) (b : α) : write m p [b] = Function.update m p b := by
  funext i
  rcases Nat.lt_trichotomy i p with h | h | h
  · rw [write_of_lt _ h, Function.update_of_ne (by omega)]
  · subst h
    rw [Function.update_self]
    unfold write
    rw [if_pos le_rfl, Nat.sub_self]
    rfl
  · rw [write_of_le (by simpa using h), Function.update_of_ne (by omega)]

/-- Writing the first element and then the others. -/
theorem write_cons (m : ℕ → α) (p : ℕ) (b : α) (l : List α) :
    write m p (b :: l) = write (Function.update m p b) (p + 1) l := by
  rw [← write_singleton]
  exact (write_write m p [b] l).symm

/-- A list of cells seen as a memory. -/
theorem read_getD (l : List α) (z : α) {p n : ℕ} (h : p + n ≤ l.length) :
    read (fun i => l.getD i z) p n = (l.drop p).take n := by
  apply List.ext_getElem?
  intro i
  by_cases hi : i < n
  · rw [getElem?_read _ hi, List.getElem?_take_of_lt hi, List.getElem?_drop,
      List.getElem?_eq_getElem (by omega), List.getD_eq_getElem _ _ (by omega)]
  · rw [List.getElem?_eq_none (by rw [length_read]; omega),
      List.getElem?_eq_none (by rw [List.length_take]; omega)]

/-! ## Several writes -/

/-- Store lists at places, one after the other. -/
def writes (m : ℕ → α) (ws : List (ℕ × List α)) : ℕ → α :=
  ws.foldl (fun m w => write m w.1 w.2) m

/-- Two places, each a start and a length, have no cell in common. -/
def Apart (a b : ℕ × ℕ) : Prop := a.1 + a.2 ≤ b.1 ∨ b.1 + b.2 ≤ a.1

instance : DecidableRel Apart := fun a b =>
  inferInstanceAs (Decidable (a.1 + a.2 ≤ b.1 ∨ b.1 + b.2 ≤ a.1))

/-- The place that a write fills. -/
def place (w : ℕ × List α) : ℕ × ℕ := (w.1, w.2.length)

/-- A read apart from all the writes is as before. -/
theorem read_writes_of_apart {m : ℕ → α} {ws : List (ℕ × List α)} {p n : ℕ}
    (h : ∀ w ∈ ws, Apart (p, n) (place w)) : read (writes m ws) p n = read m p n := by
  induction ws generalizing m with
  | nil => rfl
  | cons w ws ih =>
      obtain ⟨hw, hws⟩ := List.forall_mem_cons.1 h
      exact (ih hws).trans (read_write_of_disjoint m hw)

/-- **Writes to places that are apart** do not disturb each other. -/
theorem read_writes {m : ℕ → α} {ws : List (ℕ × List α)}
    (h : (ws.map place).Pairwise Apart) {p : ℕ} {l : List α} (hl : (p, l) ∈ ws) :
    read (writes m ws) p l.length = l := by
  induction ws generalizing m with
  | nil => cases hl
  | cons w ws ih =>
      obtain ⟨hw, hws⟩ := List.pairwise_cons.1 h
      rcases List.mem_cons.1 hl with rfl | hl
      · have hrest : ∀ w ∈ ws, Apart (p, l.length) (place w) := fun w hmem =>
          hw _ (List.mem_map_of_mem hmem)
        exact (read_writes_of_apart hrest).trans (read_write m p l)
      · exact ih hws hl

/-- Where lists stand that follow each other from `p` on. -/
def laid : ℕ → List (List α) → List (ℕ × List α)
  | _, [] => []
  | p, l :: ls => (p, l) :: laid (p + l.length) ls

/-- Pieces laid one behind the other are read in one. -/
theorem read_laid {m : ℕ → α} {p : ℕ} {ls : List (List α)}
    (h : ∀ w ∈ laid p ls, read m w.1 w.2.length = w.2) :
    read m p ls.flatten.length = ls.flatten := by
  induction ls generalizing p with
  | nil => rfl
  | cons l ls ih =>
      obtain ⟨hl, hls⟩ := List.forall_mem_cons.1 h
      rw [List.flatten_cons, List.length_append, read_add, hl, ih hls]

end Memory
