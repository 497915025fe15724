/-
# Stores of numbered blocks

A store gives the contents of every block.  A transfer moves blocks one after the other, from
`start` on, until all `n` are moved or one of them fails: `StopsAt` says at which one, and
`Stored` what a transfer to the store leaves behind.
-/
import Mathlib

namespace BlockStore

/-! ## Where a transfer stops -/

/-- The first `m` of `n` blocks are moved: all of them, or those up to the first failure. -/
structure StopsAt (ok : ℕ → Prop) (n m : ℕ) : Prop where
  le : m ≤ n
  moved : ∀ j, j < m → ok j
  failed : m < n → ¬ ok m

section StopsAt

variable {ok : ℕ → Prop} {n m : ℕ}

theorem stopsAt_zero (ok : ℕ → Prop) : StopsAt ok 0 0 :=
  ⟨le_refl 0, fun j hj => absurd hj (Nat.not_lt_zero j), fun h => absurd h (Nat.lt_irrefl 0)⟩

/-- The first block fails. -/
theorem stopsAt_of_not (h : ¬ ok 0) (n : ℕ) : StopsAt ok (n + 1) 0 :=
  ⟨Nat.zero_le _, fun j hj => absurd hj (Nat.not_lt_zero j), fun _ => h⟩

/-- The first block is moved, and then the others. -/
theorem StopsAt.cons {ok' : ℕ → Prop} (h0 : ok 0) (h : StopsAt ok' n m)
    (hok : ∀ j, ok' j ↔ ok (j + 1)) : StopsAt ok (n + 1) (m + 1) where
  le := Nat.succ_le_succ h.le
  moved j hj := by
    cases j with
    | zero => exact h0
    | succ j => exact (hok j).1 (h.moved j (Nat.lt_of_succ_lt_succ hj))
  failed hlt hm := h.failed (Nat.lt_of_succ_lt_succ hlt) ((hok m).2 hm)

/-- All blocks are moved exactly when each of them can be. -/
theorem StopsAt.all_iff (h : StopsAt ok n m) : m = n ↔ ∀ j, j < n → ok j := by
  constructor
  · rintro rfl
    exact h.moved
  · intro hall
    by_contra hne
    have hlt : m < n := lt_of_le_of_ne h.le hne
    exact h.failed hlt (hall m hlt)

end StopsAt

/-! ## What a transfer to the store leaves behind -/

section Stored

variable {β : Type*}

/-- `mem'` has the first `m` of `n` blocks of `data` from `start` on.  The block that failed,
if one did, may hold anything; no other block has changed. -/
structure Stored (mem mem' : ℕ → β) (start : ℕ) (data : ℕ → β) (n m : ℕ) : Prop where
  moved : ∀ j, j < m → mem' (start + j) = data j
  kept : ∀ i, i < start ∨ start + m < i ∨ m = n ∧ start + n ≤ i → mem' i = mem i

variable {mem mem₁ mem' : ℕ → β} {start n m : ℕ} {data : ℕ → β}

theorem stored_zero (mem : ℕ → β) (start : ℕ) (data : ℕ → β) : Stored mem mem start data 0 0 :=
  ⟨fun j hj => absurd hj (Nat.not_lt_zero j), fun _ _ => rfl⟩

/-- The first block fails. -/
theorem stored_of_failed (h : ∀ i, i ≠ start → mem' i = mem i) (data : ℕ → β) (n : ℕ) :
    Stored mem mem' start data (n + 1) 0 := by
  refine ⟨fun j hj => absurd hj (Nat.not_lt_zero j), fun i hi => h i ?_⟩
  rcases hi with hi | hi | ⟨hi, -⟩
  · exact ne_of_lt hi
  · exact ne_of_gt hi
  · exact absurd hi (Nat.succ_ne_zero n).symm

/-- The first block is moved, and then the others. -/
theorem Stored.cons (h0 : mem₁ start = data 0) (hne : ∀ i, i ≠ start → mem₁ i = mem i)
    (h : Stored mem₁ mem' (start + 1) (fun j => data (j + 1)) n m) :
    Stored mem mem' start data (n + 1) (m + 1) where
  moved j hj := by
    cases j with
    | zero => exact (h.kept start (.inl (Nat.lt_succ_self start))).trans h0
    | succ j =>
        have hj := h.moved j (Nat.lt_of_succ_lt_succ hj)
        rw [Nat.add_right_comm] at hj
        exact hj
  kept i hi := by
    have hout : i ≠ start ∧
        (i < start + 1 ∨ start + 1 + m < i ∨ m = n ∧ start + 1 + n ≤ i) := by omega
    exact (h.kept i hout.2).trans (hne i hout.1)

/-- No block outside the range of the transfer changes. -/
theorem Stored.outside (h : Stored mem mem' start data n m) (hle : m ≤ n) {i : ℕ}
    (hi : i < start ∨ start + n ≤ i) : mem' i = mem i := by
  apply h.kept
  omega

/-! ## Reading back -/

/-- The contents of `n` blocks from `start` on. -/
def blocks (mem : ℕ → β) (start n : ℕ) : List β := (List.range n).map fun j => mem (start + j)

theorem blocks_succ (mem : ℕ → β) (start n : ℕ) :
    blocks mem start (n + 1) = mem start :: blocks mem (start + 1) n := by
  unfold blocks
  rw [List.range_succ_eq_map, List.map_cons, List.map_map]
  refine congrArg _ (List.map_congr_left fun j _ => ?_)
  show mem (start + (j + 1)) = mem (start + 1 + j)
  rw [Nat.add_assoc, Nat.add_comm 1 j]

/-- After a complete transfer the store gives the data back. -/
theorem Stored.blocks_eq (h : Stored mem mem' start data n n) :
    blocks mem' start n = (List.range n).map data :=
  List.map_congr_left fun j hj => h.moved j (List.mem_range.1 hj)

end Stored

/-! ## What is known of a store -/

section Known

variable {β : Type*}

/-- The blocks whose contents are known are as they are known to be. -/
def Known (known : ℕ → Option β) (mem : ℕ → β) : Prop := ∀ i b, known i = some b → mem i = b

/-- What is known after a transfer to the store of `n` blocks from `start` on: a complete one
tells all of them, and nothing is known of them after one that has failed. -/
def knownAfter (start n : ℕ) (data : ℕ → β) (complete : Prop) [Decidable complete]
    (known : ℕ → Option β) (i : ℕ) : Option β :=
  if start ≤ i ∧ i < start + n then if complete then some (data (i - start)) else none
  else known i

variable {mem mem' : ℕ → β} {start n m : ℕ} {data : ℕ → β} {known : ℕ → Option β}

theorem Known.stored (h : Known known mem) (hs : Stored mem mem' start data n m) (hle : m ≤ n)
    {complete : Prop} [Decidable complete] (hc : complete → m = n) :
    Known (knownAfter start n data complete known) mem' := by
  intro i b hb
  unfold knownAfter at hb
  split_ifs at hb with hin hcomplete
  · cases hb
    have hmoved := hs.moved (i - start) (by rw [hc hcomplete]; omega)
    rw [Nat.add_sub_of_le hin.1] at hmoved
    exact hmoved
  · rw [hs.outside hle (by omega)]
    exact h i b hb

/-- A transfer that has failed without touching the store. -/
theorem Known.refused (h : Known known mem) {complete : Prop} [Decidable complete]
    (hc : ¬ complete) : Known (knownAfter start n data complete known) mem := by
  intro i b hb
  unfold knownAfter at hb
  rw [if_neg hc] at hb
  split_ifs at hb with hin
  exact h i b hb

/-- Reading blocks that are known. -/
theorem Known.blocks_getElem (h : Known known mem) {j : ℕ} (hj : j < (blocks mem start n).length)
    {b : β} (hb : known (start + j) = some b) : (blocks mem start n)[j] = b := by
  have hget : (blocks mem start n)[j] = mem (start + j) := by
    simp [blocks]
  rw [hget]
  exact h _ b hb

theorem length_blocks (mem : ℕ → β) (start n : ℕ) : (blocks mem start n).length = n := by
  unfold blocks
  rw [List.length_map, List.length_range]

end Known

end BlockStore
