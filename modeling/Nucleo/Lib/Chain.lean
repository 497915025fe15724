/-
# Singly linked lists

Cells on a heap, each with a value and the address of the next one.  `Linked` says which
addresses and values a pointer leads to.

A list is built at its end (`Builder.insert`) with one pointer to the first cell and one
to the last, and given back cell by cell (`release`).  `Built.insert` says that building
appends; `release_of_linked` says that exactly the cells that the pointer leads to are
given back, so a pointer that has been moved forward leaves the cells behind it allocated.
-/
import Mathlib

namespace Chain

variable {α : Type*}

/-- A cell of a list. -/
structure Cell (α : Type*) where
  value : α
  next : Option ℕ

/-- The allocated cells, and the address that is allocated next. -/
structure Heap (α : Type*) where
  cells : ℕ → Option (Cell α)
  fresh : ℕ

/-- Allocate a cell that has no next one. -/
def Heap.alloc (h : Heap α) (x : α) : Heap α where
  cells := Function.update h.cells h.fresh (some ⟨x, none⟩)
  fresh := h.fresh + 1

/-- Store the pointer to the next cell. -/
def Heap.setNext (h : Heap α) (a : ℕ) (next : Option ℕ) : Heap α where
  cells := Function.update h.cells a ((h.cells a).map fun c => ⟨c.value, next⟩)
  fresh := h.fresh

/-- Give a cell back. -/
def Heap.free (h : Heap α) (a : ℕ) : Heap α where
  cells := Function.update h.cells a none
  fresh := h.fresh

section Cells

variable (h : Heap α) {a b : ℕ}

/-- A new cell is last. -/
theorem Heap.alloc_fresh (x : α) : (h.alloc x).cells h.fresh = some ⟨x, none⟩ :=
  Function.update_self _ _ _

/-- The others are as they were. -/
theorem Heap.alloc_of_lt (x : α) (hlt : b < h.fresh) : (h.alloc x).cells b = h.cells b :=
  Function.update_of_ne (Nat.ne_of_lt hlt) _ _

/-- A cell gets a successor. -/
theorem Heap.setNext_self (next : Option ℕ) :
    (h.setNext a next).cells a = (h.cells a).map fun c => ⟨c.value, next⟩ :=
  Function.update_self _ _ _

/-- The others keep theirs. -/
theorem Heap.setNext_of_ne (next : Option ℕ) (hne : b ≠ a) :
    (h.setNext a next).cells b = h.cells b :=
  Function.update_of_ne hne _ _

/-- A cell that is given back is gone. -/
theorem Heap.free_self : (h.free a).cells a = none := Function.update_self _ _ _

/-- The others are as they were. -/
theorem Heap.free_of_ne (hne : b ≠ a) : (h.free a).cells b = h.cells b :=
  Function.update_of_ne hne _ _

end Cells

/-- The pointer leads to these cells: their addresses and values in order. -/
def Linked (cells : ℕ → Option (Cell α)) : Option ℕ → List (ℕ × α) → Prop
  | p, [] => p = none
  | p, (a, x) :: l => p = some a ∧ ∃ next, cells a = some ⟨x, next⟩ ∧ Linked cells next l

/-- The addresses of the cells of a list. -/
abbrev addresses (l : List (ℕ × α)) : List ℕ := l.map Prod.fst

/-- The values of the cells of a list. -/
abbrev values (l : List (ℕ × α)) : List α := l.map Prod.snd

/-! ## Following the pointers -/

section Linked

variable {cells cells' : ℕ → Option (Cell α)} {p : Option ℕ} {l : List (ℕ × α)}

/-- The null pointer leads to no cell. -/
theorem linked_none : Linked cells none l ↔ l = [] := by
  cases l with
  | nil => exact iff_of_true rfl rfl
  | cons c l =>
      constructor
      · rintro ⟨h, -⟩
        cases h
      · intro h
        cases h

/-- Only the cells of the list matter. -/
theorem Linked.congr (h : Linked cells p l) (heq : ∀ a ∈ addresses l, cells' a = cells a) :
    Linked cells' p l := by
  induction l generalizing p with
  | nil => exact h
  | cons c l ih =>
      obtain ⟨hp, next, hcell, hrest⟩ := h
      refine ⟨hp, next, ?_, ih hrest fun a ha => heq a (List.mem_cons_of_mem _ ha)⟩
      rw [heq c.1 List.mem_cons_self]
      exact hcell

/-- A list whose last cell is made to point to one more. -/
theorem Linked.snoc {t a : ℕ} {y x : α} (h : Linked cells p (l ++ [(t, y)]))
    (hkeep : ∀ b ∈ addresses l, cells' b = cells b) (ht : cells' t = some ⟨y, some a⟩)
    (ha : cells' a = some ⟨x, none⟩) : Linked cells' p (l ++ [(t, y), (a, x)]) := by
  induction l generalizing p with
  | nil =>
      obtain ⟨hp, -⟩ := h
      exact ⟨hp, some a, ht, rfl, none, ha, rfl⟩
  | cons c l ih =>
      obtain ⟨hp, next, hcell, hrest⟩ := h
      refine ⟨hp, next, ?_, ih hrest fun b hb => hkeep b (List.mem_cons_of_mem _ hb)⟩
      rw [hkeep c.1 List.mem_cons_self]
      exact hcell

/-- The last cell of a list. -/
theorem Linked.last_cell {t : ℕ} {y : α} (h : Linked cells p (l ++ [(t, y)])) :
    ∃ next, cells t = some ⟨y, next⟩ := by
  induction l generalizing p with
  | nil =>
      obtain ⟨-, next, hcell, -⟩ := h
      exact ⟨next, hcell⟩
  | cons c l ih =>
      obtain ⟨-, next, -, hrest⟩ := h
      exact ih hrest

end Linked

/-! ## Building at the end -/

/-- A heap with the first and the last cell of a list that is being built. -/
structure Builder (α : Type*) where
  heap : Heap α
  head : Option ℕ
  tail : Option ℕ

/-- Nothing is built yet. -/
def Builder.start (h : Heap α) : Builder α := ⟨h, none, none⟩

/-- Allocate a cell and put it at the end. -/
def Builder.insert (s : Builder α) (x : α) : Builder α :=
  let new := s.heap.fresh
  let heap := s.heap.alloc x
  match s.head, s.tail with
  | some head, some tail => ⟨heap.setNext tail (some new), some head, some new⟩
  | _, _ => ⟨heap, some new, some new⟩

/-- The list built so far. -/
structure Built (s : Builder α) (l : List (ℕ × α)) : Prop where
  linked : Linked s.heap.cells s.head l
  nodup : (addresses l).Nodup
  below : ∀ a ∈ addresses l, a < s.heap.fresh
  tail : s.tail = (addresses l).getLast?

section Building

variable {s : Builder α} {l : List (ℕ × α)}

/-- Nothing is built. -/
theorem built_start (h : Heap α) : Built (Builder.start h) [] :=
  ⟨rfl, List.nodup_nil, fun _ ha => absurd ha List.not_mem_nil, rfl⟩

/-! ### One more cell -/

/-- The address of a new cell is none of those in the list. -/
theorem Built.nodup_snoc (h : Built s l) (x : α) :
    (addresses (l ++ [(s.heap.fresh, x)])).Nodup := by
  unfold addresses
  rw [List.map_append, List.nodup_append]
  refine ⟨h.nodup, List.nodup_singleton _, ?_⟩
  intro a ha b hb
  rw [List.map_singleton, List.mem_singleton] at hb
  have hlt := h.below a ha
  omega

/-- The new cell lies below the next one. -/
theorem Built.below_snoc (h : Built s l) (x : α) :
    ∀ a ∈ addresses (l ++ [(s.heap.fresh, x)]), a < s.heap.fresh + 1 := by
  intro a ha
  rw [addresses, List.map_append, List.mem_append] at ha
  rcases ha with ha | ha
  · exact Nat.lt_succ_of_lt (h.below a ha)
  · rw [List.map_singleton, List.mem_singleton] at ha
    omega

/-- It is the last one. -/
theorem getLast?_addresses_snoc (l : List (ℕ × α)) (a : ℕ) (x : α) :
    (addresses (l ++ [(a, x)])).getLast? = some a := by
  rw [addresses, List.map_append, List.map_singleton, List.getLast?_concat]

/-- The first cell is inserted without a cell before it. -/
theorem Built.insert_first (h : Built s []) (x : α) :
    Built (s.insert x) [(s.heap.fresh, x)] := by
  have hhead : s.head = none := h.linked
  unfold Builder.insert
  rw [hhead]
  exact ⟨⟨rfl, none, s.heap.alloc_fresh x, rfl⟩, h.nodup_snoc x, h.below_snoc x, rfl⟩

/-- A further cell is hung behind the last one. -/
theorem Built.insert_behind {t : ℕ} {y : α} (h : Built s (l ++ [(t, y)])) (x : α) :
    Built (s.insert x) (l ++ [(t, y)] ++ [(s.heap.fresh, x)]) := by
  have htail : s.tail = some t := by rw [h.tail, getLast?_addresses_snoc]
  obtain ⟨hd, hhead⟩ : ∃ hd, s.head = some hd := by
    cases hs : s.head with
    | none =>
        have hlinked := h.linked
        rw [hs, linked_none] at hlinked
        exact absurd hlinked (by simp)
    | some hd => exact ⟨hd, rfl⟩
  have hins : s.insert x
      = ⟨(s.heap.alloc x).setNext t (some s.heap.fresh), some hd, some s.heap.fresh⟩ := by
    unfold Builder.insert
    rw [hhead, htail]
  have hbelow : ∀ a ∈ addresses l, a < s.heap.fresh := by
    intro a ha
    apply h.below a
    rw [addresses, List.map_append]
    exact List.mem_append_left _ ha
  have htlt : t < s.heap.fresh := by
    apply h.below t
    rw [addresses, List.map_append]
    exact List.mem_append_right _ List.mem_cons_self
  have hne : ∀ a ∈ addresses l, a ≠ t := by
    have hnodup := h.nodup
    rw [addresses, List.map_append, List.nodup_append] at hnodup
    exact fun a ha => hnodup.2.2 a ha t List.mem_cons_self
  have hlinked := h.linked
  rw [hhead] at hlinked
  rw [hins]
  refine ⟨?_, h.nodup_snoc x, h.below_snoc x, (getLast?_addresses_snoc _ _ _).symm⟩
  rw [List.append_assoc]
  refine hlinked.snoc ?_ ?_ ?_
  · intro a ha
    rw [Heap.setNext_of_ne _ _ (hne a ha), Heap.alloc_of_lt _ _ (hbelow a ha)]
  · -- the old last cell keeps its value
    obtain ⟨next, hcell⟩ := hlinked.last_cell
    rw [Heap.setNext_self, Heap.alloc_of_lt _ _ htlt, hcell]
    rfl
  · rw [Heap.setNext_of_ne _ _ (Nat.ne_of_gt htlt), Heap.alloc_fresh]

/-- **Inserting appends.** -/
theorem Built.insert (h : Built s l) (x : α) :
    Built (s.insert x) (l ++ [(s.heap.fresh, x)]) := by
  rcases List.eq_nil_or_concat l with rfl | ⟨l', c, rfl⟩
  · exact h.insert_first x
  · rw [List.concat_eq_append] at h ⊢
    exact h.insert_behind x

end Building

/-! ## Giving a list back -/

/-- Give the cells back that a pointer leads to; `none` when `n` rounds are not enough or a
cell is looked at that is not allocated. -/
def release : ℕ → Heap α → Option ℕ → Option (Heap α)
  | _, h, none => some h
  | 0, _, some _ => none
  | n + 1, h, some a =>
      match h.cells a with
      | none => none
      | some c => release n (h.free a) c.next

/-- **Exactly the cells of the list are given back.** -/
theorem release_of_linked {h : Heap α} {p : Option ℕ} {l : List (ℕ × α)} {n : ℕ}
    (hl : Linked h.cells p l) (hnodup : (addresses l).Nodup) (hn : l.length ≤ n) :
    ∃ h', release n h p = some h' ∧
      ∀ a, h'.cells a = if a ∈ addresses l then none else h.cells a := by
  induction l generalizing h p n with
  | nil =>
      cases hl
      exact ⟨h, by cases n <;> rfl, fun a => (if_neg List.not_mem_nil).symm⟩
  | cons c l ih =>
      obtain ⟨a, x⟩ := c
      obtain ⟨rfl, next, hcell, hrest⟩ := hl
      obtain ⟨hnew, hnodup⟩ := List.nodup_cons.1 hnodup
      cases n with
      | zero => exact absurd hn (Nat.not_succ_le_zero _)
      | succ n =>
          -- the rest of the list does not come back to the cell given back
          have hkeep : ∀ b ∈ addresses l, (h.free a).cells b = h.cells b := by
            intro b hb
            refine h.free_of_ne ?_
            rintro rfl
            exact hnew hb
          obtain ⟨h', hrel, hcells⟩ := ih (hrest.congr hkeep) hnodup (Nat.le_of_succ_le_succ hn)
          refine ⟨h', ?_, fun b => ?_⟩
          · unfold release
            rw [hcell]
            exact hrel
          · have hmem : b ∈ addresses ((a, x) :: l) ↔ b = a ∨ b ∈ addresses l := List.mem_cons
            rw [hcells b]
            by_cases hb : b ∈ addresses l
            · rw [if_pos hb, if_pos (hmem.2 (.inr hb))]
            · rw [if_neg hb]
              by_cases hba : b = a
              · rw [if_pos (hmem.2 (.inl hba)), hba]
                exact h.free_self
              · rw [if_neg (fun hc => (hmem.1 hc).elim hba hb)]
                exact h.free_of_ne hba

end Chain
