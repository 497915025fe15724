/-
# Memory with a limit

A `View` is a memory of which only the cells below a limit may be looked at.  `cell`
and `cells` look at one cell or at several and stop with `out` when one of them lies at
or behind the limit.  So a computation that never stops with `out` has looked at no such
cell.

`bind_eq_ok` and `bind_ne_error` take a sequence of such computations apart.
-/
import Nucleo.Lib.Memory

namespace Guarded

/-- A memory and the end of what may be looked at. -/
structure View (α : Type*) where
  mem : ℕ → α
  limit : ℕ

section Reading

variable {α β ε : Type*} (out : ε) (v : View α)

/-- Look at a cell. -/
def View.cell (p : ℕ) : Except ε α := if p < v.limit then .ok (v.mem p) else .error out

/-- Look at `n` cells from `p` on. -/
def View.cells (p n : ℕ) : Except ε (List α) :=
  if n = 0 ∨ p + n ≤ v.limit then .ok (Memory.read v.mem p n) else .error out

variable {out v} {p n : ℕ}

/-- A cell inside is read. -/
theorem cell_of_lt (h : p < v.limit) : v.cell out p = .ok (v.mem p) := if_pos h

/-- One behind the limit is not. -/
theorem cell_of_le (h : v.limit ≤ p) : v.cell out p = .error out := if_neg (Nat.not_lt.2 h)

/-- Cells inside are read. -/
theorem cells_of_le (h : p + n ≤ v.limit) : v.cells out p n = .ok (Memory.read v.mem p n) :=
  if_pos (.inr h)

/-- No cells can be read anywhere. -/
theorem cells_zero : v.cells out p 0 = .ok [] := if_pos (.inl rfl)

/-- Cells that reach behind the limit cannot. -/
theorem cells_of_lt (hn : 0 < n) (h : v.limit < p + n) : v.cells out p n = .error out :=
  if_neg (by omega)

/-- The cells that are looked at lie below the limit. -/
theorem cells_ne_error : v.cells out p n ≠ .error out ↔ n = 0 ∨ p + n ≤ v.limit := by
  unfold View.cells
  split_ifs with h
  · exact iff_of_true (by rintro hc; cases hc) h
  · exact iff_of_false (fun hne => hne rfl) h

/-- A cell is inside exactly when it is read. -/
theorem cell_ne_error : v.cell out p ≠ .error out ↔ p < v.limit := by
  unfold View.cell
  split_ifs with h
  · exact iff_of_true (by rintro hc; cases hc) h
  · exact iff_of_false (fun hne => hne rfl) h

end Reading

/-! ## Sequences -/

section Sequences

universe u v

variable {α β : Type u} {ε : Type v} {x : Except ε α} {f : α → Except ε β} {e : ε}

/-- Two parts succeed one after the other. -/
theorem bind_eq_ok {b : β} : (x >>= f) = .ok b ↔ ∃ a, x = .ok a ∧ f a = .ok b := by
  cases x with
  | error e =>
      constructor
      · intro h
        cases h
      · rintro ⟨a, ha, -⟩
        cases ha
  | ok a =>
      constructor
      · intro h
        exact ⟨a, rfl, h⟩
      · rintro ⟨a', ha, hb⟩
        cases ha
        exact hb

/-- A sequence stops with `e` nowhere if neither half does. -/
theorem bind_ne_error :
    (x >>= f) ≠ .error e ↔ x ≠ .error e ∧ ∀ a, x = .ok a → f a ≠ .error e := by
  cases x with
  | error e' =>
      constructor
      · intro h
        refine ⟨fun hc => h ?_, fun a ha => ?_⟩
        · cases hc
          rfl
        · cases ha
      · rintro ⟨h, -⟩ hc
        cases hc
        exact h rfl
  | ok a =>
      constructor
      · intro h
        refine ⟨fun hc => ?_, fun a' ha => ?_⟩
        · cases hc
        · cases ha
          exact h
      · rintro ⟨-, h⟩
        exact h a rfl

/-- A sequence that starts with a look at a cell. -/
theorem cell_bind_ne_error {v : View α} {p : ℕ} :
    (v.cell e p >>= f) ≠ .error e ↔ p < v.limit ∧ f (v.mem p) ≠ .error e := by
  rw [bind_ne_error, cell_ne_error]
  constructor
  · rintro ⟨hp, hf⟩
    exact ⟨hp, hf _ (cell_of_lt hp)⟩
  · rintro ⟨hp, hf⟩
    refine ⟨hp, fun a ha => ?_⟩
    rw [cell_of_lt hp] at ha
    cases ha
    exact hf

/-- A read followed by something stays inside when both do. -/
theorem cells_bind_ne_error {v : View α} {p n : ℕ} {g : List α → Except ε β} (hn : 0 < n) :
    (v.cells e p n >>= g) ≠ .error e ↔
      p + n ≤ v.limit ∧ g (Memory.read v.mem p n) ≠ .error e := by
  rw [bind_ne_error, cells_ne_error]
  constructor
  · rintro ⟨hp, hg⟩
    have hle : p + n ≤ v.limit := by omega
    exact ⟨hle, hg _ (cells_of_le hle)⟩
  · rintro ⟨hp, hg⟩
    refine ⟨.inr hp, fun a ha => ?_⟩
    rw [cells_of_le hp] at ha
    cases ha
    exact hg

end Sequences

end Guarded
