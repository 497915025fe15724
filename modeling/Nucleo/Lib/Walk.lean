/-
# Loops that may go round

A loop body on a local value goes on with another value, returns a result, or stops with
an error; `loop` runs it for a bounded number of rounds and stops with `out` when they
are used up.

The rounds are followed on the positions `f b` of the local values, related by `R`.  When
all the positions that have a successor lie in a finite set, the loop ends if and only if
its start does not lead into a cycle (`loop_ne_out`, `loop_of_cyclic`), and then it ends
within as many rounds as there are positions.
-/
import Mathlib

namespace Walk

variable {ε α β π : Type*}

/-- Rounds of `body` until it returns, at most `n` of them. -/
def loop (out : ε) (body : β → Except ε (β ⊕ α)) : ℕ → β → Except ε α
  | 0, _ => .error out
  | n + 1, b =>
      match body b with
      | .error e => .error e
      | .ok (.inr a) => .ok a
      | .ok (.inl b') => loop out body n b'

section Rounds

variable {out : ε} {body : β → Except ε (β ⊕ α)} {n : ℕ} {b b' : β}

theorem loop_succ_of_error {e : ε} (h : body b = .error e) :
    loop out body (n + 1) b = .error e := by
  unfold loop
  rw [h]

theorem loop_succ_of_inr {a : α} (h : body b = .ok (.inr a)) :
    loop out body (n + 1) b = .ok a := by
  unfold loop
  rw [h]

theorem loop_succ_of_inl (h : body b = .ok (.inl b')) :
    loop out body (n + 1) b = loop out body n b' := by
  rw [loop, h]

/-- More rounds do not change the result of a loop that has ended. -/
theorem loop_mono {a : α} (m : ℕ) (h : loop out body n b = .ok a) :
    loop out body (n + m) b = .ok a := by
  induction n generalizing b with
  | zero => cases h
  | succ n ih =>
      rw [show n + 1 + m = n + m + 1 by omega]
      cases hbody : body b with
      | error e =>
          rw [loop_succ_of_error hbody] at h
          cases h
      | ok r =>
          cases r with
          | inr a' =>
              rw [loop_succ_of_inr hbody] at h ⊢
              exact h
          | inl b' =>
              rw [loop_succ_of_inl hbody] at h ⊢
              exact ih h

/-- A loop stops with an error other than `out` only if a round does. -/
theorem loop_ne_error {e : ε} (I : β → Prop) (he : e ≠ out)
    (hround : ∀ b, I b → body b ≠ .error e)
    (hgo : ∀ b b', I b → body b = .ok (.inl b') → I b') (n : ℕ) {b : β} (hb : I b) :
    loop out body n b ≠ .error e := by
  induction n generalizing b with
  | zero =>
      intro hc
      exact he (Except.error.inj hc).symm
  | succ n ih =>
      cases hbody : body b with
      | error e' =>
          rw [loop_succ_of_error hbody]
          intro hc
          cases hc
          exact hround b hb hbody
      | ok r =>
          cases r with
          | inr a =>
              rw [loop_succ_of_inr hbody]
              rintro hc
              cases hc
          | inl b' =>
              rw [loop_succ_of_inl hbody]
              exact ih (hgo b b' hb hbody)

end Rounds

/-! ## Cycles -/

/-- The position leads into a cycle. -/
def Cyclic (R : π → π → Prop) (p : π) : Prop :=
  ∃ q, Relation.ReflTransGen R p q ∧ Relation.TransGen R q q

variable {R : π → π → Prop} {p q : π}

/-- A position before a cycle has a successor before the same cycle. -/
theorem Cyclic.step (h : Cyclic R p) : ∃ q, R p q ∧ Cyclic R q := by
  obtain ⟨c, hreach, hround⟩ := h
  rcases Relation.ReflTransGen.cases_head hreach with rfl | ⟨q, hpq, hqc⟩
  · obtain ⟨q, hpq, hqp⟩ := (Relation.TransGen.head'_iff).1 hround
    exact ⟨q, hpq, p, hqp, hround⟩
  · exact ⟨q, hpq, c, hqc, hround⟩

theorem Cyclic.head (hpq : R p q) (h : Cyclic R q) : Cyclic R p := by
  obtain ⟨c, hreach, hround⟩ := h
  exact ⟨c, hreach.head hpq, hround⟩

section Loop

variable {out : ε} {body : β → Except ε (β ⊕ α)} (f : β → π)

/-- A loop that starts before a cycle never ends. -/
theorem loop_of_cyclic
    (hgo : ∀ b q, R (f b) q → Cyclic R q → ∃ b', body b = .ok (.inl b') ∧ f b' = q)
    (n : ℕ) {b : β} (h : Cyclic R (f b)) : loop out body n b = .error out := by
  induction n generalizing b with
  | zero => rfl
  | succ n ih =>
      obtain ⟨q, hq, hcyc⟩ := h.step
      obtain ⟨b', hbody, hb'⟩ := hgo b q hq hcyc
      rw [loop_succ_of_inl hbody]
      exact ih (hb' ▸ hcyc)

variable {S : Finset π} {J : ℕ → β → Prop}

/-- The rounds done so far were at different positions, those in `V`. -/
theorem loop_cases_aux [DecidableEq π]
    (hfollow : ∀ b b', body b = .ok (.inl b') → R (f b) (f b')) (hS : ∀ p q, R p q → p ∈ S)
    (hJ : ∀ k b b', J k b → body b = .ok (.inl b') → J (k + 1) b') (n : ℕ) {b : β}
    (V : Finset π) (hV : V ⊆ S) (hpast : ∀ v ∈ V, Relation.TransGen R v (f b))
    (hcyc : ¬ Cyclic R (f b)) (hcard : S.card < n + V.card) (hJb : J V.card b) :
    ∃ k b', k ≤ S.card ∧ J k b' ∧
      ((∃ a, body b' = .ok (.inr a) ∧ loop out body n b = .ok a) ∨
        ∃ e, body b' = .error e ∧ loop out body n b = .error e) := by
  induction n generalizing b V with
  | zero => exact absurd (Finset.card_le_card hV) (by omega)
  | succ n ih =>
      have hle := Finset.card_le_card hV
      cases hbody : body b with
      | error e => exact ⟨V.card, b, hle, hJb, .inr ⟨e, hbody, loop_succ_of_error hbody⟩⟩
      | ok r =>
          cases r with
          | inr a => exact ⟨V.card, b, hle, hJb, .inl ⟨a, hbody, loop_succ_of_inr hbody⟩⟩
          | inl b' =>
              have hR := hfollow b b' hbody
              have hnew : f b ∉ V := fun hmem => hcyc ⟨f b, .refl, hpast _ hmem⟩
              have hcard' := Finset.card_insert_of_notMem hnew
              rw [loop_succ_of_inl hbody]
              apply ih (insert (f b) V)
              · exact Finset.insert_subset (hS _ _ hR) hV
              · intro v hv
                rcases Finset.mem_insert.1 hv with rfl | hv
                · exact .single hR
                · exact (hpast v hv).tail hR
              · exact fun h => hcyc (h.head hR)
              · omega
              · rw [hcard']
                exact hJ _ _ _ hJb hbody

/-- **A loop that does not go round ends** within as many rounds as there are positions
with a successor.  `J k b'` holds of the value `b'` after `k` rounds. -/
theorem loop_cases (hfollow : ∀ b b', body b = .ok (.inl b') → R (f b) (f b'))
    (hS : ∀ p q, R p q → p ∈ S)
    (hJ : ∀ k b b', J k b → body b = .ok (.inl b') → J (k + 1) b') {n : ℕ} {b : β}
    (hcyc : ¬ Cyclic R (f b)) (hcard : S.card < n) (hJb : J 0 b) :
    ∃ k b', k ≤ S.card ∧ J k b' ∧
      ((∃ a, body b' = .ok (.inr a) ∧ loop out body n b = .ok a) ∨
        ∃ e, body b' = .error e ∧ loop out body n b = .error e) := by
  classical
  apply loop_cases_aux f hfollow hS hJ n ∅ (Finset.empty_subset S)
  · intro v hv
    exact absurd hv (Finset.notMem_empty v)
  · exact hcyc
  · rw [Finset.card_empty]
    omega
  · exact hJb

end Loop

end Walk
