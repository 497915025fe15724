/-
# Two runs of one computation

A computation is started in two states that a relation `R` ties together.  `Agree R` says
that the two outcomes are the same as far as `R` goes: both computations stop for the same
reason, or they return the same value in states tied together again.  `Respects R x` says
this of `x` from any two such states, so that what `R` leaves open has no influence on `x`.

The rules follow the text of a computation.  `respects_get` is where a computation looks at
the state: it has to look at a part that `R` ties down.
-/
import Nucleo.Lib.Comp

universe u v

namespace Comp

variable {σ τ α β : Type u} {ε : Type v}

/-- The two outcomes agree up to `R`. -/
def Agree (R : σ → σ → Prop) : Except ε (α × σ) → Except ε (α × σ) → Prop
  | .ok (a, s), .ok (b, t) => a = b ∧ R s t
  | .error e, .error e' => e = e'
  | _, _ => False

/-- From any two states tied together by `R`, the outcomes of `x` agree. -/
def Respects (R : σ → σ → Prop) (x : Comp σ ε α) : Prop := ∀ s t, R s t → Agree R (x s) (x t)

section Rules

variable {R R' : σ → σ → Prop} {s t : σ}

/-- A larger relation holds as well. -/
theorem Agree.mono {o o' : Except ε (α × σ)} (h : Agree R o o')
    (himp : ∀ s t, R s t → R' s t) : Agree R' o o' := by
  cases o with
  | error e =>
      cases o' with
      | error e' => exact h
      | ok q => exact h
  | ok p =>
      cases o' with
      | error e' => exact h
      | ok q => exact ⟨h.1, himp _ _ h.2⟩

/-- Two sequences whose first halves agree. -/
theorem Agree.bind {x y : Comp σ ε α} {f g : α → Comp σ ε β} (hx : Agree R (x s) (y t))
    (hf : ∀ a s' t', R s' t' → Agree R' (f a s') (g a t')) :
    Agree R' ((x >>= f) s) ((y >>= g) t) := by
  rw [bind_eq, bind_eq]
  cases hs : x s with
  | error e =>
      cases ht : y t with
      | error e' =>
          rw [hs, ht] at hx
          exact hx
      | ok q =>
          rw [hs, ht] at hx
          exact hx.elim
  | ok p =>
      cases ht : y t with
      | error e' =>
          rw [hs, ht] at hx
          exact hx.elim
      | ok q =>
          obtain ⟨a, s'⟩ := p
          obtain ⟨b, t'⟩ := q
          rw [hs, ht] at hx
          obtain ⟨rfl, hR⟩ : a = b ∧ R s' t' := hx
          exact hf a s' t' hR

theorem respects_pure (a : α) : Respects R (pure a : Comp σ ε α) := fun _ _ h => ⟨rfl, h⟩

theorem respects_throw (e : ε) : Respects R (throw e : Comp σ ε α) := fun _ _ _ => rfl

/-- **The rule for a sequence**. -/
theorem Respects.bind {x : Comp σ ε α} {f : α → Comp σ ε β} (hx : Respects R x)
    (hf : ∀ a, Respects R (f a)) : Respects R (x >>= f) :=
  fun s t h => (hx s t h).bind fun a s' t' h' => hf a s' t' h'

/-- The rule for a branch. -/
theorem Respects.ite {c : Prop} [Decidable c] {x y : Comp σ ε α} (hx : Respects R x)
    (hy : Respects R y) : Respects R (if c then x else y) := by
  by_cases hc : c
  · rw [if_pos hc]
    exact hx
  · rw [if_neg hc]
    exact hy

/-- A change respects what the function does. -/
theorem respects_modify {f : σ → σ} (hf : ∀ s t, R s t → R (f s) (f t)) :
    Respects R (modify f : Comp σ ε PUnit) := fun s t h => ⟨rfl, hf s t h⟩

/-- A look at the state. -/
theorem respects_get {k : σ → Comp σ ε α} (hk : ∀ s, Respects R (k s))
    (heq : ∀ s t, R s t → k s = k t) : Respects R (get >>= k) := by
  intro s t h
  show Agree R (k s s) (k t t)
  rw [heq s t h]
  exact hk t s t h

/-- The rule for a loop. -/
theorem Respects.iter {out : ε} {body : β → Comp σ ε (β ⊕ α)}
    (hbody : ∀ b, Respects R (body b)) (n : ℕ) (b : β) : Respects R (iter out body n b) := by
  induction n generalizing b with
  | zero => exact respects_throw out
  | succ n ih =>
      refine (hbody b).bind fun r => ?_
      cases r with
      | inl b' => exact ih b'
      | inr a => exact respects_pure a

/-- A computation on a component that `R` ties down. -/
theorem Respects.focus {S : τ → τ → Prop} {get : τ → σ} {put : σ → τ → τ} (x : Comp σ ε α)
    (hget : ∀ s t, S s t → get s = get t)
    (hput : ∀ c s t, S s t → S (put c s) (put c t)) : Respects S (focus get put x) := by
  intro s t h
  unfold Comp.focus
  rw [hget s t h]
  cases x (get t) with
  | error e => exact rfl
  | ok r => exact ⟨rfl, hput r.2 s t h⟩

end Rules

end Comp
