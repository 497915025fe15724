/-
# Coupled computations

Two computations, each on a state of its own, that return the same value.  `Same S` says of two
outcomes that both stop for the same reason, or return the same value in states tied together
by `S`; `Coupled R S x y` says this of `x` and `y` whenever they start in states tied together
by `R`.  The rules follow the text of the two computations, which have the same shape.

`stopAs` renames the reasons for which a computation stops.
-/
import Nucleo.Lib.Comp

universe u v

namespace Comp

variable {σ τ α β : Type u} {ε ε' : Type v}

/-- The two outcomes are the same, in states tied together by `S`. -/
inductive Same (S : σ → τ → Prop) : Except ε (α × σ) → Except ε (α × τ) → Prop
  | ok {a : α} {s : σ} {t : τ} (h : S s t) : Same S (.ok (a, s)) (.ok (a, t))
  | error (e : ε) : Same S (.error e) (.error e)

/-- From states tied together by `R`, the outcomes of `x` and `y` are the same up to `S`. -/
def Coupled (R S : σ → τ → Prop) (x : Comp σ ε α) (y : Comp τ ε α) : Prop :=
  ∀ s t, R s t → Same S (x s) (y t)

section Rules

variable {R S T : σ → τ → Prop} {x : Comp σ ε α} {y : Comp τ ε α}

/-- Two results are the same with the same value and coupled states. -/
theorem same_ok {p : α × σ} {q : α × τ} (hval : p.1 = q.1) (hS : S p.2 q.2) :
    Same S (.ok p : Except ε (α × σ)) (.ok q) := by
  obtain ⟨a, s⟩ := p
  obtain ⟨b, t⟩ := q
  cases hval
  exact .ok hS

/-- What `y` returns, `x` returns too. -/
theorem Same.of_ok {o : Except ε (α × σ)} {a : α} {t : τ} (h : Same S o (.ok (a, t))) :
    ∃ s, o = .ok (a, s) ∧ S s t := by
  cases h with
  | ok hS => exact ⟨_, rfl, hS⟩

theorem coupled_pure (h : ∀ s t, R s t → S s t) (a : α) :
    Coupled R S (pure a : Comp σ ε α) (pure a : Comp τ ε α) := fun s t hR => .ok (h s t hR)

/-- Two stops for the same reason are coupled. -/
theorem coupled_throw (e : ε) :
    Coupled R S (throw e : Comp σ ε α) (throw e : Comp τ ε α) := fun _ _ _ => .error e

/-- Two changes are coupled when the functions are. -/
theorem coupled_modify {f : σ → σ} {g : τ → τ} (h : ∀ s t, R s t → S (f s) (g t)) :
    Coupled R S (modify f : Comp σ ε PUnit) (modify g : Comp τ ε PUnit) :=
  fun s t hR => .ok (h s t hR)

/-- **The rule for a sequence**. -/
theorem Coupled.bind {f : α → Comp σ ε β} {g : α → Comp τ ε β} (hx : Coupled R S x y)
    (hf : ∀ a, Coupled S T (f a) (g a)) : Coupled R T (x >>= f) (y >>= g) := by
  intro s t hR
  have hsame := hx s t hR
  rw [bind_eq, bind_eq]
  cases hs : x s <;> cases ht : y t <;> rw [hs, ht] at hsame <;> cases hsame
  · exact .error _
  · rename_i hS
    exact hf _ _ _ hS

/-- The rule for a branch. -/
theorem Coupled.ite {c : Prop} [Decidable c] {x' : Comp σ ε α} {y' : Comp τ ε α}
    (hx : Coupled R S x y) (hx' : Coupled R S x' y') :
    Coupled R S (if c then x else x') (if c then y else y') := by
  by_cases hc : c
  · rw [if_pos hc, if_pos hc]
    exact hx
  · rw [if_neg hc, if_neg hc]
    exact hx'

/-- Two loops whose rounds keep the states tied. -/
theorem Coupled.iter {out : ε} {body : β → Comp σ ε (β ⊕ α)} {body' : β → Comp τ ε (β ⊕ α)}
    (hbody : ∀ b, Coupled R R (body b) (body' b)) (n : ℕ) (b : β) :
    Coupled R R (Comp.iter out body n b) (Comp.iter out body' n b) := by
  induction n generalizing b with
  | zero => exact coupled_throw out
  | succ n ih =>
      refine (hbody b).bind fun r => ?_
      rcases r with b' | a
      · exact ih b'
      · exact coupled_pure (fun _ _ h => h) a

/-- The second one runs on a component of its state; the rest of that stays as it is. -/
theorem Coupled.focus_right {ω : Type u} {get : ω → τ} {put : τ → ω → ω} {U V : σ → ω → Prop}
    (h : ∀ s w, U s w → ∃ R S, Coupled R S x y ∧ R s (get w) ∧
      ∀ s' t', S s' t' → V s' (put t' w)) :
    Coupled U V x (focus get put y) := by
  intro s w hU
  obtain ⟨R, S, hxy, hR, hput⟩ := h s w hU
  have hsame := hxy s (get w) hR
  unfold Comp.focus
  cases hs : x s <;> cases ht : y (get w) <;> rw [hs, ht] at hsame <;> cases hsame
  · exact .error _
  · rename_i hS
    exact .ok (hput _ _ hS)

/-- Both run on a component of their states. -/
theorem Coupled.focus {ω ω' : Type u} {get : ω → σ} {put : σ → ω → ω} {get' : ω' → τ}
    {put' : τ → ω' → ω'} {U V : ω → ω' → Prop} (h : Coupled R S x y)
    (hget : ∀ w w', U w w' → R (get w) (get' w'))
    (hput : ∀ w w' s t, U w w' → S s t → V (put s w) (put' t w')) :
    Coupled U V (focus get put x) (focus get' put' y) := by
  intro w w' hU
  have hsame := h (get w) (get' w') (hget w w' hU)
  unfold Comp.focus
  cases hs : x (get w) <;> cases ht : y (get' w') <;> rw [hs, ht] at hsame <;> cases hsame
  · exact .error _
  · rename_i hS
    exact .ok (hput w w' _ _ hU hS)

end Rules

/-! ## Reasons for stopping -/

/-- The same computation, with other names for the reasons for which it stops. -/
def stopAs (f : ε → ε') (x : Comp σ ε α) : Comp σ ε' α := fun s => (x s).mapError f

/-- The reasons may be renamed. -/
theorem Coupled.stopAs {R S : σ → τ → Prop} {x : Comp σ ε α} {y : Comp τ ε α}
    (h : Coupled R S x y) (f : ε → ε') : Coupled R S (x.stopAs f) (y.stopAs f) := by
  intro s t hR
  have hsame := h s t hR
  unfold Comp.stopAs
  cases hs : x s <;> cases ht : y t <;> rw [hs, ht] at hsame <;> cases hsame
  · exact .error _
  · rename_i hS
    exact .ok hS

end Comp
