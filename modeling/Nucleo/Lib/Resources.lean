/-
# Resources and the traces that use them

A trace says how a computation acquires, uses and releases resources.  `after tr held`
follows it from the resources held at its start, and has no value when the trace uses or
releases one that is not held.  A trace is `Balanced` when it can be run whatever is held
and leaves exactly that held: what it acquired it has released, once each, and it has
touched nothing else.

Balanced traces may follow each other, may be made while a resource is held, and may be
woven into another trace anywhere.  `Appends` says what a computation adds to a trace that
it keeps in its state, and is composed along the text of the computation.
-/
import Nucleo.Lib.Comp

namespace Resources

variable {ρ : Type*}

/-- What is done with a resource. -/
inductive Use (ρ : Type*)
  | acquire (r : ρ)
  | use (r : ρ)
  | release (r : ρ)
  deriving DecidableEq, Repr

section Traces

variable [DecidableEq ρ]

/-- The resources held after one step, if it is allowed. -/
def step (held : List ρ) : Use ρ → Option (List ρ)
  | .acquire r => some (r :: held)
  | .use r => if r ∈ held then some held else none
  | .release r => if r ∈ held then some (held.erase r) else none

/-- Only what is held may be used. -/
theorem step_use (held : List ρ) (r : ρ) :
    step held (.use r) = if r ∈ held then some held else none := rfl

/-- Only what is held may be given back. -/
theorem step_release (held : List ρ) (r : ρ) :
    step held (.release r) = if r ∈ held then some (held.erase r) else none := rfl

/-- The resources held after a trace, if all of its steps are allowed. -/
def after : List (Use ρ) → List ρ → Option (List ρ)
  | [], held => some held
  | u :: tr, held => (step held u).bind (after tr)

/-- A trace goes on from what its first use leaves. -/
theorem after_cons (u : Use ρ) (tr : List (Use ρ)) (held : List ρ) :
    after (u :: tr) held = (step held u).bind (after tr) := rfl

/-- A trace goes on from what another one leaves. -/
theorem after_append (tr tr' : List (Use ρ)) (held : List ρ) :
    after (tr ++ tr') held = (after tr held).bind (after tr') := by
  induction tr generalizing held with
  | nil => rfl
  | cons u tr ih =>
      rw [List.cons_append, after_cons, after_cons]
      cases step held u with
      | none => rfl
      | some held' => exact ih held'

/-! ## Balanced traces -/

/-- The trace can be run whatever is held, and leaves that held. -/
def Balanced (tr : List (Use ρ)) : Prop := ∀ held, after tr held = some held

/-- The trace can be run while `r` is held, and leaves held what is. -/
def BalancedWith (r : ρ) (tr : List (Use ρ)) : Prop :=
  ∀ held, r ∈ held → after tr held = some held

variable {r : ρ} {tr tr' : List (Use ρ)}

/-- No use is balanced. -/
theorem balanced_nil : Balanced ([] : List (Use ρ)) := fun _ => rfl

/-- Two balanced traces are balanced together. -/
theorem Balanced.append (h : Balanced tr) (h' : Balanced tr') : Balanced (tr ++ tr') := by
  intro held
  rw [after_append, h held]
  exact h' held

/-- What is balanced by itself is balanced with anything held. -/
theorem Balanced.with (h : Balanced tr) (r : ρ) : BalancedWith r tr := fun held _ => h held

theorem BalancedWith.append (h : BalancedWith r tr) (h' : BalancedWith r tr') :
    BalancedWith r (tr ++ tr') := by
  intro held hr
  rw [after_append, h held hr]
  exact h' held hr

/-- Using what is held is balanced. -/
theorem balancedWith_use (r : ρ) : BalancedWith r [.use r] := by
  intro held hr
  rw [after_cons, step_use, if_pos hr]
  rfl

/-- **What is done between acquiring and releasing a resource** may use it. -/
theorem BalancedWith.bracket (h : BalancedWith r tr) :
    Balanced (.acquire r :: (tr ++ [.release r])) := by
  intro held
  show after (tr ++ [.release r]) (r :: held) = some held
  have hmem : r ∈ r :: held := List.mem_cons_self
  rw [after_append, h _ hmem]
  show (step (r :: held) (.release r)).bind (after []) = some held
  rw [step_release, if_pos hmem, List.erase_cons_head]
  rfl

/-- A balanced trace releases a resource as often as it acquires it. -/
theorem Balanced.count_eq (h : Balanced tr) (r : ρ) :
    tr.count (.acquire r) = tr.count (.release r) := by
  -- along a trace that can be run, what is held is what was held and acquired, less the released
  have hcount : ∀ (tr : List (Use ρ)) (held held' : List ρ), after tr held = some held' →
      held.count r + tr.count (.acquire r) = held'.count r + tr.count (.release r) := by
    intro tr
    induction tr with
    | nil =>
        intro held held' heq
        cases heq
        rfl
    | cons u tr ih =>
        intro held held' heq
        rw [after_cons] at heq
        obtain ⟨mid, hstep, hrest⟩ := Option.bind_eq_some_iff.1 heq
        have hih := ih mid held' hrest
        cases u with
        | acquire q =>
            cases hstep
            by_cases hq : q = r
            · subst hq
              rw [List.count_cons_self] at hih ⊢
              rw [List.count_cons_of_ne (by simp)]
              omega
            · rw [List.count_cons_of_ne hq] at hih
              rw [List.count_cons_of_ne (by simpa using hq), List.count_cons_of_ne (by simp)]
              exact hih
        | use q =>
            rw [step_use] at hstep
            split_ifs at hstep
            cases hstep
            rw [List.count_cons_of_ne (by simp), List.count_cons_of_ne (by simp)]
            exact hih
        | release q =>
            rw [step_release] at hstep
            split_ifs at hstep with hmem
            cases hstep
            by_cases hq : q = r
            · subst hq
              have hpos : 0 < held.count q := List.count_pos_iff.2 hmem
              rw [List.count_erase_self] at hih
              rw [List.count_cons_of_ne (by simp), List.count_cons_self]
              omega
            · rw [List.count_erase_of_ne (Ne.symm hq)] at hih
              rw [List.count_cons_of_ne (by simp), List.count_cons_of_ne (by simpa using hq)]
              exact hih
  have := hcount tr [] [] (h [])
  omega

end Traces

/-! ## Weaving traces -/

/-- The second list is the first one with lists of `T` put in between. -/
inductive Woven {α : Type*} (T : List α → Prop) : List α → List α → Prop
  | nil : Woven T [] []
  | keep (a : α) {l l' : List α} (h : Woven T l l') : Woven T (a :: l) (a :: l')
  | gap {t l l' : List α} (ht : T t) (h : Woven T l l') : Woven T l (t ++ l')

/-- Balanced traces in between do not change what a trace leaves held. -/
theorem Woven.after_eq [DecidableEq ρ] {T : List (Use ρ) → Prop} (hT : ∀ t, T t → Balanced t)
    {tr tr' : List (Use ρ)} (h : Woven T tr tr') (held : List ρ) :
    after tr' held = after tr held := by
  induction h generalizing held with
  | nil => rfl
  | keep u h ih =>
      rw [after_cons, after_cons]
      exact congrArg (Option.bind (step held u)) (funext ih)
  | gap ht h ih =>
      rw [after_append, hT _ ht held]
      exact ih held

/-- **Balanced traces may be woven into one another**. -/
theorem Balanced.woven [DecidableEq ρ] {T : List (Use ρ) → Prop} (hT : ∀ t, T t → Balanced t)
    {tr tr' : List (Use ρ)} (htr : Balanced tr) (h : Woven T tr tr') : Balanced tr' :=
  fun held => (h.after_eq hT held).trans (htr held)

/-! ## Computations that keep their trace -/

section Computations

open Comp

universe u v

variable {σ α β : Type u} {ε : Type v} {κ : Type*}

/-- A property of traces that may follow each other. -/
structure Closed (T : List κ → Prop) : Prop where
  nil : T []
  append : ∀ {t t'}, T t → T t' → T (t ++ t')

/-- Balanced traces can be joined and woven. -/
theorem closed_balanced [DecidableEq ρ] : Closed (Balanced (ρ := ρ)) :=
  ⟨balanced_nil, Balanced.append⟩

theorem closed_balancedWith [DecidableEq ρ] (r : ρ) : Closed (BalancedWith r) :=
  ⟨fun _ _ => rfl, BalancedWith.append⟩

/-- When `x` returns, it has added a trace of `T` to the log. -/
def Appends (log : σ → List κ) (T : List κ → Prop) (x : Comp σ ε α) : Prop :=
  ∀ s, Post x (fun _ s' => ∃ t, log s' = log s ++ t ∧ T t) s

variable {log : σ → List κ} {T T' : List κ → Prop}

/-- A weaker property of the trace may be said. -/
theorem Appends.mono {x : Comp σ ε α} (hx : Appends log T x) (hT : ∀ t, T t → T' t) :
    Appends log T' x :=
  fun s => (hx s).mono fun _ _ ⟨t, heq, ht⟩ => ⟨t, heq, hT t ht⟩

/-- What leaves the log alone. -/
theorem appends_of_keeps (hT : Closed T) {x : Comp σ ε α} (hx : Keeps log x) :
    Appends log T x :=
  fun s => (hx s).mono fun _ _ heq => ⟨[], heq.trans (List.append_nil _).symm, hT.nil⟩

theorem appends_pure (hT : Closed T) (a : α) : Appends log T (pure a : Comp σ ε α) :=
  appends_of_keeps hT (keeps_pure a)

/-- A stop says nothing. -/
theorem appends_throw (e : ε) : Appends log T (throw e : Comp σ ε α) :=
  fun _ => post_throw.2 trivial

/-- A sequence adds what its parts add. -/
theorem Appends.bind (hT : Closed T) {x : Comp σ ε α} {f : α → Comp σ ε β}
    (hx : Appends log T x) (hf : ∀ a, Appends log T (f a)) : Appends log T (x >>= f) := by
  intro s
  rw [post_bind]
  refine (hx s).mono ?_
  rintro a s' ⟨t, heq, ht⟩
  refine (hf a s').mono ?_
  rintro b s'' ⟨t', heq', ht'⟩
  exact ⟨t ++ t', by rw [heq', heq, List.append_assoc], hT.append ht ht'⟩

/-- A branch adds what the side taken adds. -/
theorem Appends.ite {c : Prop} [Decidable c] {x y : Comp σ ε α} (hx : Appends log T x)
    (hy : Appends log T y) : Appends log T (if c then x else y) := by
  by_cases hc : c
  · rw [if_pos hc]
    exact hx
  · rw [if_neg hc]
    exact hy

/-- A loop adds what its rounds add. -/
theorem Appends.iter (hT : Closed T) {out : ε} {body : β → Comp σ ε (β ⊕ α)}
    (hbody : ∀ b, Appends log T (body b)) (n : ℕ) (b : β) :
    Appends log T (Comp.iter out body n b) := by
  induction n generalizing b with
  | zero => exact appends_throw out
  | succ n ih =>
      refine (hbody b).bind hT fun r => ?_
      cases r with
      | inl b' => exact ih b'
      | inr a => exact appends_pure hT a

end Computations

end Resources
