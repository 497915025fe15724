/-
# Computations on a state that may stop

`Comp σ ε α` is a state-passing computation that returns a value and the state after
it, or stops for a reason in `ε`.  `Post x Q s` is its partial correctness: if `x`
returns from `s`, then `Q` holds of what it returns and of the state after it.  The
equations of `Post` take a computation apart along its text; `Post.mono` puts in the
specification of a computation that has one already.

Loops are iterations of a body on a local value with a bound on the number of rounds:
`iter` stops when the bound is used up.  `Post.iter` is its invariant rule.

`Along R` says that a computation takes the state along the relation `R`; for a preorder it
composes.  `Made A` says which steps a computation is made of: once it is known, what all these
steps keep is what the computation keeps (`Made.along`, `Made.never`).  `focus` runs a computation
on a component of the state.
-/
import Mathlib

universe u v

/-- A computation on the state `σ` that may stop with an `ε`. -/
abbrev Comp (σ : Type u) (ε : Type v) (α : Type u) := StateT σ (Except ε) α

namespace Comp

variable {σ τ α β : Type u} {ε : Type v}

/-! ## Postconditions -/

/-- `Q` holds of the value and the state with which `x` returns from `s`, if it does. -/
def Post (x : Comp σ ε α) (Q : α → σ → Prop) (s : σ) : Prop :=
  ∀ a s', x s = .ok (a, s') → Q a s'

section Rules

variable {Q R : α → σ → Prop} {s : σ}

/-- A postcondition may be weakened. -/
theorem Post.mono {x : Comp σ ε α} (hx : Post x R s) (himp : ∀ a s', R a s' → Q a s') :
    Post x Q s :=
  fun a s' heq => himp a s' (hx a s' heq)

/-- Two postconditions hold together. -/
theorem Post.and {x : Comp σ ε α} (hQ : Post x Q s) (hR : Post x R s) :
    Post x (fun a s' => Q a s' ∧ R a s') s :=
  fun a s' heq => ⟨hQ a s' heq, hR a s' heq⟩

/-- Computations that do the same from `s`. -/
theorem post_congr {x y : Comp σ ε α} (h : x s = y s) : Post x Q s ↔ Post y Q s := by
  unfold Post
  rw [h]

@[simp] theorem post_pure {a : α} : Post (pure a : Comp σ ε α) Q s ↔ Q a s := by
  constructor
  · intro h
    exact h a s rfl
  · intro h b s' heq
    cases heq
    exact h

/-- A computation that stops meets every postcondition. -/
@[simp] theorem post_throw {e : ε} : Post (throw e : Comp σ ε α) Q s ↔ True := by
  constructor
  · intro _
    trivial
  · intro _ b s' heq
    cases heq

/-- A sequence runs its second part where the first one returns, and stops where it stops. -/
theorem bind_eq (x : Comp σ ε α) (f : α → Comp σ ε β) (s : σ) :
    (x >>= f) s = match x s with
      | .ok (a, s') => f a s'
      | .error e => .error e := by
  show (StateT.bind x f) s = _
  unfold StateT.bind
  cases x s with
  | ok r => rfl
  | error e => rfl

/-- A sequence whose first half is known. -/
theorem bind_of_ok {x : Comp σ ε α} {f : α → Comp σ ε β} {s s' : σ} {a : α}
    (hx : x s = .ok (a, s')) : (x >>= f) s = f a s' := by
  rw [bind_eq, hx]

/-- Reading the state passes it on. -/
theorem get_bind (f : σ → Comp σ ε β) (s : σ) : ((get : Comp σ ε σ) >>= f) s = f s s := rfl

/-- A change of the state is seen by what follows. -/
theorem modify_bind (g : σ → σ) (f : PUnit → Comp σ ε β) (s : σ) :
    ((modify g : Comp σ ε PUnit) >>= f) s = f ⟨⟩ (g s) := rfl

/-- A sequence whose first half stops. -/
theorem bind_of_error {x : Comp σ ε α} {f : α → Comp σ ε β} {s : σ} {e : ε}
    (hx : x s = .error e) : (x >>= f) s = .error e := by
  rw [bind_eq, hx]

/-- **The rule for a sequence**: the first part has to lead where the second one is right. -/
@[simp] theorem post_bind {x : Comp σ ε α} {f : α → Comp σ ε β} {Q : β → σ → Prop} :
    Post (x >>= f) Q s ↔ Post x (fun a s' => Post (f a) Q s') s := by
  constructor
  · intro h a s' hx b s'' hf
    apply h b s''
    rw [bind_eq, hx]
    exact hf
  · intro h b s'' heq
    rw [bind_eq] at heq
    cases hx : x s with
    | error e => rw [hx] at heq; cases heq
    | ok r =>
        rw [hx] at heq
        exact h r.1 r.2 hx b s'' heq

/-- The same where the first part is known to return. -/
theorem post_bind_of_ok {x : Comp σ ε α} {f : α → Comp σ ε β} {Q : β → σ → Prop} {a : α} {s' : σ}
    (hx : x s = .ok (a, s')) : Post (x >>= f) Q s ↔ Post (f a) Q s' := by
  unfold Post
  rw [bind_of_ok hx]

/-- A computation that is known to return satisfies what its result does. -/
theorem post_of_ok {x : Comp σ ε α} {a : α} {s' : σ} (hx : x s = .ok (a, s')) (h : Q a s') :
    Post x Q s := by
  intro b s'' heq
  rw [hx] at heq
  cases heq
  exact h

/-- Reading the state leaves it as it is. -/
@[simp] theorem post_get {Q : σ → σ → Prop} : Post (get : Comp σ ε σ) Q s ↔ Q s s :=
  post_pure (a := s)

/-- A change of the state gives what the function gives. -/
@[simp] theorem post_modify {f : σ → σ} {Q : PUnit → σ → Prop} :
    Post (modify f : Comp σ ε PUnit) Q s ↔ Q ⟨⟩ (f s) := by
  constructor
  · intro h
    exact h _ _ rfl
  · intro h b s' heq
    cases heq
    exact h

/-- A branch is right when each side is where it is taken. -/
@[simp] theorem post_ite {c : Prop} [Decidable c] {x y : Comp σ ε α} :
    Post (if c then x else y) Q s ↔ (c → Post x Q s) ∧ (¬ c → Post y Q s) := by
  by_cases hc : c
  · simp [hc]
  · simp [hc]

/-! ## Computations that return -/

/-- `x` returns from `s`. -/
def Returns (x : Comp σ ε α) (s : σ) : Prop := ∃ a s', x s = .ok (a, s')

@[simp] theorem returns_pure {a : α} : Returns (pure a : Comp σ ε α) s := ⟨a, s, rfl⟩

/-- A sequence returns if its first half does, and the second half from where the first
one ends. -/
theorem Returns.bind {x : Comp σ ε α} {f : α → Comp σ ε β} (hx : Returns x s)
    (hf : Post x (fun a s' => Returns (f a) s') s) : Returns (x >>= f) s := by
  obtain ⟨a, s', heq⟩ := hx
  obtain ⟨b, s'', heq'⟩ := hf a s' heq
  refine ⟨b, s'', ?_⟩
  rw [bind_eq, heq]
  exact heq'

/-- A branch returns when the side that is taken does. -/
theorem Returns.ite {c : Prop} [Decidable c] {x y : Comp σ ε α} (hx : c → Returns x s)
    (hy : ¬ c → Returns y s) : Returns (if c then x else y) s := by
  by_cases hc : c
  · rw [if_pos hc]
    exact hx hc
  · rw [if_neg hc]
    exact hy hc

end Rules

/-! ## Loops -/

/-- Rounds of `body` on a local value until it returns the result, at most `n` of
them; the loop that has not ended by then stops with `out`. -/
def iter (out : ε) (body : β → Comp σ ε (β ⊕ α)) : ℕ → β → Comp σ ε α
  | 0, _ => throw out
  | n + 1, b => do
      match ← body b with
      | .inl b' => iter out body n b'
      | .inr a => pure a

/-- A loop that ends in its first round. -/
theorem iter_succ_of_inr {out : ε} {body : β → Comp σ ε (β ⊕ α)} {b : β} {s s' : σ} {a : α}
    (h : body b s = .ok (.inr a, s')) (n : ℕ) : iter out body (n + 1) b s = .ok (a, s') := by
  unfold iter
  rw [bind_eq, h]
  rfl

/-- A loop that goes on after its first round. -/
theorem iter_succ_of_inl {out : ε} {body : β → Comp σ ε (β ⊕ α)} {b b' : β} {s s' : σ}
    (h : body b s = .ok (.inl b', s')) (n : ℕ) :
    iter out body (n + 1) b s = iter out body n b' s' := by
  conv_lhs => unfold iter
  rw [bind_eq, h]

/-- A loop whose first round returns, and with a result. -/
theorem Returns.iter_of_inr {out : ε} {body : β → Comp σ ε (β ⊕ α)} {b : β} {s : σ}
    (hret : Returns (body b) s) (hinr : Post (body b) (fun r _ => ∃ a, r = .inr a) s) (n : ℕ) :
    Returns (iter out body (n + 1) b) s := by
  obtain ⟨r, s', heq⟩ := hret
  obtain ⟨a, rfl⟩ := hinr r s' heq
  exact ⟨a, s', iter_succ_of_inr heq n⟩

/-- The invariant rule: what every round keeps, and gives at the end. -/
theorem Post.iter {out : ε} {body : β → Comp σ ε (β ⊕ α)} {Q : α → σ → Prop}
    (I : β → σ → Prop)
    (hbody : ∀ b s, I b s → Post (body b)
      (fun r s' => match r with | .inl b' => I b' s' | .inr a => Q a s') s)
    (n : ℕ) {b : β} {s : σ} (hI : I b s) : Post (iter out body n b) Q s := by
  induction n generalizing b s with
  | zero => exact post_throw.2 trivial
  | succ n ih =>
      show Post (body b >>= _) Q s
      rw [post_bind]
      refine (hbody b s hI).mono ?_
      intro r s' hr
      cases r with
      | inl b' => exact ih hr
      | inr a => exact post_pure.2 hr

/-! ## Reasons that do not occur -/

/-- `x` does not stop with `e` when it is started from `s`. -/
def Avoids (e : ε) (x : Comp σ ε α) (s : σ) : Prop := x s ≠ .error e

/-- `x` does not stop with `e` wherever it is started. -/
def Never (e : ε) (x : Comp σ ε α) : Prop := ∀ s, Avoids e x s

section Never

variable {e : ε} {s : σ}

/-- What always returns never stops with `e`. -/
theorem never_of_ok {x : Comp σ ε α} (f : σ → α × σ) (hx : ∀ s, x s = .ok (f s)) : Never e x := by
  intro s h
  rw [hx] at h
  cases h

theorem never_pure (a : α) : Never e (pure a : Comp σ ε α) :=
  never_of_ok (fun s => (a, s)) fun _ => rfl

/-- Reading the state does not stop. -/
theorem never_get : Never e (get : Comp σ ε σ) := never_of_ok (fun s => (s, s)) fun _ => rfl

/-- A change of the state does not stop. -/
theorem never_modify (f : σ → σ) : Never e (modify f : Comp σ ε PUnit) :=
  never_of_ok (fun s => (⟨⟩, f s)) fun _ => rfl

/-- A stop with another reason is not one with `e`. -/
theorem never_throw {e' : ε} (hne : e' ≠ e) : Never e (throw e' : Comp σ ε α) :=
  fun _ h => hne (Except.error.inj h)

/-- A sequence avoids `e` when its second part does wherever the first one leads. -/
theorem Avoids.bind {x : Comp σ ε α} {f : α → Comp σ ε β} (hx : Avoids e x s)
    (hf : Post x (fun a s' => Avoids e (f a) s') s) : Avoids e (x >>= f) s := by
  intro h
  rw [bind_eq] at h
  cases heq : x s with
  | ok r =>
      rw [heq] at h
      exact hf r.1 r.2 heq h
  | error e' =>
      rw [heq] at h
      exact hx (heq.trans (congrArg Except.error (Except.error.inj h)))

/-- A sequence never stops with `e` when neither part does. -/
theorem Never.bind {x : Comp σ ε α} {f : α → Comp σ ε β} (hx : Never e x)
    (hf : ∀ a, Never e (f a)) : Never e (x >>= f) :=
  fun s => (hx s).bind fun a s' _ => hf a s'

/-- A branch never stops with `e` when neither side does. -/
theorem Never.ite {c : Prop} [Decidable c] {x y : Comp σ ε α} (hx : Never e x)
    (hy : Never e y) : Never e (if c then x else y) := by
  by_cases hc : c
  · rw [if_pos hc]
    exact hx
  · rw [if_neg hc]
    exact hy

/-- A loop never stops with `e` when no round does and running out of rounds is another stop. -/
theorem Never.iter {out : ε} {body : β → Comp σ ε (β ⊕ α)} (hne : out ≠ e)
    (hbody : ∀ b, Never e (body b)) (n : ℕ) (b : β) : Never e (iter out body n b) := by
  induction n generalizing b with
  | zero => exact never_throw hne
  | succ n ih =>
      refine (hbody b).bind fun r => ?_
      cases r with
      | inl b' => exact ih b'
      | inr a => exact never_pure a

end Never

/-! ## Computations that return more often -/

/-- Whatever `x` returns, `y` returns too. -/
def Below (x y : Comp σ ε α) : Prop := ∀ s a s', x s = .ok (a, s') → y s = .ok (a, s')

theorem Below.refl (x : Comp σ ε α) : Below x x := fun _ _ _ h => h

theorem Below.trans {x y z : Comp σ ε α} (hxy : Below x y) (hyz : Below y z) : Below x z :=
  fun s a s' h => hyz s a s' (hxy s a s' h)

/-- A stop is less defined than anything. -/
theorem below_throw (e : ε) (x : Comp σ ε α) : Below (throw e) x := fun _ _ _ h => by cases h

/-- Sequences are ordered when their parts are. -/
theorem Below.bind {x y : Comp σ ε α} {f g : α → Comp σ ε β} (hxy : Below x y)
    (hfg : ∀ a, Below (f a) (g a)) : Below (x >>= f) (y >>= g) := by
  intro s b s'' h
  rw [bind_eq] at h
  cases hx : x s with
  | error e =>
      rw [hx] at h
      cases h
  | ok r =>
      rw [hx] at h
      rw [bind_of_ok (hxy s r.1 r.2 hx)]
      exact hfg r.1 r.2 b s'' h

/-- Branches are ordered when their sides are. -/
theorem Below.ite {c : Prop} [Decidable c] {x y x' y' : Comp σ ε α} (hx : Below x x')
    (hy : Below y y') : Below (if c then x else y) (if c then x' else y') := by
  by_cases hc : c
  · rw [if_pos hc, if_pos hc]
    exact hx
  · rw [if_neg hc, if_neg hc]
    exact hy

/-! ## Properties of the state that are kept -/

/-- Wherever `x` is started in a state of `I`, it ends in one if it returns. -/
def Maintains (I : σ → Prop) (x : Comp σ ε α) : Prop := ∀ s, I s → Post x (fun _ s' => I s') s

section Maintains

variable {I : σ → Prop}

theorem maintains_pure (a : α) : Maintains I (pure a : Comp σ ε α) := fun _ hs => post_pure.2 hs

/-- Reading the state leaves the invariant as it is. -/
theorem maintains_get : Maintains I (get : Comp σ ε σ) := fun _ hs => post_get.2 hs

/-- A change of the state maintains what the function maintains. -/
theorem maintains_modify {g : σ → σ} (hg : ∀ s, I s → I (g s)) :
    Maintains I (modify g : Comp σ ε PUnit) := fun s hs => post_modify.2 (hg s hs)

/-- A sequence maintains what both of its parts maintain. -/
theorem Maintains.bind {x : Comp σ ε α} {y : α → Comp σ ε β} (hx : Maintains I x)
    (hy : ∀ a, Maintains I (y a)) : Maintains I (x >>= y) := by
  intro s hs
  rw [post_bind]
  exact (hx s hs).mono fun a s' hs' => hy a s' hs'

/-- A branch maintains what both sides maintain. -/
theorem Maintains.ite {c : Prop} [Decidable c] {x y : Comp σ ε α} (hx : Maintains I x)
    (hy : Maintains I y) : Maintains I (if c then x else y) := by
  by_cases hc : c
  · rw [if_pos hc]
    exact hx
  · rw [if_neg hc]
    exact hy

/-- A loop maintains what every round maintains. -/
theorem Maintains.iter {out : ε} {body : β → Comp σ ε (β ⊕ α)}
    (hbody : ∀ b, Maintains I (body b)) (n : ℕ) (b : β) : Maintains I (iter out body n b) := by
  intro s hs
  refine Post.iter (fun _ s' => I s') (fun b' s' hs' => ?_) n hs
  refine (hbody b' s' hs').mono fun r s'' hs'' => ?_
  cases r with
  | inl b'' => exact hs''
  | inr a => exact hs''

end Maintains

/-! ## Parts of the state that do not change -/

/-- Wherever `x` is started, it leaves `f` of the state as it is. -/
def Keeps {γ : Type*} (f : σ → γ) (x : Comp σ ε α) : Prop :=
  ∀ s, Post x (fun _ s' => f s' = f s) s

section Keeps

variable {γ : Type*} {f : σ → γ}

theorem keeps_pure (a : α) : Keeps f (pure a : Comp σ ε α) := fun _ => post_pure.2 rfl

/-- Reading the state leaves everything. -/
theorem keeps_get : Keeps f (get : Comp σ ε σ) := fun _ => post_get.2 rfl

/-- A change of the state keeps what the function keeps. -/
theorem keeps_modify {g : σ → σ} (hg : ∀ s, f (g s) = f s) :
    Keeps f (modify g : Comp σ ε PUnit) := fun s => post_modify.2 (hg s)

/-- A sequence keeps what both of its parts keep. -/
theorem Keeps.bind {x : Comp σ ε α} {y : α → Comp σ ε β} (hx : Keeps f x)
    (hy : ∀ a, Keeps f (y a)) : Keeps f (x >>= y) := by
  intro s
  rw [post_bind]
  exact (hx s).mono fun a s' hs => (hy a s').mono fun _ _ hs' => hs'.trans hs

/-- A branch keeps what both sides keep. -/
theorem Keeps.ite {c : Prop} [Decidable c] {x y : Comp σ ε α} (hx : Keeps f x)
    (hy : Keeps f y) : Keeps f (if c then x else y) := by
  by_cases hc : c
  · rw [if_pos hc]
    exact hx
  · rw [if_neg hc]
    exact hy

/-- A loop keeps what every round keeps. -/
theorem Keeps.iter {out : ε} {body : β → Comp σ ε (β ⊕ α)} (hbody : ∀ b, Keeps f (body b))
    (n : ℕ) (b : β) : Keeps f (iter out body n b) := by
  intro s
  refine Post.iter (fun _ s' => f s' = f s) ?_ n rfl
  intro b' s' hs
  refine (hbody b' s').mono fun r s'' hs' => ?_
  cases r with
  | inl b'' => exact hs'.trans hs
  | inr a => exact hs'.trans hs

end Keeps

/-! ## Relations of the states before and after -/

/-- Whenever `x` returns, it has taken the state along `R`. -/
def Along (R : σ → σ → Prop) (x : Comp σ ε α) : Prop := ∀ s, Post x (fun _ s' => R s s') s

section Along

variable {R R' : σ → σ → Prop}

/-- A larger relation holds along a computation as well. -/
theorem Along.mono {x : Comp σ ε α} (hx : Along R x) (himp : ∀ s s', R s s' → R' s s') :
    Along R' x := fun s => (hx s).mono fun _ s' h => himp s s' h

theorem along_pure [Std.Refl R] (a : α) : Along R (pure a : Comp σ ε α) :=
  fun s => post_pure.2 (Std.Refl.refl s)

/-- A sequence goes along a transitive relation when both parts do. -/
theorem Along.bind [IsTrans σ R] {x : Comp σ ε α} {y : α → Comp σ ε β} (hx : Along R x)
    (hy : ∀ a, Along R (y a)) : Along R (x >>= y) := by
  intro s
  rw [post_bind]
  exact (hx s).mono fun a s' hs => (hy a s').mono fun _ s'' hs' => IsTrans.trans s s' s'' hs hs'

/-- A branch goes along a relation when both sides do. -/
theorem Along.ite {c : Prop} [Decidable c] {x y : Comp σ ε α} (hx : Along R x)
    (hy : Along R y) : Along R (if c then x else y) := by
  by_cases hc : c
  · rw [if_pos hc]
    exact hx
  · rw [if_neg hc]
    exact hy

/-- A loop goes along a preorder when every round does. -/
theorem Along.iter [Std.Refl R] [IsTrans σ R] {out : ε} {body : β → Comp σ ε (β ⊕ α)}
    (hbody : ∀ b, Along R (body b)) (n : ℕ) (b : β) : Along R (iter out body n b) := by
  intro s
  refine Post.iter (fun _ s' => R s s') ?_ n (Std.Refl.refl s)
  intro b' s' hs
  refine (hbody b' s').mono fun r s'' hs' => ?_
  have htrans : R s s'' := IsTrans.trans s s' s'' hs hs'
  cases r with
  | inl b'' => exact htrans
  | inr a => exact htrans

end Along

/-! ## What a computation is made of -/

/-- `x` is made of steps in `A`, each chosen by what those before it returned.  Of what a part
returns something may be known (`V`). -/
inductive Made (A : (α : Type u) → Comp σ ε α → Prop) : {α : Type u} → Comp σ ε α → Prop
  | step {α : Type u} {x : Comp σ ε α} : A α x → Made A x
  | pure {α : Type u} (a : α) : Made A (Pure.pure a : Comp σ ε α)
  | bindOf {α β : Type u} {x : Comp σ ε α} {y : α → Comp σ ε β} (V : α → Prop) : Made A x →
      (∀ s, Post x (fun a _ => V a) s) → (∀ a, V a → Made A (y a)) → Made A (x >>= y)

section Made

variable {A : (α : Type u) → Comp σ ε α → Prop} {x : Comp σ ε α}

/-- A sequence of two parts of which nothing more is known. -/
theorem Made.bind {y : α → Comp σ ε β} (hx : Made A x) (hy : ∀ a, Made A (y a)) :
    Made A (x >>= y) :=
  .bindOf (fun _ => True) hx (fun _ _ _ _ => trivial) fun a _ => hy a

/-- One of two computations. -/
theorem Made.ite {c : Prop} [Decidable c] {y : Comp σ ε α} (hx : Made A x) (hy : Made A y) :
    Made A (if c then x else y) := by
  by_cases hc : c
  · rw [if_pos hc]
    exact hx
  · rw [if_neg hc]
    exact hy

/-- A loop is made of the steps of its rounds, and may stop with `out`. -/
theorem Made.iter {out : ε} {body : β → Comp σ ε (β ⊕ α)}
    (hout : A α (throw out : Comp σ ε α)) (hbody : ∀ b, Made A (body b)) (n : ℕ) (b : β) :
    Made A (Comp.iter out body n b) := by
  induction n generalizing b with
  | zero => exact .step hout
  | succ n ih =>
      refine (hbody b).bind fun r => ?_
      cases r with
      | inl b' => exact ih b'
      | inr a => exact .pure a

/-- What every step does not stop with, the computation does not stop with. -/
theorem Made.never {e : ε} (h : Made A x) (hA : ∀ α (x : Comp σ ε α), A α x → Never e x) :
    Never e x := by
  induction h with
  | step hx => exact hA _ _ hx
  | pure a => exact never_pure a
  | bindOf V _ hV _ hx hy => exact fun s => (hx s).bind fun a s' heq => hy a (hV s a s' heq) s'

/-- A preorder along which every step goes, the computation goes along. -/
theorem Made.along {R : σ → σ → Prop} [Std.Refl R] [IsTrans σ R] (h : Made A x)
    (hA : ∀ α (x : Comp σ ε α), A α x → Along R x) : Along R x := by
  induction h with
  | step hx => exact hA _ _ hx
  | pure a => exact along_pure a
  | bindOf V _ hV _ hx hy =>
      intro s
      rw [post_bind]
      intro a s' heq
      exact (hy a (hV s a s' heq) s').mono fun _ s'' hs' =>
        IsTrans.trans s s' s'' (hx s a s' heq) hs'

/-- What every step keeps true, the computation keeps true. -/
theorem Made.maintains {I : σ → Prop} (h : Made A x)
    (hA : ∀ α (x : Comp σ ε α), A α x → Maintains I x) : Maintains I x := by
  induction h with
  | step hx => exact hA _ _ hx
  | pure a => exact maintains_pure a
  | bindOf V _ hV _ hx hy =>
      intro s hs
      rw [post_bind]
      intro a s' heq
      exact hy a (hV s a s' heq) s' (hx s hs a s' heq)

/-- What every step leaves alone, the computation leaves alone. -/
theorem Made.keeps {γ : Type*} {f : σ → γ} (h : Made A x)
    (hA : ∀ α (x : Comp σ ε α), A α x → Keeps f x) : Keeps f x := by
  have : Std.Refl fun s s' => f s' = f s := ⟨fun _ => rfl⟩
  have : IsTrans σ fun s s' => f s' = f s := ⟨fun _ _ _ h h' => h'.trans h⟩
  exact h.along hA

end Made

/-! ## Runs of calls -/

/-- The states reached from `s₀` by calls that return, each made in a state where `ok`
allows it. -/
inductive Run {κ : Type*} (exec : κ → Comp σ ε α) (ok : σ → κ → Prop) (s₀ : σ) : σ → Prop
  | start : Run exec ok s₀ s₀
  | step {s s' : σ} {call : κ} {a : α} :
      Run exec ok s₀ s → ok s call → exec call s = .ok (a, s') → Run exec ok s₀ s'

/-- What holds at the start and is kept by every call holds in every state reached. -/
theorem Run.invariant {κ : Type*} {exec : κ → Comp σ ε α} {ok : σ → κ → Prop} {s₀ s : σ}
    {I : σ → Prop} (hrun : Run exec ok s₀ s) (hstart : I s₀)
    (hstep : ∀ s call, I s → ok s call → Post (exec call) (fun _ s' => I s') s) : I s := by
  induction hrun with
  | start => exact hstart
  | step _ hok hret ih => exact hstep _ _ ih hok _ _ hret

/-- The state after a list of calls, if all of them return and `ok` allows each. -/
def runList {κ : Type*} (exec : κ → Comp σ ε α) (ok : σ → κ → Bool) : List κ → σ → Option σ
  | [], s => some s
  | call :: calls, s =>
      if ok s call then
        match exec call s with
        | .ok (_, s') => runList exec ok calls s'
        | .error _ => none
      else none

/-- A run that is computed from a list of calls is a run. -/
theorem Run.of_runList {κ : Type*} {exec : κ → Comp σ ε α} {ok : σ → κ → Prop}
    {okb : σ → κ → Bool} (hok : ∀ s call, okb s call = true → ok s call) {s₀ s s' : σ}
    {calls : List κ} (hrun : Run exec ok s₀ s) (h : runList exec okb calls s = some s') :
    Run exec ok s₀ s' := by
  induction calls generalizing s with
  | nil =>
      cases h
      exact hrun
  | cons call calls ih =>
      unfold runList at h
      split_ifs at h with hb
      cases hex : exec call s with
      | error e =>
          rw [hex] at h
          cases h
      | ok r =>
          rw [hex] at h
          exact ih (.step hrun (hok s call hb) hex) h

/-- A call of a run: the state before it, what it returned, and the state after it. -/
structure Step (σ κ α : Type*) where
  before : σ
  call : κ
  result : α
  after : σ

/-- The calls of a list one after the other, up to the first that does not return. -/
def steps {κ : Type*} (exec : κ → Comp σ ε α) : List κ → σ → List (Step σ κ α)
  | [], _ => []
  | call :: calls, s =>
      match exec call s with
      | .ok (a, s') => ⟨s, call, a, s'⟩ :: steps exec calls s'
      | .error _ => []

/-- Each step of a run is a call that returned. -/
theorem exec_of_mem_steps {κ : Type*} {exec : κ → Comp σ ε α} {calls : List κ} {s : σ}
    {t : Step σ κ α} (h : t ∈ steps exec calls s) :
    exec t.call t.before = .ok (t.result, t.after) := by
  induction calls generalizing s with
  | nil => exact absurd h List.not_mem_nil
  | cons call calls ih =>
      unfold steps at h
      cases hex : exec call s with
      | error e =>
          rw [hex] at h
          exact absurd h List.not_mem_nil
      | ok r =>
          rw [hex] at h
          rcases List.mem_cons.1 h with rfl | h
          · exact hex
          · exact ih h

/-- The calls of a run are those of the list, in order. -/
theorem call_of_getElem?_steps {κ : Type*} {exec : κ → Comp σ ε α} {calls : List κ} {s : σ} {k : ℕ}
    {t : Step σ κ α} (h : (steps exec calls s)[k]? = some t) : calls[k]? = some t.call := by
  induction calls generalizing s k with
  | nil =>
      rw [show (steps exec [] s)[k]? = none from List.getElem?_nil] at h
      cases h
  | cons call calls ih =>
      unfold steps at h
      cases hex : exec call s with
      | error e =>
          rw [hex] at h
          cases h
      | ok r =>
          rw [hex] at h
          cases k with
          | zero =>
              cases h
              rfl
          | succ k => exact ih h

/-! ## A component of the state -/

/-- Run `x` on the component that `get` reads and `put` replaces. -/
def focus (get : τ → σ) (put : σ → τ → τ) (x : Comp σ ε α) : Comp τ ε α := fun t =>
  match x (get t) with
  | .ok (a, s) => .ok (a, put s t)
  | .error e => .error e

/-- A computation on a part returns what it returns there. -/
theorem focus_of_ok {get : τ → σ} {put : σ → τ → τ} {x : Comp σ ε α} {t : τ} {a : α} {s : σ}
    (hx : x (get t) = .ok (a, s)) : focus get put x t = .ok (a, put s t) := by
  unfold focus
  rw [hx]

/-- A computation on a part returns when it does there. -/
theorem Returns.focus {get : τ → σ} {put : σ → τ → τ} {x : Comp σ ε α} {t : τ}
    (hx : Returns x (get t)) : Returns (focus get put x) t := by
  obtain ⟨a, s, heq⟩ := hx
  exact ⟨a, put s t, focus_of_ok heq⟩

/-- What `put` leaves alone. -/
theorem keeps_focus {γ : Type*} {f : τ → γ} {get : τ → σ} {put : σ → τ → τ} (x : Comp σ ε α)
    (hput : ∀ s t, f (put s t) = f t) : Keeps f (focus get put x) := by
  intro t a t' heq
  unfold Comp.focus at heq
  cases hx : x (get t) with
  | ok r =>
      rw [hx] at heq
      cases heq
      exact hput r.2 t
  | error e =>
      rw [hx] at heq
      cases heq

/-- What `x` leaves alone on the component. -/
theorem Keeps.focus {γ : Type*} {f : σ → γ} {g : τ → γ} {get : τ → σ} {put : σ → τ → τ}
    {x : Comp σ ε α} (hx : Keeps f x) (hget : ∀ t, g t = f (get t))
    (hput : ∀ s t, g (put s t) = f s) : Keeps g (Comp.focus get put x) := by
  intro t a t' heq
  unfold Comp.focus at heq
  cases hx' : x (get t) with
  | ok r =>
      rw [hx'] at heq
      cases heq
      rw [hput, hget]
      exact hx (get t) _ _ hx'
  | error e =>
      rw [hx'] at heq
      cases heq

/-- A computation on a part never stops with `e` when it does not there. -/
theorem Never.focus {e : ε} {get : τ → σ} {put : σ → τ → τ} {x : Comp σ ε α}
    (hx : Never e x) : Never e (focus get put x) := by
  intro t h
  unfold Comp.focus at h
  cases heq : x (get t) with
  | ok r =>
      rw [heq] at h
      cases h
  | error e' =>
      rw [heq] at h
      exact hx (get t) (heq.trans (congrArg Except.error (Except.error.inj h)))

/-- **The rule for a part of the state**: the rest of the state is as it was. -/
@[simp] theorem post_focus {get : τ → σ} {put : σ → τ → τ} {x : Comp σ ε α}
    {Q : α → τ → Prop} {t : τ} :
    Post (focus get put x) Q t ↔ Post x (fun a s => Q a (put s t)) (get t) := by
  constructor
  · intro h a s hx
    apply h a (put s t)
    show (match x (get t) with
      | .ok (a, s) => Except.ok (a, put s t)
      | .error e => .error e) = _
    rw [hx]
  · intro h a t' heq
    unfold focus at heq
    cases hx : x (get t) with
    | error e => rw [hx] at heq; cases heq
    | ok r =>
        rw [hx] at heq
        cases heq
        exact h r.1 r.2 hx

end Comp
