/-
# Handles and their owners

Handles are given out and taken back.  A live handle names its owner, and owners point
to handles.  `Balanced` says that the two agree: whatever an owner points to is live and
names that owner, and every live handle is pointed to.  So a live handle has exactly one
owner (`Balanced.existsUnique`).

Giving a fresh handle to an owner and taking a handle back keep the balance; dropping a
pointer to a live handle does not.
-/
import Mathlib

namespace Ownership

variable {ι δ : Type*}

/-- Live handles and pointers to them agree. -/
structure Balanced (live : δ → Prop) (owner : δ → Option ι) (points : ι → δ → Prop) : Prop where
  sound : ∀ i d, points i d → live d ∧ owner d = some i
  complete : ∀ d, live d → ∃ i, points i d

variable {live live' : δ → Prop} {owner owner' : δ → Option ι} {points points' : ι → δ → Prop}

/-- **A live handle has exactly one owner**, the one that it names. -/
theorem Balanced.existsUnique (h : Balanced live owner points) {d : δ} (hd : live d) :
    ∃ i, (points i d ∧ owner d = some i) ∧ ∀ j, points j d → j = i := by
  obtain ⟨i, hi⟩ := h.complete d hd
  have hown := (h.sound i d hi).2
  refine ⟨i, ⟨hi, hown⟩, fun j hj => ?_⟩
  have hown' := (h.sound j d hj).2
  rw [hown] at hown'
  exact (Option.some.inj hown').symm

/-- Pointers may move as long as they stay with their owner. -/
theorem Balanced.congr (h : Balanced live owner points) (hlive : ∀ d, live' d ↔ live d)
    (howner : ∀ d, live d → owner' d = owner d) (hpoints : ∀ i d, points' i d ↔ points i d) :
    Balanced live' owner' points' where
  sound i d hd := by
    obtain ⟨hl, ho⟩ := h.sound i d ((hpoints i d).1 hd)
    exact ⟨(hlive d).2 hl, (howner d hl).trans ho⟩
  complete d hd := by
    obtain ⟨i, hi⟩ := h.complete d ((hlive d).1 hd)
    exact ⟨i, (hpoints i d).2 hi⟩

/-- Give a fresh handle to an owner. -/
theorem Balanced.adopt (h : Balanced live owner points) {d : δ} {i : ι} (hfresh : ¬ live d)
    (hlive : ∀ d', live' d' ↔ live d' ∨ d' = d) (hself : owner' d = some i)
    (howner : ∀ d', d' ≠ d → owner' d' = owner d')
    (hpoints : ∀ j d', points' j d' ↔ points j d' ∨ (j = i ∧ d' = d)) :
    Balanced live' owner' points' where
  sound j d' hd' := by
    rcases (hpoints j d').1 hd' with hold | ⟨rfl, rfl⟩
    · obtain ⟨hl, ho⟩ := h.sound j d' hold
      have hne : d' ≠ d := by
        rintro rfl
        exact hfresh hl
      exact ⟨(hlive d').2 (.inl hl), (howner d' hne).trans ho⟩
    · exact ⟨(hlive d').2 (.inr rfl), hself⟩
  complete d' hd' := by
    rcases (hlive d').1 hd' with hl | rfl
    · obtain ⟨j, hj⟩ := h.complete d' hl
      exact ⟨j, (hpoints j d').2 (.inl hj)⟩
    · exact ⟨i, (hpoints i d').2 (.inr ⟨rfl, rfl⟩)⟩

/-- Take a handle back. -/
theorem Balanced.release (h : Balanced live owner points) {d : δ}
    (hlive : ∀ d', live' d' ↔ live d' ∧ d' ≠ d)
    (howner : ∀ d', d' ≠ d → owner' d' = owner d')
    (hpoints : ∀ j d', points' j d' ↔ points j d' ∧ d' ≠ d) :
    Balanced live' owner' points' where
  sound j d' hd' := by
    obtain ⟨hold, hne⟩ := (hpoints j d').1 hd'
    obtain ⟨hl, ho⟩ := h.sound j d' hold
    exact ⟨(hlive d').2 ⟨hl, hne⟩, (howner d' hne).trans ho⟩
  complete d' hd' := by
    obtain ⟨hl, hne⟩ := (hlive d').1 hd'
    obtain ⟨j, hj⟩ := h.complete d' hl
    exact ⟨j, (hpoints j d').2 ⟨hj, hne⟩⟩

end Ownership
