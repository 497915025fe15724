/-
# Rounds until one decides

A loop that makes round after round until one of them gives a result.  The rounds are
numbered, and a round is a function of its number: what it starts from is the same every
time.  `attempts_eq_some_iff` says that the result is that of the first round that has one.

A search for something free is of this kind: each round offers a candidate, unless it is taken.
It ends by the pigeonhole principle, when there are more candidates than can be taken.
-/
import Mathlib

namespace Retry

variable {ρ : Type*}

/-- The result of the first round from number `k` on that has one; the first argument bounds
the rounds. -/
def attempts (round : ℕ → Option ρ) : ℕ → ℕ → Option ρ
  | 0, _ => none
  | fuel + 1, k =>
      match round k with
      | some r => some r
      | none => attempts round fuel (k + 1)

/-- Round `k` is the first one with a result. -/
structure FirstAt (round : ℕ → Option ρ) (k : ℕ) (r : ρ) : Prop where
  before : ∀ j < k, round j = none
  result : round k = some r

variable {round : ℕ → Option ρ}

theorem attempts_succ_of_some {fuel k : ℕ} {r : ρ} (h : round k = some r) :
    attempts round (fuel + 1) k = some r := by
  unfold attempts
  rw [h]

theorem attempts_succ_of_none {fuel k : ℕ} (h : round k = none) :
    attempts round (fuel + 1) k = attempts round fuel (k + 1) := by
  conv_lhs => unfold attempts
  rw [h]

theorem attempts_from_iff {fuel k : ℕ} {r : ρ} :
    attempts round fuel k = some r
      ↔ ∃ j, k ≤ j ∧ j < k + fuel ∧ (∀ l, k ≤ l → l < j → round l = none) ∧ round j = some r := by
  induction fuel generalizing k with
  | zero =>
      constructor
      · intro h
        cases h
      · rintro ⟨j, hlo, hhi, -⟩
        omega
  | succ fuel ih =>
      unfold attempts
      cases hk : round k with
      | some r' =>
          constructor
          · intro h
            cases h
            exact ⟨k, le_rfl, by omega, fun l hlo hhi => by omega, hk⟩
          · rintro ⟨j, hlo, -, hbefore, hres⟩
            rcases hlo.eq_or_lt with rfl | hlt
            · rw [← hk, hres]
            · -- an earlier round has a result already
              rw [hbefore k le_rfl hlt] at hk
              cases hk
      | none =>
          dsimp only
          rw [ih]
          constructor
          · rintro ⟨j, hlo, hhi, hbefore, hres⟩
            refine ⟨j, by omega, by omega, fun l hl hlj => ?_, hres⟩
            rcases hl.eq_or_lt with rfl | hlt
            · exact hk
            · exact hbefore l hlt hlj
          · rintro ⟨j, hlo, hhi, hbefore, hres⟩
            have hne : k ≠ j := by
              rintro rfl
              rw [hk] at hres
              cases hres
            exact ⟨j, by omega, by omega, fun l hl hlj => hbefore l (by omega) hlj, hres⟩

/-- **The result is that of the first round that has one.** -/
theorem attempts_eq_some_iff {fuel : ℕ} {r : ρ} :
    attempts round fuel 0 = some r ↔ ∃ k < fuel, FirstAt round k r := by
  rw [attempts_from_iff]
  constructor
  · rintro ⟨k, -, hlt, hbefore, hres⟩
    exact ⟨k, by omega, fun j hj => hbefore j (Nat.zero_le j) hj, hres⟩
  · rintro ⟨k, hlt, hbefore, hres⟩
    exact ⟨k, Nat.zero_le k, by omega, fun l _ hl => hbefore l hl, hres⟩

/-- There is only one first round. -/
theorem FirstAt.unique {j k : ℕ} {r r' : ρ} (h : FirstAt round j r) (h' : FirstAt round k r') :
    j = k ∧ r = r' := by
  have hjk : j = k := by
    rcases Nat.lt_trichotomy j k with hlt | heq | hlt
    · have hnone := h'.before j hlt
      rw [h.result] at hnone
      cases hnone
    · exact heq
    · have hnone := h.before k hlt
      rw [h'.result] at hnone
      cases hnone
  subst hjk
  exact ⟨rfl, Option.some.inj (h.result.symm.trans h'.result)⟩

/-- There is a first round with a result when there is any, and it comes no later. -/
theorem exists_firstAt {k : ℕ} (h : round k ≠ none) : ∃ j ≤ k, ∃ r, FirstAt round j r := by
  classical
  have hex : ∃ k, round k ≠ none := ⟨k, h⟩
  obtain ⟨r, hr⟩ := Option.ne_none_iff_exists'.1 (Nat.find_spec hex)
  refine ⟨Nat.find hex, Nat.find_min' hex h, r, fun j hj => ?_, hr⟩
  exact not_not.1 (Nat.find_min hex hj)

/-! ## Candidates -/

section Candidates

variable {α : Type*} {taken : α → Bool} {candidate : ℕ → α}

/-- A round that has its candidate as the result unless it is taken. -/
def offer (taken : α → Bool) (candidate : ℕ → α) (k : ℕ) : Option α :=
  if taken (candidate k) then none else some (candidate k)

theorem offer_of_taken {k : ℕ} (h : taken (candidate k) = true) :
    offer taken candidate k = none := if_pos h

theorem offer_eq_some_iff {k : ℕ} {a : α} :
    offer taken candidate k = some a ↔ taken a = false ∧ candidate k = a := by
  unfold offer
  split_ifs with h
  · constructor
    · intro heq
      cases heq
    · rintro ⟨hfree, rfl⟩
      rw [h] at hfree
      cases hfree
  · constructor
    · intro heq
      cases heq
      exact ⟨Bool.eq_false_iff.2 h, rfl⟩
    · rintro ⟨-, rfl⟩
      rfl

/-- **One of the candidates is free** when they are more than can be taken. -/
theorem exists_free [DecidableEq α] {s : Finset α} (hs : ∀ a, taken a = true → a ∈ s)
    (hinj : Set.InjOn candidate (Set.Iic s.card)) : ∃ k ≤ s.card, taken (candidate k) = false := by
  by_contra hall
  have hsub : (Finset.range (s.card + 1)).image candidate ⊆ s := by
    intro a ha
    obtain ⟨k, hk, rfl⟩ := Finset.mem_image.1 ha
    refine hs _ ?_
    by_contra hfree
    exact hall ⟨k, by rw [Finset.mem_range] at hk; omega, Bool.eq_false_iff.2 hfree⟩
  have hcard := Finset.card_le_card hsub
  rw [Finset.card_image_of_injOn, Finset.card_range] at hcard
  · omega
  · intro a ha b hb hab
    refine hinj ?_ ?_ hab
    · exact Set.mem_Iic.2 (Nat.le_of_lt_succ (Finset.mem_range.1 ha))
    · exact Set.mem_Iic.2 (Nat.le_of_lt_succ (Finset.mem_range.1 hb))

/-- **The search has a result** before there have been more rounds than can be taken. -/
theorem exists_firstAt_offer [DecidableEq α] {s : Finset α} (hs : ∀ a, taken a = true → a ∈ s)
    (hinj : Set.InjOn candidate (Set.Iic s.card)) :
    ∃ k ≤ s.card, FirstAt (offer taken candidate) k (candidate k) := by
  have hfree := exists_free hs hinj
  refine ⟨Nat.find hfree, (Nat.find_spec hfree).1, fun j hj => ?_, ?_⟩
  · have hle := (Nat.find_spec hfree).1
    have hnot := Nat.find_min hfree hj
    refine offer_of_taken ?_
    by_contra h
    exact hnot ⟨by omega, Bool.eq_false_iff.2 h⟩
  · exact offer_eq_some_iff.2 ⟨(Nat.find_spec hfree).2, rfl⟩

end Candidates

end Retry
