/-
# Bounded queues with stamped entries

A bounded list whose entries carry the number of entries appended up to and
including them.  `push` appends at the end while there is room, `pop` takes the
first entry that satisfies a test.  The stamps are strictly increasing along
the list (`WellFormed`), so an entry is identified by its stamp.
-/
import Mathlib

/-- A list of stamped entries and the number of entries appended so far. -/
structure StampedQueue (α : Type*) where
  count : ℕ
  entries : List (ℕ × α)

namespace StampedQueue

variable {α : Type*}

/-- The queue nothing was appended to. -/
def empty : StampedQueue α := ⟨0, []⟩

/-- The entries without their stamps. -/
def contents (a : StampedQueue α) : List α := a.entries.map Prod.snd

/-- Append `x` unless `cap` entries are there. -/
def push (cap : ℕ) (x : α) (a : StampedQueue α) : Option (StampedQueue α) :=
  if a.entries.length < cap then
    some ⟨a.count + 1, a.entries ++ [(a.count + 1, x)]⟩
  else none

/-- Take the first entry that satisfies `p`. -/
def pop (p : α → Bool) (a : StampedQueue α) : Option (α × StampedQueue α) :=
  match a.entries.find? fun e => p e.2 with
  | none => none
  | some e => some (e.2, { a with entries := a.entries.eraseP fun e => p e.2 })

/-! ## Well-formed queues -/

/-- Stamps increase along the list and none exceeds the count. -/
structure WellFormed (a : StampedQueue α) : Prop where
  sorted : a.entries.Pairwise fun e e' => e.1 < e'.1
  le_count : ∀ e ∈ a.entries, e.1 ≤ a.count

/-! ## Stamps that do not wrap -/

/-- Fewer than `k` entries were appended since any entry that is still there. -/
def Fresh (k : ℕ) (a : StampedQueue α) : Prop := ∀ e ∈ a.entries, a.count < e.1 + k

instance (k : ℕ) (a : StampedQueue α) : Decidable (Fresh k a) :=
  inferInstanceAs (Decidable (∀ e ∈ a.entries, _))

/-- A queue that fewer than `k` entries were ever appended to is fresh. -/
theorem Fresh.of_count_lt {k : ℕ} {a : StampedQueue α} (h : a.count < k) : Fresh k a :=
  fun _ _ => Nat.lt_of_lt_of_le h (Nat.le_add_left _ _)

/-- One stamp is used for a push. -/
theorem push_count_le {cap : ℕ} {x : α} {a b : StampedQueue α} (h : a.push cap x = some b) :
    b.count ≤ a.count + 1 := by
  unfold push at h
  split at h
  · cases h
    exact le_refl _
  · cases h

/-- The empty queue is well formed. -/
theorem wellFormed_empty : WellFormed (empty : StampedQueue α) :=
  ⟨List.Pairwise.nil, by simp [empty]⟩

/-- It stays so by a push. -/
theorem WellFormed.push {cap : ℕ} {x : α} {a b : StampedQueue α} (h : WellFormed a)
    (hb : a.push cap x = some b) : WellFormed b := by
  unfold StampedQueue.push at hb
  split at hb
  · cases hb
    constructor
    · rw [List.pairwise_append]
      refine ⟨h.sorted, List.pairwise_singleton _ _, ?_⟩
      intro e he e' he'
      rw [List.mem_singleton.mp he']
      have := h.le_count e he
      exact Nat.lt_succ_of_le this
    · intro e he
      rcases List.mem_append.mp he with he | he
      · have := h.le_count e he
        exact Nat.le_succ_of_le this
      · rw [List.mem_singleton.mp he]
  · cases hb

/-! ## What a pop does -/

/-- What a successful `pop` does: it splits the list at the first entry that
satisfies the test. -/
theorem pop_cases {p : α → Bool} {a b : StampedQueue α} {x : α}
    (h : a.pop p = some (x, b)) :
    ∃ n l₁ l₂, a.entries = l₁ ++ (n, x) :: l₂ ∧ b = ⟨a.count, l₁ ++ l₂⟩ ∧ p x = true ∧
      ∀ e ∈ l₁, p e.2 = false := by
  unfold pop at h
  cases hf : a.entries.find? fun e => p e.2 with
  | none => rw [hf] at h; simp at h
  | some e =>
      rw [hf] at h
      obtain ⟨hp, l₁, l₂, happ, hl₁⟩ := List.find?_eq_some_iff_append.mp hf
      have hl₁' : ∀ e ∈ l₁, p e.2 = false := by
        intro e he
        simpa using hl₁ e he
      have her : (a.entries.eraseP fun e => p e.2) = l₁ ++ l₂ := by
        rw [happ, List.eraseP_append_right _ (by intro e he; simp [hl₁' e he]),
          List.eraseP_cons_of_pos (by simpa using hp)]
      simp only [Option.some.injEq, Prod.mk.injEq] at h
      obtain ⟨hx, hb⟩ := h
      subst hx
      refine ⟨e.1, l₁, l₂, happ, ?_, by simpa using hp, hl₁'⟩
      rw [← hb, her]

/-- A pop uses no stamp. -/
theorem pop_count {p : α → Bool} {a b : StampedQueue α} {x : α} (h : a.pop p = some (x, b)) :
    b.count = a.count := by
  obtain ⟨n, l₁, l₂, -, rfl, -, -⟩ := pop_cases h
  rfl

/-- Nothing is taken when nothing fits. -/
theorem pop_eq_none_iff {p : α → Bool} {a : StampedQueue α} :
    a.pop p = none ↔ ∀ e ∈ a.entries, p e.2 = false := by
  unfold pop
  cases hf : a.entries.find? fun e => p e.2 with
  | none =>
      rw [List.find?_eq_none] at hf
      simpa using hf
  | some e =>
      simp only [reduceCtorEq, false_iff]
      intro h
      have := h e (List.mem_of_find?_eq_some hf)
      have hp := List.find?_some hf
      simp [this] at hp

/-- A queue stays well formed by a pop. -/
theorem WellFormed.pop {p : α → Bool} {a b : StampedQueue α} {x : α} (h : WellFormed a)
    (hb : a.pop p = some (x, b)) : WellFormed b := by
  obtain ⟨n, l₁, l₂, happ, rfl, -, -⟩ := pop_cases hb
  have hsub : (l₁ ++ l₂).Sublist a.entries := by
    rw [happ]
    exact List.Sublist.append_left (List.sublist_cons_self _ _) _
  exact ⟨h.sorted.sublist hsub, fun e he => h.le_count e (hsub.subset he)⟩

/-- **No entry occurs twice**. -/
theorem WellFormed.nodup {a : StampedQueue α} (h : WellFormed a) : a.entries.Nodup := by
  have : a.entries.Pairwise fun e e' => e ≠ e' := by
    apply h.sorted.imp
    rintro e e' hlt rfl
    exact lt_irrefl _ hlt
  exact this

/-! ### The order of the pops -/

/-- `pop` takes the entry with the least stamp among those that satisfy the
test, and leaves the others. -/
theorem WellFormed.pop_least {p : α → Bool} {a : StampedQueue α} (h : WellFormed a)
    {n : ℕ} {x : α} (hmem : (n, x) ∈ a.entries) (hp : p x = true)
    (hle : ∀ e ∈ a.entries, p e.2 = true → n ≤ e.1) :
    ∃ b, a.pop p = some (x, b) ∧ b.count = a.count ∧
      ∀ e, e ∈ b.entries ↔ e ∈ a.entries ∧ e.1 ≠ n := by
  cases hpop : a.pop p with
  | none =>
      have := pop_eq_none_iff.mp hpop (n, x) hmem
      simp [hp] at this
  | some r =>
      obtain ⟨y, b⟩ := r
      obtain ⟨m, l₁, l₂, happ, rfl, hpy, hl₁⟩ := pop_cases hpop
      have hs := h.sorted
      rw [happ, List.pairwise_append] at hs
      obtain ⟨-, hs₂, hs₁⟩ := hs
      have hm₁ : ∀ e ∈ l₁, e.1 < m := fun e he => hs₁ e he (m, y) List.mem_cons_self
      have hm₂ : ∀ e ∈ l₂, m < e.1 := fun e he => (List.pairwise_cons.mp hs₂).1 e he
      -- the entry found first has stamp `n`: nothing before it passes the test
      have hnm : (n, x) = (m, y) := by
        have hnle : n ≤ m := hle (m, y) (by rw [happ]; simp) hpy
        rw [happ] at hmem
        rcases List.mem_append.mp hmem with hx | hx
        · have := hl₁ _ hx
          simp [hp] at this
        · rcases List.mem_cons.mp hx with hx | hx
          · exact hx
          · have hlt : m < n := hm₂ _ hx
            omega
      cases hnm
      refine ⟨_, rfl, rfl, ?_⟩
      intro e
      rw [happ]
      simp only [List.mem_append, List.mem_cons]
      constructor
      · rintro (he | he)
        · have hlt := hm₁ e he
          exact ⟨Or.inl he, by omega⟩
        · have hlt := hm₂ e he
          exact ⟨Or.inr (Or.inr he), by omega⟩
      · rintro ⟨he | rfl | he, hne⟩
        · exact Or.inl he
        · exact absurd rfl hne
        · exact Or.inr he

/-- Freshness is lost only by appending. -/
theorem Fresh.pop {k : ℕ} {p : α → Bool} {a b : StampedQueue α} {x : α} (h : Fresh k a)
    (hb : a.pop p = some (x, b)) : Fresh k b := by
  obtain ⟨n, l₁, l₂, happ, rfl, -, -⟩ := pop_cases hb
  intro e he
  apply h e
  rw [happ]
  rcases List.mem_append.mp he with he | he
  · exact List.mem_append_left _ he
  · exact List.mem_append_right _ (List.mem_cons_of_mem _ he)

/-- Popping until nothing passes the test takes out exactly the entries that
pass it, in list order: one `pop` takes the head of the filtered list. -/
theorem filter_eq_of_pop {p : α → Bool} {a b : StampedQueue α} {x : α}
    (h : a.pop p = some (x, b)) :
    a.contents.filter p = x :: b.contents.filter p ∧
      a.contents.filter (fun y => !p y) = b.contents.filter (fun y => !p y) := by
  obtain ⟨n, l₁, l₂, happ, rfl, hpx, hl₁⟩ := pop_cases h
  have hnil : (l₁.map Prod.snd).filter p = [] := by
    rw [List.filter_eq_nil_iff]
    intro y hy
    obtain ⟨e, he, rfl⟩ := List.mem_map.mp hy
    simp [hl₁ e he]
  unfold contents
  rw [happ]
  simp [hnil, hpx]

/-- When the test looks at a key only, one `pop` takes the first of the entries with the key
of the entry it takes, and leaves those with any other key. -/
theorem filter_key_of_pop {κ : Type*} [DecidableEq κ] {key : α → κ} {p : α → Bool}
    {a b : StampedQueue α} {x : α} (hp : ∀ x y, key x = key y → p x = p y)
    (h : a.pop p = some (x, b)) (k : κ) :
    a.contents.filter (fun y => key y = k)
      = [x].filter (fun y => key y = k) ++ b.contents.filter (fun y => key y = k) := by
  obtain ⟨n, l₁, l₂, happ, rfl, hpx, hl₁⟩ := pop_cases h
  unfold contents
  rw [happ]
  dsimp only
  rw [List.map_append, List.map_append, List.map_cons, List.filter_append, List.filter_append]
  by_cases hk : key x = k
  · have hnil : (l₁.map Prod.snd).filter (fun y => key y = k) = [] := by
      rw [List.filter_eq_nil_iff]
      intro y hy hyk
      obtain ⟨e, he, rfl⟩ := List.mem_map.mp hy
      have hsame := hp e.2 x ((of_decide_eq_true hyk).trans hk.symm)
      rw [hl₁ e he, hpx] at hsame
      cases hsame
    simp [hnil, hk]
  · simp [hk]

end StampedQueue
