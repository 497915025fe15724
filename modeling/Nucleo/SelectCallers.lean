/-
# What the callers of `select` rely on

Callers pass the null pointer for a set they do not need, and count down the value returned
while they handle events.  `pselect` copies the three sets before it looks at them, and
counts descriptors and not the bits that are left: it differs from both uses where a
pointer is null, and where a descriptor is left in two sets.
-/
import Nucleo.Select

namespace Nucleo

namespace Select

open W5100

/-! ## Null pointers -/

/-- An empty set in the place of each null pointer. -/
def emptied (s : Sets) : Sets := fun k => some ((s k).getD ⟨fun _ => 0⟩)

/-- What the caller sees of an outcome when it passed the pointers `s`. -/
def Outcome.masked (s : Sets) : Outcome → Outcome
  | .nullPointer => .nullPointer
  | .waiting => .waiting
  | .returned r => .returned { r with sets := fun k => if (s k).isSome then r.sets k else none }

/-- The outcome is as if null sets were empty and a null timeout infinite; an infinite wait of
a clock that shows times never ends with 0. -/
structure AsIfEmpty (i : Input) (nfds : ℤ) (s : Sets) (timeout : Option Timespec) (fuel : ℕ)
    (o : Outcome) : Prop where
  same : o = (pselect i nfds (emptied s) timeout fuel).masked s
  infinite : timeout = none → (∀ k t, i.clock k = some t → t.Reading) → o.retValue ≠ some 0

section Null

variable (i : Input) (nfds : ℤ) (s : Sets) (timeout : Option Timespec) (fuel : ℕ)

theorem emptied_of_isSome {s : Sets} (h : ∀ k, (s k).isSome = true) : emptied s = s := by
  funext k
  obtain ⟨set, hset⟩ := Option.isSome_iff_exists.1 (h k)
  unfold emptied
  rw [hset]
  rfl

theorem masked_of_isSome {s : Sets} (h : ∀ k, (s k).isSome = true) (o : Outcome) :
    o.masked s = o := by
  cases o with
  | nullPointer => rfl
  | waiting => rfl
  | returned r =>
      unfold Outcome.masked
      simp only [h, if_true]

theorem isSome_iff {s : Sets} : (∀ k, (s k).isSome = true) ↔
    (s .readfds).isSome ∧ (s .writefds).isSome ∧ (s .errorfds).isSome := by
  constructor
  · intro h
    exact ⟨h _, h _, h _⟩
  · rintro ⟨hread, hwrite, herror⟩ k
    cases k with
    | readfds => exact hread
    | writefds => exact hwrite
    | errorfds => exact herror

/-- Sets that are all there lead to no null pointer. -/
theorem pselect_ne_nullPointer {s : Sets} (h : ∀ k, (s k).isSome = true) :
    pselect i nfds s timeout fuel ≠ .nullPointer := by
  unfold pselect
  rw [if_pos (isSome_iff.1 h), pselectLoop_eq]
  cases Retry.attempts (round i nfds (i.tend timeout) s) fuel 0 with
  | none => exact Outcome.noConfusion
  | some r => exact Outcome.noConfusion

theorem not_asIfEmpty_nullPointer : ¬ AsIfEmpty i nfds s timeout fuel .nullPointer := by
  intro h
  have hsame := h.same
  have hne := pselect_ne_nullPointer i nfds timeout fuel (s := emptied s) fun _ => rfl
  cases hcall : pselect i nfds (emptied s) timeout fuel with
  | nullPointer => exact hne hcall
  | waiting =>
      rw [hcall] at hsame
      cases hsame
  | returned r =>
      rw [hcall] at hsame
      cases hsame

/-- `pselect` on sets that are all there. -/
theorem asIfEmpty_of_isSome {s : Sets} (h : ∀ k, (s k).isSome = true) :
    AsIfEmpty i nfds s timeout fuel (pselect i nfds s timeout fuel) := by
  refine ⟨?_, ?_⟩
  · rw [emptied_of_isSome h, masked_of_isSome h]
  · rintro rfl hclock hzero
    cases hcall : pselect i nfds s none fuel with
    | nullPointer =>
        rw [hcall] at hzero
        cases hzero
    | waiting =>
        rw [hcall] at hzero
        cases hzero
    | returned r =>
        rw [hcall] at hzero
        have hret : r.ret = 0 := Option.some.inj hzero
        obtain ⟨k, tcurrent, hsel⟩ := pselect_selected hcall hret.ge
        exact hsel.infinite rfl (hclock k tcurrent hsel.clock) hret

theorem asIfEmpty_pselect_iff :
    AsIfEmpty i nfds s timeout fuel (pselect i nfds s timeout fuel)
      ↔ ∀ k, (s k).isSome = true := by
  constructor
  · intro h
    by_contra hnull
    unfold pselect at h
    rw [if_neg (isSome_iff.not.1 hnull)] at h
    exact not_asIfEmpty_nullPointer i nfds s timeout fuel h
  · intro h
    exact asIfEmpty_of_isSome i nfds timeout fuel h

/-! ### When it is as if the sets were empty -/

/-- **Null pointers**: `pselect` treats no null set as an empty one, and `select` no null
timeout as an infinite one either; they go through a null pointer for each. -/
theorem asIfEmpty_iff (timeval : Option Timeval) :
    (AsIfEmpty i nfds s timeout fuel (pselect i nfds s timeout fuel)
      ↔ ∀ k, (s k).isSome = true) ∧
    (AsIfEmpty i nfds s (timeval.map timevalToTimespec) fuel (select i nfds s timeval fuel)
      ↔ timeval.isSome = true ∧ ∀ k, (s k).isSome = true) := by
  refine ⟨asIfEmpty_pselect_iff i nfds s timeout fuel, ?_⟩
  cases timeval with
  | none =>
      refine iff_of_false (not_asIfEmpty_nullPointer i nfds s none fuel) ?_
      exact fun h => Bool.false_ne_true h.1
  | some t =>
      have hiff := asIfEmpty_pselect_iff i nfds s (some (timevalToTimespec t)) fuel
      exact hiff.trans (and_iff_right rfl).symm

end Null

/-- Only a set for reading, as a server that waits for connections passes it. -/
def readOnlyThree : Sets
  | .readfds => some ⟨fun _ => 0b1000⟩
  | _ => none

/-- The call of a server that waits for connections. -/
theorem select_read_set_only :
    select (answerThree pollIn) 4 readOnlyThree (some ⟨0, 100000⟩) 1 = .nullPointer ∧
      ¬ ∀ (i : Input) (nfds : ℤ) (s : Sets) (timeval : Option Timeval) (fuel : ℕ),
        AsIfEmpty i nfds s (timeval.map timevalToTimespec) fuel (select i nfds s timeval fuel) := by
  refine ⟨rfl, fun h => ?_⟩
  exact not_asIfEmpty_nullPointer _ _ _ _ _
    (h (answerThree pollIn) 4 readOnlyThree (some ⟨0, 100000⟩) 1)

/-! ## The value returned -/

/-- The bits below `nfds` that are set in one set. -/
def bitsIn (nfds : ℤ) (fdset : Option FdSet) : ℕ := (List.range nfds.toNat).countP (fdBit fdset)

/-- The bits below `nfds` that are set in the three sets. -/
def bitsLeft (nfds : ℤ) (s : Sets) : ℕ :=
  bitsIn nfds (s .readfds) + bitsIn nfds (s .writefds) + bitsIn nfds (s .errorfds)

/-- The descriptor is in the set, and has an event that is wanted there. -/
def Left (p : Pass) (s : Sets) (fd : ℕ) (kind : Kind) : Prop :=
  fdIsset fd (s kind) = true ∧ p.revents fd &&& wanted kind ≠ 0

/-- Each descriptor has wanted events in one set at most, and the sets hold only descriptors. -/
structure CountsOnce (p : Pass) (nfds : ℤ) (s : Sets) : Prop where
  once : ∀ fd : ℕ, (fd : ℤ) < nfds → ∀ kind kind', Left p s fd kind → Left p s fd kind' →
    kind = kind'
  inRange : ∀ fd : ℕ, openMax ≤ fd → (fd : ℤ) < nfds → ∀ kind, fdBit (s kind) fd = false

/-! ### Counting bits -/

/-- A count that is nowhere more than three others together is their sum where they all agree. -/
theorem countP_eq_add_iff {a b c r : ℕ → Bool} {l : List ℕ}
    (h : ∀ x ∈ l, (r x).toNat ≤ (a x).toNat + (b x).toNat + (c x).toNat) :
    l.countP r ≤ l.countP a + l.countP b + l.countP c ∧
      (l.countP r = l.countP a + l.countP b + l.countP c
        ↔ ∀ x ∈ l, (r x).toNat = (a x).toNat + (b x).toNat + (c x).toNat) := by
  induction l with
  | nil => exact ⟨le_rfl, iff_of_true rfl fun x hx => absurd hx List.not_mem_nil⟩
  | cons x l ih =>
      obtain ⟨hx, hl⟩ := List.forall_mem_cons.1 h
      obtain ⟨hle, hiff⟩ := ih hl
      have hcons : ∀ q : ℕ → Bool, (x :: l).countP q = l.countP q + (q x).toNat := by
        intro q
        rw [List.countP_cons]
        cases q x <;> rfl
      rw [hcons, hcons, hcons, hcons, List.forall_mem_cons, ← hiff]
      constructor
      · omega
      · constructor
        · intro heq
          omega
        · rintro ⟨hhead, htail⟩
          omega

section Count

variable (p : Pass) (nfds : ℤ) (s : Sets) (fd : ℕ)

/-- The bit of a descriptor that a pass leaves. -/
theorem fdBit_scanned_eq_true_iff {n : ℕ} (hfd : fd < n) (hopen : fd < openMax) (kind : Kind) :
    fdBit (scanned p s n kind) fd = true ↔ Left p s fd kind := by
  have hisset := fdIsset_scanned_of_lt p s kind hfd
  rw [fdIsset_eq, decide_eq_true hopen, Bool.true_and] at hisset
  rw [hisset, Bool.and_eq_true, decide_eq_true_iff]
  rfl

/-- A pass does not look at the bits that are no descriptors. -/
theorem fdBit_scanned_of_le {n : ℕ} (hopen : openMax ≤ fd) (kind : Kind) :
    fdBit (scanned p s n kind) fd = fdBit (s kind) fd := by
  rw [fdBit_scanned, decide_eq_false (fun h => by omega), Bool.not_false, Bool.and_true]

theorem not_left_of_le (hopen : openMax ≤ fd) (kind : Kind) : ¬ Left p s fd kind := by
  rintro ⟨hset, -⟩
  rw [fdIsset_eq, decide_eq_false (Nat.not_lt.2 hopen), Bool.false_and] at hset
  cases hset

/-- Something holds of one kind of set at most. -/
theorem unique_kind_iff {P : Kind → Prop} :
    (∀ kind kind', P kind → P kind' → kind = kind') ↔
      ¬ (P .readfds ∧ P .writefds) ∧ ¬ (P .readfds ∧ P .errorfds) ∧
        ¬ (P .writefds ∧ P .errorfds) := by
  constructor
  · intro h
    exact ⟨fun hp => Kind.noConfusion (h _ _ hp.1 hp.2),
      fun hp => Kind.noConfusion (h _ _ hp.1 hp.2), fun hp => Kind.noConfusion (h _ _ hp.1 hp.2)⟩
  · rintro ⟨hrw, hre, hwe⟩ kind kind' hp hp'
    cases kind <;> cases kind' <;> first | rfl | skip
    · exact absurd ⟨hp, hp'⟩ hrw
    · exact absurd ⟨hp, hp'⟩ hre
    · exact absurd ⟨hp', hp⟩ hrw
    · exact absurd ⟨hp, hp'⟩ hwe
    · exact absurd ⟨hp', hp⟩ hre
    · exact absurd ⟨hp', hp⟩ hwe

theorem toNat_or_eq_iff (a b c : Bool) :
    (a || b || c).toNat ≤ a.toNat + b.toNat + c.toNat ∧
      ((a || b || c).toNat = a.toNat + b.toNat + c.toNat ↔
        ¬ (a = true ∧ b = true) ∧ ¬ (a = true ∧ c = true) ∧ ¬ (b = true ∧ c = true)) := by
  revert a b c
  decide

/-- One descriptor counts once, however many sets it is left in. -/
theorem toNat_ready_eq_iff {n : ℕ} (hfd : fd < n) :
    (ready p fd s).toNat ≤ (fdBit (scanned p s n .readfds) fd).toNat
        + (fdBit (scanned p s n .writefds) fd).toNat + (fdBit (scanned p s n .errorfds) fd).toNat ∧
    ((ready p fd s).toNat = (fdBit (scanned p s n .readfds) fd).toNat
        + (fdBit (scanned p s n .writefds) fd).toNat + (fdBit (scanned p s n .errorfds) fd).toNat
      ↔ (∀ kind kind', Left p s fd kind → Left p s fd kind' → kind = kind') ∧
        (openMax ≤ fd → ∀ kind, fdBit (s kind) fd = false)) := by
  by_cases hopen : fd < openMax
  · have hbit := fdBit_scanned_eq_true_iff p s fd hfd hopen
    have hready : ready p fd s = (fdBit (scanned p s n .readfds) fd
        || fdBit (scanned p s n .writefds) fd || fdBit (scanned p s n .errorfds) fd) := by
      rw [Bool.eq_iff_iff, ready_iff, Bool.or_eq_true, Bool.or_eq_true, hbit, hbit, hbit]
      constructor
      · rintro ⟨kind, hkind⟩
        cases kind with
        | readfds => exact Or.inl (Or.inl hkind)
        | writefds => exact Or.inl (Or.inr hkind)
        | errorfds => exact Or.inr hkind
      · rintro ((h | h) | h)
        · exact ⟨_, h⟩
        · exact ⟨_, h⟩
        · exact ⟨_, h⟩
    obtain ⟨hle, hiff⟩ := toNat_or_eq_iff (fdBit (scanned p s n .readfds) fd)
      (fdBit (scanned p s n .writefds) fd) (fdBit (scanned p s n .errorfds) fd)
    rw [hbit, hbit, hbit] at hiff
    rw [hready]
    refine ⟨hle, ?_⟩
    rw [hiff, unique_kind_iff]
    exact (and_iff_left fun h => absurd hopen (Nat.not_lt.2 h)).symm
  · -- beyond `FD_SETSIZE` a descriptor is never ready, and its bits are left as they are
    have hle := Nat.not_lt.1 hopen
    have hready : ready p fd s = false := by
      rw [Bool.eq_false_iff]
      intro h
      obtain ⟨kind, hleft⟩ := (ready_iff p fd s).1 h
      exact not_left_of_le p s fd hle kind hleft
    rw [hready, fdBit_scanned_of_le p s fd hle, fdBit_scanned_of_le p s fd hle,
      fdBit_scanned_of_le p s fd hle]
    refine ⟨Nat.zero_le _, ?_⟩
    constructor
    · intro h
      refine ⟨fun kind _ hleft _ => absurd hleft (not_left_of_le p s fd hle kind), fun _ => ?_⟩
      have hzero : ∀ b : Bool, b.toNat = 0 → b = false := by decide
      have hfalse : (false : Bool).toNat = 0 := rfl
      intro kind
      cases kind <;> exact hzero _ (by omega)
    · rintro ⟨-, h⟩
      rw [h hle, h hle, h hle]
      rfl

/-- **What a pass counts**: the bits that it leaves, where each descriptor is left once. -/
theorem countP_ready_eq_iff :
    ((List.range nfds.toNat).countP fun fd => ready p fd s)
        = bitsLeft nfds (scanned p s nfds.toNat) ↔ CountsOnce p nfds s := by
  have heach := fun fd (hfd : fd ∈ List.range nfds.toNat) =>
    toNat_ready_eq_iff p s fd (List.mem_range.1 hfd)
  have hcount := (countP_eq_add_iff fun fd hfd => (heach fd hfd).1).2
  unfold bitsLeft bitsIn
  rw [hcount]
  constructor
  · intro h
    have hboth := fun (fd : ℕ) (hfd : (fd : ℤ) < nfds) =>
      have hmem : fd ∈ List.range nfds.toNat := List.mem_range.2 (by omega)
      (heach fd hmem).2.1 (h fd hmem)
    exact ⟨fun fd hfd => (hboth fd hfd).1, fun fd hopen hfd => (hboth fd hfd).2 hopen⟩
  · intro h fd hfd
    have hlt := List.mem_range.1 hfd
    exact (heach fd hfd).2.2 ⟨h.once fd (by omega), fun hopen => h.inRange fd hopen (by omega)⟩

end Count

/-! ### Where a call returns -/

/-- A call of `pselect`, or of `select` with its timeout, that returns. -/
inductive Returns (i : Input) (nfds : ℤ) (s : Sets) (fuel : ℕ) (r : Result) :
    Option Timespec → Prop
  | pselect {timeout : Option Timespec} (h : pselect i nfds s timeout fuel = .returned r) :
      Returns i nfds s fuel r timeout
  | select {timeval : Timeval} (h : select i nfds s (some timeval) fuel = .returned r) :
      Returns i nfds s fuel r (some (timevalToTimespec timeval))

/-- Pass `k` is the one that ends the call: it finds a descriptor that is ready or not valid, or
the wait is over, and neither was so before. -/
structure DecidesAt (i : Input) (nfds : ℤ) (s : Sets) (timeout : Option Timespec) (k : ℕ) :
    Prop where
  idle : ∀ j < k, Idle i nfds (i.tend timeout) s j
  clock : ∃ tcurrent, i.clock k = some tcurrent
  last : ¬ Idle i nfds (i.tend timeout) s k

/-- **The value returned** is the number of bits left below `nfds` exactly when no descriptor is
left in two sets in the pass that ends the call. -/
theorem ret_eq_bitsLeft_iff {i : Input} {nfds : ℤ} {s : Sets} {timeout : Option Timespec}
    {fuel : ℕ} {r : Result} (h : Returns i nfds s fuel r timeout) (hret : 0 ≤ r.ret) :
    ∃ k, DecidesAt i nfds s timeout k ∧
      (r.ret = bitsLeft nfds r.sets ↔ CountsOnce (i.pass k) nfds s) := by
  have hcall : Select.pselect i nfds s timeout fuel = .returned r := by
    cases h with
    | pselect h => exact h
    | select h => exact h
  obtain ⟨k, hidle, rfl | ⟨tcurrent, hclock, rfl, hdecides⟩⟩ := returned_cases hcall
  · -- the clock could not be read
    exact absurd hret (by dsimp only; decide)
  · refine ⟨k, ⟨hidle, ⟨tcurrent, hclock⟩, not_idle_of_decides hclock hdecides⟩, ?_⟩
    rcases pselectTentative_cases (i.pass k) s nfds with hvalid | ⟨v, hlt, hinv, hfirst⟩
    · rw [pselectTentative_of_valid hvalid]
      dsimp only
      rw [Nat.cast_inj]
      exact countP_ready_eq_iff (i.pass k) nfds s
    · -- an invalid descriptor ends the pass with -1
      rw [pselectTentative_of_invalid hinv hlt hfirst] at hret
      exact absurd hret (by dsimp only; decide)

/-- Descriptor 3 waits to be read and to be written. -/
def readWriteThree : Sets
  | .errorfds => some ⟨fun _ => 0⟩
  | _ => some ⟨fun _ => 0b1000⟩

/-- Nothing in the first pass; in the second one something to read, and nothing to write. -/
theorem ret_eq_bitsLeft_read :
    ∃ r k, pselect (laterThree pollIn) 4 readWriteThree none 2 = .returned r ∧
      DecidesAt (laterThree pollIn) 4 readWriteThree none k ∧ k ≠ 0 ∧
      (r.ret = bitsLeft 4 r.sets ↔
        CountsOnce ((laterThree pollIn).pass k) 4 readWriteThree) := by
  have hret : (pselect (laterThree pollIn) 4 readWriteThree none 2).retValue = some 1 := by
    decide +kernel
  have hnone : (round (laterThree pollIn) 4 ((laterThree pollIn).tend none) readWriteThree
      0).isNone = true := by
    decide +kernel
  obtain ⟨r, hcall, hone⟩ := returned_of_retValue hret
  obtain ⟨k, hdecides, hiff⟩ := ret_eq_bitsLeft_iff (.pselect hcall) (by omega)
  refine ⟨r, k, hcall, hdecides, ?_, hiff⟩
  rintro rfl
  exact hdecides.last (round_eq_none_iff.1 (Option.isNone_iff_eq_none.1 hnone))

/-- **A descriptor that can be read and written** is counted once. -/
theorem ret_lt_bitsLeft :
    ¬ ∀ (i : Input) (nfds : ℤ) (s : Sets) (timeout : Option Timespec) (fuel : ℕ) (r : Result),
      pselect i nfds s timeout fuel = .returned r → 0 ≤ r.ret → r.ret = bitsLeft nfds r.sets := by
  have hcall : pselect (answerThree (pollIn ||| pollOut)) 4 readWriteThree none 1
      = .returned
        (pselectTentative ((answerThree (pollIn ||| pollOut)).pass 0) 4 readWriteThree) := by
    rfl
  have hret : (pselectTentative ((answerThree (pollIn ||| pollOut)).pass 0) 4 readWriteThree).ret
      = 1 := by decide +kernel
  have hbits : bitsLeft 4
      (pselectTentative ((answerThree (pollIn ||| pollOut)).pass 0) 4 readWriteThree).sets = 2 := by
    decide +kernel
  intro h
  have hcount := h _ _ _ _ _ _ hcall (by omega)
  rw [hret, hbits] at hcount
  omega

end Select

end Nucleo
