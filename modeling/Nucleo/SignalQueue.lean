/-
# The signal queue of `signal.c`

The queue is an array of `SIGQUEUE_MAX` cells.  A cell is free when its signal
number is zero; an occupied cell carries the value of a wrapping 32-bit counter
at the time it was filled.  `sigqueueInfo` fills the first free cell,
`signalDequeue` empties the cell with the oldest order number among the members
of a set.

The abstract queue is the bounded list `StampedQueue SigInfo`, whose entries
carry the unbounded count of signals enqueued so far.  `Represents` ties the
array to the list; `enqueue_represents` and `dequeue_represents` say that the
two operations keep it, as long as fewer than `2^31` signals were enqueued since
any queued one.
-/
import Nucleo.Lib.StampedQueue
import Nucleo.Lib.Tickets
import Nucleo.Posix

namespace Nucleo

namespace Signal

/-! ## Signal sets and signal information -/

/-- `sigset_t`: one bit for each of the signals 1 to 32. -/
abbrev SigSet := BitVec 32

/-- The fields of `siginfo_t` that the modelled functions fill or read. -/
structure SigInfo where
  siSigno : ℤ
  siCode : ℤ
  siPid : ℤ
  siValue : BitVec 32
  deriving DecidableEq, Repr

/-- `SIGQUEUE_MAX`. -/
def sigqueueMax : ℕ := 32

/-- `SIGNAL_MAX`. -/
def signalMax : ℤ := 32

/-- `sigmask`.  The shift count of the target's shift instruction is the low
byte of the register; for signals 1 to 32 it is `sig - 1`. -/
def sigmask (sig : ℤ) : SigSet := 1#32 <<< ((sig - 1) % 256).toNat

/-- `sigismember`, whose result is used as a truth value. -/
def sigismember (set : SigSet) (sig : ℤ) : BitVec 32 := set &&& sigmask sig

/-- A signal number of the range the library supports. -/
def IsSignal (sig : ℤ) : Prop := 1 ≤ sig ∧ sig ≤ signalMax

instance (sig : ℤ) : Decidable (IsSignal sig) := inferInstanceAs (Decidable (_ ∧ _))

/-- No signal has the number zero. -/
theorem IsSignal.ne_zero {sig : ℤ} (h : IsSignal sig) : sig ≠ 0 := by
  obtain ⟨h1, -⟩ := h
  omega

/-- For a signal in range membership is one bit of the set. -/
theorem IsSignal.sigismember_eq_zero_iff {sig : ℤ} (h : IsSignal sig) (set : SigSet) :
    sigismember set sig = 0 ↔ set.getLsbD (sig - 1).toNat = false := by
  obtain ⟨h1, h2⟩ := h
  unfold signalMax at h2
  have hmod : (sig - 1) % 256 = sig - 1 := by omega
  unfold sigismember sigmask
  rw [hmod, ← BitVec.twoPow_eq, BitVec.and_twoPow]
  cases hb : set.getLsbD (sig - 1).toNat with
  | false => simp
  | true =>
      simp only [if_true, Bool.true_eq_false, iff_false]
      intro hz
      have hbit := congrArg (fun v => BitVec.getLsbD v (sig - 1).toNat) hz
      simp at hbit
      omega

/-- A signal in range is a member of a set or of its complement, not of both. -/
theorem IsSignal.sigismember_not {sig : ℤ} (h : IsSignal sig) (set : SigSet) :
    sigismember (~~~set) sig = 0 ↔ sigismember set sig ≠ 0 := by
  have hlt : decide ((sig - 1).toNat < 32) = true := by
    obtain ⟨h1, h2⟩ := h
    unfold signalMax at h2
    rw [decide_eq_true_eq]
    omega
  rw [ne_eq, h.sigismember_eq_zero_iff, h.sigismember_eq_zero_iff, BitVec.getLsbD_not, hlt,
    Bool.true_and, Bool.not_eq_false, Bool.not_eq_eq_eq_not]
  rfl

/-! ## The array of cells -/

/-- `struct signal_queue_item`. -/
structure SignalQueueItem where
  info : SigInfo
  order : BitVec 32
  deriving DecidableEq, Repr

/-- The static `signal_queue`. -/
structure SignalQueue where
  lastOrder : BitVec 32
  items : Fin sigqueueMax → SignalQueueItem

/-- The content of a cell in zero-initialised memory. -/
def zeroItem : SignalQueueItem := ⟨⟨0, 0, 0, 0⟩, 0⟩

/-- The queue in zero-initialised memory. -/
def SignalQueue.zero : SignalQueue := ⟨0, fun _ => zeroItem⟩

namespace SignalQueue

variable (q : SignalQueue)

/-- The cell holds a signal. -/
def occupied (i : Fin sigqueueMax) : Bool := decide ((q.items i).info.siSigno ≠ 0)

/-- The first free cell, where the loop of `sigqueue_info` stops. -/
def firstFree : Option (Fin sigqueueMax) :=
  (List.finRange sigqueueMax).find? fun i => !q.occupied i

/-- `sigqueue_info` on the queue: fill the first free cell with the next order
number; `none` when the loop ends without one. -/
def enqueue (info : SigInfo) : Option SignalQueue :=
  let nextOrder := q.lastOrder + 1
  match q.firstFree with
  | none => none
  | some i => some ⟨nextOrder, Function.update q.items i ⟨info, nextOrder⟩⟩

/-- `candidate` in the loop of `signal_dequeue`. -/
def candidate (set : SigSet) (i : Fin sigqueueMax) : Bool :=
  q.occupied i && decide (sigismember set (q.items i).info.siSigno ≠ 0)

/-- `important` in the loop of `signal_dequeue` when a cell `j` was chosen
before. -/
def important (i j : Fin sigqueueMax) : Bool :=
  Tickets.before (q.items i).order (q.items j).order

/-- The cell the loop of `signal_dequeue` chooses. -/
def chosen (set : SigSet) : Option (Fin sigqueueMax) :=
  Tickets.scanBest (q.candidate set) q.important (List.finRange sigqueueMax)

/-- The queue with the signal number of cell `i` cleared. -/
def clear (i : Fin sigqueueMax) : SignalQueue :=
  let item := q.items i
  let info : SigInfo := { item.info with siSigno := 0 }
  { q with items := Function.update q.items i ⟨info, item.order⟩ }

/-- `signal_dequeue` on the queue: the information of the chosen cell, which is
marked free; `none` when no queued signal is in the set. -/
def dequeue (set : SigSet) : Option (SigInfo × SignalQueue) :=
  match q.chosen set with
  | none => none
  | some i => some ((q.items i).info, q.clear i)

/-! ### What its operations do -/

/-- The entry that is found is free. -/
theorem firstFree_spec {i : Fin sigqueueMax} (h : q.firstFree = some i) :
    q.occupied i = false := by
  have := List.find?_some h
  simpa using this

/-- None is found when all are occupied. -/
theorem firstFree_eq_none_iff : q.firstFree = none ↔ ∀ i, q.occupied i = true := by
  unfold firstFree
  rw [List.find?_eq_none]
  simp

/-- A signal goes into a free entry, with the next order. -/
theorem enqueue_cases {info : SigInfo} {q' : SignalQueue} (h : q.enqueue info = some q') :
    ∃ i, q.occupied i = false ∧
      q' = ⟨q.lastOrder + 1, Function.update q.items i ⟨info, q.lastOrder + 1⟩⟩ := by
  unfold enqueue at h
  cases hf : q.firstFree with
  | none => simp [hf] at h
  | some i =>
      simp only [hf, Option.some.injEq] at h
      exact ⟨i, q.firstFree_spec hf, h.symm⟩

/-- **The entry that is chosen is the earliest candidate**. -/
theorem kept_chosen (set : SigSet) :
    Tickets.Kept (q.candidate set) (fun _ _ => True) (List.finRange sigqueueMax)
      (q.chosen set) :=
  Tickets.kept_scanBest_any _

/-- What `signal_dequeue` can return, whatever the order numbers are. -/
theorem dequeue_cases {set : SigSet} {info : SigInfo} {q' : SignalQueue}
    (h : q.dequeue set = some (info, q')) :
    ∃ i, q.candidate set i = true ∧ info = (q.items i).info ∧ q' = q.clear i := by
  have hkept := q.kept_chosen set
  unfold dequeue at h
  cases hc : q.chosen set with
  | none => simp [hc] at h
  | some i =>
      rw [hc] at h hkept
      simp only [Option.some.injEq, Prod.mk.injEq] at h
      exact ⟨i, hkept.2.1, h.1.symm, h.2.symm⟩

/-- Nothing is taken when there is no candidate. -/
theorem dequeue_eq_none {set : SigSet} (h : q.dequeue set = none) (i : Fin sigqueueMax) :
    q.candidate set i = false := by
  have hkept := q.kept_chosen set
  unfold dequeue at h
  cases hc : q.chosen set with
  | none =>
      rw [hc] at hkept
      exact hkept i (List.mem_finRange i)
  | some j => simp [hc] at h

/-! ## The list the array stands for -/

/-- The array `q` holds the entries of the list `a`: every occupied cell has a
ticket of its own, its order number is that ticket modulo `2^32`, and the
entries are the occupied cells with their tickets. -/
structure Represents (q : SignalQueue) (a : StampedQueue SigInfo) : Prop where
  wf : a.WellFormed
  lastOrder_eq : q.lastOrder = BitVec.ofNat 32 a.count
  cells : ∃ ticket : Fin sigqueueMax → ℕ,
    (∀ i, q.occupied i = true → (q.items i).order = BitVec.ofNat 32 (ticket i)) ∧
    (∀ i j, q.occupied i = true → q.occupied j = true → ticket i = ticket j → i = j) ∧
    ∀ e, e ∈ a.entries ↔ ∃ i, q.occupied i = true ∧ e = (ticket i, (q.items i).info)

variable {q}

/-- The empty array is the empty list. -/
theorem represents_zero : Represents SignalQueue.zero StampedQueue.empty := by
  refine ⟨StampedQueue.wellFormed_empty, rfl, fun _ => 0, ?_, ?_, ?_⟩
  · intro i hi
    simp [occupied, zero, zeroItem] at hi
  · intro i j hi
    simp [occupied, zero, zeroItem] at hi
  · intro e
    simp [StampedQueue.empty, occupied, zero, zeroItem]

/-- As many entries as occupied cells. -/
theorem Represents.length_eq {a : StampedQueue SigInfo} (h : Represents q a) :
    a.entries.length = (Finset.univ.filter fun i => q.occupied i = true).card := by
  obtain ⟨ticket, -, hinj, hmem⟩ := h.cells
  have himage : a.entries.toFinset
      = (Finset.univ.filter fun i => q.occupied i = true).image
          fun i => (ticket i, (q.items i).info) := by
    ext e
    rw [List.mem_toFinset, hmem, Finset.mem_image]
    constructor
    · rintro ⟨i, hi, rfl⟩
      exact ⟨i, by simpa using hi, rfl⟩
    · rintro ⟨i, hi, rfl⟩
      exact ⟨i, by simpa using hi, rfl⟩
  rw [← List.toFinset_card_of_nodup h.wf.nodup, himage, Finset.card_image_of_injOn]
  intro i hi j hj hij
  rw [Finset.mem_coe, Finset.mem_filter] at hi hj
  exact hinj i j hi.2 hj.2 (Prod.mk.inj hij).1

/-- A cell is free exactly when the list has room. -/
theorem Represents.firstFree_eq_none_iff {a : StampedQueue SigInfo} (h : Represents q a) :
    q.firstFree = none ↔ ¬ a.entries.length < sigqueueMax := by
  rw [q.firstFree_eq_none_iff, h.length_eq]
  have hcard : (Finset.univ : Finset (Fin sigqueueMax)).card = sigqueueMax := by simp
  have hle := Finset.card_filter_le Finset.univ fun i => q.occupied i = true
  rw [hcard] at hle
  constructor
  · intro hall
    rw [Finset.filter_true_of_mem (fun i _ => hall i), hcard]
    exact lt_irrefl _
  · intro hfull i
    by_contra hi
    apply hfull
    refine lt_of_lt_of_eq (Finset.card_lt_card ?_) hcard
    rw [Finset.filter_ssubset]
    exact ⟨i, Finset.mem_univ i, hi⟩

theorem occupied_update {i j : Fin sigqueueMax} {item : SignalQueueItem} {order : BitVec 32} :
    occupied ⟨order, Function.update q.items i item⟩ j
      = if j = i then decide (item.info.siSigno ≠ 0) else q.occupied j := by
  unfold occupied
  by_cases hji : j = i
  · subst hji
    simp
  · simp [hji]

/-! ### Entering a signal -/

/-- **Enqueueing refines appending.**  It fails exactly when the list is full,
and a filled cell becomes the last entry. -/
theorem enqueue_represents {a : StampedQueue SigInfo} (h : Represents q a) {info : SigInfo}
    (hsig : info.siSigno ≠ 0) :
    (q.enqueue info = none ∧ a.push sigqueueMax info = none) ∨
      ∃ q' a', q.enqueue info = some q' ∧ a.push sigqueueMax info = some a' ∧
        Represents q' a' := by
  cases hfree : q.firstFree with
  | none =>
      left
      have hfull := h.firstFree_eq_none_iff.mp hfree
      constructor
      · unfold enqueue
        rw [hfree]
      · unfold StampedQueue.push
        rw [if_neg hfull]
  | some i =>
      right
      have hroom : a.entries.length < sigqueueMax := by
        by_contra hfull
        rw [h.firstFree_eq_none_iff.mpr hfull] at hfree
        cases hfree
      have hi := q.firstFree_spec hfree
      have hnext : q.lastOrder + 1 = BitVec.ofNat 32 (a.count + 1) := by
        rw [h.lastOrder_eq, BitVec.ofNat_add]
        rfl
      have hpush : a.push sigqueueMax info
          = some ⟨a.count + 1, a.entries ++ [(a.count + 1, info)]⟩ := by
        unfold StampedQueue.push
        rw [if_pos hroom]
      refine ⟨⟨q.lastOrder + 1, Function.update q.items i ⟨info, q.lastOrder + 1⟩⟩, _,
        by unfold enqueue; rw [hfree], hpush, h.wf.push hpush, hnext, ?_⟩
      · obtain ⟨ticket, horder, hinj, hmem⟩ := h.cells
        -- the new ticket is above every ticket in use
        have hlt : ∀ j, q.occupied j = true → ticket j ≤ a.count := by
          intro j hj
          exact h.wf.le_count _ ((hmem _).mpr ⟨j, hj, rfl⟩)
        refine ⟨Function.update ticket i (a.count + 1), ?_, ?_, ?_⟩
        · intro j hj
          rw [occupied_update] at hj
          by_cases hji : j = i
          · subst hji
            simp only [Function.update_self]
            exact hnext
          · rw [if_neg hji] at hj
            simp only [Function.update_of_ne hji]
            exact horder j hj
        · intro j k hj hk hjk
          rw [occupied_update] at hj hk
          by_cases hji : j = i <;> by_cases hki : k = i
          · rw [hji, hki]
          · subst hji
            rw [if_neg hki] at hk
            rw [Function.update_self, Function.update_of_ne hki] at hjk
            have := hlt k hk
            omega
          · subst hki
            rw [if_neg hji] at hj
            rw [Function.update_self, Function.update_of_ne hji] at hjk
            have := hlt j hj
            omega
          · rw [if_neg hji] at hj
            rw [if_neg hki] at hk
            rw [Function.update_of_ne hji, Function.update_of_ne hki] at hjk
            exact hinj j k hj hk hjk
        · intro e
          rw [List.mem_append, List.mem_singleton, hmem]
          constructor
          · rintro (⟨j, hj, rfl⟩ | rfl)
            · have hji : j ≠ i := by
                rintro rfl
                rw [hi] at hj
                cases hj
              refine ⟨j, ?_, ?_⟩
              · rw [occupied_update, if_neg hji]
                exact hj
              · simp only [Function.update_of_ne hji]
            · refine ⟨i, ?_, ?_⟩
              · rw [occupied_update, if_pos rfl]
                simpa using hsig
              · simp only [Function.update_self]
          · rintro ⟨j, hj, rfl⟩
            rw [occupied_update] at hj
            by_cases hji : j = i
            · subst hji
              right
              simp only [Function.update_self]
            · rw [if_neg hji] at hj
              left
              exact ⟨j, hj, by simp only [Function.update_of_ne hji]⟩

end SignalQueue

/-! ### Taking a signal -/

/-- Membership of a queued signal in the set given to `signal_dequeue`. -/
def inSet (set : SigSet) (info : SigInfo) : Bool := decide (sigismember set info.siSigno ≠ 0)

namespace SignalQueue

variable {q : SignalQueue}

/-- On cells with fresh tickets the loop of `signal_dequeue` chooses a candidate
with the least ticket. -/
theorem Represents.chosen_spec {a : StampedQueue SigInfo} (h : Represents q a)
    (hfresh : a.Fresh (2 ^ 31)) {ticket : Fin sigqueueMax → ℕ}
    (horder : ∀ i, q.occupied i = true → (q.items i).order = BitVec.ofNat 32 (ticket i))
    (hmem : ∀ e, e ∈ a.entries ↔ ∃ i, q.occupied i = true ∧ e = (ticket i, (q.items i).info))
    (set : SigSet) :
    Tickets.Kept (q.candidate set) (fun i j => ticket i ≤ ticket j)
      (List.finRange sigqueueMax) (q.chosen set) := by
  apply Tickets.kept_scanBest_key
  intro i j hi hj
  have hoi : q.occupied i = true := (Bool.and_eq_true_iff.mp hi).1
  have hoj : q.occupied j = true := (Bool.and_eq_true_iff.mp hj).1
  have hei := (hmem _).mpr ⟨i, hoi, rfl⟩
  have hej := (hmem _).mpr ⟨j, hoj, rfl⟩
  have hci : ticket i ≤ a.count := h.wf.le_count _ hei
  have hcj : ticket j ≤ a.count := h.wf.le_count _ hej
  have hfi : a.count < ticket i + 2 ^ 31 := hfresh _ hei
  have hfj : a.count < ticket j + 2 ^ 31 := hfresh _ hej
  unfold important
  rw [horder i hoi, horder j hoj]
  apply Tickets.before_ofNat (by norm_num)
  · norm_num
    omega
  · norm_num
    omega

/-- **Dequeueing refines taking the first member.**  It fails exactly when no
entry is in the set, and otherwise returns and removes the first one that is. -/
theorem dequeue_represents {a : StampedQueue SigInfo} (h : Represents q a)
    (hfresh : a.Fresh (2 ^ 31)) (set : SigSet) :
    (q.dequeue set = none ∧ a.pop (inSet set) = none) ∨
      ∃ info q' a', q.dequeue set = some (info, q') ∧ a.pop (inSet set) = some (info, a') ∧
        Represents q' a' := by
  -- every occupied cell has a ticket; its order number is the ticket modulo `2^32`
  obtain ⟨ticket, horder, hinj, hmem⟩ := h.cells
  have hkept := h.chosen_spec hfresh horder hmem set
  unfold dequeue
  cases hc : q.chosen set with
  | none =>
      left
      rw [hc] at hkept
      refine ⟨rfl, StampedQueue.pop_eq_none_iff.mpr ?_⟩
      intro e he
      obtain ⟨i, hi, rfl⟩ := (hmem e).mp he
      have := hkept i (List.mem_finRange i)
      unfold candidate at this
      rw [hi, Bool.true_and] at this
      exact this
  | some i =>
      right
      rw [hc] at hkept
      obtain ⟨-, hcand, hleast⟩ := hkept
      obtain ⟨hi, hin⟩ := Bool.and_eq_true_iff.mp hcand
      have hei := (hmem _).mpr ⟨i, hi, rfl⟩
      -- the chosen cell has the least ticket of the candidates, so it is the first member
      have hle : ∀ e ∈ a.entries, inSet set e.2 = true → ticket i ≤ e.1 := by
        intro e he hp
        obtain ⟨j, hj, rfl⟩ := (hmem e).mp he
        exact hleast j (List.mem_finRange j) (Bool.and_eq_true_iff.mpr ⟨hj, hp⟩)
      obtain ⟨b, hpop, hcount, hb⟩ := h.wf.pop_least hei hin hle
      refine ⟨_, _, b, rfl, hpop, h.wf.pop hpop, ?_, ticket, ?_, ?_, ?_⟩
      · rw [hcount]
        exact h.lastOrder_eq
      all_goals unfold clear
      · intro j hj
        rw [occupied_update] at hj
        by_cases hji : j = i
        · simp [hji] at hj
        · rw [if_neg hji] at hj
          simp only [Function.update_of_ne hji]
          exact horder j hj
      · intro j k hj hk
        rw [occupied_update] at hj hk
        by_cases hji : j = i
        · simp [hji] at hj
        · by_cases hki : k = i
          · simp [hki] at hk
          · rw [if_neg hji] at hj
            rw [if_neg hki] at hk
            exact hinj j k hj hk
      · intro e
        rw [hb, hmem]
        constructor
        · rintro ⟨⟨j, hj, rfl⟩, hne⟩
          have hji : j ≠ i := by
            rintro rfl
            exact hne rfl
          refine ⟨j, ?_, ?_⟩
          · rw [occupied_update, if_neg hji]
            exact hj
          · simp only [Function.update_of_ne hji]
        · rintro ⟨j, hj, rfl⟩
          rw [occupied_update] at hj
          by_cases hji : j = i
          · simp [hji] at hj
          · rw [if_neg hji] at hj
            simp only [Function.update_of_ne hji]
            refine ⟨⟨j, hj, rfl⟩, ?_⟩
            intro heq
            exact hji (hinj j i hj hi heq)

end SignalQueue

end Signal

end Nucleo
