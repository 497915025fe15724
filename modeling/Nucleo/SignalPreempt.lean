/-
# The signal queue under preemption

The machine of `PendSv` takes a call of `sigqueue_info` or `signal_dequeue` as one event.
Here the calls run one statement after the other, and an exception handler may come before
any of them while `FAULTMASK` is clear; it makes calls of its own, and so on.

`Local` says where a call is inside its critical section, with one constructor for each
statement that accesses the queue.  `ofExec` ties a whole section to the call as one event,
and `signal_queue_atomic` is the outcome for a run.
-/
import Nucleo.Lib.CriticalSection
import Nucleo.Signal

namespace Nucleo

namespace Signal

open CriticalSection

/-! ## The statements of the sections -/

/-- What the critical sections of `signal.c` protect: the queue, and the bit that requests
delivery. -/
structure SigMem where
  queue : SignalQueue
  pendsv : Bool

/-- The memory at reset. -/
def SigMem.zero : SigMem := ⟨SignalQueue.zero, false⟩

/-- The next statement of a section, and the local variables it needs. -/
inductive Local
  /-- `next_order = signal_queue.last_order + 1;` -/
  | nextOrder (info : SigInfo)
  /-- The head of the loop of `sigqueue_info`, and its test of a cell. -/
  | search (info : SigInfo) (nextOrder : BitVec 32) (iqueue : ℕ)
  /-- `signal_queue.items[iqueue].info = *info;` -/
  | storeInfo (info : SigInfo) (nextOrder : BitVec 32) (iqueue : Fin sigqueueMax)
  /-- `signal_queue.items[iqueue].order = next_order;` -/
  | storeOrder (nextOrder : BitVec 32) (iqueue : Fin sigqueueMax)
  /-- `signal_queue.last_order = next_order;` -/
  | storeLastOrder (nextOrder : BitVec 32)
  /-- `pendsv_interrupt_raise();` -/
  | raisePendsv
  /-- The loop of `signal_dequeue`: `iqueue`, and `iqueue_chosen` with `order`. -/
  | scan (set : SigSet) (iqueue : ℕ) (chosen : Option (Fin sigqueueMax × BitVec 32))
  /-- `*info = signal_queue.items[iqueue_chosen].info;` -/
  | copy (chosen : Fin sigqueueMax)
  /-- `signal_queue.items[iqueue_chosen].info.si_signo = 0;` -/
  | release (info : SigInfo) (chosen : Fin sigqueueMax)
  deriving DecidableEq

/-- The body of the loop of `signal_dequeue` for one cell. -/
def scanRound (q : SignalQueue) (set : SigSet) (best : Option (Fin sigqueueMax × BitVec 32))
    (i : Fin sigqueueMax) : Option (Fin sigqueueMax × BitVec 32) :=
  let important := match best with
    | none => true
    | some (_, order) => Tickets.before (q.items i).order order
  if q.candidate set i && important then some (i, (q.items i).order) else best

/-- One statement of a section. -/
def sectionStep (l : Local) (m : SigMem) : (Local ⊕ Answer) × SigMem :=
  match l with
  | .nextOrder info => (.inl (.search info (m.queue.lastOrder + 1) 0), m)
  | .search info nextOrder iqueue =>
      if h : iqueue < sigqueueMax then
        if m.queue.occupied ⟨iqueue, h⟩ then (.inl (.search info nextOrder (iqueue + 1)), m)
        else (.inl (.storeInfo info nextOrder ⟨iqueue, h⟩), m)
      else (.inr (.queued (-1) (some .EAGAIN)), m)
  | .storeInfo info nextOrder i =>
      let item : SignalQueueItem := { m.queue.items i with info := info }
      (.inl (.storeOrder nextOrder i),
        { m with queue := { m.queue with items := Function.update m.queue.items i item } })
  | .storeOrder nextOrder i =>
      let item : SignalQueueItem := { m.queue.items i with order := nextOrder }
      (.inl (.storeLastOrder nextOrder),
        { m with queue := { m.queue with items := Function.update m.queue.items i item } })
  | .storeLastOrder nextOrder =>
      (.inl .raisePendsv, { m with queue := { m.queue with lastOrder := nextOrder } })
  | .raisePendsv => (.inr (.queued 0 none), { m with pendsv := true })
  | .scan set iqueue best =>
      if h : iqueue < sigqueueMax then
        (.inl (.scan set (iqueue + 1) (scanRound m.queue set best ⟨iqueue, h⟩)), m)
      else
        match best with
        | none => (.inr (.taken none), m)
        | some (i, _) => (.inl (.copy i), m)
  | .copy i => (.inl (.release (m.queue.items i).info i), m)
  | .release info i => (.inr (.taken (some info)), { m with queue := m.queue.clear i })

/-- The calls that use the queue.  What `sigqueue_info` does behind its section is to store
`errno` when it has found no free cell. -/
def queueRoutine : Routine QueueCall Local Answer SigMem (Option Errno) where
  start
    | .sigqueueInfo info => .nextOrder info
    | .signalDequeue set => .scan set 0 none
  step := sectionStep
  finish _ r errno :=
    match r with
    | .queued _ (some e) => some e
    | .queued _ none | .taken _ => errno

/-- The processor that runs them. -/
abbrev QueueCpu := Cpu QueueCall Local Answer SigMem (Option Errno)

/-! ## A whole section -/

/-- The first free cell from `i` on. -/
def freeFrom (q : SignalQueue) (i : ℕ) : Option (Fin sigqueueMax) :=
  ((List.finRange sigqueueMax).drop i).find? fun i => !q.occupied i

/-- What the loop of `signal_dequeue` finds from cell `i` on. -/
def scanFrom (q : SignalQueue) (set : SigSet) (best : Option (Fin sigqueueMax × BitVec 32))
    (i : ℕ) : Option (Fin sigqueueMax × BitVec 32) :=
  ((List.finRange sigqueueMax).drop i).foldl (scanRound q set) best

/-- How `sigqueue_info` ends when it has found `cell`. -/
def fill (info : SigInfo) (nextOrder : BitVec 32) (m : SigMem) :
    Option (Fin sigqueueMax) → Answer × SigMem
  | none => (.queued (-1) (some .EAGAIN), m)
  | some i =>
      (.queued 0 none, ⟨⟨nextOrder, Function.update m.queue.items i ⟨info, nextOrder⟩⟩, true⟩)

/-- How `signal_dequeue` ends when it has chosen a cell. -/
def takeOut (m : SigMem) : Option (Fin sigqueueMax × BitVec 32) → Answer × SigMem
  | none => (.taken none, m)
  | some (i, _) => (.taken (some (m.queue.items i).info), { m with queue := m.queue.clear i })

/-- How a section ends from a statement on. -/
def sectionRest (l : Local) (m : SigMem) : Answer × SigMem :=
  match l with
  | .nextOrder info => fill info (m.queue.lastOrder + 1) m (freeFrom m.queue 0)
  | .search info nextOrder i => fill info nextOrder m (freeFrom m.queue i)
  | .storeInfo info nextOrder i => fill info nextOrder m (some i)
  | .storeOrder nextOrder i => fill (m.queue.items i).info nextOrder m (some i)
  | .storeLastOrder nextOrder =>
      (.queued 0 none, ⟨{ m.queue with lastOrder := nextOrder }, true⟩)
  | .raisePendsv => (.queued 0 none, { m with pendsv := true })
  | .scan set i best => takeOut m (scanFrom m.queue set best i)
  | .copy i => takeOut m (some (i, 0))
  | .release info i => (.taken (some info), { m with queue := m.queue.clear i })

/-- A bound on the statements that are left of a section. -/
def sectionSize : Local → ℕ
  | .nextOrder _ => sigqueueMax + 6
  | .search _ _ i => sigqueueMax - i + 5
  | .storeInfo _ _ _ => 4
  | .storeOrder _ _ => 3
  | .storeLastOrder _ => 2
  | .raisePendsv => 1
  | .scan _ i _ => sigqueueMax - i + 3
  | .copy _ => 2
  | .release _ _ => 1

theorem drop_finRange_of_lt {n i : ℕ} (h : i < n) :
    (List.finRange n).drop i = ⟨i, h⟩ :: (List.finRange n).drop (i + 1) := by
  rw [List.drop_eq_getElem_cons (by rwa [List.length_finRange]), List.getElem_finRange]
  rfl

theorem drop_finRange_of_ge {n i : ℕ} (h : ¬ i < n) : (List.finRange n).drop i = [] := by
  rw [List.drop_eq_nil_iff, List.length_finRange]
  omega

section Cells

variable (q : SignalQueue) {i : ℕ}

theorem freeFrom_of_lt (hi : i < sigqueueMax) :
    freeFrom q i = if q.occupied ⟨i, hi⟩ then freeFrom q (i + 1) else some ⟨i, hi⟩ := by
  unfold freeFrom
  rw [drop_finRange_of_lt hi]
  cases hocc : q.occupied ⟨i, hi⟩ with
  | true => rw [if_pos rfl, List.find?_cons_of_neg (by simp [hocc])]
  | false => rw [if_neg Bool.false_ne_true, List.find?_cons_of_pos (by simp [hocc])]

theorem freeFrom_of_ge (hi : ¬ i < sigqueueMax) : freeFrom q i = none := by
  unfold freeFrom
  rw [drop_finRange_of_ge hi]
  rfl

variable (set : SigSet) (best : Option (Fin sigqueueMax × BitVec 32))

theorem scanFrom_of_lt (hi : i < sigqueueMax) :
    scanFrom q set best i = scanFrom q set (scanRound q set best ⟨i, hi⟩) (i + 1) := by
  unfold scanFrom
  rw [drop_finRange_of_lt hi, List.foldl_cons]

theorem scanFrom_of_ge (hi : ¬ i < sigqueueMax) : scanFrom q set best i = best := by
  unfold scanFrom
  rw [drop_finRange_of_ge hi]
  rfl

end Cells

/-! ### The section and the call -/

/-- A statement that does not end the section: how the section ends stays the same, and
fewer statements are left. -/
theorem sectionStep_of_inl {l l' : Local} {m m' : SigMem}
    (h : sectionStep l m = (.inl l', m')) :
    sectionRest l m = sectionRest l' m' ∧ sectionSize l' < sectionSize l := by
  -- one case per statement; the loops count up to the size of the queue
  cases l with
  | nextOrder info =>
      cases h
      exact ⟨rfl, Nat.lt_succ_self _⟩
  | search info nextOrder i =>
      unfold sectionStep at h
      dsimp only at h
      by_cases hi : i < sigqueueMax
      · rw [dif_pos hi] at h
        have hfree := freeFrom_of_lt m.queue hi
        cases hocc : m.queue.occupied ⟨i, hi⟩ with
        | true =>
            rw [hocc, if_pos rfl] at h hfree
            cases h
            refine ⟨congrArg (fill info nextOrder m) hfree, ?_⟩
            show sigqueueMax - (i + 1) + 5 < sigqueueMax - i + 5
            omega
        | false =>
            rw [hocc, if_neg Bool.false_ne_true] at h hfree
            cases h
            refine ⟨congrArg (fill info nextOrder m) hfree, ?_⟩
            show 4 < sigqueueMax - i + 5
            omega
      · rw [dif_neg hi] at h
        cases h
  | storeInfo info nextOrder i =>
      cases h
      refine ⟨?_, Nat.lt_succ_self _⟩
      unfold sectionRest fill
      dsimp only
      rw [Function.update_self, Function.update_idem]
  | storeOrder nextOrder i =>
      cases h
      exact ⟨rfl, Nat.lt_succ_self _⟩
  | storeLastOrder nextOrder =>
      cases h
      exact ⟨rfl, Nat.lt_succ_self _⟩
  | scan set i best =>
      unfold sectionStep at h
      dsimp only at h
      by_cases hi : i < sigqueueMax
      · rw [dif_pos hi] at h
        cases h
        refine ⟨congrArg (takeOut m) (scanFrom_of_lt m.queue set best hi), ?_⟩
        show sigqueueMax - (i + 1) + 3 < sigqueueMax - i + 3
        omega
      · rw [dif_neg hi] at h
        cases best with
        | none => cases h
        | some b =>
            cases h
            refine ⟨congrArg (takeOut m) (scanFrom_of_ge m.queue set _ hi), ?_⟩
            show 2 < sigqueueMax - i + 3
            omega
  | copy i =>
      cases h
      exact ⟨rfl, Nat.lt_succ_self _⟩
  | raisePendsv | release => cases h

/-- The last statement ends the section as foreseen. -/
theorem sectionStep_of_inr {l : Local} {m m' : SigMem} {r : Answer}
    (h : sectionStep l m = (.inr r, m')) : sectionRest l m = (r, m') := by
  cases l with
  | nextOrder | storeInfo | storeOrder | storeLastOrder | copy => cases h
  | search info nextOrder i =>
      unfold sectionStep at h
      dsimp only at h
      by_cases hi : i < sigqueueMax
      · rw [dif_pos hi] at h
        cases hocc : m.queue.occupied ⟨i, hi⟩ with
        | true => rw [hocc] at h; cases h
        | false => rw [hocc] at h; cases h
      · rw [dif_neg hi] at h
        cases h
        exact congrArg (fill info nextOrder m) (freeFrom_of_ge m.queue hi)
  | raisePendsv =>
      cases h
      rfl
  | scan set i best =>
      unfold sectionStep at h
      dsimp only at h
      by_cases hi : i < sigqueueMax
      · rw [dif_pos hi] at h
        cases h
      · rw [dif_neg hi] at h
        cases best with
        | some b => cases h
        | none =>
            cases h
            exact congrArg (takeOut m) (scanFrom_of_ge m.queue set _ hi)
  | release info i =>
      cases h
      rfl

/-! ## A section is the call as one event -/

/-- The loop of `signal_dequeue` keeps the order number of the cell it has chosen. -/
theorem scanFrom_zero (q : SignalQueue) (set : SigSet) :
    scanFrom q set none 0 = (q.chosen set).map fun i => (i, (q.items i).order) := by
  have hround : ∀ (kept : Option (Fin sigqueueMax)) i,
      scanRound q set (kept.map fun i => (i, (q.items i).order)) i =
        (Tickets.scanStep (q.candidate set) q.important kept i).map
          fun i => (i, (q.items i).order) := by
    intro kept i
    unfold scanRound Tickets.scanStep
    cases hcand : q.candidate set i with
    | false => rfl
    | true =>
        cases kept with
        | none => rfl
        | some j =>
            show (if Tickets.before (q.items i).order (q.items j).order then _ else _) =
              Option.map _ (if q.important i j then _ else _)
            unfold SignalQueue.important
            cases Tickets.before (q.items i).order (q.items j).order with
            | true => rfl
            | false => rfl
  have hfold : ∀ (cells : List (Fin sigqueueMax)) (kept : Option (Fin sigqueueMax)),
      cells.foldl (scanRound q set) (kept.map fun i => (i, (q.items i).order)) =
        (cells.foldl (Tickets.scanStep (q.candidate set) q.important) kept).map
          fun i => (i, (q.items i).order) := by
    intro cells
    induction cells with
    | nil => exact fun _ => rfl
    | cons i cells ih =>
        intro kept
        rw [List.foldl_cons, List.foldl_cons, hround, ih]
  exact hfold _ none

/-- What the machine of whole calls sees of the memory. -/
def SigMem.state (m : SigMem) (errno : Option Errno) : SigState SignalQueue :=
  ⟨m.queue, 0, m.pendsv, errno⟩

/-- **A whole section is the call as one event.** -/
theorem exec_of_section {c : QueueCall} {m m' : SigMem} {r : Answer} (errno : Option Errno)
    (h : Exec queueRoutine c m r m') :
    c.exec arrayQueue (m.state errno) = (r, m'.state (queueRoutine.finish c r errno)) := by
  -- what the statements left amount to does not change from one to the next
  have hrest := h.eq_rest (fun _ _ _ _ hs => (sectionStep_of_inl hs).1)
    (fun _ _ _ _ => sectionStep_of_inr)
  cases c with
  | sigqueueInfo info =>
      change fill info _ m m.queue.firstFree = _ at hrest
      unfold QueueCall.exec sigqueueInfo arrayQueue SignalQueue.enqueue SigMem.state
      dsimp only
      cases hfree : m.queue.firstFree with
      | none =>
          rw [hfree] at hrest
          cases hrest
          rfl
      | some i =>
          rw [hfree] at hrest
          cases hrest
          rfl
  | signalDequeue set =>
      change takeOut m (scanFrom m.queue set none 0) = _ at hrest
      rw [scanFrom_zero] at hrest
      unfold QueueCall.exec signalDequeue arrayQueue SignalQueue.dequeue SigMem.state
      dsimp only
      cases hchosen : m.queue.chosen set with
      | none =>
          rw [hchosen] at hrest
          cases hrest
          rfl
      | some i =>
          rw [hchosen] at hrest
          cases hrest
          rfl

/-- Sections one after the other are calls one after the other. -/
theorem execCalls_of_serial {m m' : SigMem} {h : List (QueueCall × Answer)}
    (errno : Option Errno) (hs : Serial queueRoutine m h m') : ∃ errno',
    execCalls arrayQueue (m.state errno) (h.map Prod.fst) =
      (h.map Prod.snd, m'.state errno') := by
  induction hs with
  | nil => exact ⟨errno, rfl⟩
  | @snoc h m₁ m₂ c r _ hc ih =>
      obtain ⟨errno₁, ih⟩ := ih
      have happend : ∀ (cs : List QueueCall) (s : SigState SignalQueue),
          execCalls arrayQueue s (cs ++ [c]) =
            ((execCalls arrayQueue s cs).1 ++ [(c.exec arrayQueue (execCalls arrayQueue s cs).2).1],
              (c.exec arrayQueue (execCalls arrayQueue s cs).2).2) := by
        intro cs
        induction cs with
        | nil => exact fun _ => rfl
        | cons c' cs ihcs =>
            intro s
            simp only [List.cons_append, execCalls]
            rw [ihcs]
      refine ⟨queueRoutine.finish c r errno₁, ?_⟩
      rw [List.map_append, List.map_cons, List.map_nil, happend, ih, exec_of_section errno₁ hc,
        List.map_append]
      rfl

/-! ## Runs -/

/-- The signal numbers that a call queues are in range. -/
def LegalEvent (e : CriticalSection.Event QueueCall) : Prop := ∀ c, e.starts = some c → c.Legal

/-- **The queue is atomic under preemption.**  In every run, with exception handlers that
come before any statement and nest to any depth, and with the program setting `FAULTMASK`
between its calls:

* left alone, all calls in progress return;
* a call that has returned comes in the history before every call that starts later;
* while none is in progress, the calls that have returned, in the order of the history, have
  done to the queue and to the request for delivery, and have answered, what they do as
  single events; as long as fewer than `2^31` signals are enqueued while any one signal stays
  queued, they have answered as a bounded list would; and `FAULTMASK` is as the program
  set it. -/
theorem signal_queue_atomic (es : List (CriticalSection.Event QueueCall)) {s : QueueCpu}
    (hrun : (Cpu.idle SigMem.zero none).run queueRoutine es = some s) :
    (∃ n s', s.run queueRoutine (List.replicate n .step) = some s' ∧ s'.stack = []) ∧
    (∀ k sk, (Cpu.idle SigMem.zero none).run queueRoutine (es.take k) = some sk →
      sk.returned ⊆ sk.history ∧ sk.history <+: s.history) ∧
    (s.stack = [] →
      let calls := s.history.map Prod.fst
      let serial := execCalls arrayQueue (SigState.zero arrayQueue) calls
      s.history.Perm s.returned ∧ s.masked = s.base ∧
      serial.1 = s.history.map Prod.snd ∧ serial.2.queue = s.mem.queue ∧
      serial.2.pendsv = s.mem.pendsv ∧
      ((∀ e ∈ es, LegalEvent e) → StaysFresh (SigState.zero listQueue) calls →
        s.history.map Prod.snd = (boundedListCalls [] calls).1)) := by
  refine ⟨drains (fun _ _ _ _ hs => (sectionStep_of_inl hs).2) s, ?_, ?_⟩
  · intro k sk hk
    refine ⟨returned_subset_history hk, ?_⟩
    have hrest := hrun
    rw [← List.take_append_drop k es, Cpu.run_append, hk] at hrest
    exact history_prefix_run hrest
  · intro hidle calls serial
    obtain ⟨hserial, hperm, hmask⟩ := linearizes hrun hidle
    obtain ⟨errno, hcalls⟩ := execCalls_of_serial none hserial
    have heq : serial = (s.history.map Prod.snd, s.mem.state errno) := hcalls
    refine ⟨hperm, hmask, ?_, ?_, ?_, fun hlegal hfresh => ?_⟩
    · rw [heq]
    · rw [heq]
      rfl
    · rw [heq]
      rfl
    · have honly := (only_idle SigMem.zero none).run hlegal hrun
      have hcallsLegal : ∀ c ∈ calls, c.Legal := by
        intro c hc
        obtain ⟨x, hx, rfl⟩ := List.mem_map.1 hc
        exact honly.2 x hx
      have hlist := (sim_zero.execCalls hcallsLegal hfresh).1
      change serial.1 = _ at hlist
      rw [heq] at hlist
      exact hlist

/-- `sigqueue_info` is interrupted between its test of the mask and the masking, by a handler
that finds the queue empty. -/
theorem signal_queue_atomic_interrupted : ∃ s : QueueCpu,
    (Cpu.idle SigMem.zero none).run queueRoutine
      ([.call (.sigqueueInfo ⟨1, 1, 1, 0⟩), .step, .interrupt (.signalDequeue 1#32)] ++
        List.replicate 46 .step) = some s ∧
    s.history.map Prod.snd = [.taken none, .queued 0 none] ∧
    s.history.map Prod.snd = (boundedListCalls [] (s.history.map Prod.fst)).1 := by
  have hevents : ∀ e ∈ ([.call (.sigqueueInfo ⟨1, 1, 1, 0⟩), .step,
      .interrupt (.signalDequeue 1#32)] ++ List.replicate 46 .step :
        List (CriticalSection.Event QueueCall)), LegalEvent e := by
    intro e he c hc
    rcases List.mem_append.1 he with he | he
    · simp only [List.mem_cons, List.not_mem_nil, or_false] at he
      rcases he with rfl | rfl | rfl
      · cases hc
        exact ⟨by decide, by decide⟩
      · cases hc
      · cases hc
        trivial
    · rw [List.eq_of_mem_replicate he] at hc
      cases hc
  have hlog : ((Cpu.idle SigMem.zero none : QueueCpu).run queueRoutine
      ([.call (.sigqueueInfo ⟨1, 1, 1, 0⟩), .step, .interrupt (.signalDequeue 1#32)] ++
        List.replicate 46 .step)).map (fun s => (s.stack.length, s.history)) =
      some (0, [(.signalDequeue 1#32, .taken none),
        (.sigqueueInfo ⟨1, 1, 1, 0⟩, .queued 0 none)]) := by
    decide +kernel
  obtain ⟨s, hrun, hs⟩ := Option.map_eq_some_iff.1 hlog
  obtain ⟨hstack, hhist⟩ := Prod.mk.inj hs
  refine ⟨s, hrun, ?_, ?_⟩
  · rw [hhist]
    rfl
  · obtain ⟨-, -, -, -, -, hlist⟩ := (signal_queue_atomic _ hrun).2.2
      (List.length_eq_zero_iff.1 hstack)
    apply hlist hevents
    apply staysFresh_of_length_lt
    rw [hhist]
    decide

end Signal

end Nucleo
