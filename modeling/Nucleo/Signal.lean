/-
# Signals: queueing, masking and the request for delivery

The calls of `signal.c`, `kill.c` and `raise.c` that enqueue a signal, dequeue
one or change the mask.  They are written over a `QueueImpl`, the two operations
they need of the queue, so that the same code runs on the array of the source
(`arrayQueue`) and on the bounded list it implements (`listQueue`).

`Sim` relates a state over the array to a state over the list.  Every call keeps
it and returns the same value on both sides; `signal_queue_refines_bounded_list`
is the outcome for the queue itself, against a plain list of signals.
-/
import Nucleo.SignalQueue

namespace Nucleo

namespace Signal

/-! ## State -/

/-- What `signal.c` does with its queue. -/
structure QueueImpl (Q : Type) where
  zero : Q
  enqueue : SigInfo → Q → Option Q
  dequeue : SigSet → Q → Option (SigInfo × Q)

/-- The array of cells of the source. -/
def arrayQueue : QueueImpl SignalQueue where
  zero := SignalQueue.zero
  enqueue := fun info q => q.enqueue info
  dequeue := fun set q => q.dequeue set

/-- The bounded list with stamps. -/
def listQueue : QueueImpl (StampedQueue SigInfo) where
  zero := StampedQueue.empty
  enqueue := StampedQueue.push sigqueueMax
  dequeue := fun set => StampedQueue.pop (inSet set)

/-- The static data of `signal.c`, the PENDSVSET bit of SCB_ICSR and `errno`. -/
structure SigState (Q : Type) where
  queue : Q
  procmask : SigSet
  pendsv : Bool
  errno : Option Errno

variable {Q : Type} (I : QueueImpl Q)

/-- The state at reset. -/
def SigState.zero : SigState Q := ⟨I.zero, 0, false, none⟩

/-! ## Queueing -/

/-- `pendsv_interrupt_raise`. -/
def pendsvInterruptRaise (s : SigState Q) : SigState Q := { s with pendsv := true }

/-- `sigqueue_info`. -/
def sigqueueInfo (info : SigInfo) (s : SigState Q) : ℤ × SigState Q :=
  match I.enqueue info s.queue with
  | some q => (0, pendsvInterruptRaise { s with queue := q })
  | none => (-1, { s with errno := some .EAGAIN })

/-- `signal_dequeue`: the value stored through `info` when it returns 0, `none`
when it returns -1. -/
def signalDequeue (set : SigSet) (s : SigState Q) : Option SigInfo × SigState Q :=
  match I.dequeue set s.queue with
  | some (info, q) => (some info, { s with queue := q })
  | none => (none, s)

variable {I}

theorem sigqueueInfo_of_some {info : SigInfo} {s : SigState Q} {q : Q}
    (h : I.enqueue info s.queue = some q) :
    sigqueueInfo I info s = (0, pendsvInterruptRaise { s with queue := q }) := by
  unfold sigqueueInfo
  rw [h]

theorem sigqueueInfo_of_none {info : SigInfo} {s : SigState Q}
    (h : I.enqueue info s.queue = none) :
    sigqueueInfo I info s = (-1, { s with errno := some .EAGAIN }) := by
  unfold sigqueueInfo
  rw [h]

theorem signalDequeue_of_some {set : SigSet} {s : SigState Q} {info : SigInfo} {q : Q}
    (h : I.dequeue set s.queue = some (info, q)) :
    signalDequeue I set s = (some info, { s with queue := q }) := by
  unfold signalDequeue
  rw [h]

theorem signalDequeue_of_none {set : SigSet} {s : SigState Q}
    (h : I.dequeue set s.queue = none) : signalDequeue I set s = (none, s) := by
  unfold signalDequeue
  rw [h]

variable (I)

/-- `signal_dequeue_procmask`. -/
def signalDequeueProcmask (s : SigState Q) : Option SigInfo × SigState Q :=
  signalDequeue I (~~~s.procmask) s

/-- `getpid`. -/
def getpid : ℤ := 1

/-- `SI_USER`. -/
def siUser : ℤ := 1

/-- `SI_QUEUE`. -/
def siQueue : ℤ := 2

/-- `kill`. -/
def kill (pid sig : ℤ) (s : SigState Q) : ℤ × SigState Q :=
  if pid ≠ getpid ∧ pid > 0 then (-1, { s with errno := some .ESRCH })
  else if sig ≠ 0 then sigqueueInfo I ⟨sig, siUser, getpid, 0⟩ s
  else (0, s)

/-- `raise`. -/
def raise (sig : ℤ) (s : SigState Q) : ℤ × SigState Q := kill I getpid sig s

/-- `sigqueue`. -/
def sigqueue (pid sig : ℤ) (value : BitVec 32) (s : SigState Q) : ℤ × SigState Q :=
  if pid ≠ getpid then (-1, { s with errno := some .ESRCH })
  else if sig ≠ 0 then sigqueueInfo I ⟨sig, siQueue, 0, value⟩ s
  else (0, s)

/-! ## Masking -/

/-- The `how` argument of `sigprocmask`. -/
inductive How
  | sigBlock
  | sigSetmask
  | sigUnblock
  | other (how : ℤ)
  deriving DecidableEq, Repr

/-- `sigprocmask`; a null `set` is `none`.  The old mask, which the source also
stores through `oset`, is `s.procmask`. -/
def sigprocmask (how : How) (set : Option SigSet) (s : SigState Q) : ℤ × SigState Q :=
  match set with
  | none => (0, s)
  | some set =>
      match how with
      | .sigBlock => (0, { s with procmask := s.procmask ||| set })
      | .sigSetmask => (0, pendsvInterruptRaise { s with procmask := set })
      | .sigUnblock => (0, pendsvInterruptRaise { s with procmask := s.procmask &&& ~~~set })
      | .other _ => (-1, { s with errno := some .EINVAL })

/-- `sigholdrel`. -/
def sigholdrel (how : How) (sig : ℤ) (s : SigState Q) : ℤ × SigState Q :=
  if sig ≤ 0 then (-1, { s with errno := some .EINVAL })
  else (0, (sigprocmask how (some (sigmask sig)) s).2)

/-- `sighold`. -/
def sighold (sig : ℤ) (s : SigState Q) : ℤ × SigState Q := sigholdrel .sigBlock sig s

/-- `sigrelse`. -/
def sigrelse (sig : ℤ) (s : SigState Q) : ℤ × SigState Q := sigholdrel .sigUnblock sig s

/-! ## The array simulates the list -/

/-- The same state over the array and over the list. -/
structure Sim (s : SigState SignalQueue) (t : SigState (StampedQueue SigInfo)) : Prop where
  queue : s.queue.Represents t.queue
  procmask : s.procmask = t.procmask
  pendsv : s.pendsv = t.pendsv
  errno : s.errno = t.errno

theorem sim_zero : Sim (SigState.zero arrayQueue) (SigState.zero listQueue) :=
  ⟨SignalQueue.represents_zero, rfl, rfl, rfl⟩

variable {s : SigState SignalQueue} {t : SigState (StampedQueue SigInfo)}

/-- Enqueueing returns the same value on both sides. -/
theorem Sim.sigqueueInfo (h : Sim s t) {info : SigInfo} (hsig : info.siSigno ≠ 0) :
    (sigqueueInfo arrayQueue info s).1 = (sigqueueInfo listQueue info t).1 ∧
      Sim (sigqueueInfo arrayQueue info s).2 (sigqueueInfo listQueue info t).2 := by
  rcases SignalQueue.enqueue_represents h.queue hsig with ⟨hq, ha⟩ | ⟨q', a', hq, ha, hr⟩
  · rw [sigqueueInfo_of_none (I := arrayQueue) hq, sigqueueInfo_of_none (I := listQueue) ha]
    exact ⟨rfl, h.queue, h.procmask, h.pendsv, rfl⟩
  · rw [sigqueueInfo_of_some (I := arrayQueue) hq, sigqueueInfo_of_some (I := listQueue) ha]
    exact ⟨rfl, hr, h.procmask, rfl, h.errno⟩

/-- Dequeueing takes the same signal on both sides while the list is fresh. -/
theorem Sim.signalDequeue (h : Sim s t) (hfresh : t.queue.Fresh (2 ^ 31)) (set : SigSet) :
    (signalDequeue arrayQueue set s).1 = (signalDequeue listQueue set t).1 ∧
      Sim (signalDequeue arrayQueue set s).2 (signalDequeue listQueue set t).2 := by
  rcases SignalQueue.dequeue_represents h.queue hfresh set with
    ⟨hq, ha⟩ | ⟨info, q', a', hq, ha, hr⟩
  · rw [signalDequeue_of_none (I := arrayQueue) hq, signalDequeue_of_none (I := listQueue) ha]
    exact ⟨rfl, h⟩
  · rw [signalDequeue_of_some (I := arrayQueue) hq, signalDequeue_of_some (I := listQueue) ha]
    exact ⟨rfl, hr, h.procmask, h.pendsv, h.errno⟩

/-- Masking does not look at the queue. -/
theorem Sim.sigprocmask (h : Sim s t) (how : How) (set : Option SigSet) :
    (sigprocmask how set s).1 = (sigprocmask how set t).1 ∧
      Sim (sigprocmask how set s).2 (sigprocmask how set t).2 := by
  cases set with
  | none => exact ⟨rfl, h⟩
  | some set =>
      cases how with
      | sigBlock =>
          exact ⟨rfl, h.queue, congrArg (· ||| set) h.procmask, h.pendsv, h.errno⟩
      | sigSetmask => exact ⟨rfl, h.queue, rfl, rfl, h.errno⟩
      | sigUnblock =>
          exact ⟨rfl, h.queue, congrArg (· &&& ~~~set) h.procmask, rfl, h.errno⟩
      | other => exact ⟨rfl, h.queue, h.procmask, h.pendsv, rfl⟩

/-! ## The queue refines a bounded list -/

/-- A use of the queue. -/
inductive QueueCall
  | sigqueueInfo (info : SigInfo)
  | signalDequeue (set : SigSet)
  deriving DecidableEq, Repr

/-- What the caller sees: the value returned and the `errno` stored on failure,
or the signal taken. -/
inductive Answer
  | queued (ret : ℤ) (err : Option Errno)
  | taken (info : Option SigInfo)
  deriving DecidableEq, Repr

/-- The signal numbers that are enqueued are in range. -/
def QueueCall.Legal : QueueCall → Prop
  | .sigqueueInfo info => IsSignal info.siSigno
  | .signalDequeue _ => True

/-- One call. -/
def QueueCall.exec (I : QueueImpl Q) (s : SigState Q) : QueueCall → Answer × SigState Q
  | .sigqueueInfo info =>
      let r := Signal.sigqueueInfo I info s
      (.queued r.1 (if r.1 = 0 then none else r.2.errno), r.2)
  | .signalDequeue set =>
      let r := Signal.signalDequeue I set s
      (.taken r.1, r.2)

/-- A sequence of calls: the answers and the final state. -/
def execCalls (I : QueueImpl Q) : SigState Q → List QueueCall → List Answer × SigState Q
  | s, [] => ([], s)
  | s, c :: cs =>
      let r := c.exec I s
      let rs := execCalls I r.2 cs
      (r.1 :: rs.1, rs.2)

/-! ### The list -/

/-- The abstract queue: a list that holds at most `SIGQUEUE_MAX` signals, appended
to at the end, from which the earliest member of a set is taken. -/
def boundedList (l : List SigInfo) : QueueCall → Answer × List SigInfo
  | .sigqueueInfo info =>
      if l.length < sigqueueMax then (.queued 0 none, l ++ [info])
      else (.queued (-1) (some .EAGAIN), l)
  | .signalDequeue set => (.taken (l.find? (inSet set)), l.eraseP (inSet set))

/-- A sequence of calls on the abstract queue. -/
def boundedListCalls : List SigInfo → List QueueCall → List Answer × List SigInfo
  | l, [] => ([], l)
  | l, c :: cs =>
      let r := boundedList l c
      let rs := boundedListCalls r.2 cs
      (r.1 :: rs.1, rs.2)

/-- Throughout the calls, fewer than `2^31` signals are enqueued while any one
signal stays queued: every list on the way is fresh. -/
def StaysFresh (t : SigState (StampedQueue SigInfo)) (cs : List QueueCall) : Prop :=
  ∀ k, (execCalls listQueue t (cs.take k)).2.queue.Fresh (2 ^ 31)

theorem sigqueueInfo_count_le (info : SigInfo) (t : SigState (StampedQueue SigInfo)) :
    (sigqueueInfo listQueue info t).2.queue.count ≤ t.queue.count + 1 := by
  cases hp : listQueue.enqueue info t.queue with
  | none =>
      rw [sigqueueInfo_of_none hp]
      exact Nat.le_succ _
  | some b =>
      rw [sigqueueInfo_of_some hp]
      exact StampedQueue.push_count_le hp

theorem signalDequeue_count (set : SigSet) (t : SigState (StampedQueue SigInfo)) :
    (signalDequeue listQueue set t).2.queue.count = t.queue.count := by
  cases hp : listQueue.dequeue set t.queue with
  | none => rw [signalDequeue_of_none hp]
  | some r =>
      rw [signalDequeue_of_some hp]
      exact StampedQueue.pop_count hp

/-- Every call enqueues at most one signal. -/
theorem execCalls_count_le (t : SigState (StampedQueue SigInfo)) (cs : List QueueCall) :
    (execCalls listQueue t cs).2.queue.count ≤ t.queue.count + cs.length := by
  induction cs generalizing t with
  | nil => exact le_refl _
  | cons c cs ih =>
      have hrest := ih (c.exec listQueue t).2
      have hone : (c.exec listQueue t).2.queue.count ≤ t.queue.count + 1 := by
        cases c with
        | sigqueueInfo info => exact sigqueueInfo_count_le info t
        | signalDequeue set => exact le_of_eq_of_le (signalDequeue_count set t) (Nat.le_succ _)
      simp only [execCalls, List.length_cons]
      omega

/-- A run of fewer than `2^31` calls stays fresh. -/
theorem staysFresh_of_length_lt {cs : List QueueCall} (h : cs.length < 2 ^ 31) :
    StaysFresh (SigState.zero listQueue) cs := by
  intro k
  apply StampedQueue.Fresh.of_count_lt
  have hcount := execCalls_count_le (SigState.zero listQueue) (cs.take k)
  have hzero : (SigState.zero listQueue).queue.count = 0 := rfl
  have hlen := List.length_take_le' k cs
  omega

/-! ### The two agree -/

/-- Dropping the stamps turns the stamped list into the plain one. -/
theorem exec_listQueue (t : SigState (StampedQueue SigInfo)) (c : QueueCall) :
    (c.exec listQueue t).1 = (boundedList t.queue.contents c).1 ∧
      (c.exec listQueue t).2.queue.contents
        = (boundedList t.queue.contents c).2 := by
  cases c with
  | sigqueueInfo info =>
      simp only [QueueCall.exec, Signal.sigqueueInfo, listQueue, StampedQueue.push, boundedList,
        StampedQueue.contents, List.length_map]
      split
      · simp [pendsvInterruptRaise]
      · simp
  | signalDequeue set =>
      simp only [QueueCall.exec, Signal.signalDequeue, listQueue, boundedList]
      have hfind : t.queue.contents.find? (inSet set)
          = (t.queue.entries.find? fun e => inSet set e.2).map Prod.snd := by
        unfold StampedQueue.contents
        rw [List.find?_map]
        rfl
      have herase : t.queue.contents.eraseP (inSet set)
          = (t.queue.entries.eraseP fun e => inSet set e.2).map Prod.snd := by
        unfold StampedQueue.contents
        rw [List.eraseP_map]
        rfl
      rw [hfind, herase]
      unfold StampedQueue.pop
      cases hf : t.queue.entries.find? fun e => inSet set e.2 with
      | none =>
          rw [List.find?_eq_none] at hf
          rw [List.eraseP_of_forall_not hf]
          exact ⟨rfl, rfl⟩
      | some e => exact ⟨rfl, rfl⟩

/-- One call on related states. -/
theorem Sim.exec (h : Sim s t) (hfresh : t.queue.Fresh (2 ^ 31)) {c : QueueCall}
    (hc : c.Legal) :
    (c.exec arrayQueue s).1 = (c.exec listQueue t).1 ∧
      Sim (c.exec arrayQueue s).2 (c.exec listQueue t).2 := by
  cases c with
  | sigqueueInfo info =>
      obtain ⟨hret, hsim⟩ := h.sigqueueInfo (IsSignal.ne_zero hc)
      refine ⟨?_, hsim⟩
      simp only [QueueCall.exec]
      rw [hret, hsim.errno]
  | signalDequeue set =>
      obtain ⟨hret, hsim⟩ := h.signalDequeue hfresh set
      refine ⟨?_, hsim⟩
      simp only [QueueCall.exec]
      rw [hret]

/-- A sequence of calls on related states: by induction on the calls, the
freshness of the first list starts each step. -/
theorem Sim.execCalls (h : Sim s t) {cs : List QueueCall} (hlegal : ∀ c ∈ cs, c.Legal)
    (hfresh : StaysFresh t cs) :
    (execCalls arrayQueue s cs).1 = (boundedListCalls t.queue.contents cs).1 ∧
      Sim (Signal.execCalls arrayQueue s cs).2 (Signal.execCalls listQueue t cs).2 := by
  induction cs generalizing s t with
  | nil => exact ⟨rfl, h⟩
  | cons c cs ih =>
      obtain ⟨hans, hsim⟩ := h.exec (hfresh 0) (hlegal c List.mem_cons_self)
      obtain ⟨hspec, hlist⟩ := exec_listQueue t c
      have hfresh' : StaysFresh (c.exec listQueue t).2 cs := fun k => hfresh (k + 1)
      obtain ⟨hrest, hsim'⟩ := ih hsim (fun c' hc' => hlegal c' (List.mem_cons_of_mem _ hc')) hfresh'
      refine ⟨?_, hsim'⟩
      simp only [Signal.execCalls, boundedListCalls]
      rw [hans, hspec, hrest, hlist]

/-- A failed call leaves the array alone. -/
theorem exec_failed (s : SigState SignalQueue) (c : QueueCall)
    (h : (c.exec arrayQueue s).1 = .queued (-1) (some .EAGAIN) ∨
      (c.exec arrayQueue s).1 = .taken none) :
    (c.exec arrayQueue s).2.queue = s.queue := by
  cases c with
  | sigqueueInfo info =>
      simp only [QueueCall.exec, Signal.sigqueueInfo] at h ⊢
      split
      · rename_i q hq
        simp [hq] at h
      · rfl
  | signalDequeue set =>
      simp only [QueueCall.exec, Signal.signalDequeue] at h ⊢
      split
      · rename_i info q hq
        simp [hq] at h
      · rfl

/-- **The signal queue refines a bounded list.**  For every sequence of calls
with signal numbers in range, as long as fewer than `2^31` signals are enqueued
while any one stays queued, the array answers every call as the bounded list
does, also when the order counter wraps; and a call that fails changes nothing
in the array. -/
theorem signal_queue_refines_bounded_list (cs : List QueueCall) (hlegal : ∀ c ∈ cs, c.Legal)
    (hfresh : StaysFresh (SigState.zero listQueue) cs) :
    (execCalls arrayQueue (SigState.zero arrayQueue) cs).1 = (boundedListCalls [] cs).1 ∧
      ∀ c : QueueCall,
        let s := (execCalls arrayQueue (SigState.zero arrayQueue) cs).2
        (c.exec arrayQueue s).1 = .queued (-1) (some .EAGAIN) ∨
            (c.exec arrayQueue s).1 = .taken none →
          (c.exec arrayQueue s).2.queue = s.queue := by
  refine ⟨(sim_zero.execCalls hlegal hfresh).1, ?_⟩
  intro c s hc
  exact exec_failed s c hc

/-- Two signals queued, the second taken first because only it is in the set. -/
theorem signal_queue_refines_bounded_list_selective :
    (execCalls arrayQueue (SigState.zero arrayQueue)
        [.sigqueueInfo ⟨1, 1, 1, 0⟩, .sigqueueInfo ⟨2, 1, 1, 0⟩, .signalDequeue 2#32,
          .signalDequeue 3#32, .signalDequeue 3#32]).1
      = [.queued 0 none, .queued 0 none, .taken (some ⟨2, 1, 1, 0⟩),
          .taken (some ⟨1, 1, 1, 0⟩), .taken none] :=
  (signal_queue_refines_bounded_list
    [.sigqueueInfo ⟨1, 1, 1, 0⟩, .sigqueueInfo ⟨2, 1, 1, 0⟩, .signalDequeue 2#32,
      .signalDequeue 3#32, .signalDequeue 3#32]
    (by simp [QueueCall.Legal, IsSignal, signalMax])
    (staysFresh_of_length_lt (by decide))).1

end Signal

end Nucleo
