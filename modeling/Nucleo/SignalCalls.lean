/-
# The calls of the signal library, one at a time

Which calls put a signal into the queue or change the mask, and what each of them does to
the two and to the request for PendSV when nothing comes in between.  `SignalAccesses`
takes the same calls apart into their accesses.
-/
import Nucleo.Signal

namespace Nucleo

namespace Signal

/-! ## The calls -/

/-- The calls that change the queue or the mask. -/
inductive SigCall
  | kill (pid sig : ℤ)
  | raise (sig : ℤ)
  | sigqueue (pid sig : ℤ) (value : BitVec 32)
  | sighold (sig : ℤ)
  | sigrelse (sig : ℤ)
  | sigprocmask (how : How) (set : Option SigSet)
  deriving DecidableEq, Repr

/-- The signal numbers given to a call are in range. -/
def SigCall.Legal : SigCall → Prop
  | .kill _ sig => IsSignal sig
  | .raise sig => IsSignal sig
  | .sigqueue _ sig _ => IsSignal sig
  | .sighold sig => IsSignal sig
  | .sigrelse sig => IsSignal sig
  | .sigprocmask _ _ => True

variable {Q : Type}

/-- A call: the value it returns, and the state it leaves. -/
def SigCall.exec (I : QueueImpl Q) (s : SigState Q) : SigCall → ℤ × SigState Q
  | .kill pid sig => Signal.kill I pid sig s
  | .raise sig => Signal.raise I sig s
  | .sigqueue pid sig value => Signal.sigqueue I pid sig value s
  | .sighold sig => Signal.sighold sig s
  | .sigrelse sig => Signal.sigrelse sig s
  | .sigprocmask how set => Signal.sigprocmask how set s

/-- `sigsuspend` without its wait: the mask is replaced and put back, and the call returns
-1 with `EINTR`. -/
def sigsuspend (mask : Option SigSet) (s : SigState Q) : ℤ × SigState Q :=
  let s' := (sigprocmask .sigSetmask mask s).2
  (-1, { (sigprocmask .sigSetmask (some s.procmask) s').2 with errno := some .EINTR })

/-! ## What a call does to queue, mask and pending bit -/

/-- The three ways in which a call acts on the signal state, apart from `errno`: a new
signal is queued and delivery requested, the mask is replaced and delivery requested, or
the mask only grows. -/
inductive Effect (I : QueueImpl Q) (s : SigState Q) : SigState Q → Prop
  | queued {q : Q} {info : SigInfo} {err : Option Errno} (hsig : IsSignal info.siSigno)
      (hq : I.enqueue info s.queue = some q) : Effect I s ⟨q, s.procmask, true, err⟩
  | remasked (mask : SigSet) (err : Option Errno) : Effect I s ⟨s.queue, mask, true, err⟩
  | masked (set : SigSet) (err : Option Errno) :
      Effect I s ⟨s.queue, s.procmask ||| set, s.pendsv, err⟩

variable {I : QueueImpl Q} {s : SigState Q}

/-- A call that only stores `errno`, or nothing. -/
theorem effect_errno (err : Option Errno) : Effect I s { s with errno := err } := by
  have h := Effect.masked (I := I) (s := s) 0#32 err
  rw [BitVec.or_zero] at h
  exact h

/-- `sigqueue_info` queues its signal, or finds no free cell. -/
theorem effect_sigqueueInfo {info : SigInfo} (hsig : IsSignal info.siSigno) :
    Effect I s (sigqueueInfo I info s).2 := by
  cases hq : I.enqueue info s.queue with
  | none =>
      rw [sigqueueInfo_of_none hq]
      exact effect_errno _
  | some q =>
      rw [sigqueueInfo_of_some hq]
      exact Effect.queued hsig hq

/-- Blocking makes the mask grow; the two other ways request delivery. -/
theorem effect_sigprocmask (how : How) (set : Option SigSet) :
    Effect I s (sigprocmask how set s).2 := by
  cases set with
  | none => exact effect_errno s.errno
  | some set =>
      cases how with
      | sigBlock => exact Effect.masked set s.errno
      | sigSetmask => exact Effect.remasked set s.errno
      | sigUnblock => exact Effect.remasked _ s.errno
      | other => exact effect_errno _

/-- `sighold` and `sigrelse` do what `sigprocmask` does, or refuse the number. -/
theorem effect_sigholdrel (how : How) (sig : ℤ) :
    Effect I s (sigholdrel how sig s).2 := by
  unfold sigholdrel
  split
  · exact effect_errno _
  · exact effect_sigprocmask how _

/-- `kill` of another process, or with 0, queues nothing. -/
theorem effect_kill {pid sig : ℤ} (hsig : IsSignal sig) : Effect I s (kill I pid sig s).2 := by
  unfold kill
  split
  · exact effect_errno _
  · rw [if_pos hsig.ne_zero]
    exact effect_sigqueueInfo hsig

/-- `sigqueue` to another process queues nothing. -/
theorem effect_sigqueue {pid sig : ℤ} {value : BitVec 32} (hsig : IsSignal sig) :
    Effect I s (sigqueue I pid sig value s).2 := by
  unfold sigqueue
  split
  · exact effect_errno _
  · rw [if_pos hsig.ne_zero]
    exact effect_sigqueueInfo hsig

/-- `signal_dequeue` touches nothing but the queue. -/
theorem signalDequeue_same (s : SigState Q) (set : SigSet) :
    (signalDequeue I set s).2.procmask = s.procmask ∧
      (signalDequeue I set s).2.pendsv = s.pendsv := by
  cases hq : I.dequeue set s.queue with
  | none =>
      rw [signalDequeue_of_none hq]
      exact ⟨rfl, rfl⟩
  | some r =>
      rw [signalDequeue_of_some hq]
      exact ⟨rfl, rfl⟩

/-! ## The numbers in the queue -/

/-- Every queued signal number is in range. -/
def QueuedLegal (q : SignalQueue) : Prop :=
  ∀ i, q.occupied i = true → IsSignal (q.items i).info.siSigno

/-- The queue at reset is empty. -/
theorem queuedLegal_zero : QueuedLegal SignalQueue.zero := by
  intro i hi
  cases hi

/-- A number in range is put into one cell, and the others stay. -/
theorem queuedLegal_enqueue {q q' : SignalQueue} {info : SigInfo} (h : QueuedLegal q)
    (hsig : IsSignal info.siSigno) (hq : q.enqueue info = some q') : QueuedLegal q' := by
  obtain ⟨i, -, rfl⟩ := q.enqueue_cases hq
  intro j hj
  rw [SignalQueue.occupied_update] at hj
  by_cases hji : j = i
  · subst hji
    simpa using hsig
  · rw [if_neg hji] at hj
    simpa [Function.update_of_ne hji] using h j hj

/-- Signals have been taken out of a queue, and the others are where they were. -/
def Fewer (q q' : SignalQueue) : Prop :=
  ∀ i, q'.occupied i = true → q.occupied i = true ∧ q'.items i = q.items i

/-- `signal_dequeue` takes signals out, and does nothing else to the queue. -/
theorem fewer_signalDequeue (s : SigState SignalQueue) (set : SigSet) :
    Fewer s.queue (signalDequeue arrayQueue set s).2.queue := by
  cases hq : s.queue.dequeue set with
  | none =>
      rw [signalDequeue_of_none (I := arrayQueue) hq]
      exact fun i hi => ⟨hi, rfl⟩
  | some r =>
      rw [signalDequeue_of_some (I := arrayQueue) hq]
      obtain ⟨j, -, -, hclear⟩ := s.queue.dequeue_cases hq
      show Fewer s.queue r.2
      rw [hclear]
      intro i hi
      unfold SignalQueue.clear at hi ⊢
      rw [SignalQueue.occupied_update] at hi
      by_cases hij : i = j
      · simp [hij] at hi
      · rw [if_neg hij] at hi
        exact ⟨hi, Function.update_of_ne hij _ _⟩

/-- Taking signals out leaves numbers in range. -/
theorem QueuedLegal.fewer {q q' : SignalQueue} (h : QueuedLegal q) (hq : Fewer q q') :
    QueuedLegal q' := by
  intro i hi
  obtain ⟨hocc, hitems⟩ := hq i hi
  rw [hitems]
  exact h i hocc

/-- `sigqueue_info` of a number in range leaves numbers in range. -/
theorem queuedLegal_sigqueueInfo {s : SigState SignalQueue} {info : SigInfo}
    (h : QueuedLegal s.queue) (hsig : IsSignal info.siSigno) :
    QueuedLegal (sigqueueInfo arrayQueue info s).2.queue := by
  cases hq : s.queue.enqueue info with
  | none =>
      rw [sigqueueInfo_of_none (I := arrayQueue) hq]
      exact h
  | some q =>
      rw [sigqueueInfo_of_some (I := arrayQueue) hq]
      exact queuedLegal_enqueue h hsig hq

/-- Growing the mask blocks more signals. -/
theorem sigismember_or_eq_zero {mask set : SigSet} {sig : ℤ}
    (h : sigismember (mask ||| set) sig = 0) : sigismember mask sig = 0 := by
  unfold sigismember at h ⊢
  have hsub : mask &&& sigmask sig = (mask &&& ((mask ||| set) &&& sigmask sig)) := by
    ext i hi
    simp only [BitVec.getElem_and, BitVec.getElem_or]
    cases mask[i] <;> simp
  rw [hsub, h]
  exact BitVec.and_zero

end Signal

end Nucleo
