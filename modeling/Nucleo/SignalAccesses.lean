/-
# The accesses of the signal library

`sigprocmask` reads `procmask`, computes, and stores it; `pend_sv_handler` reads it and dequeues
later; `siginterrupt` and `sigignore` read an action and store it later.  None of this is inside
a critical section, so an interrupt may come between any two of these accesses and call the
same functions.  Here a call is the list of its accesses.  The critical sections of
`sigqueue_info` and `signal_dequeue` are one access each, which is what they amount to
(`SignalPreempt`).

A `Machine` has the calls in progress on a stack, the topmost first, each with its local
variables and the accesses that are left.  An event is the begin of a call (of the program, of a
signal handler or of an interrupt), the entry of `pend_sv_handler`, or the next access of the
topmost call.  `run_uninterrupted` says that a call with nothing in between does what its
definition in `Signal`, `SignalCalls` or `SignalActions` says.
-/
import Nucleo.SignalActions
import Nucleo.SignalCalls

namespace Nucleo

namespace Signal

/-! ## Accesses -/

/-- What a call makes of an action. -/
inductive Change
  | set (act : Sigaction)
  | interrupt (flag : Bool)
  | ignore
  deriving DecidableEq, Repr

/-- The action that is stored, given the one that was read. -/
def Change.apply : Change → Sigaction → Sigaction
  | .set new, _ => new
  | .interrupt flag, act =>
      if flag then { act with saFlags := act.saFlags &&& ~~~saRestart }
      else { act with saFlags := act.saFlags ||| saRestart }
  | .ignore, act => { act with saHandler := sigIgn }

/-- One access, with the computation between it and the access before. -/
inductive Access
  /-- `procmask` is read: for `|=` and `&=`, for `oset`, and by `signal_dequeue_procmask`. -/
  | load
  /-- The store of `procmask |= *set`. -/
  | storeOr (set : SigSet)
  /-- The store of `procmask &= ~(*set)`. -/
  | storeAndNot (set : SigSet)
  /-- The store of `procmask = *set`. -/
  | storeValue (set : SigSet)
  /-- The store of the mask that `sigsuspend` has saved. -/
  | restore
  /-- `pendsv_interrupt_raise` behind a store. -/
  | request
  | fail (e : Errno)
  /-- The section of `sigqueue_info`. -/
  | enqueue (info : SigInfo)
  /-- The section of `signal_dequeue`, called by `signal_dequeue_procmask`. -/
  | dequeue
  /-- `signal_act` looks at the action. -/
  | act (info : SigInfo)
  /-- The endless loop of `_exit`. -/
  | exit
  /-- The section of `signal_dequeue`, called by a waiting call. -/
  | poll (set : SigSet)
  | readAction (i : ActionIndex)
  | writeAction (i : ActionIndex) (change : Change)
  deriving DecidableEq, Repr

/-- A call in progress: the mask and the action it has read, and the accesses that are left. -/
structure Frame where
  mask : SigSet
  action : Sigaction
  rest : List Access
  deriving DecidableEq, Repr

/-- A call that begins. -/
def Frame.enter (as : List Access) : Frame := ⟨0, .zero, as⟩

/-- A call on the stack; one with nothing left has returned. -/
def Frame.push (f : Frame) (fs : List Frame) : List Frame := if f.rest = [] then fs else f :: fs

/-- One round of the loop of `pend_sv_handler`. -/
def handlerLoop : List Access := [.load, .dequeue]

variable {Q : Type} (I : QueueImpl Q)

/-! ### What an access does -/

/-- What an access does to queue, mask, pending bit and `errno`; `mask` is the local variable. -/
def Access.onSig (mask : SigSet) (s : SigState Q) : Access → SigState Q
  | .storeOr set => { s with procmask := mask ||| set }
  | .storeAndNot set => { s with procmask := mask &&& ~~~set }
  | .storeValue set => { s with procmask := set }
  | .restore => { s with procmask := mask }
  | .request => pendsvInterruptRaise s
  | .fail e => { s with errno := some e }
  | .enqueue info => (sigqueueInfo I info s).2
  | .dequeue => (signalDequeue I (~~~mask) s).2
  | .poll set => (signalDequeue I set s).2
  | .load | .act _ | .exit | .readAction _ | .writeAction _ _ => s

/-- What an access does to the table; `action` is the local variable. -/
def Access.onActions (action : Sigaction) (t : SignalActions) : Access → SignalActions
  | .writeAction i change => Function.update t i (change.apply action)
  | .load | .storeOr _ | .storeAndNot _ | .storeValue _ | .restore | .request | .fail _
  | .enqueue _ | .dequeue | .act _ | .exit | .poll _ | .readAction _ => t

/-- The signal that an access has put into the queue. -/
def Access.accepted (s : SigState Q) : Access → List SigInfo
  | .enqueue info => if (sigqueueInfo I info s).1 = 0 then [info] else []
  | .load | .storeOr _ | .storeAndNot _ | .storeValue _ | .restore | .request | .fail _
  | .dequeue | .act _ | .exit | .poll _ | .readAction _ | .writeAction _ _ => []

/-- The signal that an access has taken out of the queue. -/
def Access.taken (mask : SigSet) (s : SigState Q) : Access → List SigInfo
  | .dequeue => (signalDequeue I (~~~mask) s).1.toList
  | .poll set => (signalDequeue I set s).1.toList
  | .load | .storeOr _ | .storeAndNot _ | .storeValue _ | .restore | .request | .fail _
  | .enqueue _ | .act _ | .exit | .readAction _ | .writeAction _ _ => []

/-- The signal that `pend_sv_handler` has taken, with the mask at that time. -/
def Access.actsOn (mask : SigSet) (s : SigState Q) : Access → List (SigInfo × SigSet)
  | .dequeue => (signalDequeue I (~~~mask) s).1.toList.map fun info => (info, s.procmask)
  | .load | .storeOr _ | .storeAndNot _ | .storeValue _ | .restore | .request | .fail _
  | .enqueue _ | .act _ | .exit | .poll _ | .readAction _ | .writeAction _ _ => []

/-- What `signal_act` does about a signal. -/
def Access.delivers (t : SignalActions) : Access → List (SigInfo × Delivery)
  | .act info => [(info, signalAct t info)]
  | .load | .storeOr _ | .storeAndNot _ | .storeValue _ | .restore | .request | .fail _
  | .enqueue _ | .dequeue | .exit | .poll _ | .readAction _ | .writeAction _ _ => []

/-- The change that an access makes. -/
def Access.change : Access → Option (ActionIndex × Change)
  | .writeAction i change => some (i, change)
  | .load | .storeOr _ | .storeAndNot _ | .storeValue _ | .restore | .request | .fail _
  | .enqueue _ | .dequeue | .act _ | .exit | .poll _ | .readAction _ => none

/-- The topmost call behind an access: the handler calls `signal_act` on what it has dequeued and
looks again, or returns; `_exit` does not return. -/
def Frame.after (f : Frame) (s : SigState Q) (t : SignalActions) (as : List Access) :
    Access → Frame
  | .load => { f with mask := s.procmask, rest := as }
  | .readAction i => { f with action := t i, rest := as }
  | .dequeue =>
      match (signalDequeue I (~~~f.mask) s).1 with
      | some info => { f with rest := .act info :: handlerLoop }
      | none => { f with rest := [] }
  | .act info =>
      { f with rest := if signalAct t info = .terminated then .exit :: as else as }
  | .storeOr _ | .storeAndNot _ | .storeValue _ | .restore | .request | .fail _ | .enqueue _
  | .exit | .poll _ | .writeAction _ _ => { f with rest := as }

/-! ## Calls -/

/-- `sigprocmask`. -/
def maskAccesses (how : How) : Option SigSet → List Access
  | none => []
  | some set =>
      match how with
      | .sigBlock => [.load, .storeOr set]
      | .sigSetmask => [.storeValue set, .request]
      | .sigUnblock => [.load, .storeAndNot set, .request]
      | .other _ => [.fail .EINVAL]

/-- `kill`. -/
def killAccesses (pid sig : ℤ) : List Access :=
  if pid ≠ getpid ∧ pid > 0 then [.fail .ESRCH]
  else if sig ≠ 0 then [.enqueue ⟨sig, siUser, getpid, 0⟩] else []

/-- `sigholdrel`. -/
def holdrelAccesses (how : How) (sig : ℤ) : List Access :=
  if sig ≤ 0 then [.fail .EINVAL] else maskAccesses how (some (sigmask sig))

/-- The accesses of the calls that queue a signal or change the mask. -/
def SigCall.accesses : SigCall → List Access
  | .kill pid sig => killAccesses pid sig
  | .raise sig => killAccesses getpid sig
  | .sigqueue pid sig value =>
      if pid ≠ getpid then [.fail .ESRCH]
      else if sig ≠ 0 then [.enqueue ⟨sig, siQueue, 0, value⟩] else []
  | .sighold sig => holdrelAccesses .sigBlock sig
  | .sigrelse sig => holdrelAccesses .sigUnblock sig
  | .sigprocmask how set => maskAccesses how set

/-- The calls: those of `SigCall`, `sigsuspend`, one round of a waiting call, and those that
change an action. -/
inductive Call
  | signal (c : SigCall)
  | sigsuspend (mask : Option SigSet)
  | poll (set : SigSet)
  | sigaction (sig : ℤ) (act : Option Sigaction)
  | siginterrupt (sig : ℤ) (flag : Bool)
  | sigignore (sig : ℤ)
  deriving DecidableEq, Repr

/-- `sigaction` to read an action and, behind the change, `sigaction` to store it. -/
def changeAccesses (sig : ℤ) (change : Change) : List Access :=
  match actionIndex sig with
  | none => [.fail .EINVAL, .fail .EINVAL]
  | some i => [.readAction i, .writeAction i change]

/-- The accesses of a call.  What `sigaction` stores through `oact` is read by nothing else. -/
def Call.accesses : Call → List Access
  | .signal c => c.accesses
  | .sigsuspend mask =>
      .load :: (maskAccesses .sigSetmask mask ++ [.restore, .request, .fail .EINTR])
  | .poll set => [.poll set]
  | .sigaction sig act =>
      match actionIndex sig with
      | none => [.fail .EINVAL]
      | some i => (act.map fun a => Access.writeAction i (.set a)).toList
  | .siginterrupt sig flag => changeAccesses sig (.interrupt flag)
  | .sigignore sig => changeAccesses sig .ignore

/-- The signal number that a call asks to be queued is in range. -/
def Call.Legal : Call → Prop
  | .signal c => c.Legal
  | _ => True

/-- The change that a call asks for. -/
def Call.change : Call → Option (ActionIndex × Change)
  | .sigaction sig act => (actionIndex sig).bind fun i => act.map fun a => (i, .set a)
  | .siginterrupt sig flag => (actionIndex sig).map fun i => (i, .interrupt flag)
  | .sigignore sig => (actionIndex sig).map fun i => (i, .ignore)
  | .signal _ | .sigsuspend _ | .poll _ => none

/-! ## The machine -/

/-- The data of `signal.c`, the calls in progress, and what has happened so far: the signals
accepted into the queue, those taken out of it, those among them that `pend_sv_handler` took,
each with the mask at that time, what was done about them, and the changes of actions. -/
structure Machine (Q : Type) where
  sig : SigState Q
  actions : SignalActions
  frames : List Frame
  accepted : List SigInfo
  consumed : List SigInfo
  acted : List (SigInfo × SigSet)
  deliveries : List (SigInfo × Delivery)
  changes : List (ActionIndex × Change)

/-- The machine at reset. -/
def Machine.zero : Machine Q := ⟨SigState.zero I, fun _ => .zero, [], [], [], [], [], []⟩

/-- `pend_sv_handler` has been entered and has not returned. -/
def Frame.running (f : Frame) : Bool := decide (.dequeue ∈ f.rest)

/-- `pend_sv_handler` is in progress. -/
def Machine.running (m : Machine Q) : Bool := m.frames.any Frame.running

/-- A call in progress has stored the mask and is about to request delivery. -/
def Machine.requesting (m : Machine Q) : Bool :=
  m.frames.any fun f => f.rest.head? = some .request

inductive Event
  | call (c : Call)
  | pendSvEnter
  | step
  deriving DecidableEq, Repr

/-- The signal numbers of an event are in range. -/
def Event.Legal : Event → Prop
  | .call c => c.Legal
  | _ => True

/-- The access `a` of the topmost call `f`; `as` and `fs` are what is left of it and below it. -/
def Machine.access (m : Machine Q) (f : Frame) (a : Access) (as : List Access)
    (fs : List Frame) : Machine Q where
  sig := a.onSig I f.mask m.sig
  actions := a.onActions f.action m.actions
  frames := (f.after I m.sig m.actions as a).push fs
  accepted := m.accepted ++ a.accepted I m.sig
  consumed := m.consumed ++ a.taken I f.mask m.sig
  acted := m.acted ++ a.actsOn I f.mask m.sig
  deliveries := m.deliveries ++ a.delivers m.actions
  changes := m.changes ++ a.change.toList

/-- The next access of the topmost call. -/
def Machine.stepTop (m : Machine Q) : List Frame → Option (Machine Q)
  | [] => none
  | f :: fs =>
      match f.rest with
      | [] => none
      | a :: as => if a = .exit then none else some (m.access I f a as fs)

/-- One event; `none` when it cannot happen in this state.  The entry of the handler clears the
pending bit, as the hardware does. -/
def Machine.step (m : Machine Q) : Event → Option (Machine Q)
  | .call c => some { m with frames := (Frame.enter c.accesses).push m.frames }
  | .pendSvEnter =>
      if m.sig.pendsv && !m.running then
        some { m with
          sig := { m.sig with pendsv := false }
          frames := Frame.enter handlerLoop :: m.frames }
      else none
  | .step => m.stepTop I m.frames

/-- A sequence of events from a state. -/
def Machine.run : Machine Q → List Event → Option (Machine Q)
  | m, [] => some m
  | m, e :: es => (m.step I e).bind fun m' => m'.run es

variable {I}

theorem Machine.run_append (m : Machine Q) (es es' : List Event) :
    m.run I (es ++ es') = (m.run I es).bind fun m' => m'.run I es' := by
  induction es generalizing m with
  | nil => rfl
  | cons e es ih => simp only [List.cons_append, Machine.run, Option.bind_assoc, ih]

/-- Two runs, one behind the other. -/
theorem Machine.run_trans {m m₁ m₂ : Machine Q} {es es' : List Event}
    (h₁ : m.run I es = some m₁) (h₂ : m₁.run I es' = some m₂) :
    m.run I (es ++ es') = some m₂ := by
  rw [Machine.run_append, h₁]
  exact h₂

/-! ## What an event can do -/

theorem Frame.mem_push {f g : Frame} {fs : List Frame} :
    g ∈ f.push fs ↔ (g = f ∧ f.rest ≠ []) ∨ g ∈ fs := by
  unfold Frame.push
  split_ifs with h
  · simp [h]
  · simp [h]

/-- The three kinds of events. -/
inductive StepCases (I : QueueImpl Q) (m : Machine Q) : Event → Machine Q → Prop
  | call (c : Call) :
      StepCases I m (.call c) { m with frames := (Frame.enter c.accesses).push m.frames }
  | enter (hpendsv : m.sig.pendsv = true) (hrunning : m.running = false) :
      StepCases I m .pendSvEnter { m with
        sig := { m.sig with pendsv := false }
        frames := Frame.enter handlerLoop :: m.frames }
  | access {f : Frame} {a : Access} {as : List Access} {fs : List Frame}
      (hframes : m.frames = f :: fs) (hrest : f.rest = a :: as) (hexit : a ≠ .exit) :
      StepCases I m .step (m.access I f a as fs)

theorem step_cases {m m' : Machine Q} {e : Event} (h : m.step I e = some m') :
    StepCases I m e m' := by
  cases e with
  | call c =>
      cases h
      exact StepCases.call c
  | pendSvEnter =>
      simp only [Machine.step] at h
      split_ifs at h with hcond
      cases h
      rw [Bool.and_eq_true, Bool.not_eq_true'] at hcond
      exact StepCases.enter hcond.1 hcond.2
  | step =>
      simp only [Machine.step] at h
      rcases hframes : m.frames with _ | ⟨f, fs⟩
      · rw [hframes] at h
        cases h
      · rw [hframes] at h
        rcases hrest : f.rest with _ | ⟨a, as⟩
        · simp [Machine.stepTop, hrest] at h
        · simp only [Machine.stepTop, hrest] at h
          split_ifs at h with hexit
          cases h
          exact StepCases.access hframes hrest hexit

/-- The next access of the topmost call. -/
theorem step_access {m : Machine Q} {f : Frame} {a : Access} {as : List Access} {fs : List Frame}
    (hframes : m.frames = f :: fs) (hrest : f.rest = a :: as) (hexit : a ≠ .exit) :
    m.step I .step = some (m.access I f a as fs) := by
  simp only [Machine.step, hframes, Machine.stepTop, hrest]
  exact if_neg hexit

/-! ## A call with nothing in between -/

/-- An access that only `pend_sv_handler` makes. -/
def Access.ofHandler : Access → Bool
  | .dequeue | .act _ | .exit => true
  | .load | .storeOr _ | .storeAndNot _ | .storeValue _ | .restore | .request | .fail _
  | .enqueue _ | .poll _ | .readAction _ | .writeAction _ _ => false

/-- What the accesses of a call can be: those of a change of the mask, of one signal that is
queued or looked for, or of one change of an action. -/
inductive AccessCases (c : Call) : List Access → Prop
  | failed (es : List Errno) (hchange : c.change = none) : AccessCases c (es.map .fail)
  | queued (info : SigInfo) (hlegal : c.Legal → IsSignal info.siSigno) (hchange : c.change = none) :
      AccessCases c [.enqueue info]
  | blocked (set : SigSet) (hchange : c.change = none) : AccessCases c [.load, .storeOr set]
  | replaced (set : SigSet) (hchange : c.change = none) :
      AccessCases c [.storeValue set, .request]
  | unblocked (set : SigSet) (hchange : c.change = none) :
      AccessCases c [.load, .storeAndNot set, .request]
  | unsuspended (hchange : c.change = none) :
      AccessCases c [.load, .restore, .request, .fail .EINTR]
  | suspended (set : SigSet) (hchange : c.change = none) :
      AccessCases c [.load, .storeValue set, .request, .restore, .request, .fail .EINTR]
  | polled (set : SigSet) (hchange : c.change = none) : AccessCases c [.poll set]
  | stored (i : ActionIndex) (change : Change) (hchange : c.change = some (i, change)) :
      AccessCases c [.writeAction i change]
  | changed (i : ActionIndex) (change : Change) (hchange : c.change = some (i, change)) :
      AccessCases c [.readAction i, .writeAction i change]

theorem maskAccesses_cases {c : Call} (hchange : c.change = none) (how : How)
    (set : Option SigSet) : AccessCases c (maskAccesses how set) := by
  cases set with
  | none => exact .failed [] hchange
  | some set =>
      cases how with
      | sigBlock => exact .blocked set hchange
      | sigSetmask => exact .replaced set hchange
      | sigUnblock => exact .unblocked set hchange
      | other => exact .failed [.EINVAL] hchange

theorem killAccesses_cases {c : Call} {sig : ℤ} (hlegal : c.Legal → IsSignal sig)
    (hchange : c.change = none) (pid : ℤ) : AccessCases c (killAccesses pid sig) := by
  unfold killAccesses
  split_ifs
  · exact .failed [.ESRCH] hchange
  · exact .queued _ hlegal hchange
  · exact .failed [] hchange

theorem holdrelAccesses_cases {c : Call} (hchange : c.change = none) (how : How) (sig : ℤ) :
    AccessCases c (holdrelAccesses how sig) := by
  unfold holdrelAccesses
  split_ifs
  · exact .failed [.EINVAL] hchange
  · exact maskAccesses_cases hchange how _

theorem changeAccesses_cases {c : Call} {sig : ℤ} {change : Change}
    (hchange : c.change = (actionIndex sig).map fun i => (i, change)) :
    AccessCases c (changeAccesses sig change) := by
  unfold changeAccesses
  cases hi : actionIndex sig with
  | none => exact .failed [.EINVAL, .EINVAL] (by rw [hchange, hi]; rfl)
  | some i => exact .changed i change (by rw [hchange, hi]; rfl)

/-- **What a call can do**, access by access. -/
theorem accesses_cases (c : Call) : AccessCases c c.accesses := by
  cases c with
  | signal c =>
      cases c with
      | kill pid sig => exact killAccesses_cases id rfl pid
      | raise sig => exact killAccesses_cases id rfl getpid
      | sigqueue pid sig value =>
          unfold Call.accesses SigCall.accesses
          dsimp only
          split_ifs
          · exact .failed [.ESRCH] rfl
          · exact .queued _ id rfl
          · exact .failed [] rfl
      | sighold sig => exact holdrelAccesses_cases rfl .sigBlock sig
      | sigrelse sig => exact holdrelAccesses_cases rfl .sigUnblock sig
      | sigprocmask how set => exact maskAccesses_cases rfl how set
  | sigsuspend mask =>
      cases mask with
      | none => exact .unsuspended rfl
      | some set => exact .suspended set rfl
  | poll set => exact .polled set rfl
  | sigaction sig act =>
      unfold Call.accesses
      dsimp only
      cases hi : actionIndex sig with
      | none => exact .failed [.EINVAL] (by simp [Call.change, hi])
      | some i =>
          cases act with
          | none => exact .failed [] (by simp [Call.change])
          | some act => exact .stored i (.set act) (by simp [Call.change, hi])
  | siginterrupt sig flag => exact changeAccesses_cases rfl
  | sigignore sig => exact changeAccesses_cases rfl

/-- The calls make no access of the handler. -/
theorem accesses_plain (c : Call) : ∀ a ∈ c.accesses, a.ofHandler = false := by
  have hcases := accesses_cases c
  generalize c.accesses = as at hcases ⊢
  cases hcases <;> simp [Access.ofHandler]

/-- The accesses of a call, one after the other, on the data of `signal.c`. -/
def execAccesses (I : QueueImpl Q) (mask : SigSet) (action : Sigaction) (s : SigState Q)
    (t : SignalActions) : List Access → SigState Q × SignalActions
  | [] => (s, t)
  | a :: as =>
      let f := Frame.after I ⟨mask, action, []⟩ s t [] a
      execAccesses I f.mask f.action (a.onSig I mask s) (a.onActions action t) as

/-- The data behind a call that changes an action: a failed one only stores `errno`. -/
def storeActions (s : SigState Q) (t : SignalActions) :
    Except Errno SignalActions → SigState Q × SignalActions
  | .ok t' => (s, t')
  | .error e => ({ s with errno := some e }, t)

/-- A call as its definition says, on the data of `signal.c`. -/
def Call.exec (I : QueueImpl Q) (s : SigState Q) (t : SignalActions) :
    Call → SigState Q × SignalActions
  | .signal c => ((c.exec I s).2, t)
  | .sigsuspend mask => ((Signal.sigsuspend mask s).2, t)
  | .poll set => ((signalDequeue I set s).2, t)
  | .sigaction sig act => storeActions s t ((Signal.sigaction sig act t).map Prod.snd)
  | .siginterrupt sig flag => storeActions s t (Signal.siginterrupt sig flag .zero t)
  | .sigignore sig => storeActions s t (Signal.sigignore sig .zero t)

/-! ### It is the call -/

/-- The accesses of a call make up the call. -/
theorem exec_eq_execAccesses (c : Call) (s : SigState Q) (t : SignalActions) :
    c.exec I s t = execAccesses I 0 .zero s t c.accesses := by
  -- the parts that several calls share
  have hmask : ∀ how set, ((Signal.sigprocmask how set s).2, t)
      = execAccesses I 0 .zero s t (maskAccesses how set) := by
    rintro how (_ | set)
    · rfl
    · cases how <;> rfl
  have hkill : ∀ pid sig, ((Signal.kill I pid sig s).2, t)
      = execAccesses I 0 .zero s t (killAccesses pid sig) := by
    intro pid sig
    unfold Signal.kill killAccesses
    split_ifs <;> rfl
  have hholdrel : ∀ how sig, ((Signal.sigholdrel how sig s).2, t)
      = execAccesses I 0 .zero s t (holdrelAccesses how sig) := by
    intro how sig
    unfold Signal.sigholdrel holdrelAccesses
    split_ifs
    · rfl
    · exact hmask how _
  cases c with
  | signal c =>
      cases c with
      | kill pid sig => exact hkill pid sig
      | raise sig => exact hkill getpid sig
      | sigqueue pid sig value =>
          show ((Signal.sigqueue I pid sig value s).2, t) = _
          unfold Signal.sigqueue Call.accesses SigCall.accesses
          dsimp only
          split_ifs <;> rfl
      | sighold sig => exact hholdrel .sigBlock sig
      | sigrelse sig => exact hholdrel .sigUnblock sig
      | sigprocmask how set => exact hmask how set
  | sigsuspend mask => cases mask <;> rfl
  | poll set => rfl
  | sigaction sig act =>
      unfold Call.exec Call.accesses Signal.sigaction
      dsimp only
      cases actionIndex sig with
      | none => rfl
      | some i => cases act <;> rfl
  | siginterrupt sig flag =>
      unfold Call.exec Call.accesses changeAccesses Signal.siginterrupt actionOrJunk Signal.sigaction
      dsimp only
      cases actionIndex sig <;> rfl
  | sigignore sig =>
      unfold Call.exec Call.accesses changeAccesses Signal.sigignore actionOrJunk Signal.sigaction
      dsimp only
      cases actionIndex sig <;> rfl

/-- The accesses of a call on top of the stack, with nothing in between: by induction on what is
left of it. -/
theorem run_accesses {m : Machine Q} {f : Frame} {fs : List Frame}
    (hplain : ∀ a ∈ f.rest, a.ofHandler = false) (hframes : m.frames = f.push fs) :
    ∃ m', m.run I (List.replicate f.rest.length .step) = some m' ∧ m'.frames = fs ∧
      (m'.sig, m'.actions) = execAccesses I f.mask f.action m.sig m.actions f.rest ∧
      m'.acted = m.acted ∧ m'.deliveries = m.deliveries := by
  obtain ⟨mask, action, rest⟩ := f
  dsimp only at *
  induction rest generalizing m mask action with
  | nil => exact ⟨m, rfl, hframes, rfl, rfl, rfl⟩
  | cons a as ih =>
      have ha := hplain a List.mem_cons_self
      have hexit : a ≠ .exit := by
        rintro rfl
        cases ha
      have hstep := step_access (I := I) (m := m) hframes rfl hexit
      -- without the accesses of the handler, the rest of the call is what was behind this one
      obtain ⟨mask', action', hafter⟩ : ∃ mask' action',
          Frame.after I ⟨mask, action, a :: as⟩ m.sig m.actions as a = ⟨mask', action', as⟩ ∧
          Frame.after I ⟨mask, action, []⟩ m.sig m.actions [] a = ⟨mask', action', []⟩ := by
        cases a with
        | dequeue | act | exit => cases ha
        | load | readAction | storeOr | storeAndNot | storeValue | restore | request | fail
        | enqueue | poll | writeAction => exact ⟨_, _, rfl, rfl⟩
      obtain ⟨m', hrun, hfs, hdata, hacted, hdel⟩ := ih mask' action'
        (fun b hb => hplain b (List.mem_cons_of_mem _ hb))
        (m := m.access I ⟨mask, action, a :: as⟩ a as fs)
        (congrArg (Frame.push · fs) hafter.1)
      refine ⟨m', ?_, hfs, ?_, ?_, ?_⟩
      · rw [List.length_cons, List.replicate_succ, Machine.run, hstep]
        exact hrun
      · rw [hdata]
        show _ = execAccesses I _ _ _ _ (a :: as)
        rw [execAccesses, hafter.2]
        rfl
      · rw [hacted]
        show m.acted ++ a.actsOn I mask m.sig = _
        cases a with
        | dequeue => cases ha
        | _ => exact List.append_nil _
      · rw [hdel]
        show m.deliveries ++ a.delivers m.actions = _
        cases a with
        | act => cases ha
        | _ => exact List.append_nil _

/-- The events of a call with nothing in between. -/
def Call.uninterrupted (c : Call) : List Event :=
  .call c :: List.replicate c.accesses.length .step

/-- **A call with nothing in between** does what its definition says. -/
theorem run_uninterrupted (c : Call) (m : Machine Q) :
    ∃ m', m.run I c.uninterrupted = some m' ∧ m'.frames = m.frames ∧
      (m'.sig, m'.actions) = c.exec I m.sig m.actions ∧
      m'.acted = m.acted ∧ m'.deliveries = m.deliveries := by
  obtain ⟨m', hrun, hfs, hdata, hlogs⟩ := run_accesses (I := I)
    (m := { m with frames := (Frame.enter c.accesses).push m.frames }) (f := Frame.enter c.accesses)
    (accesses_plain c) rfl
  exact ⟨m', hrun, hfs, hdata.trans (exec_eq_execAccesses c m.sig m.actions).symm, hlogs⟩

end Signal

end Nucleo
