/-
# Delivery of signals by the PendSV handler

`pend_sv_handler` dequeues unblocked signals one after the other and calls `signal_act` on
each.  The machine of `SignalAccesses` runs it between and inside the other calls, which may be
interrupted at every access to the mask.

`NoLostWakeup` ties mask, queue and pending bit.  It can fail in one way only: an interrupt
changes the mask between the load and the store of a `procmask |= *set`, and the store undoes
the change (`splitBlockRun`).  `ActedUnblocked` says that only unblocked signals are acted on,
which can fail when the mask is changed between `set = ~procmask` and the section of
`signal_dequeue`.  `MachineSim` relates the machine over the array to the machine over the list,
and `deliversInOrder_of_runFresh` says what a whole run of the handler delivers.
-/
import Nucleo.SignalAccesses

namespace Nucleo

namespace Signal

variable {Q : Type}

/-- `pend_sv_handler` with a given effect of `signal_act`: the signals acted on,
in order.  The first argument bounds the rounds of the loop. -/
def pendSvHandler (I : QueueImpl Q) (signalAct : SigInfo → SigState Q → SigState Q) :
    ℕ → SigState Q → Option (List SigInfo × SigState Q)
  | 0, _ => none
  | fuel + 1, s =>
      match signalDequeueProcmask I s with
      | (none, s') => some ([], s')
      | (some info, s') =>
          (pendSvHandler I signalAct fuel (signalAct info s')).map fun r => (info :: r.1, r.2)

/-! ## Accesses with a stale mask -/

/-- The store of `procmask |= *set`. -/
def Access.blocks : Access → Bool
  | .storeOr _ => true
  | .load | .storeAndNot _ | .storeValue _ | .restore | .request | .fail _ | .enqueue _ | .dequeue
  | .act _ | .exit | .poll _ | .readAction _ | .writeAction _ _ => false

/-- The section of `signal_dequeue` in the handler. -/
def Access.takes : Access → Bool
  | .dequeue => true
  | .load | .storeOr _ | .storeAndNot _ | .storeValue _ | .restore | .request | .fail _
  | .enqueue _ | .act _ | .exit | .poll _ | .readAction _ | .writeAction _ _ => false

/-- The topmost call and its next access. -/
def Machine.next (m : Machine Q) : Option (Frame × Access) :=
  m.frames.head?.bind fun f => f.rest.head?.map fun a => (f, a)

/-- The topmost call is about to store `procmask |= *set`, and the mask is no longer the one it
has loaded. -/
def Machine.splitBlock (m : Machine Q) : Bool :=
  m.next.any fun p => p.2.blocks && decide (p.1.mask ≠ m.sig.procmask)

/-- `pend_sv_handler` is about to dequeue, and the mask is no longer the one it has loaded. -/
def Machine.splitTake (m : Machine Q) : Bool :=
  m.next.any fun p => p.2.takes && decide (p.1.mask ≠ m.sig.procmask)

/-- No access of a run is made in such a state. -/
def Machine.avoids (I : QueueImpl Q) (P : Machine Q → Bool) : Machine Q → List Event → Bool
  | _, [] => true
  | m, e :: es =>
      (!(decide (e = .step) && P m)) && (m.step I e).all fun m' => Machine.avoids I P m' es

/-- The next access, when the stack is known. -/
theorem next_of_frames {m : Machine Q} {f : Frame} {a : Access} {as : List Access}
    {fs : List Frame} (hframes : m.frames = f :: fs) (hrest : f.rest = a :: as) :
    m.next = some (f, a) := by
  unfold Machine.next
  rw [hframes, List.head?_cons, Option.bind_some, hrest]
  rfl

/-- What the next access says about the stack. -/
theorem frames_of_next {m : Machine Q} {f : Frame} {a : Access} (h : m.next = some (f, a)) :
    ∃ as fs, m.frames = f :: fs ∧ f.rest = a :: as := by
  unfold Machine.next at h
  rcases hframes : m.frames with _ | ⟨g, fs⟩
  · rw [hframes] at h
    cases h
  · rw [hframes, List.head?_cons, Option.bind_some] at h
    obtain ⟨b, hb, heq⟩ := Option.map_eq_some_iff.mp h
    cases heq
    obtain ⟨as, has⟩ := List.head?_eq_some_iff.mp hb
    exact ⟨as, fs, rfl, has⟩

/-- No run comes to a state of the empty set. -/
theorem avoids_false {I : QueueImpl Q} (m : Machine Q) (es : List Event) :
    Machine.avoids I (fun _ => false) m es = true := by
  induction es generalizing m with
  | nil => rfl
  | cons e es ih =>
      rw [Machine.avoids, Bool.and_false, Bool.not_false, Bool.true_and, Option.all_eq_true]
      exact fun m' _ => ih m'

/-- The first event of a run that avoids the states, and the rest of the run. -/
theorem avoids_cons {I : QueueImpl Q} {P : Machine Q → Bool} {m m' : Machine Q} {e : Event}
    {es : List Event} (h : Machine.avoids I P m (e :: es) = true) (hstep : m.step I e = some m') :
    (e = .step → P m = false) ∧ Machine.avoids I P m' es = true := by
  rw [Machine.avoids, hstep, Option.all_some, Bool.and_eq_true, Bool.not_eq_true',
    Bool.and_eq_false_iff, decide_eq_false_iff_not] at h
  exact ⟨fun he => h.1.resolve_left fun hne => hne he, h.2⟩

/-! ## What is left of a call -/

/-- A store after which more signals may be unblocked. -/
def Access.unblocks : Access → Bool
  | .storeAndNot _ | .storeValue _ | .restore => true
  | .load | .storeOr _ | .request | .fail _ | .enqueue _ | .dequeue | .act _ | .exit | .poll _
  | .readAction _ | .writeAction _ _ => false

/-- Each such store is followed by a request for delivery. -/
def Requests : List Access → Prop
  | [] => True
  | a :: as => (a.unblocks = true → as.head? = some .request) ∧ Requests as

/-- What can be left of a call, or of `pend_sv_handler`. -/
inductive Shape : List Access → Prop
  | call {as : List Access} (hne : as ≠ []) (hplain : ∀ a ∈ as, a.ofHandler = false)
      (hrequests : Requests as) : Shape as
  | look : Shape handlerLoop
  | take : Shape [.dequeue]
  | act (info : SigInfo) : Shape (.act info :: handlerLoop)
  | exit : Shape (.exit :: handlerLoop)

/-- The calls request delivery behind each store that may unblock a signal. -/
theorem requests_accesses (c : Call) : Requests c.accesses := by
  have hcases := accesses_cases c
  generalize c.accesses = as at hcases ⊢
  cases hcases with
  | failed es hchange =>
      clear hchange
      induction es with
      | nil => trivial
      | cons e es ih => exact ⟨fun hc => Bool.noConfusion hc, ih⟩
  | _ => simp [Requests, Access.unblocks]

/-- What is left of a call behind one of its accesses; the handler is another matter. -/
theorem Shape.tail {a : Access} {as : List Access} (h : Shape (a :: as))
    (ha : a.ofHandler = false) (hne : as ≠ []) : Shape as := by
  cases h with
  | call _ hplain hrequests =>
      exact Shape.call hne (fun b hb => hplain b (List.mem_cons_of_mem _ hb)) hrequests.2
  | look => exact Shape.take
  | take | act | exit => cases ha

/-- Behind a store that may unblock a signal comes a request. -/
theorem Shape.request_of_unblocks {a : Access} {as : List Access} (h : Shape (a :: as))
    (ha : a.unblocks = true) : as.head? = some .request := by
  cases h with
  | call _ _ hrequests => exact hrequests.1 ha
  | look | take | act | exit => cases ha

/-- What the topmost call has left behind an access. -/
theorem Shape.after {I : QueueImpl Q} {f : Frame} {a : Access} {as : List Access}
    (h : Shape f.rest) (hrest : f.rest = a :: as) (s : SigState Q) (t : SignalActions)
    (hne : (f.after I s t as a).rest ≠ []) : Shape (f.after I s t as a).rest := by
  rw [hrest] at h
  cases a with
  | dequeue =>
      unfold Frame.after at hne ⊢
      dsimp only at hne ⊢
      cases hd : (signalDequeue I (~~~f.mask) s).1 with
      | none =>
          rw [hd] at hne
          exact absurd rfl hne
      | some info => exact Shape.act info
  | act info =>
      cases h with
      | call _ hplain _ => cases hplain _ List.mem_cons_self
      | act =>
          unfold Frame.after
          dsimp only
          split_ifs
          · exact Shape.exit
          · exact Shape.look
  | exit =>
      cases h with
      | call _ hplain _ => cases hplain _ List.mem_cons_self
      | exit => exact Shape.look
  | load | storeOr | storeAndNot | storeValue | restore | request | fail | enqueue | poll
  | readAction | writeAction => exact h.tail rfl hne

/-! ## No wake-up is lost -/

/-- Whenever the queue holds a signal that is not in the mask, PendSV is pending, its handler is
running, or a call that has just stored the mask is about to request it. -/
def NoLostWakeup (m : Machine SignalQueue) : Prop :=
  ∀ i, m.sig.queue.occupied i = true →
    sigismember m.sig.procmask (m.sig.queue.items i).info.siSigno = 0 →
    m.sig.pendsv = true ∨ m.running = true ∨ m.requesting = true

/-- `signal_act` was only called for signals that were not in the mask when they
were dequeued. -/
def ActedUnblocked (m : Machine SignalQueue) : Prop :=
  ∀ p ∈ m.acted, sigismember p.2 p.1.siSigno = 0

/-- A call in progress that will still see to a signal that is not in the mask: it is about to
request delivery, or it is the handler, which has not loaded the mask yet or has found that the
signal is not in it. -/
def Frame.WillLook (sig : ℤ) (f : Frame) : Prop :=
  f.rest.head? = some .request ∨ (.load ∈ f.rest ∧ .dequeue ∈ f.rest) ∨
    (f.rest = [.dequeue] ∧ sigismember f.mask sig = 0)

/-- The invariant behind `NoLostWakeup`. -/
def WakesUp (m : Machine SignalQueue) : Prop :=
  ∀ i, m.sig.queue.occupied i = true →
    sigismember m.sig.procmask (m.sig.queue.items i).info.siSigno = 0 →
    m.sig.pendsv = true ∨ ∃ f ∈ m.frames, f.WillLook (m.sig.queue.items i).info.siSigno

/-- Who always wakes up loses no wake-up. -/
theorem WakesUp.noLostWakeup {m : Machine SignalQueue} (h : WakesUp m) : NoLostWakeup m := by
  intro i hocc hmem
  rcases h i hocc hmem with hp | ⟨f, hf, hreq | ⟨-, hdeq⟩ | ⟨hrest, -⟩⟩
  · exact Or.inl hp
  · exact Or.inr (Or.inr (List.any_eq_true.mpr ⟨f, hf, decide_eq_true hreq⟩))
  · exact Or.inr (Or.inl (List.any_eq_true.mpr ⟨f, hf, decide_eq_true hdeq⟩))
  · refine Or.inr (Or.inl (List.any_eq_true.mpr ⟨f, hf, decide_eq_true ?_⟩))
    rw [hrest]
    exact List.mem_singleton_self _

/-! ### What an access does -/

/-- What an access of the topmost call means for a signal that is queued and not in the mask
behind it: it was so before, or somebody will see to it. -/
theorem access_onSig {s : SigState SignalQueue} {f : Frame} {a : Access}
    (hsplit : ∀ set, a = .storeOr set → f.mask = s.procmask) {i : Fin sigqueueMax}
    (hocc : (a.onSig arrayQueue f.mask s).queue.occupied i = true)
    (hmem : sigismember (a.onSig arrayQueue f.mask s).procmask
      ((a.onSig arrayQueue f.mask s).queue.items i).info.siSigno = 0) :
    (a.onSig arrayQueue f.mask s).pendsv = true ∨ a.unblocks = true ∨
      (s.queue.occupied i = true ∧
        (a.onSig arrayQueue f.mask s).queue.items i = s.queue.items i ∧
        sigismember s.procmask (s.queue.items i).info.siSigno = 0) := by
  cases a with
  | load | act | exit | readAction | writeAction | fail => exact .inr (.inr ⟨hocc, rfl, hmem⟩)
  | storeOr set =>
      have hmask := hsplit set rfl
      have hmem' : sigismember (s.procmask ||| set) (s.queue.items i).info.siSigno = 0 := by
        rw [← hmask]
        exact hmem
      exact .inr (.inr ⟨hocc, rfl, sigismember_or_eq_zero hmem'⟩)
  | storeAndNot | storeValue | restore => exact .inr (.inl rfl)
  | request => exact .inl rfl
  | enqueue info =>
      unfold Access.onSig at hocc hmem ⊢
      dsimp only at hocc hmem ⊢
      cases hq : s.queue.enqueue info with
      | none =>
          rw [sigqueueInfo_of_none (I := arrayQueue) hq] at hocc hmem ⊢
          exact .inr (.inr ⟨hocc, rfl, hmem⟩)
      | some q =>
          rw [sigqueueInfo_of_some (I := arrayQueue) hq]
          exact .inl rfl
  | dequeue =>
      obtain ⟨hocc', hitems⟩ := fewer_signalDequeue s (~~~f.mask) i hocc
      refine .inr (.inr ⟨hocc', hitems, ?_⟩)
      have hprocmask : (Access.onSig arrayQueue f.mask s .dequeue).procmask = s.procmask :=
        (signalDequeue_same s _).1
      rw [hprocmask] at hmem
      rw [← hitems]
      exact hmem
  | poll set =>
      obtain ⟨hocc', hitems⟩ := fewer_signalDequeue s set i hocc
      refine .inr (.inr ⟨hocc', hitems, ?_⟩)
      have hprocmask : (Access.onSig arrayQueue f.mask s (.poll set)).procmask = s.procmask :=
        (signalDequeue_same s _).1
      rw [hprocmask] at hmem
      rw [← hitems]
      exact hmem

/-- No access takes the request for delivery back. -/
theorem pendsv_onSig {I : QueueImpl Q} {s : SigState Q} {mask : SigSet} (a : Access)
    (h : s.pendsv = true) : (a.onSig I mask s).pendsv = true := by
  cases a with
  | enqueue info =>
      show (sigqueueInfo I info s).2.pendsv = true
      cases hq : I.enqueue info s.queue with
      | none =>
          rw [sigqueueInfo_of_none hq]
          exact h
      | some q =>
          rw [sigqueueInfo_of_some hq]
          rfl
  | dequeue => exact (signalDequeue_same s _).2.trans h
  | poll set => exact (signalDequeue_same s _).2.trans h
  | request => rfl
  | load | storeOr | storeAndNot | storeValue | restore | fail | act | exit | readAction
  | writeAction => exact h

/-- The topmost call, if it would have seen to a signal, still does behind its access, or has
requested delivery. -/
theorem Frame.WillLook.access {s : SigState SignalQueue} {t : SignalActions} {f : Frame}
    {a : Access} {as : List Access} (hlegal : QueuedLegal s.queue) {i : Fin sigqueueMax}
    (hocc : s.queue.occupied i = true)
    (hmem : sigismember s.procmask (s.queue.items i).info.siSigno = 0)
    (hlook : f.WillLook (s.queue.items i).info.siSigno) (hrest : f.rest = a :: as)
    (hshape : Shape f.rest) (hexit : a ≠ .exit) :
    (a.onSig arrayQueue f.mask s).pendsv = true ∨
      ((f.after arrayQueue s t as a).rest ≠ [] ∧
        (f.after arrayQueue s t as a).WillLook (s.queue.items i).info.siSigno) := by
  rcases hlook with hreq | ⟨hload, hdeq⟩ | ⟨htake, hin⟩
  · rw [hrest] at hreq
    cases hreq
    exact .inl rfl
  · right
    rw [hrest] at hload hdeq hshape
    cases hshape with
    | call _ hplain _ => cases hplain _ hdeq
    | look => exact ⟨List.cons_ne_nil _ _, .inr (.inr ⟨rfl, hmem⟩)⟩
    | take => simp at hload
    | act info =>
        unfold Frame.after
        dsimp only
        split_ifs
        · exact ⟨List.cons_ne_nil _ _, .inr (.inl ⟨by simp [handlerLoop], by simp [handlerLoop]⟩)⟩
        · exact ⟨List.cons_ne_nil _ _, .inr (.inl ⟨by simp [handlerLoop], by simp [handlerLoop]⟩)⟩
    | exit => exact absurd rfl hexit
  · rw [htake] at hrest
    cases hrest
    right
    cases hq : s.queue.dequeue (~~~f.mask) with
    | none =>
        -- the loop would end, but the signal is not in the mask that was loaded
        have hcand := s.queue.dequeue_eq_none hq i
        unfold SignalQueue.candidate at hcand
        rw [hocc, Bool.true_and, decide_eq_false_iff_not, not_not] at hcand
        exact absurd hin (((hlegal i hocc).sigismember_not f.mask).mp hcand)
    | some r =>
        have hafter : f.after arrayQueue s t [] .dequeue = { f with rest := .act r.1 :: handlerLoop } := by
          unfold Frame.after
          dsimp only
          rw [signalDequeue_of_some (I := arrayQueue) hq]
        rw [hafter]
        exact ⟨List.cons_ne_nil _ _, .inr (.inl ⟨by simp [handlerLoop], by simp [handlerLoop]⟩)⟩

/-! ### The step -/

/-- What is left of a call behind a store that may unblock a signal. -/
theorem after_of_unblocks {I : QueueImpl Q} {f : Frame} {a : Access} (as : List Access)
    (s : SigState Q) (t : SignalActions) (ha : a.unblocks = true) :
    (f.after I s t as a).rest = as := by
  cases a with
  | storeAndNot | storeValue | restore => rfl
  | load | storeOr | request | fail | enqueue | dequeue | act | exit | poll | readAction
  | writeAction => cases ha

/-- At the start nothing waits. -/
theorem wakesUp_zero : WakesUp (Machine.zero arrayQueue) := by
  intro i hi
  cases hi

/-- One access, unless it stores a stale mask. -/
theorem WakesUp.access {m : Machine SignalQueue} {f : Frame} {a : Access} {as : List Access}
    {fs : List Frame} (h : WakesUp m) (hlegal : QueuedLegal m.sig.queue)
    (hframes : m.frames = f :: fs) (hrest : f.rest = a :: as) (hexit : a ≠ .exit)
    (hshape : Shape f.rest) (hsplit : m.splitBlock = false) :
    WakesUp (m.access arrayQueue f a as fs) := by
  have hsplit' : ∀ set, a = .storeOr set → f.mask = m.sig.procmask := by
    rintro set rfl
    unfold Machine.splitBlock at hsplit
    rw [next_of_frames hframes hrest] at hsplit
    simpa [Access.blocks] using hsplit
  intro i hocc hmem
  rcases access_onSig hsplit' hocc hmem with hp | hunblocks | ⟨hocc', hitems, hmem'⟩
  · exact .inl hp
  · -- the call itself is about to request delivery
    rw [hrest] at hshape
    have hhead := hshape.request_of_unblocks hunblocks
    have hafter := after_of_unblocks (I := arrayQueue) (f := f) as m.sig m.actions hunblocks
    refine .inr ⟨_, Frame.mem_push.mpr (.inl ⟨rfl, ?_⟩), .inl (by rw [hafter]; exact hhead)⟩
    rw [hafter]
    rintro rfl
    cases hhead
  · show _ ∨ ∃ g ∈ (f.after arrayQueue m.sig m.actions as a).push fs,
      g.WillLook ((a.onSig arrayQueue f.mask m.sig).queue.items i).info.siSigno
    rw [hitems]
    rcases h i hocc' hmem' with hp | ⟨g, hg, hlook⟩
    · exact .inl (pendsv_onSig a hp)
    · rw [hframes] at hg
      rcases List.mem_cons.mp hg with rfl | hg
      · rcases hlook.access (t := m.actions) hlegal hocc' hmem' hrest hshape hexit with hp | ⟨hne, hl⟩
        · exact .inl hp
        · exact .inr ⟨_, Frame.mem_push.mpr (.inl ⟨rfl, hne⟩), hl⟩
      · exact .inr ⟨g, Frame.mem_push.mpr (.inr hg), hlook⟩

/-- A call that begins, or the handler that is entered, keeps the invariant. -/
theorem WakesUp.step {m m' : Machine SignalQueue} {e : Event} (h : WakesUp m)
    (hlegal : QueuedLegal m.sig.queue) (hshape : ∀ f ∈ m.frames, Shape f.rest)
    (hsplit : e = .step → m.splitBlock = false) (hstep : m.step arrayQueue e = some m') :
    WakesUp m' := by
  cases step_cases hstep with
  | call c =>
      intro i hocc hmem
      rcases h i hocc hmem with hp | ⟨f, hf, hlook⟩
      · exact .inl hp
      · exact .inr ⟨f, Frame.mem_push.mpr (.inr hf), hlook⟩
  | enter =>
      intro i hocc hmem
      exact .inr ⟨_, List.mem_cons_self, .inr (.inl ⟨by simp [Frame.enter, handlerLoop],
        by simp [Frame.enter, handlerLoop]⟩)⟩
  | @access f a as fs hframes hrest hexit =>
      exact h.access hlegal hframes hrest hexit (hshape f (by rw [hframes]; exact List.mem_cons_self))
        (hsplit rfl)

/-! ## The invariant of a run -/

/-- The numbers of an access are in range. -/
def Access.Legal : Access → Prop
  | .enqueue info | .act info => IsSignal info.siSigno
  | .load | .storeOr _ | .storeAndNot _ | .storeValue _ | .restore | .request | .fail _
  | .dequeue | .exit | .poll _ | .readAction _ | .writeAction _ _ => True

/-- Queued numbers are in range, also those that a call is about to queue or the handler has taken,
and what is left of the calls in progress is what can be. -/
structure MachineInv (m : Machine SignalQueue) : Prop where
  legal : QueuedLegal m.sig.queue
  accesses : ∀ f ∈ m.frames, ∀ a ∈ f.rest, a.Legal
  shape : ∀ f ∈ m.frames, Shape f.rest

/-- At the start the invariant holds. -/
theorem machineInv_zero : MachineInv (Machine.zero arrayQueue) :=
  ⟨queuedLegal_zero, fun _ hf => absurd hf List.not_mem_nil, fun _ hf => absurd hf List.not_mem_nil⟩

/-! ### Numbers that are queued -/

/-- A call with numbers in range queues numbers in range. -/
theorem accesses_legal {c : Call} (hc : c.Legal) : ∀ a ∈ c.accesses, a.Legal := by
  have hcases := accesses_cases c
  generalize c.accesses = as at hcases ⊢
  cases hcases with
  | queued info hlegal =>
      intro a ha
      rw [List.mem_singleton.mp ha]
      exact hlegal hc
  | _ => simp [Access.Legal]

/-- What is left of a call behind an access is from before, or the handler's own. -/
theorem mem_after {I : QueueImpl Q} {f : Frame} {a b : Access} {as : List Access} {s : SigState Q}
    {t : SignalActions} (hb : b ∈ (f.after I s t as a).rest) :
    b ∈ as ∨ b ∈ handlerLoop ∨ b = .exit ∨
      ∃ info, b = .act info ∧ (signalDequeue I (~~~f.mask) s).1 = some info := by
  cases a with
  | dequeue =>
      unfold Frame.after at hb
      dsimp only at hb
      cases hd : (signalDequeue I (~~~f.mask) s).1 with
      | none => simp [hd] at hb
      | some info =>
          rw [hd] at hb
          rcases List.mem_cons.mp hb with rfl | hb
          · exact .inr (.inr (.inr ⟨info, rfl, rfl⟩))
          · exact .inr (.inl hb)
  | act info =>
      unfold Frame.after at hb
      dsimp only at hb
      split_ifs at hb
      · rcases List.mem_cons.mp hb with rfl | hb
        · exact .inr (.inr (.inl rfl))
        · exact .inl hb
      · exact .inl hb
  | load | storeOr | storeAndNot | storeValue | restore | request | fail | enqueue | exit | poll
  | readAction | writeAction => exact .inl hb

/-- An access keeps the queued numbers in range. -/
theorem queuedLegal_onSig {s : SigState SignalQueue} {mask : SigSet} {a : Access}
    (h : QueuedLegal s.queue) (ha : a.Legal) :
    QueuedLegal (a.onSig arrayQueue mask s).queue := by
  cases a with
  | enqueue info => exact queuedLegal_sigqueueInfo h ha
  | dequeue => exact h.fewer (fewer_signalDequeue s _)
  | poll set => exact h.fewer (fewer_signalDequeue s set)
  | load | storeOr | storeAndNot | storeValue | restore | request | fail | act | exit | readAction
  | writeAction => exact h

/-- A signal that is taken under a mask is not in it. -/
theorem sigismember_of_signalDequeue {s : SigState SignalQueue} (h : QueuedLegal s.queue)
    {mask : SigSet} {info : SigInfo}
    (hd : (signalDequeue arrayQueue (~~~mask) s).1 = some info) :
    IsSignal info.siSigno ∧ sigismember mask info.siSigno = 0 := by
  cases hq : s.queue.dequeue (~~~mask) with
  | none =>
      rw [signalDequeue_of_none (I := arrayQueue) hq] at hd
      cases hd
  | some r =>
      rw [signalDequeue_of_some (I := arrayQueue) hq] at hd
      cases hd
      obtain ⟨i, hcand, hinfo, -⟩ := s.queue.dequeue_cases hq
      obtain ⟨hocc, hin⟩ := Bool.and_eq_true_iff.mp hcand
      have hsig := h i hocc
      rw [← hinfo] at hsig hin
      refine ⟨hsig, ?_⟩
      by_contra hne
      rw [decide_eq_true_eq] at hin
      exact hin ((hsig.sigismember_not mask).mpr hne)

/-! ### Steps and runs -/

/-- One event keeps the invariant. -/
theorem MachineInv.step {m m' : Machine SignalQueue} {e : Event} (h : MachineInv m)
    (he : e.Legal) (hstep : m.step arrayQueue e = some m') : MachineInv m' := by
  cases step_cases hstep with
  | call c =>
      refine ⟨h.legal, fun f hf => ?_, fun f hf => ?_⟩
      · rcases Frame.mem_push.mp hf with ⟨rfl, -⟩ | hf
        · exact accesses_legal he
        · exact h.accesses f hf
      · rcases Frame.mem_push.mp hf with ⟨rfl, hne⟩ | hf
        · exact Shape.call hne (accesses_plain c) (requests_accesses c)
        · exact h.shape f hf
  | enter =>
      refine ⟨h.legal, fun f hf => ?_, fun f hf => ?_⟩
      · rcases List.mem_cons.mp hf with rfl | hf
        · simp [Frame.enter, handlerLoop, Access.Legal]
        · exact h.accesses f hf
      · rcases List.mem_cons.mp hf with rfl | hf
        · exact Shape.look
        · exact h.shape f hf
  | @access f a as fs hframes hrest hexit =>
      -- the call on top makes the access, and those below are as they were
      have htop : f ∈ m.frames := by
        rw [hframes]
        exact List.mem_cons_self
      have hbelow : ∀ g ∈ fs, g ∈ m.frames := by
        rw [hframes]
        exact fun g hg => List.mem_cons_of_mem _ hg
      have hlegal := h.accesses f htop
      rw [hrest] at hlegal
      refine ⟨queuedLegal_onSig h.legal (hlegal a List.mem_cons_self), fun g hg => ?_,
        fun g hg => ?_⟩
      · rcases Frame.mem_push.mp hg with ⟨rfl, -⟩ | hg
        · intro b hb
          rcases mem_after hb with hb | hb | rfl | ⟨info, rfl, hinfo⟩
          · exact hlegal b (List.mem_cons_of_mem _ hb)
          · rcases List.mem_pair.mp hb with rfl | rfl <;> trivial
          · trivial
          · exact (sigismember_of_signalDequeue h.legal hinfo).1
        · exact h.accesses g (hbelow g hg)
      · rcases Frame.mem_push.mp hg with ⟨rfl, hne⟩ | hg
        · exact (h.shape f htop).after hrest _ _ hne
        · exact h.shape g (hbelow g hg)

/-- `signal_act` is called for an unblocked signal, unless the mask that was loaded is stale. -/
theorem ActedUnblocked.step {m m' : Machine SignalQueue} {e : Event} (h : ActedUnblocked m)
    (hlegal : QueuedLegal m.sig.queue) (hsplit : e = .step → m.splitTake = false)
    (hstep : m.step arrayQueue e = some m') : ActedUnblocked m' := by
  cases step_cases hstep with
  | call | enter => exact h
  | @access f a as fs hframes hrest hexit =>
      rintro ⟨info, mask⟩ hp
      rcases List.mem_append.mp hp with hp | hp
      · exact h _ hp
      · cases a with
        | dequeue =>
            have hmask : f.mask = m.sig.procmask := by
              have hfalse := hsplit rfl
              unfold Machine.splitTake at hfalse
              rw [next_of_frames hframes hrest] at hfalse
              simpa [Access.takes] using hfalse
            obtain ⟨info', hinfo, heq⟩ := List.mem_map.mp hp
            cases heq
            rw [Option.mem_toList] at hinfo
            rw [← hmask]
            exact (sigismember_of_signalDequeue hlegal hinfo).2
        | load | storeOr | storeAndNot | storeValue | restore | request | fail | enqueue | act
        | exit | poll | readAction | writeAction => exact absurd hp List.not_mem_nil

/-- Every run keeps the invariant. -/
theorem MachineInv.run {m m' : Machine SignalQueue} {es : List Event} (h : MachineInv m)
    (hes : ∀ e ∈ es, e.Legal) (hrun : m.run arrayQueue es = some m') : MachineInv m' := by
  induction es generalizing m with
  | nil =>
      cases hrun
      exact h
  | cons e es ih =>
      obtain ⟨m₁, hstep, hrest⟩ := Option.bind_eq_some_iff.mp hrun
      exact ih (h.step (hes e List.mem_cons_self) hstep)
        (fun e' he' => hes e' (List.mem_cons_of_mem _ he')) hrest

/-- What one event keeps outside the states of `P`, a run that avoids them keeps. -/
theorem MachineInv.run_avoids {K : Machine SignalQueue → Prop} {P : Machine SignalQueue → Bool}
    (hkeep : ∀ m m' e, MachineInv m → K m → (e = .step → P m = false) →
      m.step arrayQueue e = some m' → K m')
    {m m' : Machine SignalQueue} {es : List Event} (h : MachineInv m) (hk : K m)
    (hes : ∀ e ∈ es, e.Legal) (havoid : Machine.avoids arrayQueue P m es = true)
    (hrun : m.run arrayQueue es = some m') : K m' := by
  induction es generalizing m with
  | nil =>
      cases hrun
      exact hk
  | cons e es ih =>
      obtain ⟨m₁, hstep, hrest⟩ := Option.bind_eq_some_iff.mp hrun
      obtain ⟨hfirst, hlater⟩ := avoids_cons havoid hstep
      exact ih (h.step (hes e List.mem_cons_self) hstep) (hkeep m m₁ e h hk hfirst hstep)
        (fun e' he' => hes e' (List.mem_cons_of_mem _ he')) hlater hrest

/-- It holds in every run that avoids the torn block. -/
theorem wakesUp_run {m : Machine SignalQueue} {es : List Event} (hes : ∀ e ∈ es, e.Legal)
    (havoid : Machine.avoids arrayQueue Machine.splitBlock (Machine.zero arrayQueue) es = true)
    (hrun : (Machine.zero arrayQueue).run arrayQueue es = some m) : WakesUp m :=
  machineInv_zero.run_avoids (fun _ _ _ hinv hk hsplit hstep =>
    WakesUp.step hk hinv.legal hinv.shape hsplit hstep) wakesUp_zero hes havoid hrun

theorem actedUnblocked_run {m : Machine SignalQueue} {es : List Event} (hes : ∀ e ∈ es, e.Legal)
    (havoid : Machine.avoids arrayQueue Machine.splitTake (Machine.zero arrayQueue) es = true)
    (hrun : (Machine.zero arrayQueue).run arrayQueue es = some m) : ActedUnblocked m :=
  machineInv_zero.run_avoids (fun _ _ _ hinv hk hsplit hstep =>
    ActedUnblocked.step hk hinv.legal hsplit hstep) (fun _ hp => absurd hp List.not_mem_nil) hes
    havoid hrun

/-! ## What a run of the handler delivers -/

/-- The signal is not in the mask. -/
def unblocked (mask : SigSet) (info : SigInfo) : Bool :=
  decide (sigismember mask info.siSigno = 0)

/-- The handlers neither enqueue a signal nor change the mask. -/
def Quiet (signalAct : SigInfo → SigState SignalQueue → SigState SignalQueue) : Prop :=
  ∀ info s, (signalAct info s).queue = s.queue ∧ (signalAct info s).procmask = s.procmask

variable {signalAct : SigInfo → SigState SignalQueue → SigState SignalQueue}

/-- The loop on an array that represents a fresh list: by induction on the rounds,
each round takes the head of what the mask lets through. -/
theorem pendSvHandler_filter (hquiet : Quiet signalAct) {fuel : ℕ}
    {s s' : SigState SignalQueue} {a : StampedQueue SigInfo} {log : List SigInfo}
    (hr : s.queue.Represents a) (hfresh : a.Fresh (2 ^ 31))
    (h : pendSvHandler arrayQueue signalAct fuel s = some (log, s')) :
    log = a.contents.filter (inSet (~~~s.procmask)) ∧
      ∃ a', s'.queue.Represents a' ∧
        a'.contents
          = a.contents.filter fun info => !inSet (~~~s.procmask) info := by
  induction fuel generalizing s a log with
  | zero => cases h
  | succ fuel ih =>
      unfold pendSvHandler signalDequeueProcmask at h
      rcases SignalQueue.dequeue_represents hr hfresh (~~~s.procmask) with
        ⟨hq, ha⟩ | ⟨info, q', a', hq, ha, hr'⟩
      -- nothing that is queued is let through: the loop ends
      · have hnone : ∀ x ∈ a.contents, inSet (~~~s.procmask) x = false := by
          intro x hx
          obtain ⟨e, he, rfl⟩ := List.mem_map.mp hx
          exact StampedQueue.pop_eq_none_iff.mp ha e he
        rw [signalDequeue_of_none (I := arrayQueue) hq] at h
        cases h
        refine ⟨?_, a, hr, ?_⟩
        · symm
          rw [List.filter_eq_nil_iff]
          intro x hx
          simp [hnone x hx]
        · symm
          rw [List.filter_eq_self]
          intro x hx
          simp [hnone x hx]
      · rw [signalDequeue_of_some (I := arrayQueue) hq] at h
        obtain ⟨r, hrun, heq⟩ := Option.map_eq_some_iff.mp h
        cases heq
        obtain ⟨hkq, hkm⟩ := hquiet info { s with queue := q' }
        obtain ⟨hlog, a'', hr'', hrest⟩ := ih (by rw [hkq]; exact hr') (hfresh.pop ha) hrun
        obtain ⟨hhead, htail⟩ := StampedQueue.filter_eq_of_pop ha
        rw [hkm] at hlog hrest
        refine ⟨?_, a'', hr'', ?_⟩
        · rw [hlog]
          exact hhead.symm
        · rw [hrest]
          exact htail.symm

/-- The loop ends: one round for each queued signal and one to find none. -/
theorem pendSvHandler_completes (hquiet : Quiet signalAct) {fuel : ℕ}
    {s : SigState SignalQueue} {a : StampedQueue SigInfo}
    (hr : s.queue.Represents a) (hfresh : a.Fresh (2 ^ 31)) (hfuel : a.entries.length < fuel) :
    ∃ log s', pendSvHandler arrayQueue signalAct fuel s = some (log, s') := by
  induction fuel generalizing s a with
  | zero => omega
  | succ fuel ih =>
      unfold pendSvHandler signalDequeueProcmask
      rcases SignalQueue.dequeue_represents hr hfresh (~~~s.procmask) with
        ⟨hq, ha⟩ | ⟨info, q', a', hq, ha, hr'⟩
      · rw [signalDequeue_of_none (I := arrayQueue) hq]
        exact ⟨_, _, rfl⟩
      · rw [signalDequeue_of_some (I := arrayQueue) hq]
        obtain ⟨hkq, -⟩ := hquiet info { s with queue := q' }
        obtain ⟨n, l₁, l₂, happ, rfl, -, -⟩ := StampedQueue.pop_cases ha
        have hlen : (l₁ ++ l₂).length < fuel := by
          rw [happ] at hfuel
          simp only [List.length_append, List.length_cons] at hfuel ⊢
          omega
        obtain ⟨log, s', hrun⟩ := ih (by rw [hkq]; exact hr') (hfresh.pop ha) hlen
        exact ⟨info :: log, s', by simp [hrun]⟩

/-! ## The machine on the list -/

/-- The same machine state over the array and over the list. -/
structure MachineSim (m : Machine SignalQueue) (n : Machine (StampedQueue SigInfo)) : Prop where
  sig : Sim m.sig n.sig
  actions : m.actions = n.actions
  frames : m.frames = n.frames
  accepted : m.accepted = n.accepted
  consumed : m.consumed = n.consumed
  acted : m.acted = n.acted
  deliveries : m.deliveries = n.deliveries
  changes : m.changes = n.changes

/-- At the start both machines are alike. -/
theorem machineSim_zero : MachineSim (Machine.zero arrayQueue) (Machine.zero listQueue) :=
  ⟨sim_zero, rfl, rfl, rfl, rfl, rfl, rfl, rfl⟩

/-- An access on related states, while the list is fresh. -/
theorem Sim.onSig {s : SigState SignalQueue} {t : SigState (StampedQueue SigInfo)} (h : Sim s t)
    (hfresh : t.queue.Fresh (2 ^ 31)) (mask : SigSet) {a : Access} (ha : a.Legal) :
    Sim (a.onSig arrayQueue mask s) (a.onSig listQueue mask t) := by
  cases a with
  | storeOr | storeAndNot | storeValue | restore => exact ⟨h.queue, rfl, h.pendsv, h.errno⟩
  | request => exact ⟨h.queue, h.procmask, rfl, h.errno⟩
  | fail e => exact ⟨h.queue, h.procmask, h.pendsv, rfl⟩
  | enqueue info => exact (h.sigqueueInfo (IsSignal.ne_zero ha)).2
  | dequeue => exact (h.signalDequeue hfresh _).2
  | poll set => exact (h.signalDequeue hfresh set).2
  | load | act | exit | readAction | writeAction => exact h

/-- An access puts the same signal into the array and into the list. -/
theorem Sim.accepted {s : SigState SignalQueue} {t : SigState (StampedQueue SigInfo)}
    (h : Sim s t) {a : Access} (ha : a.Legal) :
    a.accepted arrayQueue s = a.accepted listQueue t := by
  cases a with
  | enqueue info =>
      simp only [Access.accepted, (h.sigqueueInfo (IsSignal.ne_zero ha)).1]
  | load | storeOr | storeAndNot | storeValue | restore | request | fail | dequeue | act | exit
  | poll | readAction | writeAction => rfl

/-- An access takes the same signal out of the array and out of the list. -/
theorem Sim.taken {s : SigState SignalQueue} {t : SigState (StampedQueue SigInfo)} (h : Sim s t)
    (hfresh : t.queue.Fresh (2 ^ 31)) (mask : SigSet) (a : Access) :
    a.taken arrayQueue mask s = a.taken listQueue mask t ∧
      a.actsOn arrayQueue mask s = a.actsOn listQueue mask t := by
  cases a with
  | dequeue =>
      simp only [Access.taken, Access.actsOn, (h.signalDequeue hfresh _).1, h.procmask,
        and_self]
  | poll set =>
      simp only [Access.taken, Access.actsOn, (h.signalDequeue hfresh _).1, and_self]
  | load | storeOr | storeAndNot | storeValue | restore | request | fail | enqueue | act | exit
  | readAction | writeAction => exact ⟨rfl, rfl⟩

/-- The topmost call goes on in the same way over the array and over the list. -/
theorem Sim.after {s : SigState SignalQueue} {t : SigState (StampedQueue SigInfo)} (h : Sim s t)
    (hfresh : t.queue.Fresh (2 ^ 31)) (f : Frame) (u : SignalActions) (as : List Access)
    (a : Access) : f.after arrayQueue s u as a = f.after listQueue t u as a := by
  cases a with
  | load =>
      simp only [Frame.after, h.procmask]
  | dequeue =>
      simp only [Frame.after, (h.signalDequeue hfresh _).1]
  | storeOr | storeAndNot | storeValue | restore | request | fail | enqueue | act | exit | poll
  | readAction | writeAction => rfl

/-- One event on related machines: it happens on the list when it happens on the
array. -/
theorem MachineSim.step {m m' : Machine SignalQueue} {n : Machine (StampedQueue SigInfo)}
    (h : MachineSim m n) (hinv : MachineInv m) (hfresh : n.sig.queue.Fresh (2 ^ 31)) {e : Event}
    (hstep : m.step arrayQueue e = some m') :
    ∃ n', n.step listQueue e = some n' ∧ MachineSim m' n' := by
  cases step_cases hstep with
  | call c =>
      exact ⟨_, rfl, h.sig, h.actions, congrArg (Frame.push _) h.frames, h.accepted, h.consumed,
        h.acted, h.deliveries, h.changes⟩
  | enter hpendsv hrunning =>
      have hrun : n.running = false := by
        rw [← hrunning]
        exact congrArg (List.any · Frame.running) h.frames.symm
      refine ⟨⟨{ n.sig with pendsv := false }, n.actions, Frame.enter handlerLoop :: n.frames,
        n.accepted, n.consumed, n.acted, n.deliveries, n.changes⟩, ?_, ?_, h.actions,
        congrArg (List.cons _) h.frames, h.accepted, h.consumed, h.acted, h.deliveries, h.changes⟩
      · simp only [Machine.step]
        rw [← h.sig.pendsv, hpendsv, hrun]
        rfl
      · exact ⟨h.sig.queue, h.sig.procmask, rfl, h.sig.errno⟩
  | @access f a as fs hframes hrest hexit =>
      have ha : a.Legal := by
        refine hinv.accesses f ?_ a ?_
        · rw [hframes]
          exact List.mem_cons_self
        · rw [hrest]
          exact List.mem_cons_self
      -- the only access that tells array and list apart is the one that takes a signal
      obtain ⟨htaken, hacts⟩ := h.sig.taken hfresh f.mask a
      refine ⟨_, step_access (h.frames.symm.trans hframes) hrest hexit, h.sig.onSig hfresh _ ha,
        ?_, ?_, ?_, ?_, ?_, ?_, ?_⟩
      · exact congrArg (a.onActions f.action) h.actions
      · show (f.after arrayQueue m.sig m.actions as a).push fs
          = (f.after listQueue n.sig n.actions as a).push fs
        rw [h.sig.after hfresh, h.actions]
      · exact congrArg₂ (· ++ ·) h.accepted (h.sig.accepted ha)
      · exact congrArg₂ (· ++ ·) h.consumed htaken
      · exact congrArg₂ (· ++ ·) h.acted hacts
      · exact congrArg₂ (· ++ a.delivers ·) h.deliveries h.actions
      · exact congrArg (· ++ a.change.toList) h.changes

/-! ### Runs that stay fresh -/

/-- Along the events, fewer than `2^31` signals are enqueued while any one signal
stays queued. -/
def RunFresh (n : Machine (StampedQueue SigInfo)) (es : List Event) : Prop :=
  ∀ k n', n.run listQueue (es.take k) = some n' → n'.sig.queue.Fresh (2 ^ 31)

/-- What is left of a fresh run is fresh. -/
theorem RunFresh.tail {n n' : Machine (StampedQueue SigInfo)} {e : Event} {es : List Event}
    (h : RunFresh n (e :: es)) (hstep : n.step listQueue e = some n') : RunFresh n' es := by
  intro k n'' hk
  apply h (k + 1) n''
  rw [List.take_succ_cons, Machine.run, hstep]
  exact hk

/-- A run on the array is one on the list, and keeps what the events of the list keep. -/
theorem MachineSim.run {K : Machine (StampedQueue SigInfo) → Prop}
    (hkeep : ∀ n n' e, K n → n.step listQueue e = some n' → K n')
    {m m' : Machine SignalQueue} {n : Machine (StampedQueue SigInfo)}
    (h : MachineSim m n) (hinv : MachineInv m) (hk : K n) {es : List Event}
    (hes : ∀ e ∈ es, e.Legal) (hfresh : RunFresh n es) (hrun : m.run arrayQueue es = some m') :
    ∃ n', n.run listQueue es = some n' ∧ MachineSim m' n' ∧ K n' := by
  induction es generalizing m n with
  | nil =>
      cases hrun
      exact ⟨n, rfl, h, hk⟩
  | cons e es ih =>
      obtain ⟨m₁, hstep, hrest⟩ := Option.bind_eq_some_iff.mp hrun
      obtain ⟨n₁, hstep', hsim⟩ := h.step hinv (hfresh 0 n rfl) hstep
      obtain ⟨n', hrun', hlast⟩ := ih hsim (hinv.step (hes e List.mem_cons_self) hstep)
        (hkeep n n₁ e hk hstep') (fun e' he' => hes e' (List.mem_cons_of_mem _ he'))
        (hfresh.tail hstep') hrest
      refine ⟨n', ?_, hlast⟩
      rw [Machine.run, hstep', Option.bind_some, hrun']

/-- One event enqueues at most one signal. -/
theorem step_count_le {n n' : Machine (StampedQueue SigInfo)} {e : Event}
    (h : n.step listQueue e = some n') : n'.sig.queue.count ≤ n.sig.queue.count + 1 := by
  cases step_cases h with
  | call | enter => exact Nat.le_succ _
  | @access f a as fs hframes hrest hexit =>
      show (a.onSig listQueue f.mask n.sig).queue.count ≤ _
      cases a with
      | enqueue info => exact sigqueueInfo_count_le info n.sig
      | dequeue => exact le_of_eq_of_le (signalDequeue_count _ n.sig) (Nat.le_succ _)
      | poll set => exact le_of_eq_of_le (signalDequeue_count set n.sig) (Nat.le_succ _)
      | load | storeOr | storeAndNot | storeValue | restore | request | fail | act | exit
      | readAction | writeAction => exact Nat.le_succ _

/-- A run enqueues one signal per event at most. -/
theorem run_count_le {n n' : Machine (StampedQueue SigInfo)} {es : List Event}
    (h : n.run listQueue es = some n') :
    n'.sig.queue.count ≤ n.sig.queue.count + es.length := by
  induction es generalizing n with
  | nil =>
      cases h
      exact le_refl _
  | cons e es ih =>
      obtain ⟨n₁, hstep, hrest⟩ := Option.bind_eq_some_iff.mp h
      have hone := step_count_le hstep
      have hmore := ih hrest
      rw [List.length_cons]
      omega

/-- A run of fewer than `2^31` events is fresh. -/
theorem runFresh_of_length_lt {es : List Event} (h : es.length < 2 ^ 31) :
    RunFresh (Machine.zero listQueue) es := by
  intro k n' hk
  apply StampedQueue.Fresh.of_count_lt
  have hcount := run_count_le hk
  have hzero : (Machine.zero listQueue).sig.queue.count = 0 := rfl
  have hlen := List.length_take_le' k es
  omega

/-! ## Delivery in queueing order -/

/-- After the events `es`, a run of `pend_sv_handler` whose handlers are quiet
completes, and a completed one has acted on exactly the unblocked signals of the
list of queued signals, once each and in that order, and leaves the blocked ones
queued.  The list is what the same events leave of a queue that appends at the
end. -/
def DeliversInOrder (es : List Event) : Prop :=
  ∀ m, (Machine.zero arrayQueue).run arrayQueue es = some m →
    ∃ n, (Machine.zero listQueue).run listQueue es = some n ∧
      ∀ signalAct, Quiet signalAct →
        (∃ fuel log s', pendSvHandler arrayQueue signalAct fuel m.sig = some (log, s')) ∧
        ∀ fuel log s', pendSvHandler arrayQueue signalAct fuel m.sig = some (log, s') →
          log = n.sig.queue.contents.filter (unblocked m.sig.procmask) ∧
          ∃ a, s'.queue.Represents a ∧
            a.contents = n.sig.queue.contents.filter fun info => !unblocked m.sig.procmask info

/-- For signals in range, unblocked means a member of the complement of the mask. -/
theorem inSet_not_eq_unblocked {info : SigInfo} (h : IsSignal info.siSigno) (mask : SigSet) :
    inSet (~~~mask) info = unblocked mask info := by
  unfold inSet unblocked
  rw [decide_eq_decide, ne_eq, h.sigismember_not, ne_eq, not_not]

/-- **A fresh run delivers in order**. -/
theorem deliversInOrder_of_runFresh {es : List Event} (hes : ∀ e ∈ es, e.Legal)
    (hfresh : RunFresh (Machine.zero listQueue) es) : DeliversInOrder es := by
  intro m hm
  -- the run on the array is one on the list, where the order is that of queueing
  obtain ⟨n, hn, hsim, -⟩ := machineSim_zero.run (K := fun _ => True) (fun _ _ _ h _ => h)
    machineInv_zero trivial hes hfresh hm
  refine ⟨n, hn, ?_⟩
  intro signalAct hquiet
  have hr := hsim.sig.queue
  have hlast : n.sig.queue.Fresh (2 ^ 31) := by
    apply hfresh es.length n
    rw [List.take_length]
    exact hn
  have hlegal : ∀ info ∈ n.sig.queue.contents, IsSignal info.siSigno := by
    intro info hinfo
    obtain ⟨e, he, rfl⟩ := List.mem_map.mp hinfo
    obtain ⟨ticket, -, -, hmem⟩ := hr.cells
    obtain ⟨i, hi, rfl⟩ := (hmem e).mp he
    exact (machineInv_zero.run hes hm).legal i hi
  constructor
  · exact ⟨_, pendSvHandler_completes hquiet hr hlast (Nat.lt_succ_self _)⟩
  · intro fuel log s' hrun
    obtain ⟨hlog, a, ha, hrest⟩ := pendSvHandler_filter hquiet hr hlast hrun
    refine ⟨?_, a, ha, ?_⟩
    · rw [hlog]
      apply List.filter_congr
      intro info hinfo
      exact inSet_not_eq_unblocked (hlegal info hinfo) _
    · rw [hrest]
      apply List.filter_congr
      intro info hinfo
      rw [inSet_not_eq_unblocked (hlegal info hinfo)]

/-- A handler at some address. -/
def someHandler : Sigaction := ⟨0x08000101, 0, 0⟩

/-- `sighold(1)` is interrupted between its load and its store by `raise(2)`, and signal 1 is
raised; then `pend_sv_handler` takes signal 2 and finds no other that is not in the mask. -/
def heldRun : List Event :=
  (Call.sigaction 2 (some someHandler)).uninterrupted ++
    .call (.signal (.sighold 1)) :: .step :: (Call.signal (.raise 2)).uninterrupted ++
    .step :: (Call.signal (.raise 1)).uninterrupted ++
    [.pendSvEnter, .step, .step, .step, .step, .step]

/-- The first cell of the queue. -/
def cell0 : Fin sigqueueMax := ⟨0, by decide⟩

/-- `sighold(3)` is interrupted between its load and its store by a signal whose handler calls
`sighold(5)` and `raise(5)`; the store undoes the hold. -/
def splitBlockRun : List Event :=
  (Call.sigaction 4 (some someHandler)).uninterrupted ++
    .call (.signal (.sighold 3)) :: .step :: (Call.signal (.raise 4)).uninterrupted ++
    [.pendSvEnter, .step, .step, .step] ++
    (Call.signal (.sighold 5)).uninterrupted ++ (Call.signal (.raise 5)).uninterrupted ++
    [.step, .step, .pendSvEnter, .step, .step, .step]

/-- An interrupt holds signal 4 after `pend_sv_handler` has loaded the mask. -/
def splitTakeRun : List Event :=
  (Call.signal (.raise 4)).uninterrupted ++ [.pendSvEnter, .step] ++
    (Call.signal (.sighold 4)).uninterrupted ++ [.step]

/-- Signal 5 is queued and not in the mask, no call is in progress, and PendSV is not pending. -/
theorem splitBlockRun_loses :
    ∃ m, (Machine.zero arrayQueue).run arrayQueue splitBlockRun = some m ∧ m.frames = [] ∧
      ¬ NoLostWakeup m := by
  have hdata : ((Machine.zero arrayQueue).run arrayQueue splitBlockRun).map
      (fun m => (m.frames, m.sig.pendsv, m.sig.queue.occupied cell0,
        sigismember m.sig.procmask (m.sig.queue.items cell0).info.siSigno))
      = some ([], false, true, 0) := by decide
  obtain ⟨m, hm, hlast⟩ := Option.map_eq_some_iff.mp hdata
  simp only [Prod.mk.injEq] at hlast
  obtain ⟨hframes, hpendsv, hocc, hmem⟩ := hlast
  refine ⟨m, hm, hframes, fun hwake => ?_⟩
  rcases hwake cell0 hocc hmem with h | h | h
  · rw [hpendsv] at h
    cases h
  · rw [Machine.running, hframes] at h
    cases h
  · rw [Machine.requesting, hframes] at h
    cases h

/-- `signal_act` is called for a signal that is in the mask. -/
theorem splitTakeRun_blocked :
    ∃ m, (Machine.zero arrayQueue).run arrayQueue splitTakeRun = some m ∧ ¬ ActedUnblocked m := by
  have hdata : ((Machine.zero arrayQueue).run arrayQueue splitTakeRun).map (fun m => m.acted)
      = some [(⟨4, siUser, getpid, 0⟩, 8#32)] := by decide
  obtain ⟨m, hm, hlast⟩ := Option.map_eq_some_iff.mp hdata
  refine ⟨m, hm, fun hacted => ?_⟩
  have hzero := hacted (⟨4, siUser, getpid, 0⟩, 8#32) (by rw [hlast]; exact List.mem_singleton_self _)
  revert hzero
  decide

/-! ## Without the bound -/

/-- Signal 1 is held and raised, so it stays queued; signal 2 is to be ignored. -/
def blockedRun : List Event :=
  (Call.sigignore 2).uninterrupted ++ (Call.signal (.sighold 1)).uninterrupted ++
    (Call.signal (.raise 1)).uninterrupted ++ [.pendSvEnter, .step, .step]

/-- `pend_sv_handler` takes one signal and finds no other. -/
def handlerRound : List Event := [.pendSvEnter, .step, .step, .step, .step, .step]

/-- Signal 2 is raised and delivered. -/
def raiseRound : List Event := (Call.signal (.raise 2)).uninterrupted ++ handlerRound

/-- Signal 2 is held and raised once more, then both signals are released. -/
def releaseRun : List Event :=
  (Call.signal (.sighold 2)).uninterrupted ++ ((Call.signal (.raise 2)).uninterrupted ++
    (Call.signal (.sigprocmask .sigSetmask (some 0))).uninterrupted)

/-- Signal 1 stays queued while signal 2 is raised `2^31` times. -/
def overlongRun : List Event :=
  (blockedRun ++ raiseRound) ++ (List.replicate (2 ^ 31 - 2) raiseRound).flatten ++ releaseRun

/-- What `raise` queues. -/
def raised (sig : ℤ) : SigInfo := ⟨sig, siUser, getpid, 0⟩

/-- The second cell of the queue. -/
def cell1 : Fin sigqueueMax := ⟨1, by decide⟩

/-! ### A queue of two signals -/

/-- The array during the rounds: signal 1 in the first cell, signal 2 or nothing
in the second one. -/
def twoCells (lastOrder : BitVec 32) (sig : ℤ) (order : BitVec 32) : SignalQueue where
  lastOrder := lastOrder
  items := fun i =>
    if i = cell0 then ⟨raised 1, 1#32⟩ else if i = cell1 then ⟨raised sig, order⟩ else zeroItem

/-- A signal goes into the free cell. -/
theorem twoCells_enqueue (o y : BitVec 32) :
    (twoCells o 0 y).enqueue (raised 2) = some (twoCells (o + 1) 2 (o + 1)) := by
  have hfree : (twoCells o 0 y).firstFree = some cell1 := rfl
  unfold SignalQueue.enqueue
  simp only [hfree, Option.some.injEq]
  unfold twoCells
  congr 1
  funext i
  by_cases h1 : i = cell1
  · subst h1
    simp [cell0, cell1]
  · simp [h1]

/-- It is cleared there. -/
theorem twoCells_clear (o y : BitVec 32) :
    (twoCells o 2 y).clear cell1 = twoCells o 0 y := by
  unfold SignalQueue.clear twoCells
  dsimp only
  congr 1
  funext i
  by_cases h1 : i = cell1
  · subst h1
    simp [cell0, cell1, raised]
  · simp [h1]

/-- Signal 1 is in the mask, so the loop of `signal_dequeue` passes over it. -/
theorem twoCells_candidate {o y : BitVec 32} {sig : ℤ} {i : Fin sigqueueMax}
    (h : (twoCells o sig y).candidate (~~~1#32) i = true) : i = cell1 := by
  by_contra hi
  by_cases h0 : i = cell0
  · subst h0
    simp [SignalQueue.candidate, twoCells, raised] at h
    exact h.2 (by decide)
  · simp [SignalQueue.candidate, SignalQueue.occupied, twoCells, h0, hi, zeroItem] at h

/-- It is taken from there. -/
theorem twoCells_dequeue (o y : BitVec 32) :
    (twoCells o 2 y).dequeue (~~~1#32) = some (raised 2, twoCells o 0 y) := by
  have hcand : (twoCells o 2 y).candidate (~~~1#32) cell1 = true := by
    simp [SignalQueue.candidate, SignalQueue.occupied, twoCells, cell0, cell1, raised]
    decide
  cases hd : (twoCells o 2 y).dequeue (~~~1#32) with
  | none =>
      rw [SignalQueue.dequeue_eq_none _ hd cell1] at hcand
      cases hcand
  | some r =>
      obtain ⟨info, q⟩ := r
      obtain ⟨i, hi, rfl, rfl⟩ := SignalQueue.dequeue_cases _ hd
      rw [twoCells_candidate hi, twoCells_clear]
      rfl

/-- Nothing is there to be taken. -/
theorem twoCells_dequeue_none (o y : BitVec 32) :
    (twoCells o 0 y).dequeue (~~~1#32) = none := by
  cases hd : (twoCells o 0 y).dequeue (~~~1#32) with
  | none => rfl
  | some r =>
      obtain ⟨info, q⟩ := r
      obtain ⟨i, hi, -, -⟩ := SignalQueue.dequeue_cases _ hd
      rw [twoCells_candidate hi] at hi
      cases hi

/-- The index of signal 2 in the table. -/
def secondAction : ActionIndex := ⟨2, by decide⟩

/-! ### Between two rounds -/

/-- A machine with no call in progress, in which signal 2 is ignored. -/
structure AtRest (s : SigState Q) (m : Machine Q) : Prop where
  sig : m.sig = s
  frames : m.frames = []
  ignored : m.actions secondAction = ⟨sigIgn, 0, 0⟩

/-- A call that leaves the table alone. -/
theorem AtRest.call {I : QueueImpl Q} {s : SigState Q} {m : Machine Q} (h : AtRest s m)
    (c : SigCall) :
    ∃ m', m.run I (Call.signal c).uninterrupted = some m' ∧ AtRest (c.exec I s).2 m' := by
  obtain ⟨m', hrun, hframes, hdata, -⟩ := run_uninterrupted (I := I) (.signal c) m
  refine ⟨m', hrun, ?_, hframes.trans h.frames, ?_⟩
  · rw [← h.sig]
    exact congrArg Prod.fst hdata
  · rw [← h.ignored]
    exact congrFun (congrArg Prod.snd hdata) secondAction

/-- The handler takes signal 2, which is ignored, and ends. -/
theorem AtRest.handlerRound {I : QueueImpl Q} {s s₁ : SigState Q} {m : Machine Q}
    (h : AtRest { s with pendsv := true } m)
    (htake : signalDequeue I (~~~s.procmask) { s with pendsv := false } = (some (raised 2), s₁))
    (hend : signalDequeue I (~~~s₁.procmask) s₁ = (none, s₁)) :
    ∃ m', m.run I handlerRound = some m' ∧ AtRest s₁ m' := by
  obtain ⟨sig, actions, frames, accepted, consumed, acted, deliveries, changes⟩ := m
  obtain ⟨rfl, rfl, hignored⟩ := h
  have hact : signalAct actions (raised 2) = .ignored := by
    have hindex : actionIndex (raised 2).siSigno = some secondAction := rfl
    unfold signalAct
    rw [hindex]
    dsimp only at hignored ⊢
    rw [hignored]
    rfl
  refine ⟨⟨s₁, actions, [], accepted, consumed ++ [raised 2], acted ++ [(raised 2, s.procmask)],
    deliveries ++ [(raised 2, .ignored)], changes⟩, ?_, rfl, rfl, hignored⟩
  simp [Signal.handlerRound, Machine.run, Machine.step, Machine.stepTop, Machine.running,
    Machine.access, Frame.enter, Frame.push, Frame.after, handlerLoop, Access.onSig,
    Access.onActions, Access.accepted, Access.taken, Access.actsOn, Access.delivers, Access.change,
    htake, hend, hact]

/-- Only the order counter changes from one round to the next. -/
def afterRounds (k : ℕ) : SigState SignalQueue :=
  ⟨twoCells (BitVec.ofNat 32 (k + 2)) 0 (BitVec.ofNat 32 (k + 2)), 1#32, false, none⟩

/-- The list behind the same rounds. -/
def afterRoundsList (k : ℕ) : SigState (StampedQueue SigInfo) :=
  ⟨⟨k + 2, [(1, raised 1)]⟩, 1#32, false, none⟩

/-! ### One round -/

/-- One round over the array. -/
theorem run_raiseRound {k : ℕ} {m : Machine SignalQueue} (h : AtRest (afterRounds k) m) :
    ∃ m', m.run arrayQueue raiseRound = some m' ∧ AtRest (afterRounds (k + 1)) m' := by
  have hnext : BitVec.ofNat 32 (k + 2) + 1 = BitVec.ofNat 32 (k + 3) := by
    rw [BitVec.ofNat_add k 3, BitVec.ofNat_add k 2, BitVec.add_assoc]
    rfl
  obtain ⟨m₁, hrun₁, h₁⟩ := h.call (I := arrayQueue) (.raise 2)
  have hraise : (SigCall.exec arrayQueue (afterRounds k) (.raise 2)).2
      = ⟨twoCells (BitVec.ofNat 32 (k + 3)) 2 (BitVec.ofNat 32 (k + 3)), 1#32, true, none⟩ := by
    rw [← hnext]
    exact congrArg Prod.snd (sigqueueInfo_of_some (I := arrayQueue) (s := afterRounds k)
      (twoCells_enqueue _ _))
  rw [hraise] at h₁
  have htake : signalDequeue arrayQueue (~~~1#32)
      ⟨twoCells (BitVec.ofNat 32 (k + 3)) 2 (BitVec.ofNat 32 (k + 3)), 1#32, false, none⟩ =
      (some (raised 2), afterRounds (k + 1)) :=
    signalDequeue_of_some (I := arrayQueue) (twoCells_dequeue _ _)
  obtain ⟨m₂, hrun₂, h₂⟩ := AtRest.handlerRound (I := arrayQueue)
    (s := ⟨twoCells (BitVec.ofNat 32 (k + 3)) 2 (BitVec.ofNat 32 (k + 3)), 1#32, false, none⟩)
    h₁ htake
    (signalDequeue_of_none (I := arrayQueue) (twoCells_dequeue_none _ _))
  exact ⟨m₂, Machine.run_trans hrun₁ hrun₂, h₂⟩

/-- One round over the list. -/
theorem run_raiseRoundList {k : ℕ} {n : Machine (StampedQueue SigInfo)}
    (h : AtRest (afterRoundsList k) n) :
    ∃ n', n.run listQueue raiseRound = some n' ∧ AtRest (afterRoundsList (k + 1)) n' := by
  have hblocked : inSet (~~~1#32) (raised 1) = false := by decide
  have hunblocked : inSet (~~~1#32) (raised 2) = true := by decide
  obtain ⟨n₁, hrun₁, h₁⟩ := h.call (I := listQueue) (.raise 2)
  have htake : signalDequeue listQueue (~~~1#32)
      ⟨⟨k + 3, [(1, raised 1), (k + 3, raised 2)]⟩, 1#32, false, none⟩ =
      (some (raised 2), afterRoundsList (k + 1)) :=
    signalDequeue_of_some (I := listQueue) (by
      simp only [listQueue, StampedQueue.pop, List.find?_cons, List.eraseP_cons, hblocked,
        hunblocked, cond_false, cond_true])
  obtain ⟨n₂, hrun₂, h₂⟩ := AtRest.handlerRound (I := listQueue)
    (s := ⟨⟨k + 3, [(1, raised 1), (k + 3, raised 2)]⟩, 1#32, false, none⟩) h₁ htake
    (signalDequeue_of_none (I := listQueue) (by
      simp only [listQueue, StampedQueue.pop, List.find?_cons, List.find?_nil, hblocked,
        afterRoundsList]))
  exact ⟨n₂, Machine.run_trans hrun₁ hrun₂, h₂⟩

/-- Any number of rounds, by induction. -/
theorem run_raiseRounds {I : QueueImpl Q} (after : ℕ → SigState Q)
    (hround : ∀ k m, AtRest (after k) m →
      ∃ m', m.run I raiseRound = some m' ∧ AtRest (after (k + 1)) m')
    (j k : ℕ) {m : Machine Q} (h : AtRest (after k) m) :
    ∃ m', m.run I (List.replicate j raiseRound).flatten = some m' ∧ AtRest (after (k + j)) m' := by
  induction j generalizing k m with
  | zero => exact ⟨m, rfl, h⟩
  | succ j ih =>
      obtain ⟨m₁, hrun₁, h₁⟩ := hround k m h
      obtain ⟨m₂, hrun₂, h₂⟩ := ih (k + 1) h₁
      refine ⟨m₂, Machine.run_trans hrun₁ hrun₂, ?_⟩
      rw [← Nat.add_assoc, Nat.add_right_comm]
      exact h₂

/-- Both machines start with one signal blocked. -/
theorem run_blockedRun : ∃ m, (Machine.zero arrayQueue).run arrayQueue (blockedRun ++ raiseRound)
    = some m ∧ AtRest (afterRounds 0) m := by
  cases hr : (Machine.zero arrayQueue).run arrayQueue (blockedRun ++ raiseRound) with
  | none => cases hr
  | some m =>
      have hitems : m.sig.queue.items = (afterRounds 0).queue.items := by
        cases hr
        funext i
        revert i
        decide
      refine ⟨m, rfl, ?_, ?_, ?_⟩
      · have heta : m.sig = ⟨⟨2#32, m.sig.queue.items⟩, 1#32, false, none⟩ := by
          cases hr
          rfl
        rw [heta, hitems]
        rfl
      · cases hr
        rfl
      · cases hr
        rfl

theorem run_blockedRunList :
    ∃ n, (Machine.zero listQueue).run listQueue (blockedRun ++ raiseRound) = some n ∧
      AtRest (afterRoundsList 0) n := by
  refine ⟨_, rfl, ?_, ?_, ?_⟩ <;> rfl

/-! ### The two signals are released -/

/-- The state in which signal 1, queued first, and signal 2 are released. -/
def released : SigState SignalQueue :=
  ⟨twoCells (BitVec.ofNat 32 (2 ^ 31 + 1)) 2 (BitVec.ofNat 32 (2 ^ 31 + 1)), 0#32, true, none⟩

/-- Signal 2 is blocked beside signal 1. -/
theorem sighold_two (q : Q) :
    (Signal.sighold 2 ⟨q, 1#32, false, none⟩).2 = ⟨q, 3#32, false, none⟩ := by
  have hmask : 1#32 ||| sigmask 2 = 3#32 := by decide
  simp [Signal.sighold, sigholdrel, Signal.sigprocmask, hmask]

/-- Released, the two signals come in the wrong order. -/
theorem run_releaseRun {m : Machine SignalQueue} (h : AtRest (afterRounds (2 ^ 31 - 2)) m) :
    ∃ m', m.run arrayQueue releaseRun = some m' ∧ AtRest released m' := by
  obtain ⟨m₁, hrun₁, h₁⟩ := h.call (I := arrayQueue) (.sighold 2)
  have hhold : (SigCall.exec arrayQueue (afterRounds (2 ^ 31 - 2)) (.sighold 2)).2
      = ⟨twoCells (BitVec.ofNat 32 (2 ^ 31)) 0 (BitVec.ofNat 32 (2 ^ 31)), 3#32, false, none⟩ :=
    sighold_two _
  rw [hhold] at h₁
  obtain ⟨m₂, hrun₂, h₂⟩ := h₁.call (I := arrayQueue) (.raise 2)
  have hraise : ∀ o y, (SigCall.exec arrayQueue ⟨twoCells o 0 y, 3#32, false, none⟩ (.raise 2)).2
      = ⟨twoCells (o + 1) 2 (o + 1), 3#32, true, none⟩ := fun o y =>
    congrArg Prod.snd (sigqueueInfo_of_some (I := arrayQueue)
      (s := ⟨twoCells o 0 y, 3#32, false, none⟩) (twoCells_enqueue o y))
  rw [hraise] at h₂
  obtain ⟨m₃, hrun₃, h₃⟩ := h₂.call (I := arrayQueue) (.sigprocmask .sigSetmask (some 0))
  exact ⟨m₃, Machine.run_trans hrun₁ (Machine.run_trans hrun₂ hrun₃), h₃⟩

/-- In the list they come in the right one. -/
theorem run_releaseRunList {n : Machine (StampedQueue SigInfo)}
    (h : AtRest (afterRoundsList (2 ^ 31 - 2)) n) :
    ∃ n', n.run listQueue releaseRun = some n' ∧
      n'.sig.queue.contents = [raised 1, raised 2] := by
  obtain ⟨n₁, hrun₁, h₁⟩ := h.call (I := listQueue) (.sighold 2)
  have hhold : (SigCall.exec listQueue (afterRoundsList (2 ^ 31 - 2)) (.sighold 2)).2
      = ⟨⟨2 ^ 31, [(1, raised 1)]⟩, 3#32, false, none⟩ := sighold_two _
  rw [hhold] at h₁
  obtain ⟨n₂, hrun₂, h₂⟩ := h₁.call (I := listQueue) (.raise 2)
  have hraise : ∀ k, (SigCall.exec listQueue ⟨⟨k, [(1, raised 1)]⟩, 3#32, false, none⟩
      (.raise 2)).2 = ⟨⟨k + 1, [(1, raised 1), (k + 1, raised 2)]⟩, 3#32, true, none⟩ :=
    fun _ => rfl
  rw [hraise] at h₂
  obtain ⟨n₃, hrun₃, h₃⟩ := h₂.call (I := listQueue) (.sigprocmask .sigSetmask (some 0))
  refine ⟨n₃, Machine.run_trans hrun₁ (Machine.run_trans hrun₂ hrun₃), ?_⟩
  rw [h₃.sig]
  rfl

/-- Signal 2 comes out first: its order number is behind that of signal 1 by the
signed difference. -/
theorem pendSvHandler_released :
    (pendSvHandler arrayQueue (fun _ s => s) 3 released).map Prod.fst
      = some [raised 2, raised 1] := by
  decide +kernel

/-- The whole run on the array. -/
theorem run_overlongRun :
    ∃ m, (Machine.zero arrayQueue).run arrayQueue overlongRun = some m ∧ AtRest released m := by
  obtain ⟨m₁, hrun₁, h₁⟩ := run_blockedRun
  obtain ⟨m₂, hrun₂, h₂⟩ := run_raiseRounds afterRounds
    (fun _ _ => run_raiseRound) (2 ^ 31 - 2) 0 h₁
  rw [Nat.zero_add] at h₂
  obtain ⟨m₃, hrun₃, h₃⟩ := run_releaseRun h₂
  exact ⟨m₃, Machine.run_trans (Machine.run_trans hrun₁ hrun₂) hrun₃, h₃⟩

/-- The whole run on the list. -/
theorem run_overlongRunList :
    ∃ n, (Machine.zero listQueue).run listQueue overlongRun = some n ∧
      n.sig.queue.contents = [raised 1, raised 2] := by
  obtain ⟨n₁, hrun₁, h₁⟩ := run_blockedRunList
  obtain ⟨n₂, hrun₂, h₂⟩ := run_raiseRounds afterRoundsList
    (fun _ _ => run_raiseRoundList) (2 ^ 31 - 2) 0 h₁
  rw [Nat.zero_add] at h₂
  obtain ⟨n₃, hrun₃, h₃⟩ := run_releaseRunList h₂
  exact ⟨n₃, Machine.run_trans (Machine.run_trans hrun₁ hrun₂) hrun₃, h₃⟩

/-- All its numbers are signals. -/
theorem overlongRun_legal : ∀ e ∈ overlongRun, e.Legal := by
  have hblocks : ∀ es, es = blockedRun ∨ es = raiseRound ∨ es = releaseRun →
      ∀ e ∈ es, e.Legal := by
    rintro es (rfl | rfl | rfl) <;>
      simp [blockedRun, raiseRound, handlerRound, releaseRun, Call.uninterrupted, Call.accesses,
        SigCall.accesses, killAccesses, holdrelAccesses, maskAccesses, changeAccesses, getpid,
        actionIndex, Event.Legal, Call.Legal, SigCall.Legal, IsSignal, signalMax]
  intro e he
  unfold overlongRun at he
  simp only [List.mem_append, List.mem_flatten, List.mem_replicate] at he
  rcases he with ((he | he) | ⟨es, ⟨-, rfl⟩, he⟩) | he
  · exact hblocks blockedRun (by simp) e he
  · exact hblocks raiseRound (by simp) e he
  · exact hblocks raiseRound (by simp) e he
  · exact hblocks releaseRun (by simp) e he

/-- When `2^31` signals are enqueued while one stays queued, the delivery is not
in queueing order. -/
theorem overlongRun_reorders : ¬ DeliversInOrder overlongRun := by
  intro h
  obtain ⟨m, hm, hrest⟩ := run_overlongRun
  obtain ⟨n, hn, hact⟩ := h m hm
  obtain ⟨n', hn', hcontents⟩ := run_overlongRunList
  obtain rfl : n = n' := Option.some.inj (hn.symm.trans hn')
  have hquiet : Quiet fun _ s => s := fun _ _ => ⟨rfl, rfl⟩
  rw [hrest.sig] at hact
  obtain ⟨⟨log, s'⟩, hrun, hlog⟩ := Option.map_eq_some_iff.mp pendSvHandler_released
  have hdeliv := ((hact _ hquiet).2 _ _ _ hrun).1
  change log = _ at hlog
  rw [hcontents, hlog] at hdeliv
  revert hdeliv
  decide

end Signal

end Nucleo
