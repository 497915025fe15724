/-
# From a signal that is sent to the action that is taken

What a whole run of the machine of `SignalAccesses` does with the signals.

`signals_conserved` is about the queue: no signal is lost, doubled or overtaken by one of the
same number, and `sigpending` reports those that are still to come.
`delivery_follows_last_action` is about the actions: `signal_act` does what the changes of the
table before it ask for.  `siginterrupt` and `sigignore` read an action and store it later; a
change that comes in between is undone, which the second theorem excludes.
-/
import Nucleo.PendSv

namespace Nucleo

namespace Signal

/-! ## `sigpending` -/

/-- The body of the loop of `sigpending` for one cell. -/
def sigpendingRound (s : SigState SignalQueue) (set : SigSet) (i : Fin sigqueueMax) : SigSet :=
  let sig := (s.queue.items i).info.siSigno
  if sig ≠ 0 ∧ sigismember s.procmask sig ≠ 0 then sigaddset set sig else set

/-- `sigpending`: the set it stores. -/
def sigpending (s : SigState SignalQueue) : SigSet :=
  (List.finRange sigqueueMax).foldl (sigpendingRound s) sigemptyset

/-- `sigpending` reports the signals that are queued and blocked. -/
theorem members_sigpending {s : SigState SignalQueue} (hlegal : QueuedLegal s.queue) :
    members (sigpending s) = members s.procmask ∩
      {n | ∃ i, s.queue.occupied i = true ∧ (s.queue.items i).info.siSigno = n} := by
  -- a round adds what it finds to what is in the set before
  have hround : ∀ set i, members (sigpendingRound s set i) = members set ∪
      (members s.procmask ∩
        {n | s.queue.occupied i = true ∧ (s.queue.items i).info.siSigno = n}) := by
    intro set i
    unfold sigpendingRound
    dsimp only
    by_cases hocc : s.queue.occupied i = true
    · have hleg := hlegal i hocc
      by_cases hblocked : sigismember s.procmask (s.queue.items i).info.siSigno ≠ 0
      · rw [if_pos ⟨of_decide_eq_true hocc, hblocked⟩, members_sigaddset set hleg]
        ext n
        constructor
        · rintro (rfl | hn)
          · exact .inr ⟨⟨hleg, hblocked⟩, hocc, rfl⟩
          · exact .inl hn
        · rintro (hn | ⟨-, -, rfl⟩)
          · exact .inr hn
          · exact .inl rfl
      · rw [if_neg fun h => hblocked h.2, eq_comm, Set.union_eq_left]
        rintro n ⟨hn, -, rfl⟩
        exact absurd hn.2 hblocked
    · rw [if_neg fun h => hocc (decide_eq_true h.1), eq_comm, Set.union_eq_left]
      exact fun n hn => absurd hn.2.1 hocc
  have hloop : ∀ (cells : List (Fin sigqueueMax)) set,
      members (cells.foldl (sigpendingRound s) set) = members set ∪ (members s.procmask ∩
        {n | ∃ i ∈ cells, s.queue.occupied i = true ∧ (s.queue.items i).info.siSigno = n}) := by
    intro cells
    induction cells with
    | nil => simp
    | cons i cells ih =>
        intro set
        rw [List.foldl_cons, ih, hround, Set.union_assoc, ← Set.inter_union_distrib_left]
        congr 2
        ext n
        simp
  unfold sigpending
  rw [hloop, members_sigemptyset, Set.empty_union]
  congr 1
  ext n
  simp

/-! ## What an access does to the list -/

/-- The signals with a number. -/
def ofNumber (n : ℤ) (l : List SigInfo) : List SigInfo := l.filter fun info => info.siSigno = n

theorem ofNumber_append (n : ℤ) (l l' : List SigInfo) :
    ofNumber n (l ++ l') = ofNumber n l ++ ofNumber n l' := List.filter_append ..

/-- Taking a signal out of the list keeps the order of those with its number. -/
theorem contents_signalDequeue (set : SigSet) (t : SigState (StampedQueue SigInfo)) (n : ℤ) :
    ofNumber n t.queue.contents = ofNumber n (signalDequeue listQueue set t).1.toList
      ++ ofNumber n (signalDequeue listQueue set t).2.queue.contents := by
  cases hq : listQueue.dequeue set t.queue with
  | none =>
      rw [signalDequeue_of_none hq]
      rfl
  | some r =>
      rw [signalDequeue_of_some hq]
      refine StampedQueue.filter_key_of_pop ?_ hq n
      intro x y hxy
      unfold inSet
      rw [hxy]

/-- On the list, an access appends what it puts into the queue and keeps the order of the signals
with one number when it takes one out. -/
theorem contents_onSig (mask : SigSet) (t : SigState (StampedQueue SigInfo)) (a : Access)
    (n : ℤ) :
    ofNumber n t.queue.contents ++ ofNumber n (a.accepted listQueue t)
      = ofNumber n (a.taken listQueue mask t)
        ++ ofNumber n (a.onSig listQueue mask t).queue.contents := by
  cases a with
  | enqueue info =>
      show _ ++ ofNumber n (if (sigqueueInfo listQueue info t).1 = 0 then [info] else [])
        = ofNumber n (sigqueueInfo listQueue info t).2.queue.contents
      rw [← ofNumber_append]
      congr 1
      cases hq : listQueue.enqueue info t.queue with
      | none =>
          have hret : ¬ (-1 : ℤ) = 0 := by decide
          rw [sigqueueInfo_of_none hq, if_neg hret, List.append_nil]
      | some q =>
          rw [sigqueueInfo_of_some hq, if_pos rfl]
          unfold listQueue StampedQueue.push at hq
          dsimp only at hq
          split_ifs at hq
          cases hq
          show _ = (t.queue.entries ++ [(t.queue.count + 1, info)]).map Prod.snd
          rw [List.map_append]
          rfl
  | dequeue => exact (List.append_nil _).trans (contents_signalDequeue _ t n)
  | poll set => exact (List.append_nil _).trans (contents_signalDequeue set t n)
  | load | storeOr | storeAndNot | storeValue | restore | request | fail | act | exit | readAction
  | writeAction => exact List.append_nil _

/-- The signals accepted are those that have left the queue and, behind them, those that are in
it. -/
def Conserved (m : Machine (StampedQueue SigInfo)) : Prop :=
  ∀ n, ofNumber n m.accepted = ofNumber n m.consumed ++ ofNumber n m.sig.queue.contents

/-- One event on the list keeps the signals together. -/
theorem Conserved.step {m m' : Machine (StampedQueue SigInfo)} {e : Event} (h : Conserved m)
    (hstep : m.step listQueue e = some m') : Conserved m' := by
  cases step_cases hstep with
  | call | enter => exact h
  | @access f a as fs hframes hrest hexit =>
      intro n
      show ofNumber n (m.accepted ++ a.accepted listQueue m.sig)
        = ofNumber n (m.consumed ++ a.taken listQueue f.mask m.sig)
          ++ ofNumber n (a.onSig listQueue f.mask m.sig).queue.contents
      rw [ofNumber_append, ofNumber_append, h n, List.append_assoc, contents_onSig f.mask,
        List.append_assoc]

/-! ## No signal is lost -/

/-- The occupied cells hold the numbers of the list. -/
theorem numbers_of_represents {q : SignalQueue} {a : StampedQueue SigInfo}
    (h : q.Represents a) :
    {n | ∃ i, q.occupied i = true ∧ (q.items i).info.siSigno = n}
      = {n | ∃ info ∈ a.contents, info.siSigno = n} := by
  obtain ⟨ticket, -, -, hmem⟩ := h.cells
  ext n
  constructor
  · rintro ⟨i, hocc, rfl⟩
    exact ⟨_, List.mem_map.mpr ⟨_, (hmem _).mpr ⟨i, hocc, rfl⟩, rfl⟩, rfl⟩
  · rintro ⟨info, hinfo, rfl⟩
    obtain ⟨e, he, rfl⟩ := List.mem_map.mp hinfo
    obtain ⟨i, hocc, rfl⟩ := (hmem e).mp he
    exact ⟨i, hocc, rfl⟩

/-- When PendSV is neither pending nor running, and no call is about to request it, what is queued
is blocked. -/
theorem queued_subset_procmask {m : Machine SignalQueue} (hlegal : QueuedLegal m.sig.queue)
    (hwake : NoLostWakeup m) (hpendsv : m.sig.pendsv = false) (hrunning : m.running = false)
    (hrequesting : m.requesting = false) :
    {n | ∃ i, m.sig.queue.occupied i = true ∧ (m.sig.queue.items i).info.siSigno = n}
      ⊆ members m.sig.procmask := by
  rintro n ⟨i, hocc, rfl⟩
  refine ⟨hlegal i hocc, ?_⟩
  intro hmem
  have hnone := hwake i hocc hmem
  rw [hpendsv, hrunning, hrequesting] at hnone
  simp at hnone

/-- **No signal is lost, doubled or overtaken by one of its number.**  Calls of the program and
of interrupts, the handler, the waiting calls and the changes of actions come in any order, and
an interrupt may come before any access.  The signals that were accepted are, number by number
and in order, those that have left the queue followed by those that are still in it;
`sigpending` reports those of the latter that are blocked, and all of them once PendSV has
nothing to do, unless some `procmask |= *set` has stored a stale mask. -/
theorem signals_conserved (es : List Event) (hes : ∀ e ∈ es, e.Legal)
    (hfresh : RunFresh (Machine.zero listQueue) es) (m : Machine SignalQueue)
    (hm : (Machine.zero arrayQueue).run arrayQueue es = some m) :
    ∃ queued : StampedQueue SigInfo, m.sig.queue.Represents queued ∧
      (∀ n, ofNumber n m.accepted = ofNumber n m.consumed ++ ofNumber n queued.contents) ∧
      members (sigpending m.sig) = members m.sig.procmask ∩
        {n | ∃ info ∈ queued.contents, info.siSigno = n} ∧
      (Machine.avoids arrayQueue Machine.splitBlock (Machine.zero arrayQueue) es = true →
        m.sig.pendsv = false → m.running = false → m.requesting = false →
        members (sigpending m.sig) = {n | ∃ info ∈ queued.contents, info.siSigno = n}) := by
  have hinv := machineInv_zero.run hes hm
  obtain ⟨q, -, hsim, hcons⟩ := machineSim_zero.run (K := Conserved)
    (fun _ _ _ hk hstep => hk.step hstep) machineInv_zero (fun _ => rfl) hes hfresh hm
  have hr := hsim.sig.queue
  have hpending := members_sigpending hinv.legal
  refine ⟨q.sig.queue, hr, ?_, ?_, ?_⟩
  · intro n
    rw [hsim.accepted, hsim.consumed]
    exact hcons n
  · rw [hpending, numbers_of_represents hr]
  · intro havoid hpendsv hrunning hrequesting
    have hwake := (wakesUp_run hes havoid hm).noLostWakeup
    rw [hpending, Set.inter_eq_right.mpr
      (queued_subset_procmask hinv.legal hwake hpendsv hrunning hrequesting),
      numbers_of_represents hr]

/-- Signal 3 is ignored and signals 2 and 3 are sent; an interrupt takes signal 2 with a waiting
call before the handler comes to it.  The handler acts on signal 3, and an interrupt holds
signal 2 and sends it again before the handler returns. -/
def waitRun : List Event :=
  .call (.sigignore 3) :: .step :: (Call.signal (.raise 2)).uninterrupted ++
    .step :: (Call.signal (.raise 3)).uninterrupted ++ .pendSvEnter :: (Call.poll 2).uninterrupted ++
    [.step, .step, .step] ++ (Call.signal (.sighold 2)).uninterrupted ++
    (Call.signal (.sigqueue 1 2 5)).uninterrupted ++
    [.step, .step, .pendSvEnter, .step, .step]

theorem waitRun_legal : ∀ e ∈ waitRun, e.Legal := by
  simp [waitRun, Call.uninterrupted, Call.accesses, SigCall.accesses, killAccesses,
    holdrelAccesses, maskAccesses, getpid, Event.Legal, Call.Legal, SigCall.Legal, IsSignal,
    signalMax]

/-- `waitRun` is such a run: signal 2 was sent twice, taken once and is queued once. -/
theorem signals_conserved_waitRun :
    ∃ m, (Machine.zero arrayQueue).run arrayQueue waitRun = some m ∧
      ∃ queued : StampedQueue SigInfo, m.sig.queue.Represents queued ∧
        ofNumber 2 m.accepted = ofNumber 2 m.consumed ++ ofNumber 2 queued.contents ∧
        (ofNumber 2 m.accepted).length = 2 ∧ (ofNumber 2 m.consumed).length = 1 ∧
        members (sigpending m.sig) = {n | ∃ info ∈ queued.contents, info.siSigno = n} := by
  have hdata : ((Machine.zero arrayQueue).run arrayQueue waitRun).map
      (fun m => (m.sig.pendsv, m.running, m.requesting, (ofNumber 2 m.accepted).length,
        (ofNumber 2 m.consumed).length)) = some (false, false, false, 2, 1) := by decide
  obtain ⟨m, hm, hlast⟩ := Option.map_eq_some_iff.mp hdata
  simp only [Prod.mk.injEq] at hlast
  obtain ⟨hpendsv, hrunning, hrequesting, haccepted, hconsumed⟩ := hlast
  obtain ⟨queued, hr, hcons, -, hpending⟩ := signals_conserved waitRun waitRun_legal
    (runFresh_of_length_lt (by decide)) m hm
  exact ⟨m, hm, queued, hr, hcons 2, haccepted, hconsumed,
    hpending (by decide) hpendsv hrunning hrequesting⟩

/-! ## The changes of the table -/

/-- The topmost call is about to store a change of an action that is no longer the one it has
read. -/
def Machine.splitChange {Q : Type} (m : Machine Q) : Bool :=
  m.next.any fun p =>
    p.2.change.any fun c => decide (c.2.apply p.1.action ≠ c.2.apply (m.actions c.1))

/-- The action with an index after changes, in order. -/
def actionAfter (i : ActionIndex) (cs : List (ActionIndex × Change)) : Sigaction :=
  (cs.filter fun c => c.1 = i).foldl (fun act c => c.2.apply act) .zero

/-- One more change. -/
theorem actionAfter_snoc (i j : ActionIndex) (cs : List (ActionIndex × Change)) (c : Change) :
    actionAfter i (cs ++ [(j, c)])
      = if j = i then c.apply (actionAfter i cs) else actionAfter i cs := by
  unfold actionAfter
  rw [List.filter_append, List.foldl_append, List.filter_singleton]
  split_ifs with h
  · simp [h]
  · simp [h]

/-- The table holds what the changes have made of it. -/
def TableFollows (m : Machine SignalQueue) : Prop := ∀ i, m.actions i = actionAfter i m.changes

/-- One event, unless it stores a stale action. -/
theorem TableFollows.step {m m' : Machine SignalQueue} {e : Event} (h : TableFollows m)
    (hsplit : e = .step → m.splitChange = false) (hstep : m.step arrayQueue e = some m') :
    TableFollows m' := by
  cases step_cases hstep with
  | call | enter => exact h
  | @access f a as fs hframes hrest hexit =>
      intro i
      show a.onActions f.action m.actions i = actionAfter i (m.changes ++ a.change.toList)
      cases a with
      | writeAction j change =>
          have hfalse := hsplit rfl
          unfold Machine.splitChange at hfalse
          rw [next_of_frames hframes hrest] at hfalse
          have hsame : change.apply f.action = change.apply (m.actions j) := by
            simpa [Access.change] using hfalse
          show Function.update m.actions j (change.apply f.action) i
            = actionAfter i (m.changes ++ [(j, change)])
          rw [actionAfter_snoc, hsame, Function.update_apply]
          by_cases hij : i = j
          · rw [if_pos hij, if_pos hij.symm, hij, h j]
          · rw [if_neg hij, if_neg (Ne.symm hij), h i]
      | load | storeOr | storeAndNot | storeValue | restore | request | fail | enqueue | dequeue
      | act | exit | poll | readAction =>
          show m.actions i = actionAfter i (m.changes ++ [])
          rw [List.append_nil]
          exact h i

/-- The change that an event asks for. -/
def Event.change : Event → Option (ActionIndex × Change)
  | .call c => c.change
  | .pendSvEnter | .step => none

/-- The changes that the calls in progress are still to make. -/
def Machine.toChange {Q : Type} (m : Machine Q) : List (ActionIndex × Change) :=
  m.frames.flatMap fun f => f.rest.filterMap Access.change

/-! ### The changes of a call -/

/-- A call makes the change that it asks for. -/
theorem filterMap_accesses (c : Call) : c.accesses.filterMap Access.change = c.change.toList := by
  have hcases := accesses_cases c
  generalize c.accesses = as at hcases ⊢
  cases hcases with
  | failed es hchange =>
      rw [hchange, List.filterMap_map]
      exact List.filterMap_eq_nil_iff.mpr fun _ _ => rfl
  | queued _ _ hchange | blocked _ hchange | replaced _ hchange | unblocked _ hchange
  | unsuspended hchange | suspended _ hchange | polled _ hchange | stored _ _ hchange
  | changed _ _ hchange =>
      rw [hchange]
      rfl

/-- What a call has left behind an access makes the changes that were left. -/
theorem filterMap_after {f : Frame} {a : Access} {as : List Access} (hshape : Shape (a :: as))
    (s : SigState SignalQueue) (t : SignalActions) :
    (f.after arrayQueue s t as a).rest.filterMap Access.change = as.filterMap Access.change := by
  cases a with
  | dequeue =>
      cases hshape with
      | call _ hplain _ => cases hplain _ List.mem_cons_self
      | take =>
          unfold Frame.after
          dsimp only
          cases (signalDequeue arrayQueue (~~~f.mask) s).1 <;> rfl
  | act info =>
      unfold Frame.after
      dsimp only
      split_ifs <;> rfl
  | load | storeOr | storeAndNot | storeValue | restore | request | fail | enqueue | exit | poll
  | readAction | writeAction => rfl

/-- What the calls on a stack are still to change. -/
theorem flatMap_push (f : Frame) (fs : List Frame) :
    (f.push fs).flatMap (fun g => g.rest.filterMap Access.change)
      = f.rest.filterMap Access.change ++ fs.flatMap fun g => g.rest.filterMap Access.change := by
  unfold Frame.push
  split_ifs with h
  · rw [h]
    rfl
  · rfl

/-- **The changes made**, and those that calls in progress are still to make, are the changes that
were asked for. -/
theorem changes_perm {m m' : Machine SignalQueue} {es : List Event} (hinv : MachineInv m)
    (hes : ∀ e ∈ es, e.Legal) (hrun : m.run arrayQueue es = some m') :
    (m.changes ++ m.toChange ++ es.filterMap Event.change).Perm (m'.changes ++ m'.toChange) := by
  -- induction on the events; only a call adds to what is still to be changed
  induction es generalizing m with
  | nil =>
      cases hrun
      simp
  | cons e es ih =>
      obtain ⟨m₁, hstep, hrest⟩ := Option.bind_eq_some_iff.mp hrun
      have hlater := ih (hinv.step (hes e List.mem_cons_self) hstep)
        (fun e' he' => hes e' (List.mem_cons_of_mem _ he')) hrest
      refine List.Perm.trans ?_ hlater
      cases step_cases hstep with
      | call c =>
          have hpush : ((Frame.enter c.accesses).push m.frames).flatMap
              (fun g => g.rest.filterMap Access.change) = c.change.toList ++ m.toChange := by
            rw [flatMap_push]
            exact congrArg (· ++ m.toChange) (filterMap_accesses c)
          show (m.changes ++ m.toChange ++ (Event.call c :: es).filterMap Event.change).Perm
            (m.changes ++ ((Frame.enter c.accesses).push m.frames).flatMap
              (fun g => g.rest.filterMap Access.change) ++ es.filterMap Event.change)
          rw [hpush]
          cases hc : c.change with
          | none => simp [Event.change, hc]
          | some x =>
              simp only [Event.change, hc, List.filterMap_cons, Option.toList_some,
                List.append_assoc]
              exact List.Perm.append_left _ List.perm_middle
      | enter => exact List.Perm.refl _
      | @access f a as fs hframes hrest' hexit =>
          have hshape := hinv.shape f (by rw [hframes]; exact List.mem_cons_self)
          rw [hrest'] at hshape
          have htop : m.toChange = (a :: as).filterMap Access.change
              ++ fs.flatMap fun g => g.rest.filterMap Access.change := by
            unfold Machine.toChange
            rw [hframes, List.flatMap_cons, hrest']
          show (m.changes ++ m.toChange ++ es.filterMap Event.change).Perm
            (m.changes ++ a.change.toList ++ ((f.after arrayQueue m.sig m.actions as a).push
              fs).flatMap (fun g => g.rest.filterMap Access.change) ++ es.filterMap Event.change)
          rw [flatMap_push, filterMap_after hshape, htop]
          cases hc : a.change with
          | none => simp [hc]
          | some x => simp [hc]

/-! ## What is done about a signal -/

/-- The signal that an access acts on. -/
def Access.acting : Access → Option SigInfo
  | .act info => some info
  | .load | .storeOr _ | .storeAndNot _ | .storeValue _ | .restore | .request | .fail _
  | .enqueue _ | .dequeue | .exit | .poll _ | .readAction _ | .writeAction _ _ => none

/-- The signal that the handler has taken and is about to act on. -/
def Frame.acting (f : Frame) : Option SigInfo := f.rest.head?.bind Access.acting

/-- `_exit` has been called. -/
def Machine.exited {Q : Type} (m : Machine Q) : Bool :=
  m.frames.any fun f => f.rest.head? = some .exit

/-- The handler is in progress once at most; it has acted on the signals it has taken, but for one
that it is about to act on; and `_exit` was called for the last of them, or for none. -/
structure Delivering (m : Machine SignalQueue) : Prop where
  single : (m.frames.filter Frame.running).length ≤ 1
  acted : m.acted.map Prod.fst = m.deliveries.map Prod.fst ++ m.frames.filterMap Frame.acting
  exited : (∃ f ∈ m.frames, f.rest.head? = some .exit) ↔ ∃ d ∈ m.deliveries, d.2 = .terminated
  last : ∀ d ∈ m.deliveries.dropLast, d.2 ≠ .terminated

theorem delivering_zero : Delivering (Machine.zero arrayQueue) := by
  constructor <;> simp [Machine.zero]

/-- A call that is not the handler acts on nothing and does not exit. -/
theorem Shape.of_not_running {f : Frame} (h : Shape f.rest) (hrun : f.running = false) :
    f.acting = none ∧ f.rest.head? ≠ some .exit := by
  unfold Frame.running at hrun
  rw [decide_eq_false_iff_not] at hrun
  unfold Frame.acting
  generalize f.rest = as at h hrun ⊢
  cases h with
  | @call as hne hplain hrequests =>
      rcases as with _ | ⟨a, as⟩
      · exact absurd rfl hne
      · have ha := hplain a List.mem_cons_self
        constructor
        · cases a with
          | act => cases ha
          | _ => rfl
        · intro hexit
          cases hexit
          cases ha
  | look | take | act | exit => simp [handlerLoop] at hrun

/-! ### The accesses of a delivery -/

/-- The handler stays the handler until it returns, and no other call becomes it. -/
theorem running_after {I : QueueImpl SignalQueue} {f : Frame} {a : Access} {as : List Access}
    (hrest : f.rest = a :: as) (s : SigState SignalQueue) (t : SignalActions) :
    (f.after I s t as a).rest = [] ∨ (f.after I s t as a).running = f.running := by
  unfold Frame.running
  rw [hrest]
  cases a with
  | dequeue =>
      unfold Frame.after
      dsimp only
      cases (signalDequeue I (~~~f.mask) s).1 with
      | none => exact .inl rfl
      | some info => exact .inr (by simp [handlerLoop])
  | act info =>
      unfold Frame.after
      dsimp only
      split_ifs <;> exact .inr (decide_eq_decide.mpr (by simp))
  | load | storeOr | storeAndNot | storeValue | restore | request | fail | enqueue | exit | poll
  | readAction | writeAction => exact .inr (decide_eq_decide.mpr (by simp [Frame.after]))

/-- What is on the stack behind an access of the topmost call. -/
theorem filter_push_after {I : QueueImpl SignalQueue} {f : Frame} {a : Access} {as : List Access}
    {fs : List Frame} (hrest : f.rest = a :: as) (s : SigState SignalQueue) (t : SignalActions) :
    (((f.after I s t as a).push fs).filter Frame.running).length
      ≤ ((f :: fs).filter Frame.running).length := by
  unfold Frame.push
  rcases running_after (I := I) hrest s t with hnil | hrun
  · rw [if_pos hnil, List.filter_cons]
    split_ifs
    · exact Nat.le_succ _
    · exact le_refl _
  · split_ifs
    · rw [List.filter_cons]
      split_ifs
      · exact Nat.le_succ _
      · exact le_refl _
    · rw [List.filter_cons, List.filter_cons, hrun]
      split_ifs <;> exact le_refl _

/-- Below the handler no call acts on a signal, and none exits. -/
theorem Delivering.below {m : Machine SignalQueue} (h : Delivering m) (hinv : MachineInv m)
    {f : Frame} {fs : List Frame} (hframes : m.frames = f :: fs) (hrun : f.running = true) :
    fs.filterMap Frame.acting = [] ∧ ∀ g ∈ fs, g.rest.head? ≠ some .exit := by
  have hsingle := h.single
  rw [hframes, List.filter_cons, if_pos hrun, List.length_cons] at hsingle
  have hnone : ∀ g ∈ fs, g.running = false := by
    intro g hg
    by_contra hne
    have hmem : g ∈ fs.filter Frame.running :=
      List.mem_filter.mpr ⟨hg, by simpa using hne⟩
    have := List.length_pos_of_mem hmem
    omega
  have hshape : ∀ g ∈ fs, Shape g.rest := by
    intro g hg
    refine hinv.shape g ?_
    rw [hframes]
    exact List.mem_cons_of_mem _ hg
  refine ⟨List.filterMap_eq_nil_iff.mpr fun g hg => ?_, fun g hg => ?_⟩
  · exact ((hshape g hg).of_not_running (hnone g hg)).1
  · exact ((hshape g hg).of_not_running (hnone g hg)).2

/-- Behind an access that is not the handler's own, the topmost call acts on nothing and does not
exit. -/
theorem after_plain {I : QueueImpl SignalQueue} {f : Frame} {a : Access} {as : List Access}
    (hshape : Shape (a :: as)) (ha : a.ofHandler = false) (s : SigState SignalQueue)
    (t : SignalActions) :
    (f.after I s t as a).acting = none ∧ (f.after I s t as a).rest.head? ≠ some .exit := by
  have hrest : (f.after I s t as a).rest = as := by
    cases a with
    | dequeue | act | exit => cases ha
    | load | storeOr | storeAndNot | storeValue | restore | request | fail | enqueue | poll
    | readAction | writeAction => rfl
  unfold Frame.acting
  rw [hrest]
  cases hshape with
  | call _ hplain _ =>
      rcases as with _ | ⟨b, bs⟩
      · exact ⟨rfl, by simp⟩
      · have hb := hplain b (List.mem_cons_of_mem _ List.mem_cons_self)
        constructor
        · cases b with
          | act => cases hb
          | _ => rfl
        · intro hexit
          cases hexit
          cases hb
  | look => exact ⟨rfl, by simp⟩
  | take | act | exit => cases ha

/-- What acts and what exits on the stack. -/
theorem acting_push (f : Frame) (fs : List Frame) :
    (f.push fs).filterMap Frame.acting = f.acting.toList ++ fs.filterMap Frame.acting ∧
      ((∃ g ∈ f.push fs, g.rest.head? = some .exit) ↔
        f.rest.head? = some .exit ∨ ∃ g ∈ fs, g.rest.head? = some .exit) := by
  unfold Frame.push
  split_ifs with h
  · simp [Frame.acting, h]
  · rw [List.filterMap_cons]
    constructor
    · cases f.acting <;> rfl
    · simp

/-! ### Steps and runs -/

/-- The topmost call is not in `_exit` as long as it has another access to make. -/
theorem head_ne_exit {f : Frame} {a : Access} {as : List Access} (hrest : f.rest = a :: as)
    (hexit : a ≠ .exit) : f.rest.head? ≠ some .exit := by
  rw [hrest]
  exact fun heq => hexit (Option.some.inj heq)

/-- What the topmost call is about to act on is in its next access. -/
theorem acting_of_rest {f : Frame} {a : Access} {as : List Access} (hrest : f.rest = a :: as) :
    f.acting = a.acting := by
  unfold Frame.acting
  rw [hrest]
  rfl

/-- An access that delivers nothing: what it takes out of the queue is what the handler is then
about to act on, and no call has come to `_exit`. -/
theorem Delivering.quiet {m : Machine SignalQueue} (h : Delivering m) {f : Frame} {a : Access}
    {as : List Access} {fs : List Frame} (hframes : m.frames = f :: fs) (hrest : f.rest = a :: as)
    (hexit : a ≠ .exit) (hdelivers : a.delivers m.actions = [])
    (hhead : (f.after arrayQueue m.sig m.actions as a).rest.head? ≠ some .exit)
    (hacts : a.acting.toList ++ fs.filterMap Frame.acting
        ++ (a.actsOn arrayQueue f.mask m.sig).map Prod.fst
      = (f.after arrayQueue m.sig m.actions as a).acting.toList ++ fs.filterMap Frame.acting) :
    Delivering (m.access arrayQueue f a as fs) := by
  obtain ⟨hpushed, hends⟩ := acting_push (f.after arrayQueue m.sig m.actions as a) fs
  have hsame : (m.access arrayQueue f a as fs).deliveries = m.deliveries := by
    show m.deliveries ++ a.delivers m.actions = m.deliveries
    rw [hdelivers, List.append_nil]
  constructor
  · refine (filter_push_after hrest m.sig m.actions).trans ?_
    rw [← hframes]
    exact h.single
  · rw [hsame]
    show (m.acted ++ a.actsOn arrayQueue f.mask m.sig).map Prod.fst = m.deliveries.map Prod.fst
      ++ ((f.after arrayQueue m.sig m.actions as a).push fs).filterMap Frame.acting
    have hbefore : m.frames.filterMap Frame.acting
        = a.acting.toList ++ fs.filterMap Frame.acting := by
      rw [hframes, List.filterMap_cons, acting_of_rest hrest]
      cases a.acting <;> rfl
    rw [hpushed, List.map_append, h.acted, hbefore, List.append_assoc, hacts]
  · rw [hsame]
    refine hends.trans ((or_congr_left (iff_of_false hhead (head_ne_exit hrest hexit))).trans ?_)
    rw [← h.exited, hframes]
    simp
  · rw [hsame]
    exact h.last

/-- `signal_act`: the handler comes to `_exit` exactly if the signal terminates the process. -/
theorem Delivering.acts {m : Machine SignalQueue} (h : Delivering m) (hinv : MachineInv m)
    {f : Frame} {info : SigInfo} {fs : List Frame} (hframes : m.frames = f :: fs)
    (hrest : f.rest = .act info :: handlerLoop) :
    Delivering (m.access arrayQueue f (.act info) handlerLoop fs) := by
  have hrun : f.running = true := by
    unfold Frame.running
    rw [hrest]
    simp [handlerLoop]
  obtain ⟨hbelow, hnone⟩ := h.below hinv hframes hrun
  obtain ⟨hpushed, hends⟩ :=
    acting_push (f.after arrayQueue m.sig m.actions handlerLoop (.act info)) fs
  have hacted := h.acted
  rw [hframes, List.filterMap_cons, acting_of_rest hrest, hbelow] at hacted
  -- nothing has ended the process yet, since the handler is not in `_exit`
  have hbefore : ∀ d ∈ m.deliveries, d.2 ≠ .terminated := by
    intro d hd hterm
    obtain ⟨g, hg, heq⟩ := h.exited.mpr ⟨d, hd, hterm⟩
    rw [hframes] at hg
    rcases List.mem_cons.mp hg with rfl | hg
    · exact head_ne_exit hrest Access.noConfusion heq
    · exact hnone g hg heq
  have hafter : (f.after arrayQueue m.sig m.actions handlerLoop (.act info)).rest
      = if signalAct m.actions info = .terminated then .exit :: handlerLoop
        else handlerLoop := rfl
  constructor
  · refine (filter_push_after hrest m.sig m.actions).trans ?_
    rw [← hframes]
    exact h.single
  · show (m.acted ++ []).map Prod.fst
      = (m.deliveries ++ [(info, signalAct m.actions info)]).map Prod.fst ++ ((f.after
        arrayQueue m.sig m.actions handlerLoop (.act info)).push fs).filterMap Frame.acting
    have hlast : (f.after arrayQueue m.sig m.actions handlerLoop (.act info)).acting = none := by
      unfold Frame.acting
      rw [hafter]
      split_ifs <;> rfl
    rw [hpushed, hbelow, hlast, List.append_nil, List.map_append, hacted]
    simp [Access.acting]
  · show (∃ g ∈ (f.after arrayQueue m.sig m.actions handlerLoop (.act info)).push fs,
      g.rest.head? = some .exit) ↔
        ∃ d ∈ m.deliveries ++ [(info, signalAct m.actions info)], d.2 = .terminated
    rw [hends, hafter]
    constructor
    · rintro (heq | ⟨g, hg, heq⟩)
      · refine ⟨_, List.mem_append_right _ (List.mem_singleton_self _), ?_⟩
        by_contra hne
        rw [if_neg hne] at heq
        cases heq
      · exact absurd heq (hnone g hg)
    · rintro ⟨d, hd, hterm⟩
      rcases List.mem_append.mp hd with hd | hd
      · exact absurd hterm (hbefore d hd)
      · rw [List.mem_singleton.mp hd] at hterm
        exact .inl (by rw [if_pos hterm]; rfl)
  · show ∀ d ∈ (m.deliveries ++ [(info, signalAct m.actions info)]).dropLast, _
    rw [List.dropLast_concat]
    exact hbefore

/-- One access keeps the invariant: the three accesses of the handler are the cases that matter. -/
theorem Delivering.access {m : Machine SignalQueue} (h : Delivering m) (hinv : MachineInv m)
    {f : Frame} {a : Access} {as : List Access} {fs : List Frame} (hframes : m.frames = f :: fs)
    (hrest : f.rest = a :: as) (hexit : a ≠ .exit) :
    Delivering (m.access arrayQueue f a as fs) := by
  have hshape := hinv.shape f (by rw [hframes]; exact List.mem_cons_self)
  rw [hrest] at hshape
  cases a with
  | dequeue =>
      have hrun : f.running = true := by
        unfold Frame.running
        rw [hrest]
        simp
      obtain ⟨hbelow, -⟩ := h.below hinv hframes hrun
      cases hd : (signalDequeue arrayQueue (~~~f.mask) m.sig).1 with
      | none =>
          have hafter : f.after arrayQueue m.sig m.actions as .dequeue = { f with rest := [] } := by
            simp only [Frame.after, hd]
          refine h.quiet hframes hrest hexit rfl (by rw [hafter]; simp) ?_
          rw [hafter, hbelow]
          simp [Access.actsOn, hd, Frame.acting, Access.acting]
      | some info =>
          have hafter : f.after arrayQueue m.sig m.actions as .dequeue
              = { f with rest := .act info :: handlerLoop } := by
            simp only [Frame.after, hd]
          refine h.quiet hframes hrest hexit rfl (by rw [hafter]; simp) ?_
          rw [hafter, hbelow]
          simp [Access.actsOn, hd, Frame.acting, Access.acting]
  | act info =>
      have has : as = handlerLoop := by
        cases hshape with
        | call _ hplain _ => cases hplain _ List.mem_cons_self
        | act => rfl
      subst has
      exact h.acts hinv hframes hrest
  | exit => exact absurd rfl hexit
  | load | storeOr | storeAndNot | storeValue | restore | request | fail | enqueue | poll
  | readAction | writeAction =>
      obtain ⟨hacting, hhead⟩ := after_plain (I := arrayQueue) (f := f) hshape rfl m.sig m.actions
      refine h.quiet hframes hrest hexit rfl hhead ?_
      rw [hacting]
      exact List.append_nil _

/-- One event keeps the invariant: the handler is entered only when it is not in progress. -/
theorem Delivering.step {m m' : Machine SignalQueue} {e : Event} (h : Delivering m)
    (hinv : MachineInv m) (hstep : m.step arrayQueue e = some m') : Delivering m' := by
  cases step_cases hstep with
  | call c =>
      -- a call that begins is not the handler
      have hplain : ∀ as, as = c.accesses → (Frame.enter as).running = false ∧
          (Frame.enter as).acting = none ∧ (Frame.enter as).rest.head? ≠ some .exit := by
        rintro as rfl
        have hrun : (Frame.enter c.accesses).running = false := by
          refine decide_eq_false fun hmem => ?_
          cases accesses_plain c _ hmem
        refine ⟨hrun, ?_⟩
        by_cases hne : c.accesses = []
        · simp [Frame.acting, Frame.enter, hne]
        · exact (Shape.call hne (accesses_plain c) (requests_accesses c)).of_not_running
            (f := Frame.enter c.accesses) hrun
      obtain ⟨hrun, hacting, hhead⟩ := hplain _ rfl
      obtain ⟨hpushed, hends⟩ := acting_push (Frame.enter c.accesses) m.frames
      refine ⟨?_, ?_, ?_, h.last⟩
      · show (((Frame.enter c.accesses).push m.frames).filter Frame.running).length ≤ 1
        unfold Frame.push
        split_ifs
        · exact h.single
        · rw [List.filter_cons, if_neg (by rw [hrun]; exact Bool.false_ne_true)]
          exact h.single
      · refine h.acted.trans (congrArg (m.deliveries.map Prod.fst ++ ·) ?_)
        refine Eq.symm (hpushed.trans ?_)
        rw [hacting]
        rfl
      · rw [← h.exited]
        exact hends.trans (or_iff_right hhead)
  | enter hpendsv hrunning =>
      have hnone : m.frames.filter Frame.running = [] := by
        rw [List.filter_eq_nil_iff]
        exact List.any_eq_false.mp hrunning
      refine ⟨?_, h.acted, ?_, h.last⟩
      · show ((Frame.enter handlerLoop :: m.frames).filter Frame.running).length ≤ 1
        rw [List.filter_cons, hnone]
        split_ifs <;> simp
      · rw [← h.exited]
        simp [Frame.enter, handlerLoop]
  | access hframes hrest hexit => exact h.access hinv hframes hrest hexit

/-- Every run keeps the invariant. -/
theorem delivering_run {m : Machine SignalQueue} {es : List Event} (hes : ∀ e ∈ es, e.Legal)
    (hrun : (Machine.zero arrayQueue).run arrayQueue es = some m) : Delivering m :=
  machineInv_zero.run_avoids (P := fun _ => false) (fun _ _ _ hinv hk _ hstep => hk.step hinv hstep)
    delivering_zero hes (avoids_false _ es) hrun

/-- **The action taken is the last one set.**  Each time the handler acts on a signal, the signal
has an entry of `signal_actions`, and what is done about it is what that entry says; the entry is
what the changes so far have made of it, unless a change has been stored over a stale action.
The changes are those that the calls of `sigaction`, `siginterrupt` and `sigignore` ask for.  The
handler acts on all signals it takes, in order, and on nothing else; a signal that it takes is not
in the mask, unless the mask has changed since it was loaded.  `_exit` is called exactly when a
signal is to terminate the process, and that signal is the last one. -/
theorem delivery_follows_last_action (es : List Event) (hes : ∀ e ∈ es, e.Legal)
    (m : Machine SignalQueue) (hm : (Machine.zero arrayQueue).run arrayQueue es = some m) :
    (∀ pre post m₁ f info, es = pre ++ .step :: post →
      (Machine.zero arrayQueue).run arrayQueue pre = some m₁ → m₁.next = some (f, .act info) →
      ∃ i m₂, actionIndex info.siSigno = some i ∧ m₁.step arrayQueue .step = some m₂ ∧
        m₂.run arrayQueue post = some m ∧
        m₂.deliveries = m₁.deliveries ++ [(info, (m₁.actions i).deliver info)] ∧
        (Machine.avoids arrayQueue Machine.splitChange (Machine.zero arrayQueue) pre = true →
          m₁.actions i = actionAfter i m₁.changes)) ∧
      (es.filterMap Event.change).Perm (m.changes ++ m.toChange) ∧
      m.acted.map Prod.fst = m.deliveries.map Prod.fst ++ m.frames.filterMap Frame.acting ∧
      (Machine.avoids arrayQueue Machine.splitTake (Machine.zero arrayQueue) es = true →
        ActedUnblocked m) ∧
      (m.exited = true ↔ ∃ d ∈ m.deliveries, d.2 = .terminated) ∧
      ∀ d ∈ m.deliveries.dropLast, d.2 ≠ .terminated := by
  have hdelivering := delivering_run hes hm
  refine ⟨?_, changes_perm machineInv_zero hes hm, hdelivering.acted,
    fun havoid => actedUnblocked_run hes havoid hm, ?_, hdelivering.last⟩
  · rintro pre post m₁ f info rfl hpre hnext
    have hes' : ∀ e ∈ pre, e.Legal := fun e he => hes e (List.mem_append_left _ he)
    have hinv := machineInv_zero.run hes' hpre
    obtain ⟨as, fs, hframes, hrest⟩ := frames_of_next hnext
    have hlegal := hinv.accesses f (by rw [hframes]; exact List.mem_cons_self) (.act info)
      (by rw [hrest]; exact List.mem_cons_self)
    obtain ⟨i, hi⟩ := IsSignal.exists_actionIndex hlegal
    have hstep := step_access (I := arrayQueue) hframes hrest (by simp)
    rw [Machine.run_append, hpre, Option.bind_some, Machine.run, hstep] at hm
    refine ⟨i, _, hi, hstep, hm, ?_, fun havoid => ?_⟩
    · show m₁.deliveries ++ [(info, signalAct m₁.actions info)] = _
      unfold signalAct
      rw [hi]
    · exact machineInv_zero.run_avoids (K := TableFollows)
        (fun _ _ _ _ hk hsplit hstep => hk.step hsplit hstep) (fun _ => rfl) hes' havoid hpre i
  · rw [← hdelivering.exited]
    simp [Machine.exited]

/-- In `waitRun` signal 3 is the one acted on, and it is ignored. -/
theorem delivery_follows_last_action_waitRun :
    ∃ m, (Machine.zero arrayQueue).run arrayQueue waitRun = some m ∧
      m.deliveries.map Prod.fst = [⟨3, siUser, getpid, 0⟩] ∧ ∃ m₁ m₂ i,
        (Machine.zero arrayQueue).run arrayQueue (waitRun.take 12) = some m₁ ∧
        m₁.step arrayQueue .step = some m₂ ∧ actionIndex 3 = some i ∧
        m₂.deliveries = [(⟨3, siUser, getpid, 0⟩,
          (actionAfter i m₁.changes).deliver ⟨3, siUser, getpid, 0⟩)] := by
  have hdata : ((Machine.zero arrayQueue).run arrayQueue waitRun).map
      (fun m => m.deliveries.map Prod.fst) = some [⟨3, siUser, getpid, 0⟩] := by decide
  have hmid : ((Machine.zero arrayQueue).run arrayQueue (waitRun.take 12)).map
      (fun m => (m.next.map Prod.snd, m.deliveries)) = some (some (.act ⟨3, siUser, getpid, 0⟩), []) := by
    decide
  obtain ⟨m, hm, hlast⟩ := Option.map_eq_some_iff.mp hdata
  obtain ⟨m₁, hm₁, hnext⟩ := Option.map_eq_some_iff.mp hmid
  obtain ⟨hnext, hempty⟩ := Prod.mk.inj hnext
  obtain ⟨⟨f, a⟩, hnext, ha⟩ := Option.map_eq_some_iff.mp hnext
  cases ha
  obtain ⟨i, m₂, hi, hstep, -, hdel, htable⟩ := (delivery_follows_last_action waitRun waitRun_legal
    m hm).1 (waitRun.take 12) (waitRun.drop 13) m₁ f _ rfl hm₁ hnext
  rw [htable (by decide), hempty] at hdel
  exact ⟨m, hm, hlast, m₁, m₂, i, hm₁, hstep, hi, hdel⟩

end Signal

end Nucleo
