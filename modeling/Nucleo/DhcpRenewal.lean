/-
# Renewals

What a step does to a client that is bound when it begins.  Both results are about
the first request of the step that is sent: before it nothing changes, and if the
wait for its answer fails, `dhcp_update_state_noresp` takes the client to `INIT`.

So the lease is dropped before its end when the answer to a renewal is lost
(`lease_kept`), and a further attempt of the same transaction then broadcasts a
`DHCPDISCOVER` on a socket that was made for the server alone
(`discover_broadcast_iff`).
-/
import Nucleo.DhcpLease

namespace Nucleo

namespace Dhcp

/-! ## The first request that is sent -/

/-- The attempts of a step from the first one whose request is sent. -/
def sentAttempts (as : List Attempt) : List Attempt := as.dropWhile fun a => a.sendRet < 0

/-- The wait of a round ends with an error of `recvfrom`, or with a reply that
`dhcp_check_options` refuses. -/
def replyLost (a : Attempt) (b : Binding) : Bool :=
  match roundReply a b with
  | none => false
  | some r => (handleRecv (sentBinding a b) r).1 ≠ 0

/-- A matching `DHCPNAK` is received. -/
def nakReceived : Action → Bool
  | .recvfrom _ b (.datagram d now) => IsReply b d now ∧ (d.parsed now).type = dhcpNak
  | _ => false

/-- The messages sent are no `DHCPDISCOVER`. -/
def NoDiscover (calls : List Action) : Prop :=
  ∀ sock b msg ret, Action.send sock b msg ret ∈ calls → messageType msg ≠ dhcpDiscover

theorem noDiscover_append {l l' : List Action} :
    NoDiscover (l ++ l') ↔ NoDiscover l ∧ NoDiscover l' := by
  unfold NoDiscover
  constructor
  · intro h
    exact ⟨fun sock b msg ret hm => h sock b msg ret (List.mem_append_left _ hm),
      fun sock b msg ret hm => h sock b msg ret (List.mem_append_right _ hm)⟩
  · rintro ⟨h, h'⟩ sock b msg ret hm
    rcases List.mem_append.mp hm with hm | hm
    · exact h sock b msg ret hm
    · exact h' sock b msg ret hm

/-- A request chosen in a bound state is no `DHCPDISCOVER`. -/
theorem noDiscover_sendCall {b : Binding} (hb : dhcpIsbound b = true) (sock : ℤ) (a : Attempt) :
    NoDiscover [sendCall sock a b] := by
  intro sock' b' msg ret hm
  cases List.mem_singleton.mp hm
  rw [messageType_bootpRequest, withXid_state]
  unfold dhcpIsbound at hb
  cases hs : b.state <;> rw [hs] at hb <;> first | decide | cases hb

theorem noDiscover_waitCalls (sock : ℤ) (a : Attempt) (b : Binding) :
    NoDiscover (waitCalls sock a b) := by
  intro sock' b' msg ret hm
  obtain ⟨r, hr⟩ := recvBootpReply_fst hm
  cases hr

theorem withXid_withXid {a a' : Attempt} {b : Binding} (hb : dhcpIsbound b = true) :
    withXid a' (withXid a b) = withXid a' b := by
  have hs : b.state ≠ .selecting := by
    intro hs
    rw [dhcpIsbound_of_selecting hs] at hb
    cases hb
  unfold withXid
  rw [if_pos hs, if_pos hs, if_pos hs]

/-- An attempt whose request was not sent leaves the next ones as they are. -/
theorem replyLost_withXid {a a' : Attempt} {b : Binding} (hb : dhcpIsbound b = true) :
    replyLost a' (withXid a b) = replyLost a' b := by
  unfold replyLost roundReply sentBinding
  rw [withXid_withXid hb]

theorem dhcpIsbound_withXid (a : Attempt) (b : Binding) :
    dhcpIsbound (withXid a b) = dhcpIsbound b := dhcpIsbound_congr (withXid_state a b)

/-- A bound client expects an acknowledgement once its request was sent. -/
theorem expectsAck_of_bound {a : Attempt} {b : Binding} (hb : dhcpIsbound b = true) :
    expectsAck (sentBinding a b).state = true ∧ dhcpIsbound (sentBinding a b) = true := by
  rw [sentBinding_eq]
  unfold dhcpIsbound at hb ⊢
  cases hs : b.state <;> rw [hs] at hb <;> first | exact ⟨rfl, rfl⟩ | cases hb

/-- A reply that a bound client takes keeps it bound, or is a refusal. -/
theorem bound_of_reply {a : Attempt} {b : Binding} {d : Datagram} {now : Timespec}
    (hb : dhcpIsbound b = true) (hret : (handleReply (sentBinding a b) d now).1 = 0) :
    dhcpIsbound (handleReply (sentBinding a b) d now).2 = true ∨
      (d.parsed now).type = dhcpNak := by
  obtain ⟨hack, hbound⟩ := expectsAck_of_bound (a := a) hb
  have hnosel : (sentBinding a b).state ≠ .selecting := by
    intro hs
    rw [hs] at hack
    cases hack
  have hcase := reply_cases (Or.inr hack) hret
  generalize (handleReply (sentBinding a b) d now).2 = b' at hcase ⊢
  cases hcase with
  | offer hs ht hc => exact absurd hs hnosel
  | stray hs ht => exact absurd hs hnosel
  | ack he ht hc => exact Or.inl rfl
  | nak he ht => exact Or.inr ht
  | ignored he hack hnak => exact Or.inl hbound

/-! ## The lease is kept -/

/-- The loop keeps a bound client bound when the answer to the first request that
is sent is not lost, or a refusal is received. -/
theorem attempts_kept {sock : ℤ} {as : List Attempt} {ret : ℤ} {b : Binding}
    (hb : dhcpIsbound b = true)
    (hlost : ∀ a ∈ (sentAttempts as).head?, replyLost a b = false)
    {ret' : ℤ} {b' : Binding} (hres : (bootpAttempts sock as ret b).2 = some (ret', b')) :
    dhcpIsbound b' = true ∨ ∃ e ∈ (bootpAttempts sock as ret b).1, nakReceived e = true := by
  induction as generalizing ret b with
  | nil =>
      cases hres
      exact Or.inl hb
  | cons a as ih =>
      have hcases := attempt_cases sock a b
      unfold bootpAttempts at hres ⊢
      generalize bootpAttempt sock a b = r at hcases hres ⊢
      obtain ⟨calls, out⟩ := r
      cases hcases with
      -- nothing was sent, so the first request is among the attempts that are left
      | unsent hsend =>
          have hrest : sentAttempts (a :: as) = sentAttempts as :=
            List.dropWhile_cons_of_pos (by simpa using hsend)
          rw [hrest] at hlost
          rcases ih (by rw [dhcpIsbound_withXid]; exact hb)
            (fun a' ha' => by rw [replyLost_withXid hb]; exact hlost a' ha') hres with h | ⟨e, he, h⟩
          · exact Or.inl h
          · exact Or.inr ⟨e, List.mem_append_right _ he, h⟩
      | waiting hsend hwait => cases hres
      | @refused r hsend hwait hret =>
          have hfirst : sentAttempts (a :: as) = a :: as :=
            List.dropWhile_cons_of_neg (by simpa using hsend)
          rw [hfirst] at hlost
          have hl := hlost a rfl
          unfold replyLost at hl
          rw [hwait] at hl
          exact absurd (of_decide_eq_false hl) (not_not.mpr hret)
      | @accepted d now hsend hwait hret =>
          cases hres
          -- an acknowledgement keeps the client bound, a refusal is in the trace
          rcases bound_of_reply hb hret with h | h
          · exact Or.inl h
          · refine Or.inr ⟨.recvfrom sock (sentBinding a b) (.datagram d now),
              List.mem_cons_of_mem _ (awaitReply_mem hwait), ?_⟩
            exact decide_eq_true ⟨awaitReply_isReply hwait, h⟩

/-- The step exchanges messages: its time has come and it gets its socket. -/
def StartsExchange (b : Binding) (i : StepInput) : Prop :=
  getDhcpNextEvent b i.clock = 0 ∧ 0 ≤ (bootpSocketCreate i.sockets b).2

instance (b : Binding) (i : StepInput) : Decidable (StartsExchange b i) :=
  inferInstanceAs (Decidable (_ ∧ _))

/-- The time `t` has come at `now`. -/
def reached (t now : Timespec) : Prop :=
  t.tvSec < now.tvSec ∨ t.tvSec = now.tvSec ∧ t.tvNsec ≤ now.tvNsec

instance (t now : Timespec) : Decidable (reached t now) := inferInstanceAs (Decidable (_ ∨ _ ∧ _))

/-- A client that is bound before the step is unbound after it only if a matching
`DHCPNAK` was received in the step or the step began at the end of the lease. -/
def LeaseKept (r : StepRecord) : Prop :=
  dhcpIsbound r.before = true → ∀ ret b, r.after = some (ret, b) → dhcpIsbound b = false →
    (∃ e ∈ r.calls, nakReceived e = true) ∨ reached r.before.leaseT2 r.input.clock

/-- Before the end of the lease, the answer to the first request that is sent is not
lost. -/
def RenewalAnswered (r : StepRecord) : Prop :=
  dhcpIsbound r.before = true → ¬ reached r.before.leaseT2 r.input.clock →
    StartsExchange r.before r.input →
      ∀ a ∈ (sentAttempts (List.ofFn r.input.attempts)).head?, replyLost a r.before = false

instance : DecidablePred RenewalAnswered := fun r =>
  inferInstanceAs (Decidable (dhcpIsbound r.before = true →
    ¬ reached r.before.leaseT2 r.input.clock → StartsExchange r.before r.input →
      ∀ a ∈ (sentAttempts (List.ofFn r.input.attempts)).head?, replyLost a r.before = false))

/-! ### The steps of a run -/

/-- The records of a run are steps. -/
theorem step_of_mem_dhcpRun {b : Binding} {is : List StepInput} {r : StepRecord}
    (h : r ∈ dhcpRun b is) : dhcpStep r.input r.before = (r.calls, r.after) := by
  induction is generalizing b with
  | nil => cases h
  | cons i is ih =>
      unfold dhcpRun at h
      dsimp only at h
      rcases List.mem_cons.mp h with rfl | h
      · rfl
      · split at h
        · cases h
        · exact ih h

/-- A step either leaves the binding alone, or its calls and its binding are those
of the loop, with the calls that make and close the socket around them. -/
theorem step_exchange (b : Binding) (i : StepInput) :
    (¬ StartsExchange b i ∧ (∃ ret, (dhcpStep i b).2 = some (ret, b)) ∧
      ∀ e ∈ (dhcpStep i b).1, e.isSend = false) ∨
    (StartsExchange b i ∧
      ∃ close, (close = [] ∨ close = [Action.close (bootpSocketCreate i.sockets b).2]) ∧
      (dhcpStep i b).1 = (bootpSocketCreate i.sockets b).1 ++
        (bootpAttempts (bootpSocketCreate i.sockets b).2 (List.ofFn i.attempts) 0 b).1 ++ close ∧
      ((dhcpStep i b).2.map Prod.snd
        = (bootpAttempts (bootpSocketCreate i.sockets b).2 (List.ofFn i.attempts) 0 b).2.map
            Prod.snd)) := by
  unfold StartsExchange dhcpStep bootpTransaction
  dsimp only
  by_cases hnext : getDhcpNextEvent b i.clock = 0
  · rw [if_pos hnext]
    by_cases hneg : (bootpSocketCreate i.sockets b).2 < 0
    · refine Or.inl ⟨fun h => absurd h.2 (by omega), ?_⟩
      rw [if_pos hneg]
      dsimp only
      have hne : (bootpSocketCreate i.sockets b).2 ≠ 0 := by omega
      rw [if_pos hne]
      exact ⟨⟨_, rfl⟩, fun e he => bootpSocketCreate_isSend he⟩
    · refine Or.inr ⟨⟨hnext, by omega⟩, ?_⟩
      rw [if_neg hneg]
      cases (bootpAttempts (bootpSocketCreate i.sockets b).2 (List.ofFn i.attempts) 0 b).2 with
      | none => exact ⟨[], Or.inl rfl, by simp, rfl⟩
      | some res =>
          obtain ⟨ret, b'⟩ := res
          dsimp only
          split_ifs <;> exact ⟨_, Or.inr rfl, rfl, rfl⟩
  · refine Or.inl ⟨fun h => hnext h.1, ?_⟩
    rw [if_neg hnext]
    refine ⟨⟨_, rfl⟩, ?_⟩
    intro e he
    cases he

/-- An acknowledgement with a lease of 100 seconds: T1 after 50, T2 after 88. -/
def leaseAck : Datagram :=
  exampleReply exampleXid exampleClient
    (optIpAddressLeaseTime :: 4 :: [0, 0, 0, 100] ++ exampleOptions dhcpAck [255, 255, 255, 0])
    fun _ => 0

/-- The client is bound, and renews its lease 60 seconds later. -/
def renewalRun (recvs : List Recv) : List StepInput :=
  [exampleStep timespecZero [.datagram exampleOffer timespecZero],
    exampleStep timespecZero [.datagram leaseAck timespecZero], exampleStep ⟨60, 0⟩ recvs]

/-- The third step of the run is a renewal of a bound client. -/
def renews (rs : List StepRecord) : Bool :=
  (rs[2]?).any fun r => dhcpIsbound r.before && decide (StartsExchange r.before r.input)

/-- The lease is dropped without a reason. -/
def leaseDropped (r : StepRecord) : Bool :=
  dhcpIsbound r.before && r.after.any (fun p => !dhcpIsbound p.2) &&
    !r.calls.any nakReceived && !decide (reached r.before.leaseT2 r.input.clock)

theorem not_leaseKept_of_dropped {r : StepRecord} (h : leaseDropped r = true) : ¬ LeaseKept r := by
  intro hkept
  unfold leaseDropped at h
  simp only [Bool.and_eq_true, Bool.not_eq_true', decide_eq_false_iff_not] at h
  obtain ⟨⟨⟨hb, hafter⟩, hnak⟩, hend⟩ := h
  cases hr : r.after with
  | none =>
      rw [hr] at hafter
      cases hafter
  | some p =>
      rw [hr, Option.any_some, Bool.not_eq_true'] at hafter
      rcases hkept hb p.1 p.2 hr hafter with ⟨e, he, hn⟩ | h
      · exact List.any_eq_false.mp hnak e he hn
      · exact hend h

/-- What the client has set up on a socket. -/
structure SockState where
  broadcast : Bool
  dest : Option InAddr
  deriving DecidableEq, Repr

/-- The effect of a call on one socket. -/
def sockAfter (sock : ℤ) (st : Option SockState) : Action → Option SockState
  | .socket ret => if ret = sock then some ⟨false, none⟩ else st
  | .setsockopt s opt ret =>
      if s = sock ∧ opt = .soBroadcast ∧ ret ≠ -1 then st.map fun st => { st with broadcast := true }
      else st
  | .connect s dest ret =>
      if s = sock ∧ ret ≠ -1 then st.map fun st => { st with dest := some dest } else st
  | .close s => if s = sock then none else st
  | .bind _ _ _ => st
  | .send _ _ _ _ => st
  | .recvfrom _ _ _ => st

/-- The socket after a list of calls. -/
def sockState (h : List Action) (sock : ℤ) : Option SockState := h.foldl (sockAfter sock) none

/-- A `DHCPDISCOVER` goes to the broadcast address on a socket that may broadcast. -/
def DiscoverBroadcast (h : List Action) : Action → Prop
  | .send sock _ msg _ =>
      messageType msg = dhcpDiscover → sockState h sock = some ⟨true, some inaddrBroadcast⟩
  | _ => True

/-! ### The calls of a transaction -/

/-- The calls of the loop are sends and receptions on its socket. -/
theorem bootpAttempts_calls {sock : ℤ} {as : List Attempt} {ret : ℤ} {b : Binding} {e : Action}
    (h : e ∈ (bootpAttempts sock as ret b).1) :
    (∃ b msg ret, e = .send sock b msg ret) ∨ ∃ b r, e = .recvfrom sock b r := by
  induction as generalizing ret b with
  | nil => cases h
  | cons a as ih =>
      have hround : ∀ e ∈ (bootpAttempt sock a b).1,
          (∃ b msg ret, e = .send sock b msg ret) ∨ ∃ b r, e = .recvfrom sock b r := by
        have hwait : ∀ e ∈ sendCall sock a b :: waitCalls sock a b,
            (∃ b msg ret, e = .send sock b msg ret) ∨ ∃ b r, e = .recvfrom sock b r := by
          intro e he
          rcases List.mem_cons.mp he with rfl | he
          · exact Or.inl ⟨_, _, _, rfl⟩
          · obtain ⟨r, rfl⟩ := recvBootpReply_fst he
            exact Or.inr ⟨_, r, rfl⟩
        have hcases := attempt_cases sock a b
        generalize bootpAttempt sock a b = r at hcases
        obtain ⟨calls, out⟩ := r
        intro e he
        cases hcases with
        | unsent hsend => exact Or.inl ⟨_, _, _, List.mem_singleton.mp he⟩
        | waiting hsend hw => exact hwait e he
        | refused hsend hw hret => exact hwait e he
        | accepted hsend hw hret => exact hwait e he
      unfold bootpAttempts at h
      generalize bootpAttempt sock a b = r at h hround
      obtain ⟨calls, out⟩ := r
      cases out with
      | waiting => exact hround e h
      | retry ret₁ b₁ =>
          rcases List.mem_append.mp h with h | h
          · exact hround e h
          · exact ih h
      | done b₁ => exact hround e h

/-- An attempt that is made sends. -/
theorem sendCall_mem_attempts {sock : ℤ} {a : Attempt} {as : List Attempt} {ret : ℤ}
    {b : Binding} : sendCall sock a b ∈ (bootpAttempts sock (a :: as) ret b).1 := by
  have hround : sendCall sock a b ∈ (bootpAttempt sock a b).1 := by
    have hcases := attempt_cases sock a b
    generalize bootpAttempt sock a b = r at hcases
    obtain ⟨calls, out⟩ := r
    cases hcases <;> exact List.mem_cons_self
  unfold bootpAttempts
  generalize bootpAttempt sock a b = r at hround
  obtain ⟨calls, out⟩ := r
  cases out with
  | waiting => exact hround
  | retry ret₁ b₁ => exact List.mem_append_left _ hround
  | done b₁ => exact hround

/-- Sends and receptions do not touch the socket. -/
theorem sockState_append_of_calls {h t : List Action} {sock : ℤ}
    (ht : ∀ e ∈ t, ∀ st, sockAfter sock st e = st) : sockState (h ++ t) sock = sockState h sock := by
  unfold sockState
  rw [List.foldl_append]
  generalize List.foldl (sockAfter sock) none h = st
  induction t generalizing st with
  | nil => rfl
  | cons e t ih =>
      rw [List.foldl_cons, ht e List.mem_cons_self]
      exact ih (fun e' he' => ht e' (List.mem_cons_of_mem _ he')) st

/-- The socket that `bootp_socket_create` returns. -/
theorem sockState_create {i : SocketInput} {b : Binding} (h : 0 ≤ (bootpSocketCreate i b).2) :
    sockState (bootpSocketCreate i b).1 (bootpSocketCreate i b).2
      = some (if b.state = .bound then ⟨false, some b.dhcpServer⟩
          else ⟨true, some inaddrBroadcast⟩) := by
  have hfail : ¬ 0 ≤ dhcpEsyscall := by decide
  unfold bootpSocketCreate closeAndFail at h ⊢
  dsimp only at h ⊢
  -- a call that fails makes the result negative; otherwise the options stand as set
  by_cases h1 : i.socket = -1
  · rw [if_pos h1] at h
    exact absurd h hfail
  by_cases h2 : i.rcvtimeo = -1
  · rw [if_neg h1, if_pos h2] at h
    exact absurd h hfail
  by_cases h3 : i.sndtimeo = -1
  · rw [if_neg h1, if_neg h2, if_pos h3] at h
    exact absurd h hfail
  by_cases h4 : i.bind = -1
  · rw [if_neg h1, if_neg h2, if_neg h3, if_pos h4] at h
    exact absurd h hfail
  rw [if_neg h1, if_neg h2, if_neg h3, if_neg h4] at h ⊢
  by_cases hs : b.state = .bound
  · rw [if_pos hs] at h ⊢
    rw [if_pos hs]
    by_cases h5 : i.connect = -1
    · rw [if_pos h5] at h
      exact absurd h hfail
    · rw [if_neg h5]
      simp [sockState, bindCalls, sockAfter, h5]
  · rw [if_neg hs] at h ⊢
    rw [if_neg hs]
    by_cases h6 : i.broadcast = -1
    · rw [if_pos h6] at h
      exact absurd h hfail
    by_cases h5 : i.connect = -1
    · rw [if_neg h6, if_pos h5] at h
      exact absurd h hfail
    · rw [if_neg h6, if_neg h5]
      simp [sockState, bindCalls, sockAfter, h5, h6]

/-- The loop of a bound client sends a `DHCPDISCOVER` exactly when the answer to the
first request that is sent is lost and an attempt is left. -/
theorem noDiscover_attempts_iff {sock : ℤ} {as : List Attempt} {ret : ℤ} {b : Binding}
    (hb : dhcpIsbound b = true) :
    NoDiscover (bootpAttempts sock as ret b).1 ↔
      ∀ a a' rest, sentAttempts as = a :: a' :: rest → replyLost a b = false := by
  -- induction on the attempts that are left
  induction as generalizing ret b with
  | nil =>
      refine ⟨fun _ a a' rest h => ?_, fun _ sock b msg ret h => ?_⟩
      · cases h
      · cases h
  | cons a as ih =>
      have hsend := noDiscover_sendCall hb sock a
      have hwait : NoDiscover (sendCall sock a b :: waitCalls sock a b) :=
        noDiscover_append.mpr ⟨hsend, noDiscover_waitCalls sock a b⟩
      have hcases := attempt_cases sock a b
      unfold bootpAttempts
      generalize bootpAttempt sock a b = r at hcases
      obtain ⟨calls, out⟩ := r
      cases hcases with
      -- nothing was sent: only the transaction id has changed
      | unsent hsent =>
          have hrest : sentAttempts (a :: as) = sentAttempts as :=
            List.dropWhile_cons_of_pos (by simpa using hsent)
          rw [hrest, noDiscover_append, and_iff_right hsend,
            ih (by rw [dhcpIsbound_withXid]; exact hb)]
          simp only [replyLost_withXid hb]
      | waiting hsent hw =>
          refine iff_of_true hwait ?_
          intro a₁ a' rest heq
          have hfirst : sentAttempts (a :: as) = a :: as :=
            List.dropWhile_cons_of_neg (by simpa using hsent)
          cases hfirst.symm.trans heq
          unfold replyLost
          rw [hw]
      | @refused r hsent hw hret =>
          have hfirst : sentAttempts (a :: as) = a :: as :=
            List.dropWhile_cons_of_neg (by simpa using hsent)
          have hlost : replyLost a b = true := by
            unfold replyLost
            rw [hw]
            exact decide_eq_true hret
          rw [hfirst, noDiscover_append, and_iff_right hwait]
          -- the answer is lost: with an attempt left, the next request is the discovery
          cases as with
          | nil =>
              refine iff_of_true ?_ ?_
              · intro sock b msg ret h
                cases h
              · intro a₁ a' rest heq
                cases heq
          | cons a' as =>
              refine iff_of_false ?_ ?_
              · intro hno
                have hmem : sendCall sock a' (dhcpUpdateStateNoresp
                    (handleRecv (sentBinding a b) r).2) ∈ (bootpAttempts sock (a' :: as)
                      (handleRecv (sentBinding a b) r).1 (dhcpUpdateStateNoresp
                        (handleRecv (sentBinding a b) r).2)).1 := sendCall_mem_attempts
                apply hno _ _ _ _ hmem
                rw [messageType_bootpRequest, withXid_state]
                rfl
              · intro h
                rw [h a a' as rfl] at hlost
                cases hlost
      | @accepted d now hsent hw hret =>
          refine iff_of_true hwait ?_
          intro a₁ a' rest heq
          have hfirst : sentAttempts (a :: as) = a :: as :=
            List.dropWhile_cons_of_neg (by simpa using hsent)
          cases hfirst.symm.trans heq
          unfold replyLost
          rw [hw]
          exact decide_eq_false (not_not.mpr hret)

/-! ### When it is broadcast -/

/-- In a step that begins bound, the answer to the first request that is sent is not
lost while an attempt is left. -/
def NoRetryAfterLoss (r : StepRecord) : Prop :=
  r.before.state = .bound → StartsExchange r.before r.input →
    ∀ a a' rest, sentAttempts (List.ofFn r.input.attempts) = a :: a' :: rest →
      replyLost a r.before = false

/-- The calls of the loop, after those that made its socket. -/
theorem along_attempts_iff {i : SocketInput} {b : Binding} (hi : 0 ≤ (bootpSocketCreate i b).2)
    (as : List Attempt) (ret : ℤ) :
    Trace.Along DiscoverBroadcast (bootpSocketCreate i b).1
        (bootpAttempts (bootpSocketCreate i b).2 as ret b).1 ↔
      (b.state = .bound → NoDiscover (bootpAttempts (bootpSocketCreate i b).2 as ret b).1) := by
  have hstate := sockState_create hi
  -- sends and receptions leave the options of the socket as `bootp_socket_create` set them
  have hkeep : ∀ pre post, (bootpAttempts (bootpSocketCreate i b).2 as ret b).1 = pre ++ post →
      sockState ((bootpSocketCreate i b).1 ++ pre) (bootpSocketCreate i b).2
        = sockState (bootpSocketCreate i b).1 (bootpSocketCreate i b).2 := by
    intro pre post heq
    apply sockState_append_of_calls
    intro e he st
    have hmem : e ∈ (bootpAttempts (bootpSocketCreate i b).2 as ret b).1 := by
      rw [heq]
      exact List.mem_append_left _ he
    rcases bootpAttempts_calls hmem with ⟨b', msg, ret', rfl⟩ | ⟨b', r, rfl⟩
    · rfl
    · rfl
  rw [Trace.along_iff]
  constructor
  · intro hal hs sock b' msg ret' hmem htype
    obtain ⟨pre, post, hsplit⟩ := List.append_of_mem hmem
    have hd := hal pre _ post hsplit htype
    rcases bootpAttempts_calls hmem with ⟨b'', msg', ret'', heq⟩ | ⟨b'', r, heq⟩
    · cases heq
      rw [hkeep pre _ hsplit, hstate, if_pos hs] at hd
      cases hd
    · cases heq
  · intro hno pre e post hsplit
    have hmem : e ∈ (bootpAttempts (bootpSocketCreate i b).2 as ret b).1 := by
      rw [hsplit]
      exact List.mem_append_right _ List.mem_cons_self
    rcases bootpAttempts_calls hmem with ⟨b', msg, ret', rfl⟩ | ⟨b', r, rfl⟩
    · intro htype
      by_cases hs : b.state = .bound
      · exact absurd htype (hno hs _ _ _ _ hmem)
      · rw [hkeep pre _ hsplit, hstate, if_neg hs]
    · trivial

/-- One step: its discoveries are broadcast exactly when no answer is lost in a step
that begins bound and has an attempt left. -/
theorem step_discover_broadcast_iff {r : StepRecord}
    (hstep : dhcpStep r.input r.before = (r.calls, r.after)) :
    Trace.Along DiscoverBroadcast [] r.calls ↔ NoRetryAfterLoss r := by
  -- only `send` can break the property
  have hother : ∀ {e : Action}, e.isSend = false → ∀ h, DiscoverBroadcast h e := by
    intro e he h
    cases e with
    | send sock b msg ret => cases he
    | socket ret => trivial
    | setsockopt sock opt ret => trivial
    | bind sock addr ret => trivial
    | connect sock dest ret => trivial
    | recvfrom sock b r => trivial
    | close sock => trivial
  have hex := step_exchange r.before r.input
  rw [hstep] at hex
  rcases hex with ⟨hno, -, hcalls⟩ | ⟨hstart, close, hclose, hcalls, -⟩
  · refine iff_of_true (Trace.along_of_forall (fun e he => hother (hcalls e he)) []) ?_
    intro _ hstart
    exact absurd hstart hno
  · have hcreate : Trace.Along DiscoverBroadcast []
        (bootpSocketCreate r.input.sockets r.before).1 :=
      Trace.along_of_forall (fun e he => hother (bootpSocketCreate_isSend he)) []
    have hlast : ∀ h, Trace.Along DiscoverBroadcast h close := by
      apply Trace.along_of_forall
      intro e he
      rcases hclose with rfl | rfl
      · cases he
      · cases List.mem_singleton.mp he
        exact hother rfl
    dsimp only at hcalls
    rw [hcalls, Trace.along_append, Trace.along_append, and_iff_left (hlast _),
      and_iff_right hcreate, List.nil_append, along_attempts_iff hstart.2]
    unfold NoRetryAfterLoss
    constructor
    · intro h hs _
      exact (noDiscover_attempts_iff (by unfold dhcpIsbound; rw [hs]; decide)).mp (h hs)
    · intro h hs
      exact (noDiscover_attempts_iff (by unfold dhcpIsbound; rw [hs]; decide)).mpr (h hs hstart)

/-- **Discovery is broadcast** in every step of a run exactly when no step that begins
bound goes on after a lost answer. -/
theorem discover_broadcast_iff (macAddr : Vector Byte dhcpMacAddrLen) (is : List StepInput) :
    (∀ r ∈ dhcpRun (dhcpInit macAddr) is, Trace.Along DiscoverBroadcast [] r.calls) ↔
      ∀ r ∈ dhcpRun (dhcpInit macAddr) is, NoRetryAfterLoss r := by
  constructor
  · intro h r hr
    exact (step_discover_broadcast_iff (step_of_mem_dhcpRun hr)).mp (h r hr)
  · intro h r hr
    exact (step_discover_broadcast_iff (step_of_mem_dhcpRun hr)).mpr (h r hr)

/-- A `DHCPDISCOVER` that is not broadcast, among the calls that follow `h`. -/
def unicastDiscover : List Action → List Action → Bool
  | _, [] => false
  | h, .send sock b msg ret :: t =>
      (messageType msg == dhcpDiscover &&
        sockState h sock != some ⟨true, some inaddrBroadcast⟩) ||
        unicastDiscover (h ++ [.send sock b msg ret]) t
  | h, e :: t => unicastDiscover (h ++ [e]) t

/-- The answer to the renewal is lost, and the next attempt sends a `DHCPDISCOVER` to
the server alone. -/
theorem lost_renewal_discover_unicast :
    ∃ r ∈ dhcpRun (dhcpInit exampleMac) (renewalRun [.failed]),
      ¬ Trace.Along DiscoverBroadcast [] r.calls := by
  have hsound : ∀ h t, unicastDiscover h t = true → ¬ Trace.Along DiscoverBroadcast h t := by
    intro h t
    induction t generalizing h with
    | nil => intro hd; cases hd
    | cons e t ih =>
        rintro hd ⟨hhead, htail⟩
        cases e with
        | send sock b msg ret =>
            rcases Bool.or_eq_true_iff.mp hd with hd | hd
            · obtain ⟨htype, hne⟩ := Bool.and_eq_true_iff.mp hd
              exact bne_iff_ne.mp hne (hhead (beq_iff_eq.mp htype))
            · exact ih _ hd htail
        | socket ret => exact ih _ hd htail
        | setsockopt sock opt ret => exact ih _ hd htail
        | bind sock addr ret => exact ih _ hd htail
        | connect sock dest ret => exact ih _ hd htail
        | recvfrom sock b r => exact ih _ hd htail
        | close sock => exact ih _ hd htail
  have hdec : (dhcpRun (dhcpInit exampleMac) (renewalRun [.failed])).any
      (fun r => unicastDiscover [] r.calls) = true := by
    decide +kernel
  obtain ⟨r, hr, hd⟩ := List.any_eq_true.mp hdec
  exact ⟨r, hr, hsound [] r.calls hd⟩

end Dhcp

end Nucleo
