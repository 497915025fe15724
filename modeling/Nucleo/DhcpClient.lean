/-
# The DHCP client: exchanges, transactions and steps

The state machine of `dhcp_client.c`.  What the environment answers is an input:
the results of the socket calls, the value of `rand()`, the clock readings and,
for each wait in `recv_bootp_reply`, the list of what `recvfrom` delivers.  When
that list runs out the client is still waiting, and the step does not return.

Every function also returns the calls it makes, in order.  An entry of this trace
holds, next to what the call gets and returns, the binding at the time of the call.

`awaitReply` is the part of `recv_bootp_reply` that only waits; `attempt_cases`
says what one round of the loop of `bootp_transaction` does, and every invariant
is derived from it.
-/
import Nucleo.Lib.Trace
import Nucleo.DhcpOptions

namespace Nucleo

namespace Dhcp

/-! ## What the environment does -/

/-- What a call of `recvfrom` delivers; `now` is the clock reading that parsing the
datagram makes. -/
inductive Recv
  | failed
  | datagram (d : Datagram) (now : Timespec)

/-- One round of the loop of `bootp_transaction`: the value of `rand()`, what the
message buffer holds, the value `send` returns, and what `recvfrom` delivers. -/
structure Attempt where
  rand : BitVec 32
  junk : ℕ → Byte
  sendRet : ℤ
  recvs : List Recv

/-- The values that the calls of `bootp_socket_create` return. -/
structure SocketInput where
  socket : ℤ
  rcvtimeo : ℤ
  sndtimeo : ℤ
  bind : ℤ
  broadcast : ℤ
  connect : ℤ

/-- `DHCP_DISCOVER_RETRIES`. -/
def dhcpDiscoverRetries : ℕ := 3

/-- What happens during one call of `dhcp_step`, with its two clock readings. -/
structure StepInput where
  clock : Timespec
  sockets : SocketInput
  attempts : Fin dhcpDiscoverRetries → Attempt
  clockAfter : Timespec

/-- The options set with `setsockopt`. -/
inductive SockOpt
  | soRcvtimeo | soSndtimeo | soBroadcast
  deriving DecidableEq, Repr

/-- A call to the socket layer.  `b` is the binding at the time of the call. -/
inductive Action
  | socket (ret : ℤ)
  | setsockopt (sock : ℤ) (opt : SockOpt) (ret : ℤ)
  | bind (sock : ℤ) (addr : InAddr) (ret : ℤ)
  | connect (sock : ℤ) (dest : InAddr) (ret : ℤ)
  | send (sock : ℤ) (b : Binding) (msg : List Byte) (ret : ℤ)
  | recvfrom (sock : ℤ) (b : Binding) (r : Recv)
  | close (sock : ℤ)

/-- If the call delivers a datagram, it satisfies `p`, with the binding at that time. -/
def Action.Delivers (p : Binding → Datagram → Timespec → Prop) : Action → Prop
  | .recvfrom _ b (.datagram d now) => p b d now
  | _ => True

instance (p : Binding → Datagram → Timespec → Prop) [∀ b d now, Decidable (p b d now)] :
    DecidablePred (Action.Delivers p) := fun e =>
  match e with
  | .recvfrom _ b (.datagram d now) => inferInstanceAs (Decidable (p b d now))
  | .recvfrom _ _ .failed => inferInstanceAs (Decidable True)
  | .socket _ => inferInstanceAs (Decidable True)
  | .setsockopt _ _ _ => inferInstanceAs (Decidable True)
  | .bind _ _ _ => inferInstanceAs (Decidable True)
  | .connect _ _ _ => inferInstanceAs (Decidable True)
  | .send _ _ _ _ => inferInstanceAs (Decidable True)
  | .close _ => inferInstanceAs (Decidable True)

/-! ## State transitions -/

/-- `dhcp_update_state_noresp`. -/
def dhcpUpdateStateNoresp (b : Binding) : Binding := { b with state := .init }

/-- The `switch` of `dhcp_update_state`. -/
def newstate (state : DhcpState) (type : Byte) : DhcpState :=
  match state with
  | .init => if type = dhcpDiscover then .selecting else state
  | .selecting => if type = dhcpRequest then .requesting else state
  | .requesting | .rebinding | .renewing | .rebooting =>
      if type = dhcpAck then .bound else if type = dhcpNak then .init else state
  | .bound => if type = dhcpRequest then .renewing else state
  | .initReboot => if type = dhcpRequest then .rebooting else state

/-- `dhcp_update_state`. -/
def dhcpUpdateState (b : Binding) (type : Byte) : Binding :=
  { b with state := newstate b.state type }

/-- `dhcp_isbound`. -/
def dhcpIsbound (b : Binding) : Bool :=
  b.state = .bound || b.state = .renewing || b.state = .rebinding

/-- `dhcp_init`. -/
def dhcpInit (macAddr : Vector Byte dhcpMacAddrLen) : Binding :=
  { Binding.zero with state := .init, macAddr := macAddr }

/-! ## Sending and receiving -/

/-- The binding with the `xid` that `send_bootp_request` uses. -/
def withXid (a : Attempt) (b : Binding) : Binding :=
  if b.state ≠ .selecting then { b with xid := genXid b.macAddr a.rand } else b

/-- `send_bootp_request`. -/
def sendBootpRequest (sock : ℤ) (a : Attempt) (b : Binding) : List Action × ℤ × Binding :=
  let b := withXid a b
  let call := Action.send sock b (bootpRequest a.junk b) a.sendRet
  if a.sendRet < 0 then ([call], dhcpEsyscall, b)
  else ([call], 0, dhcpUpdateState b (requestType b.state))

/-- The states in which `recv_bootp_reply` expects an acknowledgement. -/
def expectsAck (state : DhcpState) : Bool :=
  state = .requesting || state = .renewing || state = .rebinding || state = .rebooting

/-- What `recv_bootp_reply` stores from a reply, and its value of `ret`. -/
def storeReply (b : Binding) (yiaddr : InAddr) (type : Byte) (options : Binding) : ℤ × Binding :=
  let check := dhcpCheckOptions options
  if type = dhcpOffer ∧ b.state = .selecting then
    if check.1 = 0 then (check.1, { b with client := yiaddr, dhcpServer := check.2.dhcpServer })
    else (check.1, b)
  else if expectsAck b.state then
    if type = dhcpAck then
      (check.1, { b with
        client := yiaddr
        dhcpServer := check.2.dhcpServer
        gateway := check.2.gateway
        subnet := check.2.subnet
        dnsServer := check.2.dnsServer
        leaseT1 := check.2.leaseT1
        leaseT2 := check.2.leaseT2 })
    else if type = dhcpNak then (0, { b with client := inaddrAny, dhcpServer := inaddrAny })
    else (0, b)
  else (0, b)

/-- `recv_bootp_reply` on a reply for us. -/
def handleReply (b : Binding) (d : Datagram) (now : Timespec) : ℤ × Binding :=
  let s := d.parsed now
  let r := storeReply b d.yiaddr s.type s.options
  if r.1 = 0 then (r.1, dhcpUpdateState r.2 s.type) else r

/-- `recv_bootp_reply`; `none` when it is still waiting. -/
def recvBootpReply (sock : ℤ) : List Recv → Binding → List Action × Option (ℤ × Binding)
  | [], _ => ([], none)
  | .failed :: _, b => ([.recvfrom sock b .failed], some (dhcpEsyscall, b))
  | .datagram d now :: rs, b =>
      let call := Action.recvfrom sock b (.datagram d now)
      let again := recvBootpReply sock rs b
      if d.size = 0 then (call :: again.1, again.2)
      else if bootpCheckReply d.mem b.macAddr b.xid ≤ offsetOptions then (call :: again.1, again.2)
      else if (d.parsed now).lenError then (call :: again.1, again.2)
      else ([call], some (handleReply b d now))

/-! ## Transactions and steps -/

/-- `close(sock); return DHCP_ESYSCALL;` after the given calls. -/
def closeAndFail (calls : List Action) (sock : ℤ) : List Action × ℤ :=
  (calls ++ [.close sock], dhcpEsyscall)

/-- The calls of `bootp_socket_create` up to `bind`. -/
def bindCalls (i : SocketInput) (b : Binding) : List Action :=
  [.socket i.socket, .setsockopt i.socket .soRcvtimeo i.rcvtimeo,
    .setsockopt i.socket .soSndtimeo i.sndtimeo, .bind i.socket b.client i.bind]

/-- `bootp_socket_create`: the descriptor, or an error. -/
def bootpSocketCreate (i : SocketInput) (b : Binding) : List Action × ℤ :=
  if i.socket = -1 then ((bindCalls i b).take 1, dhcpEsyscall)
  else if i.rcvtimeo = -1 then closeAndFail ((bindCalls i b).take 2) i.socket
  else if i.sndtimeo = -1 then closeAndFail ((bindCalls i b).take 3) i.socket
  else if i.bind = -1 then closeAndFail (bindCalls i b) i.socket
  else if b.state = .bound then
    let calls := bindCalls i b ++ [.connect i.socket b.dhcpServer i.connect]
    if i.connect = -1 then closeAndFail calls i.socket else (calls, i.socket)
  else
    let calls := bindCalls i b ++ [.setsockopt i.socket .soBroadcast i.broadcast]
    if i.broadcast = -1 then closeAndFail calls i.socket
    else
      let calls := calls ++ [.connect i.socket inaddrBroadcast i.connect]
      if i.connect = -1 then closeAndFail calls i.socket else (calls, i.socket)

/-- How a round of the loop of `bootp_transaction` ends. -/
inductive Outcome
  | waiting
  | retry (ret : ℤ) (b : Binding)
  | done (b : Binding)

/-- The body of the loop of `bootp_transaction`. -/
def bootpAttempt (sock : ℤ) (a : Attempt) (b : Binding) : List Action × Outcome :=
  let sent := sendBootpRequest sock a b
  if sent.2.1 ≠ 0 then (sent.1, .retry sent.2.1 sent.2.2)
  else
    let got := recvBootpReply sock a.recvs sent.2.2
    match got.2 with
    | none => (sent.1 ++ got.1, .waiting)
    | some (ret, b) =>
        if ret ≠ 0 then (sent.1 ++ got.1, .retry ret (dhcpUpdateStateNoresp b))
        else (sent.1 ++ got.1, .done b)

/-- The loop of `bootp_transaction`, with the value of `ret`. -/
def bootpAttempts (sock : ℤ) : List Attempt → ℤ → Binding → List Action × Option (ℤ × Binding)
  | [], ret, b => ([], some (ret, b))
  | a :: as, _, b =>
      match bootpAttempt sock a b with
      | (calls, .waiting) => (calls, none)
      | (calls, .retry ret b) =>
          let rest := bootpAttempts sock as ret b
          (calls ++ rest.1, rest.2)
      | (calls, .done b) => (calls, some (0, b))

/-- `bootp_transaction`. -/
def bootpTransaction (i : StepInput) (b : Binding) : List Action × Option (ℤ × Binding) :=
  let created := bootpSocketCreate i.sockets b
  if created.2 < 0 then (created.1, some (created.2, b))
  else
    let r := bootpAttempts created.2 (List.ofFn i.attempts) 0 b
    match r.2 with
    | none => (created.1 ++ r.1, none)
    | some res => (created.1 ++ r.1 ++ [.close created.2], some res)

/-- `get_dhcp_next_event`, with the clock reading. -/
def getDhcpNextEvent (b : Binding) (now : Timespec) : ℤ :=
  match b.state with
  | .bound =>
      let diff := timespecDiff b.leaseT1 now
      if diff.2 ≤ 0 then 0 else diff.1.tvSec
  | .renewing =>
      let diff := timespecDiff b.leaseT2 now
      if diff.2 ≤ 0 then 0 else diff.1.tvSec
  | _ => 0

/-- `dhcp_step`: its calls, and the value it returns with the binding it leaves,
unless it is still waiting. -/
def dhcpStep (i : StepInput) (b : Binding) : List Action × Option (ℤ × Binding) :=
  let next := getDhcpNextEvent b i.clock
  if next = 0 then
    let r := bootpTransaction i b
    match r.2 with
    | none => (r.1, none)
    | some (ret, b') =>
        if ret ≠ 0 then (r.1, some (ret, b'))
        else (r.1, some (getDhcpNextEvent b' i.clockAfter, b'))
  else ([], some (next, b))

/-- A call of `dhcp_step` in a run. -/
structure StepRecord where
  before : Binding
  input : StepInput
  calls : List Action
  after : Option (ℤ × Binding)

/-- A run of `dhcp_step` calls.  A call that does not return is the last one. -/
def dhcpRun : Binding → List StepInput → List StepRecord
  | _, [] => []
  | b, i :: is =>
      let r := dhcpStep i b
      ⟨b, i, r.1, r.2⟩ ::
        match r.2 with
        | none => []
        | some (_, b') => dhcpRun b' is

/-! ## One wait -/

/-- A datagram that ends the wait: `bootp_check_reply` and `dhcp_parse_options`
accept it. -/
def IsReply (b : Binding) (d : Datagram) (now : Timespec) : Prop :=
  d.size ≠ 0 ∧ offsetOptions < bootpCheckReply d.mem b.macAddr b.xid ∧
    (d.parsed now).lenError = false

instance (b : Binding) (d : Datagram) (now : Timespec) : Decidable (IsReply b d now) :=
  inferInstanceAs (Decidable (d.size ≠ 0 ∧ offsetOptions < bootpCheckReply d.mem b.macAddr b.xid ∧
    (d.parsed now).lenError = false))

/-- What ends a wait. -/
def awaitReply (b : Binding) : List Recv → Option Recv
  | [] => none
  | .failed :: _ => some .failed
  | .datagram d now :: rs => if IsReply b d now then some (.datagram d now) else awaitReply b rs

/-- What `recv_bootp_reply` makes of it. -/
def handleRecv (b : Binding) : Recv → ℤ × Binding
  | .failed => (dhcpEsyscall, b)
  | .datagram d now => handleReply b d now

/-! ### The reply that ends it -/

/-- A datagram is handled as a reply. -/
theorem handleRecv_datagram (b : Binding) (d : Datagram) (now : Timespec) :
    handleRecv b (.datagram d now) = handleReply b d now := rfl

/-- `recv_bootp_reply` waits and then handles what ended the wait. -/
theorem recvBootpReply_snd (sock : ℤ) (rs : List Recv) (b : Binding) :
    (recvBootpReply sock rs b).2 = (awaitReply b rs).map (handleRecv b) := by
  induction rs with
  | nil => rfl
  | cons r rs ih =>
      cases r with
      | failed => rfl
      | datagram d now =>
          unfold recvBootpReply awaitReply
          by_cases hsize : d.size = 0
          · rw [if_pos hsize, if_neg (fun h => h.1 hsize)]
            exact ih
          by_cases hcheck : bootpCheckReply d.mem b.macAddr b.xid ≤ offsetOptions
          · rw [if_neg hsize, if_pos hcheck, if_neg (fun h => absurd h.2.1 (by omega))]
            exact ih
          by_cases hlen : (d.parsed now).lenError = true
          · rw [if_neg hsize, if_neg hcheck, if_pos hlen,
              if_neg (fun h => absurd hlen (by rw [h.2.2]; decide))]
            exact ih
          · rw [if_neg hsize, if_neg hcheck, if_neg hlen,
              if_pos ⟨hsize, by omega, by simpa using hlen⟩]
            rfl

/-- The calls of one wait are receptions with the same binding. -/
theorem recvBootpReply_fst {sock : ℤ} {rs : List Recv} {b : Binding} {e : Action}
    (h : e ∈ (recvBootpReply sock rs b).1) : ∃ r, e = .recvfrom sock b r := by
  induction rs with
  | nil => cases h
  | cons r rs ih =>
      cases r with
      | failed => exact ⟨_, List.mem_singleton.mp h⟩
      | datagram d now =>
          unfold recvBootpReply at h
          split_ifs at h
          · rcases List.mem_cons.mp h with h | h
            · exact ⟨_, h⟩
            · exact ih h
          · rcases List.mem_cons.mp h with h | h
            · exact ⟨_, h⟩
            · exact ih h
          · rcases List.mem_cons.mp h with h | h
            · exact ⟨_, h⟩
            · exact ih h
          · exact ⟨_, List.mem_singleton.mp h⟩

/-- What ends the wait is among its calls. -/
theorem awaitReply_mem {sock : ℤ} {rs : List Recv} {b : Binding} {r : Recv}
    (h : awaitReply b rs = some r) : Action.recvfrom sock b r ∈ (recvBootpReply sock rs b).1 := by
  induction rs with
  | nil => cases h
  | cons r' rs ih =>
      cases r' with
      | failed =>
          cases h
          exact List.mem_singleton.mpr rfl
      | datagram d now =>
          unfold awaitReply at h
          unfold recvBootpReply
          split_ifs at h
          · cases h
            split_ifs <;> exact List.mem_cons_self
          · have hmem := ih h
            split_ifs with h1 h2 h3
            · exact List.mem_cons_of_mem _ hmem
            · exact List.mem_cons_of_mem _ hmem
            · exact List.mem_cons_of_mem _ hmem
            · rename_i hnot
              exact absurd ⟨h1, by omega, by simpa using h3⟩ hnot

/-- A datagram that ends the wait is a reply. -/
theorem awaitReply_isReply {rs : List Recv} {b : Binding} {d : Datagram} {now : Timespec}
    (h : awaitReply b rs = some (.datagram d now)) : IsReply b d now := by
  induction rs with
  | nil => cases h
  | cons r rs ih =>
      cases r with
      | failed => cases h
      | datagram d' now' =>
          unfold awaitReply at h
          split_ifs at h with hr
          · cases h
            exact hr
          · exact ih h

/-! ## One round -/

/-- The binding after a request was sent. -/
def sentBinding (a : Attempt) (b : Binding) : Binding :=
  dhcpUpdateState (withXid a b) (requestType (withXid a b).state)

/-- The call of `send` in a round. -/
def sendCall (sock : ℤ) (a : Attempt) (b : Binding) : Action :=
  .send sock (withXid a b) (bootpRequest a.junk (withXid a b)) a.sendRet

/-- The calls that follow a request that was sent. -/
def waitCalls (sock : ℤ) (a : Attempt) (b : Binding) : List Action :=
  (recvBootpReply sock a.recvs (sentBinding a b)).1

/-- What ends the wait of a round. -/
def roundReply (a : Attempt) (b : Binding) : Option Recv := awaitReply (sentBinding a b) a.recvs

/-- The ways a round of the loop of `bootp_transaction` can go. -/
inductive AttemptCases (sock : ℤ) (a : Attempt) (b : Binding) : List Action → Outcome → Prop
  | unsent (hsend : a.sendRet < 0) :
      AttemptCases sock a b [sendCall sock a b] (.retry dhcpEsyscall (withXid a b))
  | waiting (hsend : 0 ≤ a.sendRet) (hwait : roundReply a b = none) :
      AttemptCases sock a b (sendCall sock a b :: waitCalls sock a b) .waiting
  | refused {r : Recv} (hsend : 0 ≤ a.sendRet) (hwait : roundReply a b = some r)
      (hret : (handleRecv (sentBinding a b) r).1 ≠ 0) :
      AttemptCases sock a b (sendCall sock a b :: waitCalls sock a b)
        (.retry (handleRecv (sentBinding a b) r).1
          (dhcpUpdateStateNoresp (handleRecv (sentBinding a b) r).2))
  | accepted {d : Datagram} {now : Timespec} (hsend : 0 ≤ a.sendRet)
      (hwait : roundReply a b = some (.datagram d now))
      (hret : (handleReply (sentBinding a b) d now).1 = 0) :
      AttemptCases sock a b (sendCall sock a b :: waitCalls sock a b)
        (.done (handleReply (sentBinding a b) d now).2)

/-- A request that is not sent is tried again. -/
theorem bootpAttempt_of_unsent (sock : ℤ) {a : Attempt} (b : Binding) (h : a.sendRet < 0) :
    bootpAttempt sock a b = ([sendCall sock a b], .retry dhcpEsyscall (withXid a b)) := by
  unfold bootpAttempt sendBootpRequest
  simp only [if_pos h]
  rw [if_pos (by decide)]
  rfl

/-- A round in which the request was sent, by what ends its wait. -/
theorem bootpAttempt_of_sent (sock : ℤ) {a : Attempt} (b : Binding) (h : 0 ≤ a.sendRet) :
    bootpAttempt sock a b
      = (sendCall sock a b :: waitCalls sock a b,
          match (roundReply a b).map (handleRecv (sentBinding a b)) with
          | none => .waiting
          | some res =>
              if res.1 ≠ 0 then .retry res.1 (dhcpUpdateStateNoresp res.2) else .done res.2) := by
  have hgot := recvBootpReply_snd sock a.recvs (sentBinding a b)
  have hsent : sendBootpRequest sock a b = ([sendCall sock a b], 0, sentBinding a b) := by
    unfold sendBootpRequest
    simp only [if_neg (not_lt.mpr h)]
    rfl
  unfold bootpAttempt
  simp only [hsent, hgot, ne_eq, not_true_eq_false, if_false]
  unfold roundReply
  cases (awaitReply (sentBinding a b) a.recvs).map (handleRecv (sentBinding a b)) with
  | none => rfl
  | some res =>
      obtain ⟨ret, b'⟩ := res
      dsimp only
      split_ifs <;> rfl

/-- **One round.** -/
theorem attempt_cases (sock : ℤ) (a : Attempt) (b : Binding) :
    AttemptCases sock a b (bootpAttempt sock a b).1 (bootpAttempt sock a b).2 := by
  by_cases hsend : a.sendRet < 0
  · rw [bootpAttempt_of_unsent sock b hsend]
    exact AttemptCases.unsent hsend
  · have hsend' : 0 ≤ a.sendRet := not_lt.mp hsend
    rw [bootpAttempt_of_sent sock b hsend']
    cases hwait : roundReply a b with
    | none => exact AttemptCases.waiting hsend' hwait
    | some r =>
        simp only [Option.map_some]
        by_cases hret : (handleRecv (sentBinding a b) r).1 ≠ 0
        · rw [if_pos hret]
          exact AttemptCases.refused hsend' hwait hret
        · rw [if_neg hret]
          rw [not_not] at hret
          cases r with
          | failed => simp [handleRecv, dhcpEsyscall] at hret
          | datagram d now =>
              rw [handleRecv_datagram] at hret ⊢
              exact AttemptCases.accepted hsend' hwait hret

/-! ## What a reply does to the binding -/

/-- The state after a request was sent. -/
def sentState : DhcpState → DhcpState
  | .init => .selecting
  | .selecting => .requesting
  | .bound => .renewing
  | .initReboot => .rebooting
  | state => state

/-- The state after a request is that of its type. -/
theorem newstate_requestType (state : DhcpState) :
    newstate state (requestType state) = sentState state := by
  cases state <;> decide

/-- A new identifier leaves the state. -/
@[simp] theorem withXid_state (a : Attempt) (b : Binding) : (withXid a b).state = b.state := by
  unfold withXid
  split <;> rfl

/-- Sending changes the state. -/
theorem sentBinding_eq (a : Attempt) (b : Binding) :
    sentBinding a b = { withXid a b with state := sentState b.state } := by
  unfold sentBinding dhcpUpdateState
  rw [newstate_requestType, withXid_state]

/-- The states in which `recv_bootp_reply` is called. -/
theorem sentState_cases (state : DhcpState) :
    sentState state = .selecting ∨ expectsAck (sentState state) = true := by
  cases state <;> decide

/-- It leads to one that waits for a reply. -/
theorem sentBinding_state (a : Attempt) (b : Binding) :
    (sentBinding a b).state = .selecting ∨ expectsAck (sentBinding a b).state = true := by
  rw [sentBinding_eq]
  exact sentState_cases b.state

/-- What a reply that `recv_bootp_reply` returns 0 for does. -/
inductive ReplyCases (b : Binding) (d : Datagram) (now : Timespec) : Binding → Prop
  | offer (hs : b.state = .selecting) (ht : (d.parsed now).type = dhcpOffer)
      (hc : (dhcpCheckOptions (d.parsed now).options).1 = 0) :
      ReplyCases b d now
        { b with client := d.yiaddr, dhcpServer := (d.parsed now).options.dhcpServer }
  | stray (hs : b.state = .selecting) (ht : (d.parsed now).type ≠ dhcpOffer) :
      ReplyCases b d now (dhcpUpdateState b (d.parsed now).type)
  | ack (he : expectsAck b.state = true) (ht : (d.parsed now).type = dhcpAck)
      (hc : (dhcpCheckOptions (d.parsed now).options).1 = 0) :
      ReplyCases b d now
        { b with
          state := .bound
          client := d.yiaddr
          dhcpServer := (dhcpCheckOptions (d.parsed now).options).2.dhcpServer
          gateway := (dhcpCheckOptions (d.parsed now).options).2.gateway
          subnet := (dhcpCheckOptions (d.parsed now).options).2.subnet
          dnsServer := (dhcpCheckOptions (d.parsed now).options).2.dnsServer
          leaseT1 := (dhcpCheckOptions (d.parsed now).options).2.leaseT1
          leaseT2 := (dhcpCheckOptions (d.parsed now).options).2.leaseT2 }
  | nak (he : expectsAck b.state = true) (ht : (d.parsed now).type = dhcpNak) :
      ReplyCases b d now { b with state := .init, client := inaddrAny, dhcpServer := inaddrAny }
  | ignored (he : expectsAck b.state = true) (hack : (d.parsed now).type ≠ dhcpAck)
      (hnak : (d.parsed now).type ≠ dhcpNak) : ReplyCases b d now b

/-- A state that expects an acknowledgement, after a message. -/
theorem newstate_of_expectsAck {state : DhcpState} (h : expectsAck state = true) (type : Byte) :
    newstate state type
      = if type = dhcpAck then .bound else if type = dhcpNak then .init else state := by
  cases state with
  | requesting => rfl
  | rebooting => rfl
  | renewing => rfl
  | rebinding => rfl
  | init => cases h
  | selecting => cases h
  | bound => cases h
  | initReboot => cases h

/-- A reply that is handled with the value 0. -/
theorem handleReply_of_store {b : Binding} {d : Datagram} {now : Timespec} {ret : ℤ} {b' : Binding}
    (h : storeReply b d.yiaddr (d.parsed now).type (d.parsed now).options = (ret, b'))
    (hret : (handleReply b d now).1 = 0) :
    ret = 0 ∧ (handleReply b d now).2 = dhcpUpdateState b' (d.parsed now).type := by
  unfold handleReply at hret ⊢
  simp only [h] at hret ⊢
  by_cases hz : ret = 0
  · rw [if_pos hz]
    exact ⟨hz, rfl⟩
  · rw [if_neg hz] at hret
    exact absurd hret hz

/-- **What a reply does**. -/
theorem reply_cases {b : Binding} {d : Datagram} {now : Timespec}
    (hstate : b.state = .selecting ∨ expectsAck b.state = true)
    (hret : (handleReply b d now).1 = 0) : ReplyCases b d now (handleReply b d now).2 := by
  obtain ⟨hserver, -⟩ := dhcpCheckOptions_fields (d.parsed now).options
  rcases hstate with hs | he
  -- in SELECTING only an offer is taken
  · by_cases ht : (d.parsed now).type = dhcpOffer
    · by_cases hc : (dhcpCheckOptions (d.parsed now).options).1 = 0
      · obtain ⟨-, heq⟩ := handleReply_of_store (by
          unfold storeReply
          rw [if_pos ⟨ht, hs⟩, if_pos hc]) hret
        have hkeep : newstate .selecting dhcpOffer = .selecting := by decide
        rw [heq, ht, hserver]
        unfold dhcpUpdateState
        simp only [hs, hkeep]
        rw [← hs]
        exact ReplyCases.offer hs ht hc
      · obtain ⟨hz, -⟩ := handleReply_of_store (by
          unfold storeReply
          rw [if_pos ⟨ht, hs⟩, if_neg hc]) hret
        exact absurd hz hc
    · have hnoack : ¬ expectsAck b.state = true := by
        rw [hs]
        decide
      obtain ⟨-, heq⟩ := handleReply_of_store (by
        unfold storeReply
        rw [if_neg (fun h => ht h.1), if_neg hnoack]) hret
      rw [heq]
      exact ReplyCases.stray hs ht
  -- where an acknowledgement is expected, type by type
  · have hnosel : ¬ b.state = .selecting := by
      intro hs
      rw [hs] at he
      cases he
    by_cases hack : (d.parsed now).type = dhcpAck
    · obtain ⟨hz, heq⟩ := handleReply_of_store (by
        unfold storeReply
        rw [if_neg (fun h => hnosel h.2), if_pos he, if_pos hack]) hret
      rw [heq]
      unfold dhcpUpdateState
      simp only [newstate_of_expectsAck he, if_pos hack]
      exact ReplyCases.ack he hack hz
    · by_cases hnak : (d.parsed now).type = dhcpNak
      · obtain ⟨-, heq⟩ := handleReply_of_store (by
          unfold storeReply
          rw [if_neg (fun h => hnosel h.2), if_pos he, if_neg hack, if_pos hnak]) hret
        rw [heq]
        unfold dhcpUpdateState
        simp only [newstate_of_expectsAck he, if_neg hack, if_pos hnak]
        exact ReplyCases.nak he hnak
      · obtain ⟨-, heq⟩ := handleReply_of_store (by
          unfold storeReply
          rw [if_neg (fun h => hnosel h.2), if_pos he, if_neg hack, if_neg hnak]) hret
        rw [heq]
        unfold dhcpUpdateState
        rw [newstate_of_expectsAck he, if_neg hack, if_neg hnak]
        exact ReplyCases.ignored he hack hnak

/-! ## Invariants of whole runs -/

/-- The call sends a message. -/
def Action.isSend : Action → Bool
  | .send _ _ _ _ => true
  | _ => false

/-- A property `P` of the calls so far and the binding that every round keeps, and
that lets every request stand in `S` to the calls before it. -/
structure RoundInvariant (P : List Action → Binding → Prop) (S : List Action → Action → Prop) :
    Prop where
  mono : ∀ {h b}, P h b → ∀ h', P (h ++ h') b
  round : ∀ {sock a h b calls out}, P h b → AttemptCases sock a b calls out →
    ∀ b', (out = .done b' ∨ ∃ ret, out = .retry ret b') → P (h ++ calls) b'
  sent : ∀ {h b}, P h b → ∀ sock a, S h (sendCall sock a b)
  other : ∀ {e : Action}, e.isSend = false → ∀ h, S h e

variable {P : List Action → Binding → Prop} {S : List Action → Action → Prop}

/-- The calls of a round: only the first one sends. -/
theorem RoundInvariant.along_round (hI : RoundInvariant P S) {sock : ℤ} {a : Attempt}
    {h calls : List Action} {b : Binding} {out : Outcome} (hP : P h b)
    (hcases : AttemptCases sock a b calls out) : Trace.Along S h calls := by
  have hwait : Trace.Along S h (sendCall sock a b :: waitCalls sock a b) := by
    refine ⟨hI.sent hP sock a, Trace.along_of_forall ?_ _⟩
    intro e he
    obtain ⟨r, rfl⟩ := recvBootpReply_fst he
    exact hI.other rfl
  cases hcases with
  | unsent hsend => exact ⟨hI.sent hP sock a, trivial⟩
  | waiting hsend hw => exact hwait
  | refused hsend hw hret => exact hwait
  | accepted hsend hw hret => exact hwait

/-- The loop, by induction over the attempts that are left. -/
theorem RoundInvariant.attempts (hI : RoundInvariant P S) (sock : ℤ) (as : List Attempt) (ret : ℤ)
    {h : List Action} {b : Binding} (hP : P h b) :
    Trace.Along S h (bootpAttempts sock as ret b).1 ∧
      ∀ ret' b', (bootpAttempts sock as ret b).2 = some (ret', b') →
        P (h ++ (bootpAttempts sock as ret b).1) b' := by
  induction as generalizing ret h b with
  | nil =>
      refine ⟨trivial, ?_⟩
      intro ret' b' heq
      cases heq
      exact hI.mono hP _
  | cons a as ih =>
      have hcases := attempt_cases sock a b
      have halong : Trace.Along S h (bootpAttempt sock a b).1 := hI.along_round hP hcases
      unfold bootpAttempts
      cases hr : bootpAttempt sock a b with
      | mk calls out =>
          rw [hr] at hcases halong
          cases out with
          | waiting =>
              refine ⟨halong, ?_⟩
              intro ret' b' heq
              cases heq
          | retry ret₁ b₁ =>
              obtain ⟨hrest, hafter⟩ :=
                ih ret₁ (hI.round hP hcases b₁ (Or.inr ⟨ret₁, rfl⟩))
              refine ⟨Trace.along_append.mpr ⟨halong, hrest⟩, ?_⟩
              intro ret' b' heq
              rw [← List.append_assoc]
              exact hafter ret' b' heq
          | done b₁ =>
              refine ⟨halong, ?_⟩
              intro ret' b' heq
              cases heq
              exact hI.round hP hcases b₁ (Or.inl rfl)

/-- `bootp_socket_create` sends nothing. -/
theorem bootpSocketCreate_isSend {i : SocketInput} {b : Binding} {e : Action}
    (h : e ∈ (bootpSocketCreate i b).1) : e.isSend = false := by
  have hbind : ∀ e ∈ bindCalls i b, e.isSend = false := by
    simp [bindCalls, Action.isSend]
  unfold bootpSocketCreate closeAndFail at h
  dsimp only at h
  -- one exit per call that can fail; each only adds `close`
  split_ifs at h <;> simp only [List.mem_append, List.mem_singleton] at h
  · exact hbind e (List.mem_of_mem_take h)
  · rcases h with h | rfl
    · exact hbind e (List.mem_of_mem_take h)
    · rfl
  · rcases h with h | rfl
    · exact hbind e (List.mem_of_mem_take h)
    · rfl
  · rcases h with h | rfl
    · exact hbind e h
    · rfl
  · rcases h with (h | rfl) | rfl
    · exact hbind e h
    · rfl
    · rfl
  · rcases h with h | rfl
    · exact hbind e h
    · rfl
  · rcases h with (h | rfl) | rfl
    · exact hbind e h
    · rfl
    · rfl
  · rcases h with ((h | rfl) | rfl) | rfl
    · exact hbind e h
    · rfl
    · rfl
    · rfl
  · rcases h with (h | rfl) | rfl
    · exact hbind e h
    · rfl
    · rfl

/-- What every round keeps a transaction keeps. -/
theorem RoundInvariant.transaction (hI : RoundInvariant P S) {i : StepInput} {h : List Action}
    {b : Binding} (hP : P h b) :
    Trace.Along S h (bootpTransaction i b).1 ∧
      ∀ ret b', (bootpTransaction i b).2 = some (ret, b') →
        P (h ++ (bootpTransaction i b).1) b' := by
  have hcreate : ∀ h, Trace.Along S h (bootpSocketCreate i.sockets b).1 :=
    Trace.along_of_forall fun e he => hI.other (bootpSocketCreate_isSend he)
  unfold bootpTransaction
  dsimp only
  split_ifs with hneg
  · refine ⟨hcreate h, ?_⟩
    intro ret b' heq
    cases heq
    exact hI.mono hP _
  · obtain ⟨halong, hafter⟩ := hI.attempts (bootpSocketCreate i.sockets b).2
      (List.ofFn i.attempts) 0 (hI.mono hP (bootpSocketCreate i.sockets b).1)
    split
    · rename_i hr
      refine ⟨Trace.along_append.mpr ⟨hcreate h, halong⟩, ?_⟩
      intro ret b' heq
      cases heq
    · rename_i res hr
      refine ⟨Trace.along_append.mpr ⟨Trace.along_append.mpr ⟨hcreate h, halong⟩, ?_⟩, ?_⟩
      · exact ⟨hI.other rfl _, trivial⟩
      · intro ret b' heq
        cases heq
        have hP' := hI.mono (hafter ret b' hr) [.close (bootpSocketCreate i.sockets b).2]
        rw [List.append_assoc h, List.append_assoc h] at hP'
        exact hP'

theorem RoundInvariant.step (hI : RoundInvariant P S) {i : StepInput} {h : List Action}
    {b : Binding} (hP : P h b) :
    Trace.Along S h (dhcpStep i b).1 ∧
      ∀ ret b', (dhcpStep i b).2 = some (ret, b') → P (h ++ (dhcpStep i b).1) b' := by
  obtain ⟨halong, hafter⟩ := hI.transaction (i := i) hP
  unfold dhcpStep
  dsimp only
  split_ifs with hnext
  · cases hr : bootpTransaction i b with
    | mk calls res =>
        rw [hr] at halong hafter
        cases res with
        | none =>
            refine ⟨halong, ?_⟩
            intro ret b' heq
            cases heq
        | some res =>
            obtain ⟨ret₁, b₁⟩ := res
            dsimp only
            split_ifs with hret <;> refine ⟨halong, ?_⟩
            · intro ret b' heq
              cases heq
              exact hafter ret₁ b₁ rfl
            · intro ret b' heq
              cases heq
              exact hafter ret₁ b₁ rfl
  · refine ⟨trivial, ?_⟩
    intro ret b' heq
    cases heq
    exact hI.mono hP _

/-! ### Runs of steps -/

/-- The calls of a run. -/
def runCalls (rs : List StepRecord) : List Action := rs.flatMap StepRecord.calls

/-- **Run lemma.**  The property holds before and after every step of a run, and
every request of the run stands in `S` to the calls before it. -/
theorem RoundInvariant.run (hI : RoundInvariant P S) (is : List StepInput) {h : List Action}
    {b : Binding} (hP : P h b) :
    Trace.Along S h (runCalls (dhcpRun b is)) ∧
      ∀ rs r rs', dhcpRun b is = rs ++ r :: rs' →
        P (h ++ runCalls rs) r.before ∧
          ∀ ret b', r.after = some (ret, b') → P (h ++ runCalls (rs ++ [r])) b' := by
  -- induction on the steps; a step that does not return is the last one
  induction is generalizing h b with
  | nil =>
      refine ⟨trivial, ?_⟩
      intro rs r rs' heq
      cases rs <;> cases heq
  | cons i is ih =>
      obtain ⟨halong, hafter⟩ := hI.step (i := i) hP
      have hfirst : ∀ ret b', (dhcpStep i b).2 = some (ret, b') →
          P (h ++ runCalls [⟨b, i, (dhcpStep i b).1, (dhcpStep i b).2⟩]) b' := by
        intro ret b' heq
        unfold runCalls
        rw [List.flatMap_singleton]
        exact hafter ret b' heq
      unfold dhcpRun
      dsimp only
      cases hres : (dhcpStep i b).2 with
      | none =>
          refine ⟨?_, ?_⟩
          · unfold runCalls
            rw [List.flatMap_singleton]
            exact halong
          · intro rs r rs' heq
            cases rs with
            | nil =>
                cases heq
                refine ⟨hI.mono hP _, ?_⟩
                intro ret b' heq'
                cases heq'
            | cons r₀ rs => cases rs <;> cases heq
      | some res =>
          obtain ⟨ret₁, b₁⟩ := res
          obtain ⟨hrest, hruns⟩ := ih (hafter ret₁ b₁ hres)
          refine ⟨?_, ?_⟩
          · unfold runCalls
            rw [List.flatMap_cons]
            exact Trace.along_append.mpr ⟨halong, hrest⟩
          · intro rs r rs' heq
            cases rs with
            | nil =>
                cases heq
                refine ⟨hI.mono hP _, ?_⟩
                intro ret b' heq'
                have hP' := hfirst ret b' (hres.trans heq')
                rw [hres] at hP'
                exact hP'
            | cons r₀ rs =>
                obtain ⟨rfl, htail⟩ := List.cons.inj heq
                obtain ⟨hbefore, hafter'⟩ := hruns rs r rs' htail
                rw [List.append_assoc] at hbefore
                refine ⟨hbefore, ?_⟩
                intro ret b' heq'
                have hP' := hafter' ret b' heq'
                rw [List.append_assoc] at hP'
                exact hP'

end Dhcp

end Nucleo
