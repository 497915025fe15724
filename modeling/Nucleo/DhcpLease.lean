/-
# What a bound lease comes from, and what a request asks for

Two invariants of runs of `dhcp_step` that are kept round by round.

A bound binding was filled in by one acknowledgement (`Leased`), provided that the
options of the acknowledgements that are taken lie inside their datagrams.  A
request names the address it asks for (`Identifies`), provided that every reply
that ends a wait is of a kind that the state expects.

Both provisos are needed: `dhcp_parse_options` reads behind the end of a datagram
that cuts an option short, and `recv_bootp_reply` ends an exchange with success on
any reply for us, whatever its type.
-/
import Nucleo.DhcpClient

namespace Nucleo

namespace Dhcp

/-! ## The lease -/

/-- The seven fields that an acknowledgement sets are those that the datagram
carries. -/
structure CarriedBy (d : Datagram) (now : Timespec) (b : Binding) : Prop where
  client : b.client = d.yiaddr
  dhcpServer : b.dhcpServer = carriedAddr d.options optServerIdentifier
  gateway : b.gateway = carriedAddr d.options optRouter
  subnet : b.subnet = carriedAddr d.options optSubnet
  dnsServer : b.dnsServer = carriedAddr d.options optDomainNameServer
  leaseT1 : b.leaseT1 = zeroToInfinity (carriedLease d.options now).1
  leaseT2 : b.leaseT2 = zeroToInfinity (carriedLease d.options now).2

/-- The fields are those of one acknowledgement among the calls `h`, which passed
`bootp_check_reply` when it was received, and the server, the gateway and the
subnet mask are set. -/
def Leased (h : List Action) (b : Binding) : Prop :=
  (∃ sock b₀ d now, Action.recvfrom sock b₀ (.datagram d now) ∈ h ∧
    offsetOptions + lenMagic ≤ d.size ∧
    bootpCheckReply d.mem b₀.macAddr b₀.xid = offsetOptions + lenMagic ∧
    carriedType d.options = dhcpAck ∧ CarriedBy d now b) ∧
  b.dhcpServer ≠ inaddrAny ∧ b.gateway ≠ inaddrAny ∧ b.subnet ≠ inaddrAny

/-- The options of an acknowledgement that is taken lie inside its datagram. -/
def AckInside : Action → Prop :=
  Action.Delivers fun b d now => expectsAck b.state = true → IsReply b d now →
    (d.parsed now).type = dhcpAck → d.OptionsInside

instance : DecidablePred AckInside :=
  inferInstanceAs (DecidablePred (Action.Delivers fun b d now => expectsAck b.state = true →
    IsReply b d now → (d.parsed now).type = dhcpAck → d.OptionsInside))

/-- A lease stays one. -/
theorem Leased.mono {h : List Action} {b : Binding} (hl : Leased h b) (h' : List Action) :
    Leased (h ++ h') b := by
  obtain ⟨⟨sock, b₀, d, now, hmem, hd⟩, hne⟩ := hl
  exact ⟨⟨sock, b₀, d, now, List.mem_append_left _ hmem, hd⟩, hne⟩

/-- The state and the `xid` do not matter. -/
theorem Leased.congr {h : List Action} {b b' : Binding} (hl : Leased h b)
    (heq : b' = { b with state := b'.state, xid := b'.xid }) : Leased h b' := by
  obtain ⟨⟨sock, b₀, d, now, hmem, hsize, hcheck, htype, hc⟩, hne⟩ := hl
  rw [heq]
  exact ⟨⟨sock, b₀, d, now, hmem, hsize, hcheck, htype, hc.client, hc.dhcpServer, hc.gateway,
    hc.subnet, hc.dnsServer, hc.leaseT1, hc.leaseT2⟩, hne⟩

/-! ### What does not touch it -/

/-- A new request changes the identifier and what belongs to it. -/
theorem withXid_eq (a : Attempt) (b : Binding) :
    withXid a b = { b with state := (withXid a b).state, xid := (withXid a b).xid } := by
  unfold withXid
  split <;> rfl

/-- Sending changes the same fields. -/
theorem sentBinding_eq_fields (a : Attempt) (b : Binding) :
    sentBinding a b
      = { b with state := (sentBinding a b).state, xid := (sentBinding a b).xid } := by
  rw [sentBinding_eq, withXid_eq]

/-- Being bound is a matter of the state. -/
theorem dhcpIsbound_congr {b b' : Binding} (h : b.state = b'.state) :
    dhcpIsbound b = dhcpIsbound b' := by
  unfold dhcpIsbound
  rw [h]

/-- Only a bound client has a bound state once its request was sent. -/
theorem dhcpIsbound_of_sent {a : Attempt} {b : Binding}
    (h : dhcpIsbound (sentBinding a b) = true) : dhcpIsbound b = true := by
  rw [sentBinding_eq] at h
  unfold dhcpIsbound at h ⊢
  cases hs : b.state <;> rw [hs] at h <;> first | rfl | cases h

/-- A client that selects is not bound. -/
theorem dhcpIsbound_of_selecting {b : Binding} (h : b.state = .selecting) :
    dhcpIsbound b = false := by
  unfold dhcpIsbound
  rw [h]
  decide

/-- A reply that is no offer leaves `SELECTING` at most for `REQUESTING`. -/
theorem dhcpIsbound_of_stray {b : Binding} (h : b.state = .selecting) (type : Byte) :
    dhcpIsbound (dhcpUpdateState b type) = false := by
  unfold dhcpIsbound dhcpUpdateState newstate
  rw [h]
  dsimp only
  split <;> decide

/-- A full check returns the largest value. -/
theorem bootpCheckReply_eq {msg : ℕ → Byte} {macAddr : Vector Byte dhcpMacAddrLen}
    {xid : BitVec 32} (h : offsetOptions < bootpCheckReply msg macAddr xid) :
    bootpCheckReply msg macAddr xid = offsetOptions + lenMagic := by
  unfold bootpCheckReply at h ⊢
  split_ifs at h ⊢ <;> first | rfl | exact absurd h (by decide)

/-- A message whose options lie inside it and carry a type has a whole header. -/
theorem size_of_carriedType {d : Datagram} (h : carriedType d.options ≠ 0) :
    offsetOptions + lenMagic ≤ d.size := by
  by_contra hlt
  have hzero : d.size - (offsetOptions + lenMagic) = 0 := by omega
  apply h
  unfold Datagram.options
  rw [hzero]
  rfl

/-- An acknowledgement that is taken carries the lease. -/
theorem leased_of_ack {h : List Action} {sock : ℤ} {b₀ : Binding} {d : Datagram} {now : Timespec}
    (hmem : Action.recvfrom sock b₀ (.datagram d now) ∈ h) (hreply : IsReply b₀ d now)
    (hin : d.OptionsInside) (ht : (d.parsed now).type = dhcpAck)
    (hc : (dhcpCheckOptions (d.parsed now).options).1 = 0) {b : Binding}
    (hclient : b.client = d.yiaddr)
    (hserver : b.dhcpServer = (dhcpCheckOptions (d.parsed now).options).2.dhcpServer)
    (hgateway : b.gateway = (dhcpCheckOptions (d.parsed now).options).2.gateway)
    (hsubnet : b.subnet = (dhcpCheckOptions (d.parsed now).options).2.subnet)
    (hdns : b.dnsServer = (dhcpCheckOptions (d.parsed now).options).2.dnsServer)
    (ht1 : b.leaseT1 = (dhcpCheckOptions (d.parsed now).options).2.leaseT1)
    (ht2 : b.leaseT2 = (dhcpCheckOptions (d.parsed now).options).2.leaseT2) : Leased h b := by
  obtain ⟨-, hcheck, hlen⟩ := hreply
  obtain ⟨herr, hval⟩ := parsed_storedOptions hin now
  obtain ⟨htype, hopts⟩ := hval (by rw [← herr]; exact hlen)
  obtain ⟨hs, hg, hm⟩ := dhcpCheckOptions_eq_zero hc
  obtain ⟨fs, fg, fm, fd⟩ := dhcpCheckOptions_fields (d.parsed now).options
  have hleases := dhcpCheckOptions_times hc
  have hack : carriedType d.options = dhcpAck := by rw [← htype, ht]
  refine ⟨⟨sock, b₀, d, now, hmem, size_of_carriedType (by rw [hack]; decide),
    bootpCheckReply_eq hcheck, hack, ?_⟩, ?_, ?_, ?_⟩
  · refine ⟨hclient, ?_, ?_, ?_, ?_, ?_, ?_⟩
    · rw [hserver, fs, hopts]
      rfl
    · rw [hgateway, fg, hopts]
      rfl
    · rw [hsubnet, fm, hopts]
      rfl
    · rw [hdns, fd, hopts]
      rfl
    · rw [ht1, hleases.1, hopts]
      rfl
    · rw [ht2, hleases.2, hopts]
      rfl
  · rw [hserver, fs]
    exact hs
  · rw [hgateway, fg]
    exact hg
  · rw [hsubnet, fm]
    exact hm

/-! ### Bound bindings

Only an acknowledgement that is taken makes a binding bound, and no other message
touches a bound one. -/

/-- Every acknowledgement that is taken establishes `G`, if `A` holds of its reception;
the state, the `xid` and later calls do not matter to `G`. -/
structure FromAck (A : Action → Prop) (G : List Action → Binding → Prop) : Prop where
  mono : ∀ {h b}, G h b → ∀ h', G (h ++ h') b
  congr : ∀ {h b b'}, G h b → b' = { b with state := b'.state, xid := b'.xid } → G h b'
  ack : ∀ {h sock b d now}, Action.recvfrom sock b (.datagram d now) ∈ h →
    expectsAck b.state = true → IsReply b d now → A (.recvfrom sock b (.datagram d now)) →
    (d.parsed now).type = dhcpAck → (dhcpCheckOptions (d.parsed now).options).1 = 0 →
    G h { b with
      state := .bound
      client := d.yiaddr
      dhcpServer := (dhcpCheckOptions (d.parsed now).options).2.dhcpServer
      gateway := (dhcpCheckOptions (d.parsed now).options).2.gateway
      subnet := (dhcpCheckOptions (d.parsed now).options).2.subnet
      dnsServer := (dhcpCheckOptions (d.parsed now).options).2.dnsServer
      leaseT1 := (dhcpCheckOptions (d.parsed now).options).2.leaseT1
      leaseT2 := (dhcpCheckOptions (d.parsed now).options).2.leaseT2 }

/-- A bound binding has the property `G`, if `A` holds of the calls so far. -/
def BoundInv (A : Action → Prop) (G : List Action → Binding → Prop) (h : List Action)
    (b : Binding) : Prop :=
  (∀ e ∈ h, A e) → dhcpIsbound b = true → G h b

variable {A : Action → Prop} {G : List Action → Binding → Prop}

/-- One round keeps the invariant. -/
theorem FromAck.round (hG : FromAck A G) {sock : ℤ} {a : Attempt} {h calls : List Action}
    {b b' : Binding} {out : Outcome} (hP : BoundInv A G h b)
    (hcases : AttemptCases sock a b calls out)
    (hout : out = .done b' ∨ ∃ ret, out = .retry ret b') : BoundInv A G (h ++ calls) b' := by
  intro hin hbound
  have hold : dhcpIsbound b = true → G (h ++ calls) b := fun hb =>
    hG.mono (hP (fun e he => hin e (List.mem_append_left _ he)) hb) calls
  cases hcases with
  | unsent hsend =>
      obtain h | ⟨ret, h⟩ := hout <;> cases h
      rw [dhcpIsbound_congr (withXid_state a b)] at hbound
      exact hG.congr (hold hbound) (withXid_eq a b)
  | waiting hsend hwait => obtain h | ⟨ret, h⟩ := hout <;> cases h
  | refused hsend hwait hret =>
      obtain h | ⟨ret, h⟩ := hout <;> cases h
      cases hbound
  | @accepted d now hsend hwait hret =>
      obtain h | ⟨ret, h⟩ := hout <;> cases h
      have hmem : Action.recvfrom sock (sentBinding a b) (.datagram d now)
          ∈ h ++ sendCall sock a b :: waitCalls sock a b :=
        List.mem_append_right _ (List.mem_cons_of_mem _ (awaitReply_mem hwait))
      have hcase := reply_cases (sentBinding_state a b) hret
      generalize (handleReply (sentBinding a b) d now).2 = b' at hcase hbound ⊢
      cases hcase with
      | offer hs ht hc =>
          cases hbound.symm.trans (dhcpIsbound_of_selecting hs)
      | stray hs ht => cases hbound.symm.trans (dhcpIsbound_of_stray hs _)
      | ack he ht hc =>
          exact hG.ack hmem he (awaitReply_isReply hwait) (hin _ hmem) ht hc
      | nak he ht => cases hbound
      | ignored he hack hnak =>
          exact hG.congr (hold (dhcpIsbound_of_sent hbound)) (sentBinding_eq_fields a b)

/-- **What comes from an acknowledgement stays so**. -/
theorem FromAck.roundInvariant (hG : FromAck A G) :
    RoundInvariant (BoundInv A G) fun _ _ => True where
  mono := by
    intro h b hP h' hin hbound
    exact hG.mono (hP (fun e he => hin e (List.mem_append_left _ he)) hbound) h'
  round := fun hP hcases _ hout => hG.round hP hcases hout
  sent := fun _ _ _ => trivial
  other := fun _ _ => trivial

/-- A binding filled in by one acknowledgement. -/
theorem leased_fromAck : FromAck AckInside Leased where
  mono := Leased.mono
  congr := Leased.congr
  ack := fun hmem he hreply hin ht hc =>
    leased_of_ack hmem hreply (hin he hreply ht) ht hc rfl rfl rfl rfl rfl rfl rfl

/-- **A bound lease comes from one acknowledgement.**  After any step of any run in
which the options of the acknowledgements taken so far lie inside their datagrams. -/
theorem bound_leased (macAddr : Vector Byte dhcpMacAddrLen) (is : List StepInput)
    (rs rs' : List StepRecord) (r : StepRecord)
    (hrun : dhcpRun (dhcpInit macAddr) is = rs ++ r :: rs')
    (hin : ∀ e ∈ runCalls (rs ++ [r]), AckInside e)
    (ret : ℤ) (b : Binding) (hafter : r.after = some (ret, b)) (hbound : dhcpIsbound b = true) :
    Leased (runCalls (rs ++ [r])) b := by
  have hinit : BoundInv AckInside Leased [] (dhcpInit macAddr) := by
    intro _ h
    cases h
  obtain ⟨-, hruns⟩ := leased_fromAck.roundInvariant.run is hinit
  exact (hruns rs r rs' hrun).2 ret b hafter hin hbound

/-! ### A concrete exchange -/

/-- A client, the transaction id of its first exchange, and a server. -/
def exampleMac : Vector Byte dhcpMacAddrLen := #v[0x00, 0x08, 0xDC, 0x01, 0x02, 0x03]

/-- The identifier of the examples. -/
def exampleXid : BitVec 32 := genXid exampleMac 0

/-- 192.168.1.1 in network byte order. -/
def serverBytes : List Byte := [192, 168, 1, 1]

/-- A reply for the client with the given transaction id, offered address and
options, received over a buffer that held `stale`. -/
def exampleReply (xid : BitVec 32) (yiaddr : InAddr) (options : List Byte) (stale : ℕ → Byte) :
    Datagram where
  size := 240 + options.length
  mem :=
    let m := Memory.write stale 0 (List.replicate 240 0)
    let m := Memory.write m offsetOp [bootReply, 1, 6]
    let m := Memory.write m offsetXid (bytes32 xid)
    let m := Memory.write m offsetYiaddr (bytes32 yiaddr)
    let m := Memory.write m offsetChaddr exampleMac.toList
    let m := Memory.write m offsetOptions (bytes32 magic)
    Memory.write m (offsetOptions + lenMagic) options

/-- The options of a complete reply of the given type. -/
def exampleOptions (type : Byte) (subnet : List Byte) : List Byte :=
  [optDhcpMessageType, 1, type] ++ optServerIdentifier :: 4 :: serverBytes ++
    optRouter :: 4 :: serverBytes ++ optSubnet :: 4 :: subnet ++ [optEnd]

/-- 192.168.1.50. -/
def exampleClient : InAddr := 0x3201A8C0

/-- Socket calls that all succeed. -/
def exampleSockets : SocketInput := ⟨3, 0, 0, 0, 0, 0⟩

/-- A step in which the first request gets the given answers. -/
def exampleStep (clock : Timespec) (recvs : List Recv) : StepInput :=
  ⟨clock, exampleSockets, fun _ => ⟨0, fun _ => 0, 548, recvs⟩, clock⟩

/-- An offer. -/
def exampleOffer : Datagram :=
  exampleReply exampleXid exampleClient (exampleOptions dhcpOffer [255, 255, 255, 0]) fun _ => 0

/-! ### Replies that are not right -/

/-- An acknowledgement for somebody else's exchange, with another subnet mask. -/
def foreignAck : Datagram :=
  exampleReply (exampleXid + 1) exampleClient (exampleOptions dhcpAck [255, 255, 0, 0]) fun _ => 0

/-- An acknowledgement whose datagram ends inside the subnet option, received over
the one that was discarded before. -/
def truncatedAck : Datagram :=
  exampleReply exampleXid exampleClient ((exampleOptions dhcpAck []).take 17) foreignAck.mem

/-- A client that gets an acknowledgement cut off. -/
def truncatedRun : List StepInput :=
  [exampleStep timespecZero [.datagram exampleOffer timespecZero],
    exampleStep timespecZero
      [.datagram foreignAck timespecZero, .datagram truncatedAck timespecZero]]

/-- A complete acknowledgement. -/
def exampleAck : Datagram :=
  exampleReply exampleXid exampleClient (exampleOptions dhcpAck [255, 255, 255, 0]) fun _ => 0

/-- The client that waits for it. -/
def requestingBinding : Binding :=
  { dhcpInit exampleMac with state := .requesting, xid := exampleXid }

/-- An exchange in which offer and acknowledgement are complete. -/
def completeRun : List StepInput :=
  [exampleStep timespecZero [.datagram exampleOffer timespecZero],
    exampleStep timespecZero [.datagram exampleAck timespecZero]]

/-- With it the lease is as acknowledged. -/
theorem bound_leased_completeRun :
    ∃ r₁ r₂ ret b, dhcpRun (dhcpInit exampleMac) completeRun = [r₁, r₂] ∧
      r₂.after = some (ret, b) ∧ dhcpIsbound b = true ∧ Leased (runCalls [r₁, r₂]) b := by
  have hdec : (match dhcpRun (dhcpInit exampleMac) completeRun with
      | [r₁, r₂] =>
          match r₂.after with
          | some (_, b) => dhcpIsbound b && decide (∀ e ∈ runCalls [r₁, r₂], AckInside e)
          | none => false
      | _ => false) = true := by
    decide +kernel
  split at hdec
  · rename_i r₁ r₂ hrun
    split at hdec
    · rename_i ret b hafter
      obtain ⟨hbound, hin⟩ := Bool.and_eq_true_iff.mp hdec
      exact ⟨r₁, r₂, ret, b, hrun, hafter, hbound,
        bound_leased exampleMac completeRun [r₁] [] r₂ hrun (of_decide_eq_true hin) ret b hafter
          hbound⟩
    · cases hdec
  · cases hdec

/-- The reception could be what the subnet mask of the lease comes from. -/
def carriesSubnet (b : Binding) : Action → Bool
  | .recvfrom _ b₀ (.datagram d _) =>
      bootpCheckReply d.mem b₀.macAddr b₀.xid == offsetOptions + lenMagic &&
        carriedAddr d.options optSubnet == b.subnet
  | _ => false

theorem Leased.carriesSubnet {h : List Action} {b : Binding} (hl : Leased h b) :
    h.any (carriesSubnet b) = true := by
  obtain ⟨⟨sock, b₀, d, now, hmem, -, hcheck, -, hc⟩, -⟩ := hl
  apply List.any_eq_true.mpr
  refine ⟨_, hmem, ?_⟩
  unfold Dhcp.carriesSubnet
  simp only [hcheck, hc.subnet, BEq.rfl, Bool.and_self]

/-- The client is bound with a subnet mask that the acknowledgement for it does not
carry: it is that of the datagram received before, which is not for it. -/
theorem truncatedAck_not_leased :
    ∃ r₁ r₂ ret b, dhcpRun (dhcpInit exampleMac) truncatedRun = [r₁, r₂] ∧
      r₂.after = some (ret, b) ∧ dhcpIsbound b = true ∧ ¬ Leased (runCalls [r₁, r₂]) b := by
  have hdec : (match dhcpRun (dhcpInit exampleMac) truncatedRun with
      | [r₁, r₂] =>
          match r₂.after with
          | some (_, b) => dhcpIsbound b && !(runCalls [r₁, r₂]).any (carriesSubnet b)
          | none => false
      | _ => false) = true := by
    decide +kernel
  split at hdec
  · rename_i r₁ r₂ hrun
    split at hdec
    · rename_i ret b hafter
      obtain ⟨hbound, hno⟩ := Bool.and_eq_true_iff.mp hdec
      refine ⟨r₁, r₂, ret, b, hrun, hafter, hbound, ?_⟩
      intro hl
      rw [hl.carriesSubnet] at hno
      cases hno
    · cases hdec
  · cases hdec

/-! ## What a request asks for -/

/-- The type of a message. -/
def messageType (msg : List Byte) : Byte := carriedType (messageOptions msg)

/-- The datagram is an offer that the client takes, received with the binding `b`. -/
def TakenOffer (b : Binding) (d : Datagram) (now : Timespec) : Prop :=
  IsReply b d now ∧ b.state = .selecting ∧ (d.parsed now).type = dhcpOffer ∧
    (dhcpCheckOptions (d.parsed now).options).1 = 0

/-- A request that is sent with the binding `b` after the calls `h` names the
address it asks for: by the options that repeat an offer taken under the same
transaction id, or by the address of the current lease. -/
def Identifies (h : List Action) (b : Binding) (msg : List Byte) : Prop :=
  (∃ sock b₀ d now, Action.recvfrom sock b₀ (.datagram d now) ∈ h ∧ TakenOffer b₀ d now ∧
    b₀.xid = messageWord msg offsetXid ∧
    (optServerIdentifier, bytes32 (d.parsed now).options.dhcpServer) ∈ messageOptions msg ∧
    (optRequestedIpAddress, bytes32 d.yiaddr) ∈ messageOptions msg) ∨
  (dhcpIsbound b = true ∧ b.client ≠ inaddrAny ∧ messageWord msg offsetCiaddr = b.client)

/-- Every `DHCPREQUEST` names its address. -/
def RequestIdentifies (h : List Action) : Action → Prop
  | .send _ b msg _ => messageType msg = dhcpRequest → Identifies h b msg
  | _ => True

/-- A reply of a kind that the state expects: an offer in `SELECTING`, an
acknowledgement or a refusal in `REQUESTING`; and an acknowledgement that is taken
assigns an address. -/
def Expected (b : Binding) (d : Datagram) (now : Timespec) : Prop :=
  (b.state = .selecting → (d.parsed now).type = dhcpOffer) ∧
    (b.state = .requesting → (d.parsed now).type = dhcpAck ∨ (d.parsed now).type = dhcpNak) ∧
    (expectsAck b.state = true → (d.parsed now).type = dhcpAck →
      (dhcpCheckOptions (d.parsed now).options).1 = 0 → d.yiaddr ≠ inaddrAny)

instance (b : Binding) (d : Datagram) (now : Timespec) : Decidable (Expected b d now) :=
  inferInstanceAs (Decidable (_ ∧ _ ∧ _))

/-- A reply that ends a wait is one that the state expects. -/
def ExpectedReply : Action → Prop :=
  Action.Delivers fun b d now => IsReply b d now → Expected b d now

instance : DecidablePred ExpectedReply :=
  inferInstanceAs (DecidablePred (Action.Delivers fun b d now => IsReply b d now →
    Expected b d now))

/-- The type of a request is that of the state. -/
theorem messageType_bootpRequest (junk : ℕ → Byte) (b : Binding) :
    messageType (bootpRequest junk b) = requestType b.state := by
  unfold messageType
  rw [messageOptions_bootpRequest]
  unfold requestOptions
  split <;> rfl

/-! ### The invariant of the requests -/

/-- The offer that the binding repeats was taken under its transaction id. -/
def OfferTaken (h : List Action) (b : Binding) : Prop :=
  ∃ sock b₀ d now, Action.recvfrom sock b₀ (.datagram d now) ∈ h ∧ TakenOffer b₀ d now ∧
    b₀.xid = b.xid ∧ b.dhcpServer = (d.parsed now).options.dhcpServer ∧ b.client = d.yiaddr

/-- Between two rounds: in `SELECTING` an offer was taken, a bound client has an
address, and the states in which a request would name nothing do not occur. -/
def RequestInv (h : List Action) (b : Binding) : Prop :=
  (∀ e ∈ h, ExpectedReply e) →
    match b.state with
    | .init => True
    | .selecting => OfferTaken h b
    | .bound | .renewing => b.client ≠ inaddrAny
    | .requesting | .initReboot | .rebooting | .rebinding => False

/-- An offer stays taken. -/
theorem OfferTaken.mono {h : List Action} {b : Binding} (ho : OfferTaken h b) (h' : List Action) :
    OfferTaken (h ++ h') b := by
  obtain ⟨sock, b₀, d, now, hmem, hd⟩ := ho
  exact ⟨sock, b₀, d, now, List.mem_append_left _ hmem, hd⟩

/-- The invariant holds of a longer history. -/
theorem RequestInv.mono {h : List Action} {b : Binding} (hP : RequestInv h b) (h' : List Action) :
    RequestInv (h ++ h') b := by
  intro hexp
  have hold := hP fun e he => hexp e (List.mem_append_left _ he)
  cases hs : b.state <;> simp only [hs] at hold ⊢
  · exact hold.mono h'
  · exact hold
  · exact hold

theorem identifies_of_bound {a : Attempt} {b : Binding} (hs : b.state = .bound ∨ b.state = .renewing)
    (hclient : b.client ≠ inaddrAny) :
    dhcpIsbound (withXid a b) = true ∧ (withXid a b).client ≠ inaddrAny ∧
      requestCiaddr (withXid a b) = (withXid a b).client := by
  have hkeep : (withXid a b).client = b.client := by rw [withXid_eq]
  unfold dhcpIsbound requestCiaddr
  rw [withXid_state, hkeep]
  rcases hs with hs | hs <;> rw [hs] <;> exact ⟨by decide, hclient, rfl⟩

/-- A request that is sent under the invariant names its address. -/
theorem RequestInv.sent {h : List Action} {b : Binding} (hP : RequestInv h b) (sock : ℤ)
    (a : Attempt) (hexp : ∀ e ∈ h, ExpectedReply e) :
    RequestIdentifies h (sendCall sock a b) := by
  intro htype
  have hold := hP hexp
  rw [messageType_bootpRequest, withXid_state] at htype
  unfold Identifies
  rw [messageOptions_bootpRequest, messageWord_xid, messageWord_ciaddr]
  cases hs : b.state <;> simp only [hs] at hold htype
  · cases htype
  · have hxid : withXid a b = b := by
      unfold withXid
      rw [if_neg (not_not.mpr hs)]
    obtain ⟨sock', b₀, d, now, hmem, htaken, hx, hserver, hclient⟩ := hold
    refine Or.inl ⟨sock', b₀, d, now, hmem, htaken, ?_, ?_, ?_⟩
    · rw [hxid, hx]
    · unfold requestOptions
      rw [hxid, if_pos hs, hserver]
      simp
    · unfold requestOptions
      rw [hxid, if_pos hs, hclient]
      simp
  · exact Or.inr (identifies_of_bound (Or.inl hs) hold)
  · exact Or.inr (identifies_of_bound (Or.inr hs) hold)

/-- One round keeps the invariant. -/
theorem RequestInv.round {sock : ℤ} {a : Attempt} {h calls : List Action} {b b' : Binding}
    {out : Outcome} (hP : RequestInv h b) (hcases : AttemptCases sock a b calls out)
    (hout : out = .done b' ∨ ∃ ret, out = .retry ret b') : RequestInv (h ++ calls) b' := by
  cases hcases with
  | unsent hsend =>
      obtain h | ⟨ret, h⟩ := hout <;> cases h
      intro hexp
      have hold := hP.mono [sendCall sock a b] hexp
      rw [withXid_state]
      cases hs : b.state <;> simp only [hs] at hold ⊢
      · have hxid : withXid a b = b := by
          unfold withXid
          rw [if_neg (not_not.mpr hs)]
        rw [hxid]
        exact hold
      · rw [withXid_eq]
        exact hold
      · rw [withXid_eq]
        exact hold
  | waiting hsend hwait => obtain h | ⟨ret, h⟩ := hout <;> cases h
  | refused hsend hwait hret =>
      obtain h | ⟨ret, h⟩ := hout <;> cases h
      intro _
      trivial
  | @accepted d now hsend hwait hret =>
      obtain h | ⟨ret, h⟩ := hout <;> cases h
      intro hexp
      have hold := hP fun e he => hexp e (List.mem_append_left _ he)
      have hmem : Action.recvfrom sock (sentBinding a b) (.datagram d now)
          ∈ h ++ sendCall sock a b :: waitCalls sock a b :=
        List.mem_append_right _ (List.mem_cons_of_mem _ (awaitReply_mem hwait))
      have hreply := awaitReply_isReply hwait
      obtain ⟨hsel, hreq, hyi⟩ := hexp _ hmem hreply
      have hcase := reply_cases (sentBinding_state a b) hret
      generalize (handleReply (sentBinding a b) d now).2 = b' at hcase ⊢
      cases hcase with
      | offer hs ht hc =>
          simp only [hs]
          exact ⟨sock, sentBinding a b, d, now, hmem, ⟨hreply, hs, ht, hc⟩, rfl, rfl, rfl⟩
      | stray hs ht => exact absurd (hsel hs) ht
      | ack he ht hc => exact hyi he ht hc
      | nak he ht => trivial
      | ignored he hack hnak =>
          -- the state is not `REQUESTING`, so it is that of a renewal
          have hne : (sentBinding a b).state ≠ .requesting := by
            intro hr
            rcases hreq hr with h | h
            · exact hack h
            · exact hnak h
          rw [sentBinding_eq] at he hne ⊢
          rw [withXid_eq]
          cases hs : b.state <;> simp only [hs, sentState] at hold he hne ⊢
          · cases he
          · exact hne rfl
          · exact hold
          · exact hold

/-! ### Every round -/

/-- What the requests of a run need of the replies before them. -/
def RequestSpec (h : List Action) (e : Action) : Prop :=
  (∀ e' ∈ h, ExpectedReply e') → RequestIdentifies h e

/-- **Every round keeps it**. -/
theorem requestInv_roundInvariant : RoundInvariant RequestInv RequestSpec where
  mono := fun hP h' => hP.mono h'
  round := fun hP hcases _ hout => hP.round hcases hout
  sent := fun hP sock a hexp => hP.sent sock a hexp
  other := by
    intro e he h _
    cases e with
    | send sock b msg ret => cases he
    | socket ret => trivial
    | setsockopt sock opt ret => trivial
    | bind sock addr ret => trivial
    | connect sock dest ret => trivial
    | recvfrom sock b r => trivial
    | close sock => trivial

instance (b : Binding) (d : Datagram) (now : Timespec) : Decidable (TakenOffer b d now) :=
  inferInstanceAs (Decidable (_ ∧ _ ∧ _ ∧ _))

/-- The test of a call that sends. -/
def Action.sends (p : Binding → List Byte → Bool) : Action → Bool
  | .send _ b msg _ => p b msg
  | _ => false

/-- The call at a position of a trace, when it sends. -/
theorem exists_send_at {l : List Action} {k : ℕ} {p : Binding → List Byte → Bool}
    (h : (l[k]?).any (Action.sends p) = true) :
    ∃ sock b msg ret, l = l.take k ++ .send sock b msg ret :: l.drop (k + 1) ∧ p b msg = true := by
  cases hk : l[k]? with
  | none =>
      rw [hk] at h
      cases h
  | some e =>
      rw [hk] at h
      obtain ⟨hlt, rfl⟩ := List.getElem?_eq_some_iff.mp hk
      have hsplit : l = l.take k ++ l[k] :: l.drop (k + 1) := by
        rw [List.getElem_cons_drop, List.take_append_drop]
      generalize l[k] = e at h hsplit
      cases e with
      | send sock b msg ret => exact ⟨sock, b, msg, ret, hsplit, h⟩
      | socket ret => cases h
      | setsockopt sock opt ret => cases h
      | bind sock addr ret => cases h
      | connect sock dest ret => cases h
      | recvfrom sock b r => cases h
      | close sock => cases h

/-- The position of the first call of `send` in the second step of an exchange. -/
def secondSend : ℕ := 15

/-- A refusal that reaches the client while it waits for offers. -/
def strayNak : Datagram :=
  exampleReply exampleXid exampleClient (exampleOptions dhcpNak [255, 255, 255, 0]) fun _ => 0

/-- A client that gets a stray refusal. -/
def strayRun : List StepInput :=
  [exampleStep timespecZero [.datagram strayNak timespecZero],
    exampleStep timespecZero [.datagram exampleAck timespecZero]]

/-- Is this the receipt of an offer?. -/
def takesOffer : Action → Bool
  | .recvfrom _ b (.datagram d now) => TakenOffer b d now
  | _ => false

end Dhcp

end Nucleo
