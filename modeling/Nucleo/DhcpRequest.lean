/-
# The request of the DHCP client

`send_bootp_request` fills a buffer on the stack field by field and sends all of it.  The
fields do not overlap and leave no gap, so the bytes sent do not depend on what the buffer
held: `bootpRequest_bytes` writes them out.

`sendBootpRequest_message` adds what `dhcp_parse_options` makes of the options area: no
error, the message type of the state and, in `DHCP_SELECTING`, the server.
-/
import Nucleo.DhcpClient

namespace Nucleo

namespace Dhcp

/-! ## The bytes of a request -/

/-- The fields of a request in the order in which they stand in the message. -/
def requestFields (b : Binding) : List (List Byte) :=
  [[bootRequest], [1], [6], [0], bytes32 b.xid, [0, 0], [0x80, 0], bytes32 (requestCiaddr b),
    bytes32 0, bytes32 0, bytes32 0, b.macAddr.toList, List.replicate (10 + 64 + 128) 0,
    bytes32 magic, requestArea b]

/-- The same fields in the order in which they are written. -/
def requestWrites (b : Binding) : List (ℕ × List Byte) :=
  [(offsetXid, bytes32 b.xid), (offsetCiaddr, bytes32 (requestCiaddr b)),
    (offsetChaddr, b.macAddr.toList), (offsetOp, [bootRequest]), (offsetHtype, [1]),
    (offsetHlen, [6]), (offsetHops, [0]), (offsetSecs, [0, 0]), (offsetFlags, [0x80, 0]),
    (offsetYiaddr, bytes32 0), (offsetSiaddr, bytes32 0), (offsetGiaddr, bytes32 0),
    (offsetChaddr + dhcpMacAddrLen, List.replicate (10 + 64 + 128) 0),
    (offsetOptions, bytes32 magic), (offsetOptions + lenMagic, requestArea b)]

theorem requestWrites_places (b : Binding) :
    (requestWrites b).map Memory.place
      = [(4, 4), (12, 4), (28, 6), (0, 1), (1, 1), (2, 1), (3, 1), (8, 2), (10, 2), (16, 4),
        (20, 4), (24, 4), (34, 202), (236, 4), (240, 308)] := by
  have hmac : b.macAddr.toList.length = 6 := Vector.length_toList
  unfold requestWrites
  simp only [List.map_cons, List.map_nil, Memory.place, length_requestArea, hmac,
    List.length_replicate]
  rfl

/-- The fields do not overlap. -/
theorem requestWrites_apart (b : Binding) :
    ((requestWrites b).map Memory.place).Pairwise Memory.Apart := by
  rw [requestWrites_places]
  decide

theorem bootpRequest_writes (junk : ℕ → Byte) (b : Binding) :
    bootpRequest junk b = Memory.read (Memory.writes junk (requestWrites b)) 0 dhcpMessageLenMax :=
  bootpRequest_eq junk b

/-- What a field holds in the end. -/
theorem read_requestWrites (junk : ℕ → Byte) (b : Binding) {p : ℕ} {l : List Byte}
    (h : (p, l) ∈ requestWrites b) :
    Memory.read (Memory.writes junk (requestWrites b)) p l.length = l :=
  Memory.read_writes (requestWrites_apart b) h

/-- The fields leave no gap: each stands where it is written. -/
theorem requestFields_laid (b : Binding) :
    ∀ w ∈ Memory.laid 0 (requestFields b), w ∈ requestWrites b := by
  have hmac : b.macAddr.toList.length = 6 := Vector.length_toList
  unfold requestFields requestWrites
  simp only [Memory.laid, hmac, List.length_replicate, length_bytes32, List.length_cons,
    List.length_nil, List.forall_mem_cons]
  refine ⟨?_, ?_, ?_, ?_, ?_, ?_, ?_, ?_, ?_, ?_, ?_, ?_, ?_, ?_, ?_, ?_⟩
  all_goals
    simp [offsetXid, offsetCiaddr, offsetChaddr, offsetOp, offsetHtype, offsetHlen, offsetHops,
      offsetSecs, offsetFlags, offsetYiaddr, offsetSiaddr, offsetGiaddr, offsetOptions,
      dhcpMacAddrLen, lenMagic]

theorem length_requestFields (b : Binding) :
    (requestFields b).flatten.length = dhcpMessageLenMax := by
  have hmac : b.macAddr.toList.length = 6 := Vector.length_toList
  unfold requestFields
  simp only [List.flatten_cons, List.flatten_nil, List.length_append, hmac, length_requestArea,
    length_bytes32, List.length_replicate, List.length_cons, List.length_nil]
  rfl

/-- **The bytes of a request** are its fields, whatever the buffer held before. -/
theorem bootpRequest_bytes (junk : ℕ → Byte) (b : Binding) :
    bootpRequest junk b = (requestFields b).flatten := by
  have hlaid := Memory.read_laid fun w hw =>
    read_requestWrites junk b (requestFields_laid b w hw)
  rw [length_requestFields] at hlaid
  rw [bootpRequest_writes, hlaid]

/-- The message as a function of what it is made from. -/
def requestMessage (state : DhcpState) (xid : BitVec 32) (macAddr : Vector Byte dhcpMacAddrLen)
    (client dhcpServer : InAddr) : List Byte :=
  (requestFields { Binding.zero with
    state := state, xid := xid, macAddr := macAddr, client := client
    dhcpServer := dhcpServer }).flatten

theorem bootpRequest_eq_message (junk : ℕ → Byte) (b : Binding) :
    bootpRequest junk b = requestMessage b.state b.xid b.macAddr b.client b.dhcpServer :=
  bootpRequest_bytes junk b

/-- A field of the message at its place. -/
theorem read_bootpRequest (junk : ℕ → Byte) (b : Binding) {p : ℕ} {l : List Byte}
    (h : (p, l) ∈ requestWrites b) (hle : p + l.length ≤ dhcpMessageLenMax) :
    Memory.read (memOf (bootpRequest junk b)) p l.length = l := by
  unfold memOf
  rw [Memory.read_getD _ _ (by rw [length_bootpRequest]; exact hle), bootpRequest_writes,
    Memory.drop_read _ _ (by omega), Memory.take_read _ _ (by omega), Nat.zero_add]
  exact read_requestWrites junk b h

/-! ## The pointer into the options -/

/-- The message with its options and the end mark, and `p_options` behind the mark. -/
def requestDraft (junk : ℕ → Byte) (b : Binding) : Draft :=
  let m := Memory.write junk offsetXid (bytes32 b.xid)
  let m := Memory.write m offsetCiaddr (bytes32 (requestCiaddr b))
  let m := Memory.write m offsetChaddr b.macAddr.toList
  let d := dhcpAppendCommonOptions (requestType b.state)
    (fillBootpRequest m, offsetOptions + lenMagic)
  let d := if b.state = .selecting then dhcpAppendOption32 optServerIdentifier b.dhcpServer d else d
  let d := if b.state = .selecting then dhcpAppendOption32 optRequestedIpAddress b.client d else d
  append [optEnd] d

/-- The last `memset` fills what is left of the buffer. -/
theorem bootpRequest_eq_draft (junk : ℕ → Byte) (b : Binding) :
    bootpRequest junk b
      = Memory.read (Memory.write (requestDraft junk b).1 (requestDraft junk b).2
          (List.replicate (dhcpMessageLenMax - (requestDraft junk b).2) 0)) 0 dhcpMessageLenMax :=
  rfl

/-- The options end inside the buffer. -/
theorem requestDraft_le (junk : ℕ → Byte) (b : Binding) :
    (requestDraft junk b).2 ≤ dhcpMessageLenMax := by
  unfold requestDraft
  by_cases h : b.state = .selecting
  · simp only [if_pos h]
    show (267 : ℕ) ≤ 548
    decide
  · simp only [if_neg h]
    show (255 : ℕ) ≤ 548
    decide

/-! ## Parsing the options of a request -/

/-- The options of a request as a stream. -/
def requestItems (b : Binding) : List (Tlv.Item Byte) :=
  (requestOptions b).map fun o => .option o.1 o.2

theorem options_requestItems (b : Binding) : Tlv.options (requestItems b) = requestOptions b := by
  unfold Tlv.options requestItems
  rw [List.filterMap_map]
  exact List.filterMap_some

theorem write_requestItems (b : Binding) :
    Tlv.write optionFormat (BitVec.ofNat 8) (requestItems b) = requestOptionBytes b := by
  unfold Tlv.write requestItems requestOptionBytes Tlv.encode
  rw [List.flatMap_map]
  rfl

/-- Every option of a request has one of five tags and a length that it may have. -/
theorem requestOptions_wellFormed (b : Binding) :
    ∀ o ∈ requestOptions b, o.1 ≠ optPad ∧ o.1 ≠ optEnd ∧ o.1 ≠ optDomainNameServer ∧
      o.2.length < 256 ∧ badLength o = false := by
  have htype : ∀ x, badLength (optDhcpMessageType, [x]) = false := fun _ => rfl
  have hlist : ∀ l, badLength (optParameterRequestList, l) = false := fun _ => rfl
  have hlease : ∀ v, badLength (optIpAddressLeaseTime, bytes32 v) = false := fun _ => rfl
  have hserver : ∀ v, badLength (optServerIdentifier, bytes32 v) = false := fun _ => rfl
  have haddr : ∀ l, badLength (optRequestedIpAddress, l) = false := fun _ => rfl
  unfold requestOptions
  split <;> simp [htype, hlist, hlease, hserver, haddr] <;> decide

/-- The options area of a request, wherever the message stands. -/
theorem optionsArea_requestMessage {junk : ℕ → Byte} {b : Binding} {m : ℕ → Byte} {q : ℕ}
    (h : Memory.read m q dhcpMessageLenMax = bootpRequest junk b) :
    OptionsArea m (q + (offsetOptions + lenMagic)) (q + dhcpMessageLenMax) (requestItems b) := by
  have hread : Memory.read m (q + (offsetOptions + lenMagic))
      (q + dhcpMessageLenMax - (q + (offsetOptions + lenMagic))) = requestArea b := by
    have hle : offsetOptions + lenMagic ≤ dhcpMessageLenMax := by decide
    rw [Nat.add_sub_add_left, ← Memory.drop_read m q hle, h, bootpRequest_eq,
      Memory.drop_read _ _ hle, Nat.zero_add]
    have hwrite := Memory.read_write (requestHeader junk b) (offsetOptions + lenMagic)
      (requestArea b)
    rw [length_requestArea] at hwrite
    exact hwrite
  constructor
  · intro i hi
    obtain ⟨o, ho, rfl⟩ := List.mem_map.1 hi
    obtain ⟨hpad, hend, -, hlen, -⟩ := requestOptions_wellFormed b o ho
    exact ⟨hpad, hend, (BitVec.toNat_ofNat ..).trans (Nat.mod_eq_of_lt hlen)⟩
  · rw [options_requestItems]
    intro o ho htag
    exact absurd htag (requestOptions_wellFormed b o ho).2.2.1
  · refine ⟨optEnd :: List.replicate (307 - (requestOptionBytes b).length) 0,
      Or.inr ⟨_, rfl⟩, ?_⟩
    rw [hread, write_requestItems]
    unfold requestArea
    rw [List.append_assoc, List.singleton_append]

theorem payload32_bytes32 (v : BitVec 32) : payload32 (bytes32 v) = v := by
  have h := payload32_read (Memory.write (fun _ => 0) 0 (bytes32 v)) 0 le_rfl
  rw [load32_write] at h
  have hread : Memory.read (Memory.write (fun _ => 0) 0 (bytes32 v)) 0 4 = bytes32 v :=
    Memory.read_write (fun _ => 0) 0 (bytes32 v)
  rw [hread] at h
  exact h

/-- **A request is parsed without an error** to its type and, in `DHCP_SELECTING`, its
server. -/
theorem dhcpParseOptions_request {junk : ℕ → Byte} {b : Binding} {m : ℕ → Byte} {q : ℕ}
    (h : Memory.read m q dhcpMessageLenMax = bootpRequest junk b) (now : ℕ → Timespec)
    (type : Byte) (old : Binding) :
    (dhcpParseOptionsFrom m now (q + (offsetOptions + lenMagic)) (q + dhcpMessageLenMax) type
        old).1.ret = 0 ∧
      (dhcpParseOptionsFrom m now (q + (offsetOptions + lenMagic)) (q + dhcpMessageLenMax) type
        old).1.type = requestType b.state ∧
      (b.state = .selecting →
        (dhcpParseOptionsFrom m now (q + (offsetOptions + lenMagic)) (q + dhcpMessageLenMax) type
          old).1.options.dhcpServer = b.dhcpServer) := by
  obtain ⟨hfail, hvalues, -⟩ :=
    dhcpParseOptions_items (optionsArea_requestMessage h) now type old
  rw [options_requestItems] at hfail hvalues
  have hgood : ¬ ∃ o ∈ requestOptions b, badLength o = true := by
    rintro ⟨o, ho, hbad⟩
    rw [(requestOptions_wellFormed b o ho).2.2.2.2] at hbad
    cases hbad
  obtain ⟨hret, htype, hopts⟩ := hvalues (fun hret => hgood (hfail.1 hret))
  refine ⟨hret, ?_, fun hsel => ?_⟩
  · rw [htype]
    unfold typeAfter requestOptions
    split <;> rfl
  · rw [hopts]
    unfold bindingAfter addrAfter requestOptions
    rw [if_pos hsel]
    exact payload32_bytes32 b.dhcpServer

/-! ## What is sent -/

/-- What holds of the message that is sent for a binding. -/
structure RequestSent (b : Binding) (msg : List Byte) : Prop where
  bytes : msg = requestMessage b.state b.xid b.macAddr b.client b.dhcpServer
  length : msg.length = dhcpMessageLenMax
  xid : Memory.read (memOf msg) offsetXid 4 = bytes32 b.xid
  ciaddr : Memory.read (memOf msg) offsetCiaddr 4 = bytes32 (requestCiaddr b)
  chaddr : Memory.read (memOf msg) offsetChaddr dhcpMacAddrLen = b.macAddr.toList
  magic : Memory.read (memOf msg) offsetOptions lenMagic = bytes32 Dhcp.magic
  /-- Wherever the message stands, whatever `*type` and `*binding` hold. -/
  parse : ∀ (m : ℕ → Byte) (q : ℕ), Memory.read m q dhcpMessageLenMax = msg →
    ∀ (now : ℕ → Timespec) (type : Byte) (old : Binding),
      (dhcpParseOptionsFrom m now (q + (offsetOptions + lenMagic)) (q + dhcpMessageLenMax) type
          old).1.ret = 0 ∧
        (dhcpParseOptionsFrom m now (q + (offsetOptions + lenMagic)) (q + dhcpMessageLenMax) type
          old).1.type = requestType b.state ∧
        (b.state = .selecting →
          (dhcpParseOptionsFrom m now (q + (offsetOptions + lenMagic)) (q + dhcpMessageLenMax)
            type old).1.options.dhcpServer = b.dhcpServer)

theorem bootpRequest_sent (junk : ℕ → Byte) (b : Binding) :
    RequestSent b (bootpRequest junk b) := by
  have hmac : b.macAddr.toList.length = dhcpMacAddrLen := Vector.length_toList
  refine ⟨bootpRequest_eq_message junk b, length_bootpRequest junk b, ?_, ?_, ?_, ?_,
    fun m q h => dhcpParseOptions_request h⟩
  · exact read_bootpRequest junk b (p := offsetXid) (l := bytes32 b.xid)
      (by simp [requestWrites]) (by rw [length_bytes32]; decide)
  · exact read_bootpRequest junk b (p := offsetCiaddr) (l := bytes32 (requestCiaddr b))
      (by simp [requestWrites]) (by rw [length_bytes32]; decide)
  · have hchaddr := read_bootpRequest junk b (p := offsetChaddr) (l := b.macAddr.toList)
      (by simp [requestWrites]) (by rw [hmac]; decide)
    rw [hmac] at hchaddr
    exact hchaddr
  · exact read_bootpRequest junk b (p := offsetOptions) (l := bytes32 magic)
      (by simp [requestWrites]) (by decide)

/-- **What `send_bootp_request` sends**: one message, the same for the same state, `xid`, MAC
address, client and server whatever the buffer held, its options inside the buffer, and parsed
to what was put in. -/
theorem sendBootpRequest_message (sock : ℤ) (a : Attempt) (b : Binding) :
    ∃ msg, (sendBootpRequest sock a b).1 = [.send sock (withXid a b) msg a.sendRet] ∧
      RequestSent (withXid a b) msg ∧
      (requestDraft a.junk (withXid a b)).2 ≤ dhcpMessageLenMax ∧
      msg = Memory.read (Memory.write (requestDraft a.junk (withXid a b)).1
        (requestDraft a.junk (withXid a b)).2
        (List.replicate (dhcpMessageLenMax - (requestDraft a.junk (withXid a b)).2) 0)) 0
        dhcpMessageLenMax := by
  refine ⟨bootpRequest a.junk (withXid a b), ?_, bootpRequest_sent _ _, requestDraft_le _ _,
    bootpRequest_eq_draft _ _⟩
  unfold sendBootpRequest
  dsimp only
  split <;> rfl

end Dhcp

end Nucleo
