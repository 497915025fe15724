/-
# DHCP messages

The half of `dhcp_client.c` that reads and writes messages: `bootp_check_reply`,
`dhcp_parse_options`, `dhcp_check_options` and the construction of a request by
`send_bootp_request`.

A received message is a memory: the bytes of the datagram and, behind them,
whatever the receive buffer held before (`Datagram`).  The loop of
`dhcp_parse_options` looks at the end of the message only at the start of an
option, so it can read behind it.  What a datagram carries, and which datagrams are
read as they carry it, is defined here (`carried`, `Datagram.OptionsInside`).
-/
import Nucleo.Lib.Tlv
import Nucleo.Inet

namespace Nucleo

namespace Dhcp

/-! ## Constants -/

/-- The operation of a request. -/
def bootRequest : Byte := 1
/-- The operation of a reply. -/
def bootReply : Byte := 2

/-- Where the operation is in a message. -/
def offsetOp : ℕ := 0
/-- Where the hardware type is. -/
def offsetHtype : ℕ := 1
/-- Where the length of the hardware address is. -/
def offsetHlen : ℕ := 2
/-- Where the number of hops is. -/
def offsetHops : ℕ := 3
/-- Where the transaction identifier is. -/
def offsetXid : ℕ := 4
/-- Where the elapsed seconds are. -/
def offsetSecs : ℕ := 8
/-- Where the flags are. -/
def offsetFlags : ℕ := 10
/-- Where the address of the client is. -/
def offsetCiaddr : ℕ := 12
/-- Where the address that it is given is. -/
def offsetYiaddr : ℕ := 16
/-- Where the address of the server is. -/
def offsetSiaddr : ℕ := 20
/-- Where the address of the relay is. -/
def offsetGiaddr : ℕ := 24
/-- Where the hardware address is. -/
def offsetChaddr : ℕ := 28
/-- Where the options begin. -/
def offsetOptions : ℕ := 236

/-- The size of the magic word in front of them. -/
def lenMagic : ℕ := 4
/-- The length of an Ethernet address. -/
def dhcpMacAddrLen : ℕ := 6

/-- `DHCP_MESSAGE_LEN_MAX`: the header and 312 bytes of options. -/
def dhcpMessageLenMax : ℕ := 548

/-- The option that fills up. -/
def optPad : Byte := 0
/-- The option that ends the others. -/
def optEnd : Byte := 255
/-- The option of the subnet mask. -/
def optSubnet : Byte := 1
/-- The option of the gateway. -/
def optRouter : Byte := 3
/-- The option of the name server. -/
def optDomainNameServer : Byte := 6
/-- The option of the address that is asked for. -/
def optRequestedIpAddress : Byte := 50
/-- The option of the lease time. -/
def optIpAddressLeaseTime : Byte := 51
/-- The option of the message type. -/
def optDhcpMessageType : Byte := 53
/-- The option of the server. -/
def optServerIdentifier : Byte := 54
/-- The option of the parameters that are asked for. -/
def optParameterRequestList : Byte := 55

/-- `DHCPDISCOVER`. -/
def dhcpDiscover : Byte := 1
/-- `DHCPOFFER`. -/
def dhcpOffer : Byte := 2
/-- `DHCPREQUEST`. -/
def dhcpRequest : Byte := 3
/-- `DHCPACK`. -/
def dhcpAck : Byte := 5
/-- `DHCPNAK`. -/
def dhcpNak : Byte := 6

/-- The error of a call that failed. -/
def dhcpEsyscall : ℤ := -2
/-- The error of a missing server. -/
def dhcpEnoserverid : ℤ := -5
/-- The error of a missing gateway. -/
def dhcpEnogateway : ℤ := -6
/-- The error of a missing subnet mask. -/
def dhcpEnosubnet : ℤ := -7

/-- The magic word. -/
def magic : BitVec 32 := htonl 0x63825363

/-! ## The binding -/

/-- `enum dhcp_state`. -/
inductive DhcpState
  | init | selecting | requesting | bound | initReboot | rebooting | renewing | rebinding
  deriving DecidableEq, Repr

/-- `struct dhcp_binding`. -/
structure Binding where
  state : DhcpState
  macAddr : Vector Byte dhcpMacAddrLen
  client : InAddr
  dhcpServer : InAddr
  gateway : InAddr
  subnet : InAddr
  dnsServer : InAddr
  xid : BitVec 32
  leaseT1 : Timespec
  leaseT2 : Timespec
  deriving DecidableEq

/-- The binding that `memset` leaves. -/
def Binding.zero : Binding :=
  ⟨.init, Vector.replicate _ 0, 0, 0, 0, 0, 0, 0, timespecZero, timespecZero⟩

/-! ## Reading a message -/

/-- A message in the receive buffer: `mem` holds its `size` bytes and, behind
them, what the memory held before. -/
structure Datagram where
  size : ℕ
  mem : ℕ → Byte

/-- `bootp_check_reply`. -/
def bootpCheckReply (msg : ℕ → Byte) (macAddr : Vector Byte dhcpMacAddrLen) (xid : BitVec 32) :
    ℕ :=
  if msg offsetOp ≠ bootReply then offsetOp
  else if msg offsetHtype ≠ 1 then offsetHtype
  else if msg offsetHlen ≠ 6 then offsetHlen
  else if load32 msg offsetXid ≠ xid then offsetXid
  else if Memory.read msg offsetChaddr dhcpMacAddrLen ≠ macAddr.toList then offsetChaddr
  else if load32 msg offsetOptions ≠ magic then offsetOptions
  else offsetOptions + lenMagic

/-- T1 and T2 of a lease of `lease` seconds that starts at `now`. -/
def leaseTimes (now : Timespec) (lease : BitVec 32) : Timespec × Timespec :=
  if (lease.toNat : ℤ) ≥ intMax then (timespecInfinity, timespecInfinity)
  else
    (timespecAdd now ⟨lease.toNat / 2, 0⟩,
      timespecAdd now ⟨lease.toNat - lease.toNat / 8, 0⟩)

/-- What `dhcp_parse_options` has stored so far. -/
structure Parsed where
  lenError : Bool
  type : Byte
  options : Binding
  deriving DecidableEq

/-- The `switch` of `dhcp_parse_options`, with the pointer behind the length byte.
`now` is the clock reading for a lease time. -/
def dhcpParseOption (m : ℕ → Byte) (now : Timespec) (option len : Byte) (p : ℕ) (s : Parsed) :
    Parsed :=
  if option = optDhcpMessageType then
    { s with lenError := s.lenError || len != 1, type := m p }
  else if option = optServerIdentifier then
    { s with
      lenError := s.lenError || len != 4
      options := { s.options with dhcpServer := load32 m p } }
  else if option = optIpAddressLeaseTime then
    let t := leaseTimes now (htonl (load32 m p))
    { s with
      lenError := s.lenError || len != 4
      options := { s.options with leaseT1 := t.1, leaseT2 := t.2 } }
  else if option = optSubnet then
    { s with
      lenError := s.lenError || len != 4
      options := { s.options with subnet := load32 m p } }
  else if option = optRouter then
    { s with
      lenError := s.lenError || len != 4
      options := { s.options with gateway := load32 m p } }
  else if option = optDomainNameServer then
    { s with
      lenError := s.lenError || len % 4 != 0
      options := { s.options with dnsServer := load32 m p } }
  else s

/-- How the options area is made up. -/
def optionFormat : Tlv.Format Byte := ⟨optPad, optEnd, BitVec.toNat⟩

/-- `dhcp_parse_options`: the loop from `pOptions` to `pEnd`, on a `type` of 0 and
a zeroed binding as `recv_bootp_reply` passes them.  Several lease times in one
message are read at several times; only the reading for the last one remains, and
`now` is that one. -/
def dhcpParseOptions (m : ℕ → Byte) (now : Timespec) (pOptions pEnd : ℕ) : Parsed :=
  Tlv.scan optionFormat m pEnd (dhcpParseOption m now) (pEnd - pOptions) pOptions
    ⟨false, 0, Binding.zero⟩

/-- `dhcp_parse_options` on a received message.  For a message shorter than the
header the source's unsigned subtraction and pointer addition wrap to an end
before the start. -/
@[irreducible] def Datagram.parsed (d : Datagram) (now : Timespec) : Parsed :=
  dhcpParseOptions d.mem now (offsetOptions + lenMagic) d.size

/-- The address offered or assigned by a message. -/
def Datagram.yiaddr (d : Datagram) : InAddr := load32 d.mem offsetYiaddr

/-! ### The check of the options -/

/-- A zero time is replaced by the infinite one. -/
def zeroToInfinity (t : Timespec) : Timespec :=
  if (timespecDiff timespecZero t).2 = 0 then timespecInfinity else t

/-- `dhcp_check_options`: the value returned and the options as they are left. -/
def dhcpCheckOptions (options : Binding) : ℤ × Binding :=
  if options.dhcpServer = inaddrAny then (dhcpEnoserverid, options)
  else if options.gateway = inaddrAny then (dhcpEnogateway, options)
  else if options.subnet = inaddrAny then (dhcpEnosubnet, options)
  else
    (0, { options with
      leaseT1 := zeroToInfinity options.leaseT1
      leaseT2 := zeroToInfinity options.leaseT2 })

/-- Accepted options name a server, a gateway and a subnet mask. -/
theorem dhcpCheckOptions_eq_zero {options : Binding} (h : (dhcpCheckOptions options).1 = 0) :
    options.dhcpServer ≠ inaddrAny ∧ options.gateway ≠ inaddrAny ∧
      options.subnet ≠ inaddrAny := by
  unfold dhcpCheckOptions at h
  split_ifs at h with h1 h2 h3
  · simp [dhcpEnoserverid] at h
  · simp [dhcpEnogateway] at h
  · simp [dhcpEnosubnet] at h
  · exact ⟨h1, h2, h3⟩

/-- The lease times that the check leaves. -/
theorem dhcpCheckOptions_times {options : Binding} (h : (dhcpCheckOptions options).1 = 0) :
    (dhcpCheckOptions options).2.leaseT1 = zeroToInfinity options.leaseT1 ∧
      (dhcpCheckOptions options).2.leaseT2 = zeroToInfinity options.leaseT2 := by
  obtain ⟨hs, hg, hm⟩ := dhcpCheckOptions_eq_zero h
  unfold dhcpCheckOptions
  rw [if_neg hs, if_neg hg, if_neg hm]
  exact ⟨rfl, rfl⟩

/-- The check touches only the lease times. -/
theorem dhcpCheckOptions_fields (options : Binding) :
    (dhcpCheckOptions options).2.dhcpServer = options.dhcpServer ∧
      (dhcpCheckOptions options).2.gateway = options.gateway ∧
      (dhcpCheckOptions options).2.subnet = options.subnet ∧
      (dhcpCheckOptions options).2.dnsServer = options.dnsServer := by
  unfold dhcpCheckOptions
  split_ifs <;> exact ⟨rfl, rfl, rfl, rfl⟩

/-! ## What a message carries -/

/-- The options area of a message: what lies between the magic and the end. -/
def Datagram.area (d : Datagram) : List Byte :=
  Memory.read d.mem (offsetOptions + lenMagic) (d.size - (offsetOptions + lenMagic))

/-- The options that lie inside the message. -/
@[irreducible] def Datagram.options (d : Datagram) : List (Byte × List Byte) :=
  (Tlv.decode optionFormat (d.size - (offsetOptions + lenMagic)) d.area).1

/-- The tag of the option that the end of the message cuts short. -/
@[irreducible] def Datagram.cut (d : Datagram) : Option Byte :=
  (Tlv.decode optionFormat (d.size - (offsetOptions + lenMagic)) d.area).2

/-- The tags that `dhcp_parse_options` looks into. -/
def recognised : List Byte :=
  [optDhcpMessageType, optServerIdentifier, optIpAddressLeaseTime, optSubnet, optRouter,
    optDomainNameServer]

/-- The tags whose payload is copied into the binding. -/
def intoBinding : List Byte :=
  [optServerIdentifier, optIpAddressLeaseTime, optSubnet, optRouter, optDomainNameServer]

/-- No recognised option is cut short, and no list of name servers is empty. -/
def Datagram.OptionsInside (d : Datagram) : Prop :=
  (∀ tag ∈ d.cut, tag ∉ recognised) ∧ ∀ o ∈ d.options, o.1 = optDomainNameServer → o.2 ≠ []

instance (d : Datagram) : Decidable d.OptionsInside :=
  inferInstanceAs (Decidable ((∀ tag ∈ d.cut, tag ∉ recognised) ∧
    ∀ o ∈ d.options, o.1 = optDomainNameServer → o.2 ≠ []))

/-- The payload of the last option with a tag. -/
def lastOption (os : List (Byte × List Byte)) (tag : Byte) : Option (List Byte) :=
  (os.reverse.find? fun o => o.1 == tag).map Prod.snd

/-- The first byte of a payload. -/
def payloadByte (l : List Byte) : Byte := l.getD 0 0

/-- The first four bytes of a payload as a word. -/
def payload32 (l : List Byte) : BitVec 32 := load32 (fun i => l.getD i 0) 0

/-- The type that options carry, 0 when there is none. -/
def carriedType (os : List (Byte × List Byte)) : Byte :=
  ((lastOption os optDhcpMessageType).map payloadByte).getD 0

/-- The address that options carry under a tag, `INADDR_ANY` when there is none. -/
def carriedAddr (os : List (Byte × List Byte)) (tag : Byte) : InAddr :=
  ((lastOption os tag).map payload32).getD inaddrAny

/-- T1 and T2 that options carry, zero when there is no lease time. -/
def carriedLease (os : List (Byte × List Byte)) (now : Timespec) : Timespec × Timespec :=
  ((lastOption os optIpAddressLeaseTime).map fun l => leaseTimes now (htonl (payload32 l))).getD
    (timespecZero, timespecZero)

/-- The options as a binding. -/
def carried (os : List (Byte × List Byte)) (now : Timespec) : Binding :=
  { Binding.zero with
    dhcpServer := carriedAddr os optServerIdentifier
    gateway := carriedAddr os optRouter
    subnet := carriedAddr os optSubnet
    dnsServer := carriedAddr os optDomainNameServer
    leaseT1 := (carriedLease os now).1
    leaseT2 := (carriedLease os now).2 }

/-- The length of the payload is not one that the option has. -/
def badLength (o : Byte × List Byte) : Bool :=
  if o.1 = optDhcpMessageType then o.2.length != 1
  else if o.1 = optServerIdentifier ∨ o.1 = optIpAddressLeaseTime ∨ o.1 = optSubnet ∨
      o.1 = optRouter then o.2.length != 4
  else if o.1 = optDomainNameServer then o.2.length % 4 != 0
  else false

/-! ### One option -/

/-- The last option of a tag counts. -/
theorem lastOption_append (os : List (Byte × List Byte)) (o : Byte × List Byte) (tag : Byte) :
    lastOption (os ++ [o]) tag = if o.1 = tag then some o.2 else lastOption os tag := by
  unfold lastOption
  rw [List.reverse_append, List.reverse_singleton, List.singleton_append, List.find?_cons]
  by_cases h : o.1 = tag
  · simp [h]
  · have hne : (o.1 == tag) = false := by simpa using h
    rw [hne, if_neg h]

/-- The first bytes of a payload are those at its address. -/
theorem payload32_read (m : ℕ → Byte) (p : ℕ) {n : ℕ} (h : 4 ≤ n) :
    payload32 (Memory.read m p n) = load32 m p := by
  unfold payload32
  apply load32_congr
  simp only [Memory.read_succ, Memory.read_zero, List.getD_eq_getElem?_getD]
  rw [Memory.getElem?_read m (by omega), Memory.getElem?_read m (by omega),
    Memory.getElem?_read m (by omega), Memory.getElem?_read m (by omega)]
  rfl

theorem payloadByte_read (m : ℕ → Byte) (p : ℕ) {n : ℕ} (h : 1 ≤ n) :
    payloadByte (Memory.read m p n) = m p := by
  unfold payloadByte
  rw [List.getD_eq_getElem?_getD, Memory.getElem?_read m (by omega)]
  rfl

/-- A tag that is not recognised leaves the state alone. -/
theorem dhcpParseOption_of_not_recognised {m : ℕ → Byte} {now : Timespec} {tag : Byte}
    (h : tag ∉ recognised) (len : Byte) (p : ℕ) (s : Parsed) :
    dhcpParseOption m now tag len p s = s := by
  simp only [recognised, List.mem_cons, List.not_mem_nil, or_false, not_or] at h
  obtain ⟨h1, h2, h3, h4, h5, h6⟩ := h
  unfold dhcpParseOption
  rw [if_neg h1, if_neg h2, if_neg h3, if_neg h4, if_neg h5, if_neg h6]

theorem bne_toNat (x y : Byte) : (x != y) = (x.toNat != y.toNat) := by
  rw [Bool.eq_iff_iff, bne_iff_ne, bne_iff_ne, ne_eq, ne_eq, BitVec.toNat_inj]

/-- The error flag after an option that lies inside the message. -/
theorem dhcpParseOption_lenError (m : ℕ → Byte) (now : Timespec) (tag len : Byte) (p : ℕ)
    (s : Parsed) :
    (dhcpParseOption m now tag len p s).lenError
      = (s.lenError || badLength (tag, Memory.read m p len.toNat)) := by
  have hmod : (len % 4 != 0) = (len.toNat % 4 != 0) := by
    rw [bne_toNat, BitVec.toNat_umod]
    rfl
  unfold dhcpParseOption badLength
  simp only [Memory.length_read, hmod, bne_toNat len]
  by_cases h1 : tag = optDhcpMessageType
  · rw [if_pos h1, if_pos h1]
    rfl
  by_cases h2 : tag = optServerIdentifier
  · rw [if_neg h1, if_pos h2, if_neg h1, if_pos (Or.inl h2)]
    rfl
  by_cases h3 : tag = optIpAddressLeaseTime
  · rw [if_neg h1, if_neg h2, if_pos h3, if_neg h1, if_pos (Or.inr (Or.inl h3))]
    rfl
  by_cases h4 : tag = optSubnet
  · rw [if_neg h1, if_neg h2, if_neg h3, if_pos h4, if_neg h1,
      if_pos (Or.inr (Or.inr (Or.inl h4)))]
    rfl
  by_cases h5 : tag = optRouter
  · rw [if_neg h1, if_neg h2, if_neg h3, if_neg h4, if_pos h5, if_neg h1,
      if_pos (Or.inr (Or.inr (Or.inr h5)))]
    rfl
  have hfour : ¬ (tag = optServerIdentifier ∨ tag = optIpAddressLeaseTime ∨ tag = optSubnet ∨
      tag = optRouter) := by
    rintro (h | h | h | h)
    · exact h2 h
    · exact h3 h
    · exact h4 h
    · exact h5 h
  rw [if_neg h1, if_neg h2, if_neg h3, if_neg h4, if_neg h5, if_neg h1, if_neg hfour]
  by_cases h6 : tag = optDomainNameServer
  · rw [if_pos h6, if_pos h6]
  · rw [if_neg h6, if_neg h6, Bool.or_false]

/-! ## Writing a request -/

/-- `XID`. -/
def xidBase : BitVec 32 := htonl 0xdeadbee0

/-- `gen_xid` with the value of `rand()`. -/
def genXid (macAddr : Vector Byte dhcpMacAddrLen) (rand : BitVec 32) : BitVec 32 :=
  macAddr.toList.foldl (fun xid b => xid * b.setWidth 32 + b.setWidth 32) xidBase ^^^ rand

/-- `fill_bootp_request`. -/
def fillBootpRequest (m : ℕ → Byte) : ℕ → Byte :=
  let m := Memory.write m offsetOp [bootRequest]
  let m := Memory.write m offsetHtype [1]
  let m := Memory.write m offsetHlen [6]
  let m := Memory.write m offsetHops [0]
  let m := Memory.write m offsetSecs [0, 0]
  let m := Memory.write m offsetFlags [0x80, 0]
  let m := Memory.write m offsetYiaddr (bytes32 0)
  let m := Memory.write m offsetSiaddr (bytes32 0)
  let m := Memory.write m offsetGiaddr (bytes32 0)
  let m := Memory.write m (offsetChaddr + dhcpMacAddrLen) (List.replicate (10 + 64 + 128) 0)
  Memory.write m offsetOptions (bytes32 magic)

/-- A message under construction: the buffer and the pointer into its options. -/
abbrev Draft := (ℕ → Byte) × ℕ

/-- `*p_options++ = ...` for each byte of a list. -/
def append (l : List Byte) (d : Draft) : Draft := (Memory.write d.1 d.2 l, d.2 + l.length)

/-- `dhcp_append_option32`. -/
def dhcpAppendOption32 (opt : Byte) (val : BitVec 32) (d : Draft) : Draft :=
  append (opt :: 4 :: bytes32 val) d

/-- `dhcp_append_common_options`. -/
def dhcpAppendCommonOptions (type : Byte) (d : Draft) : Draft :=
  dhcpAppendOption32 optIpAddressLeaseTime 0xFFFFFFFF
    (append [optParameterRequestList, 3, optRouter, optSubnet, optDomainNameServer]
      (append [optDhcpMessageType, 1, type] d))

/-- The message type that `send_bootp_request` chooses. -/
def requestType : DhcpState → Byte
  | .init => dhcpDiscover
  | _ => dhcpRequest

/-- The `ciaddr` that `send_bootp_request` chooses. -/
def requestCiaddr (b : Binding) : InAddr :=
  match b.state with
  | .bound | .renewing | .rebinding => b.client
  | _ => 0

/-- The message that `send_bootp_request` builds in a buffer with contents `junk`,
once the binding has its `xid`. -/
def bootpRequest (junk : ℕ → Byte) (b : Binding) : List Byte :=
  let m := Memory.write junk offsetXid (bytes32 b.xid)
  let m := Memory.write m offsetCiaddr (bytes32 (requestCiaddr b))
  let m := Memory.write m offsetChaddr b.macAddr.toList
  let d := dhcpAppendCommonOptions (requestType b.state)
    (fillBootpRequest m, offsetOptions + lenMagic)
  let d := if b.state = .selecting then dhcpAppendOption32 optServerIdentifier b.dhcpServer d else d
  let d := if b.state = .selecting then dhcpAppendOption32 optRequestedIpAddress b.client d else d
  let d := append [optEnd] d
  let m := Memory.write d.1 d.2 (List.replicate (dhcpMessageLenMax - d.2) 0)
  Memory.read m 0 dhcpMessageLenMax

/-- The options of a request. -/
def requestOptions (b : Binding) : List (Byte × List Byte) :=
  [(optDhcpMessageType, [requestType b.state]),
    (optParameterRequestList, [optRouter, optSubnet, optDomainNameServer]),
    (optIpAddressLeaseTime, bytes32 0xFFFFFFFF)] ++
  if b.state = .selecting then
    [(optServerIdentifier, bytes32 b.dhcpServer), (optRequestedIpAddress, bytes32 b.client)]
  else []

/-- The memory that a message is received from. -/
def memOf (msg : List Byte) : ℕ → Byte := fun i => msg.getD i 0

/-- The options that a message of a given list of bytes carries. -/
def messageOptions (msg : List Byte) : List (Byte × List Byte) :=
  Datagram.options ⟨msg.length, memOf msg⟩

/-- Two texts go one behind the other. -/
theorem append_append (l l' : List Byte) (d : Draft) :
    append l' (append l d) = append (l ++ l') d := by
  unfold append
  rw [Memory.write_write, List.length_append, Nat.add_assoc]

/-! ### The options that are written -/

/-- The options of a request, byte for byte. -/
def requestOptionBytes (b : Binding) : List Byte :=
  Tlv.encode (BitVec.ofNat 8) (requestOptions b)

/-- The options area of a request: its options, the end mark and zeros. -/
def requestArea (b : Binding) : List Byte :=
  requestOptionBytes b ++ [optEnd] ++ List.replicate (307 - (requestOptionBytes b).length) 0

/-- The options of a request have room. -/
theorem length_requestOptionBytes_le (b : Binding) : (requestOptionBytes b).length ≤ 26 := by
  unfold requestOptionBytes requestOptions
  split <;> simp [Tlv.encode]

/-- They fill the area. -/
theorem length_requestArea (b : Binding) : (requestArea b).length = 308 := by
  have h := length_requestOptionBytes_le b
  unfold requestArea
  simp only [List.length_append, List.length_singleton, List.length_replicate]
  omega

/-- The header of a request: what is in the buffer before the options. -/
def requestHeader (junk : ℕ → Byte) (b : Binding) : ℕ → Byte :=
  fillBootpRequest (Memory.write (Memory.write (Memory.write junk offsetXid (bytes32 b.xid))
    offsetCiaddr (bytes32 (requestCiaddr b))) offsetChaddr b.macAddr.toList)

/-- **The message is its header and the options**. -/
theorem bootpRequest_eq (junk : ℕ → Byte) (b : Binding) :
    bootpRequest junk b
      = Memory.read (Memory.write (requestHeader junk b) (offsetOptions + lenMagic)
          (requestArea b)) 0 dhcpMessageLenMax := by
  have hdraft : ∀ d : Draft,
      (if b.state = .selecting then dhcpAppendOption32 optRequestedIpAddress b.client
          (if b.state = .selecting then dhcpAppendOption32 optServerIdentifier b.dhcpServer
            (dhcpAppendCommonOptions (requestType b.state) d)
          else dhcpAppendCommonOptions (requestType b.state) d)
        else if b.state = .selecting then dhcpAppendOption32 optServerIdentifier b.dhcpServer
            (dhcpAppendCommonOptions (requestType b.state) d)
          else dhcpAppendCommonOptions (requestType b.state) d)
        = append (requestOptionBytes b) d := by
    intro d
    unfold dhcpAppendCommonOptions dhcpAppendOption32 requestOptionBytes requestOptions
    by_cases h : b.state = .selecting
    · simp only [if_pos h, append_append]
      rfl
    · simp only [if_neg h, append_append]
      rfl
  have hlen : ∀ n, dhcpMessageLenMax - (offsetOptions + lenMagic + (n + 1)) = 307 - n := by
    intro n
    simp only [dhcpMessageLenMax, offsetOptions, lenMagic]
    omega
  unfold bootpRequest
  dsimp only
  rw [hdraft, append_append]
  unfold append requestArea
  dsimp only
  rw [Memory.write_write, List.length_append, List.length_singleton, hlen]
  rfl

/-- It has the full length. -/
theorem length_bootpRequest (junk : ℕ → Byte) (b : Binding) :
    (bootpRequest junk b).length = dhcpMessageLenMax := by
  rw [bootpRequest_eq, Memory.length_read]

/-- Its options are those that were put in. -/
theorem area_bootpRequest (junk : ℕ → Byte) (b : Binding) :
    Datagram.area ⟨dhcpMessageLenMax, memOf (bootpRequest junk b)⟩ = requestArea b := by
  have hsize : dhcpMessageLenMax = offsetOptions + lenMagic + 308 := rfl
  have harea := Memory.read_write (requestHeader junk b) (offsetOptions + lenMagic) (requestArea b)
  rw [length_requestArea] at harea
  unfold Datagram.area memOf
  dsimp only
  rw [Memory.read_getD _ _ (by rw [length_bootpRequest]; omega), bootpRequest_eq,
    Memory.drop_read _ _ (by omega), Memory.take_read _ _ le_rfl, Nat.zero_add, hsize,
    Nat.add_sub_cancel_left, harea]

/-- **The options of a request** are those that were appended. -/
theorem messageOptions_bootpRequest (junk : ℕ → Byte) (b : Binding) :
    messageOptions (bootpRequest junk b) = requestOptions b := by
  have hopt : ∀ o ∈ requestOptions b, o.1 ≠ optionFormat.pad ∧ o.1 ≠ optionFormat.stop ∧
      optionFormat.len (BitVec.ofNat 8 o.2.length) = o.2.length := by
    unfold requestOptions
    split <;> simp [optionFormat] <;> decide
  have hlen : (requestOptions b).length < dhcpMessageLenMax - (offsetOptions + lenMagic) := by
    unfold requestOptions
    split <;> simp [dhcpMessageLenMax, offsetOptions, lenMagic]
  unfold messageOptions Datagram.options
  rw [length_bootpRequest, area_bootpRequest]
  unfold requestArea requestOptionBytes
  rw [List.append_assoc, List.singleton_append]
  rw [show optEnd = optionFormat.stop from rfl, Tlv.decode_encode (by decide) hopt _ hlen]

/-! ### The words of the header -/

/-- A word of a message. -/
def messageWord (msg : List Byte) (p : ℕ) : BitVec 32 := load32 (memOf msg) p

/-- A word of a message that is read. -/
theorem messageWord_read (m : ℕ → Byte) {p n : ℕ} (h : p + 4 ≤ n) :
    messageWord (Memory.read m 0 n) p = load32 m p := by
  unfold messageWord memOf
  apply load32_congr
  rw [Memory.read_getD _ _ (by rw [Memory.length_read]; exact h), Memory.drop_read _ _ (by omega),
    Memory.take_read _ _ (by omega), Nat.zero_add]

/-- The header fields that `fill_bootp_request` leaves alone. -/
theorem load32_fillBootpRequest (m : ℕ → Byte) {p : ℕ} (h : p = offsetXid ∨ p = offsetCiaddr) :
    load32 (fillBootpRequest m) p = load32 m p := by
  unfold fillBootpRequest
  rcases h with rfl | rfl <;> repeat rw [load32_write_of_disjoint _ (by decide)]

theorem messageWord_bootpRequest (junk : ℕ → Byte) (b : Binding) {p : ℕ}
    (h : p = offsetXid ∨ p = offsetCiaddr) :
    messageWord (bootpRequest junk b) p
      = load32 (Memory.write (Memory.write junk offsetXid (bytes32 b.xid)) offsetCiaddr
          (bytes32 (requestCiaddr b))) p := by
  have hp : p + 4 ≤ offsetYiaddr := by
    rcases h with rfl | rfl <;> decide
  have hoff : offsetYiaddr ≤ offsetChaddr ∧ offsetYiaddr ≤ offsetOptions + lenMagic ∧
      offsetYiaddr ≤ dhcpMessageLenMax := by
    decide
  rw [bootpRequest_eq, messageWord_read _ (by omega), load32_write_of_disjoint _ (by omega)]
  unfold requestHeader
  rw [load32_fillBootpRequest _ h, load32_write_of_disjoint _ (by omega)]

/-- The identifier of a request. -/
theorem messageWord_xid (junk : ℕ → Byte) (b : Binding) :
    messageWord (bootpRequest junk b) offsetXid = b.xid := by
  rw [messageWord_bootpRequest junk b (Or.inl rfl), load32_write_of_disjoint _ (Or.inl (by decide)),
    load32_write]

/-- The client address of a request. -/
theorem messageWord_ciaddr (junk : ℕ → Byte) (b : Binding) :
    messageWord (bootpRequest junk b) offsetCiaddr = requestCiaddr b := by
  rw [messageWord_bootpRequest junk b (Or.inr rfl), load32_write]

end Dhcp

end Nucleo
