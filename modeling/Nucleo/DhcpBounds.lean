/-
# What the DHCP client reads of a reply

`bootp_check_reply` is not told the size of the datagram, and `dhcp_parse_options` looks at
it only at the start of an option.  Both functions stand here once more, reading through a
`Guarded.View`, so that they stop where they would read a byte behind a limit; where they
do not stop they return what the functions of `DhcpMessage` return
(`bootpCheckReplyIn_of_inside`, `dhcpParseLoopIn_of_inside`).

`readsBounded_iff` says for which datagrams the bytes read lie inside the datagram and
inside the payload of the option they are read for, and malformed ones are discarded.
-/
import Nucleo.Lib.Guarded
import Nucleo.DhcpLease

namespace Nucleo

namespace Dhcp

open Guarded

/-! ## The functions with a limit -/

section Reading

variable (v : View Byte)

/-- `memcpy` of four bytes into a word. -/
def loadIn (p : ℕ) : Except Unit (BitVec 32) := do
  let bs ← v.cells () p 4
  pure (load32 (fun k => bs.getD k 0) 0)

/-- `bootp_check_reply`. -/
def bootpCheckReplyIn (macAddr : Vector Byte dhcpMacAddrLen) (xid : BitVec 32) :
    Except Unit ℕ := do
  let op ← v.cell () offsetOp
  if op ≠ bootReply then pure offsetOp
  else
    let htype ← v.cell () offsetHtype
    if htype ≠ 1 then pure offsetHtype
    else
      let hlen ← v.cell () offsetHlen
      if hlen ≠ 6 then pure offsetHlen
      else
        let x ← loadIn v offsetXid
        if x ≠ xid then pure offsetXid
        else
          let chaddr ← v.cells () offsetChaddr dhcpMacAddrLen
          if chaddr ≠ macAddr.toList then pure offsetChaddr
          else
            let m ← loadIn v offsetOptions
            if m ≠ magic then pure offsetOptions else pure (offsetOptions + lenMagic)

/-- The `switch` of `dhcp_parse_options`. -/
def dhcpParseOptionIn (now : Timespec) (option len : Byte) (p : ℕ) (s : Parsed) :
    Except Unit Parsed :=
  if option = optDhcpMessageType then do
    let type ← v.cell () p
    pure { s with lenError := s.lenError || len != 1, type := type }
  else if option = optServerIdentifier then do
    let dhcpServer ← loadIn v p
    pure { s with
      lenError := s.lenError || len != 4
      options := { s.options with dhcpServer := dhcpServer } }
  else if option = optIpAddressLeaseTime then do
    let lease ← loadIn v p
    let t := leaseTimes now (htonl lease)
    pure { s with
      lenError := s.lenError || len != 4
      options := { s.options with leaseT1 := t.1, leaseT2 := t.2 } }
  else if option = optSubnet then do
    let subnet ← loadIn v p
    pure { s with
      lenError := s.lenError || len != 4
      options := { s.options with subnet := subnet } }
  else if option = optRouter then do
    let gateway ← loadIn v p
    pure { s with
      lenError := s.lenError || len != 4
      options := { s.options with gateway := gateway } }
  else if option = optDomainNameServer then do
    let dnsServer ← loadIn v p
    pure { s with
      lenError := s.lenError || len % 4 != 0
      options := { s.options with dnsServer := dnsServer } }
  else pure s

/-- The loop of `dhcp_parse_options`; the first argument bounds the rounds. -/
def dhcpParseLoopIn (now : Timespec) (pEnd : ℕ) : ℕ → ℕ → Parsed → Except Unit Parsed
  | 0, _, s => pure s
  | fuel + 1, p, s =>
      if p < pEnd then do
        let option ← v.cell () p
        if option = optPad then dhcpParseLoopIn now pEnd fuel (p + 1) s
        else if option = optEnd then pure s
        else
          let len ← v.cell () (p + 1)
          let s ← dhcpParseOptionIn v now option len (p + 2) s
          dhcpParseLoopIn now pEnd fuel (p + 2 + len.toNat) s
      else pure s

/-- `dhcp_parse_options`. -/
def dhcpParseOptionsIn (now : Timespec) (pOptions pEnd : ℕ) : Except Unit Parsed :=
  dhcpParseLoopIn v now pEnd (pEnd - pOptions) pOptions ⟨false, 0, Binding.zero⟩

end Reading

/-! ## What is read -/

section Footprint

variable {v : View Byte} {p : ℕ}

/-- A word inside is read. -/
theorem loadIn_of_le (h : p + 4 ≤ v.limit) : loadIn v p = .ok (load32 v.mem p) := by
  unfold loadIn
  rw [cells_of_le h]
  rfl

/-- One that reaches behind the message is not. -/
theorem loadIn_of_lt (h : v.limit < p + 4) : loadIn v p = .error () := by
  unfold loadIn
  rw [cells_of_lt (by decide) h]
  rfl

/-- A read followed by something stays inside when both do. -/
theorem loadIn_bind_ne_error {α : Type} {f : BitVec 32 → Except Unit α} :
    (loadIn v p >>= f) ≠ .error () ↔ p + 4 ≤ v.limit ∧ f (load32 v.mem p) ≠ .error () := by
  by_cases h : p + 4 ≤ v.limit
  · rw [loadIn_of_le h]
    exact ⟨fun hf => ⟨h, hf⟩, fun hf => hf.2⟩
  · rw [loadIn_of_lt (Nat.not_le.1 h)]
    exact iff_of_false (fun hf => hf rfl) (fun hf => h hf.1)

/-- The fields that `bootp_check_reply` compares, in order: their offsets and the bytes that
it expects there. -/
def headerFields (macAddr : Vector Byte dhcpMacAddrLen) (xid : BitVec 32) :
    List (ℕ × List Byte) :=
  [(offsetOp, [bootReply]), (offsetHtype, [1]), (offsetHlen, [6]), (offsetXid, bytes32 xid),
    (offsetChaddr, macAddr.toList), (offsetOptions, bytes32 magic)]

/-- The fields up to the first one that differs lie in the first `n` bytes. -/
def HeaderInside (m : ℕ → Byte) (n : ℕ) : List (ℕ × List Byte) → Prop
  | [] => True
  | (p, l) :: rest =>
      p + l.length ≤ n ∧ (Memory.read m p l.length = l → HeaderInside m n rest)

instance decidableHeaderInside (m : ℕ → Byte) (n : ℕ) :
    ∀ fields, Decidable (HeaderInside m n fields)
  | [] => isTrue trivial
  | (p, l) :: rest =>
      have : Decidable (HeaderInside m n rest) := decidableHeaderInside m n rest
      inferInstanceAs (Decidable (p + l.length ≤ n ∧
        (Memory.read m p l.length = l → HeaderInside m n rest)))

/-! ### The header -/

/-- One byte is compared. -/
theorem read_one_eq (m : ℕ → Byte) (p : ℕ) (b : Byte) : Memory.read m p 1 = [b] ↔ m p = b := by
  rw [Memory.read_succ, Memory.read_zero]
  simp

/-- Four bytes are compared as a word. -/
theorem read_four_eq (m : ℕ → Byte) (p : ℕ) (w : BitVec 32) :
    Memory.read m p 4 = bytes32 w ↔ load32 m p = w := by
  constructor
  · intro h
    rw [← load32_write m p w]
    exact load32_congr (h.trans (Memory.read_write m p (bytes32 w)).symm)
  · rintro rfl
    exact (bytes32_load32 m p).symm

/-- `bootp_check_reply` reads the fields up to the first one that differs. -/
theorem bootpCheckReplyIn_of_inside {macAddr : Vector Byte dhcpMacAddrLen} {xid : BitVec 32}
    (h : HeaderInside v.mem v.limit (headerFields macAddr xid)) :
    bootpCheckReplyIn v macAddr xid = .ok (bootpCheckReply v.mem macAddr xid) := by
  unfold headerFields at h
  simp only [HeaderInside, List.length_singleton, length_bytes32, Vector.length_toList,
    read_one_eq, read_four_eq] at h
  obtain ⟨hop, h⟩ := h
  unfold bootpCheckReplyIn bootpCheckReply
  rw [cell_of_lt (by omega)]
  dsimp only [bind, Except.bind]
  -- field by field: the next one is read only if this one agrees
  by_cases h1 : v.mem offsetOp = bootReply
  swap
  · rw [if_pos h1, if_pos h1]
    rfl
  obtain ⟨hhtype, h⟩ := h h1
  rw [if_neg (not_not.2 h1), if_neg (not_not.2 h1), cell_of_lt (by omega)]
  dsimp only
  by_cases h2 : v.mem offsetHtype = 1
  swap
  · rw [if_pos h2, if_pos h2]
    rfl
  obtain ⟨hhlen, h⟩ := h h2
  rw [if_neg (not_not.2 h2), if_neg (not_not.2 h2), cell_of_lt (by omega)]
  dsimp only
  by_cases h3 : v.mem offsetHlen = 6
  swap
  · rw [if_pos h3, if_pos h3]
    rfl
  obtain ⟨hxid, h⟩ := h h3
  rw [if_neg (not_not.2 h3), if_neg (not_not.2 h3), loadIn_of_le hxid]
  dsimp only
  by_cases h4 : load32 v.mem offsetXid = xid
  swap
  · rw [if_pos h4, if_pos h4]
    rfl
  obtain ⟨hchaddr, h⟩ := h h4
  rw [if_neg (not_not.2 h4), if_neg (not_not.2 h4), cells_of_le hchaddr]
  dsimp only
  by_cases h5 : Memory.read v.mem offsetChaddr dhcpMacAddrLen = macAddr.toList
  swap
  · rw [if_pos h5, if_pos h5]
    rfl
  obtain ⟨hmagic, -⟩ := h h5
  rw [if_neg (not_not.2 h5), if_neg (not_not.2 h5), loadIn_of_le hmagic]
  dsimp only
  split_ifs <;> rfl

/-- The check of the header reads what it examines. -/
theorem headerInside_of_ne_error {macAddr : Vector Byte dhcpMacAddrLen} {xid : BitVec 32}
    (h : bootpCheckReplyIn v macAddr xid ≠ .error ()) :
    HeaderInside v.mem v.limit (headerFields macAddr xid) := by
  unfold headerFields
  simp only [HeaderInside, List.length_singleton, length_bytes32, Vector.length_toList,
    read_one_eq, read_four_eq]
  obtain ⟨hop, h⟩ := cell_bind_ne_error.1 h
  refine ⟨hop, fun h1 => ?_⟩
  rw [if_neg (not_not.2 h1)] at h
  obtain ⟨hhtype, h⟩ := cell_bind_ne_error.1 h
  refine ⟨hhtype, fun h2 => ?_⟩
  rw [if_neg (not_not.2 h2)] at h
  obtain ⟨hhlen, h⟩ := cell_bind_ne_error.1 h
  refine ⟨hhlen, fun h3 => ?_⟩
  rw [if_neg (not_not.2 h3)] at h
  obtain ⟨hxid, h⟩ := loadIn_bind_ne_error.1 h
  refine ⟨hxid, fun h4 => ?_⟩
  rw [if_neg (not_not.2 h4)] at h
  obtain ⟨hchaddr, h⟩ := (cells_bind_ne_error (by decide)).1 h
  refine ⟨hchaddr, fun h5 => ?_⟩
  rw [if_neg (not_not.2 h5)] at h
  exact ⟨(loadIn_bind_ne_error.1 h).1, fun _ => trivial⟩

/-- A message that the check lets through has all the fields. -/
theorem length_of_check {macAddr : Vector Byte dhcpMacAddrLen} {xid : BitVec 32} {n : ℕ}
    {m : ℕ → Byte} (h : HeaderInside m n (headerFields macAddr xid))
    (hcheck : offsetOptions < bootpCheckReply m macAddr xid) : offsetOptions + lenMagic ≤ n := by
  unfold headerFields at h
  simp only [HeaderInside, List.length_singleton, length_bytes32, Vector.length_toList,
    read_one_eq, read_four_eq] at h
  unfold bootpCheckReply at hcheck
  split_ifs at hcheck with h1 h2 h3 h4 h5 h6
  · exact absurd hcheck (by decide)
  · exact absurd hcheck (by decide)
  · exact absurd hcheck (by decide)
  · exact absurd hcheck (by decide)
  · exact absurd hcheck (by decide)
  · exact absurd hcheck (by decide)
  · exact ((((((h.2 (not_not.1 h1)).2 (not_not.1 h2)).2 (not_not.1 h3)).2 (not_not.1 h4)).2
      (not_not.1 h5)).1)

end Footprint

/-! ## The options that are looked at -/

/-- An option as the loop of `dhcp_parse_options` meets it: its tag, its length byte and
where its payload starts. -/
structure OptionHeader where
  tag : Byte
  len : Byte
  start : ℕ
  deriving DecidableEq, Repr

/-- The options that the loop meets from `p` on; the first argument bounds the rounds. -/
def optionHeaders (m : ℕ → Byte) (pEnd : ℕ) : ℕ → ℕ → List OptionHeader
  | 0, _ => []
  | fuel + 1, p =>
      if p < pEnd then
        if m p = optPad then optionHeaders m pEnd fuel (p + 1)
        else if m p = optEnd then []
        else ⟨m p, m (p + 1), p + 2⟩ :: optionHeaders m pEnd fuel (p + 2 + (m (p + 1)).toNat)
      else []

/-- The options that `dhcp_parse_options` meets in a datagram. -/
def Datagram.headers (d : Datagram) : List OptionHeader :=
  optionHeaders d.mem d.size (d.size - (offsetOptions + lenMagic)) (offsetOptions + lenMagic)

/-- What is read for the payload of an option at `p` lies in the first `n` bytes. -/
def PayloadInside (n : ℕ) (tag : Byte) (p : ℕ) : Prop :=
  (tag = optDhcpMessageType → p < n) ∧ (tag ∈ intoBinding → p + 4 ≤ n)

instance (n : ℕ) (tag : Byte) (p : ℕ) : Decidable (PayloadInside n tag p) :=
  inferInstanceAs (Decidable (_ ∧ _))

/-- The option's length byte and what is read for its payload lie in the first `n` bytes. -/
def OptionHeader.Inside (n : ℕ) (o : OptionHeader) : Prop :=
  o.start ≤ n ∧ PayloadInside n o.tag o.start

instance (n : ℕ) (o : OptionHeader) : Decidable (o.Inside n) :=
  inferInstanceAs (Decidable (_ ∧ _))

/-- The payload is not as long as the tag requires. -/
def OptionHeader.badLength (m : ℕ → Byte) (o : OptionHeader) : Bool :=
  Dhcp.badLength (o.tag, Memory.read m o.start o.len.toNat)

section Options

variable {v : View Byte} {p : ℕ}

/-! ## One option, and all of them -/

/-- An option inside is parsed. -/
theorem dhcpParseOptionIn_of_inside {now : Timespec} {tag len : Byte} {s : Parsed}
    (h : PayloadInside v.limit tag p) :
    dhcpParseOptionIn v now tag len p s = .ok (dhcpParseOption v.mem now tag len p s) := by
  obtain ⟨htype, haddr⟩ := h
  have hload : tag ∈ intoBinding → loadIn v p = .ok (load32 v.mem p) := fun h => loadIn_of_le (haddr h)
  unfold dhcpParseOptionIn dhcpParseOption
  by_cases h1 : tag = optDhcpMessageType
  · rw [if_pos h1, if_pos h1, cell_of_lt (htype h1)]
    rfl
  rw [if_neg h1, if_neg h1]
  by_cases h2 : tag ∈ intoBinding
  · rw [hload h2]
    split_ifs <;> rfl
  · simp only [intoBinding, List.mem_cons, List.not_mem_nil, or_false, not_or] at h2
    obtain ⟨h2, h3, h4, h5, h6⟩ := h2
    rw [if_neg h2, if_neg h3, if_neg h4, if_neg h5, if_neg h6, if_neg h2, if_neg h3, if_neg h4,
      if_neg h5, if_neg h6]
    rfl

/-- **Only such an option is**. -/
theorem payloadInside_of_ne_error {now : Timespec} {tag len : Byte} {s : Parsed}
    (h : dhcpParseOptionIn v now tag len p s ≠ .error ()) : PayloadInside v.limit tag p := by
  unfold dhcpParseOptionIn at h
  constructor
  · intro h1
    rw [if_pos h1] at h
    exact (cell_bind_ne_error.1 h).1
  · intro h2
    by_contra hlt
    apply h
    have hne : tag ≠ optDhcpMessageType := by
      rintro rfl
      exact absurd h2 (by decide)
    have hmem := h2
    simp only [intoBinding, List.mem_cons, List.not_mem_nil, or_false] at hmem
    rw [if_neg hne, loadIn_of_lt (Nat.not_le.1 hlt)]
    split_ifs with h3 h4 h5 h6 h7
    · rfl
    · rfl
    · rfl
    · rfl
    · rfl
    · rcases hmem with h' | h' | h' | h' | h'
      · exact absurd h' h3
      · exact absurd h' h4
      · exact absurd h' h5
      · exact absurd h' h6
      · exact absurd h' h7

/-- The loop reads the headers of the options that it meets, and what it stores of them. -/
theorem dhcpParseLoopIn_of_inside {now : Timespec} {fuel : ℕ} {s : Parsed}
    (h : ∀ o ∈ optionHeaders v.mem v.limit fuel p, o.Inside v.limit) :
    dhcpParseLoopIn v now v.limit fuel p s
      = .ok (Tlv.scan optionFormat v.mem v.limit (dhcpParseOption v.mem now) fuel p s) := by
  induction fuel generalizing p s with
  | zero => rfl
  | succ fuel ih =>
      unfold optionHeaders at h
      unfold dhcpParseLoopIn Tlv.scan
      by_cases hp : p < v.limit
      swap
      · rw [if_neg hp, if_neg hp]
        rfl
      rw [if_pos hp] at h
      rw [if_pos hp, if_pos hp, cell_of_lt hp]
      dsimp only [bind, Except.bind]
      by_cases hpad : v.mem p = optPad
      · rw [if_pos hpad] at h
        rw [if_pos hpad, if_pos (show v.mem p = optionFormat.pad from hpad)]
        exact ih h
      rw [if_neg hpad] at h
      rw [if_neg hpad, if_neg (show ¬ v.mem p = optionFormat.pad from hpad)]
      by_cases hend : v.mem p = optEnd
      · rw [if_pos hend, if_pos (show v.mem p = optionFormat.stop from hend)]
        rfl
      rw [if_neg hend] at h
      obtain ⟨⟨hstart, hpay⟩, hrest⟩ := List.forall_mem_cons.1 h
      rw [if_neg hend, if_neg (show ¬ v.mem p = optionFormat.stop from hend),
        cell_of_lt (by dsimp only at hstart; omega)]
      dsimp only
      rw [dhcpParseOptionIn_of_inside hpay]
      exact ih hrest

/-- So it is for all options. -/
theorem inside_of_ne_error {now : Timespec} {fuel : ℕ} {s : Parsed}
    (h : dhcpParseLoopIn v now v.limit fuel p s ≠ .error ()) :
    ∀ o ∈ optionHeaders v.mem v.limit fuel p, o.Inside v.limit := by
  -- the same rounds as those of `optionHeaders`: a read that stops one stops the other
  induction fuel generalizing p s with
  | zero =>
      intro o ho
      cases ho
  | succ fuel ih =>
      unfold dhcpParseLoopIn at h
      unfold optionHeaders
      by_cases hp : p < v.limit
      swap
      · rw [if_neg hp]
        intro o ho
        cases ho
      rw [if_pos hp] at h
      rw [if_pos hp]
      obtain ⟨-, h⟩ := cell_bind_ne_error.1 h
      by_cases hpad : v.mem p = optPad
      · rw [if_pos hpad] at h
        rw [if_pos hpad]
        exact ih h
      rw [if_neg hpad] at h
      rw [if_neg hpad]
      by_cases hend : v.mem p = optEnd
      · rw [if_pos hend]
        intro o ho
        cases ho
      rw [if_neg hend] at h
      rw [if_neg hend]
      obtain ⟨hlen, h⟩ := cell_bind_ne_error.1 h
      obtain ⟨hopt, h⟩ := bind_ne_error.1 h
      have hpay := payloadInside_of_ne_error hopt
      refine List.forall_mem_cons.2 ⟨⟨hlen, hpay⟩, ?_⟩
      exact ih (h _ (dhcpParseOptionIn_of_inside hpay))

/-- The error flag at the end of the loop. -/
theorem scan_lenError (m : ℕ → Byte) (now : Timespec) (pEnd fuel p : ℕ) (s : Parsed) :
    (Tlv.scan optionFormat m pEnd (dhcpParseOption m now) fuel p s).lenError
      = (s.lenError || (optionHeaders m pEnd fuel p).any (OptionHeader.badLength m)) := by
  induction fuel generalizing p s with
  | zero => exact (Bool.or_false _).symm
  | succ fuel ih =>
      unfold Tlv.scan optionHeaders
      by_cases hp : p < pEnd
      swap
      · rw [if_neg hp, if_neg hp]
        exact (Bool.or_false _).symm
      rw [if_pos hp, if_pos hp]
      by_cases hpad : m p = optPad
      · rw [if_pos hpad, if_pos (show m p = optionFormat.pad from hpad)]
        exact ih _ _
      rw [if_neg hpad, if_neg (show ¬ m p = optionFormat.pad from hpad)]
      by_cases hend : m p = optEnd
      · rw [if_pos hend, if_pos (show m p = optionFormat.stop from hend)]
        exact (Bool.or_false _).symm
      rw [if_neg hend, if_neg (show ¬ m p = optionFormat.stop from hend), ih,
        dhcpParseOption_lenError, List.any_cons, Bool.or_assoc]
      rfl

end Options

/-! ## Datagrams -/

section Datagrams

variable (d : Datagram) (b : Binding)

/-- `bootp_check_reply` lets the datagram through. -/
def Passes : Prop := offsetOptions < bootpCheckReply d.mem b.macAddr b.xid

/-- `recv_bootp_reply` goes on waiting after the datagram. -/
def Discarded : Prop := ∀ now, ¬ IsReply b d now

/-- Only bytes of the datagram are read, and only bytes of an option's own payload are
copied into the binding; datagrams that are too short, options that are cut short and empty
lists of name servers are discarded. -/
structure ReadsBounded : Prop where
  check : bootpCheckReplyIn ⟨d.mem, d.size⟩ b.macAddr b.xid ≠ .error ()
  parse : Passes d b → ∀ now,
    dhcpParseOptionsIn ⟨d.mem, d.size⟩ now (offsetOptions + lenMagic) d.size ≠ .error ()
  payload : Passes d b → ∀ o ∈ d.headers, o.tag ∈ intoBinding → ∀ now s,
    dhcpParseOptionIn ⟨d.mem, o.start + o.len.toNat⟩ now o.tag o.len o.start s ≠ .error ()
  short : d.size < offsetOptions + lenMagic → Discarded d b
  cut : (∃ o ∈ d.headers, d.size < o.start + o.len.toNat) → Discarded d b
  empty : (∃ o ∈ d.headers, o.tag = optDomainNameServer ∧ o.len = 0) → Discarded d b

/-- The datagram is one that the unchecked code reads in bounds. -/
structure WellBounded : Prop where
  header : HeaderInside d.mem d.size (headerFields b.macAddr b.xid)
  inside : Passes d b → ∀ o ∈ d.headers, o.Inside d.size
  four : Passes d b → ∀ o ∈ d.headers, o.tag ∈ intoBinding → 4 ≤ o.len.toNat
  cut : Passes d b → (∃ o ∈ d.headers, d.size < o.start + o.len.toNat) →
    ∃ o ∈ d.headers, o.badLength d.mem = true

variable {d b}

/-- A datagram that the check lets through is discarded for a wrong length only. -/
theorem discarded_iff (hsize : 0 < d.size) (hpass : Passes d b) :
    Discarded d b ↔ ∃ o ∈ d.headers, o.badLength d.mem = true := by
  have herr : ∀ now, (d.parsed now).lenError = d.headers.any (OptionHeader.badLength d.mem) := by
    intro now
    unfold Datagram.parsed dhcpParseOptions
    rw [scan_lenError, Bool.false_or]
    rfl
  rw [← List.any_eq_true]
  constructor
  · intro h
    by_contra hgood
    exact h timespecZero ⟨by omega, hpass, (herr _).trans (Bool.eq_false_iff.2 hgood)⟩
  · rintro hbad now ⟨-, -, hlen⟩
    rw [herr, hbad] at hlen
    exact Bool.false_ne_true hlen.symm

theorem discarded_of_not_passes (h : ¬ Passes d b) : Discarded d b := fun _ hr => h hr.2.1

/-! ### Where all reads are bounded -/

/-- **The DHCP client reads in bounds** exactly the datagrams whose compared header fields,
option headers and recognised payloads lie inside them, with four bytes of payload where
four are copied, and with a wrong length where an option is cut short. -/
theorem readsBounded_iff (d : Datagram) (b : Binding) (hsize : 0 < d.size) :
    ReadsBounded d b ↔ WellBounded d b := by
  constructor
  · intro h
    refine ⟨headerInside_of_ne_error h.check, fun hpass => ?_, fun hpass o ho htag => ?_,
      fun hpass hcut => ?_⟩
    · have hparse := h.parse hpass timespecZero
      unfold dhcpParseOptionsIn at hparse
      unfold Datagram.headers
      exact inside_of_ne_error (v := ⟨d.mem, d.size⟩) hparse
    · have hpay := payloadInside_of_ne_error (h.payload hpass o ho htag timespecZero
        ⟨false, 0, Binding.zero⟩)
      have hle : o.start + 4 ≤ o.start + o.len.toNat := hpay.2 htag
      omega
    · exact (discarded_iff hsize hpass).1 (h.cut hcut)
  · intro h
    constructor
    · rw [bootpCheckReplyIn_of_inside (v := ⟨d.mem, d.size⟩) h.header]
      rintro hc
      cases hc
    · intro hpass now
      have hin := h.inside hpass
      unfold Datagram.headers at hin
      unfold dhcpParseOptionsIn
      rw [dhcpParseLoopIn_of_inside (v := ⟨d.mem, d.size⟩) hin]
      rintro hc
      cases hc
    · intro hpass o ho htag now s
      have hfour := h.four hpass o ho htag
      rw [dhcpParseOptionIn_of_inside (v := ⟨d.mem, o.start + o.len.toNat⟩)]
      · rintro hc
        cases hc
      · refine ⟨fun htype => ?_, fun _ => Nat.add_le_add_left hfour _⟩
        rw [htype] at htag
        exact absurd htag (by decide)
    -- a datagram shorter than the header is not let through by the check
    · intro hshort
      by_cases hpass : Passes d b
      · have hle := length_of_check h.header hpass
        omega
      · exact discarded_of_not_passes hpass
    · intro hcut
      by_cases hpass : Passes d b
      · exact (discarded_iff hsize hpass).2 (h.cut hpass hcut)
      · exact discarded_of_not_passes hpass
    · rintro ⟨o, ho, htag, hlen⟩
      by_cases hpass : Passes d b
      · have hfour := h.four hpass o ho (by rw [htag]; decide)
        rw [hlen] at hfour
        exact absurd hfour (by decide)
      · exact discarded_of_not_passes hpass

/-- An acknowledgement with a name server, a lease time and the options of `exampleAck`. -/
def namedAck : Datagram :=
  exampleReply exampleXid exampleClient ([optDomainNameServer, 4, 8, 8, 8, 8] ++
    [optIpAddressLeaseTime, 4, 0, 0, 14, 16] ++ exampleOptions dhcpAck [255, 255, 255, 0]) fun _ => 0

/-- Its header and its six options are read inside it. -/
theorem readsBounded_namedAck :
    Passes namedAck requestingBinding ∧ namedAck.headers.length = 6 ∧
      ReadsBounded namedAck requestingBinding := by
  have hfour : ∀ o ∈ namedAck.headers, o.tag ∈ intoBinding → 4 ≤ o.len.toNat := by decide +kernel
  have hfits : ∀ o ∈ namedAck.headers, o.Inside namedAck.size ∧
      o.start + o.len.toNat ≤ namedAck.size := by
    decide +kernel
  have hpass : Passes namedAck requestingBinding := by
    unfold Passes
    decide +kernel
  refine ⟨hpass, by decide +kernel, (readsBounded_iff namedAck requestingBinding (by decide)).2
    ⟨by decide +kernel, fun _ o ho => (hfits o ho).1, fun _ => hfour, ?_⟩⟩
  rintro - ⟨o, ho, hlt⟩
  exact absurd (hfits o ho).2 (Nat.not_le.2 hlt)

/-- A single byte that begins like a reply makes the check read the byte behind it. -/
theorem readsBounded_fails : ¬ ∀ (d : Datagram) (b : Binding), 0 < d.size →
    d.size ≤ dhcpMessageLenMax → ReadsBounded d b := by
  intro h
  have hr : bootpCheckReplyIn ⟨fun _ => 2, 1⟩ Binding.zero.macAddr Binding.zero.xid = .error () := rfl
  exact (h ⟨1, fun _ => 2⟩ Binding.zero Nat.one_pos (by decide)).check hr

end Datagrams

end Dhcp

end Nucleo
