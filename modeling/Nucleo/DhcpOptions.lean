/-
# Parsing the options of a DHCP message

`dhcp_parse_options` on any options area that is a sequence of padding bytes and options:
what it returns and what it leaves in `*type` and `*binding`, whatever these held before.

`dhcpParseOptionsFrom` is the function of `DhcpMessage` with the contents that it starts
from, and with one clock reading for each lease time that needs one.
`dhcpParseOptions_items` says that the last option of each kind counts, and that padding
and options that are not recognised do not matter.  `parsed_storedOptions` says that a
received message is parsed to what it carries when no recognised option is cut short.
-/
import Nucleo.DhcpMessage

namespace Nucleo

namespace Dhcp

/-! ## Parsing into given contents -/

/-- A lease time that is not infinite is added to the time. -/
def readsClock (option : Byte) (lease : BitVec 32) : Bool :=
  option = optIpAddressLeaseTime ∧ (lease.toNat : ℤ) < intMax

/-- The `switch` of `dhcp_parse_options`, with the number of clock readings so far; `now k`
is the reading number `k`. -/
def dhcpParseOptionAt (m : ℕ → Byte) (now : ℕ → Timespec) (option len : Byte) (p : ℕ)
    (s : Parsed × ℕ) : Parsed × ℕ :=
  (dhcpParseOption m (now s.2) option len p s.1,
    if readsClock option (htonl (load32 m p)) then s.2 + 1 else s.2)

/-- `dhcp_parse_options` from `pOptions` to `pEnd`, with what `*type` and `*binding` hold. -/
def dhcpParseOptionsFrom (m : ℕ → Byte) (now : ℕ → Timespec) (pOptions pEnd : ℕ) (type : Byte)
    (binding : Binding) : Parsed × ℕ :=
  Tlv.scan optionFormat m pEnd (dhcpParseOptionAt m now) (pEnd - pOptions) pOptions
    (⟨false, type, binding⟩, 0)

/-- `len_error?-1:0`. -/
def Parsed.ret (s : Parsed) : ℤ := if s.lenError then -1 else 0

/-- The parsing of a received message is the case of a zeroed binding. -/
theorem dhcpParseOptions_eq (m : ℕ → Byte) (now : Timespec) (pOptions pEnd : ℕ) :
    dhcpParseOptions m now pOptions pEnd
      = (dhcpParseOptionsFrom m (fun _ => now) pOptions pEnd 0 Binding.zero).1 := by
  have hvisit : ∀ tag len p (s : Parsed × ℕ),
      (dhcpParseOptionAt m (fun _ => now) tag len p s).1
        = dhcpParseOption m now tag len p s.1 := fun _ _ _ _ => rfl
  unfold dhcpParseOptions dhcpParseOptionsFrom
  exact (Tlv.scan_map (F := optionFormat) (m := m) hvisit _ _ _ (⟨false, 0, Binding.zero⟩, 0)).symm

/-! ## What options say -/

/-- The type after the options. -/
def typeAfter (type : Byte) (os : List (Byte × List Byte)) : Byte :=
  ((lastOption os optDhcpMessageType).map payloadByte).getD type

/-- A field that holds the address of an option, after the options. -/
def addrAfter (old : InAddr) (os : List (Byte × List Byte)) (tag : Byte) : InAddr :=
  ((lastOption os tag).map payload32).getD old

/-- How many of the options make the clock be read. -/
def clockReads (os : List (Byte × List Byte)) : ℕ :=
  os.countP fun o => readsClock o.1 (htonl (payload32 o.2))

/-- T1 and T2 after the options: a half and seven eighths of the last lease time (the eighth
rounded down) behind the last clock reading, or never from `INT_MAX` seconds on. -/
def leaseAfter (old : Timespec × Timespec) (now : ℕ → Timespec) (os : List (Byte × List Byte)) :
    Timespec × Timespec :=
  match lastOption os optIpAddressLeaseTime with
  | none => old
  | some l =>
      let start := now (clockReads os - 1)
      let lease : ℤ := (htonl (payload32 l)).toNat
      if lease < intMax then
        (timespecAdd start ⟨lease / 2, 0⟩, timespecAdd start ⟨lease - lease / 8, 0⟩)
      else (timespecInfinity, timespecInfinity)

/-- The binding after the options; the other fields are as they were. -/
def bindingAfter (b : Binding) (now : ℕ → Timespec) (os : List (Byte × List Byte)) : Binding :=
  { b with
    dhcpServer := addrAfter b.dhcpServer os optServerIdentifier
    gateway := addrAfter b.gateway os optRouter
    subnet := addrAfter b.subnet os optSubnet
    dnsServer := addrAfter b.dnsServer os optDomainNameServer
    leaseT1 := (leaseAfter (b.leaseT1, b.leaseT2) now os).1
    leaseT2 := (leaseAfter (b.leaseT1, b.leaseT2) now os).2 }

/-- The payload is shorter than what is read of it. -/
def Short (o : Byte × List Byte) : Prop :=
  (o.1 = optDhcpMessageType ∧ o.2.length < 1) ∨ (o.1 ∈ intoBinding ∧ o.2.length < 4)

section After

variable (os : List (Byte × List Byte)) (o : Byte × List Byte)

/-- The last message type counts. -/
theorem typeAfter_snoc (type : Byte) :
    typeAfter type (os ++ [o])
      = if o.1 = optDhcpMessageType then payloadByte o.2 else typeAfter type os := by
  unfold typeAfter
  rw [lastOption_append]
  split <;> rfl

theorem addrAfter_snoc (old : InAddr) (tag : Byte) :
    addrAfter old (os ++ [o]) tag
      = if o.1 = tag then payload32 o.2 else addrAfter old os tag := by
  unfold addrAfter
  rw [lastOption_append]
  split <;> rfl

/-- A lease time reads the clock. -/
theorem clockReads_snoc :
    clockReads (os ++ [o])
      = if readsClock o.1 (htonl (payload32 o.2)) then clockReads os + 1 else clockReads os := by
  unfold clockReads
  rw [List.countP_append, List.countP_singleton]
  split <;> rfl

/-- An infinite lease time needs no clock reading. -/
theorem leaseTimes_congr {now now' : Timespec} {lease : BitVec 32}
    (h : (lease.toNat : ℤ) < intMax → now = now') :
    leaseTimes now lease = leaseTimes now' lease := by
  unfold leaseTimes
  by_cases hinf : (lease.toNat : ℤ) ≥ intMax
  · rw [if_pos hinf, if_pos hinf]
  · rw [h (Int.not_le.1 hinf)]

/-- The specification of T1 and T2 is met by the times that the source computes. -/
theorem leaseAfter_eq (old : Timespec × Timespec) (now : ℕ → Timespec) :
    leaseAfter old now os = ((lastOption os optIpAddressLeaseTime).map fun l =>
      leaseTimes (now (clockReads os - 1)) (htonl (payload32 l))).getD old := by
  unfold leaseAfter leaseTimes
  cases lastOption os optIpAddressLeaseTime with
  | none => rfl
  | some l =>
      dsimp only [Option.map_some, Option.getD_some]
      by_cases hfinite : ((htonl (payload32 l)).toNat : ℤ) < intMax
      · rw [if_pos hfinite, if_neg (Int.not_le.2 hfinite)]
      · rw [if_neg hfinite, if_pos (Int.not_lt.1 hfinite)]

/-- The last lease time counts. -/
theorem leaseAfter_snoc (old : Timespec × Timespec) (now : ℕ → Timespec) :
    leaseAfter old now (os ++ [o])
      = if o.1 = optIpAddressLeaseTime
        then leaseTimes (now (clockReads os)) (htonl (payload32 o.2))
        else leaseAfter old now os := by
  rw [leaseAfter_eq, leaseAfter_eq, lastOption_append, clockReads_snoc]
  by_cases htag : o.1 = optIpAddressLeaseTime
  · rw [if_pos htag, if_pos htag]
    refine leaseTimes_congr fun hfinite => ?_
    have hreads : readsClock o.1 (htonl (payload32 o.2)) = true := decide_eq_true ⟨htag, hfinite⟩
    rw [if_pos hreads, Nat.add_sub_cancel]
  · have hno : readsClock o.1 (htonl (payload32 o.2)) = false :=
      decide_eq_false fun h => htag h.1
    rw [if_neg htag, if_neg htag, hno]
    rfl

end After

/-! ## The loop over the options -/

/-- `s` is what parsing leaves after the options `os`, from the contents `type` and `b`.  The
stored values are told when no payload is shorter than what is read of it. -/
structure ParsedAfter (type : Byte) (b : Binding) (now : ℕ → Timespec) (s : Parsed × ℕ)
    (os : List (Byte × List Byte)) : Prop where
  lenError : s.1.lenError = os.any badLength
  values : (∀ o ∈ os, ¬ Short o) →
    s.1.type = typeAfter type os ∧ s.1.options = bindingAfter b now os ∧ s.2 = clockReads os

/-- The clock is not read for the other options. -/
theorem readsClock_of_ne {tag : Byte} (lease : BitVec 32) (h : tag ≠ optIpAddressLeaseTime) :
    readsClock tag lease = false := decide_eq_false fun hr => h hr.1

/-- Other options do not read the clock. -/
theorem readsClock_congr {tag : Byte} {lease lease' : BitVec 32}
    (h : tag = optIpAddressLeaseTime → lease = lease') :
    readsClock tag lease = readsClock tag lease' := by
  by_cases htag : tag = optIpAddressLeaseTime
  · rw [h htag]
  · rw [readsClock_of_ne _ htag, readsClock_of_ne _ htag]

section Step

variable {m : ℕ → Byte} {now : ℕ → Timespec} {tag len : Byte} {p : ℕ} {s : Parsed × ℕ}
  {os : List (Byte × List Byte)} {type : Byte} {b : Binding}

/-- What is read for an option that is not too short is its payload. -/
theorem payload_of_not_short (h : ¬ Short (tag, Memory.read m p len.toNat)) :
    (tag = optDhcpMessageType → payloadByte (Memory.read m p len.toNat) = m p) ∧
      (tag ∈ intoBinding → payload32 (Memory.read m p len.toNat) = load32 m p) := by
  unfold Short at h
  simp only [Memory.length_read, not_or, not_and, Nat.not_lt] at h
  exact ⟨fun htag => payloadByte_read m p (h.1 htag), fun htag => payload32_read m p (h.2 htag)⟩

/-- The values after one more option that is not too short. -/
theorem dhcpParseOptionAt_values (hshort : ¬ Short (tag, Memory.read m p len.toNat))
    (htype : s.1.type = typeAfter type os) (hopts : s.1.options = bindingAfter b now os)
    (hreads : s.2 = clockReads os) :
    (dhcpParseOptionAt m now tag len p s).1.type
        = typeAfter type (os ++ [(tag, Memory.read m p len.toNat)]) ∧
      (dhcpParseOptionAt m now tag len p s).1.options
        = bindingAfter b now (os ++ [(tag, Memory.read m p len.toNat)]) ∧
      (dhcpParseOptionAt m now tag len p s).2
        = clockReads (os ++ [(tag, Memory.read m p len.toNat)]) := by
  obtain ⟨hbyte, hword⟩ := payload_of_not_short hshort
  have hclock : readsClock tag (htonl (load32 m p))
      = readsClock tag (htonl (payload32 (Memory.read m p len.toNat))) := by
    refine readsClock_congr fun htag => ?_
    rw [hword (by rw [htag]; decide)]
  refine ⟨?_, ?_, ?_⟩
  · unfold dhcpParseOptionAt dhcpParseOption
    rw [typeAfter_snoc, ← htype]
    dsimp only
    by_cases h1 : tag = optDhcpMessageType
    · rw [if_pos h1, if_pos h1, hbyte h1]
    · rw [if_neg h1, if_neg h1]
      split_ifs <;> rfl
  · unfold dhcpParseOptionAt dhcpParseOption bindingAfter
    simp only [addrAfter_snoc, leaseAfter_snoc]
    rw [hreads]
    -- one case for each tag; the fields of the other tags are as after `os`
    by_cases h1 : tag = optDhcpMessageType
    · subst h1
      exact hopts
    rw [if_neg h1]
    by_cases h2 : tag ∈ intoBinding
    · rw [hword h2]
      simp only [intoBinding, List.mem_cons, List.not_mem_nil, or_false] at h2
      rcases h2 with rfl | rfl | rfl | rfl | rfl
      · rw [if_pos rfl, hopts]
        rfl
      · rw [if_neg (by decide), if_pos rfl, hopts]
        rfl
      · rw [if_neg (by decide), if_neg (by decide), if_pos rfl, hopts]
        rfl
      · rw [if_neg (by decide), if_neg (by decide), if_neg (by decide), if_pos rfl, hopts]
        rfl
      · rw [if_neg (by decide), if_neg (by decide), if_neg (by decide), if_neg (by decide),
          if_pos rfl, hopts]
        rfl
    · simp only [intoBinding, List.mem_cons, List.not_mem_nil, or_false, not_or] at h2
      obtain ⟨h2, h3, h4, h5, h6⟩ := h2
      simp only [if_neg h2, if_neg h3, if_neg h4, if_neg h5, if_neg h6]
      exact hopts
  · rw [clockReads_snoc, ← hreads, ← hclock]
    rfl

/-- One round of the loop. -/
theorem ParsedAfter.step (h : ParsedAfter type b now s os) (m : ℕ → Byte) (tag len : Byte)
    (p : ℕ) :
    ParsedAfter type b now (dhcpParseOptionAt m now tag len p s)
      (os ++ [(tag, Memory.read m p len.toNat)]) := by
  constructor
  · rw [List.any_append, List.any_cons, List.any_nil, Bool.or_false, ← h.lenError]
    exact dhcpParseOption_lenError ..
  · intro hshort
    obtain ⟨hos, ho⟩ := List.forall_mem_append.1 hshort
    obtain ⟨htype, hopts, hreads⟩ := h.values hos
    exact dhcpParseOptionAt_values (ho _ (List.mem_singleton_self _)) htype hopts hreads

end Step

/-- A tag that is not recognised does nothing. -/
theorem dhcpParseOptionAt_of_not_recognised {m : ℕ → Byte} {now : ℕ → Timespec} {tag : Byte}
    (h : tag ∉ recognised) (len : Byte) (p : ℕ) (s : Parsed × ℕ) :
    dhcpParseOptionAt m now tag len p s = s := by
  have hne : tag ≠ optIpAddressLeaseTime := fun htag => h (by rw [htag]; decide)
  unfold dhcpParseOptionAt
  rw [dhcpParseOption_of_not_recognised h, readsClock_of_ne _ hne]
  rfl

/-- **The loop goes through the options** that end before `pEnd`, if no recognised one is cut
short there. -/
theorem parsedAfter_decode {m : ℕ → Byte} {p pEnd : ℕ}
    (hcut : ∀ tag ∈ (Tlv.decode optionFormat (pEnd - p) (Memory.read m p (pEnd - p))).2,
      tag ∉ recognised) (now : ℕ → Timespec) (type : Byte) (b : Binding) :
    ParsedAfter type b now (dhcpParseOptionsFrom m now p pEnd type b)
      (Tlv.decode optionFormat (pEnd - p) (Memory.read m p (pEnd - p))).1 := by
  apply Tlv.scan_options (R := ParsedAfter type b now) (P := fun _ => True)
  · intro q s os _ hR
    exact hR.step m (m q) (m (q + 1)) (q + 2)
  · exact ⟨rfl, fun _ => ⟨rfl, rfl, rfl⟩⟩
  · exact le_rfl
  · exact fun _ _ => trivial
  · intro tag htag len q s os hR
    rw [dhcpParseOptionAt_of_not_recognised (hcut tag htag)]
    exact hR

/-! ### The area -/

/-- The bytes from `p` to `pEnd` are padding and options, up to `pEnd` or to an end mark. -/
structure OptionsArea (m : ℕ → Byte) (p pEnd : ℕ) (items : List (Tlv.Item Byte)) : Prop where
  items_wellFormed : ∀ i ∈ items, i.WellFormed optionFormat (BitVec.ofNat 8)
  dns_nonempty : ∀ o ∈ Tlv.options items, o.1 = optDomainNameServer → o.2 ≠ []
  read : ∃ tail, (tail = [] ∨ ∃ rest, tail = optEnd :: rest) ∧
    Memory.read m p (pEnd - p) = Tlv.write optionFormat (BitVec.ofNat 8) items ++ tail

/-- The options of an area are those that were written. -/
theorem OptionsArea.decode_eq {m : ℕ → Byte} {p pEnd : ℕ} {items : List (Tlv.Item Byte)}
    (h : OptionsArea m p pEnd items) :
    Tlv.decode optionFormat (pEnd - p) (Memory.read m p (pEnd - p))
      = (Tlv.options items, none) := by
  obtain ⟨tail, htail, hread⟩ := h.read
  have hlen : (Tlv.write optionFormat (BitVec.ofNat 8) items ++ tail).length ≤ pEnd - p := by
    rw [← hread, Memory.length_read]
  rw [hread]
  exact Tlv.decode_write (by decide) h.items_wellFormed htail hlen

/-- The loop goes through the options of its area. -/
theorem OptionsArea.parsedAfter {m : ℕ → Byte} {p pEnd : ℕ} {items : List (Tlv.Item Byte)}
    (h : OptionsArea m p pEnd items) (now : ℕ → Timespec) (type : Byte) (b : Binding) :
    ParsedAfter type b now (dhcpParseOptionsFrom m now p pEnd type b) (Tlv.options items) := by
  have hcut : ∀ tag ∈ (Tlv.decode optionFormat (pEnd - p) (Memory.read m p (pEnd - p))).2,
      tag ∉ recognised := by
    intro tag htag
    rw [h.decode_eq] at htag
    cases htag
  have hafter := parsedAfter_decode hcut now type b
  rw [h.decode_eq] at hafter
  exact hafter

/-! ## What does not matter -/

/-- Padding and options that are not recognised. -/
def Ignored : Tlv.Item Byte → Prop
  | .pad => True
  | .option tag _ => tag ∉ recognised

/-- The second stream is the first with ignored items inserted anywhere. -/
inductive Inserted : List (Tlv.Item Byte) → List (Tlv.Item Byte) → Prop
  | nil : Inserted [] []
  | keep (i : Tlv.Item Byte) {l l' : List (Tlv.Item Byte)} : Inserted l l' →
      Inserted (i :: l) (i :: l')
  | insert {i : Tlv.Item Byte} {l l' : List (Tlv.Item Byte)} : Ignored i → Inserted l l' →
      Inserted l (i :: l')

/-- The options that are looked into. -/
def significant (os : List (Byte × List Byte)) : List (Byte × List Byte) :=
  os.filter fun o => o.1 ∈ recognised

/-- Options that are not recognised are skipped. -/
theorem significant_cons (o : Byte × List Byte) (os : List (Byte × List Byte)) :
    significant (o :: os) = if o.1 ∈ recognised then o :: significant os else significant os := by
  unfold significant
  rw [List.filter_cons]
  exact if_congr (decide_eq_true_iff) rfl rfl

/-- **What is inserted does not count**. -/
theorem Inserted.significant_eq {items items' : List (Tlv.Item Byte)}
    (h : Inserted items items') :
    significant (Tlv.options items') = significant (Tlv.options items) := by
  induction h with
  | nil => rfl
  | @keep i l l' _ ih =>
      cases i with
      | pad => exact ih
      | option tag payload =>
          show significant ((tag, payload) :: Tlv.options l')
            = significant ((tag, payload) :: Tlv.options l)
          rw [significant_cons, significant_cons, ih]
  | @insert i l l' hi _ ih =>
      cases i with
      | pad => exact ih
      | option tag payload =>
          show significant ((tag, payload) :: Tlv.options l') = _
          rw [significant_cons, if_neg hi, ih]

section Significant

variable (os : List (Byte × List Byte))

/-- The last of a recognised option stays the last. -/
theorem lastOption_significant {tag : Byte} (h : tag ∈ recognised) :
    lastOption (significant os) tag = lastOption os tag := by
  unfold lastOption significant
  rw [← List.filter_reverse, List.find?_filter]
  congr 2
  funext o
  by_cases htag : o.1 = tag
  · rw [htag]
    simp [h]
  · simp [htag]

theorem any_significant {f : Byte × List Byte → Bool} (h : ∀ o, o.1 ∉ recognised → f o = false) :
    (significant os).any f = os.any f := by
  unfold significant
  rw [List.any_filter]
  congr 1
  funext o
  by_cases ho : o.1 ∈ recognised
  · simp [ho]
  · simp [ho, h o ho]

/-! ### What is read off the significant ones -/

/-- As many readings are made. -/
theorem clockReads_significant : clockReads (significant os) = clockReads os := by
  unfold clockReads significant
  rw [List.countP_filter]
  congr 1
  funext o
  by_cases ho : o.1 ∈ recognised
  · simp [ho]
  · have hne : o.1 ≠ optIpAddressLeaseTime := fun h => ho (by rw [h]; decide)
    simp [ho, readsClock_of_ne _ hne]

/-- The type is the same. -/
theorem typeAfter_significant (type : Byte) : typeAfter type (significant os) = typeAfter type os := by
  unfold typeAfter
  rw [lastOption_significant os (by decide)]

theorem bindingAfter_significant (b : Binding) (now : ℕ → Timespec) :
    bindingAfter b now (significant os) = bindingAfter b now os := by
  unfold bindingAfter addrAfter leaseAfter
  rw [lastOption_significant os (by decide), lastOption_significant os (by decide),
    lastOption_significant os (by decide), lastOption_significant os (by decide),
    lastOption_significant os (by decide), clockReads_significant]

theorem any_badLength_significant : (significant os).any badLength = os.any badLength := by
  apply any_significant
  intro o ho
  simp only [recognised, List.mem_cons, List.not_mem_nil, or_false, not_or] at ho
  obtain ⟨h1, h2, h3, h4, h5, h6⟩ := ho
  unfold badLength
  rw [if_neg h1, if_neg (by rintro (h | h | h | h) <;> contradiction), if_neg h6]

theorem short_significant : (∀ o ∈ significant os, ¬ Short o) ↔ ∀ o ∈ os, ¬ Short o := by
  have hrec : ∀ o, Short o → o.1 ∈ recognised := by
    rintro o (⟨h, -⟩ | ⟨h, -⟩)
    · rw [h]
      decide
    · exact List.mem_cons_of_mem _ (by simp only [intoBinding, List.mem_cons] at h ⊢; tauto)
  unfold significant
  constructor
  · intro h o ho hshort
    exact h o (List.mem_filter.2 ⟨ho, decide_eq_true (hrec o hshort)⟩) hshort
  · intro h o ho
    exact h o (List.mem_filter.1 ho).1

variable {os}

/-- What is left depends only on the options that are looked into. -/
theorem ParsedAfter.unique {type : Byte} {b : Binding} {now : ℕ → Timespec} {s s' : Parsed × ℕ}
    {os' : List (Byte × List Byte)} (h : ParsedAfter type b now s os)
    (h' : ParsedAfter type b now s' os') (hos : significant os' = significant os) :
    s'.1.lenError = s.1.lenError ∧ ((∀ o ∈ os, ¬ Short o) → s' = s) := by
  have herr : s'.1.lenError = s.1.lenError := by
    rw [h.lenError, h'.lenError, ← any_badLength_significant os', hos, any_badLength_significant]
  refine ⟨herr, fun hshort => ?_⟩
  have hshort' : ∀ o ∈ os', ¬ Short o := by
    rw [← short_significant, hos, short_significant]
    exact hshort
  obtain ⟨htype, hopts, hreads⟩ := h.values hshort
  obtain ⟨htype', hopts', hreads'⟩ := h'.values hshort'
  rw [← typeAfter_significant, hos, typeAfter_significant, ← htype] at htype'
  rw [← bindingAfter_significant, hos, bindingAfter_significant, ← hopts] at hopts'
  rw [← clockReads_significant, hos, clockReads_significant, ← hreads] at hreads'
  obtain ⟨⟨lenError, type, options⟩, reads⟩ := s
  obtain ⟨⟨lenError', type', options'⟩, reads'⟩ := s'
  dsimp only at herr htype' hopts' hreads'
  rw [herr, htype', hopts', hreads']

end Significant

/-! ## Lengths -/

/-- An option of a right length is not too short, but for an empty list of name servers. -/
theorem not_short_of_good {o : Byte × List Byte} (hlen : badLength o = false)
    (hdns : o.1 = optDomainNameServer → o.2 ≠ []) : ¬ Short o := by
  unfold badLength at hlen
  rintro (⟨htag, hlt⟩ | ⟨htag, hlt⟩)
  · rw [if_pos htag, bne_eq_false_iff_eq] at hlen
    omega
  · have hne : o.1 ≠ optDhcpMessageType := by
      intro h
      rw [h] at htag
      exact absurd htag (by decide)
    rw [if_neg hne] at hlen
    by_cases hd : o.1 = optDomainNameServer
    · have hpos := List.length_pos_of_ne_nil (hdns hd)
      rw [hd, if_neg (by decide), if_pos rfl, bne_eq_false_iff_eq] at hlen
      omega
    · simp only [intoBinding, List.mem_cons, List.not_mem_nil, or_false] at htag
      rw [if_pos (by tauto), bne_eq_false_iff_eq] at hlen
      omega

/-! ## A received message -/

/-- What the loop has stored after the options `os`: whether a length was wrong,
and what they carry if none was. -/
def StoredOptions (now : Timespec) (s : Parsed) (os : List (Byte × List Byte)) : Prop :=
  s.lenError = os.any badLength ∧
    (os.any badLength = false → s.type = carriedType os ∧ s.options = carried os now)

/-- What options carry is what they leave of a zeroed binding. -/
theorem bindingAfter_zero (now : Timespec) (os : List (Byte × List Byte)) :
    bindingAfter Binding.zero (fun _ => now) os = carried os now := by
  unfold bindingAfter
  rw [leaseAfter_eq]
  rfl

/-- **Parsing reads what the message carries** when its options lie inside it. -/
theorem parsed_storedOptions {d : Datagram} (hin : d.OptionsInside) (now : Timespec) :
    StoredOptions now (d.parsed now) d.options := by
  obtain ⟨hcut, hdns⟩ := hin
  unfold Datagram.cut at hcut
  unfold Datagram.options at hdns ⊢
  unfold Datagram.parsed
  have hafter := parsedAfter_decode hcut (fun _ => now) 0 Binding.zero
  rw [dhcpParseOptions_eq]
  refine ⟨hafter.lenError, fun hgood => ?_⟩
  have hshort : ∀ o ∈ (Tlv.decode optionFormat (d.size - (offsetOptions + lenMagic)) d.area).1,
      ¬ Short o := fun o ho =>
    not_short_of_good (Bool.eq_false_iff.2 (List.any_eq_false.1 hgood o ho)) (hdns o ho)
  obtain ⟨htype, hopts, -⟩ := hafter.values hshort
  rw [bindingAfter_zero] at hopts
  exact ⟨htype, hopts⟩

/-! ## Any options area -/

/-- The value returned says whether a length was wrong. -/
theorem ret_eq (s : Parsed) : (s.ret = -1 ↔ s.lenError = true) ∧ (s.ret = 0 ↔ s.lenError = false) := by
  unfold Parsed.ret
  cases s.lenError <;> decide

/-- **Parsing an options area**: an error exactly for a wrong length, otherwise the last option
of each kind, whatever stands between the options. -/
theorem dhcpParseOptions_items {m : ℕ → Byte} {p pEnd : ℕ} {items : List (Tlv.Item Byte)}
    (h : OptionsArea m p pEnd items) (now : ℕ → Timespec) (type : Byte) (b : Binding) :
    ((dhcpParseOptionsFrom m now p pEnd type b).1.ret = -1
        ↔ ∃ o ∈ Tlv.options items, badLength o = true) ∧
      ((dhcpParseOptionsFrom m now p pEnd type b).1.ret ≠ -1 →
        (dhcpParseOptionsFrom m now p pEnd type b).1.ret = 0 ∧
        (dhcpParseOptionsFrom m now p pEnd type b).1.type
          = typeAfter type (Tlv.options items) ∧
        (dhcpParseOptionsFrom m now p pEnd type b).1.options
          = bindingAfter b now (Tlv.options items)) ∧
      ∀ (m' : ℕ → Byte) (p' pEnd' : ℕ) (items' : List (Tlv.Item Byte)),
        OptionsArea m' p' pEnd' items' → Inserted items items' →
        (dhcpParseOptionsFrom m' now p' pEnd' type b).1.ret
            = (dhcpParseOptionsFrom m now p pEnd type b).1.ret ∧
          ((∀ o ∈ Tlv.options items, ¬ Short o) →
            dhcpParseOptionsFrom m' now p' pEnd' type b
              = dhcpParseOptionsFrom m now p pEnd type b) := by
  have hafter := h.parsedAfter now type b
  refine ⟨?_, fun hret => ?_, fun m' p' pEnd' items' h' hins => ?_⟩
  · rw [(ret_eq _).1, hafter.lenError, List.any_eq_true]
  · have hgood : (Tlv.options items).any badLength = false := by
      rw [← hafter.lenError, ← Bool.not_eq_true]
      exact fun herr => hret ((ret_eq _).1.2 herr)
    have hshort : ∀ o ∈ Tlv.options items, ¬ Short o := fun o ho =>
      not_short_of_good (Bool.eq_false_iff.2 (List.any_eq_false.1 hgood o ho)) (h.dns_nonempty o ho)
    obtain ⟨htype, hopts, -⟩ := hafter.values hshort
    exact ⟨(ret_eq _).2.2 (hafter.lenError.trans hgood), htype, hopts⟩
  · obtain ⟨herr, heq⟩ := hafter.unique (h'.parsedAfter now type b) hins.significant_eq
    refine ⟨?_, heq⟩
    unfold Parsed.ret
    rw [herr]

/-- Padding, an acknowledgement, a host name, a server identifier and an hour. -/
def exampleItems : List (Tlv.Item Byte) :=
  [.pad, .option optDhcpMessageType [dhcpAck], .option 12 [97, 98],
    .option optServerIdentifier [10, 0, 0, 1], .option optIpAddressLeaseTime [0, 0, 14, 16]]

/-- The bytes of these options, with something behind the end. -/
def exampleArea : List Byte :=
  [0, 53, 1, 5, 12, 2, 97, 98, 54, 4, 10, 0, 0, 1, 51, 4, 0, 0, 14, 16, 255, 7]

theorem exampleItems_area : OptionsArea (memOf exampleArea) 0 22 exampleItems := by
  refine ⟨?_, by decide, [255, 7], Or.inr ⟨[7], rfl⟩, rfl⟩
  intro i hi
  simp only [exampleItems, List.mem_cons, List.not_mem_nil, or_false] at hi
  rcases hi with rfl | rfl | rfl | rfl | rfl
  · trivial
  · exact ⟨by decide, by decide, rfl⟩
  · exact ⟨by decide, by decide, rfl⟩
  · exact ⟨by decide, by decide, rfl⟩
  · exact ⟨by decide, by decide, rfl⟩

/-- The example is parsed without an error to its type, its server and times 1800 and 3150
seconds behind the reading of the clock. -/
theorem dhcpParseOptions_items_example :
    ∃ s, (dhcpParseOptionsFrom (memOf exampleArea) (fun _ => ⟨1000, 5⟩) 0 22 0 Binding.zero).1 = s ∧
      s.ret = 0 ∧ s.type = dhcpAck ∧ s.options.dhcpServer = 0x0100000A ∧
      s.options.leaseT1 = ⟨2800, 5⟩ ∧ s.options.leaseT2 = ⟨4150, 5⟩ := by
  obtain ⟨hret, hvalues, -⟩ :=
    dhcpParseOptions_items exampleItems_area (fun _ => ⟨1000, 5⟩) 0 Binding.zero
  obtain ⟨hzero, htype, hopts⟩ := hvalues fun h => absurd (hret.1 h) (by decide)
  refine ⟨_, rfl, hzero, htype.trans (by decide), ?_⟩
  rw [hopts]
  exact ⟨by decide, by decide, by decide⟩

/-- Behind a server identifier without payload, padding changes what is stored: the four bytes
that are copied are those that follow. -/
theorem dhcpParseOptions_padding_stored :
    ¬ ∀ (m : ℕ → Byte) (p pEnd : ℕ) (items : List (Tlv.Item Byte)) (m' : ℕ → Byte)
      (p' pEnd' : ℕ) (items' : List (Tlv.Item Byte)), OptionsArea m p pEnd items →
      OptionsArea m' p' pEnd' items' → Inserted items items' →
      ∀ (now : ℕ → Timespec) (type : Byte) (b : Binding),
        dhcpParseOptionsFrom m' now p' pEnd' type b
          = dhcpParseOptionsFrom m now p pEnd type b := by
  intro h
  have hitem : (Tlv.Item.option optServerIdentifier []).WellFormed optionFormat
      (BitVec.ofNat 8) := ⟨by decide, by decide, rfl⟩
  have hshort : OptionsArea (memOf [54, 0, 255, 7, 7, 7]) 0 6
      [.option optServerIdentifier []] := by
    refine ⟨?_, by decide, [255, 7, 7, 7], Or.inr ⟨[7, 7, 7], rfl⟩, rfl⟩
    exact List.forall_mem_singleton.2 hitem
  have hpadded : OptionsArea (memOf [54, 0, 0, 255, 7, 7, 7]) 0 7
      [.option optServerIdentifier [], .pad] := by
    refine ⟨?_, by decide, [255, 7, 7, 7], Or.inr ⟨[7, 7, 7], rfl⟩, rfl⟩
    exact List.forall_mem_cons.2 ⟨hitem, List.forall_mem_singleton.2 trivial⟩
  have heq := h _ _ _ _ _ _ _ _ hshort hpadded (.keep _ (.insert trivial .nil))
    (fun _ => timespecZero) 0 Binding.zero
  have hserver := congrArg (fun r : Parsed × ℕ => r.1.options.dhcpServer) heq
  exact absurd hserver (by decide +kernel)

end Dhcp

end Nucleo
