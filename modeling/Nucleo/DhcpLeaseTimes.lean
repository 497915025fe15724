/-
# The order of T1 and T2

`dhcp_parse_options` adds a half and seven eighths of the lease to the time of parsing, in
32 bits; `dhcp_check_options` then makes a zero time infinite, unless it refuses the options,
which are stored all the same.  `leaseOrdered_iff` says for which leases and times T1 and T2
come out in order and not before the time of parsing, and `expired_of_run` that
`get_dhcp_next_event` then never finds T2 expired without T1.
-/
import Nucleo.TimespecOrder
import Nucleo.DhcpBounds
import Nucleo.DhcpLease

namespace Nucleo

namespace Dhcp

open Timespec

/-! ## Expiry -/

/-- `timespec_diff(&t, &now, ...) <= 0`, as `get_dhcp_next_event` asks of T1 and T2. -/
def Expired (t now : Timespec) : Prop := (timespecDiff t now).2 ≤ 0

/-- T1 and T2 of a binding that was filled in at the time `now`. -/
structure LeaseOrdered (now : Timespec) (b : Binding) : Prop where
  t1_le_t2 : b.leaseT1.Le b.leaseT2
  now_le_t1 : now.Le b.leaseT1
  now_le_t2 : now.Le b.leaseT2
  /-- `expired_t2 ==> expired_t1` -/
  expired : ∀ t : Timespec, t.Reading → now.Le t → Expired b.leaseT2 t → Expired b.leaseT1 t

/-- The lease is infinite, or its T2 fits and a T1 that `dhcp_check_options` looks at is not the
zero time. -/
def TimesFit (accepted : Bool) (now : Timespec) (lease : BitVec 32) : Prop :=
  intMax ≤ (lease.toNat : ℤ) ∨
    (now.tvSec + ((lease.toNat : ℤ) - (lease.toNat : ℤ) / 8) ≤ intMax ∧
      ¬ (accepted = true ∧ now = timespecZero ∧ lease.toNat = 1))

/-! ## Zero times -/

/-- `timespec_diff` from a time to zero is zero for the zero time only. -/
theorem eq_zero_of_diff {t : Timespec} (hlo : -2 ^ 31 ≤ t.tvSec) (hhi : t.tvSec ≤ intMax)
    (hn : t.Normalised) (h : (timespecDiff timespecZero t).2 = 0) : t = timespecZero := by
  obtain ⟨sec, nsec⟩ := t
  obtain ⟨hnlo, hnhi⟩ := hn
  dsimp only at hlo hhi hnlo hnhi
  unfold nsecsInSec at hnhi
  unfold intMax at hhi
  unfold timespecDiff timespecZero nsecsInSec at h
  dsimp only at h
  rw [wrap32_of_fits (x := 0 - nsec) (by omega) (by omega)] at h
  by_cases hzero : nsec = 0
  · rw [if_neg (show ¬ 0 - nsec < 0 by omega)] at h
    have hsec : wrap32 (0 - sec) = 0 := by
      split_ifs at h with hs
      · exact hs
      · exact absurd h hs
    rcases hlo.eq_or_lt with hmin | hmin
    · rw [← hmin, wrap32_of_large (by omega) (by omega)] at hsec
      omega
    · rw [wrap32_of_fits (by omega) (by omega)] at hsec
      rw [hzero, show sec = 0 by omega]
      rfl
  · -- the borrowed second leaves some nanoseconds
    rw [if_pos (show 0 - nsec < 0 by omega),
      wrap32_of_fits (x := 0 - nsec + 1000000000) (by omega) (by omega)] at h
    dsimp only at h
    split_ifs at h with hs
    · omega
    · exact absurd h hs

/-- Only the zero time is replaced. -/
theorem zeroToInfinity_mk {sec nsec : ℤ} (hlo : -2 ^ 31 ≤ sec) (hhi : sec ≤ intMax)
    (hnlo : 0 ≤ nsec) (hnhi : nsec < nsecsInSec) :
    zeroToInfinity ⟨sec, nsec⟩
      = if (⟨sec, nsec⟩ : Timespec) = timespecZero then timespecInfinity else ⟨sec, nsec⟩ := by
  unfold zeroToInfinity
  exact if_congr ⟨eq_zero_of_diff hlo hhi ⟨hnlo, hnhi⟩, fun h => by rw [h]; decide⟩ rfl rfl

theorem zeroToInfinity_infinity : zeroToInfinity timespecInfinity = timespecInfinity := by decide

/-! ## One acknowledgement -/

/-- A time that was parsed, as it is stored: options that are refused are not looked at. -/
def storedTime (accepted : Bool) (t : Timespec) : Timespec :=
  if accepted then zeroToInfinity t else t

/-- T1 and T2 as they are stored for a lease. -/
def storedTimes (accepted : Bool) (now : Timespec) (lease : BitVec 32) : Timespec × Timespec :=
  (storedTime accepted (leaseTimes now lease).1, storedTime accepted (leaseTimes now lease).2)

theorem storedTime_infinity (accepted : Bool) :
    storedTime accepted timespecInfinity = timespecInfinity := by
  cases accepted
  · rfl
  · exact zeroToInfinity_infinity

/-- Only the zero time of accepted options is replaced. -/
theorem storedTime_mk {accepted : Bool} {sec nsec : ℤ} (hlo : -2 ^ 31 ≤ sec) (hhi : sec ≤ intMax)
    (hnlo : 0 ≤ nsec) (hnhi : nsec < nsecsInSec) :
    storedTime accepted ⟨sec, nsec⟩
      = if accepted = true ∧ (⟨sec, nsec⟩ : Timespec) = timespecZero then timespecInfinity
        else ⟨sec, nsec⟩ := by
  unfold storedTime
  by_cases haccepted : accepted = true
  · rw [if_pos haccepted, zeroToInfinity_mk hlo hhi hnlo hnhi]
    exact if_congr ⟨fun h => ⟨haccepted, h⟩, And.right⟩ rfl rfl
  · rw [if_neg haccepted, if_neg fun h => haccepted h.1]

/-! ### Times in order -/

/-- T1 and T2 can be compared with readings, and T1 is not later. -/
structure InOrder (t : Timespec × Timespec) : Prop where
  t1_stamp : t.1.Stamp
  t2_stamp : t.2.Stamp
  le : t.1.Le t.2

/-- Times in order expire in order. -/
theorem InOrder.expired {t1 t2 t : Timespec} (h : InOrder (t1, t2)) (ht : t.Reading)
    (hexp : Expired t2 t) : Expired t1 t :=
  (diff_nonpos_iff h.t1_stamp ht).2 (h.le.trans ((diff_nonpos_iff h.t2_stamp ht).1 hexp))

theorem inOrder_infinity : InOrder (timespecInfinity, timespecInfinity) :=
  ⟨stamp_infinity, stamp_infinity, Le.refl _⟩

section Finite

variable {accepted : Bool} {now : Timespec} (hnow : now.Reading) {lease : BitVec 32}
  (hfinite : ¬ intMax ≤ (lease.toNat : ℤ))

include hnow hfinite

/-- T1 and T2 when T2 fits. -/
theorem storedTimes_of_fits
    (hfits : now.tvSec + ((lease.toNat : ℤ) - (lease.toNat : ℤ) / 8) ≤ intMax) :
    storedTimes accepted now lease
      = (if accepted = true ∧ now = timespecZero ∧ lease.toNat ≤ 1 then timespecInfinity
          else ⟨now.tvSec + (lease.toNat : ℤ) / 2, now.tvNsec⟩,
        if accepted = true ∧ now = timespecZero ∧ lease.toNat = 0 then timespecInfinity
        else ⟨now.tvSec + ((lease.toNat : ℤ) - (lease.toNat : ℤ) / 8), now.tvNsec⟩) := by
  have hslo := hnow.sec_nonneg
  have hzero : ∀ k : ℤ, 0 ≤ k →
      ((⟨now.tvSec + k, now.tvNsec⟩ : Timespec) = timespecZero ↔ now = timespecZero ∧ k = 0) := by
    intro k hk
    obtain ⟨sec, nsec⟩ := now
    unfold timespecZero
    simp only [Timespec.mk.injEq]
    dsimp only at hslo
    omega
  unfold storedTimes leaseTimes
  rw [if_neg hfinite, add_seconds_of_fits hnow (by omega) (by omega),
    add_seconds_of_fits hnow (by omega) hfits]
  dsimp only
  rw [
    storedTime_mk (by omega) (by omega) hnow.normalised.1 hnow.normalised.2,
    storedTime_mk (by omega) hfits hnow.normalised.1 hnow.normalised.2]
  refine Prod.ext (if_congr ?_ rfl rfl) (if_congr ?_ rfl rfl)
  · rw [hzero _ (by omega)]
    exact and_congr_right fun _ => and_congr_right fun _ => by omega
  · rw [hzero _ (by omega)]
    exact and_congr_right fun _ => and_congr_right fun _ => by omega

/-- T2 when it does not fit: a time before the epoch. -/
theorem storedTimes_of_overflow
    (hover : intMax < now.tvSec + ((lease.toNat : ℤ) - (lease.toNat : ℤ) / 8)) :
    (storedTimes accepted now lease).2.tvSec < 0 := by
  have hshi := hnow.sec_le
  have hneg : now.tvSec + ((lease.toNat : ℤ) - (lease.toNat : ℤ) / 8) - 2 ^ 32 < 0 := by
    unfold intMax at hfinite hshi
    omega
  unfold storedTimes leaseTimes
  rw [if_neg hfinite]
  dsimp only
  rw [add_seconds_of_overflow hnow (by omega) hover,
    storedTime_mk (by unfold intMax at hover; omega) (by unfold intMax; omega)
      hnow.normalised.1 hnow.normalised.2, if_neg]
  · exact hneg
  · rintro ⟨-, h⟩
    have hsec := congrArg Timespec.tvSec h
    dsimp only [timespecZero] at hsec
    omega

end Finite

/-- Times that fit are in order and not before the time of parsing. -/
theorem storedTimes_inOrder {accepted : Bool} {now : Timespec} {lease : BitVec 32}
    (hnow : now.Reading)
    (hfit : TimesFit accepted now lease) :
    InOrder (storedTimes accepted now lease) ∧ now.Le (storedTimes accepted now lease).1 := by
  have hslo := hnow.sec_nonneg
  by_cases hfinite : intMax ≤ (lease.toNat : ℤ)
  · have hinf : storedTimes accepted now lease = (timespecInfinity, timespecInfinity) := by
      unfold storedTimes leaseTimes
      rw [if_pos hfinite]
      exact Prod.ext (storedTime_infinity accepted) (storedTime_infinity accepted)
    rw [hinf]
    exact ⟨inOrder_infinity, hnow.le_infinity⟩
  obtain ⟨hfits, hone⟩ := hfit.resolve_left hfinite
  rw [storedTimes_of_fits hnow hfinite hfits]
  -- lease 0 at the zero time: both times are zero, and both become infinite
  by_cases hzero : accepted = true ∧ now = timespecZero ∧ lease.toNat = 0
  · rw [if_pos ⟨hzero.1, hzero.2.1, by omega⟩, if_pos hzero]
    exact ⟨inOrder_infinity, hnow.le_infinity⟩
  have hnot : ¬ (accepted = true ∧ now = timespecZero ∧ lease.toNat ≤ 1) := by
    rintro ⟨ha, h, hle⟩
    rcases Nat.le_one_iff_eq_zero_or_eq_one.1 hle with h0 | h1
    · exact hzero ⟨ha, h, h0⟩
    · exact hone ⟨ha, h, h1⟩
  have hstamp := hnow.stamp
  rw [if_neg hnot, if_neg hzero]
  refine ⟨⟨⟨?_, ?_, hstamp.nsec_nonneg, hstamp.nsec_le⟩,
    ⟨?_, hfits, hstamp.nsec_nonneg, hstamp.nsec_le⟩, ?_⟩, ?_⟩
  · dsimp only
    omega
  · dsimp only
    omega
  · dsimp only
    omega
  · unfold Timespec.Le
    dsimp only
    omega
  · unfold Timespec.Le
    dsimp only
    omega

/-- Times in order and not before the time of parsing fit. -/
theorem timesFit_of_le {accepted : Bool} {now : Timespec} {lease : BitVec 32}
    (hnow : now.Reading)
    (hle : (storedTimes accepted now lease).1.Le (storedTimes accepted now lease).2)
    (hnow2 : now.Le (storedTimes accepted now lease).2) : TimesFit accepted now lease := by
  have hslo := hnow.sec_nonneg
  by_cases hfinite : intMax ≤ (lease.toNat : ℤ)
  · exact Or.inl hfinite
  by_cases hfits : now.tvSec + ((lease.toNat : ℤ) - (lease.toNat : ℤ) / 8) ≤ intMax
  · refine Or.inr ⟨hfits, ?_⟩
    rintro ⟨haccepted, hzero, hone⟩
    rw [storedTimes_of_fits hnow hfinite hfits, if_pos ⟨haccepted, hzero, by omega⟩,
      if_neg (by omega), hzero, hone] at hle
    -- an infinite T1 and a T2 of one second
    exact absurd hle (by unfold Timespec.Le; decide)
  · have hneg : (storedTimes accepted now lease).2.tvSec < 0 :=
      storedTimes_of_overflow hnow hfinite (Int.not_le.1 hfits)
    unfold Timespec.Le at hnow2
    omega

/-- **T1 and T2 of a stored lease are in order** exactly when they fit. -/
theorem leaseOrdered_iff {accepted : Bool} {now : Timespec} {lease : BitVec 32}
    (hnow : now.Reading) {b : Binding} (h1 : b.leaseT1 = (storedTimes accepted now lease).1)
    (h2 : b.leaseT2 = (storedTimes accepted now lease).2) :
    LeaseOrdered now b ↔ TimesFit accepted now lease := by
  constructor
  · intro h
    apply timesFit_of_le hnow
    · rw [← h1, ← h2]
      exact h.t1_le_t2
    · rw [← h2]
      exact h.now_le_t2
  · intro hfit
    obtain ⟨hord, hle⟩ := storedTimes_inOrder hnow hfit
    have hboth : InOrder (b.leaseT1, b.leaseT2) := by
      rw [h1, h2]
      exact hord
    rw [← h1] at hle
    exact ⟨hboth.le, hle, hle.trans hboth.le, fun _ ht _ => hboth.expired ht⟩

/-! ## The options of a datagram -/

/-- What the options with a tag say, in order. -/
def optionValues {α : Type} (tag : Byte) (value : ℕ → α) (os : List OptionHeader) : List α :=
  os.filterMap fun o => if o.tag = tag then some (value o.start) else none

/-- The lease times that `dhcp_parse_options` meets in a datagram. -/
def Datagram.leases (d : Datagram) : List (BitVec 32) :=
  optionValues optIpAddressLeaseTime (fun p => htonl (load32 d.mem p)) d.headers

/-- The last address that it meets with a tag, `INADDR_ANY` if there is none. -/
def Datagram.lastAddr (d : Datagram) (tag : Byte) : InAddr :=
  (optionValues tag (load32 d.mem) d.headers).getLastD inaddrAny

/-- The datagram says which server sent it and which router and subnet mask to use. -/
def Datagram.accepted (d : Datagram) : Bool :=
  d.lastAddr optServerIdentifier != inaddrAny && d.lastAddr optRouter != inaddrAny &&
    d.lastAddr optSubnet != inaddrAny

/-- A part of the binding that only the options with one tag set is what the last of them
says. -/
theorem scan_getLastD {α : Type} {m : ℕ → Byte} {now : Timespec} {tag : Byte} {value : ℕ → α}
    (get : Binding → α)
    (hget : ∀ tag' len p s, get (dhcpParseOption m now tag' len p s).options
      = if tag' = tag then value p else get s.options) (pEnd fuel p : ℕ) (s : Parsed) :
    get (Tlv.scan optionFormat m pEnd (dhcpParseOption m now) fuel p s).options
      = (optionValues tag value (optionHeaders m pEnd fuel p)).getLastD (get s.options) := by
  induction fuel generalizing p s with
  | zero => rfl
  | succ fuel ih =>
      unfold Tlv.scan optionHeaders
      by_cases hp : p < pEnd
      swap
      · rw [if_neg hp, if_neg hp]
        rfl
      rw [if_pos hp, if_pos hp]
      by_cases hpad : m p = optPad
      · rw [if_pos hpad, if_pos (show m p = optionFormat.pad from hpad)]
        exact ih _ _
      rw [if_neg hpad, if_neg (show ¬ m p = optionFormat.pad from hpad)]
      by_cases hend : m p = optEnd
      · rw [if_pos hend, if_pos (show m p = optionFormat.stop from hend)]
        rfl
      rw [if_neg hend, if_neg (show ¬ m p = optionFormat.stop from hend), ih, hget]
      unfold optionValues
      rw [List.filterMap_cons]
      by_cases htag : m p = tag
      · rw [if_pos htag, if_pos htag]
        exact (List.getLastD_cons ..).symm
      · rw [if_neg htag, if_neg htag]
        rfl

/-! ### The times that are parsed -/

/-- Only a lease time touches T1 and T2. -/
theorem dhcpParseOption_times (m : ℕ → Byte) (now : Timespec) (tag len : Byte) (p : ℕ)
    (s : Parsed) :
    ((dhcpParseOption m now tag len p s).options.leaseT1,
        (dhcpParseOption m now tag len p s).options.leaseT2)
      = if tag = optIpAddressLeaseTime then leaseTimes now (htonl (load32 m p))
        else (s.options.leaseT1, s.options.leaseT2) := by
  unfold dhcpParseOption
  by_cases htag : tag = optIpAddressLeaseTime
  · subst htag
    rfl
  · rw [if_neg htag, if_neg htag]
    split_ifs <;> rfl

/-- T1 and T2 that parsing a datagram leaves. -/
theorem parsed_times (d : Datagram) (now : Timespec) :
    ((d.parsed now).options.leaseT1, (d.parsed now).options.leaseT2)
      = (d.leases.map (leaseTimes now)).getLastD (timespecZero, timespecZero) := by
  have hscan := scan_getLastD (fun b => (b.leaseT1, b.leaseT2))
    (dhcpParseOption_times d.mem now) d.size (d.size - (offsetOptions + lenMagic))
    (offsetOptions + lenMagic) ⟨false, 0, Binding.zero⟩
  have hmap : d.leases.map (leaseTimes now) = optionValues optIpAddressLeaseTime
      (fun p => leaseTimes now (htonl (load32 d.mem p))) d.headers := by
    unfold Datagram.leases optionValues
    rw [List.map_filterMap]
    congr 1
    funext o
    split_ifs <;> rfl
  rw [hmap]
  unfold Datagram.parsed dhcpParseOptions
  exact hscan

theorem parsed_times_of_getLast? {d : Datagram} {lease : BitVec 32} (now : Timespec)
    (h : d.leases.getLast? = some lease) :
    ((d.parsed now).options.leaseT1, (d.parsed now).options.leaseT2) = leaseTimes now lease := by
  obtain ⟨front, hfront⟩ := List.getLast?_eq_some_iff.1 h
  rw [parsed_times, hfront, List.map_append]
  simp

/-- The addresses that parsing a datagram leaves. -/
theorem parsed_lastAddr (d : Datagram) (now : Timespec) :
    (d.parsed now).options.dhcpServer = d.lastAddr optServerIdentifier ∧
      (d.parsed now).options.gateway = d.lastAddr optRouter ∧
      (d.parsed now).options.subnet = d.lastAddr optSubnet := by
  -- each field is set by its own option only, so the last one counts
  have hscan : ∀ (tag : Byte) (get : Binding → InAddr),
      (∀ tag' len p s, get (dhcpParseOption d.mem now tag' len p s).options
        = if tag' = tag then load32 d.mem p else get s.options) → get Binding.zero = inaddrAny →
      get (d.parsed now).options = d.lastAddr tag := by
    intro tag get hget hzero
    have h := scan_getLastD get hget d.size (d.size - (offsetOptions + lenMagic))
      (offsetOptions + lenMagic) ⟨false, 0, Binding.zero⟩
    rw [hzero] at h
    unfold Datagram.parsed dhcpParseOptions
    exact h
  refine ⟨hscan _ Binding.dhcpServer ?_ rfl, hscan _ Binding.gateway ?_ rfl,
    hscan _ Binding.subnet ?_ rfl⟩
  · intro tag' len p s
    by_cases htag : tag' = optServerIdentifier
    · subst htag
      rfl
    · rw [if_neg htag]
      unfold dhcpParseOption
      rw [if_neg htag]
      split_ifs <;> rfl
  · intro tag' len p s
    by_cases htag : tag' = optRouter
    · subst htag
      rfl
    · rw [if_neg htag]
      unfold dhcpParseOption
      rw [if_neg htag]
      split_ifs <;> rfl
  · intro tag' len p s
    by_cases htag : tag' = optSubnet
    · subst htag
      rfl
    · rw [if_neg htag]
      unfold dhcpParseOption
      rw [if_neg htag]
      split_ifs <;> rfl

/-- `dhcp_check_options` on what was parsed. -/
theorem dhcpCheckOptions_parsed (d : Datagram) (now : Timespec) :
    ((dhcpCheckOptions (d.parsed now).options).1 = 0 ↔ d.accepted = true) ∧
      (dhcpCheckOptions (d.parsed now).options).2.leaseT1
        = storedTime d.accepted (d.parsed now).options.leaseT1 ∧
      (dhcpCheckOptions (d.parsed now).options).2.leaseT2
        = storedTime d.accepted (d.parsed now).options.leaseT2 := by
  obtain ⟨hserver, hgateway, hsubnet⟩ := parsed_lastAddr d now
  unfold Datagram.accepted dhcpCheckOptions
  rw [← hserver, ← hgateway, ← hsubnet]
  split_ifs with h1 h2 h3
  · simp [h1, storedTime, dhcpEnoserverid]
  · simp [h2, storedTime, dhcpEnogateway]
  · simp [h3, storedTime, dhcpEnosubnet]
  · simp [h1, h2, h3, storedTime]

/-! ## Acknowledgements -/

section Acks

variable {b : Binding} {d : Datagram} {now : Timespec}

/-- What an acknowledgement leaves as T1 and T2, also when its options are refused. -/
theorem handleReply_times (he : expectsAck b.state = true) (ht : (d.parsed now).type = dhcpAck) :
    (handleReply b d now).2.leaseT1 = storedTime d.accepted (d.parsed now).options.leaseT1 ∧
      (handleReply b d now).2.leaseT2
        = storedTime d.accepted (d.parsed now).options.leaseT2 := by
  obtain ⟨-, h1, h2⟩ := dhcpCheckOptions_parsed d now
  have hsel : ¬ ((d.parsed now).type = dhcpOffer ∧ b.state = .selecting) := by
    rw [ht]
    exact fun h => absurd h.1 (by decide)
  rw [← h1, ← h2]
  unfold handleReply storeReply
  dsimp only
  rw [if_neg hsel, if_pos he, if_pos ht]
  split_ifs <;> exact ⟨rfl, rfl⟩

/-- The times of an acknowledgement with a lease time. -/
theorem handleReply_storedTimes (he : expectsAck b.state = true)
    (ht : (d.parsed now).type = dhcpAck) {lease : BitVec 32}
    (hlease : d.leases.getLast? = some lease) :
    (handleReply b d now).2.leaseT1 = (storedTimes d.accepted now lease).1 ∧
      (handleReply b d now).2.leaseT2 = (storedTimes d.accepted now lease).2 := by
  obtain ⟨h1, h2⟩ := handleReply_times he ht
  have htimes := parsed_times_of_getLast? now hlease
  unfold storedTimes
  rw [← htimes]
  dsimp only
  exact ⟨h1, h2⟩

/-- An acknowledgement for the client whose last lease time is `lease`. -/
structure TakenAck (b : Binding) (d : Datagram) (now : Timespec) (lease : BitVec 32) : Prop where
  expects : expectsAck b.state = true
  reply : IsReply b d now
  type : (d.parsed now).type = dhcpAck
  lease_eq : d.leases.getLast? = some lease

/-- The lease that an acknowledgement leaves. -/
theorem TakenAck.leaseOrdered_iff {lease : BitVec 32} (h : TakenAck b d now lease)
    (hnow : now.Reading) :
    LeaseOrdered now (handleReply b d now).2 ↔ TimesFit d.accepted now lease := by
  obtain ⟨h1, h2⟩ := handleReply_storedTimes h.expects h.type h.lease_eq
  exact Dhcp.leaseOrdered_iff hnow h1 h2

end Acks

/-! ## Runs -/

/-- An acknowledgement for the client is parsed at a reading of the clock at which the times of
its lease fit. -/
def AckTimesFit : Action → Prop :=
  Action.Delivers fun b d now => expectsAck b.state = true → IsReply b d now →
    (d.parsed now).type = dhcpAck →
      now.Reading ∧ ∀ lease, d.leases.getLast? = some lease → TimesFit d.accepted now lease

/-- The times of an acknowledgement that is accepted, with a lease time or without one. -/
theorem inOrder_of_ack {d : Datagram} {now : Timespec} (hnow : now.Reading)
    (haccepted : d.accepted = true)
    (hfit : ∀ lease, d.leases.getLast? = some lease → TimesFit d.accepted now lease) :
    InOrder (storedTime d.accepted (d.parsed now).options.leaseT1,
      storedTime d.accepted (d.parsed now).options.leaseT2) := by
  cases hlast : d.leases.getLast? with
  | none =>
      have htimes := parsed_times d now
      rw [List.getLast?_eq_none_iff.1 hlast] at htimes
      obtain ⟨h1, h2⟩ := Prod.mk.inj htimes
      rw [h1, h2, haccepted]
      exact inOrder_infinity
  | some lease =>
      have hord := (storedTimes_inOrder hnow (hfit lease hlast)).1
      unfold storedTimes at hord
      rw [← parsed_times_of_getLast? now hlast] at hord
      exact hord

/-- A bound binding has its times in order. -/
theorem inOrder_fromAck :
    FromAck AckTimesFit fun _ b => InOrder (b.leaseT1, b.leaseT2) where
  mono := fun h _ => h
  congr := by
    intro h b b' hord heq
    rw [heq]
    exact hord
  ack := by
    intro h sock b d now _ he hreply hfit ht hc
    obtain ⟨hnow, hfits⟩ := hfit he hreply ht
    obtain ⟨hret, h1, h2⟩ := dhcpCheckOptions_parsed d now
    dsimp only
    rw [h1, h2]
    exact inOrder_of_ack hnow (hret.1 hc) hfits

/-- T2 is not found expired without T1. -/
def ExpiredInOrder (b : Binding) : Prop :=
  dhcpIsbound b = true → ∀ t : Timespec, t.Reading → Expired b.leaseT2 t → Expired b.leaseT1 t

/-- **Runs.**  When the times of all leases that are taken fit, every call of
`get_dhcp_next_event`, before or after a step, finds T1 expired when it finds T2 expired. -/
theorem expired_of_run (macAddr : Vector Byte dhcpMacAddrLen) (is : List StepInput)
    (rs rs' : List StepRecord) (r : StepRecord)
    (hrun : dhcpRun (dhcpInit macAddr) is = rs ++ r :: rs')
    (hfit : ∀ e ∈ runCalls (rs ++ [r]), AckTimesFit e) :
    ExpiredInOrder r.before ∧ ∀ ret b, r.after = some (ret, b) → ExpiredInOrder b := by
  have hinit : BoundInv AckTimesFit (fun _ b => InOrder (b.leaseT1, b.leaseT2)) []
      (dhcpInit macAddr) := by
    intro _ h
    cases h
  obtain ⟨-, hruns⟩ := inOrder_fromAck.roundInvariant.run is hinit
  obtain ⟨hbefore, hafter⟩ := hruns rs r rs' hrun
  constructor
  · intro hbound t ht hexp
    refine (hbefore (fun e he => hfit e ?_) hbound).expired ht hexp
    unfold runCalls at he ⊢
    rw [List.flatMap_append]
    exact List.mem_append_left _ he
  · intro ret b heq hbound t ht hexp
    exact (hafter ret b heq hfit hbound).expired ht hexp

/-- **The order of T1 and T2** after an acknowledgement, exactly, and along runs. -/
theorem ack_leaseOrdered {b : Binding} {d : Datagram} {now : Timespec} {lease : BitVec 32}
    (hack : TakenAck b d now lease) (hnow : now.Reading) :
    (LeaseOrdered now (handleReply b d now).2 ↔ TimesFit d.accepted now lease) ∧
      ∀ (macAddr : Vector Byte dhcpMacAddrLen) (is : List StepInput) (rs rs' : List StepRecord)
        (r : StepRecord), dhcpRun (dhcpInit macAddr) is = rs ++ r :: rs' →
        (∀ e ∈ runCalls (rs ++ [r]), AckTimesFit e) →
          ExpiredInOrder r.before ∧ ∀ ret b', r.after = some (ret, b') → ExpiredInOrder b' :=
  ⟨hack.leaseOrdered_iff hnow,
    fun macAddr is rs rs' r hrun hfit => expired_of_run macAddr is rs rs' r hrun hfit⟩

/-! ### A concrete acknowledgement -/

/-- An acknowledgement with the given lease time. -/
def finiteAck (lease : List Byte) : Datagram :=
  exampleReply exampleXid exampleClient
    ([optIpAddressLeaseTime, 4] ++ lease ++ exampleOptions dhcpAck [255, 255, 255, 0]) fun _ => 0

/-- An hour, acknowledged in the year 2023, is stored in order. -/
theorem ack_leaseOrdered_hour :
    LeaseOrdered ⟨1700000000, 0⟩
      (handleReply requestingBinding (finiteAck [0, 0, 14, 16]) ⟨1700000000, 0⟩).2 := by
  have hack : TakenAck requestingBinding (finiteAck [0, 0, 14, 16]) ⟨1700000000, 0⟩ 3600 := by
    constructor <;> decide +kernel
  have hreading : Reading ⟨1700000000, 0⟩ :=
    ⟨by decide, by decide, by decide, by decide⟩
  exact (ack_leaseOrdered hack hreading).1.2 (Or.inr (by decide))

/-- A lease of 2³⁰ seconds, acknowledged in the year 2023, gets a T1 before the epoch. -/
theorem ack_leaseOrdered_fails :
    ¬ ∀ (b : Binding) (d : Datagram) (now : Timespec) (lease : BitVec 32),
      TakenAck b d now lease → now.Reading → LeaseOrdered now (handleReply b d now).2 := by
  intro h
  have hack : TakenAck requestingBinding (finiteAck [64, 0, 0, 0]) ⟨1700000000, 0⟩ 0x40000000 := by
    constructor <;> decide +kernel
  have hreading : Reading ⟨1700000000, 0⟩ :=
    ⟨by decide, by decide, by decide, by decide⟩
  have hle := (h _ _ _ _ hack hreading).now_le_t1
  have ht1 : (handleReply requestingBinding (finiteAck [64, 0, 0, 0]) ⟨1700000000, 0⟩).2.leaseT1
      = ⟨-2058096384, 0⟩ := by
    decide +kernel
  rw [ht1] at hle
  exact absurd hle (by unfold Timespec.Le; decide)

end Dhcp

end Nucleo
