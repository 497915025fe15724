/-
# `gethostbyname`

`gethostbyname.c` copies up to four addresses from the list of `getaddrinfo` into static
tables and gives the list back.  It walks over the list with `res` itself, the variable
that it then hands to `freeaddrinfo`: the cells that were copied from are not given back
(`gethostbyname_leaks`).
-/
import Nucleo.DnsRecords

namespace Nucleo

namespace Dns

open Chain

/-- `NAME_MAX_LEN`. -/
def nameMaxLen : ℕ := 256

/-- `ADDRESSES_MAX`. -/
def addressesMax : ℕ := 4

/-- The tables `addresses` and `paddresses`; a pointer is an index into the first. -/
structure HostTables where
  addresses : ℕ → InAddr
  paddresses : ℕ → Option ℕ

/-- `struct hostent`, with the name as the array `hostname` holds it, and the tables that
`h_addr_list` points into. -/
structure HostEnt where
  hName : List Byte
  hAliases : List (List Byte)
  hAddrtype : Family
  hLength : ℤ
  hAddrList : HostTables

/-- `strncpy` of a shorter string: the rest is filled with zeros. -/
def strncpy (s : List Byte) (n : ℕ) : List Byte := s.take n ++ List.replicate (n - s.length) 0

/-- `freeaddrinfo`; an entry is given back with its address and its name. -/
def freeaddrinfo (heap : Heap AddrInfo) (ai : Option ℕ) : Option (Heap AddrInfo) :=
  release heap.fresh heap ai

/-- The loop of `gethostbyname`, with the number of rounds that the tables have room for:
`res` and `i_addr` as it leaves them, and the tables.  `none` when an entry is looked at
that is not allocated. -/
def copyAddresses (cells : ℕ → Option (Cell AddrInfo)) :
    ℕ → Option ℕ → ℕ → HostTables → Option (Option ℕ × ℕ × HostTables)
  | 0, res, iAddr, t => some (res, iAddr, t)
  | _ + 1, none, iAddr, t => some (none, iAddr, t)
  | room + 1, some a, iAddr, t =>
      match cells a with
      | none => none
      | some ai =>
          copyAddresses cells room ai.next (iAddr + 1)
            ⟨Function.update t.addresses iAddr ai.value.aiAddr.sinAddr,
              Function.update t.paddresses iAddr (some iAddr)⟩

/-- What a call of `gethostbyname` leaves: the value returned, the argument of
`freeaddrinfo` if it is called, and the heap. -/
structure HostResult where
  ret : Option HostEnt
  freed : Option (Option ℕ)
  heap : Heap AddrInfo

/-- `gethostbyname` with what `getaddrinfo` returns and stores in `res`. -/
def gethostbyname (heap : Heap AddrInfo) (ret : ℤ) (res : Option ℕ) (t : HostTables)
    (name : List Byte) : Option HostResult := do
  if nameMaxLen ≤ name.length then pure ⟨none, none, heap⟩
  else if ret ≠ 0 ∨ res = none then pure ⟨none, none, heap⟩
  else
    let (res, iAddr, t) ← copyAddresses heap.cells addressesMax res 0 t
    let t := { t with paddresses := Function.update t.paddresses iAddr none }
    let heap ← freeaddrinfo heap res
    pure ⟨some ⟨strncpy name nameMaxLen, [], .inet, 4, t⟩, some res, heap⟩

/-! ## What is copied and what is given back -/

/-- The addresses in a list of entries. -/
def entryAddresses (l : List (ℕ × AddrInfo)) : List InAddr :=
  (values l).map fun ai => ai.aiAddr.sinAddr

/-- `h_addr_list` points to the addresses `as`, in order, and a null pointer follows. -/
def HostTables.Lists (t : HostTables) (as : List InAddr) : Prop :=
  (∀ i (h : i < as.length), t.paddresses i = some i ∧ t.addresses i = as[i]) ∧
    t.paddresses as.length = none

/-- What is asked of a call on the list `l` that starts at `head`: the first four addresses
are listed, and the list is given back from its head, so that no entry is left. -/
def FillsAndReleases (l : List (ℕ × AddrInfo)) (head : Option ℕ) (r : HostResult) : Prop :=
  (∃ ent, r.ret = some ent ∧ ent.hAddrList.Lists ((entryAddresses l).take addressesMax)) ∧
    r.freed = some head ∧ ∀ a ∈ addresses l, r.heap.cells a = none

theorem length_take_entryAddresses (l : List (ℕ × AddrInfo)) (room : ℕ) :
    ((entryAddresses l).take room).length = min room l.length := by
  unfold entryAddresses values
  rw [List.length_take, List.length_map, List.length_map]

/-- **The loop copies from the front of the list**, and `res` is left behind the entries
that were copied from. -/
theorem copyAddresses_of_linked {cells : ℕ → Option (Cell AddrInfo)} (room : ℕ)
    {res : Option ℕ} {l : List (ℕ × AddrInfo)} (h : Linked cells res l) (iAddr : ℕ)
    (t : HostTables) :
    ∃ res' t', copyAddresses cells room res iAddr t = some (res', iAddr + min room l.length, t') ∧
      Linked cells res' (l.drop room) ∧
      (∀ j < iAddr, t'.addresses j = t.addresses j ∧ t'.paddresses j = t.paddresses j) ∧
      ∀ j (hj : j < ((entryAddresses l).take room).length),
        t'.paddresses (iAddr + j) = some (iAddr + j) ∧
          t'.addresses (iAddr + j) = ((entryAddresses l).take room)[j] := by
  -- induction on the room that is left, one entry a round
  induction room generalizing res l iAddr t with
  | zero =>
      refine ⟨res, t, ?_, h, fun j _ => ⟨rfl, rfl⟩, fun j hj => ?_⟩
      · rw [Nat.zero_min]
        rfl
      · exact absurd hj (Nat.not_lt_zero j)
  | succ room ih =>
      cases l with
      | nil =>
          cases h
          refine ⟨none, t, rfl, rfl, fun j _ => ⟨rfl, rfl⟩, fun j hj => ?_⟩
          exact absurd hj (Nat.not_lt_zero j)
      | cons c l =>
          obtain ⟨a, ai⟩ := c
          obtain ⟨rfl, next, hcell, hrest⟩ := h
          obtain ⟨res', t', hcopy, hlinked, hkeep, hnew⟩ := ih hrest (iAddr + 1)
            ⟨Function.update t.addresses iAddr ai.aiAddr.sinAddr,
              Function.update t.paddresses iAddr (some iAddr)⟩
          refine ⟨res', t', ?_, hlinked, fun j hj => ?_, fun j hj => ?_⟩
          · unfold copyAddresses
            rw [hcell, List.length_cons, Nat.succ_min_succ,
              show iAddr + (min room l.length + 1) = iAddr + 1 + min room l.length by omega]
            exact hcopy
          · obtain ⟨haddr, hptr⟩ := hkeep j (by omega)
            rw [haddr, hptr]
            exact ⟨Function.update_of_ne (by omega) _ _, Function.update_of_ne (by omega) _ _⟩
          · cases j with
            | zero =>
                obtain ⟨haddr, hptr⟩ := hkeep iAddr (Nat.lt_succ_self _)
                rw [Nat.add_zero, haddr, hptr]
                exact ⟨Function.update_self _ _ _, Function.update_self _ _ _⟩
            | succ j =>
                rw [show iAddr + (j + 1) = iAddr + 1 + j by omega]
                exact hnew j (Nat.lt_of_succ_lt_succ hj)

/-- The list that was built can be given back from any of its entries. -/
theorem freeaddrinfo_of_built {s : Builder AddrInfo} {l : List (ℕ × AddrInfo)} (h : Built s l)
    {res : Option ℕ} {n : ℕ} (hres : Linked s.heap.cells res (l.drop n)) :
    ∃ heap, freeaddrinfo s.heap res = some heap ∧
      ∀ a, heap.cells a = if a ∈ addresses (l.drop n) then none else s.heap.cells a := by
  have hlen : (addresses l).length ≤ s.heap.fresh := by
    have hsub : addresses l ⊆ List.range s.heap.fresh := fun a ha => List.mem_range.2 (h.below a ha)
    have hle := (h.nodup.subperm hsub).length_le
    rw [List.length_range] at hle
    exact hle
  have hdrop : addresses (l.drop n) = (addresses l).drop n := List.map_drop
  refine release_of_linked hres ?_ ?_
  · rw [hdrop]
    exact h.nodup.sublist (List.drop_sublist _ _)
  · rw [List.length_map] at hlen
    rw [List.length_drop]
    omega

/-- **The list is not given back.**  For every list that is not empty the first four
addresses are listed; `freeaddrinfo` gets what is left of the list behind them and gives
back just that, so the entry at the head is never given back. -/
theorem gethostbyname_leaks {s : Builder AddrInfo} {l : List (ℕ × AddrInfo)} (h : Built s l)
    (hne : l ≠ []) (t : HostTables) {name : List Byte} (hname : name.length < nameMaxLen) :
    ∃ r, gethostbyname s.heap 0 s.head t name = some r ∧
      (∃ ent, r.ret = some ent ∧ ent.hName = strncpy name nameMaxLen ∧
        ent.hAddrList.Lists ((entryAddresses l).take addressesMax)) ∧
      (∃ res, r.freed = some res ∧ Linked s.heap.cells res (l.drop addressesMax)) ∧
      (∀ a, r.heap.cells a
        = if a ∈ addresses (l.drop addressesMax) then none else s.heap.cells a) ∧
      ¬ FillsAndReleases l s.head r := by
  obtain ⟨res, t', hcopy, hlinked, -, hnew⟩ := copyAddresses_of_linked addressesMax h.linked 0 t
  obtain ⟨heap, hfree, hcells⟩ := freeaddrinfo_of_built h hlinked
  have hhead : ¬ (0 ≠ (0 : ℤ) ∨ s.head = none) := by
    rintro (hzero | hnone)
    · exact hzero rfl
    · have hnil := h.linked
      rw [hnone, linked_none] at hnil
      exact hne hnil
  refine ⟨⟨some ⟨strncpy name nameMaxLen, [], .inet, 4, ⟨t'.addresses,
    Function.update t'.paddresses (0 + min addressesMax l.length) none⟩⟩, some res, heap⟩,
    ?_, ⟨_, rfl, rfl, ?_, ?_⟩, ⟨res, rfl, hlinked⟩, hcells, ?_⟩
  · unfold gethostbyname
    rw [if_neg (Nat.not_le.2 hname), if_neg hhead, hcopy]
    dsimp only [bind, Option.bind]
    rw [hfree]
    rfl
  · intro i hi
    obtain ⟨hptr, haddr⟩ := hnew i hi
    rw [length_take_entryAddresses] at hi
    rw [Nat.zero_add] at hptr haddr
    dsimp only
    rw [Function.update_of_ne (by omega)]
    exact ⟨hptr, haddr⟩
  · rw [length_take_entryAddresses, Nat.zero_add]
    exact Function.update_self _ _ _
  · -- the first entry is not among those that are given back
    rintro ⟨-, -, hall⟩
    cases l with
    | nil => exact hne rfl
    | cons c l =>
        obtain ⟨a, ai⟩ := c
        have hnot : a ∉ addresses (((a, ai) :: l).drop addressesMax) := by
          intro hmem
          have hmem' : a ∈ addresses l := by
            obtain ⟨x, hx, hax⟩ := List.mem_map.1 hmem
            exact List.mem_map.2 ⟨x, List.mem_of_mem_drop hx, hax⟩
          exact (List.nodup_cons.1 h.nodup).1 hmem'
        have hgone := hall a List.mem_cons_self
        obtain ⟨-, next, hcell, -⟩ := h.linked
        dsimp only at hgone
        rw [hcells a, if_neg hnot, hcell] at hgone
        cases hgone

/-! ## Lists that are too long, and short ones -/

/-- The entries for 10.0.0.1 to 10.0.0.6, two more than the table takes. -/
def sixEntries : List (ℕ × AddrInfo) :=
  [(0, AddrInfo.new 0x0100000A [0x61, 0]), (1, AddrInfo.new 0x0200000A [0x61, 0]),
    (2, AddrInfo.new 0x0300000A [0x61, 0]), (3, AddrInfo.new 0x0400000A [0x61, 0]),
    (4, AddrInfo.new 0x0500000A [0x61, 0]), (5, AddrInfo.new 0x0600000A [0x61, 0])]

/-- The list of these entries. -/
def sixAddresses : Builder AddrInfo :=
  sixEntries.foldl (fun s c => s.insert c.2) (Builder.start ⟨fun _ => none, 0⟩)

theorem built_sixAddresses : Built sixAddresses sixEntries :=
  ((((((built_start ⟨fun _ => none, 0⟩).insert _).insert _).insert _).insert _).insert _).insert _

/-- Of six addresses four are listed; the two entries behind them are given back, the four
that were copied from are lost. -/
theorem gethostbyname_leaks_sixAddresses :
    ∃ r, gethostbyname sixAddresses.heap 0 sixAddresses.head ⟨fun _ => 0, fun _ => none⟩ [0x61]
        = some r ∧
      (∃ ent, r.ret = some ent ∧
        ent.hAddrList.Lists [0x0100000A, 0x0200000A, 0x0300000A, 0x0400000A]) ∧
      (∀ a < 4, r.heap.cells a = sixAddresses.heap.cells a) ∧
      r.heap.cells 4 = none ∧ r.heap.cells 5 = none ∧
      ¬ FillsAndReleases sixEntries sixAddresses.head r := by
  obtain ⟨r, hr, ⟨ent, hret, -, hlists⟩, -, hcells, hno⟩ := gethostbyname_leaks built_sixAddresses
    (List.cons_ne_nil _ _) ⟨fun _ => 0, fun _ => none⟩ (show [0x61].length < nameMaxLen by decide)
  -- the entries that are given back
  have hdrop : addresses (sixEntries.drop addressesMax) = [4, 5] := rfl
  rw [hdrop] at hcells
  refine ⟨r, hr, ⟨ent, hret, hlists⟩, fun a ha => ?_, ?_, ?_, hno⟩
  · rw [hcells a, if_neg]
    rintro (_ | ⟨_, _ | ⟨_, ⟨⟩⟩⟩) <;> omega
  · rw [hcells 4, if_pos (by decide)]
  · rw [hcells 5, if_pos (by decide)]

/-- A list of one address. -/
def oneAddress : Builder AddrInfo :=
  (Builder.start ⟨fun _ => none, 0⟩).insert (AddrInfo.new 0x0100000A [0x61, 0])

theorem built_oneAddress : Built oneAddress [(0, AddrInfo.new 0x0100000A [0x61, 0])] :=
  (built_start ⟨fun _ => none, 0⟩).insert _

/-- The list of one address is not given back. -/
theorem gethostbyname_keeps_oneAddress : ¬ ∀ (s : Builder AddrInfo) (l : List (ℕ × AddrInfo))
    (t : HostTables) (name : List Byte) (r : HostResult), Built s l → l ≠ [] →
    gethostbyname s.heap 0 s.head t name = some r → r.ret ≠ none →
    FillsAndReleases l s.head r := by
  intro hall
  have hrun : ∃ r, gethostbyname oneAddress.heap 0 oneAddress.head
      ⟨fun _ => 0, fun _ => none⟩ [0x61] = some r ∧ r.ret ≠ none ∧ r.freed = some none :=
    ⟨_, rfl, fun h => (by cases h), rfl⟩
  obtain ⟨r, hr, hret, hfreed⟩ := hrun
  have hclaim := hall _ _ _ _ r built_oneAddress (List.cons_ne_nil _ _) hr hret
  rw [hclaim.2.1] at hfreed
  exact absurd hfreed (by decide)

end Dns

end Nucleo
