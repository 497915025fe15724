/-
# The disk stores what it is given

`disk_write` followed by `disk_read` over a card that keeps to the protocol
(`storage_faithful`): the blocks that the card accepts are stored where they belong, no
others change, both calls report a failure exactly when the card refuses a block, and the
card is deselected after every call.

The loops are followed block by block (`readBlocks_eq`, `writeBlocks_eq`) and stop at the
first block that is refused (`BlockStore.StopsAt`).
-/
import Nucleo.Lib.BlockStore
import Nucleo.SdCard
import Nucleo.SdDisk

namespace Nucleo

namespace Sd

open Comp BlockStore

/-! ## Addresses and buffers -/

/-- The address that the driver sends for a sector leads the card to that block. -/
theorem blockOf_getAddr (k : Behaviour) {sector : BitVec 32} (h : sector.toNat * blockSize < 2 ^ 32) :
    k.blockOf (getAddr sector k.byteAddressed) = sector.toNat := by
  unfold Behaviour.blockOf getAddr
  cases k.byteAddressed with
  | false => rfl
  | true =>
      rw [if_pos rfl, if_pos rfl, BitVec.toNat_mul]
      unfold blockSize at *
      rw [show (BitVec.ofNat 32 sdSectorSize).toNat = 512 from rfl, Nat.mod_eq_of_lt h,
        Nat.mul_div_cancel _ (by norm_num)]

/-- The first of the sectors of a transfer, and the others. -/
theorem next_sector {sector : BitVec 32} {n : ℕ}
    (h : (sector.toNat + (n + 1)) * blockSize ≤ 2 ^ 32) :
    sector.toNat * blockSize < 2 ^ 32 ∧ (sector + 1).toNat = sector.toNat + 1 ∧
      ((sector + 1).toNat + n) * blockSize ≤ 2 ^ 32 := by
  have hsucc : (sector + 1).toNat = sector.toNat + 1 := by
    rw [BitVec.toNat_add]
    apply Nat.mod_eq_of_lt
    show sector.toNat + 1 < 2 ^ 32
    unfold blockSize at h
    omega
  refine ⟨?_, hsucc, ?_⟩
  · unfold blockSize at *
    omega
  · rw [hsucc, Nat.add_right_comm]
    exact h

/-- The blocks of a buffer. -/
def blockOfBuff (buff : List Byte) (j : ℕ) : Block := blockOfList (buff.drop (blockSize * j))

theorem blockOfBuff_drop (buff : List Byte) (j : ℕ) :
    blockOfBuff (buff.drop sdSectorSize) j = blockOfBuff buff (j + 1) := by
  unfold blockOfBuff
  rw [List.drop_drop, Nat.mul_succ, Nat.add_comm]
  rfl

theorem toList_blockOfList {bytes : List Byte} (h : blockSize ≤ bytes.length) :
    (blockOfList bytes).toList = bytes.take blockSize := by
  apply List.ext_getElem
  · rw [Vector.length_toList, List.length_take_of_le h]
  · intro i hi hi'
    rw [Vector.length_toList] at hi
    rw [Vector.getElem_toList, List.getElem_take]
    unfold blockOfList
    rw [Vector.getElem_ofFn, List.getD_eq_getElem _ _ (lt_of_lt_of_le hi h)]

/-- The blocks of a buffer make up the buffer. -/
theorem flatMap_blockOfBuff {n : ℕ} {buff : List Byte} (h : buff.length = blockSize * n) :
    ((List.range n).map (blockOfBuff buff)).flatMap Vector.toList = buff := by
  induction n generalizing buff with
  | zero =>
      rw [List.eq_nil_of_length_eq_zero h]
      rfl
  | succ n ih =>
      have hle : blockSize ≤ buff.length := by
        rw [h, Nat.mul_succ]
        exact Nat.le_add_left _ _
      have hrest := @ih (buff.drop blockSize) (by
        rw [List.length_drop, h, Nat.mul_succ, Nat.add_sub_cancel])
      rw [List.range_succ_eq_map, List.map_cons, List.map_map, List.flatMap_cons]
      rw [show blockOfBuff buff ∘ Nat.succ = blockOfBuff (buff.drop blockSize) from
        funext fun j => (blockOfBuff_drop buff j).symm, hrest]
      show (blockOfList (buff.drop (blockSize * 0))).toList ++ _ = _
      rw [Nat.mul_zero, List.drop_zero, toList_blockOfList hle, List.take_append_drop]

/-! ## Waiting long enough -/

/-- The card never lets the host wait longer for this command. -/
def Choice.Within (c : Choice) (fuel : ℕ) : Prop :=
  c.idle < fuel ∧ c.gap < fuel ∧ c.busy.length < fuel

/-- `fuel` is enough for `n` commands from the given one on. -/
def Behaviour.Patient (k : Behaviour) (fuel t n : ℕ) : Prop :=
  ∀ j, j < n → (k.plan (t + j)).Within fuel

theorem Behaviour.Patient.shift {k : Behaviour} {fuel t n t' n' : ℕ} (h : k.Patient fuel t n)
    (hlo : t ≤ t') (hhi : t' + n' ≤ t + n) : k.Patient fuel t' n' := by
  intro j hj
  have hj' := h (t' - t + j) (by omega)
  rwa [show t + (t' - t + j) = t' + j by omega] at hj'

/-- The card makes the host wait for a finite time only. -/
theorem exists_patient (k : Behaviour) (t n : ℕ) : ∃ N, ∀ fuel, N ≤ fuel → k.Patient fuel t n := by
  induction n with
  | zero => exact ⟨0, fun _ _ j hj => absurd hj (Nat.not_lt_zero j)⟩
  | succ n ih =>
      obtain ⟨N, hN⟩ := ih
      refine ⟨N + ((k.plan (t + n)).idle + (k.plan (t + n)).gap + (k.plan (t + n)).busy.length + 1),
        fun fuel hfuel j hj => ?_⟩
      rcases Nat.lt_succ_iff_lt_or_eq.1 hj with hj | rfl
      · exact hN fuel (by omega) j hj
      · exact ⟨by omega, by omega, by omega⟩

/-! ## The loops -/

section Loops

variable (k : Behaviour) {fuel : ℕ}

/-- The loop of `disk_read` over a card that is ready. -/
theorem readBlocks_eq (n : ℕ) (sector : BitVec 32) {s : Card} (h : s.Ready)
    (hfit : (sector.toNat + n) * blockSize ≤ 2 ^ 32) (hp : k.Patient fuel s.turn n) :
    ∃ m t, StopsAt (fun j => (k.plan (s.turn + j)).acceptsRead) n m ∧
      readBlocks (cardBoard k) fuel k.byteAddressed sector n ⟨false, s⟩ =
        .ok ((n - m, (blocks s.mem sector.toNat m).flatMap Vector.toList),
          ⟨false, { s with turn := t }⟩) := by
  induction n generalizing sector s with
  | zero => exact ⟨0, s.turn, stopsAt_zero _, rfl⟩
  | succ n ih =>
      obtain ⟨haddr, hsucc, hfit'⟩ := next_sector hfit
      obtain ⟨hidle, hgap, -⟩ := hp 0 (Nat.succ_pos n)
      have hblock := sdReadSingleBlock_eq k h hidle hgap (getAddr sector k.byteAddressed)
      rw [blockOf_getAddr k haddr] at hblock
      by_cases hok : (k.plan s.turn).acceptsRead
      · rw [if_pos hok] at hblock
        obtain ⟨m, t, hstop, hrest⟩ := ih (sector + 1) (s := { s with turn := s.turn + 1 }) h hfit'
          (hp.shift (Nat.le_succ _) (by show s.turn + 1 + n ≤ _; omega))
        refine ⟨m + 1, t, hstop.cons hok fun j => ?_, (bind_of_ok hblock).trans ?_⟩
        · rw [show s.turn + (j + 1) = s.turn + 1 + j by omega]
        · refine (bind_of_ok hrest).trans ?_
          rw [blocks_succ, List.flatMap_cons, hsucc, Nat.succ_sub_succ]
          rfl
      · rw [if_neg hok] at hblock
        exact ⟨0, s.turn + 1, stopsAt_of_not hok n, bind_of_ok hblock⟩

/-- The loop of `disk_write` over a card that is ready. -/
theorem writeBlocks_eq (n : ℕ) (sector : BitVec 32) {buff : List Byte} {s : Card} (h : s.Ready)
    (hfit : (sector.toNat + n) * blockSize ≤ 2 ^ 32) (hbuff : buff.length = blockSize * n)
    (hp : k.Patient fuel s.turn (2 * n)) :
    ∃ m s', StopsAt (fun j => k.acceptsWrite (s.turn + 2 * j)) n m ∧
      writeBlocks (cardBoard k) fuel k.byteAddressed buff sector n ⟨false, s⟩ =
        .ok (n - m, ⟨false, s'⟩) ∧ s'.Ready ∧ s'.turn ≤ s.turn + 2 * n ∧
      Stored s.mem s'.mem sector.toNat (blockOfBuff buff) n m := by
  -- induction on the blocks; the first that is not accepted ends the loop
  induction n generalizing sector buff s with
  | zero => exact ⟨0, s, stopsAt_zero _, rfl, h, le_refl _, stored_zero _ _ _⟩
  | succ n ih =>
      obtain ⟨haddr, hsucc, hfit'⟩ := next_sector hfit
      have hsrc : blockSize ≤ buff.length := by
        rw [hbuff, Nat.mul_succ]
        exact Nat.le_add_left _ _
      obtain ⟨hidle, -, hbusy⟩ := hp 0 (by omega)
      obtain ⟨hidle', -, -⟩ := hp 1 (by omega)
      obtain ⟨s₁, hblock, hready, hturn, hne, hdone⟩ := sdWriteSingleBlock_eq k h hsrc hidle hbusy
        hidle' (getAddr sector k.byteAddressed)
      rw [blockOf_getAddr k haddr] at hne hdone
      by_cases hok : k.acceptsWrite s.turn
      · rw [decide_eq_true hok] at hblock
        obtain ⟨hmem, hturn'⟩ := hdone hok
        obtain ⟨m, s', hstop, hrest, hready', hle, hstored⟩ := ih (sector + 1) hready hfit'
          (by rw [List.length_drop, hbuff, Nat.mul_succ]; exact Nat.add_sub_cancel _ _)
          (hp.shift (by omega) (by omega))
        rw [hsucc] at hstored
        refine ⟨m + 1, s', hstop.cons hok fun j => ?_, (bind_of_ok hblock).trans ?_, hready',
          by omega, ?_⟩
        · rw [hturn', show s.turn + 2 * (j + 1) = s.turn + 2 + 2 * j by omega]
        · rw [Nat.succ_sub_succ]
          exact hrest
        · refine Stored.cons ?_ hne ?_
          · rw [hmem]
            rfl
          · rw [← funext (blockOfBuff_drop buff)]
            exact hstored
      · rw [decide_eq_false hok] at hblock
        exact ⟨0, s₁, stopsAt_of_not hok n, bind_of_ok hblock, hready, by omega,
          stored_of_failed hne _ n⟩

end Loops

/-! ## The calls -/

/-- A drive that is marked, in the mode of its card; the card is deselected and expects a
command. -/
structure Initialised (k : Behaviour) (d : Disk CardBus) : Prop where
  initialized : d.drive.initialized = true
  present : d.drive.present = true
  mode : d.drive.byteAddressable = k.byteAddressed
  deselected : d.bus.selected = false
  ready : d.bus.card.Ready

/-- What `disk_read` has done: it moved the first `m` of `n` blocks, up to the first that the
card refused, and nothing has changed. -/
structure ReadDone (k : Behaviour) (d d' : Disk CardBus) (start n : ℕ) (res : DResult)
    (out : List Byte) (m : ℕ) : Prop where
  stops : StopsAt (fun j => (k.plan (d.bus.card.turn + j)).acceptsRead) n m
  result : res = .ok ↔ ∀ j, j < n → (k.plan (d.bus.card.turn + j)).acceptsRead
  bytes : out = (blocks d.bus.card.mem start m).flatMap Vector.toList
  mem : d'.bus.card.mem = d.bus.card.mem
  initialised : Initialised k d'

/-- What `disk_write` has done: it moved the first `m` of `n` blocks, up to the first that the
card refused, and no block outside the range has changed. -/
structure WriteDone (k : Behaviour) (d d' : Disk CardBus) (start n : ℕ) (buff : List Byte)
    (res : DResult) (m : ℕ) : Prop where
  stops : StopsAt (fun j => k.acceptsWrite (d.bus.card.turn + 2 * j)) n m
  result : res = .ok ↔ ∀ j, j < n → k.acceptsWrite (d.bus.card.turn + 2 * j)
  stored : Stored d.bus.card.mem d'.bus.card.mem start (blockOfBuff buff) n m
  outside : ∀ i, i < start ∨ start + n ≤ i → d'.bus.card.mem i = d.bus.card.mem i
  initialised : Initialised k d'

section Calls

variable (k : Behaviour) {fuel n : ℕ} {sector : BitVec 32} {d : Disk CardBus}

/-- The result of a loop that stopped at the first failure. -/
theorem result_iff {ok : ℕ → Prop} {m : ℕ} (h : StopsAt ok n m) :
    (if n - m > 0 then DResult.error else .ok) = .ok ↔ ∀ j, j < n → ok j := by
  rw [← h.all_iff]
  have hle := h.le
  by_cases hlt : n - m > 0
  · rw [if_pos hlt]
    exact ⟨fun he => DResult.noConfusion he, fun he => by omega⟩
  · rw [if_neg hlt]
    exact ⟨fun _ => by omega, fun _ => rfl⟩

theorem whenReady_of_initialised {α : Type} (hd : Initialised k d) (refuse : DResult → α)
    (body : Pdrv → Comp (Disk CardBus) Stop α) :
    whenReady 0 refuse body d = body d.drive d := by
  unfold whenReady
  rw [bind_of_ok (show (get : Comp (Disk CardBus) Stop _) d = .ok (d, d) from rfl),
    if_neg (by decide), if_neg (not_not.2 hd.initialized), if_neg (not_not.2 hd.present)]

theorem diskRead_done (hd : Initialised k d) (hfit : (sector.toNat + n) * blockSize ≤ 2 ^ 32)
    (hp : k.Patient fuel d.bus.card.turn n) : ∃ res out d' m,
      diskRead (cardBoard k) fuel 0 sector n d = .ok ((res, out), d') ∧
        ReadDone k d d' sector.toNat n res out m := by
  obtain ⟨m, t, hstop, hrun⟩ := readBlocks_eq k n sector hd.ready hfit hp
  have hbus : d.bus = ⟨false, d.bus.card⟩ := by
    rw [← hd.deselected]
  rw [← hbus, ← hd.mode] at hrun
  refine ⟨_, _, _, m, (whenReady_of_initialised k hd _ _).trans (bind_of_ok (focus_of_ok hrun)),
    ?_⟩
  exact ⟨hstop, result_iff hstop, rfl, rfl, hd.initialized, hd.present, hd.mode, rfl, hd.ready⟩

theorem diskWrite_done (hd : Initialised k d) (hprot : d.drive.writeProtected = false)
    (hfit : (sector.toNat + n) * blockSize ≤ 2 ^ 32) {buff : List Byte}
    (hbuff : buff.length = blockSize * n) (hp : k.Patient fuel d.bus.card.turn (2 * n)) :
    ∃ res d' m, diskWrite (cardBoard k) fuel 0 buff sector n d = .ok (res, d') ∧
      WriteDone k d d' sector.toNat n buff res m ∧
        d'.bus.card.turn ≤ d.bus.card.turn + 2 * n := by
  obtain ⟨m, s', hstop, hrun, hready, hturn, hstored⟩ :=
    writeBlocks_eq k n sector hd.ready hfit hbuff hp
  have hbus : d.bus = ⟨false, d.bus.card⟩ := by
    rw [← hd.deselected]
  rw [← hbus, ← hd.mode] at hrun
  have hcall : writeBody (cardBoard k) fuel buff sector n d.drive d =
      .ok (if n - m > 0 then .error else .ok, { d with bus := ⟨false, s'⟩ }) := by
    unfold writeBody
    rw [hprot, if_neg Bool.false_ne_true]
    exact bind_of_ok (focus_of_ok hrun)
  refine ⟨_, _, m, (whenReady_of_initialised k hd _ _).trans hcall, ?_, hturn⟩
  exact ⟨hstop, result_iff hstop, hstored, fun i hi => hstored.outside hstop.le hi,
    hd.initialized, hd.present, hd.mode, rfl, hready⟩

/-- **Block storage is faithful**, for every card that keeps to the protocol, whatever it
refuses and however long it lets the driver wait: both calls return, they do what
`WriteDone` and `ReadDone` say, and after a complete write a complete read gives the buffer
back.  A write-protected drive is left alone. -/
theorem storage_faithful (hd : Initialised k d)
    (hfit : (sector.toNat + n) * blockSize ≤ 2 ^ 32) {buff : List Byte}
    (hbuff : buff.length = blockSize * n) : ∃ N, ∀ fuel, N ≤ fuel →
    (∃ res out d' m, diskRead (cardBoard k) fuel 0 sector n d = .ok ((res, out), d') ∧
      ReadDone k d d' sector.toNat n res out m) ∧
    (d.drive.writeProtected = true →
      diskWrite (cardBoard k) fuel 0 buff sector n d = .ok (.error, d)) ∧
    (d.drive.writeProtected = false → ∃ res d₁ m,
      diskWrite (cardBoard k) fuel 0 buff sector n d = .ok (res, d₁) ∧
      WriteDone k d d₁ sector.toNat n buff res m ∧ ∃ res' out d₂ m',
        diskRead (cardBoard k) fuel 0 sector n d₁ = .ok ((res', out), d₂) ∧
        ReadDone k d₁ d₂ sector.toNat n res' out m' ∧
        (res = .ok → res' = .ok → out = buff)) := by
  -- enough for the commands of both calls
  obtain ⟨N, hN⟩ := exists_patient k 0 (d.bus.card.turn + 3 * n)
  refine ⟨N, fun fuel hfuel => ⟨?_, ?_, ?_⟩⟩
  · exact diskRead_done k hd hfit ((hN fuel hfuel).shift (Nat.zero_le _) (by omega))
  · intro hprot
    refine (whenReady_of_initialised k hd _ _).trans ?_
    unfold writeBody
    rw [hprot]
    rfl
  · intro hprot
    obtain ⟨res, d₁, m, hwrite, hdone, hturn⟩ := diskWrite_done k hd hprot hfit hbuff
      ((hN fuel hfuel).shift (Nat.zero_le _) (by omega))
    have hwindow : k.Patient fuel d₁.bus.card.turn n := (hN fuel hfuel).shift (Nat.zero_le _)
      (by omega)
    obtain ⟨res', out, d₂, m', hread, hdone'⟩ := diskRead_done k hdone.initialised hfit
      hwindow
    refine ⟨res, d₁, m, hwrite, hdone, res', out, d₂, m', hread, hdone', fun hok hok' => ?_⟩
    have hm : m = n := hdone.stops.all_iff.2 (hdone.result.1 hok)
    have hm' : m' = n := hdone'.stops.all_iff.2 (hdone'.result.1 hok')
    subst hm
    subst hm'
    rw [hdone'.bytes, hdone.stored.blocks_eq, flatMap_blockOfBuff hbuff]

/-! ### Cards -/

/-- A card that accepts everything at once. -/
def willing : Behaviour where
  byteAddressed := true
  plan _ :=
    { idle := 0, r1 := 0, gap := 0, token := dataCtrlStart, crc := (0, 0),
      dataResp := dataRespAccepted, busy := [], fault := none, r2 := 0,
      lineIsIdle_r1 := rfl, token_ne := by decide, busy_ne := fun _ h => absurd h List.not_mem_nil,
      fault_ne := fun _ h => nomatch h }

/-- Its drive, with an empty memory. -/
def willingDisk : Disk CardBus :=
  ⟨⟨true, true, false, true⟩, false, .command [], [], fun _ => Vector.replicate blockSize 0, 0, 0⟩

/-- A card that lets the driver wait: up to two bytes before each response, two before a block
and three busy bytes after one. -/
def leisurely : Behaviour where
  byteAddressed := true
  plan t :=
    { idle := t % 3, r1 := 0, gap := 2, token := dataCtrlStart, crc := (0x12, 0x34),
      dataResp := 0xE5, busy := [0, 0, 0x0F], fault := none, r2 := 0,
      lineIsIdle_r1 := rfl, token_ne := by decide, busy_ne := by decide,
      fault_ne := fun _ h => nomatch h }

/-- Three blocks that differ. -/
def threeBlocks : List Byte :=
  List.replicate 512 0xA5 ++ List.replicate 512 0x5A ++ List.replicate 512 0x3C

/-- Three blocks that are written to that card are read back. -/
theorem storage_faithful_leisurely : ∃ N, ∀ fuel, N ≤ fuel → ∃ d₁ d₂,
    diskWrite (cardBoard leisurely) fuel 0 threeBlocks 3 3 willingDisk = .ok (.ok, d₁) ∧
    diskRead (cardBoard leisurely) fuel 0 3 3 d₁ = .ok ((.ok, threeBlocks), d₂) := by
  have hlen : threeBlocks.length = blockSize * 3 := by
    unfold threeBlocks
    rw [List.length_append, List.length_append, List.length_replicate, List.length_replicate,
      List.length_replicate]
    rfl
  obtain ⟨N, hN⟩ := storage_faithful leisurely (n := 3) (d := willingDisk)
    ⟨rfl, rfl, rfl, rfl, rfl, rfl⟩ (show ((3 : BitVec 32).toNat + 3) * blockSize ≤ 2 ^ 32 by decide)
    hlen
  refine ⟨N, fun fuel hfuel => ?_⟩
  obtain ⟨-, -, hwrite⟩ := hN fuel hfuel
  obtain ⟨res, d₁, m, hw, hdone, res', out, d₂, m', hr, hdone', hback⟩ := hwrite rfl
  -- the card accepts every block of both transfers
  have hres : res = .ok := hdone.result.2 fun _ _ =>
    ⟨⟨rfl, show (0xE5 : Byte) &&& dataRespMask = dataRespAccepted by decide⟩, rfl, rfl, rfl⟩
  have hres' : res' = .ok := hdone'.result.2 fun _ _ => ⟨rfl, rfl⟩
  refine ⟨d₁, d₂, ?_, ?_⟩
  · rw [hw, hres]
  · rw [hr, hback hres hres', hres']

end Calls

end Sd

end Nucleo
