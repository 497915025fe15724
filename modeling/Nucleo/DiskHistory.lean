/-
# A drive over a whole run

`storage_faithful` is about one write and the read after it.  Here the calls of
`sd_spi_diskio.c` for a drive that is initialised come in any number and any order.
`knownAfter` follows what a program knows of each block from the calls it has made and what
they returned; `disk_reads_what_was_written` says that every read agrees with it.
-/
import Nucleo.BlockStorage

namespace Nucleo

namespace Sd

open Comp BlockStore

/-! ## Calls and what they return -/

/-- A call for the drive. -/
inductive StorageCall
  | diskRead (sector : BitVec 32) (count : ℕ)
  | diskWrite (buff : List Byte) (sector : BitVec 32) (count : ℕ)
  | diskStatus
  | diskIoctl (cmd : IoctlCmd)

inductive StorageAnswer
  | read (res : DResult) (bytes : List Byte)
  | written (res : DResult)
  | status (s : DStatus)
  | ioctl (res : DResult) (value : Option ℕ)

/-- The blocks of a transfer are on a card that 32 bits can address, and the buffer of a write
has their size. -/
def StorageCall.Legal : StorageCall → Prop
  | .diskRead sector count => (sector.toNat + count) * blockSize ≤ 2 ^ 32
  | .diskWrite buff sector count =>
      (sector.toNat + count) * blockSize ≤ 2 ^ 32 ∧ buff.length = blockSize * count
  | .diskStatus | .diskIoctl _ => True

section Exec

variable {χ : Type} (B : SpiBoard χ) (fuel : ℕ)

def StorageCall.exec : StorageCall → Comp (Disk χ) Stop StorageAnswer
  | .diskRead sector count => do
      let (res, bytes) ← Sd.diskRead B fuel 0 sector count
      pure (.read res bytes)
  | .diskWrite buff sector count => do
      let res ← Sd.diskWrite B fuel 0 buff sector count
      pure (.written res)
  | .diskStatus => do
      let d ← get
      pure (.status (Sd.diskStatus 0 d))
  | .diskIoctl cmd => do
      let (res, value) ← Sd.diskIoctl 0 cmd
      pure (.ioctl res value)

/-- Calls one after the other, with what they return. -/
def execAll : List StorageCall → Comp (Disk χ) Stop (List (StorageCall × StorageAnswer))
  | [] => pure []
  | c :: cs => do
      let a ← c.exec B fuel
      let h ← execAll cs
      pure ((c, a) :: h)

end Exec

/-! ## What the program knows -/

/-- What a call and its answer tell about the blocks. -/
def note (known : ℕ → Option Block) : StorageCall × StorageAnswer → ℕ → Option Block
  | (.diskWrite buff sector count, .written res) =>
      knownAfter sector.toNat count (blockOfBuff buff) (res = .ok) known
  | _ => known

/-- What the calls so far tell, when nothing was known before. -/
def knownFrom (h : List (StorageCall × StorageAnswer)) : ℕ → Option Block :=
  h.foldl note fun _ => none

/-- The answer agrees with what is known: a read gives blocks from its sector on, all of them
when it succeeds, and those that are known as they are known. -/
def AnswerRight (known : ℕ → Option Block) : StorageCall × StorageAnswer → Prop
  | (.diskRead sector count, .read res bytes) =>
      ∃ blks : List Block, bytes = blks.flatMap Vector.toList ∧ blks.length ≤ count ∧
        (res = .ok ↔ blks.length = count) ∧
        ∀ j (hj : j < blks.length) b, known (sector.toNat + j) = some b → blks[j] = b
  | (.diskWrite _ _ _, .written res) => res = .ok ∨ res = .error
  | (.diskStatus, .status s) => s = .ok ∨ s = .protect
  | (.diskIoctl cmd, .ioctl res value) => (res, value) = ioctlBody cmd
  | _ => False

/-! ## One call -/

/-- The commands that a call takes at most. -/
def StorageCall.commands : StorageCall → ℕ
  | .diskRead _ count => count
  | .diskWrite _ _ count => 2 * count
  | .diskStatus | .diskIoctl _ => 0

section Calls

variable (k : Behaviour) {fuel : ℕ}

/-- A read takes one command for each block. -/
theorem readBlocks_turn (n : ℕ) (sector : BitVec 32) {s : Card} (h : s.Ready)
    (hp : k.Patient fuel s.turn n) :
    Post (readBlocks (cardBoard k) fuel k.byteAddressed sector n)
      (fun _ c => c.card.turn ≤ s.turn + n) ⟨false, s⟩ := by
  induction n generalizing sector s with
  | zero => exact post_pure.2 (le_refl _)
  | succ n ih =>
      obtain ⟨hidle, hgap, -⟩ := hp 0 (Nat.succ_pos n)
      have hblock := sdReadSingleBlock_eq k h hidle hgap (getAddr sector k.byteAddressed)
      unfold readBlocks
      rw [post_bind_of_ok hblock]
      by_cases hok : (k.plan s.turn).acceptsRead
      · rw [if_pos hok]
        have hrest := @ih (sector + 1) { s with turn := s.turn + 1 } h
          (hp.shift (Nat.le_succ _) (by show s.turn + 1 + n ≤ _; omega))
        refine post_bind.2 (hrest.mono fun r c hc => post_pure.2 ?_)
        dsimp only at hc
        omega
      · rw [if_neg hok]
        exact post_pure.2 (by show s.turn + 1 ≤ s.turn + (n + 1); omega)

/-! ### What it has done -/

/-- The answer of a call, and what the program knows after it. -/
structure CallDone (known : ℕ → Option Block) (d d' : Disk CardBus) (c : StorageCall)
    (a : StorageAnswer) : Prop where
  right : AnswerRight known (c, a)
  known : Known (note known (c, a)) d'.bus.card.mem
  initialised : Initialised k d'
  turn : d'.bus.card.turn ≤ d.bus.card.turn + c.commands

variable {known : ℕ → Option Block} {d : Disk CardBus}

theorem diskRead_call (hd : Initialised k d) (hknown : Known known d.bus.card.mem)
    {sector : BitVec 32} {n : ℕ} (hfit : (sector.toNat + n) * blockSize ≤ 2 ^ 32)
    (hp : k.Patient fuel d.bus.card.turn n) :
    ∃ a d', (StorageCall.diskRead sector n).exec (cardBoard k) fuel d = .ok (a, d') ∧
      CallDone k known d d' (.diskRead sector n) a := by
  obtain ⟨res, out, d', m, hrun, hdone⟩ := diskRead_done k hd hfit hp
  have hturn : d'.bus.card.turn ≤ d.bus.card.turn + n := by
    have hpost : Post (Sd.diskRead (cardBoard k) fuel 0 sector n)
        (fun _ d' => d'.bus.card.turn ≤ d.bus.card.turn + n) d := by
      refine (post_congr (whenReady_of_initialised k hd _ _)).2 ?_
      have hblocks := readBlocks_turn k n sector hd.ready hp
      rw [← hd.mode] at hblocks
      refine post_bind.2 (post_focus.2 ?_)
      rw [← hd.deselected] at hblocks
      exact hblocks.mono fun _ _ h => post_pure.2 h
    exact hpost _ _ hrun
  refine ⟨.read res out, d', bind_of_ok hrun, ⟨?_, ?_, hdone.initialised, hturn⟩⟩
  · refine ⟨blocks d.bus.card.mem sector.toNat m, hdone.bytes, ?_, ?_, ?_⟩
    · rw [length_blocks]
      exact hdone.stops.le
    · rw [length_blocks, hdone.result, hdone.stops.all_iff]
    · intro j hj b hb
      exact hknown.blocks_getElem hj hb
  · rw [hdone.mem]
    exact hknown

theorem diskWrite_call (hd : Initialised k d) (hknown : Known known d.bus.card.mem)
    {buff : List Byte} {sector : BitVec 32} {n : ℕ}
    (hfit : (sector.toNat + n) * blockSize ≤ 2 ^ 32) (hbuff : buff.length = blockSize * n)
    (hp : k.Patient fuel d.bus.card.turn (2 * n)) :
    ∃ a d', (StorageCall.diskWrite buff sector n).exec (cardBoard k) fuel d = .ok (a, d') ∧
      CallDone k known d d' (.diskWrite buff sector n) a := by
  cases hprot : d.drive.writeProtected with
  | true =>
      -- nothing is sent; the program is told that the write has failed
      have hrun : Sd.diskWrite (cardBoard k) fuel 0 buff sector n d = .ok (.error, d) := by
        refine (whenReady_of_initialised k hd _ _).trans ?_
        unfold writeBody
        rw [hprot]
        rfl
      exact ⟨.written .error, d, bind_of_ok hrun, .inr rfl, hknown.refused (by decide), hd,
        Nat.le_add_right _ _⟩
  | false =>
      obtain ⟨res, d', m, hrun, hdone, hturn⟩ := diskWrite_done k hd hprot hfit hbuff hp
      refine ⟨.written res, d', bind_of_ok hrun, ⟨?_, ?_, hdone.initialised, hturn⟩⟩
      · have hpost : Post (Sd.diskWrite (cardBoard k) fuel 0 buff sector n)
            (fun res _ => res = .ok ∨ res = .error) d := by
          refine (post_congr (whenReady_of_initialised k hd _ _)).2 ?_
          refine post_ite.2 ⟨fun _ => post_pure.2 (.inr rfl), fun _ => post_bind.2 ?_⟩
          intro left d₁ _
          refine post_pure.2 ?_
          by_cases hleft : left > 0
          · rw [if_pos hleft]
            exact .inr rfl
          · rw [if_neg hleft]
            exact .inl rfl
        exact hpost _ _ hrun
      · exact hknown.stored hdone.stored hdone.stops.le fun hok =>
          hdone.stops.all_iff.2 (hdone.result.1 hok)

/-- **One call** of a run. -/
theorem storageCall_done (hd : Initialised k d) (hknown : Known known d.bus.card.mem)
    {c : StorageCall} (hc : c.Legal) (hp : k.Patient fuel d.bus.card.turn c.commands) :
    ∃ a d', c.exec (cardBoard k) fuel d = .ok (a, d') ∧ CallDone k known d d' c a := by
  cases c with
  | diskRead sector n => exact diskRead_call k hd hknown hc hp
  | diskWrite buff sector n => exact diskWrite_call k hd hknown hc.1 hc.2 hp
  | diskStatus =>
      refine ⟨_, d, rfl, ⟨?_, hknown, hd, le_refl _⟩⟩
      show Sd.diskStatus 0 d = .ok ∨ Sd.diskStatus 0 d = .protect
      unfold Sd.diskStatus
      rw [if_pos (by decide), if_neg (not_not.2 hd.initialized), if_neg (not_not.2 hd.present)]
      cases d.drive.writeProtected with
      | true => exact .inr rfl
      | false => exact .inl rfl
  | diskIoctl cmd =>
      have hrun : Sd.diskIoctl 0 cmd d = .ok (ioctlBody cmd, d) :=
        whenReady_of_initialised k hd _ _
      exact ⟨_, d, bind_of_ok hrun, ⟨rfl, hknown, hd, le_refl _⟩⟩

/-! ## A run -/

/-- The commands that the calls of a run take at most. -/
def commandsOf (cs : List StorageCall) : ℕ := (cs.map StorageCall.commands).sum

theorem execAll_done (cs : List StorageCall) (hcs : ∀ c ∈ cs, c.Legal) (hd : Initialised k d)
    (hknown : Known known d.bus.card.mem)
    (hp : k.Patient fuel 0 (d.bus.card.turn + commandsOf cs)) :
    ∃ h d', execAll (cardBoard k) fuel cs d = .ok (h, d') ∧ h.map Prod.fst = cs ∧
      Initialised k d' ∧ Known (h.foldl note known) d'.bus.card.mem ∧
      ∀ pre e post, h = pre ++ e :: post → AnswerRight (pre.foldl note known) e := by
  induction cs generalizing d known with
  | nil =>
      refine ⟨[], d, rfl, rfl, hd, hknown, ?_⟩
      intro pre e post h
      exact absurd h (by simp)
  | cons c cs ih =>
      have hsum : commandsOf (c :: cs) = c.commands + commandsOf cs := List.sum_cons
      rw [hsum] at hp
      obtain ⟨a, d₁, hrun, hdone⟩ := storageCall_done k hd hknown (hcs c List.mem_cons_self)
        (hp.shift (Nat.zero_le _) (by omega))
      have hturn := hdone.turn
      obtain ⟨h, d', hrest, hmap, hd', hknown', hright⟩ :=
        ih (fun c' hc' => hcs c' (List.mem_cons_of_mem _ hc')) hdone.initialised hdone.known
          (hp.shift (le_refl _) (by omega))
      refine ⟨(c, a) :: h, d', (bind_of_ok hrun).trans (bind_of_ok hrest), ?_, hd', hknown', ?_⟩
      · rw [List.map_cons, hmap]
      · rintro (_ | ⟨e', pre⟩) e post heq
        · cases heq
          exact hdone.right
        · rw [List.cons_append] at heq
          cases heq
          exact hright pre e post rfl

/-- **A drive gives back what was written.**  Over a card that keeps to the protocol, whatever it
refuses and however long it lets the driver wait, every sequence of calls returns, and every
answer agrees with what the calls before it tell: a block that was last written by a call that
succeeded is read as it was written, whatever happened to other blocks since.  The drive stays
initialised, and at the end the card holds all that is known. -/
theorem disk_reads_what_was_written (d : Disk CardBus) (hd : Initialised k d)
    (cs : List StorageCall) (hcs : ∀ c ∈ cs, c.Legal) : ∃ N, ∀ fuel, N ≤ fuel →
    ∃ h d', execAll (cardBoard k) fuel cs d = .ok (h, d') ∧ h.map Prod.fst = cs ∧
      Initialised k d' ∧ Known (knownFrom h) d'.bus.card.mem ∧
      ∀ pre e post, h = pre ++ e :: post → AnswerRight (knownFrom pre) e := by
  obtain ⟨N, hN⟩ := exists_patient k 0 (d.bus.card.turn + commandsOf cs)
  refine ⟨N, fun fuel hfuel => ?_⟩
  exact execAll_done k cs hcs hd (fun _ _ hb => nomatch hb) (hN fuel hfuel)

/-- Two blocks are written, the second of them again, and both are read. -/
def rewriteRun : List StorageCall :=
  [.diskWrite (List.replicate 1024 0xA5) 3 2, .diskStatus,
    .diskWrite (List.replicate 512 0x5A) 4 1, .diskIoctl .ctrlSync, .diskRead 3 2]

theorem rewriteRun_legal : ∀ c ∈ rewriteRun, c.Legal := by
  have hsector : ∀ n, n ≤ 2 → ((3 : BitVec 32).toNat + n) * blockSize ≤ 2 ^ 32 := by
    intro n hn
    show (3 + n) * 512 ≤ 4294967296
    omega
  simp only [rewriteRun, List.forall_mem_cons]
  refine ⟨⟨hsector 2 (le_refl _), List.length_replicate⟩, trivial,
    ⟨by decide, List.length_replicate⟩, trivial, hsector 2 (le_refl _), ?_⟩
  exact fun c hc => absurd hc List.not_mem_nil

/-- On a card that accepts everything the read answers with the first block of the first write
and with the second write. -/
theorem disk_reads_what_was_written_willing : ∃ N, ∀ fuel, N ≤ fuel →
    ∃ h d', execAll (cardBoard willing) fuel rewriteRun willingDisk = .ok (h, d') ∧
      ∀ pre e post, h = pre ++ e :: post → AnswerRight (knownFrom pre) e := by
  obtain ⟨N, hN⟩ := disk_reads_what_was_written willing willingDisk ⟨rfl, rfl, rfl, rfl, rfl, rfl⟩
    rewriteRun rewriteRun_legal
  refine ⟨N, fun fuel hfuel => ?_⟩
  obtain ⟨h, d', hrun, -, -, -, hright⟩ := hN fuel hfuel
  exact ⟨h, d', hrun, hright⟩

end Calls

end Sd

end Nucleo
