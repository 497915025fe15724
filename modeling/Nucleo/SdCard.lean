/-
# A card that keeps to the protocol

An `SpiBoard` with a card that stores blocks of 512 bytes and answers `CMD17`, `CMD24` and
`CMD13`.  For each command a `Choice` says how long the card lets the host wait, whether it
accepts the command and the block, and what happens to the block otherwise; a `Behaviour` is
one choice for every command to come, so that nothing is fixed about the order of successes
and failures.

The rest of the module runs the functions of `sd_spi.c` against such a card, up to the
transfer of one block: `sdReadSingleBlock_eq` and `sdWriteSingleBlock_eq`.
-/
import Nucleo.SdSpi

namespace Nucleo

namespace Sd

/-! ## The card -/

/-- The contents of a block. -/
abbrev Block := Vector Byte blockSize

/-- What a card does about one command. -/
structure Choice where
  /-- Idle bytes before the first byte of the response. -/
  idle : ℕ
  /-- The first byte of the response. -/
  r1 : Byte
  /-- Idle bytes before the token of a block that is read. -/
  gap : ℕ
  /-- The token of a block that is read, or an error token. -/
  token : Byte
  /-- The checksum of a block that is read. -/
  crc : Byte × Byte
  /-- The response to a block that is written. -/
  dataResp : Byte
  /-- The busy bytes after a block that is accepted. -/
  busy : List Byte
  /-- A block that cannot be programmed, or is not accepted, may be left with other
  contents; the card's status tells so. -/
  fault : Option (Block × Byte)
  /-- The second byte of the response to `CMD13`, when the last block was programmed. -/
  r2 : Byte
  lineIsIdle_r1 : lineIsIdle r1 = false
  token_ne : token ≠ dataIdle
  busy_ne : ∀ b ∈ busy, b ≠ dataIdle
  fault_ne : ∀ f ∈ fault, f.2 ≠ 0

/-- How a card takes its commands to be addressed, and what it does about each. -/
structure Behaviour where
  byteAddressed : Bool
  plan : ℕ → Choice

/-- What the card expects: the rest of a command, the token of a block, or its bytes. -/
inductive Phase
  | command (bytes : List Byte)
  | token (block : ℕ) (c : Choice)
  | data (block : ℕ) (c : Choice) (bytes : List Byte)

/-- A card: the bytes it has yet to send, its memory, the number of commands it has had, and
the status of the last block written. -/
structure Card where
  phase : Phase
  out : List Byte
  mem : ℕ → Block
  turn : ℕ
  status : Byte

/-- The card expects a command and has nothing to send. -/
def Card.Ready (s : Card) : Prop := s.phase = .command [] ∧ s.out = []

/-- The card and its select line. -/
structure CardBus where
  selected : Bool
  card : Card

/-- The argument of a command. -/
def argOf (bytes : List Byte) : BitVec 32 :=
  BitVec.ofNat 32 ((bytes.getD 1 0).toNat * 2 ^ 24 + (bytes.getD 2 0).toNat * 2 ^ 16 +
    (bytes.getD 3 0).toNat * 2 ^ 8 + (bytes.getD 4 0).toNat)

/-- Does the response to a block say that it is accepted? -/
def Choice.takesData (c : Choice) : Prop := c.dataResp &&& dataRespMask = dataRespAccepted

instance (c : Choice) : Decidable c.takesData := inferInstanceAs (Decidable (_ = _))

/-- The block of 512 bytes at the start of a list. -/
def blockOfList (bytes : List Byte) : Block := Vector.ofFn fun i => bytes.getD i 0

/-- What is left in the block after the bytes of a write. -/
def Choice.content (c : Choice) (bytes : List Byte) (old : Block) : Block :=
  match c.fault with
  | some f => f.1
  | none => if c.takesData then blockOfList bytes else old

/-- The status after the bytes of a write. -/
def Choice.newStatus (c : Choice) : Byte :=
  match c.fault with
  | some f => f.2
  | none => 0

namespace Behaviour

variable (k : Behaviour)

/-- The block that an argument addresses. -/
def blockOf (arg : BitVec 32) : ℕ := if k.byteAddressed then arg.toNat / blockSize else arg.toNat

/-- The bytes that follow a `CMD17` that is accepted. -/
def readOut (c : Choice) (b : Block) : List Byte :=
  List.replicate c.gap dataIdle ++ c.token ::
    (if c.token = dataCtrlStart then b.toList ++ [c.crc.1, c.crc.2] else [])

/-! ### What it does -/

/-- The card has received a command. -/
def command (bytes : List Byte) (s : Card) : Card :=
  let c := k.plan s.turn
  let block := k.blockOf (argOf bytes)
  let cmd := bytes.getD 0 0 &&& 0x3F
  let idle := List.replicate c.idle dataIdle
  if cmd = 17 then
    { s with
      turn := s.turn + 1, phase := .command [],
      out := idle ++ c.r1 :: (if c.r1 = 0 then readOut c (s.mem block) else []) }
  else if cmd = 24 then
    { s with
      turn := s.turn + 1, phase := if c.r1 = 0 then .token block c else .command [],
      out := idle ++ [c.r1] }
  else if cmd = 13 then
    { s with
      turn := s.turn + 1, phase := .command [],
      out := idle ++ [c.r1, if s.status = 0 then c.r2 else s.status] }
  else { s with turn := s.turn + 1, phase := .command [], out := idle ++ [c.r1] }

/-- The card has received a block and its checksum. -/
def program (block : ℕ) (c : Choice) (bytes : List Byte) (s : Card) : Card :=
  { s with
    phase := .command [],
    out := c.dataResp :: (if c.takesData then c.busy ++ [dataIdle] else []),
    mem := Function.update s.mem block (c.content bytes (s.mem block)),
    status := c.newStatus }

/-- The card receives a byte while it has nothing to send. -/
def receive (b : Byte) (s : Card) : Card :=
  match s.phase with
  | .command [] => if b &&& 0xC0 = 0x40 then { s with phase := .command [b] } else s
  | .command bytes =>
      if bytes.length + 1 < 6 then { s with phase := .command (bytes ++ [b]) }
      else k.command (bytes ++ [b]) s
  | .token block c => if b = dataCtrlStart then { s with phase := .data block c [] } else s
  | .data block c bytes =>
      if bytes.length + 1 < blockSize + 2 then { s with phase := .data block c (bytes ++ [b]) }
      else program block c (bytes ++ [b]) s

/-- The exchange of one byte. -/
def step (b : Byte) (s : Card) : Byte × Card :=
  match s.out with
  | [] => (dataIdle, k.receive b s)
  | o :: out => (o, { s with out := out })

end Behaviour

/-- The board with the card, which takes part in an exchange only while it is selected. -/
def cardBoard (k : Behaviour) : SpiBoard CardBus where
  xfer b c := if c.selected then ((k.step b c.card).1, ⟨true, (k.step b c.card).2⟩) else (dataIdle, c)
  gpioClear c := { c with selected := true }
  gpioSet c := { c with selected := false }
  spiInit _ c := c

/-! ## Bytes -/

section Bytes

open Comp

variable (k : Behaviour) {s : Card}

/-- A selected card sends what is pending. -/
theorem spiXfer_out {o : Byte} {out : List Byte} (h : s.out = o :: out) (b : Byte) :
    spiXfer (cardBoard k) b ⟨true, s⟩ = .ok (o, ⟨true, { s with out := out }⟩) := by
  show Except.ok ((k.step b s).1, (⟨true, (k.step b s).2⟩ : CardBus)) = _
  unfold Behaviour.step
  rw [h]

/-- With nothing pending it sends idle bytes and takes what it gets. -/
theorem spiXfer_quiet (h : s.out = []) (b : Byte) :
    spiXfer (cardBoard k) b ⟨true, s⟩ = .ok (dataIdle, ⟨true, k.receive b s⟩) := by
  show Except.ok ((k.step b s).1, (⟨true, (k.step b s).2⟩ : CardBus)) = _
  unfold Behaviour.step
  rw [h]

/-- Bytes are taken one by one. -/
theorem sendBytes_cons (h : s.out = []) (b : Byte) (bs : List Byte) :
    sendBytes (cardBoard k) (b :: bs) ⟨true, s⟩ =
      sendBytes (cardBoard k) bs ⟨true, k.receive b s⟩ :=
  bind_of_ok (spiXfer_quiet k h b)

/-- The bytes that are pending are received. -/
theorem recvBytes_out (bytes out : List Byte) (h : s.out = bytes ++ out) :
    recvBytes (cardBoard k) bytes.length ⟨true, s⟩ =
      .ok (bytes, ⟨true, { s with out := out }⟩) := by
  induction bytes generalizing s with
  | nil =>
      cases s
      cases h
      rfl
  | cons b bytes ih =>
      show (spiXfer (cardBoard k) dataDummy >>= _) _ = _
      rw [bind_of_ok (spiXfer_out k h _), bind_of_ok (ih rfl)]
      rfl

/-- A wait that ends with the first byte of its kind. -/
theorem recvUntil_out (stop : Byte → Bool) {pre out : List Byte} {r : Byte} {fuel : ℕ}
    (h : s.out = pre ++ r :: out) (hpre : ∀ b ∈ pre, stop b = false) (hr : stop r = true)
    (hfuel : pre.length < fuel) :
    recvUntil (cardBoard k) fuel stop ⟨true, s⟩ = .ok (r, ⟨true, { s with out := out }⟩) := by
  induction pre generalizing s fuel with
  | nil =>
      obtain ⟨n, rfl⟩ : ∃ n, fuel = n + 1 := ⟨fuel - 1, by have := hfuel; omega⟩
      refine iter_succ_of_inr ?_ n
      rw [bind_of_ok (spiXfer_out k h _), if_pos hr]
      rfl
  | cons b pre ih =>
      obtain ⟨n, rfl⟩ : ∃ n, fuel = n + 1 := ⟨fuel - 1, by have := hfuel; omega⟩
      have hb : stop b = false := hpre b List.mem_cons_self
      have hround : (do
          let r ← spiXfer (cardBoard k) dataDummy
          pure (if stop r then .inr r else .inl ()) : Comp CardBus Stop (Unit ⊕ Byte)) ⟨true, s⟩ =
          .ok (.inl (), ⟨true, { s with out := pre ++ r :: out }⟩) := by
        rw [bind_of_ok (spiXfer_out k h _), hb]
        rfl
      refine (iter_succ_of_inl hround n).trans ?_
      refine ih rfl (fun b' hb' => hpre b' (List.mem_cons_of_mem _ hb')) ?_
      rw [List.length_cons] at hfuel
      omega

/-- The driver selects a card that is ready. -/
theorem sdSelect_eq (h : s.Ready) :
    sdSelect (cardBoard k) ⟨false, s⟩ = .ok ((), ⟨true, s⟩) := by
  have hreceive : k.receive dataDummy s = s := by
    unfold Behaviour.receive
    rw [h.1]
    rfl
  have hxfer := spiXfer_quiet k h.2 dataDummy
  rw [hreceive] at hxfer
  exact (modify_bind _ _ _).trans (bind_of_ok hxfer)

/-- The driver deselects it. -/
theorem sdDeselect_eq : sdDeselect (cardBoard k) ⟨true, s⟩ = .ok ((), ⟨false, s⟩) := rfl

end Bytes

/-! ## Commands -/

section Commands

open Comp

variable (k : Behaviour) {s : Card}

/-- The argument of a command is read back. -/
theorem argOf_cmdBytes (cmd : Byte) (arg : BitVec 32) : argOf (cmdBytes cmd arg) = arg := by
  apply BitVec.eq_of_toNat_eq
  have hlt := arg.isLt
  simp only [argOf, cmdBytes, List.getD_cons_succ, List.getD_cons_zero, BitVec.toNat_ofNat,
    BitVec.toNat_setWidth, BitVec.toNat_ushiftRight, Nat.shiftRight_eq_div_pow]
  omega

/-- A card that is ready has the command after its last byte. -/
theorem sendCmd_eq (h : s.Ready) (cmd : Byte) (hcmd : (cmd ||| 0x40) &&& 0xC0 = 0x40)
    (arg : BitVec 32) :
    sendCmd (cardBoard k) cmd arg ⟨true, s⟩ =
      .ok ((), ⟨true, k.command (cmdBytes cmd arg) s⟩) := by
  obtain ⟨hphase, hout⟩ := h
  -- the first byte starts the command; the others follow, and the sixth completes it
  have hfirst : k.receive (cmd ||| 0x40) s = { s with phase := .command [cmd ||| 0x40] } := by
    unfold Behaviour.receive
    rw [hphase]
    exact if_pos hcmd
  obtain ⟨phase, out, mem, turn, status⟩ := s
  cases hphase
  cases hout
  unfold sendCmd
  refine (sendBytes_cons k rfl _ _).trans ?_
  rw [hfirst]
  refine (sendBytes_cons k rfl _ _).trans ?_
  refine (sendBytes_cons k rfl _ _).trans ?_
  refine (sendBytes_cons k rfl _ _).trans ?_
  refine (sendBytes_cons k rfl _ _).trans ?_
  exact (sendBytes_cons k rfl _ _).trans rfl

/-- **The driver waits for the response**. -/
theorem waitResp_eq {n fuel : ℕ} {r1 : Byte} {out : List Byte}
    (h : s.out = List.replicate n dataIdle ++ r1 :: out) (hr1 : lineIsIdle r1 = false)
    (hfuel : n < fuel) :
    waitResp (cardBoard k) fuel ⟨true, s⟩ = .ok (r1, ⟨true, { s with out := out }⟩) := by
  refine recvUntil_out k _ h (fun b hb => ?_) ?_ (by rwa [List.length_replicate])
  · rw [List.eq_of_mem_replicate hb]
    rfl
  · rw [hr1]
    rfl

/-- A command for the transfer of a block, up to the first byte of the response. -/
theorem sendRwCmd_eq (h : s.Ready) (cmd : Byte) (hcmd : (cmd ||| 0x40) &&& 0xC0 = 0x40)
    (addr : BitVec 32) (s' : Card) {n fuel : ℕ} {r1 : Byte} {out : List Byte}
    (hcommand : k.command (cmdBytes cmd addr) s =
      { s' with out := List.replicate n dataIdle ++ r1 :: out })
    (hr1 : lineIsIdle r1 = false) (hfuel : n < fuel) :
    sendRwCmd (cardBoard k) fuel cmd addr ⟨true, s⟩ =
      .ok (r1 = 0x00, ⟨true, { s' with out := out }⟩) := by
  have hsend := sendCmd_eq k h cmd hcmd addr
  rw [hcommand] at hsend
  refine (bind_of_ok hsend).trans ?_
  exact bind_of_ok (waitResp_eq k rfl hr1 hfuel)

/-! ## Reading a block -/

/-- Does the card send the block? -/
def Choice.acceptsRead (c : Choice) : Prop := c.r1 = 0 ∧ c.token = dataCtrlStart

instance (c : Choice) : Decidable c.acceptsRead := inferInstanceAs (Decidable (_ ∧ _))

/-- What the card does about `CMD17`. -/
theorem command_read (addr : BitVec 32) : k.command (cmdBytes 17 addr) s =
    { s with
      turn := s.turn + 1, phase := .command [],
      out := List.replicate (k.plan s.turn).idle dataIdle ++ (k.plan s.turn).r1 ::
        (if (k.plan s.turn).r1 = 0 then
          Behaviour.readOut (k.plan s.turn) (s.mem (k.blockOf addr)) else []) } := by
  unfold Behaviour.command
  rw [argOf_cmdBytes]
  exact if_pos (show (17 ||| 0x40 : Byte) &&& 0x3F = 17 by decide)

/-- The block after its token. -/
theorem readBlock_eq {c : Choice} {b : Block} {fuel : ℕ} (h : s.out = Behaviour.readOut c b)
    (hfuel : c.gap < fuel) : readBlock (cardBoard k) fuel ⟨true, s⟩ =
      .ok (if c.token = dataCtrlStart then some b.toList else none,
        ⟨true, { s with out := [] }⟩) := by
  unfold Behaviour.readOut at h
  have htoken := recvUntil_out k (fun b => b ≠ dataIdle) h
    (fun b hb => by rw [List.eq_of_mem_replicate hb]; rfl)
    (by rw [decide_eq_true_eq]; exact c.token_ne) (by rwa [List.length_replicate])
  unfold readBlock
  refine (bind_of_ok htoken).trans ?_
  by_cases ht : c.token = dataCtrlStart
  · rw [if_pos ht, if_pos ht, if_pos ht]
    have hlen : b.toList.length = blockSize := b.length_toList
    have hdata := recvBytes_out k (s := { s with out := b.toList ++ [c.crc.1, c.crc.2] }) b.toList _ rfl
    rw [hlen] at hdata
    refine (bind_of_ok hdata).trans ?_
    exact bind_of_ok (recvBytes_out k [c.crc.1, c.crc.2] [] rfl)
  · rw [if_neg ht, if_neg ht, if_neg ht]
    rfl

/-- The transfer of a block from a card that is ready. -/
theorem sdReadSingleBlock_eq (h : s.Ready) {fuel : ℕ} (hidle : (k.plan s.turn).idle < fuel)
    (hgap : (k.plan s.turn).gap < fuel) (addr : BitVec 32) :
    sdReadSingleBlock (cardBoard k) fuel addr ⟨false, s⟩ =
      .ok (if (k.plan s.turn).acceptsRead then some (s.mem (k.blockOf addr)).toList else none,
        ⟨false, { s with turn := s.turn + 1 }⟩) := by
  have hcmd := sendRwCmd_eq k h 17 (by decide) addr
    { s with turn := s.turn + 1, phase := .command [] } (command_read k addr)
    (k.plan s.turn).lineIsIdle_r1 hidle
  obtain ⟨phase, out, mem, turn, status⟩ := s
  obtain ⟨hphase, hout⟩ := h
  cases hphase
  cases hout
  unfold sdReadSingleBlock
  refine (bind_of_ok (sdSelect_eq k ⟨rfl, rfl⟩)).trans ((bind_of_ok hcmd).trans ?_)
  dsimp only
  by_cases hr1 : (k.plan turn).r1 = 0
  · rw [if_pos (decide_eq_true hr1), if_pos hr1]
    refine (bind_of_ok (readBlock_eq k rfl hgap)).trans ?_
    rw [bind_of_ok (sdDeselect_eq k)]
    by_cases ht : (k.plan turn).token = dataCtrlStart
    · rw [if_pos ht, if_pos (show (k.plan turn).acceptsRead from ⟨hr1, ht⟩)]
      rfl
    · rw [if_neg ht, if_neg fun hand : (k.plan turn).acceptsRead => ht hand.2]
      rfl
  · rw [if_neg (by rw [decide_eq_true_eq]; exact hr1), if_neg hr1,
      if_neg fun hand : (k.plan turn).acceptsRead => hr1 hand.1]
    rfl

/-! ## Writing a block -/

/-- Does the card store the block of the command, and report no error afterwards? -/
def Behaviour.acceptsWrite (t : ℕ) : Prop :=
  ((k.plan t).r1 = 0 ∧ (k.plan t).takesData) ∧
    (k.plan t).fault = none ∧ (k.plan (t + 1)).r1 = 0 ∧ (k.plan (t + 1)).r2 = 0

/-! ### The commands -/

/-- What the card does about `CMD24`. -/
theorem command_write (addr : BitVec 32) : k.command (cmdBytes 24 addr) s =
    { s with
      turn := s.turn + 1,
      phase := if (k.plan s.turn).r1 = 0 then .token (k.blockOf addr) (k.plan s.turn)
        else .command [],
      out := List.replicate (k.plan s.turn).idle dataIdle ++ (k.plan s.turn).r1 :: [] } := by
  unfold Behaviour.command
  rw [argOf_cmdBytes]
  exact (if_neg (show ¬ (24 ||| 0x40 : Byte) &&& 0x3F = 17 by decide)).trans
    (if_pos (show (24 ||| 0x40 : Byte) &&& 0x3F = 24 by decide))

/-- What the card does about `CMD13`. -/
theorem command_status (arg : BitVec 32) : k.command (cmdBytes 13 arg) s =
    { s with
      turn := s.turn + 1, phase := .command [],
      out := List.replicate (k.plan s.turn).idle dataIdle ++ (k.plan s.turn).r1 ::
        [if s.status = 0 then (k.plan s.turn).r2 else s.status] } := by
  unfold Behaviour.command
  exact (if_neg (show ¬ (13 ||| 0x40 : Byte) &&& 0x3F = 17 by decide)).trans
    ((if_neg (show ¬ (13 ||| 0x40 : Byte) &&& 0x3F = 24 by decide)).trans
      (if_pos (show (13 ||| 0x40 : Byte) &&& 0x3F = 13 by decide)))

/-- A byte of a block goes behind the others. -/
theorem receive_data {block : ℕ} {c : Choice} {bytes : List Byte}
    (h : s.phase = .data block c bytes) (hlen : bytes.length ≤ blockSize) (b : Byte) :
    k.receive b s = { s with phase := .data block c (bytes ++ [b]) } := by
  unfold Behaviour.receive
  rw [h]
  exact if_pos (by omega)

/-! ### The data -/

/-- The bytes of a block, as long as the checksum is still to come. -/
theorem sendData_eq {block : ℕ} {c : Choice} {bytes : List Byte} {n : ℕ} {src : List Byte}
    (hphase : s.phase = .data block c bytes) (hout : s.out = [])
    (hlen : bytes.length + n ≤ blockSize) (hsrc : n ≤ src.length) :
    sendData (cardBoard k) n src ⟨true, s⟩ =
      .ok ((), ⟨true, { s with phase := .data block c (bytes ++ src.take n) }⟩) := by
  induction n generalizing s bytes src with
  | zero =>
      rw [List.take_zero, List.append_nil, ← hphase]
      rfl
  | succ n ih =>
      cases src with
      | nil => exact absurd hsrc (Nat.not_succ_le_zero n)
      | cons b src =>
          have hxfer := spiXfer_quiet k hout b
          rw [receive_data k hphase (by omega)] at hxfer
          refine (bind_of_ok hxfer).trans ?_
          have hrest := ih (s := { s with phase := .data block c (bytes ++ [b]) }) rfl hout
            (by rw [List.length_append, List.length_singleton]; omega)
            (Nat.le_of_succ_le_succ hsrc)
          rw [List.append_assoc, List.singleton_append] at hrest
          exact hrest

theorem blockOfList_append {bytes : List Byte} (h : bytes.length = blockSize) (rest : List Byte) :
    blockOfList (bytes ++ rest) = blockOfList bytes := by
  unfold blockOfList
  congr 1
  funext i
  have hi : i.val < bytes.length := lt_of_lt_of_eq i.isLt h.symm
  rw [List.getD_append _ _ _ _ hi]

theorem blockOfList_take {src : List Byte} (h : blockSize ≤ src.length) :
    blockOfList (src.take blockSize) = blockOfList src := by
  have hlen : (src.take blockSize).length = blockSize := List.length_take_of_le h
  have happ := blockOfList_append hlen (src.drop blockSize)
  rw [List.take_append_drop] at happ
  exact happ.symm

/-- The checksum is no part of what is stored. -/
theorem content_of_sent {c : Choice} {src : List Byte} (h : blockSize ≤ src.length) (old : Block) :
    c.content (src.take blockSize ++ [dataDummy] ++ [dataDummy]) old = c.content src old := by
  unfold Choice.content
  rw [List.append_assoc, blockOfList_append (List.length_take_of_le h), blockOfList_take h]

/-- A block that is sent to a card that waits for its token. -/
theorem sendBlock_eq {block : ℕ} {c : Choice} {src : List Byte}
    (hphase : s.phase = .token block c) (hout : s.out = []) (hsrc : blockSize ≤ src.length) :
    sendBlock (cardBoard k) src ⟨true, s⟩ = .ok (c.takesData,
      ⟨true, { s with
        phase := .command [],
        out := if c.takesData then c.busy ++ [dataIdle] else [],
        mem := Function.update s.mem block (c.content src (s.mem block)),
        status := c.newStatus }⟩) := by
  have htake : (src.take blockSize).length = blockSize := List.length_take_of_le hsrc
  have htoken := spiXfer_quiet k hout dataCtrlStart
  rw [show k.receive dataCtrlStart s = { s with phase := .data block c [] } by
    unfold Behaviour.receive
    rw [hphase]
    rfl] at htoken
  refine (bind_of_ok htoken).trans ?_
  have hdata := sendData_eq k (s := { s with phase := .data block c [] }) (n := blockSize) rfl hout
    (by rw [List.length_nil]; omega) hsrc
  rw [List.nil_append] at hdata
  refine (bind_of_ok hdata).trans ?_
  -- the two bytes of the checksum; the second one completes the block
  have hcrc : sendBytes (cardBoard k) [dataDummy, dataDummy]
      ⟨true, { s with phase := .data block c (src.take blockSize) }⟩ = .ok ((), ⟨true, { s with
        phase := .command [],
        out := c.dataResp :: (if c.takesData then c.busy ++ [dataIdle] else []),
        mem := Function.update s.mem block (c.content src (s.mem block)),
        status := c.newStatus }⟩) := by
    refine (sendBytes_cons k (s := { s with phase := .data block c (src.take blockSize) })
      hout _ _).trans ?_
    rw [receive_data k rfl (le_of_eq htake)]
    refine (sendBytes_cons k (s := { s with
      phase := .data block c (src.take blockSize ++ [dataDummy]) }) hout _ _).trans ?_
    rw [show k.receive dataDummy
        { s with phase := .data block c (src.take blockSize ++ [dataDummy]) } =
        Behaviour.program block c (src.take blockSize ++ [dataDummy] ++ [dataDummy])
          { s with phase := .data block c (src.take blockSize ++ [dataDummy]) } from
      if_neg (by rw [List.length_append, htake, List.length_singleton]; omega)]
    unfold Behaviour.program
    rw [content_of_sent hsrc]
    rfl
  refine (bind_of_ok hcrc).trans ?_
  exact bind_of_ok (spiXfer_out k rfl _)

/-! ### The end of the write -/

/-- The end of the busy bytes, and the status of the block. -/
theorem waitEndWrite_eq {busy : List Byte} {fuel : ℕ} (hphase : s.phase = .command [])
    (hout : s.out = busy ++ [dataIdle]) (hbusy : ∀ b ∈ busy, b ≠ dataIdle)
    (hfuel : busy.length < fuel) (hidle : (k.plan s.turn).idle < fuel) :
    waitEndWrite (cardBoard k) fuel ⟨true, s⟩ =
      .ok ((k.plan s.turn).r1 = 0 ∧ (if s.status = 0 then (k.plan s.turn).r2 else s.status) = 0,
        ⟨true, { s with turn := s.turn + 1, out := [] }⟩) := by
  have hwait := recvUntil_out k (fun b => b = dataIdle) hout
    (fun b hb => decide_eq_false (hbusy b hb)) (decide_eq_true rfl) hfuel
  refine (bind_of_ok hwait).trans ?_
  have hsend := sendCmd_eq k (s := { s with out := [] }) ⟨hphase, rfl⟩ 13 (by decide) 0
  rw [command_status] at hsend
  have hresp := waitResp_eq k (s := { s with
      turn := s.turn + 1, phase := .command [],
      out := List.replicate (k.plan s.turn).idle dataIdle ++ (k.plan s.turn).r1 ::
        [if s.status = 0 then (k.plan s.turn).r2 else s.status] })
    rfl (k.plan s.turn).lineIsIdle_r1 hidle
  have hlast := recvBytes_out k (s := { s with
      turn := s.turn + 1, phase := .command [],
      out := [if s.status = 0 then (k.plan s.turn).r2 else s.status] }) _ []
    (List.append_nil _).symm
  have hinner : sdSendCommandInner (cardBoard k) fuel 13 0 2 ⟨true, { s with out := [] }⟩ =
      .ok ([(k.plan s.turn).r1, if s.status = 0 then (k.plan s.turn).r2 else s.status],
        ⟨true, { s with turn := s.turn + 1, phase := .command [], out := [] }⟩) :=
    (bind_of_ok hsend).trans ((bind_of_ok hresp).trans (bind_of_ok hlast))
  refine (bind_of_ok hinner).trans ?_
  rw [← hphase]
  simp only [List.all_cons, List.all_nil, Bool.and_true, Bool.decide_and]
  rfl

instance (t : ℕ) : Decidable (k.acceptsWrite t) := inferInstanceAs (Decidable (_ ∧ _))

/-- What the host finds out is whether the block has been stored. -/
theorem status_eq_zero_iff (c : Choice) (r2 : Byte) :
    (if c.newStatus = 0 then r2 else c.newStatus) = 0 ↔ c.fault = none ∧ r2 = 0 := by
  unfold Choice.newStatus
  cases hfault : c.fault with
  | none =>
      rw [if_pos rfl]
      exact ⟨fun h => ⟨rfl, h⟩, fun h => h.2⟩
  | some f =>
      have hne : f.2 ≠ 0 := c.fault_ne f hfault
      dsimp only
      rw [if_neg hne]
      exact ⟨fun h => absurd h hne, fun h => nomatch h.1⟩

/-- **The transfer of a block to a card that is ready**: the driver finds out whether the card
has accepted it, nothing but the block changes, and the card is ready again. -/
theorem sdWriteSingleBlock_eq (h : s.Ready) {fuel : ℕ} {src : List Byte}
    (hsrc : blockSize ≤ src.length) (hidle : (k.plan s.turn).idle < fuel)
    (hbusy : (k.plan s.turn).busy.length < fuel) (hidle' : (k.plan (s.turn + 1)).idle < fuel)
    (addr : BitVec 32) : ∃ s' : Card,
      sdWriteSingleBlock (cardBoard k) fuel addr src ⟨false, s⟩ =
        .ok (k.acceptsWrite s.turn, ⟨false, s'⟩) ∧ s'.Ready ∧ s'.turn ≤ s.turn + 2 ∧
      (∀ b, b ≠ k.blockOf addr → s'.mem b = s.mem b) ∧
      (k.acceptsWrite s.turn →
        s'.mem (k.blockOf addr) = blockOfList src ∧ s'.turn = s.turn + 2) := by
  have hcmd := sendRwCmd_eq k h 24 (by decide) addr
    { s with
      turn := s.turn + 1,
      phase := if (k.plan s.turn).r1 = 0 then .token (k.blockOf addr) (k.plan s.turn)
        else .command [] }
    (command_write k addr) (k.plan s.turn).lineIsIdle_r1 hidle
  unfold sdWriteSingleBlock
  by_cases hr1 : (k.plan s.turn).r1 = 0
  · have hblock := sendBlock_eq k (s := { s with
      turn := s.turn + 1, phase := .token (k.blockOf addr) (k.plan s.turn), out := [] })
      rfl rfl hsrc
    rw [decide_eq_true hr1, if_pos hr1] at hcmd
    by_cases htakes : (k.plan s.turn).takesData
    · -- the block is accepted: the driver waits for its end and asks for the status
      rw [decide_eq_true htakes, if_pos htakes] at hblock
      have hwait := waitEndWrite_eq k (s := { s with
        turn := s.turn + 1, phase := .command [], out := (k.plan s.turn).busy ++ [dataIdle],
        mem := Function.update s.mem (k.blockOf addr)
          ((k.plan s.turn).content src (s.mem (k.blockOf addr))),
        status := (k.plan s.turn).newStatus }) rfl rfl (k.plan s.turn).busy_ne hbusy hidle'
      have hiff : ((k.plan (s.turn + 1)).r1 = 0 ∧ (if (k.plan s.turn).newStatus = 0 then
          (k.plan (s.turn + 1)).r2 else (k.plan s.turn).newStatus) = 0) ↔
          k.acceptsWrite s.turn := by
        rw [status_eq_zero_iff]
        constructor
        · rintro ⟨hr1', hfault, hr2⟩
          exact ⟨⟨hr1, htakes⟩, hfault, hr1', hr2⟩
        · rintro ⟨-, hfault, hr1', hr2⟩
          exact ⟨hr1', hfault, hr2⟩
      refine ⟨{ s with
          turn := s.turn + 1 + 1, phase := .command [], out := [],
          mem := Function.update s.mem (k.blockOf addr)
            ((k.plan s.turn).content src (s.mem (k.blockOf addr))),
          status := (k.plan s.turn).newStatus },
        (bind_of_ok (sdSelect_eq k h)).trans ((bind_of_ok hcmd).trans
          ((bind_of_ok hblock).trans ((bind_of_ok hwait).trans ?_))), ⟨rfl, rfl⟩, le_refl _, ?_, ?_⟩
      · rw [bind_of_ok (sdDeselect_eq k), decide_eq_decide.2 hiff]
        rfl
      · intro b hb
        exact Function.update_of_ne hb _ _
      · rintro ⟨-, hfault, -⟩
        refine ⟨(Function.update_self _ _ _).trans ?_, rfl⟩
        unfold Choice.content
        rw [hfault]
        exact if_pos htakes
    · rw [decide_eq_false htakes, if_neg htakes] at hblock
      have hnot : ¬ k.acceptsWrite s.turn := fun hw => htakes hw.1.2
      refine ⟨{ s with
          turn := s.turn + 1, phase := .command [], out := [],
          mem := Function.update s.mem (k.blockOf addr)
            ((k.plan s.turn).content src (s.mem (k.blockOf addr))),
          status := (k.plan s.turn).newStatus },
        (bind_of_ok (sdSelect_eq k h)).trans ((bind_of_ok hcmd).trans
          ((bind_of_ok hblock).trans ?_)), ⟨rfl, rfl⟩, Nat.le_succ _, ?_, fun hw => absurd hw hnot⟩
      · rw [decide_eq_false hnot]
        rfl
      · intro b hb
        exact Function.update_of_ne hb _ _
  · rw [decide_eq_false hr1, if_neg hr1] at hcmd
    have hnot : ¬ k.acceptsWrite s.turn := fun hw => hr1 hw.1.1
    refine ⟨{ s with turn := s.turn + 1, phase := .command [], out := [] },
      (bind_of_ok (sdSelect_eq k h)).trans ((bind_of_ok hcmd).trans ?_), ⟨rfl, rfl⟩,
      Nat.le_succ _, fun _ _ => rfl, fun hw => absurd hw hnot⟩
    rw [decide_eq_false hnot]
    rfl

end Commands

end Sd

end Nucleo
