/-
# From power-on to storage

A card that has just been powered takes no block: it has to be clocked, reset into SPI mode, asked
for its voltage, polled until it is ready, and asked for its capacity.  `StartUp` says how a card
answers the commands of this handshake, how often it fails or is busy, and how long it lets the
host wait; a command that is not one of them finds it ready, and from then on the card is the one of
`cardBoard`.

`disk_initialize` succeeds on exactly the cards that it should, stores the addressing mode of the
card, and leaves a drive over which every run reads what was written (`power_up_to_storage`).
-/
import Nucleo.DiskHistory
import Nucleo.SdInit
import Nucleo.SpiBus

namespace Nucleo

namespace Sd

open Comp

/-! ## The card -/

/-- How a card starts. -/
structure StartUp where
  /-- Idle bytes before the response to each command. -/
  wait : ℕ → ℕ
  /-- The answers to `CMD0`; the card is reset when it is `sdStateIdle`. -/
  resetAnswer : ℕ → Byte
  /-- The card knows `CMD8`. -/
  version2 : Bool
  /-- The card takes the voltage that `CMD8` tells it. -/
  voltage : Bool
  /-- How many `ACMD41` after a reset find the card busy. -/
  busyPolls : ℕ
  /-- The operating conditions; bit 30 is set when blocks are addressed by their number. -/
  ocr : BitVec 32
  /-- The answer to `CMD16`. -/
  lengthAnswer : Byte
  lineIsIdle_reset : ∀ n, lineIsIdle (resetAnswer n) = false
  lineIsIdle_length : lineIsIdle lengthAnswer = false

/-- The state of a card that starts. -/
structure Starting where
  /-- The bytes for which it still has to be clocked. -/
  clocks : ℕ
  /-- The bytes of a command. -/
  bytes : List Byte
  /-- The bytes it has yet to send. -/
  out : List Byte
  /-- The commands it has answered. -/
  turn : ℕ
  /-- The `CMD0` it has answered. -/
  resets : ℕ
  /-- It has been reset into SPI mode. -/
  spi : Bool
  /-- The last command was `CMD55`. -/
  app : Bool
  /-- The `ACMD41` since it was reset. -/
  polls : ℕ
  ready : Bool

/-- The card has been clocked, and has nothing to send. -/
structure Starting.Quiet (s : Starting) : Prop where
  clocks : s.clocks = 0
  bytes : s.bytes = []
  out : s.out = []

/-- The first byte of a response, without errors. -/
def Starting.r1 (s : Starting) : Byte := if s.ready then 0x00 else sdStateIdle

/-- The bit of an illegal command in `R1`. -/
def illegalCommand : Byte := 0x04
/-- The bit of a wrong checksum in `R1`. -/
def crcError : Byte := 0x08

/-- The bytes of a register. -/
def bytesOf (x : BitVec 32) : List Byte :=
  [(x >>> 24).setWidth 8, (x >>> 16).setWidth 8, (x >>> 8).setWidth 8, x.setWidth 8]

/-- The bit for high capacity, in the operating conditions and in the argument of `ACMD41`. -/
def hcs : BitVec 32 := 0x40000000

/-- The commands of the handshake. -/
def startCommands : List Byte := [0, 8, 16, 41, 55, 58]

/-- The byte begins a command of another kind. -/
def beginsTransfer (b : Byte) : Prop := b &&& 0xC0 = 0x40 ∧ b &&& 0x3F ∉ startCommands

instance (b : Byte) : Decidable (beginsTransfer b) := inferInstanceAs (Decidable (_ ∧ _))

namespace StartUp

variable (σ : StartUp)

/-- The card's blocks are addressed by their number. -/
def HighCapacity : Prop := σ.ocr &&& hcs ≠ 0

instance : Decidable σ.HighCapacity := inferInstanceAs (Decidable (_ ≠ _))

/-- The state after a command, but for the response. -/
def answered (s : Starting) : Starting :=
  { s with turn := s.turn + 1, bytes := [], out := [], app := false }

/-- The state after `CMD55`. -/
def asked (s : Starting) : Starting := { answered s with app := true }

/-- The card answers after its wait. -/
def respond (rs : List Byte) (s : Starting) : Starting :=
  { answered s with out := List.replicate (σ.wait s.turn) dataIdle ++ rs }

/-- The card has received a command.  Checksums count for `CMD0` and `CMD8`, and only `CMD0` is
understood before the card is in SPI mode. -/
def command (bytes : List Byte) (s : Starting) : Starting :=
  let cmd := bytes.getD 0 0 &&& 0x3F
  let arg := argOf bytes
  let crc := bytes.getD 5 0
  if cmd = 0 then
    if crc ≠ 0x95 then σ.respond [s.r1 ||| crcError] s
    else if σ.resetAnswer s.resets = sdStateIdle then
      σ.respond [sdStateIdle]
        { s with resets := s.resets + 1, spi := true, ready := false, polls := 0 }
    else σ.respond [σ.resetAnswer s.resets] { s with resets := s.resets + 1 }
  else if ¬ s.spi then { s with bytes := [] }
  else if cmd = 8 then
    if crc ≠ 0x87 then σ.respond [s.r1 ||| crcError] s
    else if σ.version2 then
      σ.respond [s.r1, 0, 0, if σ.voltage then (arg >>> 8).setWidth 8 &&& 0x0F else 0,
        arg.setWidth 8] s
    else σ.respond [s.r1 ||| illegalCommand] s
  else if cmd = 55 then { σ.respond [s.r1] s with app := true }
  else if cmd = 41 ∧ s.app then
    -- a card of high capacity stays busy for a host that does not know of it
    if s.polls < σ.busyPolls ∨ σ.HighCapacity ∧ arg &&& hcs = 0 then
      σ.respond [sdStateIdle] { s with polls := s.polls + 1 }
    else σ.respond [0x00] { s with ready := true }
  else if cmd = 58 then σ.respond (s.r1 :: bytesOf σ.ocr) s
  else if cmd = 16 ∧ s.ready then σ.respond [σ.lengthAnswer] s
  else σ.respond [s.r1 ||| illegalCommand] s

/-- The card receives a byte while it has nothing to send. -/
def receive (b : Byte) (s : Starting) : Starting :=
  match s.bytes with
  | [] => if b &&& 0xC0 = 0x40 then { s with bytes := [b] } else s
  | c :: bytes =>
      if (c :: bytes).length + 1 < 6 then { s with bytes := c :: bytes ++ [b] }
      else σ.command (c :: bytes ++ [b]) s

end StartUp

/-- A card before and after the first command that is none of the handshake. -/
inductive StartBus
  | starting (selected : Bool) (s : Starting)
  | transferring (c : CardBus)

/-- The card as the transfers find it. -/
def newCard (mem : ℕ → Block) : Card := ⟨.command [], [], mem, 0, 0⟩

section Board

variable (σ : StartUp) (k : Behaviour) (mem : ℕ → Block)

/-- The exchange of one byte.  A card that is not selected counts the clocks; one that has not
been clocked enough sleeps. -/
def startXfer (b : Byte) : StartBus → Byte × StartBus
  | .starting false s => (dataIdle, .starting false { s with clocks := s.clocks - 1 })
  | .starting true s =>
      if s.clocks > 0 then (dataIdle, .starting true s)
      else match s.out with
        | o :: out => (o, .starting true { s with out := out })
        | [] =>
            if s.ready = true ∧ s.bytes = [] ∧ beginsTransfer b then
              (dataIdle, .transferring ⟨true, k.receive b (newCard mem)⟩)
            else (dataIdle, .starting true (σ.receive b s))
  | .transferring c => (((cardBoard k).xfer b c).1, .transferring ((cardBoard k).xfer b c).2)

/-- The select line. -/
def StartBus.select (selected : Bool) : StartBus → StartBus
  | .starting _ s => .starting selected s
  | .transferring c => .transferring { c with selected := selected }

/-- The board with a card that starts, and that stores blocks when it is ready. -/
def startBoard : SpiBoard StartBus where
  xfer := startXfer σ k mem
  gpioClear := StartBus.select true
  gpioSet := StartBus.select false
  spiInit _ c := c

end Board

/-! ## A board that plays bytes -/

section Plays

variable {χ : Type} {B : SpiBoard χ} {P : List Byte → χ}
  (hplay : ∀ o out b, B.xfer b (P (o :: out)) = (o, P out))

include hplay

/-- The bytes that are pending are received, and idle ones behind them. -/
theorem recvBytes_plays (bytes : List Byte) {n : ℕ} (hlen : bytes.length ≤ n)
    (hsilent : B.xfer dataDummy (P []) = (dataIdle, P [])) :
    recvBytes B n (P bytes)
      = .ok (bytes ++ List.replicate (n - bytes.length) dataIdle, P []) := by
  induction n generalizing bytes with
  | zero =>
      rw [List.eq_nil_of_length_eq_zero (Nat.le_zero.1 hlen)]
      rfl
  | succ n ih =>
      rcases bytes with _ | ⟨b, bytes⟩
      · have hxfer : spiXfer B dataDummy (P []) = .ok (dataIdle, P []) := congrArg _ hsilent
        have hrest := ih [] (Nat.zero_le n)
        exact (bind_of_ok hxfer).trans (bind_of_ok hrest)
      · have hxfer : spiXfer B dataDummy (P (b :: bytes)) = .ok (b, P bytes) :=
          congrArg _ (hplay b bytes dataDummy)
        have hrest := ih bytes (Nat.le_of_succ_le_succ hlen)
        rw [List.length_cons, Nat.succ_sub_succ]
        exact (bind_of_ok hxfer).trans (bind_of_ok hrest)

/-- The response is the first byte that is not idle. -/
theorem waitResp_plays {n fuel : ℕ} {r : Byte} (out : List Byte) (hr : lineIsIdle r = false)
    (hfuel : n < fuel) :
    waitResp B fuel (P (List.replicate n dataIdle ++ r :: out)) = .ok (r, P out) := by
  obtain ⟨m, rfl⟩ : ∃ m, fuel = m + 1 := ⟨fuel - 1, by omega⟩
  unfold waitResp
  induction n generalizing m with
  | zero =>
      have hxfer : spiXfer B dataDummy (P (r :: out)) = .ok (r, P out) :=
        congrArg _ (hplay r out dataDummy)
      refine iter_succ_of_inr ?_ m
      have hstop : (decide ¬ lineIsIdle r = true) = true := by
        rw [hr]
        rfl
      rw [List.replicate_zero, List.nil_append, bind_of_ok hxfer, if_pos hstop]
      rfl
  | succ n ih =>
      obtain ⟨m, rfl⟩ : ∃ m', m = m' + 1 := ⟨m - 1, by omega⟩
      have hxfer : spiXfer B dataDummy (P (List.replicate (n + 1) dataIdle ++ r :: out))
          = .ok (dataIdle, P (List.replicate n dataIdle ++ r :: out)) :=
        congrArg _ (hplay dataIdle _ dataDummy)
      refine (iter_succ_of_inl ?_ (m + 1)).trans (ih m (by omega))
      rw [bind_of_ok hxfer]
      rfl

end Plays

/-! ## One command -/

section Command

variable (σ : StartUp) (k : Behaviour) (mem : ℕ → Block) {s : Starting} {fuel : ℕ}

/-- A byte on the bus is a byte to the card. -/
theorem xfer_startBoard : (startBoard σ k mem).xfer = startXfer σ k mem := rfl

/-- A selected card sends what is pending. -/
theorem startXfer_out (hclocks : s.clocks = 0) (o : Byte) (out : List Byte) (b : Byte) :
    (startBoard σ k mem).xfer b (.starting true { s with out := o :: out })
      = (o, .starting true { s with out := out }) := by
  rw [xfer_startBoard]
  unfold startXfer
  dsimp only
  rw [hclocks]
  rfl

/-- A byte that is for the handshake. -/
theorem spiXfer_receive (hclocks : s.clocks = 0) (hout : s.out = []) {b : Byte}
    (hb : ¬ (s.ready = true ∧ s.bytes = [] ∧ beginsTransfer b)) :
    spiXfer (startBoard σ k mem) b (.starting true s)
      = .ok (dataIdle, .starting true (σ.receive b s)) := by
  unfold spiXfer
  rw [xfer_startBoard]
  unfold startXfer
  dsimp only
  rw [hclocks, if_neg (lt_irrefl 0), hout]
  dsimp only
  rw [if_neg hb]

/-- An idle byte starts no command. -/
theorem receive_idle (hs : s.Quiet) : σ.receive dataIdle s = s := by
  unfold StartUp.receive
  rw [hs.bytes]
  rfl

/-- A card with nothing to send stays as it is. -/
theorem startXfer_idle (hs : s.Quiet) :
    (startBoard σ k mem).xfer dataIdle (.starting true s) = (dataIdle, .starting true s) := by
  have hxfer := spiXfer_receive σ k mem hs.clocks hs.out
    (b := dataIdle) (fun h => absurd h.2.2.1 (by decide))
  rw [receive_idle σ hs] at hxfer
  exact Except.ok.inj hxfer

/-- What a command does does not depend on the bytes kept so far. -/
theorem command_keeps_bytes (bytes kept : List Byte) :
    σ.command bytes { s with bytes := kept } = σ.command bytes s := by
  unfold StartUp.command
  dsimp only
  split_ifs <;> rfl

/-! ### The driver's side -/

/-- Six bytes make a command. -/
theorem sendCmd_start (hs : s.Quiet) {cmd : Byte} (hcmd : (cmd ||| 0x40) &&& 0xC0 = 0x40)
    (hstart : ¬ beginsTransfer (cmd ||| 0x40)) (arg : BitVec 32) :
    sendCmd (startBoard σ k mem) cmd arg (.starting true s)
      = .ok ((), .starting true (σ.command (cmdBytes cmd arg) s)) := by
  obtain ⟨clocks, bytes, out, turn, resets, spi, app, polls, ready⟩ := s
  obtain ⟨hclocks, hbytes, hout⟩ := hs
  cases hclocks
  cases hbytes
  cases hout
  have hfirst := spiXfer_receive σ k mem (s := ⟨0, [], [], turn, resets, spi, app, polls, ready⟩)
    rfl rfl (b := cmd ||| 0x40) (fun h => hstart h.2.2)
  rw [show σ.receive (cmd ||| 0x40) ⟨0, [], [], turn, resets, spi, app, polls, ready⟩
    = ⟨0, [cmd ||| 0x40], [], turn, resets, spi, app, polls, ready⟩ from if_pos hcmd] at hfirst
  -- behind the first byte the card collects whatever comes
  have hnext : ∀ (c : Byte) (bytes : List Byte) (b : Byte),
      spiXfer (startBoard σ k mem) b
          (.starting true ⟨0, c :: bytes, [], turn, resets, spi, app, polls, ready⟩)
        = .ok (dataIdle, .starting true
            (σ.receive b ⟨0, c :: bytes, [], turn, resets, spi, app, polls, ready⟩)) :=
    fun c bytes b => spiXfer_receive σ k mem rfl rfl (fun h => nomatch h.2.1)
  unfold sendCmd cmdBytes
  refine (bind_of_ok hfirst).trans ?_
  refine (bind_of_ok (hnext _ _ _)).trans ?_
  refine (bind_of_ok (hnext _ _ _)).trans ?_
  refine (bind_of_ok (hnext _ _ _)).trans ?_
  refine (bind_of_ok (hnext _ _ _)).trans ?_
  refine (bind_of_ok (hnext _ _ _)).trans ?_
  rw [← command_keeps_bytes σ (s := ⟨0, [], [], turn, resets, spi, app, polls, ready⟩) _
    [cmd ||| 0x40, (arg >>> 24).setWidth 8, (arg >>> 16).setWidth 8, (arg >>> 8).setWidth 8,
      arg.setWidth 8]]
  rfl

/-- **A command of the handshake** to a card that is quiet, with its response. -/
theorem sdSendCommand_start (hs : s.Quiet) {cmd : Byte} (hcmd : (cmd ||| 0x40) &&& 0xC0 = 0x40)
    (hstart : ¬ beginsTransfer (cmd ||| 0x40)) {arg : BitVec 32} {s' : Starting} {r : Byte}
    {rs : List Byte} (hcommand : σ.command (cmdBytes cmd arg) s
      = { s' with out := List.replicate (σ.wait s.turn) dataIdle ++ r :: rs })
    (hs' : s'.Quiet) (hr : lineIsIdle r = false) (hfuel : σ.wait s.turn < fuel) {n : ℕ}
    (hlen : rs.length ≤ n - 1) :
    sdSendCommand (startBoard σ k mem) fuel cmd arg n (.starting false s)
      = .ok (r :: (rs ++ List.replicate (n - 1 - rs.length) dataIdle), .starting false s') := by
  have hplay := startXfer_out σ k mem hs'.clocks
  have hxfer : spiXfer (startBoard σ k mem) dataDummy (.starting true s)
      = .ok (dataIdle, .starting true s) := congrArg _ (startXfer_idle σ k mem hs)
  have hselect : sdSelect (startBoard σ k mem) (.starting false s)
      = .ok ((), .starting true s) := (modify_bind _ _ _).trans (bind_of_ok hxfer)
  have hsend := sendCmd_start σ k mem hs hcmd hstart arg
  rw [hcommand] at hsend
  -- the card plays its answer behind the wait, one byte for each clocked
  have hwait := waitResp_plays (B := startBoard σ k mem)
    (P := fun out => StartBus.starting true { s' with out := out }) hplay rs hr hfuel
  have hout : ({ s' with out := [] } : Starting) = s' := by
    rw [← hs'.out]
  have hsilent : (startBoard σ k mem).xfer dataDummy (.starting true { s' with out := [] })
      = (dataIdle, .starting true { s' with out := [] }) := by
    rw [hout]
    exact startXfer_idle σ k mem hs'
  have hrecv := recvBytes_plays (B := startBoard σ k mem)
    (P := fun out => StartBus.starting true { s' with out := out }) hplay rs hlen hsilent
  rw [hout] at hrecv
  have hclock : ({ s' with clocks := s'.clocks - 1 } : Starting) = s' := by
    have hzero := hs'.clocks
    obtain ⟨clocks, bytes, out, turn, resets, spi, app, polls, ready⟩ := s'
    cases hzero
    rfl
  -- the byte behind the deselection finds nothing left to count down
  have hdeselect : sdDeselect (startBoard σ k mem) (.starting true s')
      = .ok ((), .starting false s') := by
    show Except.ok ((), StartBus.starting false { s' with clocks := s'.clocks - 1 }) = _
    rw [hclock]
  unfold sdSendCommand sdSendCommandInner
  refine (bind_of_ok hselect).trans ?_
  refine (bind_of_ok ((bind_of_ok hsend).trans ((bind_of_ok hwait).trans
    (bind_of_ok hrecv)))).trans ?_
  exact bind_of_ok hdeselect

/-- After its answer a card is quiet. -/
theorem quiet_answered (hs : s.Quiet) : (StartUp.answered s).Quiet := ⟨hs.clocks, rfl, rfl⟩

/-- **One command**: the driver gets the first byte of the answer. -/
theorem sdSendCommandR1_start (hs : s.Quiet) {cmd : Byte} (hcmd : (cmd ||| 0x40) &&& 0xC0 = 0x40)
    (hstart : ¬ beginsTransfer (cmd ||| 0x40)) {arg : BitVec 32} {s' : Starting} {r : Byte}
    (hcommand : σ.command (cmdBytes cmd arg) s
      = { s' with out := List.replicate (σ.wait s.turn) dataIdle ++ [r] })
    (hs' : s'.Quiet) (hr : lineIsIdle r = false) (hfuel : σ.wait s.turn < fuel) :
    sdSendCommandR1 (startBoard σ k mem) fuel cmd arg (.starting false s)
      = .ok (r, .starting false s') :=
  bind_of_ok (sdSendCommand_start σ k mem hs hcmd hstart hcommand hs' hr hfuel (n := 1)
    (le_refl 0))

/-! ## The stages -/

/-- The card is in SPI mode, and not ready. -/
structure Starting.Reset (s : Starting) : Prop where
  quiet : s.Quiet
  spi : s.spi = true
  ready : s.ready = false

/-- The card has been clocked enough. -/
def Starting.awake (s : Starting) : Starting := { s with clocks := 0 }

/-- The card has told that it is ready. -/
structure Starting.Up (s : Starting) : Prop where
  quiet : s.Quiet
  spi : s.spi = true
  ready : s.ready = true

/-! ### `CMD0` -/

/-- What the card does about `CMD0`. -/
theorem command_reset :
    σ.command (cmdBytes 0 0) s
      = if σ.resetAnswer s.resets = sdStateIdle then
          σ.respond [sdStateIdle]
            { s with resets := s.resets + 1, spi := true, ready := false, polls := 0 }
        else σ.respond [σ.resetAnswer s.resets] { s with resets := s.resets + 1 } := by
  unfold StartUp.command
  dsimp only
  rw [if_pos (show (cmdBytes 0 0).getD 0 0 &&& 0x3F = 0 by decide),
    if_neg (show ¬ (cmdBytes 0 0).getD 5 0 ≠ 0x95 by decide)]

/-- One `CMD0`, as the driver sees it. -/
theorem reset_spec (hs : s.Quiet) (hfuel : σ.wait s.turn < fuel) :
    ∃ s', sdSendCommandR1 (startBoard σ k mem) fuel 0 0 (.starting false s)
        = .ok (σ.resetAnswer s.resets, .starting false s') ∧ s'.Quiet ∧ s'.turn = s.turn + 1 ∧
      s'.resets = s.resets + 1 ∧
      (σ.resetAnswer s.resets = sdStateIdle → s'.Reset ∧ s'.polls = 0) := by
  have hcommand := command_reset σ (s := s)
  by_cases hidle : σ.resetAnswer s.resets = sdStateIdle
  · rw [if_pos hidle, ← hidle] at hcommand
    have hrun := sdSendCommandR1_start σ k mem hs (by decide) (by decide) hcommand
      (quiet_answered (s := { s with
        resets := s.resets + 1, spi := true, ready := false, polls := 0 }) ⟨hs.clocks, hs.bytes,
          hs.out⟩) (σ.lineIsIdle_reset _) hfuel
    exact ⟨_, hrun, ⟨hs.clocks, rfl, rfl⟩, rfl, rfl,
      fun _ => ⟨⟨⟨hs.clocks, rfl, rfl⟩, rfl, rfl⟩, rfl⟩⟩
  · rw [if_neg hidle] at hcommand
    have hrun := sdSendCommandR1_start σ k mem hs (by decide) (by decide) hcommand
      (quiet_answered (s := { s with resets := s.resets + 1 }) ⟨hs.clocks, hs.bytes, hs.out⟩)
      (σ.lineIsIdle_reset _) hfuel
    exact ⟨_, hrun, ⟨hs.clocks, rfl, rfl⟩, rfl, rfl, fun h => absurd h hidle⟩

/-- The tries of `CMD0` find a card that is reset by one of them. -/
theorem resetTries_spec (tries : ℕ) (hs : s.Quiet)
    (hfuel : ∀ t, t < s.turn + (tries + 1) → σ.wait t < fuel) :
    ∃ r1 s', resetTries (startBoard σ k mem) fuel (tries + 1) (.starting false s)
        = .ok (r1, .starting false s') ∧ s'.Quiet ∧ s'.turn ≤ s.turn + (tries + 1) ∧
      (r1 = sdStateIdle ↔ ∃ i, i < tries + 1 ∧ σ.resetAnswer (s.resets + i) = sdStateIdle) ∧
      (r1 = sdStateIdle → s'.Reset ∧ s'.polls = 0) := by
  induction tries generalizing s with
  | zero =>
      obtain ⟨s', hrun, hquiet, hturn, -, hreset⟩ := reset_spec σ k mem hs (hfuel _ (by omega))
      refine ⟨_, s', bind_of_ok hrun |>.trans ?_, hquiet, by omega, ?_, hreset⟩
      · rw [if_neg (fun h => absurd h.2 (lt_irrefl 0))]
        rfl
      · constructor
        · exact fun h => ⟨0, Nat.one_pos, h⟩
        · rintro ⟨i, hi, h⟩
          obtain rfl : i = 0 := by omega
          exact h
  | succ tries ih =>
      obtain ⟨s₁, hrun, hquiet, hturn, hresets, hreset⟩ :=
        reset_spec σ k mem hs (hfuel _ (by omega))
      by_cases hidle : σ.resetAnswer s.resets = sdStateIdle
      · refine ⟨_, s₁, bind_of_ok hrun |>.trans ?_, hquiet, by omega,
          iff_of_true hidle ⟨0, Nat.succ_pos _, hidle⟩, hreset⟩
        rw [if_neg (fun h => h.1 hidle)]
        rfl
      · obtain ⟨r1, s', hrest, hquiet', hturn', hiff, hreset'⟩ :=
          ih hquiet (fun t ht => hfuel t (by omega))
        refine ⟨r1, s', bind_of_ok hrun |>.trans ?_, hquiet', by omega, hiff.trans ?_, hreset'⟩
        · rw [if_pos ⟨hidle, Nat.succ_pos tries⟩]
          exact hrest
        · rw [hresets]
          constructor
          · rintro ⟨i, hi, h⟩
            exact ⟨i + 1, by omega, by rwa [Nat.add_assoc, Nat.add_comm 1] at h⟩
          · rintro ⟨i, hi, h⟩
            -- the answer before them was another one
            obtain ⟨i, rfl⟩ : ∃ j, i = j + 1 := by
              rcases i with _ | i
              · exact absurd h hidle
              · exact ⟨i, rfl⟩
            exact ⟨i, by omega, by rwa [Nat.add_assoc, Nat.add_comm 1]⟩

/-! ### `CMD8` -/

/-- What the card does about `CMD8`. -/
theorem command_check (h : s.spi = true) (hready : s.ready = false) :
    σ.command (cmdBytes 8 0x1AA) s
      = if σ.version2 then
          σ.respond (sdStateIdle :: [0, 0, if σ.voltage then 0x01 else 0, 0xAA]) s
        else σ.respond [sdStateIdle ||| illegalCommand] s := by
  have hr1 : s.r1 = sdStateIdle := by
    unfold Starting.r1
    rw [hready]
    rfl
  unfold StartUp.command
  dsimp only
  rw [argOf_cmdBytes, if_neg (show ¬ (cmdBytes 8 0x1AA).getD 0 0 &&& 0x3F = 0 by decide),
    if_neg (not_not.2 h), if_pos (show (cmdBytes 8 0x1AA).getD 0 0 &&& 0x3F = 8 by decide),
    if_neg (show ¬ (cmdBytes 8 0x1AA).getD 5 0 ≠ 0x87 by decide), hr1]
  rfl

/-- The check of the voltage and the pattern. -/
theorem check_spec (hs : s.Reset) (hfuel : σ.wait s.turn < fuel) :
    ∃ r7 s', sdSendCommand (startBoard σ k mem) fuel 8 0x1AA 5 (.starting false s)
        = .ok (r7, .starting false s') ∧ s'.Reset ∧ s'.polls = s.polls ∧ s'.turn = s.turn + 1 ∧
      (checkR7 r7 = true ↔ σ.version2 = true ∧ σ.voltage = true) := by
  have hcommand := command_check σ hs.spi hs.ready
  have hafter : (StartUp.answered s).Reset := ⟨quiet_answered hs.quiet, hs.spi, hs.ready⟩
  cases hv : σ.version2 with
  | true =>
      rw [if_pos hv] at hcommand
      have hrun := sdSendCommand_start σ k mem hs.quiet (by decide) (by decide) hcommand
        hafter.quiet (show lineIsIdle sdStateIdle = false by decide) hfuel (n := 5) (le_refl 4)
      refine ⟨_, _, hrun, hafter, rfl, rfl, ?_⟩
      cases σ.voltage with
      | true => exact iff_of_true (by decide) ⟨rfl, rfl⟩
      | false => exact iff_of_false (by decide) (fun h => nomatch h.2)
  | false =>
      rw [if_neg (by rw [hv]; exact Bool.false_ne_true)] at hcommand
      have hrun := sdSendCommand_start σ k mem hs.quiet (by decide) (by decide) hcommand
        hafter.quiet (show lineIsIdle (sdStateIdle ||| illegalCommand) = false by decide) hfuel
        (n := 5) (Nat.zero_le 4)
      exact ⟨_, _, hrun, hafter, rfl, rfl, iff_of_false (by decide) (fun h => nomatch h.1)⟩

/-! ### `ACMD41` -/

/-- What the card does about `CMD55`. -/
theorem command_app (h : s.spi = true) :
    σ.command (cmdBytes 55 0) s = { σ.respond [s.r1] s with app := true } := by
  unfold StartUp.command
  dsimp only
  rw [if_neg (show ¬ (cmdBytes 55 0).getD 0 0 &&& 0x3F = 0 by decide), if_neg (not_not.2 h),
    if_neg (show ¬ (cmdBytes 55 0).getD 0 0 &&& 0x3F = 8 by decide),
    if_pos (show (cmdBytes 55 0).getD 0 0 &&& 0x3F = 55 by decide)]

/-- The driver tells that it knows of high capacity. -/
theorem command_poll (h : s.spi = true) (happ : s.app = true) :
    σ.command (cmdBytes 41 0x40000000) s
      = if s.polls < σ.busyPolls then σ.respond [sdStateIdle] { s with polls := s.polls + 1 }
        else σ.respond [0x00] { s with ready := true } := by
  have hhost : ¬ (σ.HighCapacity ∧ (0x40000000 : BitVec 32) &&& hcs = 0) :=
    fun hand => absurd hand.2 (by decide)
  unfold StartUp.command
  dsimp only
  rw [argOf_cmdBytes, if_neg (show ¬ (cmdBytes 41 0x40000000).getD 0 0 &&& 0x3F = 0 by decide),
    if_neg (not_not.2 h), if_neg (show ¬ (cmdBytes 41 0x40000000).getD 0 0 &&& 0x3F = 8 by decide),
    if_neg (show ¬ (cmdBytes 41 0x40000000).getD 0 0 &&& 0x3F = 55 by decide),
    if_pos (show (cmdBytes 41 0x40000000).getD 0 0 &&& 0x3F = 41 ∧ s.app = true from
      ⟨by decide, happ⟩)]
  by_cases hbusy : s.polls < σ.busyPolls
  · rw [if_pos (Or.inl hbusy), if_pos hbusy]
  · rw [if_neg (not_or.2 ⟨hbusy, hhost⟩), if_neg hbusy]

/-- `R1` is told from an idle line. -/
theorem lineIsIdle_r1 (s : Starting) : lineIsIdle s.r1 = false := by
  unfold Starting.r1
  split_ifs <;> decide

/-- One question whether the card is ready. -/
theorem poll_spec (hs : s.Reset) (hfuel : ∀ t, t < s.turn + 2 → σ.wait t < fuel) :
    ∃ s₁ s' r1, sdSendCommandR1 (startBoard σ k mem) fuel 55 0 (.starting false s)
        = .ok (s.r1, .starting false s₁) ∧
      sdSendCommandR1 (startBoard σ k mem) fuel 41 0x40000000 (.starting false s₁)
        = .ok (r1, .starting false s') ∧ s'.turn = s.turn + 2 ∧
      (s.polls < σ.busyPolls → r1 = sdStateIdle ∧ s'.Reset ∧ s'.polls = s.polls + 1) ∧
      (¬ s.polls < σ.busyPolls → r1 = 0x00 ∧ s'.Up) := by
  have hquiet : (StartUp.asked s).Quiet := ⟨hs.quiet.clocks, rfl, rfl⟩
  have happ := sdSendCommandR1_start σ k mem hs.quiet (by decide) (by decide)
    (command_app σ hs.spi) hquiet (lineIsIdle_r1 s) (hfuel _ (by omega))
  have hcommand := command_poll σ (s := StartUp.asked s) hs.spi rfl
  rw [show (StartUp.asked s).polls = s.polls from rfl] at hcommand
  by_cases hbusy : s.polls < σ.busyPolls
  · rw [if_pos hbusy] at hcommand
    have hpoll := sdSendCommandR1_start σ k mem hquiet (by decide) (by decide) hcommand
      ⟨hs.quiet.clocks, rfl, rfl⟩ (show lineIsIdle sdStateIdle = false by decide)
      (hfuel _ (by show s.turn + 1 < _; omega))
    exact ⟨_, _, _, happ, hpoll, rfl,
      fun _ => ⟨rfl, ⟨⟨hs.quiet.clocks, rfl, rfl⟩, hs.spi, hs.ready⟩, rfl⟩, fun h => absurd hbusy h⟩
  · rw [if_neg hbusy] at hcommand
    have hpoll := sdSendCommandR1_start σ k mem hquiet (by decide) (by decide) hcommand
      ⟨hs.quiet.clocks, rfl, rfl⟩ (show lineIsIdle 0x00 = false by decide)
      (hfuel _ (by show s.turn + 1 < _; omega))
    exact ⟨_, _, _, happ, hpoll, rfl, fun h => absurd h hbusy,
      fun _ => ⟨rfl, ⟨hs.quiet.clocks, rfl, rfl⟩, hs.spi, rfl⟩⟩

/-- The card is ready within the questions, or busy for all of them. -/
theorem readyTries_spec (tries : ℕ) (hs : s.Reset)
    (hfuel : ∀ t, t < s.turn + 2 * (tries + 1) → σ.wait t < fuel) :
    ∃ r1 s', readyTries (startBoard σ k mem) fuel (tries + 1) (.starting false s)
        = .ok (r1, .starting false s') ∧ s'.Quiet ∧ s'.turn ≤ s.turn + 2 * (tries + 1) ∧
      (r1 &&& sdStateIdle = 0 ↔ σ.busyPolls < s.polls + (tries + 1)) ∧
      (r1 &&& sdStateIdle = 0 → s'.Up) := by
  -- induction on the questions that are left; each one counts as a poll
  induction tries generalizing s with
  | zero =>
      obtain ⟨s₁, s', r1, happ, hpoll, hturn, hbusy, hready⟩ := poll_spec σ k mem hs hfuel
      have hlast : readyTries (startBoard σ k mem) fuel 1 (.starting false s)
          = .ok (r1, .starting false s') := by
        refine (bind_of_ok happ).trans ((bind_of_ok hpoll).trans ?_)
        rw [if_neg (fun h => absurd h.2 (lt_irrefl 0))]
        rfl
      by_cases hb : s.polls < σ.busyPolls
      · obtain ⟨rfl, hreset, -⟩ := hbusy hb
        exact ⟨_, s', hlast, hreset.quiet, by omega, iff_of_false (by decide) (by omega),
          fun h => absurd h (by decide)⟩
      · obtain ⟨rfl, hup⟩ := hready hb
        exact ⟨_, s', hlast, hup.quiet, by omega, iff_of_true (by decide) (by omega), fun _ => hup⟩
  | succ tries ih =>
      obtain ⟨s₁, s', r1, happ, hpoll, hturn, hbusy, hready⟩ :=
        poll_spec σ k mem hs (fun t ht => hfuel t (by omega))
      by_cases hb : s.polls < σ.busyPolls
      · obtain ⟨rfl, hreset, hpolls⟩ := hbusy hb
        obtain ⟨r1, s'', hrest, hquiet, hturn', hiff, hup⟩ :=
          ih hreset (fun t ht => hfuel t (by omega))
        refine ⟨r1, s'', ?_, hquiet, by omega, hiff.trans (by rw [hpolls]; omega), hup⟩
        refine (bind_of_ok happ).trans ((bind_of_ok hpoll).trans ?_)
        rw [if_pos ⟨by decide, Nat.succ_pos tries⟩]
        exact hrest
      · obtain ⟨rfl, hup⟩ := hready hb
        refine ⟨0x00, s', ?_, hup.quiet, by omega, iff_of_true (by decide) (by omega),
          fun _ => hup⟩
        refine (bind_of_ok happ).trans ((bind_of_ok hpoll).trans ?_)
        have hstop : ¬ ((0x00 : Byte) &&& sdStateIdle ≠ 0 ∧ tries + 1 > 0) :=
          fun h => h.1 (by decide)
        rw [if_neg hstop]
        rfl

/-! ### The capacity -/

/-- What the card does about `CMD58`. -/
theorem command_ocr (hs : s.Up) :
    σ.command (cmdBytes 58 0) s = σ.respond (0x00 :: bytesOf σ.ocr) s := by
  have hr1 : s.r1 = 0x00 := if_pos hs.ready
  unfold StartUp.command
  dsimp only
  rw [if_neg (show ¬ (cmdBytes 58 0).getD 0 0 &&& 0x3F = 0 by decide), if_neg (not_not.2 hs.spi),
    if_neg (show ¬ (cmdBytes 58 0).getD 0 0 &&& 0x3F = 8 by decide),
    if_neg (show ¬ (cmdBytes 58 0).getD 0 0 &&& 0x3F = 55 by decide),
    if_neg (fun h => absurd h.1 (by decide)),
    if_pos (show (cmdBytes 58 0).getD 0 0 &&& 0x3F = 58 by decide), hr1]

/-- What the card does about `CMD16`. -/
theorem command_length (hs : s.Up) :
    σ.command (cmdBytes 16 (BitVec.ofNat 32 sdSectorSize)) s = σ.respond [σ.lengthAnswer] s := by
  have hcmd : (cmdBytes 16 (BitVec.ofNat 32 sdSectorSize)).getD 0 0 &&& 0x3F = 16 := by decide
  unfold StartUp.command
  dsimp only
  rw [hcmd, if_neg (by decide), if_neg (not_not.2 hs.spi), if_neg (by decide), if_neg (by decide),
    if_neg (fun h => absurd h.1 (by decide)), if_neg (by decide), if_pos ⟨rfl, hs.ready⟩]

/-- The bit of the first byte is the bit of the register. -/
theorem bytesOf_capacity (x : BitVec 32) :
    (bytesOf x).getD 0 0 &&& 0x40 ≠ 0 ↔ x &&& hcs ≠ 0 := by
  have hbit : ((x >>> 24).setWidth 8).getLsbD 6 = x.getLsbD 30 := by
    rw [BitVec.getLsbD_setWidth, BitVec.getLsbD_ushiftRight]
    rfl
  show (x >>> 24).setWidth 8 &&& BitVec.twoPow 8 6 ≠ 0 ↔ x &&& BitVec.twoPow 32 30 ≠ 0
  rw [BitVec.and_twoPow, BitVec.and_twoPow, hbit]
  cases x.getLsbD 30 with
  | true => exact iff_of_true (by decide) (by decide)
  | false => exact iff_of_false (by decide) (by decide)

end Command

/-! ## `disk_initialize` -/

section Initialize

variable (σ : StartUp) (k : Behaviour) (mem : ℕ → Block) {s : Starting} {fuel : ℕ}

/-- The cards that `disk_initialize` has to take, from a state of the card. -/
structure StartUp.Accepted (s : Starting) : Prop where
  reset : ∃ i, i < 4 ∧ σ.resetAnswer (s.resets + i) = sdStateIdle
  checked : σ.version2 = true ∧ σ.voltage = true
  ready : σ.busyPolls < 1000
  length : σ.HighCapacity ∨ σ.lengthAnswer = 0

/-- A call on the bus leaves the flags of the drive. -/
theorem onBus_of_ok {χ α : Type} {x : Comp χ Stop α} {p : Pdrv} {c c' : χ} {a : α}
    (h : x c = .ok (a, c')) : onBus x (⟨p, c⟩ : Disk χ) = .ok (a, ⟨p, c'⟩) := focus_of_ok h

/-- Bytes to a card that is not selected only count as clocks. -/
theorem sendBytes_deselected (n : ℕ) (b : Byte) :
    sendBytes (startBoard σ k mem) (List.replicate n b) (.starting false s)
      = .ok ((), .starting false { s with clocks := s.clocks - n }) := by
  induction n generalizing s with
  | zero => rfl
  | succ n ih =>
      have hrest := ih (s := { s with clocks := s.clocks - 1 })
      dsimp only at hrest
      rw [Nat.sub_sub, Nat.add_comm 1] at hrest
      exact hrest

/-! ### The whole initialisation -/

/-- The clocks that the card gets wake it. -/
theorem sdInit_start (hclocks : s.clocks ≤ 32) (sel : Bool) :
    sdInit (startBoard σ k mem) (.starting sel s)
      = .ok ((), .starting false s.awake) := by
  have hsend := sendBytes_deselected σ k mem (s := s) 32 0xFF
  rw [Nat.sub_eq_zero_of_le hclocks] at hsend
  unfold sdInit
  refine (modify_bind _ _ _).trans ((modify_bind _ _ _).trans ?_)
  exact hsend

/-- The stage that finds out how the card is addressed. -/
theorem initCapacity_start (hs : s.Up) (hfuel : ∀ t, t < s.turn + 2 → σ.wait t < fuel) (p : Pdrv) :
    ∃ ok s', initCapacity (startBoard σ k mem) fuel ⟨p, .starting false s⟩
        = .ok (ok, ⟨{ p with byteAddressable := ¬ σ.HighCapacity }, .starting false s'⟩) ∧
      s'.Up ∧ (ok = true ↔ σ.HighCapacity ∨ σ.lengthAnswer = 0) := by
  have hup : (StartUp.answered s).Up := ⟨quiet_answered hs.quiet, hs.spi, hs.ready⟩
  have hocr := onBus_of_ok (p := p) (sdSendCommand_start σ k mem hs.quiet (by decide) (by decide)
    (command_ocr σ hs) hup.quiet (show lineIsIdle 0x00 = false by decide) (hfuel _ (by omega))
    (n := 5) (le_refl 4))
  rw [show 5 - 1 - (bytesOf σ.ocr).length = 0 from rfl, List.replicate_zero, List.append_nil]
    at hocr
  have hbit : (0x00 :: bytesOf σ.ocr).getD 1 0 &&& 0x40 ≠ 0 ↔ σ.HighCapacity :=
    bytesOf_capacity σ.ocr
  unfold initCapacity
  by_cases hhigh : σ.HighCapacity
  · refine ⟨true, _, (bind_of_ok hocr).trans ?_, hup, iff_of_true rfl (Or.inl hhigh)⟩
    rw [if_pos (hbit.2 hhigh), decide_eq_false (not_not.2 hhigh)]
    rfl
  · have hlength := sdSendCommandR1_start σ k mem hup.quiet (by decide) (by decide)
      (command_length σ hup) (quiet_answered hup.quiet) σ.lineIsIdle_length
      (hfuel _ (by show s.turn + 1 < _; omega))
    refine ⟨decide (σ.lengthAnswer = 0), _, (bind_of_ok hocr).trans ?_,
      ⟨quiet_answered hup.quiet, hup.spi, hup.ready⟩, ?_⟩
    · rw [if_neg (fun h => hhigh (hbit.1 h)), decide_eq_true hhigh]
      refine (modify_bind _ _ _).trans ?_
      exact bind_of_ok (onBus_of_ok hlength)
    · rw [decide_eq_true_iff]
      exact ⟨Or.inr, fun h => h.resolve_left hhigh⟩

/-- **The handshake**, from any state of the card in which it is not in the middle of a command. -/
theorem initCard_start (hclocks : s.clocks ≤ 32) (hbytes : s.bytes = []) (hout : s.out = [])
    (hfuel : ∀ t, t < s.turn + 2007 → σ.wait t < fuel) (p : Pdrv) (sel : Bool) :
    ∃ ok p' s', initCard (startBoard σ k mem) fuel ⟨p, .starting sel s⟩
        = .ok (ok, ⟨p', .starting false s'⟩) ∧ s'.Quiet ∧ marks p' = marks p ∧
      (ok = true ↔ σ.Accepted s) ∧
      (ok = true → s'.Up ∧ p'.byteAddressable = decide (¬ σ.HighCapacity)) := by
  have hwake := onBus_of_ok (p := p) (sdInit_start σ k mem hclocks sel)
  obtain ⟨r1, s₁, hreset, hquiet₁, hturn₁, hiff₁, hreset₁⟩ :=
    resetTries_spec σ k mem 3 (s := s.awake) ⟨rfl, hbytes, hout⟩
      (fun t ht => hfuel t (lt_of_lt_of_le ht (Nat.add_le_add_left (by decide) s.turn)))
  rw [show s.awake.turn = s.turn from rfl] at hturn₁
  rw [show s.awake.resets = s.resets from rfl] at hiff₁
  unfold initCard
  -- the four questions of the handshake in turn; the first that fails ends it
  by_cases hidle : r1 = sdStateIdle
  · obtain ⟨hspi₁, hpolls₁⟩ := hreset₁ hidle
    obtain ⟨r7, s₂, hcheck, hreset₂, hpolls₂, hturn₂, hiff₂⟩ :=
      check_spec σ k mem hspi₁ (hfuel _ (by omega))
    by_cases hr7 : checkR7 r7 = true
    · obtain ⟨r1', s₃, hready, hquiet₃, hturn₃, hiff₃, hup₃⟩ :=
        readyTries_spec σ k mem 999 hreset₂ (fun t ht => hfuel t (by omega))
      rw [hpolls₂, hpolls₁, Nat.zero_add] at hiff₃
      by_cases hr1 : r1' &&& sdStateIdle = 0
      · obtain ⟨ok, s₄, hcap, hup₄, hiff₄⟩ :=
          initCapacity_start σ k mem (hup₃ hr1) (fun t ht => hfuel t (by omega)) p
        refine ⟨ok, { p with byteAddressable := ¬ σ.HighCapacity }, s₄,
          (bind_of_ok hwake).trans ((bind_of_ok (onBus_of_ok hreset)).trans ?_), hup₄.quiet, rfl,
          hiff₄.trans ⟨?_, fun h => h.length⟩, fun _ => ⟨hup₄, rfl⟩⟩
        · rw [if_neg (not_not.2 hidle)]
          refine (bind_of_ok (onBus_of_ok hcheck)).trans ?_
          rw [if_neg (not_not.2 hr7)]
          refine (bind_of_ok (onBus_of_ok hready)).trans ?_
          rw [if_neg (not_not.2 hr1)]
          exact hcap
        · exact fun h => ⟨hiff₁.1 hidle, hiff₂.1 hr7, hiff₃.1 hr1, h⟩
      · refine ⟨false, p, s₃, (bind_of_ok hwake).trans
          ((bind_of_ok (onBus_of_ok hreset)).trans ?_), hquiet₃, rfl,
          iff_of_false Bool.false_ne_true (fun h => hr1 (hiff₃.2 h.ready)),
          fun h => absurd h Bool.false_ne_true⟩
        rw [if_neg (not_not.2 hidle)]
        refine (bind_of_ok (onBus_of_ok hcheck)).trans ?_
        rw [if_neg (not_not.2 hr7)]
        refine (bind_of_ok (onBus_of_ok hready)).trans ?_
        rw [if_pos hr1]
        rfl
    · refine ⟨false, p, s₂, (bind_of_ok hwake).trans
        ((bind_of_ok (onBus_of_ok hreset)).trans ?_), hreset₂.quiet, rfl,
        iff_of_false Bool.false_ne_true (fun h => hr7 (hiff₂.2 h.checked)),
        fun h => absurd h Bool.false_ne_true⟩
      rw [if_neg (not_not.2 hidle)]
      refine (bind_of_ok (onBus_of_ok hcheck)).trans ?_
      rw [if_pos hr7]
      rfl
  · refine ⟨false, p, s₁, (bind_of_ok hwake).trans ((bind_of_ok (onBus_of_ok hreset)).trans ?_),
      hquiet₁, rfl, iff_of_false Bool.false_ne_true (fun h => hidle (hiff₁.2 h.reset)),
      fun h => absurd h Bool.false_ne_true⟩
    rw [if_pos hidle]
    rfl

end Initialize

/-! ## The card of the transfers -/

section Transfers

open SpiBus

variable (σ : StartUp) (k : Behaviour) (mem : ℕ → Block) {fuel : ℕ}

/-- The card has left the handshake. -/
def Over (x : StartBus) (c : CardBus) : Prop := x = .transferring c

/-- The card is that of the transfers, or as good as new. -/
def Alike (x : StartBus) (c : CardBus) : Prop :=
  Over x c ∨ ∃ s, x = .starting c.selected s ∧ s.Up ∧ c.card = newCard mem

/-- Both are selected, with the same card behind. -/
def Chosen (x : StartBus) (c : CardBus) : Prop := Alike mem x c ∧ c.selected = true

/-- Once it is up the card sends what a card of the protocol sends. -/
theorem sameBytes_over : SameBytes Over (startBoard σ k mem) (cardBoard k) := by
  rintro b x c rfl
  exact .ok rfl

/-- The select line keeps them together. -/
theorem over_select {sel : Bool} {x : StartBus} {c : CardBus} (h : Over x c) :
    Over (x.select sel) { c with selected := sel } := by
  cases h
  rfl

/-- It does so before the first transfer as well. -/
theorem alike_select {sel : Bool} {x : StartBus} {c : CardBus} (h : Alike mem x c) :
    Alike mem (x.select sel) { c with selected := sel } := by
  rcases h with hover | ⟨s, rfl, hup, hcard⟩
  · exact Or.inl (over_select hover)
  · exact Or.inr ⟨s, rfl, hup, hcard⟩

/-- Neither card takes notice of an idle byte. -/
theorem coupled_dummy : Coupled (Chosen mem) (Chosen mem)
    (spiXfer (startBoard σ k mem) dataDummy) (spiXfer (cardBoard k) dataDummy) := by
  rintro x ⟨sel, card⟩ ⟨hover | ⟨s, rfl, hup, hcard⟩, hsel⟩
  · cases hover
    cases hsel
    refine .ok ⟨Or.inl rfl, rfl⟩
  · cases hsel
    cases hcard
    have hxfer : spiXfer (startBoard σ k mem) dataDummy (.starting true s)
        = .ok (dataIdle, .starting true s) := congrArg _ (startXfer_idle σ k mem hup.quiet)
    rw [hxfer]
    exact .ok ⟨Or.inr ⟨s, rfl, hup, rfl⟩, rfl⟩

/-! ### The functions of the driver -/

/-- Selecting couples them. -/
theorem coupled_select_start : Coupled (Alike mem) (Chosen mem) (sdSelect (startBoard σ k mem))
    (sdSelect (cardBoard k)) := by
  have htries : ∀ tries, Coupled (Chosen mem) (Chosen mem)
      (selectTries (startBoard σ k mem) tries) (selectTries (cardBoard k) tries) := by
    intro tries
    induction tries with
    | zero => exact coupled_pure (fun _ _ h => h) ()
    | succ tries ih =>
        exact (coupled_dummy σ k mem).bind fun r => (coupled_pure (fun _ _ h => h) ()).ite ih
  refine (coupled_modify fun x c h => ⟨alike_select mem h, rfl⟩).bind fun _ => htries 125

/-- The first byte of a transfer ends the handshake. -/
theorem coupled_sendCmd_start {cmd : Byte} (hcmd : beginsTransfer (cmd ||| 0x40))
    (arg : BitVec 32) : Coupled (Chosen mem) Over (sendCmd (startBoard σ k mem) cmd arg)
      (sendCmd (cardBoard k) cmd arg) := by
  have hfirst : Coupled (Chosen mem) Over (spiXfer (startBoard σ k mem) (cmd ||| 0x40))
      (spiXfer (cardBoard k) (cmd ||| 0x40)) := by
    rintro x ⟨sel, card⟩ ⟨hover | ⟨s, rfl, hup, hcard⟩, hsel⟩
    · cases hover
      exact .ok rfl
    · cases hsel
      cases hcard
      have hxfer : startXfer σ k mem (cmd ||| 0x40) (.starting true s)
          = (dataIdle, .transferring ⟨true, k.receive (cmd ||| 0x40) (newCard mem)⟩) := by
        unfold startXfer
        dsimp only
        rw [hup.quiet.clocks, if_neg (lt_irrefl 0), hup.quiet.out]
        dsimp only
        rw [if_pos ⟨hup.ready, hup.quiet.bytes, hcmd⟩]
      show Same Over (.ok (startXfer σ k mem (cmd ||| 0x40) (.starting true s))) _
      rw [hxfer]
      exact .ok rfl
  exact hfirst.bind fun _ => coupled_sendBytes (sameBytes_over σ k mem) _

theorem coupled_deselect_start : Coupled Over (Alike mem) (sdDeselect (startBoard σ k mem))
    (sdDeselect (cardBoard k)) := by
  refine Coupled.bind (S := Over) (coupled_modify fun x c h => over_select h) fun _ => ?_
  exact (sameBytes_over σ k mem _).bind fun _ => coupled_pure (fun _ _ h => Or.inl h) ()

/-- A command with an address, up to the first byte of the response. -/
theorem coupled_sendRwCmd_start {cmd : Byte} (hcmd : beginsTransfer (cmd ||| 0x40))
    (address : BitVec 32) : Coupled (Chosen mem) Over
      (sendRwCmd (startBoard σ k mem) fuel cmd address) (sendRwCmd (cardBoard k) fuel cmd address) := by
  refine (coupled_sendCmd_start σ k mem hcmd address).bind fun _ => ?_
  refine (coupled_waitResp (sameBytes_over σ k mem)).bind fun r => ?_
  exact coupled_pure (fun _ _ h => h) _

/-- Both read the same block. -/
theorem coupled_readSingleBlock_start (address : BitVec 32) : Coupled (Alike mem) (Alike mem)
    (sdReadSingleBlock (startBoard σ k mem) fuel address)
    (sdReadSingleBlock (cardBoard k) fuel address) := by
  have hsame := sameBytes_over σ k mem
  refine (coupled_select_start σ k mem).bind fun _ => ?_
  refine (coupled_sendRwCmd_start σ k mem (by decide) address).bind fun ok => ?_
  refine ((coupled_readBlock hsame).ite (coupled_pure (fun _ _ h => h) none)).bind fun res => ?_
  exact (coupled_deselect_start σ k mem).bind fun _ => coupled_pure (fun _ _ h => h) res

/-- Both write the same block. -/
theorem coupled_writeSingleBlock_start (address : BitVec 32) (src : List Byte) :
    Coupled (Alike mem) (Alike mem) (sdWriteSingleBlock (startBoard σ k mem) fuel address src)
      (sdWriteSingleBlock (cardBoard k) fuel address src) := by
  have hsame := sameBytes_over σ k mem
  refine (coupled_select_start σ k mem).bind fun _ => ?_
  refine (coupled_sendRwCmd_start σ k mem (by decide) address).bind fun ok => ?_
  refine ((coupled_sendBlock hsame src).ite (coupled_pure (fun _ _ h => h) false)).bind
    fun accepted => ?_
  refine ((coupled_waitEndWrite hsame).ite (coupled_pure (fun _ _ h => h) false)).bind
    fun res => ?_
  exact (coupled_deselect_start σ k mem).bind fun _ => coupled_pure (fun _ _ h => h) res

end Transfers

/-! ## Calls -/

section Calls

variable (σ : StartUp) (k : Behaviour) (mem : ℕ → Block) {fuel : ℕ}

/-- One drive, over cards that are alike. -/
def SameDrive (x : Disk StartBus) (d : Disk CardBus) : Prop :=
  x.drive = d.drive ∧ Alike mem x.bus d.bus

/-- The flags of the drives stay the same. -/
theorem coupled_onBus_start {α : Type} {x : Comp StartBus Stop α} {y : Comp CardBus Stop α}
    (h : Coupled (Alike mem) (Alike mem) x y) :
    Coupled (SameDrive mem) (SameDrive mem) (onBus x) (onBus y) :=
  h.focus (fun _ _ hsame => hsame.2) fun _ _ _ _ hsame halike => ⟨hsame.1, halike⟩

/-- The guards of the calls look at these flags. -/
theorem coupled_whenReady {α : Type} (pdrv : ℕ) (refuse : DResult → α)
    {body : Pdrv → Comp (Disk StartBus) Stop α} {body' : Pdrv → Comp (Disk CardBus) Stop α}
    (h : ∀ p, Coupled (SameDrive mem) (SameDrive mem) (body p) (body' p)) :
    Coupled (SameDrive mem) (SameDrive mem) (whenReady pdrv refuse body)
      (whenReady pdrv refuse body') := by
  intro x d hsame
  unfold whenReady
  rw [get_bind, get_bind, hsame.1]
  have hpure : ∀ r, Coupled (SameDrive mem) (SameDrive mem)
      (pure (refuse r) : Comp (Disk StartBus) Stop α) (pure (refuse r)) :=
    fun r => coupled_pure (fun _ _ h => h) _
  exact ((hpure _).ite ((hpure _).ite ((hpure _).ite (h d.drive)))) x d hsame

/-- Both read the same blocks. -/
theorem coupled_readBlocks_start (byteAddressable : Bool) (n : ℕ) (sector : BitVec 32) :
    Coupled (Alike mem) (Alike mem)
      (readBlocks (startBoard σ k mem) fuel byteAddressable sector n)
      (readBlocks (cardBoard k) fuel byteAddressable sector n) := by
  induction n generalizing sector with
  | zero => exact coupled_pure (fun _ _ h => h) _
  | succ n ih =>
      refine (coupled_readSingleBlock_start σ k mem _).bind fun r => ?_
      rcases r with _ | bytes
      · exact coupled_pure (fun _ _ h => h) _
      · exact (ih (sector + 1)).bind fun r => coupled_pure (fun _ _ h => h) _

/-- Both write the same blocks. -/
theorem coupled_writeBlocks_start (byteAddressable : Bool) (n : ℕ) (buff : List Byte)
    (sector : BitVec 32) : Coupled (Alike mem) (Alike mem)
      (writeBlocks (startBoard σ k mem) fuel byteAddressable buff sector n)
      (writeBlocks (cardBoard k) fuel byteAddressable buff sector n) := by
  induction n generalizing buff sector with
  | zero => exact coupled_pure (fun _ _ h => h) _
  | succ n ih =>
      refine (coupled_writeSingleBlock_start σ k mem _ _).bind fun ok => ?_
      exact (ih _ _).ite (coupled_pure (fun _ _ h => h) _)

/-- A call returns the same for both cards. -/
theorem coupled_call_start (c : StorageCall) : Coupled (SameDrive mem) (SameDrive mem)
    (c.exec (startBoard σ k mem) fuel) (c.exec (cardBoard k) fuel) := by
  rcases c with ⟨sector, n⟩ | ⟨buff, sector, n⟩ | _ | cmd
  · refine (coupled_whenReady mem 0 _ fun p => ?_).bind fun _ => coupled_pure (fun _ _ h => h) _
    refine (coupled_onBus_start mem (coupled_readBlocks_start σ k mem _ n sector)).bind fun _ => ?_
    exact coupled_pure (fun _ _ h => h) _
  · refine (coupled_whenReady mem 0 _ fun p => ?_).bind fun _ => coupled_pure (fun _ _ h => h) _
    refine (coupled_pure (fun _ _ h => h) _).ite ?_
    refine (coupled_onBus_start mem (coupled_writeBlocks_start σ k mem _ n buff sector)).bind
      fun _ => ?_
    exact coupled_pure (fun _ _ h => h) _
  · -- the status is that of the drive
    intro x d hsame
    have hstatus : diskStatus 0 x = diskStatus 0 d := by
      unfold diskStatus
      rw [hsame.1]
    show Same _ (.ok (StorageAnswer.status (diskStatus 0 x), x)) (.ok (.status (diskStatus 0 d), d))
    rw [hstatus]
    exact .ok hsame
  · refine (coupled_whenReady mem 0 _ fun p => ?_).bind fun _ => coupled_pure (fun _ _ h => h) _
    exact coupled_pure (fun _ _ h => h) _

/-- **Both answer every sequence of calls alike**. -/
theorem coupled_execAll_start (cs : List StorageCall) : Coupled (SameDrive mem) (SameDrive mem)
    (execAll (startBoard σ k mem) fuel cs) (execAll (cardBoard k) fuel cs) := by
  induction cs with
  | nil => exact coupled_pure (fun _ _ h => h) []
  | cons c cs ih =>
      refine (coupled_call_start σ k mem c).bind fun a => ih.bind fun h => ?_
      exact coupled_pure (fun _ _ h => h) _

/-- The handshake makes the host wait for a finite time only. -/
theorem exists_wait (n : ℕ) : ∃ N, ∀ t, t < n → σ.wait t < N := by
  refine ⟨(Finset.range n).sup σ.wait + 1, fun t ht => ?_⟩
  exact Nat.lt_succ_of_le (Finset.le_sup (Finset.mem_range.2 ht))

/-- **From power-on to storage.**  From any state of a card in which it is not in the middle of a
command, `disk_initialize` returns.  It succeeds exactly on the cards that it should take: those
that are reset by one of four `CMD0`, take the voltage, are ready within a thousand questions, and
take the length of a block when they address bytes.  A card that it takes is addressed as it
wants to be, and every sequence of calls then reads what the card held or what was written since;
for any other card the drive is as before, and can be tried again. -/
theorem power_up_to_storage (hmode : k.byteAddressed = decide (¬ σ.HighCapacity)) (s : Starting)
    (hclocks : s.clocks ≤ 32) (hbytes : s.bytes = []) (hout : s.out = []) (p : Pdrv) (sel : Bool)
    (readonly : Bool) (cs : List StorageCall) (hcs : ∀ c ∈ cs, c.Legal) :
    ∃ N, ∀ fuel, N ≤ fuel → ∃ r d₁,
      diskInitialize (startBoard σ k mem) fuel readonly 0 ⟨p, .starting sel s⟩ = .ok (r, d₁) ∧
      (σ.Accepted s → r = (if readonly then .protect else .ok) ∧
        d₁.drive = ⟨true, true, readonly, k.byteAddressed⟩ ∧
        ∃ h d₂, execAll (startBoard σ k mem) fuel cs d₁ = .ok (h, d₂) ∧ h.map Prod.fst = cs ∧
          ∀ pre e post, h = pre ++ e :: post →
            AnswerRight (pre.foldl note fun b => some (mem b)) e) ∧
      (¬ σ.Accepted s → r = .nodisk ∧ marks d₁.drive = marks p ∧
        ∃ s', s'.Quiet ∧ d₁.bus = .starting false s') := by
  obtain ⟨N, hwait⟩ := exists_wait σ (s.turn + 2007)
  obtain ⟨M, hpatient⟩ := exists_patient k 0 (0 + commandsOf cs)
  refine ⟨max N M, fun fuel hfuel => ?_⟩
  obtain ⟨ok, p', s', hinit, hquiet, hmarks, hiff, hup⟩ := initCard_start σ k mem hclocks hbytes
    hout (fun t ht => (hwait t ht).trans_le ((le_max_left N M).trans hfuel)) p sel
  unfold diskInitialize
  rw [if_pos (show 0 < nPdrv by decide), bind_of_ok hinit]
  cases ok with
  | false =>
      refine ⟨.nodisk, _, rfl, fun h => absurd (hiff.2 h) Bool.false_ne_true, fun _ => ?_⟩
      exact ⟨rfl, hmarks, s', hquiet, rfl⟩
  | true =>
      obtain ⟨hup', haddr⟩ := hup rfl
      -- the drive that the transfers begin with, over a card that is new
      have hsame : SameDrive mem
          ⟨{ p' with initialized := true, present := true, writeProtected := readonly },
            .starting false s'⟩
          ⟨⟨true, true, readonly, k.byteAddressed⟩, ⟨false, newCard mem⟩⟩ := by
        refine ⟨?_, Or.inr ⟨s', rfl, hup', rfl⟩⟩
        rw [hmode, ← haddr]
      obtain ⟨h, d, hrun, hmap, -, -, hright⟩ := execAll_done k cs hcs
        (d := ⟨⟨true, true, readonly, k.byteAddressed⟩, ⟨false, newCard mem⟩⟩)
        ⟨rfl, rfl, rfl, rfl, rfl, rfl⟩
        (show BlockStore.Known (fun b => some (mem b)) mem from fun _ _ hb => Option.some.inj hb)
        (hpatient fuel ((le_max_right N M).trans hfuel))
      have hcoupled := @coupled_execAll_start σ k mem fuel cs _ _ hsame
      rw [hrun] at hcoupled
      obtain ⟨d₂, hrun', -⟩ := hcoupled.of_ok
      refine ⟨if readonly then .protect else .ok, _, rfl, fun _ => ⟨rfl, hsame.1, h, d₂, hrun', hmap,
        hright⟩, fun hnot => absurd (hiff.1 rfl) hnot⟩

/-! ### A slow card -/

/-- A card that addresses bytes, misses the first `CMD0`, and is busy for a while. -/
def slowCard : StartUp where
  wait n := n % 3
  resetAnswer n := if n = 0 then 0x09 else sdStateIdle
  version2 := true
  voltage := true
  busyPolls := 200
  ocr := 0x80FF8000
  lengthAnswer := 0
  lineIsIdle_reset n := by split_ifs <;> decide
  lineIsIdle_length := by decide

/-- Its state when it is powered. -/
def powered : Starting := ⟨10, [], [], 0, 0, false, false, 0, false⟩

/-- A slow card starts up and stores what is written. -/
theorem power_up_to_storage_slowCard : ∃ N, ∀ fuel, N ≤ fuel → ∃ d₁ h d₂,
    diskInitialize (startBoard slowCard willing fun _ => Vector.replicate blockSize 0) fuel false 0
      ⟨.zero, .starting false powered⟩ = .ok (.ok, d₁) ∧
    execAll (startBoard slowCard willing fun _ => Vector.replicate blockSize 0) fuel rewriteRun d₁
      = .ok (h, d₂) ∧ h.map Prod.fst = rewriteRun := by
  obtain ⟨N, hN⟩ := power_up_to_storage slowCard willing (fun _ => Vector.replicate blockSize 0)
    (by decide) powered (by decide) rfl rfl .zero false false rewriteRun rewriteRun_legal
  refine ⟨N, fun fuel hfuel => ?_⟩
  obtain ⟨r, d₁, hinit, htaken, -⟩ := hN fuel hfuel
  obtain ⟨rfl, -, h, d₂, hrun, hmap, -⟩ :=
    htaken ⟨⟨1, by decide, rfl⟩, ⟨rfl, rfl⟩, by decide, Or.inr rfl⟩
  exact ⟨d₁, h, d₂, hinit, hrun, hmap⟩

end Calls

end Sd

end Nucleo
