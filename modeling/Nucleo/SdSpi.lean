/-
# The SD card over SPI

`sd_spi.c`: commands and blocks of 512 bytes, sent to and received from the card one byte
at a time.  Nothing is assumed about the card: an `SpiBoard` gives the byte that comes back
for a byte sent, as a function of a state of its own.

The loops that wait for the card have no limit in the source; here they are bounded by
`fuel`, and a computation that is still waiting then has not returned (`Stop.waiting`).
-/
import Nucleo.Lib.Comp
import Nucleo.Inet

namespace Nucleo

namespace Sd

/-- Why a computation has not returned: it is still in a loop that waits for the card. -/
inductive Stop
  | waiting
  deriving DecidableEq, Repr

/-- What the program sees of `SPI1` and of the line `PB5`, which selects the card when low. -/
structure SpiBoard (χ : Type) where
  /-- `spi_xfer`: the byte received while a byte is sent. -/
  xfer : Byte → χ → Byte × χ
  gpioClear : χ → χ
  gpioSet : χ → χ
  /-- `sd_spi_init`, with the full speed or with the one for the start. -/
  spiInit : Bool → χ → χ

def dataCtrlStart : Byte := 0xFE
def dataRespMask : Byte := 0x1F
def dataRespAccepted : Byte := 0x05
def dataIdle : Byte := 0xFF
def dataDummy : Byte := 0xFF
def blockSize : ℕ := 512

section Driver

variable {χ : Type} (B : SpiBoard χ) (fuel : ℕ)

/-! ## Bytes -/

/-- `spi_xfer(SPI1, data)`. -/
def spiXfer (data : Byte) : Comp χ Stop Byte := fun c => .ok (B.xfer data c)

/-- Send bytes, whatever comes back. -/
def sendBytes : List Byte → Comp χ Stop Unit
  | [] => pure ()
  | b :: bs => do
      let _ ← spiXfer B b
      sendBytes bs

/-- Receive `n` bytes. -/
def recvBytes : ℕ → Comp χ Stop (List Byte)
  | 0 => pure []
  | n + 1 => do
      let b ← spiXfer B dataDummy
      let bs ← recvBytes n
      pure (b :: bs)

/-- Receive bytes until one of them is as `stop` says, and return that one. -/
def recvUntil (stop : Byte → Bool) : Comp χ Stop Byte :=
  Comp.iter Stop.waiting (fun _ : Unit => do
    let r ← spiXfer B dataDummy
    pure (if stop r then .inr r else .inl ())) fuel ()

/-! ## Selecting the card -/

/-- The loop of `sd_select`: until the line is idle, at most `tries` times. -/
def selectTries : ℕ → Comp χ Stop Unit
  | 0 => pure ()
  | tries + 1 => do
      let r ← spiXfer B dataDummy
      if r = dataIdle then pure () else selectTries tries

/-- `sd_select`. -/
def sdSelect : Comp χ Stop Unit := do
  modify B.gpioClear
  selectTries B 125

/-- `sd_deselect`. -/
def sdDeselect : Comp χ Stop Unit := do
  modify B.gpioSet
  let _ ← spiXfer B dataIdle
  pure ()

/-! ## Commands -/

/-- `crc7_get`: right for the two commands that need it. -/
def crc7Get (cmd : Byte) : Byte :=
  let cmd := cmd &&& 0x3F
  (if cmd = 0 then 0x94 else if cmd = 8 then 0x86 else 0xFF) ||| 0x01

/-- The bytes that `send_cmd` sends. -/
def cmdBytes (cmd : Byte) (arg : BitVec 32) : List Byte :=
  [cmd ||| 0x40, (arg >>> 24).setWidth 8, (arg >>> 16).setWidth 8, (arg >>> 8).setWidth 8,
    arg.setWidth 8, crc7Get cmd]

/-- `send_cmd`. -/
def sendCmd (cmd : Byte) (arg : BitVec 32) : Comp χ Stop Unit := sendBytes B (cmdBytes cmd arg)

/-- `line_is_idle`. -/
def lineIsIdle (data : Byte) : Bool := data &&& 0x80 ≠ 0

/-- `wait_resp`. -/
def waitResp : Comp χ Stop Byte := recvUntil B fuel fun r => ¬ lineIsIdle r

/-- `sd_send_command_inner`: the first of the `len` bytes of the response is waited for. -/
def sdSendCommandInner (cmd : Byte) (arg : BitVec 32) (len : ℕ) : Comp χ Stop (List Byte) := do
  sendCmd B cmd arg
  let r ← waitResp B fuel
  let rs ← recvBytes B (len - 1)
  pure (r :: rs)

/-- `sd_send_command`. -/
def sdSendCommand (cmd : Byte) (arg : BitVec 32) (len : ℕ) : Comp χ Stop (List Byte) := do
  sdSelect B
  let resp ← sdSendCommandInner B fuel cmd arg len
  sdDeselect B
  pure resp

/-- `sd_send_command_r1`. -/
def sdSendCommandR1 (cmd : Byte) (arg : BitVec 32) : Comp χ Stop Byte := do
  let resp ← sdSendCommand B fuel cmd arg 1
  pure (resp.getD 0 0)

/-- `send_rw_cmd`: did the card take the command? -/
def sendRwCmd (cmd : Byte) (address : BitVec 32) : Comp χ Stop Bool := do
  sendCmd B cmd address
  let r1 ← waitResp B fuel
  pure (r1 = 0x00)

/-! ## Reading a block -/

/-- `read_block`: the block, if the card sent one. -/
def readBlock : Comp χ Stop (Option (List Byte)) := do
  let dataCtrl ← recvUntil B fuel fun b => b ≠ dataIdle
  if dataCtrl = dataCtrlStart then
    let bytes ← recvBytes B blockSize
    let _ ← recvBytes B 2
    pure (some bytes)
  else pure none

/-- `sd_read_single_block`; `none` stands for -1. -/
def sdReadSingleBlock (address : BitVec 32) : Comp χ Stop (Option (List Byte)) := do
  sdSelect B
  let ok ← sendRwCmd B fuel 17 address
  let res ← (if ok then readBlock B fuel else pure none)
  sdDeselect B
  pure res

/-! ## Writing a block -/

/-- The loop of `send_block`, over a buffer that starts with the bytes still to send. -/
def sendData : ℕ → List Byte → Comp χ Stop Unit
  | 0, _ => pure ()
  | n + 1, src => do
      let _ ← spiXfer B (src.headD 0)
      sendData n src.tail

/-- `send_block`: did the card accept the block? -/
def sendBlock (src : List Byte) : Comp χ Stop Bool := do
  let _ ← spiXfer B dataCtrlStart
  sendData B blockSize src
  sendBytes B [dataDummy, dataDummy]
  let dataResp ← spiXfer B dataDummy
  pure (dataResp &&& dataRespMask = dataRespAccepted)

/-- `wait_end_write`: the end of the busy bytes, and then the card's status. -/
def waitEndWrite : Comp χ Stop Bool := do
  let _ ← recvUntil B fuel fun b => b = dataIdle
  let r2 ← sdSendCommandInner B fuel 13 0 2
  pure (r2.all fun b => b = 0x00)

/-- `sd_write_single_block`; `true` stands for 0. -/
def sdWriteSingleBlock (address : BitVec 32) (src : List Byte) : Comp χ Stop Bool := do
  sdSelect B
  let ok ← sendRwCmd B fuel 24 address
  let accepted ← (if ok then sendBlock B src else pure false)
  let res ← (if accepted then waitEndWrite B fuel else pure false)
  sdDeselect B
  pure res

/-! ## Initialisation -/

/-- `sd_full_speed`. -/
def sdFullSpeed : Comp χ Stop Unit := modify (B.spiInit true)

/-- `sd_init`: the card is not selected while it gets more than 250 clocks. -/
def sdInit : Comp χ Stop Unit := do
  modify B.gpioSet
  modify (B.spiInit false)
  sendBytes B (List.replicate 32 0xFF)

end Driver

end Sd

end Nucleo
